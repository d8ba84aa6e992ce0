import Mathlib.Data.List.Nodup

/-!
# Rows of writes that may be refused

A store with writes of values to addresses. Whether a write is refused depends neither on its value nor on the writes before
it (`Lawful`). A row of writes ends at the first one that is refused. A row that writes to the same addresses as a row
before it leaves nothing of that one (`run_again`). What a row leaves at an address is what the write to it put there, if
the row got that far, or what was there before (`run_get`).
-/

namespace Writes

variable {σ A V : Type}

/-- Writes to one address replace one another, writes to two addresses do not disturb one another, and whether a write is
refused is a matter of its address. -/
structure Lawful (w : A → V → σ → Option σ) : Prop where
  again : ∀ {a v v' s s'}, w a v s = some s' → w a v' s' = w a v' s
  comm : ∀ {a b v u s s'}, a ≠ b → w a v s = some s' → w b u s' = (w b u s).bind (w a v)
  value : ∀ a v v' s, (w a v s).isSome = (w a v' s).isSome
  keeps : ∀ {a b v u s s'}, a ≠ b → w a v s = some s' → (w b u s').isSome = (w b u s).isSome

/-- A row of writes, up to the first one that is refused. -/
def run (w : A → V → σ → Option σ) : List (A × V) → σ → σ × Bool
  | [], s => (s, true)
  | (a, v) :: es, s =>
    match w a v s with
    | none => (s, false)
    | some s' => run w es s'

variable {w : A → V → σ → Option σ}

theorem fst_ne {a : A} {es : List (A × V)} (h : a ∉ es.map Prod.fst) : ∀ e ∈ es, a ≠ e.1 := by
  intro e he heq
  exact h (heq ▸ List.mem_map_of_mem he)

theorem run_cons_some {a : A} {v : V} {s s' : σ} (h : w a v s = some s') (es : List (A × V)) :
    run w ((a, v) :: es) s = run w es s' := by
  simp [run, h]

theorem run_cons_none {a : A} {v : V} {s : σ} (h : w a v s = none) (es : List (A × V)) : run w ((a, v) :: es) s = (s, false) := by
  simp [run, h]

/-- A write that is accepted is accepted with any value. -/
theorem Lawful.accepts (hw : Lawful w) {a : A} {v : V} {s s' : σ} (h : w a v s = some s') (v' : V) : ∃ t, w a v' s = some t := by
  have hvalue := hw.value a v' v s
  rw [h, Option.isSome_some] at hvalue
  exact Option.isSome_iff_exists.mp hvalue

/-- Writes to two addresses, in both orders. -/
theorem Lawful.swap (hw : Lawful w) {a b : A} {v u : V} {s s₁ s₂ : σ} (hab : a ≠ b) (ha : w a v s = some s₁)
    (hb : w b u s = some s₂) :
    ∃ t, w b u s₁ = some t ∧ w a v s₂ = some t := by
  have hsome := hw.keeps (u := u) hab ha
  rw [hb, Option.isSome_some] at hsome
  obtain ⟨t, ht⟩ := Option.isSome_iff_exists.mp hsome
  have hcomm := hw.comm (u := u) hab ha
  rw [ht, hb, Option.bind_some] at hcomm
  exact ⟨t, ht, hcomm.symm⟩

/-- A write to another address can be done before the row or behind it (induction on the row). -/
theorem Lawful.run_write (hw : Lawful w) {a : A} {v : V} {es : List (A × V)} (hes : ∀ e ∈ es, a ≠ e.1) {s s₁ : σ}
    (h : w a v s = some s₁) :
    w a v (run w es s).1 = some (run w es s₁).1 ∧ (run w es s₁).2 = (run w es s).2 := by
  induction es generalizing s s₁ with
  | nil => exact ⟨h, rfl⟩
  | cons e es ih =>
    obtain ⟨b, u⟩ := e
    obtain ⟨hne, hrest⟩ := List.forall_mem_cons.mp hes
    cases hb : w b u s with
    | none =>
      have hb' : w b u s₁ = none := by rw [hw.comm hne h, hb, Option.bind_none]
      rw [run_cons_none hb, run_cons_none hb']
      exact ⟨h, rfl⟩
    | some s₂ =>
      obtain ⟨t, ht, ht'⟩ := hw.swap hne h hb
      rw [run_cons_some hb, run_cons_some ht]
      exact ih hrest ht'

/-- A row leaves nothing of a row before it that writes to the same addresses. -/
theorem Lawful.run_again (hw : Lawful w) {es es' : List (A × V)} (haddr : es'.map Prod.fst = es.map Prod.fst)
    (hnodup : (es.map Prod.fst).Nodup) (s : σ) : run w es' (run w es s).1 = run w es' s := by
  induction es generalizing es' s with
  | nil =>
    rw [List.map_nil, List.map_eq_nil_iff] at haddr
    rw [haddr]
    rfl
  | cons e es ih =>
    obtain ⟨a, v⟩ := e
    cases es' with
    | nil => cases haddr
    | cons e' es' =>
      obtain ⟨a', v'⟩ := e'
      obtain ⟨ha, htail⟩ := List.cons.inj haddr
      obtain ⟨hnot, hrest⟩ := List.nodup_cons.mp hnodup
      simp only at ha hnot
      subst ha
      cases hwrite : w a' v s with
      | none => rw [run_cons_none hwrite]
      | some s₁ =>
        obtain ⟨t, ht⟩ := hw.accepts hwrite v'
        have hagain : w a' v' s₁ = some t := by rw [hw.again hwrite, ht]
        rw [run_cons_some hwrite, run_cons_some (hw.run_write (fst_ne hnot) hagain).1, run_cons_some ht]
        exact ih htail hrest t

/-- The writes of a row that are not refused, up to the first one that is. -/
def accepted (w : A → V → σ → Option σ) (es : List (A × V)) (s : σ) : List (A × V) := es.takeWhile fun e => (w e.1 e.2 s).isSome

/-- A write to another address refuses none of a row. -/
theorem Lawful.accepted_write (hw : Lawful w) {a : A} {v : V} {es : List (A × V)} (hes : ∀ e ∈ es, a ≠ e.1) {s s₁ : σ}
    (h : w a v s = some s₁) : accepted w es s₁ = accepted w es s := by
  induction es with
  | nil => rfl
  | cons e es ih =>
    obtain ⟨hne, hrest⟩ := List.forall_mem_cons.mp hes
    have htail := ih hrest
    unfold accepted at htail ⊢
    rw [List.takeWhile_cons, List.takeWhile_cons, hw.keeps hne h, htail]

theorem accepted_cons_some {a : A} {v : V} {s s' : σ} (h : w a v s = some s') (es : List (A × V)) :
    accepted w ((a, v) :: es) s = (a, v) :: accepted w es s := by
  rw [accepted, List.takeWhile_cons, h]
  rfl

theorem accepted_cons_none {a : A} {v : V} {s : σ} (h : w a v s = none) (es : List (A × V)) :
    accepted w ((a, v) :: es) s = [] := by
  rw [accepted, List.takeWhile_cons, h]
  rfl

/-- What is at each address after a row, where `get` reads what a write has put there. -/
theorem Lawful.run_get [DecidableEq A] (hw : Lawful w) {B : Type} (get : A → σ → Option B) (val : V → B)
    (hget : ∀ {a v s s'}, w a v s = some s' → ∀ b, get b s' = if a = b then some (val v) else get b s)
    {es : List (A × V)} (hnodup : (es.map Prod.fst).Nodup) (s : σ) (b : A) :
    get b (run w es s).1 = (((accepted w es s).find? fun e => e.1 = b).map fun e => val e.2).or (get b s) := by
  induction es generalizing s with
  | nil => rfl
  | cons e es ih =>
    obtain ⟨a, v⟩ := e
    obtain ⟨hnot, hrest⟩ := List.nodup_cons.mp hnodup
    have hothers := fst_ne hnot
    cases hwrite : w a v s with
    | none =>
      rw [run_cons_none hwrite, accepted_cons_none hwrite]
      rfl
    | some s₁ =>
      rw [run_cons_some hwrite, ih hrest, hw.accepted_write hothers hwrite, accepted_cons_some hwrite, List.find?_cons,
        hget hwrite]
      by_cases hab : a = b
      · have hnone : (accepted w es s).find? (fun e => e.1 = b) = none := by
          rw [List.find?_eq_none]
          intro e he
          rw [decide_eq_true_eq]
          exact fun h => hothers e (List.takeWhile_subset _ he) (hab.trans h.symm)
        simp [hab, hnone]
      · simp [hab]

/-- A row is done to its end exactly if none of its writes is refused. -/
theorem Lawful.run_done_iff (hw : Lawful w) {es : List (A × V)} (hnodup : (es.map Prod.fst).Nodup) (s : σ) :
    (run w es s).2 = true ↔ accepted w es s = es := by
  induction es generalizing s with
  | nil => exact ⟨fun _ => rfl, fun _ => rfl⟩
  | cons e es ih =>
    obtain ⟨a, v⟩ := e
    obtain ⟨hnot, hrest⟩ := List.nodup_cons.mp hnodup
    have hothers := fst_ne hnot
    cases hwrite : w a v s with
    | none => simp [run_cons_none hwrite, accepted_cons_none hwrite]
    | some s₁ =>
      rw [run_cons_some hwrite, ih hrest, hw.accepted_write hothers hwrite, accepted_cons_some hwrite, List.cons_inj_right]

/-- What the accepted writes keep, the row keeps. -/
theorem Lawful.run_keeps (hw : Lawful w) {p : σ → Prop} {q : A → Prop}
    (hp : ∀ {a v s s'}, q a → w a v s = some s' → p s → p s') {es : List (A × V)} (hnodup : (es.map Prod.fst).Nodup) {s : σ}
    (hes : ∀ e ∈ accepted w es s, q e.1) (hs : p s) : p (run w es s).1 := by
  induction es generalizing s with
  | nil => exact hs
  | cons e es ih =>
    obtain ⟨a, v⟩ := e
    obtain ⟨hnot, hrest⟩ := List.nodup_cons.mp hnodup
    cases hwrite : w a v s with
    | none =>
      rw [run_cons_none hwrite]
      exact hs
    | some s₁ =>
      rw [accepted_cons_some hwrite] at hes
      obtain ⟨ha, htail⟩ := List.forall_mem_cons.mp hes
      rw [run_cons_some hwrite]
      refine ih hrest ?_ (hp ha hwrite hs)
      rwa [hw.accepted_write (fst_ne hnot) hwrite]

/-- What one accepted write brings about and the others keep, the row brings about. -/
theorem Lawful.run_makes (hw : Lawful w) {p : σ → Prop} {q : A → Prop} (hmakes : ∀ {a v s s'}, q a → w a v s = some s' → p s')
    (hkeeps : ∀ {a v s s'}, w a v s = some s' → p s → p s') {es : List (A × V)} (hnodup : (es.map Prod.fst).Nodup) {s : σ}
    (hes : ∃ e ∈ accepted w es s, q e.1) : p (run w es s).1 := by
  induction es generalizing s with
  | nil =>
    obtain ⟨e, he, -⟩ := hes
    simp [accepted] at he
  | cons e es ih =>
    obtain ⟨a, v⟩ := e
    obtain ⟨hnot, hrest⟩ := List.nodup_cons.mp hnodup
    obtain ⟨e, he, hq⟩ := hes
    cases hwrite : w a v s with
    | none => simp [accepted_cons_none hwrite] at he
    | some s₁ =>
      rw [accepted_cons_some hwrite] at he
      rw [run_cons_some hwrite]
      rcases List.mem_cons.mp he with rfl | he
      · exact hw.run_keeps (q := fun _ => True) (fun _ => hkeeps) hrest (fun _ _ => trivial) (hmakes hq hwrite)
      · exact ih hrest ⟨e, by rwa [hw.accepted_write (fst_ne hnot) hwrite], hq⟩

end Writes
