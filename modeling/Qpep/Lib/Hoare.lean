import Mathlib.Logic.Basic

/-!
# Pre- and postconditions for programs with a state and exceptions

`Triple P x Q E`: from a state with `P` the program `x` returns a value and a state with `Q`, or raises an exception in a
state with `E`. A postcondition `E` that is never met says that the program returns. One rule for each way of building a
program; the rule for loops (`triple_foldlM`) has an invariant that sees which elements are done; for a loop over numbers
(`triple_foldlM_range`) it sees how many rounds are done.
-/

namespace Hoare

variable {ε σ α β γ : Type}

/-- From every state with `P`, `x` returns in a state with `Q` or raises in a state with `E`. -/
def Triple (P : σ → Prop) (x : EStateM ε σ α) (Q : α → σ → Prop) (E : ε → σ → Prop) : Prop :=
  ∀ s, P s → match x.run s with
    | .ok a s' => Q a s'
    | .error e s' => E e s'

/-- `x` returns from every state and changes it by `f`. -/
def Does (x : EStateM ε σ PUnit) (f : σ → σ) : Prop := ∀ s, x.run s = .ok ⟨⟩ (f s)

/-- The state a run ends in, whether it returns or raises. -/
def endState : EStateM.Result ε σ α → σ
  | .ok _ s => s
  | .error _ s => s

section Rules

variable {P P' : σ → Prop} {Q Q' : α → σ → Prop} {R : β → σ → Prop} {E E' : ε → σ → Prop}

/-- Stronger before, weaker after. -/
theorem Triple.conseq {x : EStateM ε σ α} (h : Triple P x Q E) (hP : ∀ s, P' s → P s) (hQ : ∀ a s, Q a s → Q' a s)
    (hE : ∀ e s, E e s → E' e s) : Triple P' x Q' E' := by
  intro s hs
  have h' := h s (hP s hs)
  cases hx : x.run s with
  | ok a s' =>
    rw [hx] at h'
    exact hQ a s' h'
  | error e s' =>
    rw [hx] at h'
    exact hE e s' h'

theorem Triple.pre {x : EStateM ε σ α} (h : Triple P x Q E) (hP : ∀ s, P' s → P s) : Triple P' x Q E :=
  h.conseq hP (fun _ _ hq => hq) fun _ _ he => he

theorem Triple.post {x : EStateM ε σ α} (h : Triple P x Q E) (hQ : ∀ a s, Q a s → Q' a s) : Triple P x Q' E :=
  h.conseq (fun _ hp => hp) hQ fun _ _ he => he

/-- A fact that does not speak about the state can be taken out of a precondition. -/
theorem triple_pure_and {p : Prop} {x : EStateM ε σ α} (h : p → Triple P x Q E) : Triple (fun s => p ∧ P s) x Q E := by
  intro s hboth
  obtain ⟨hp, hs⟩ := hboth
  exact h hp s hs

theorem triple_pure {a : α} (h : ∀ s, P s → Q a s) : Triple P (pure a : EStateM ε σ α) Q E := h

theorem triple_throw {e : ε} (h : ∀ s, P s → E e s) : Triple P (throw e : EStateM ε σ α) Q E := h

theorem triple_modify {f : σ → σ} {Q : PUnit → σ → Prop} (h : ∀ s, P s → Q ⟨⟩ (f s)) :
    Triple P (modify f : EStateM ε σ PUnit) Q E := h

/-- A program that always returns the value `a` and changes the state by `f`. -/
theorem triple_of_run {x : EStateM ε σ α} {a : α} {f : σ → σ} (hx : ∀ s, x.run s = .ok a (f s)) (h : ∀ s, P s → Q a (f s)) :
    Triple P x Q E := by
  intro s hs
  rw [hx]
  exact h s hs

theorem triple_bind {x : EStateM ε σ α} {f : α → EStateM ε σ β} (hx : Triple P x Q E) (hf : ∀ a, Triple (Q a) (f a) R E) :
    Triple P (x >>= f) R E := by
  intro s hs
  have h := hx s hs
  rw [EStateM.run_bind]
  cases hr : x.run s with
  | ok a s' =>
    rw [hr] at h
    exact hf a s' h
  | error e s' =>
    rw [hr] at h
    exact h

theorem triple_ite {c : Prop} [Decidable c] {x y : EStateM ε σ α} (hx : c → Triple P x Q E) (hy : ¬c → Triple P y Q E) :
    Triple P (if c then x else y) Q E := by
  split
  · rename_i h
    exact hx h
  · rename_i h
    exact hy h

/-- A loop over a list: an invariant on the elements done, the accumulator and the state (induction on the elements to come). -/
theorem triple_foldlM {f : β → α → EStateM ε σ β} {l : List α} {b : β} (I : List α → β → σ → Prop)
    (hf : ∀ done a rest, l = done ++ a :: rest → ∀ b, Triple (I done b) (f b a) (I (done ++ [a])) E) :
    Triple (I [] b) (l.foldlM f b) (I l) E := by
  have hall : ∀ rest done b, l = done ++ rest → Triple (I done b) (rest.foldlM f b) (I l) E := by
    intro rest
    induction rest with
    | nil =>
      intro done b hl
      rw [List.append_nil] at hl
      subst hl
      exact triple_pure fun _ hs => hs
    | cons a rest ih =>
      intro done b hl
      rw [List.foldlM_cons]
      refine triple_bind (hf done a rest hl b) ?_
      intro b'
      exact ih (done ++ [a]) b' (by rw [hl, List.append_assoc]; rfl)
  exact hall l [] b rfl

/-- A loop whose invariant does not look at the elements done. -/
theorem triple_foldlM_inv {f : β → α → EStateM ε σ β} {l : List α} {b : β} {I : β → σ → Prop}
    (hf : ∀ a ∈ l, ∀ b, Triple (I b) (f b a) I E) : Triple (I b) (l.foldlM f b) I E := by
  refine triple_foldlM (fun _ => I) ?_
  intro done a rest hl
  exact hf a (by rw [hl]; exact List.mem_append_right done List.mem_cons_self)

/-- A loop over the numbers below `n`: an invariant on the rounds done. -/
theorem triple_foldlM_range {f : β → Nat → EStateM ε σ β} {n : Nat} {b : β} (I : Nat → β → σ → Prop)
    (hf : ∀ i < n, ∀ b, Triple (I i b) (f b i) (I (i + 1)) E) :
    Triple (I 0 b) ((List.range n).foldlM f b) (I n) E := by
  have hloop := triple_foldlM (E := E) (f := f) (b := b) (fun done => I done.length) (l := List.range n) ?_
  · rwa [List.length_range] at hloop
  · intro done i rest hdone b
    have hlength : done.length < n := by
      rw [← List.length_range (n := n), hdone, List.length_append, List.length_cons]
      omega
    have hi : i = done.length := by
      have hat : (List.range n)[done.length]? = some i := by
        rw [hdone, List.getElem?_append_right (Nat.le_refl _), Nat.sub_self, List.getElem?_cons_zero]
      rw [List.getElem?_range hlength] at hat
      exact (Option.some.inj hat).symm
    rw [List.length_append, List.length_singleton, hi]
    exact hf done.length hlength b

/-- What a program that never raises returns. -/
theorem Triple.returns {x : EStateM ε σ α} (h : Triple P x Q fun _ _ => False) {s : σ} (hs : P s) :
    ∃ a s', x.run s = .ok a s' ∧ Q a s' := by
  have h' := h s hs
  cases hx : x.run s with
  | ok a s' =>
    rw [hx] at h'
    exact ⟨a, s', rfl, h'⟩
  | error e s' =>
    rw [hx] at h'
    exact h'.elim

/-- A program that returns from every state with `P`, and then with `Q`. -/
theorem triple_of_returns {x : EStateM ε σ α} (h : ∀ s, P s → ∃ a s', x.run s = .ok a s' ∧ Q a s') : Triple P x Q E := by
  intro s hs
  obtain ⟨a, s', hx, hq⟩ := h s hs
  rw [hx]
  exact hq

theorem does_pure : Does (pure ⟨⟩ : EStateM ε σ PUnit) id := fun _ => rfl

theorem does_set (s : σ) : Does (set s : EStateM ε σ PUnit) fun _ => s := fun _ => rfl

theorem Does.seq {x y : EStateM ε σ PUnit} {f g : σ → σ} (hx : Does x f) (hy : Does y g) :
    Does (x >>= fun _ => y) fun s => g (f s) := by
  intro s
  rw [EStateM.run_bind, hx s]
  exact hy (f s)

end Rules

end Hoare
