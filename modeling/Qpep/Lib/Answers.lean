import Qpep.Lib.Simulation

/-!
# Answering a run

Two machines with the same actions. Some of the actions count: one machine answers the other if it makes each step that
counts itself, and for each other step some steps, or none, that do not count either (`Answers`). Only runs that end well
are answered: what is asked of the last state holds, seen backwards, of all states before it. Then every such run of the
first machine has a run of the second one with the same actions that count, in the same order (`Answers.run`).
-/

namespace Machine

variable {σ τ α ε : Type}

/-! ## Runs under a condition -/

/-- The actions lead from one state to another one, and every step meets a condition. -/
def Leads (step : Step σ α) (ok : σ → α → Prop) (s : σ) (as : List α) (s' : σ) : Prop :=
  run step s as = some s' ∧ Along step ok s as

variable {step : Step σ α} {ok : σ → α → Prop} {s s₁ s' : σ} {a : α} {as bs : List α}

theorem Leads.nil : Leads step ok s [] s := ⟨rfl, trivial⟩

theorem Leads.cons (hok : ok s a) (hs : step s a = some s₁) (h : Leads step ok s₁ as s') : Leads step ok s (a :: as) s' := by
  refine ⟨run_cons_eq_some.mpr ⟨s₁, hs, h.1⟩, hok, ?_⟩
  intro s₂ hs₂
  cases hs.symm.trans hs₂
  exact h.2

theorem Leads.one (hok : ok s a) (hs : step s a = some s') : Leads step ok s [a] s' := .cons hok hs .nil

theorem Leads.append (h₁ : Leads step ok s as s₁) (h₂ : Leads step ok s₁ bs s') : Leads step ok s (as ++ bs) s' := by
  refine ⟨run_append_eq_some.mpr ⟨s₁, h₁.1, h₂.1⟩, along_append.mpr ⟨h₁.2, ?_⟩⟩
  intro s₂ hs₂
  cases h₁.1.symm.trans hs₂
  exact h₂.2

/-- What each step takes over from the state after it holds at the start of a run if it holds at the end (induction on the
run). -/
theorem back_run {good : σ → Prop} (hback : ∀ s a s', step s a = some s' → good s' → good s) (hrun : run step s as = some s')
    (h : good s') : good s := by
  induction as generalizing s with
  | nil =>
    cases hrun
    exact h
  | cons a as ih =>
    obtain ⟨s₁, h₁, hr⟩ := run_cons_eq_some.mp hrun
    exact hback s a s₁ h₁ (ih hr)

/-! ## What can be seen of them -/

/-- What can be seen of a run and then of another one. -/
theorem trace_append {visible : σ → α → Option ε} (h : run step s as = some s') (bs : List α) :
    trace step visible s (as ++ bs) = trace step visible s as ++ trace step visible s' bs := by
  induction as generalizing s with
  | nil =>
    cases h
    rfl
  | cons a as ih =>
    obtain ⟨s₁, h₁, hr⟩ := run_cons_eq_some.mp h
    rw [List.cons_append, trace_cons h₁, trace_cons h₁, ih hr, List.append_assoc]

/-- Nothing can be seen of a run whose actions cannot be seen. -/
theorem trace_hidden {visible : σ → α → Option ε} (h : ∀ a ∈ as, ∀ s, visible s a = none) (s : σ) :
    trace step visible s as = [] := by
  induction as generalizing s with
  | nil => rfl
  | cons a as ih =>
    rw [trace, h a List.mem_cons_self]
    cases step s a with
    | none => rfl
    | some s' => exact ih (fun b hb => h b (List.mem_cons_of_mem a hb)) s'

/-! ## Answers -/

/-- While `inv` holds of the first machine, `good` of its next state and `rel` of the two, the second machine can make each
step that counts and answers each other one with steps that do not, all of which meet `ok'`, and they are related again. -/
structure Answers (step : Step σ α) (inv good : σ → Prop) (step' : Step τ α) (ok' : τ → α → Prop) (counts : α → Bool)
    (rel : σ → τ → Prop) : Prop where
  keeps : ∀ s a s', inv s → step s a = some s' → inv s'
  back : ∀ s a s', step s a = some s' → good s' → good s
  counted : ∀ s a s' t, inv s → good s' → rel s t → counts a = true → step s a = some s' →
    ∃ t', Leads step' ok' t [a] t' ∧ rel s' t'
  other : ∀ s a s' t, inv s → good s' → rel s t → counts a = false → step s a = some s' →
    ∃ bs t', (∀ b ∈ bs, counts b = false) ∧ Leads step' ok' t bs t' ∧ rel s' t'

/-- A run of the first machine that ends well has a run of the second one with the same actions that count, which shows the
same if only these show anything, and the same in related states (induction on the run). -/
theorem Answers.run {inv good : σ → Prop} {step' : Step τ α} {ok' : τ → α → Prop} {counts : α → Bool} {rel : σ → τ → Prop}
    (h : Answers step inv good step' ok' counts rel) {ι : Type} {visible : ι → σ → α → Option ε} {visible' : ι → τ → α → Option ε}
    (hseen : ∀ i s a t, rel s t → counts a = true → visible' i t a = visible i s a)
    (hunseen : ∀ i a, counts a = false → (∀ s, visible i s a = none) ∧ ∀ t, visible' i t a = none)
    {t : τ} (hs : inv s) (ht : rel s t) (hrun : Machine.run step s as = some s') (hgood : good s') :
    ∃ bs t', Leads step' ok' t bs t' ∧ bs.filter counts = as.filter counts ∧
      (∀ i, trace step' (visible' i) t bs = trace step (visible i) s as) ∧ rel s' t' := by
  induction as generalizing s t with
  | nil =>
    cases hrun
    exact ⟨[], t, .nil, rfl, fun _ => rfl, ht⟩
  | cons a as ih =>
    obtain ⟨s₁, h₁, hr⟩ := run_cons_eq_some.mp hrun
    have hs₁ := h.keeps s a s₁ hs h₁
    have hgood₁ := back_run h.back hr hgood
    cases hc : counts a with
    | true =>
      obtain ⟨t₁, hleads₁, hrel⟩ := h.counted s a s₁ t hs hgood₁ ht hc h₁
      obtain ⟨bs, t', hleads, hsame, htrace, hend⟩ := ih hs₁ hrel hr
      obtain ⟨t₂, ht₁, he⟩ := run_cons_eq_some.mp hleads₁.1
      cases he
      refine ⟨a :: bs, t', hleads₁.append hleads, ?_, ?_, hend⟩
      · rw [List.filter_cons_of_pos hc, List.filter_cons_of_pos hc, hsame]
      · intro i
        rw [trace_cons ht₁, trace_cons h₁, htrace i, hseen i s a t ht hc]
    | false =>
      obtain ⟨bs₁, t₁, hbs₁, hleads₁, hrel⟩ := h.other s a s₁ t hs hgood₁ ht hc h₁
      obtain ⟨bs, t', hleads, hsame, htrace, hend⟩ := ih hs₁ hrel hr
      have hnone : bs₁.filter counts = [] := List.filter_eq_nil_iff.mpr fun b hb => by simp [hbs₁ b hb]
      refine ⟨bs₁ ++ bs, t', hleads₁.append hleads, ?_, ?_, hend⟩
      · rw [List.filter_append, hnone, List.nil_append, hsame, List.filter_cons_of_neg (by simp [hc])]
      · intro i
        rw [trace_append hleads₁.1, trace_hidden (fun b hb => (hunseen i b (hbs₁ b hb)).2) t, List.nil_append, trace_cons h₁,
          htrace i, (hunseen i a hc).1 s]
        rfl

end Machine
