import Qpep.Lib.Machine

/-!
# Simulation

Some steps of a machine can be seen from outside, as events; the others are silent. One machine simulates another one if,
related to it, it can answer each visible step with the event itself and stays related over each silent one (`Simulates`).
Then every trace of the first machine is a run of the second one (`Simulates.run`).
-/

namespace Machine

variable {σ α τ ε : Type}

/-- What can be seen of a run. -/
def trace (step : Step σ α) (visible : σ → α → Option ε) (s : σ) : List α → List ε
  | [] => []
  | a :: as => (visible s a).toList ++ match step s a with
    | some s' => trace step visible s' as
    | none => []

theorem trace_cons {step : Step σ α} {visible : σ → α → Option ε} {s s' : σ} {a : α} (h : step s a = some s') (as : List α) :
    trace step visible s (a :: as) = (visible s a).toList ++ trace step visible s' as := by
  simp only [trace, h]

/-- While `inv` holds of the first machine and `rel` of the two, every step of the first one that meets `ok` is silent and keeps
`rel`, or it is an event that the second machine answers, and they are related again. -/
structure Simulates (step : Step σ α) (ok : σ → α → Prop) (inv : σ → Prop) (visible : σ → α → Option ε) (step' : Step τ ε)
    (rel : σ → τ → Prop) : Prop where
  keeps : ∀ s a s', inv s → ok s a → step s a = some s' → inv s'
  silent : ∀ s a s' t, inv s → rel s t → ok s a → step s a = some s' → visible s a = none → rel s' t
  answered : ∀ s a s' t e, inv s → rel s t → ok s a → step s a = some s' → visible s a = some e →
    ∃ t', step' t e = some t' ∧ rel s' t'

/-- The trace of a run is a run of the machine that simulates it (induction on the run). -/
theorem Simulates.run {step : Step σ α} {ok : σ → α → Prop} {inv : σ → Prop} {visible : σ → α → Option ε} {step' : Step τ ε}
    {rel : σ → τ → Prop} (h : Simulates step ok inv visible step' rel) {s s' : σ} {t : τ} {as : List α} (hs : inv s)
    (ht : rel s t)
    (hrun : Machine.run step s as = some s') (hok : Along step ok s as) :
    ∃ t', Machine.run step' t (trace step visible s as) = some t' ∧ rel s' t' ∧ inv s' := by
  induction as generalizing s t with
  | nil =>
    cases hrun
    exact ⟨t, rfl, ht, hs⟩
  | cons a as ih =>
    obtain ⟨s₁, h₁, hr⟩ := run_cons_eq_some.mp hrun
    have hs₁ := h.keeps s a s₁ hs hok.1 h₁
    rw [trace_cons h₁]
    cases hv : visible s a with
    | none => exact ih hs₁ (h.silent s a s₁ t hs ht hok.1 h₁ hv) hr (hok.2 s₁ h₁)
    | some e =>
      obtain ⟨t₁, ht₁, hrel⟩ := h.answered s a s₁ t e hs ht hok.1 h₁ hv
      obtain ⟨t', hrun', hrest⟩ := ih hs₁ hrel hr (hok.2 s₁ h₁)
      exact ⟨t', run_cons_eq_some.mpr ⟨t₁, ht₁, hrun'⟩, hrest⟩

end Machine
