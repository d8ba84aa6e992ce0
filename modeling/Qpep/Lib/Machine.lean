import Mathlib.Logic.Basic

/-!
# Machines

A machine is a set of states, a set of actions and a partial step function: `step s a` is the state after the action `a`,
or nothing when `a` is not enabled in `s`. Every choice of an environment (which party moves, how many bytes a call returns,
whether it fails) is part of the action, so a run is a list of actions and the step function can be evaluated.

Three rules carry the proofs of this development: an invariant kept by every step holds after every run (`inv_run`); the
same when the steps of the run meet a condition (`inv_run_along`); and a part of one machine runs as another machine when
every step is matched (`Tracks.run`).
-/

namespace Machine

variable {σ α τ β : Type}

/-- A partial step function: what an action does to a state, or nothing when the action is not enabled there. -/
abbrev Step (σ α : Type) := σ → α → Option σ

/-- The state after a list of actions, if each is enabled in turn. -/
def run (step : Step σ α) (s : σ) : List α → Option σ
  | [] => some s
  | a :: as => (step s a).bind fun s' => run step s' as

/-- Every step of a run meets a condition on the state before it and the action. -/
def Along (step : Step σ α) (ok : σ → α → Prop) (s : σ) : List α → Prop
  | [] => True
  | a :: as => ok s a ∧ ∀ s', step s a = some s' → Along step ok s' as

/-- No action of a set is enabled. -/
def Quiet (step : Step σ α) (moves : α → Prop) (s : σ) : Prop := ∀ a, moves a → step s a = none

@[simp] theorem run_nil (step : Step σ α) (s : σ) : run step s [] = some s := rfl

theorem run_cons (step : Step σ α) (s : σ) (a : α) (as : List α) :
    run step s (a :: as) = (step s a).bind fun s' => run step s' as := rfl

/-- A nonempty run, seen from its first step. -/
theorem run_cons_eq_some {step : Step σ α} {s s' : σ} {a : α} {as : List α} :
    run step s (a :: as) = some s' ↔ ∃ s₁, step s a = some s₁ ∧ run step s₁ as = some s' := by
  rw [run_cons, Option.bind_eq_some_iff]

/-- A run of two lists is a run of the first followed by a run of the second. -/
theorem run_append_eq_some {step : Step σ α} {s s' : σ} {as bs : List α} :
    run step s (as ++ bs) = some s' ↔ ∃ s₁, run step s as = some s₁ ∧ run step s₁ bs = some s' := by
  induction as generalizing s with
  | nil => simp
  | cons a as ih =>
    simp only [List.cons_append, run_cons_eq_some, ih]
    constructor
    · rintro ⟨s₁, h₁, s₂, h₂, h₃⟩
      exact ⟨s₂, ⟨s₁, h₁, h₂⟩, h₃⟩
    · rintro ⟨s₂, ⟨s₁, h₁, h₂⟩, h₃⟩
      exact ⟨s₁, h₁, s₂, h₂, h₃⟩

/-- A run followed by one more step is a run. -/
theorem run_snoc {step : Step σ α} {s s₁ s₂ : σ} {as : List α} {a : α} (h : run step s as = some s₁)
    (ha : step s₁ a = some s₂) : run step s (as ++ [a]) = some s₂ :=
  run_append_eq_some.mpr ⟨s₁, h, run_cons_eq_some.mpr ⟨s₂, ha, rfl⟩⟩

/-! ## Conditions along a run -/

/-- A condition on the steps of a run, over an append. -/
theorem along_append {step : Step σ α} {ok : σ → α → Prop} {s : σ} {as bs : List α} :
    Along step ok s (as ++ bs) ↔
      Along step ok s as ∧ ∀ s', run step s as = some s' → Along step ok s' bs := by
  induction as generalizing s with
  | nil => simp [Along]
  | cons a as ih =>
    simp only [List.cons_append, Along, ih, run_cons_eq_some]
    constructor
    · rintro ⟨h₁, h₂⟩
      refine ⟨⟨h₁, fun s' hs' => (h₂ s' hs').1⟩, ?_⟩
      rintro s' ⟨s₁, hs₁, hr⟩
      exact (h₂ s₁ hs₁).2 s' hr
    · rintro ⟨⟨h₁, h₂⟩, h₃⟩
      exact ⟨h₁, fun s' hs' => ⟨h₂ s' hs', fun s₂ hr => h₃ s₂ ⟨s', hs', hr⟩⟩⟩

/-- A condition on the steps of a run, with one more step. -/
theorem along_snoc {step : Step σ α} {ok : σ → α → Prop} {s s₁ : σ} {as : List α} {a : α} (h : run step s as = some s₁) :
    Along step ok s (as ++ [a]) ↔ Along step ok s as ∧ ok s₁ a := by
  simp [along_append, h, Along]

/-- A weaker condition holds along the same run. -/
theorem Along.mono {step : Step σ α} {ok ok' : σ → α → Prop} (hok : ∀ s a, ok s a → ok' s a) {s : σ} {as : List α}
    (h : Along step ok s as) : Along step ok' s as := by
  induction as generalizing s with
  | nil => trivial
  | cons a as ih => exact ⟨hok s a h.1, fun s' hs' => ih (h.2 s' hs')⟩

/-- Two conditions hold along a run when each does. -/
theorem Along.and {step : Step σ α} {ok ok' : σ → α → Prop} {s : σ} {as : List α} (h : Along step ok s as)
    (h' : Along step ok' s as) : Along step (fun s a => ok s a ∧ ok' s a) s as := by
  induction as generalizing s with
  | nil => trivial
  | cons a as ih => exact ⟨⟨h.1, h'.1⟩, fun s' hs' => ih (h.2 s' hs') (h'.2 s' hs')⟩

/-- A condition on actions alone holds along a run when it holds of every action of the list. -/
theorem along_of_forall {step : Step σ α} {ok : α → Prop} {s : σ} {as : List α} (h : ∀ a ∈ as, ok a) :
    Along step (fun _ a => ok a) s as := by
  induction as generalizing s with
  | nil => trivial
  | cons a as ih =>
    exact ⟨h a List.mem_cons_self, fun s' _ => ih fun b hb => h b (List.mem_cons_of_mem a hb)⟩

/-- A condition that can be evaluated can be evaluated along a run. -/
instance decidableAlong {step : Step σ α} {ok : σ → α → Prop} [∀ s a, Decidable (ok s a)] :
    (s : σ) → (as : List α) → Decidable (Along step ok s as)
  | _, [] => isTrue trivial
  | s, a :: as =>
    match h : step s a with
    | none => decidable_of_iff (ok s a) ⟨fun hok => ⟨hok, fun _ hs' => nomatch h.symm.trans hs'⟩, And.left⟩
    | some s₁ =>
      have : Decidable (Along step ok s₁ as) := decidableAlong s₁ as
      decidable_of_iff (ok s a ∧ Along step ok s₁ as)
        ⟨fun hok => ⟨hok.1, fun _ hs' => Option.some.inj (h.symm.trans hs') ▸ hok.2⟩, fun hok => ⟨hok.1, hok.2 s₁ h⟩⟩

/-! ## Invariants -/

/-- What every step that meets a condition keeps, a run whose steps all meet it keeps (induction on the run). -/
theorem inv_run_along {step : Step σ α} {ok : σ → α → Prop} {inv : σ → Prop}
    (hstep : ∀ s a s', inv s → ok s a → step s a = some s' → inv s') {s s' : σ} {as : List α} (hs : inv s)
    (hrun : run step s as = some s') (hok : Along step ok s as) : inv s' := by
  induction as generalizing s with
  | nil =>
    cases hrun
    exact hs
  | cons a as ih =>
    obtain ⟨s₁, h₁, hr⟩ := run_cons_eq_some.mp hrun
    exact ih (hstep s a s₁ hs hok.1 h₁) hr (hok.2 s₁ h₁)

/-- What every step keeps, every run keeps. -/
theorem inv_run {step : Step σ α} {inv : σ → Prop} (hstep : ∀ s a s', inv s → step s a = some s' → inv s')
    {s s' : σ} {as : List α} (hs : inv s) (hrun : run step s as = some s') : inv s' :=
  have hok : Along step (fun _ _ => True) s as := along_of_forall fun _ _ => trivial
  inv_run_along (fun s a s' hi _ h => hstep s a s' hi h) hs hrun hok

/-- An invariant that also looks back at the run: what every step keeps, with the step added to the past, holds after every run
of the run's own actions. -/
theorem inv_run_past {step : Step σ α} (inv : List α → σ → Prop)
    (hstep : ∀ past s a s', inv past s → step s a = some s' → inv (past ++ [a]) s') {s s' : σ} {past as : List α}
    (hs : inv past s) (hrun : run step s as = some s') : inv (past ++ as) s' := by
  induction as generalizing s past with
  | nil =>
    cases hrun
    rwa [List.append_nil]
  | cons a as ih =>
    obtain ⟨s₁, h₁, hr⟩ := run_cons_eq_some.mp hrun
    have hcons := ih (hstep past s a s₁ hs h₁) hr
    rwa [List.append_assoc] at hcons

/-- Two conditions that agree on every step that can be made in a state with the invariant hold along the same runs. -/
theorem along_iff_along {step : Step σ α} {ok ok' : σ → α → Prop} {inv : σ → Prop}
    (hstep : ∀ s a s', inv s → step s a = some s' → inv s') (hok : ∀ s a s', inv s → step s a = some s' → (ok s a ↔ ok' s a))
    {s s' : σ} {as : List α} (hs : inv s) (hrun : run step s as = some s') : Along step ok s as ↔ Along step ok' s as := by
  induction as generalizing s with
  | nil => exact Iff.rfl
  | cons a as ih =>
    obtain ⟨s₁, h₁, hr⟩ := run_cons_eq_some.mp hrun
    simp only [Along, h₁, Option.some.injEq, forall_eq']
    rw [hok s a s₁ hs h₁, ih (hstep s a s₁ hs h₁) hr]

/-- Every state a run passes through, its first and its last included, has a property. -/
def Throughout (step : Step σ α) (P : σ → Prop) (s : σ) (as : List α) : Prop :=
  ∀ bs s', bs <+: as → run step s bs = some s' → P s'

/-- A run seen from its first step: the property holds now, and throughout the rest. -/
theorem throughout_cons {step : Step σ α} {P : σ → Prop} {s : σ} {a : α} {as : List α} :
    Throughout step P s (a :: as) ↔ P s ∧ ∀ s', step s a = some s' → Throughout step P s' as := by
  constructor
  · intro h
    refine ⟨h [] s List.nil_prefix rfl, ?_⟩
    intro s' hs' bs s₂ hbs hrun
    exact h (a :: bs) s₂ (List.cons_prefix_cons.mpr ⟨rfl, hbs⟩) (run_cons_eq_some.mpr ⟨s', hs', hrun⟩)
  · rintro ⟨h₁, h₂⟩ bs s₂ hbs hrun
    cases bs with
    | nil =>
      cases hrun
      exact h₁
    | cons b bs =>
      obtain ⟨rfl, htail⟩ := List.cons_prefix_cons.mp hbs
      obtain ⟨s', hs', hr⟩ := run_cons_eq_some.mp hrun
      exact h₂ s' hs' bs s₂ htail hr

/-- The condition on steps that a property needs: when a step that meets it keeps the invariant, and one that does not loses the
property, the property holds throughout a run exactly if every step of the run meets the condition. Both may rest on a condition
`side` that every step of the run meets anyway. -/
theorem throughout_iff_along {step : Step σ α} {side ok : σ → α → Prop} {inv P : σ → Prop} (hinv : ∀ s, inv s → P s)
    (hstep : ∀ s a s', inv s → side s a → ok s a → step s a = some s' → inv s')
    (hbad : ∀ s a s', inv s → side s a → ¬ok s a → step s a = some s' → ¬P s') {s s' : σ} {as : List α} (hs : inv s)
    (hrun : run step s as = some s') (hside : Along step side s as) : Throughout step P s as ↔ Along step ok s as := by
  induction as generalizing s with
  | nil =>
    refine ⟨fun _ => trivial, ?_⟩
    intro _ bs s₂ hbs hr
    rw [List.prefix_nil.mp hbs] at hr
    cases hr
    exact hinv s hs
  | cons a as ih =>
    obtain ⟨s₁, h₁, hr⟩ := run_cons_eq_some.mp hrun
    obtain ⟨hside₁, hrest⟩ := hside
    rw [throughout_cons, Along]
    constructor
    · rintro ⟨-, h⟩
      by_cases hok : ok s a
      · refine ⟨hok, ?_⟩
        intro s₂ hs₂
        have he : s₂ = s₁ := Option.some.inj (hs₂.symm.trans h₁)
        subst he
        exact (ih (hstep s a s₂ hs hside₁ hok h₁) hr (hrest s₂ h₁)).mp (h s₂ h₁)
      · exact absurd (h s₁ h₁ [] s₁ List.nil_prefix rfl) (hbad s a s₁ hs hside₁ hok h₁)
    · rintro ⟨hok, h⟩
      refine ⟨hinv s hs, ?_⟩
      intro s₂ hs₂
      have he : s₂ = s₁ := Option.some.inj (hs₂.symm.trans h₁)
      subst he
      exact (ih (hstep s a s₂ hs hside₁ hok h₁) hr (hrest s₂ h₁)).mpr (h s₂ h₁)

/-! ## Matching one machine by another -/

/-- A state that a machine reaches from one of its start states by steps that all meet a condition. -/
def Started (step : Step σ α) (ok : σ → α → Prop) (start : σ → Prop) (s' : σ) : Prop :=
  ∃ s as, start s ∧ run step s as = some s' ∧ Along step ok s as

theorem Started.step {step : Step σ α} {ok : σ → α → Prop} {start : σ → Prop} {s s' : σ} {a : α}
    (h : Started step ok start s) (hok : ok s a) (hs : step s a = some s') : Started step ok start s' := by
  obtain ⟨s₀, as, hstart, hrun, hal⟩ := h
  refine ⟨s₀, as ++ [a], hstart, run_snoc hrun hs, along_append.mpr ⟨hal, ?_⟩⟩
  intro s₁ hs₁
  cases hrun.symm.trans hs₁
  exact ⟨hok, fun _ _ => trivial⟩

/-- A view of a part of one machine as a state of another machine, for a part that may come into being during the run: while
`inv` holds, a part that comes into being is in a start state, and every step that meets `ok` leaves the view of the part as
it was or is a step of the second machine on an action that meets `ok'`. -/
structure Tracks (step : Step σ α) (ok : σ → α → Prop) (inv : σ → Prop) (step' : Step τ β) (ok' : τ → β → Prop)
    (start : τ → Prop) (view : σ → Option τ) : Prop where
  keeps : ∀ s a s', inv s → step s a = some s' → inv s'
  enters : ∀ s a s' t', inv s → step s a = some s' → view s = none → view s' = some t' → start t'
  matched : ∀ s a s' t, inv s → ok s a → step s a = some s' → view s = some t →
    ∃ t', view s' = some t' ∧ (t' = t ∨ ∃ b, ok' t b ∧ step' t b = some t')

/-- After a run of the first machine, the view is a state that the second one reaches. -/
theorem Tracks.run {step : Step σ α} {ok : σ → α → Prop} {inv : σ → Prop} {step' : Step τ β} {ok' : τ → β → Prop}
    {start : τ → Prop} {view : σ → Option τ} (h : Tracks step ok inv step' ok' start view) {s s' : σ} {as : List α} {t' : τ}
    (hs : inv s) (hnone : view s = none) (hrun : Machine.run step s as = some s') (hok : Along step ok s as)
    (hv : view s' = some t') : Started step' ok' start t' := by
  have hinit : inv s ∧ ∀ t, view s = some t → Started step' ok' start t :=
    ⟨hs, fun t ht => by cases hnone.symm.trans ht⟩
  have hstep : ∀ s a s₁, (inv s ∧ ∀ t, view s = some t → Started step' ok' start t) → ok s a → step s a = some s₁ →
      inv s₁ ∧ ∀ t, view s₁ = some t → Started step' ok' start t := by
    intro s a s₁ hi hok hs₁
    refine ⟨h.keeps s a s₁ hi.1 hs₁, ?_⟩
    intro t₁ ht₁
    cases hvs : view s with
    | none => exact ⟨t₁, [], h.enters s a s₁ t₁ hi.1 hs₁ hvs ht₁, rfl, trivial⟩
    | some t =>
      obtain ⟨t₂, ht₂, hmatch⟩ := h.matched s a s₁ t hi.1 hok hs₁ hvs
      cases ht₁.symm.trans ht₂
      rcases hmatch with rfl | ⟨b, hb, hb₁⟩
      · exact hi.2 _ hvs
      · exact (hi.2 t hvs).step hb hb₁
  exact (inv_run_along hstep hinit hrun hok).2 t' hv

end Machine
