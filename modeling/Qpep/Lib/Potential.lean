import Mathlib.Algebra.BigOperators.Group.Finset.Basic
import Mathlib.Algebra.Ring.Nat
import Qpep.Lib.Machine

/-!
# Potential functions

How much a machine does is counted along a run: every action has a cost, and some actions bring an income. A potential is
what a state can still pay for, a credit what it has already been given. When every step pays its cost from what it takes
off the potential and from its income (`Pays`), so does every run (`Pays.run`).

When every step of some kind lowers the potential, runs of that kind are short (`Lowers.length_le`), and every state can be
brought to rest by one (`Lowers.exists_rest`).
-/

namespace Machine

variable {σ α : Type}

/-- What the actions of a list amount to. -/
def total (f : α → Nat) (as : List α) : Nat := (as.map f).sum

@[simp] theorem total_nil (f : α → Nat) : total f [] = 0 := rfl

@[simp] theorem total_cons (f : α → Nat) (a : α) (as : List α) : total f (a :: as) = f a + total f as := by
  simp [total]

/-- Actions that each count for one are counted. -/
theorem total_one (as : List α) : total (fun _ => 1) as = as.length := by
  induction as with
  | nil => rfl
  | cons a as ih => rw [total_cons, ih, List.length_cons, Nat.add_comm]

@[simp] theorem total_zero (as : List α) : total (fun _ => 0) as = 0 := by
  induction as with
  | nil => rfl
  | cons a as ih => rw [total_cons, ih]

/-- The actions of one kind are counted. -/
theorem total_ite (p : α → Bool) (as : List α) : total (fun a => if p a then 1 else 0) as = as.countP p := by
  induction as with
  | nil => rfl
  | cons a as ih => rw [total_cons, ih, List.countP_cons, Nat.add_comm]

/-- When one term of a sum is replaced, the sum changes by as much as the term. -/
theorem sum_replace {ι : Type} [DecidableEq ι] {S : Finset ι} {f g : ι → Nat} {i : ι} (hi : i ∈ S)
    (h : ∀ j, j ≠ i → g j = f j) : ∑ j ∈ S, g j + f i = ∑ j ∈ S, f j + g i := by
  have hrest : ∑ j ∈ S.erase i, g j = ∑ j ∈ S.erase i, f j :=
    Finset.sum_congr rfl fun j hj => h j (Finset.ne_of_mem_erase hj)
  rw [← Finset.sum_erase_add S f hi, ← Finset.sum_erase_add S g hi, hrest]
  omega

/-- While `inv` holds, every step that meets `ok` keeps it, and pays its cost from the potential, its income and the growth
of the credit. -/
structure Pays (step : Step σ α) (ok : σ → α → Prop) (inv : σ → Prop) (potential credit : σ → Nat) (cost income : α → Nat) :
    Prop where
  keeps : ∀ s a s', inv s → ok s a → step s a = some s' → inv s'
  pays : ∀ s a s', inv s → ok s a → step s a = some s' →
    potential s' + cost a + credit s ≤ potential s + income a + credit s'

/-- A run pays the costs of its actions (induction on the run). -/
theorem Pays.run {step : Step σ α} {ok : σ → α → Prop} {inv : σ → Prop} {potential credit : σ → Nat} {cost income : α → Nat}
    (h : Pays step ok inv potential credit cost income) {s s' : σ} {as : List α} (hs : inv s)
    (hrun : Machine.run step s as = some s') (hok : Along step ok s as) :
    potential s' + total cost as + credit s ≤ potential s + total income as + credit s' := by
  induction as generalizing s with
  | nil =>
    cases hrun
    exact Nat.le_refl _
  | cons a as ih =>
    obtain ⟨s₁, h₁, hr⟩ := run_cons_eq_some.mp hrun
    have hstep := h.pays s a s₁ hs hok.1 h₁
    have hrest := ih (h.keeps s a s₁ hs hok.1 h₁) hr (hok.2 s₁ h₁)
    simp only [total_cons]
    omega

/-- While `inv` holds, every step of a kind keeps it and lowers the potential. -/
structure Lowers (step : Step σ α) (kind : σ → α → Prop) (inv : σ → Prop) (potential : σ → Nat) : Prop where
  keeps : ∀ s a s', inv s → kind s a → step s a = some s' → inv s'
  lowers : ∀ s a s', inv s → kind s a → step s a = some s' → potential s' < potential s

/-- Fewer steps lower the potential all the same. -/
theorem Lowers.mono {step : Step σ α} {kind kind' : σ → α → Prop} {inv : σ → Prop} {potential : σ → Nat}
    (h : Lowers step kind inv potential) (hkind : ∀ s a, kind' s a → kind s a) : Lowers step kind' inv potential :=
  ⟨fun s a s' hi hk => h.keeps s a s' hi (hkind s a hk), fun s a s' hi hk => h.lowers s a s' hi (hkind s a hk)⟩

/-- A run of a kind that lowers the potential is no longer than the potential it takes off. -/
theorem Lowers.length_le {step : Step σ α} {kind : σ → α → Prop} {inv : σ → Prop} {potential : σ → Nat}
    (h : Lowers step kind inv potential) {s s' : σ} {as : List α} (hs : inv s) (hrun : Machine.run step s as = some s')
    (hkind : Along step kind s as) : as.length + potential s' ≤ potential s := by
  have hpays : Pays step kind inv potential (fun _ => 0) (fun _ => 1) (fun _ => 0) :=
    ⟨h.keeps, fun s a s' hi hk ha => h.lowers s a s' hi hk ha⟩
  have hrun' := hpays.run hs hrun hkind
  rw [total_one, total_zero] at hrun'
  omega

/-- From every state with the invariant, some run of the kind leads to a state in which no action of the kind is enabled
(induction on the potential). -/
theorem Lowers.exists_rest {step : Step σ α} {kind : σ → α → Prop} {inv : σ → Prop} {potential : σ → Nat}
    (h : Lowers step kind inv potential) {s : σ} (hs : inv s) :
    ∃ as s', Machine.run step s as = some s' ∧ Along step kind s as ∧ inv s' ∧ ∀ a, kind s' a → step s' a = none := by
  induction hp : potential s using Nat.strong_induction_on generalizing s with
  | h p ih =>
    by_cases hrest : ∀ a, kind s a → step s a = none
    · exact ⟨[], s, rfl, trivial, hs, hrest⟩
    · simp only [not_forall] at hrest
      obtain ⟨a, hk, hne⟩ := hrest
      obtain ⟨s₁, ha⟩ := Option.ne_none_iff_exists'.mp hne
      have hlt : potential s₁ < p := hp ▸ h.lowers s a s₁ hs hk ha
      obtain ⟨as, s', hrun, hal, hi, hq⟩ := ih _ hlt (h.keeps s a s₁ hs hk ha) rfl
      refine ⟨a :: as, s', run_cons_eq_some.mpr ⟨s₁, ha, hrun⟩, ⟨hk, ?_⟩, hi, hq⟩
      intro s₂ hs₂
      cases ha.symm.trans hs₂
      exact hal

end Machine
