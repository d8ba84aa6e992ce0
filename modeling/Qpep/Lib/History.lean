import Mathlib.Data.List.Induction

/-!
# Rows whose elements fit what came before them

`Fits P l`: each element of `l`, with the elements before it, has the property `P`. For a row that is written piece by piece,
`fits_flatMap` takes such a property of the row back to one of what the pieces are written for.
-/

namespace History

variable {α β : Type}

/-- Each element has the property, which may look at the elements before it. -/
def Fits (P : List α → α → Prop) (l : List α) : Prop := ∀ before a rest, l = before ++ a :: rest → P before a

variable {P P' : List α → α → Prop} {l m : List α} {a : α}

theorem fits_nil : Fits P [] := by
  intro before a rest h
  simp at h

theorem fits_append : Fits P (l ++ m) ↔ Fits P l ∧ Fits (fun before => P (l ++ before)) m := by
  refine ⟨fun h => ⟨?_, ?_⟩, ?_⟩
  · rintro before a rest rfl
    exact h before a (rest ++ m) (by simp)
  · rintro before a rest rfl
    exact h (l ++ before) a rest (by simp)
  · rintro ⟨hl, hm⟩ before a rest hrow
    rcases List.append_eq_append_iff.mp hrow with ⟨mid, rfl, hmid⟩ | ⟨mid, rfl, hmid⟩
    · exact hm mid a rest hmid
    · cases mid with
      | nil => simpa using hm [] a rest hmid.symm
      | cons b mid =>
        obtain ⟨rfl, -⟩ := List.cons.inj hmid
        exact hl before a mid rfl

theorem fits_singleton : Fits P [a] ↔ P [] a := by
  refine ⟨fun h => h [] a [] rfl, ?_⟩
  intro h before b rest hrow
  cases before with
  | nil =>
    obtain ⟨rfl, -⟩ := List.cons.inj hrow
    exact h
  | cons c before => simp at hrow

theorem fits_snoc : Fits P (l ++ [a]) ↔ Fits P l ∧ P l a := by
  rw [fits_append, fits_singleton, List.append_nil]

theorem fits_cons : Fits P (a :: l) ↔ P [] a ∧ Fits (fun before => P (a :: before)) l := by
  rw [← List.singleton_append, fits_append, fits_singleton]
  rfl

theorem Fits.mono (h : Fits P l) (hP : ∀ before a, P before a → P' before a) : Fits P' l := by
  intro before a rest hrow
  exact hP before a (h before a rest hrow)

theorem fits_of_forall (h : ∀ a ∈ l, ∀ before, P before a) : Fits P l := by
  rintro before a rest rfl
  exact h a (by simp) before

/-- A row of pieces, in which a piece fits what was written before it exactly if what it is written for does (induction on
the row, from its end). -/
theorem fits_flatMap {f : β → List α} {Q : List β → β → Prop} {bs : List β}
    (h : Fits (fun done b => Fits (fun before => P (done.flatMap f ++ before)) (f b) ↔ Q done b) bs) :
    Fits P (bs.flatMap f) ↔ Fits Q bs := by
  induction bs using List.reverseRecOn with
  | nil => exact ⟨fun _ => fits_nil, fun _ => fits_nil⟩
  | append_singleton bs b ih =>
    obtain ⟨hbs, hb⟩ := fits_snoc.mp h
    rw [List.flatMap_append, List.flatMap_singleton, fits_append, fits_snoc, ih hbs, hb]

end History
