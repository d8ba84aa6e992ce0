import Mathlib.Data.List.Basic

/-!
# Slices of Python lists

`xs[lo:hi]` for integers `lo` and `hi`: an index below zero counts from the end of the list, an index outside the list is
moved to its nearer end, and the element at the upper index is not part of the slice.
-/

namespace Python

variable {α : Type}

/-- Where the index of a slice stands in a list of `n` elements. -/
def sliceIndex (n : Nat) (i : Int) : Nat :=
  if i < 0 then (i + n).toNat else min i.toNat n

/-- `xs[lo:hi]`. -/
def slice (xs : List α) (lo hi : Int) : List α :=
  (xs.drop (sliceIndex xs.length lo)).take (sliceIndex xs.length hi - sliceIndex xs.length lo)

theorem sliceIndex_le (n : Nat) (i : Int) : sliceIndex n i ≤ n := by
  unfold sliceIndex
  split <;> omega

@[simp] theorem slice_nil (lo hi : Int) : slice ([] : List α) lo hi = [] := by
  simp [slice]

/-- The positions that a slice takes. -/
theorem mem_slice_range {n i : Nat} {lo hi : Int} :
    i ∈ slice (List.range n) lo hi ↔ sliceIndex n lo ≤ i ∧ i < sliceIndex n hi := by
  have hhi := sliceIndex_le n hi
  rw [slice, List.length_range, List.range_eq_range', List.drop_range', List.take_range'_of_length_ge (by omega),
    List.mem_range'_1]
  omega

end Python
