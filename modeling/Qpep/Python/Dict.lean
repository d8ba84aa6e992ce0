import Mathlib.Data.List.Nodup

/-!
# Python dictionaries and exceptions

A dictionary keeps its keys in the order in which they were first assigned; assigning to a key that is there replaces its
value in place. The proof that no key occurs twice is a field, so that a lookup is the only entry of its key.
-/

namespace Python

/-- The exceptions that the modelled code can raise. -/
inductive PyErr where
  | attributeError
  | keyError
  | overflowError
  | typeError
  | unboundLocalError
  | unicodeDecodeError
  | unicodeEncodeError
  | valueError
deriving DecidableEq, Repr

/-- A `dict`. -/
structure Dict (κ β : Type) where
  items : List (κ × β)
  nodup : (items.map Prod.fst).Nodup

namespace Dict

variable {κ β : Type}

/-- `{}`. -/
def empty : Dict κ β := ⟨[], List.nodup_nil⟩

variable [DecidableEq κ]

/-- The value of a key, if the key is there. -/
def getItem (k : κ) : List (κ × β) → Option β
  | [] => none
  | (k', v) :: rest => if k' = k then some v else getItem k rest

/-- Assignment to a key, in the list of entries. -/
def setItem (k : κ) (v : β) : List (κ × β) → List (κ × β)
  | [] => [(k, v)]
  | (k', v') :: rest => if k' = k then (k, v) :: rest else (k', v') :: setItem k v rest

theorem map_fst_setItem (k : κ) (v : β) (items : List (κ × β)) :
    (setItem k v items).map Prod.fst = if k ∈ items.map Prod.fst then items.map Prod.fst else items.map Prod.fst ++ [k] := by
  induction items with
  | nil => simp [setItem]
  | cons e rest ih =>
    obtain ⟨k', v'⟩ := e
    unfold setItem
    by_cases h : k' = k
    · simp [h]
    · have h' : k ≠ k' := fun he => h he.symm
      simp only [h, if_false, List.map_cons, ih, List.mem_cons, h', false_or]
      split <;> rfl

/-- `d.get(k)`. -/
def get? (d : Dict κ β) (k : κ) : Option β := getItem k d.items

/-- `d[k] = v`. -/
def set (d : Dict κ β) (k : κ) (v : β) : Dict κ β where
  items := setItem k v d.items
  nodup := by
    rw [map_fst_setItem]
    split
    · exact d.nodup
    · rename_i hk
      refine List.nodup_append.mpr ⟨d.nodup, List.nodup_singleton k, ?_⟩
      intro a ha b hb hab
      rw [List.mem_singleton.mp hb] at hab
      exact hk (hab ▸ ha)

/-- `d[k].append(x)`: `KeyError` when there is no such key. -/
def append (d : Dict κ (List β)) (k : κ) (x : β) : Except PyErr (Dict κ (List β)) :=
  match d.get? k with
  | none => .error .keyError
  | some xs => .ok (d.set k (xs ++ [x]))

@[simp] theorem get?_empty (k : κ) : (empty : Dict κ β).get? k = none := rfl

theorem getItem_setItem (k k' : κ) (v : β) (items : List (κ × β)) :
    getItem k' (setItem k v items) = if k = k' then some v else getItem k' items := by
  induction items with
  | nil => simp [setItem, getItem]
  | cons e rest ih =>
    obtain ⟨k₀, v₀⟩ := e
    unfold setItem
    by_cases h : k₀ = k
    · subst h
      simp only [if_true, getItem]
      split <;> rfl
    · simp only [h, if_false, getItem, ih]
      by_cases h' : k = k'
      · subst h'
        simp [h]
      · simp [h']

/-- What a key holds after an assignment. -/
theorem get?_set (d : Dict κ β) (k k' : κ) (v : β) : (d.set k v).get? k' = if k = k' then some v else d.get? k' :=
  getItem_setItem k k' v d.items

@[simp] theorem get?_set_self (d : Dict κ β) (k : κ) (v : β) : (d.set k v).get? k = some v := by
  rw [get?_set, if_pos rfl]

end Dict

end Python
