import Mathlib.Algebra.Group.Int.Defs
import Mathlib.Algebra.Group.Nat.Defs
import Qpep.Go.HostPort

/-!
# Texts of numbers

`strconv.ParseBool`, and `strconv.ParseInt` with base 0 and 64 bits, as the `flag` package calls them: a sign, a prefix for
the base, digits with underscores between them. Whether a text is refused for its syntax or for its range makes no
difference here.

`parseInt_itoa` says that the text that `strconv.Itoa` writes is read back.
-/

namespace Strconv

open Net

/-- `strconv.ParseBool` -/
def parseBool (s : List Char) : Option Bool :=
  if s ∈ ["1", "t", "T", "true", "TRUE", "True"].map String.toList then some true
  else if s ∈ ["0", "f", "F", "false", "FALSE", "False"].map String.toList then some false
  else none

/-- The value of a digit in any base. -/
def digitVal (c : Char) : Option Nat :=
  if '0' ≤ c ∧ c ≤ '9' then some (c.toNat - '0'.toNat)
  else if 'a' ≤ c.toLower ∧ c.toLower ≤ 'z' then some (c.toLower.toNat - 'a'.toNat + 10)
  else none

/-- The loop of `strconv.ParseUint`: it skips underscores. -/
def parseDigits (base : Nat) : List Char → Nat → Option Nat
  | [], n => some n
  | c :: s, n =>
    if c = '_' then parseDigits base s n
    else match digitVal c with
      | some d => if d < base then parseDigits base s (n * base + d) else none
      | none => none

/-- What `underscoreOK` saw last. -/
inductive Saw where
  | start
  | digit
  | underscore
  | other
deriving DecidableEq, Repr

/-- The loop of `underscoreOK`. -/
def underscoreLoop (hex : Bool) : Saw → List Char → Bool
  | saw, [] => saw != .underscore
  | saw, c :: s =>
    if ('0' ≤ c ∧ c ≤ '9') ∨ (hex = true ∧ 'a' ≤ c.toLower ∧ c.toLower ≤ 'f') then underscoreLoop hex .digit s
    else if c = '_' then saw = .digit && underscoreLoop hex .underscore s
    else saw != .underscore && underscoreLoop hex .other s

/-- The base that a prefix stands for. -/
def basePrefix (c : Char) : Option Nat :=
  if c.toLower = 'b' then some 2 else if c.toLower = 'o' then some 8 else if c.toLower = 'x' then some 16 else none

/-- `underscoreOK`, on a text without a sign. -/
def underscoreOK : List Char → Bool
  | '0' :: c :: s =>
    match basePrefix c with
    | some base => underscoreLoop (base == 16) .digit s
    | none => underscoreLoop false .start ('0' :: c :: s)
  | s => underscoreLoop false .start s

/-- The base of a number and what follows its prefix. A lone zero in front makes it octal. -/
def splitBase : List Char → Nat × List Char
  | '0' :: c :: d :: s =>
    match basePrefix c with
    | some base => (base, d :: s)
    | none => (8, c :: d :: s)
  | '0' :: s => (8, s)
  | s => (10, s)

/-- `strconv.ParseUint(s, 0, ...)`, before the range is checked. -/
def parseUint (s : List Char) : Option Nat :=
  if s = [] then none
  else if '_' ∈ s ∧ underscoreOK s = false then none
  else parseDigits (splitBase s).1 (splitBase s).2 0

/-- `strconv.ParseInt(s, 0, 64)` -/
def parseInt (s : List Char) : Option Int :=
  match s with
  | '-' :: s => (parseUint s).bind fun un => if un ≤ 2 ^ 63 then some (-(un : Int)) else none
  | '+' :: s => (parseUint s).bind fun un => if un < 2 ^ 63 then some (un : Int) else none
  | s => (parseUint s).bind fun un => if un < 2 ^ 63 then some (un : Int) else none

example : parseInt "-0x_1f".toList = some (-31) ∧ parseInt "017".toList = some 15 ∧ parseInt "1__0".toList = none := by decide

/-- The number fits into an `int` of 64 bits. -/
def InRange (n : Int) : Prop := -2 ^ 63 ≤ n ∧ n < 2 ^ 63

instance (n : Int) : Decidable (InRange n) := inferInstanceAs (Decidable (_ ∧ _))

/-! ## What `strconv.Itoa` writes -/

/-- A digit is read back. -/
theorem digitVal_digitChar : ∀ d, d < 10 → digitVal d.digitChar = some d ∧ d.digitChar ≠ '_' ∧ (d ≠ 0 → d.digitChar ≠ '0') := by
  decide

/-- The text of a positive number does not start with a zero. -/
theorem toDigits_head {n : Nat} (hn : n ≠ 0) : ∃ c s, Nat.toDigits 10 n = c :: s ∧ c ≠ '0' := by
  induction n using Nat.strongRecOn with
  | ind n ih =>
    by_cases hlt : n < 10
    · exact ⟨n.digitChar, [], Nat.toDigits_of_lt_base hlt, (digitVal_digitChar n hlt).2.2 hn⟩
    · obtain ⟨c, s, hs, hc⟩ := ih (n / 10) (by omega) (by omega)
      rw [Nat.toDigits_eq_if (by decide), if_neg hlt, hs]
      exact ⟨c, s ++ [(n % 10).digitChar], rfl, hc⟩

/-- A digit behind a text of digits. -/
theorem parseDigits_append {s t : List Char} {k n : Nat} (h : parseDigits 10 s k = some n) :
    parseDigits 10 (s ++ t) k = parseDigits 10 t n := by
  induction s generalizing k with
  | nil =>
    cases h
    rfl
  | cons c s ih =>
    simp only [parseDigits, List.cons_append] at h ⊢
    by_cases hc : c = '_'
    · rw [if_pos hc] at h ⊢
      exact ih h
    · rw [if_neg hc] at h ⊢
      split at h
      · split at h
        · rename_i hd hlt
          simpa only [hd, if_pos hlt] using ih h
        · cases h
      · cases h

/-- The digits of a number are read back. -/
theorem parseDigits_toDigits (n : Nat) : parseDigits 10 (Nat.toDigits 10 n) 0 = some n := by
  induction n using Nat.strongRecOn with
  | ind n ih =>
    by_cases hlt : n < 10
    · obtain ⟨hval, hne, -⟩ := digitVal_digitChar n hlt
      simp [Nat.toDigits_of_lt_base hlt, parseDigits, hval, hne, hlt]
    · have hmod : n % 10 < 10 := Nat.mod_lt _ (by decide)
      obtain ⟨hval, hne, -⟩ := digitVal_digitChar (n % 10) hmod
      rw [Nat.toDigits_eq_if (by decide), if_neg hlt, parseDigits_append (ih (n / 10) (by omega))]
      simp only [parseDigits, hval, if_neg hne, if_pos hmod, Option.some.injEq]
      omega

/-- The text of a number that is not negative is read back. -/
theorem parseUint_toDigits (n : Nat) : parseUint (Nat.toDigits 10 n) = some n := by
  by_cases hn : n = 0
  · subst hn
    decide
  · obtain ⟨c, s, hs, hc⟩ := toDigits_head hn
    have hsplit : splitBase (Nat.toDigits 10 n) = (10, Nat.toDigits 10 n) := by
      rw [hs, splitBase]
      all_goals simp [hc]
    have hno : ¬('_' ∈ Nat.toDigits 10 n ∧ underscoreOK (Nat.toDigits 10 n) = false) := fun h =>
      Nat.underscore_not_in_toDigits h.1
    rw [parseUint, if_neg Nat.toDigits_ne_nil, if_neg hno, hsplit]
    exact parseDigits_toDigits n

/-- What `strconv.Itoa` writes is read back, if it is in range. -/
theorem parseInt_itoa {n : Int} (hn : InRange n) : parseInt (itoa n) = some n := by
  obtain ⟨hlow, hhigh⟩ := hn
  cases n with
  | ofNat n =>
    have hlt : n < 2 ^ 63 := by
      have h : (n : Int) < 2 ^ 63 := hhigh
      omega
    have hdigit : ∀ c ∈ Nat.toDigits 10 n, c.isDigit = true := fun c hc => Nat.isDigit_of_mem_toDigits (by decide) (by decide) hc
    have hfirst : parseInt (itoa (.ofNat n)) = (parseUint (Nat.toDigits 10 n)).bind fun un =>
      if un < 2 ^ 63 then some (un : Int) else none := by
      simp only [itoa]
      unfold parseInt
      split
      · rename_i s hs
        exact absurd (hdigit '-' (hs ▸ List.mem_cons_self)) (by decide)
      · rename_i s hs
        exact absurd (hdigit '+' (hs ▸ List.mem_cons_self)) (by decide)
      · rfl
    rw [hfirst, parseUint_toDigits, Option.bind_some, if_pos hlt]
    rfl
  | negSucc n =>
    have hle : n + 1 ≤ 2 ^ 63 := by omega
    simp only [itoa, parseInt, parseUint_toDigits, Option.bind_some, if_pos hle]
    rfl

end Strconv
