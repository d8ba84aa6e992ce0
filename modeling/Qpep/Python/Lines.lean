import Mathlib.Data.List.Basic

/-!
# The lines of a file

What `open(filename, "r")` and `readlines()` make of the text of a file: the three line ends become `\n`, and every line
keeps its own. Lines that are written back are read as the same lines (`readlines_flatten`).
-/

namespace Python

/-- The translation of line ends when a file is read. -/
def universalNewlines : List Char → List Char
  | [] => []
  | '\r' :: '\n' :: s => '\n' :: universalNewlines s
  | '\r' :: s => '\n' :: universalNewlines s
  | c :: s => c :: universalNewlines s

/-- The lines of a text, with the newline of each. -/
def splitLines : List Char → List (List Char)
  | [] => []
  | c :: s =>
    if c = '\n' then ['\n'] :: splitLines s
    else match splitLines s with
      | [] => [[c]]
      | line :: lines => (c :: line) :: lines

/-- `file.readlines()` -/
def readlines (text : List Char) : List (List Char) := splitLines (universalNewlines text)

example : readlines "a\r\n\rb".toList = ["a\n".toList, "\n".toList, "b".toList] := by decide

/-- There is no line end in the text. -/
def OneLine (s : List Char) : Prop := '\n' ∉ s ∧ '\r' ∉ s

instance (s : List Char) : Decidable (OneLine s) := inferInstanceAs (Decidable (_ ∧ _))

/-- Lines that a file can have: all but the last one end in a newline, which is the only line end in them. -/
inductive IsLines : List (List Char) → Prop where
  | nil : IsLines []
  | last (line : List Char) (hne : line ≠ []) (h : OneLine line) : IsLines [line]
  | cons (line : List Char) (lines : List (List Char)) (h : OneLine line) (hlines : IsLines lines) :
    IsLines ((line ++ ['\n']) :: lines)

theorem universalNewlines_cons {c : Char} (hc : c ≠ '\r') (s : List Char) :
    universalNewlines (c :: s) = c :: universalNewlines s := by
  rw [universalNewlines]
  · exact fun _ h => absurd h hc
  · exact hc

theorem universalNewlines_of_not_mem {s : List Char} (h : '\r' ∉ s) : universalNewlines s = s := by
  induction s with
  | nil => rfl
  | cons c s ih =>
    simp only [List.mem_cons, not_or] at h
    rw [universalNewlines_cons (Ne.symm h.1), ih h.2]

theorem not_mem_universalNewlines (s : List Char) : '\r' ∉ universalNewlines s := by
  induction s using universalNewlines.induct with
  | case1 => simp [universalNewlines]
  | case2 s ih => simp [universalNewlines, ih]
  | case3 s h ih => simp [universalNewlines, ih]
  | case4 c s _ hc ih =>
    rw [universalNewlines_cons hc]
    simp [ih, Ne.symm hc]

theorem splitLines_line {line : List Char} (h : '\n' ∉ line) (s : List Char) :
    splitLines (line ++ '\n' :: s) = (line ++ ['\n']) :: splitLines s := by
  induction line with
  | nil => simp [splitLines]
  | cons c line ih =>
    simp only [List.mem_cons, not_or] at h
    rw [List.cons_append, splitLines, if_neg (Ne.symm h.1), ih h.2]
    rfl

theorem splitLines_last {line : List Char} (hne : line ≠ []) (h : '\n' ∉ line) : splitLines line = [line] := by
  induction line with
  | nil => exact absurd rfl hne
  | cons c line ih =>
    simp only [List.mem_cons, not_or] at h
    rw [splitLines, if_neg (Ne.symm h.1)]
    cases line with
    | nil => rfl
    | cons d line => rw [ih (List.cons_ne_nil d line) h.2]

/-- There is no carriage return in lines. -/
theorem IsLines.not_mem_flatten {lines : List (List Char)} (h : IsLines lines) : '\r' ∉ lines.flatten := by
  induction h with
  | nil => simp
  | last line _ hline => simpa using hline.2
  | cons line lines hline _ ih => simp [hline.2, ih]

/-- Lines that are written are read as they are. -/
theorem readlines_flatten {lines : List (List Char)} (h : IsLines lines) : readlines lines.flatten = lines := by
  rw [readlines, universalNewlines_of_not_mem h.not_mem_flatten]
  induction h with
  | nil => rfl
  | last line hne hline =>
    rw [List.flatten_singleton, splitLines_last hne hline.1]
  | cons line lines hline _ ih =>
    rw [List.flatten_cons, List.append_assoc, List.singleton_append, splitLines_line hline.1, ih]

/-- What is read are lines. -/
theorem isLines_readlines (text : List Char) : IsLines (readlines text) := by
  have hsplit : ∀ s : List Char, '\r' ∉ s → IsLines (splitLines s) := by
    intro s hs
    induction s with
    | nil => exact .nil
    | cons c s ih =>
      simp only [List.mem_cons, not_or] at hs
      have htail := ih hs.2
      rw [splitLines]
      by_cases hc : c = '\n'
      · rw [if_pos hc]
        exact .cons [] _ ⟨by simp, by simp⟩ htail
      · have hone : ∀ {line : List Char}, OneLine line → OneLine (c :: line) := by
          intro line hline
          exact ⟨by simp [Ne.symm hc, hline.1], by simp [hs.1, hline.2]⟩
        rw [if_neg hc]
        generalize splitLines s = lines at htail
        cases htail with
        | nil => exact .last [c] (List.cons_ne_nil c []) (hone ⟨by simp, by simp⟩)
        | last line hne hline => exact .last (c :: line) (List.cons_ne_nil c line) (hone hline)
        | cons line lines hline hlines => exact .cons (c :: line) lines (hone hline) hlines
  exact hsplit _ (not_mem_universalNewlines text)

/-- A line in the place of another one. -/
theorem IsLines.set {lines : List (List Char)} (h : IsLines lines) {line : List Char} (hline : OneLine line) (i : Nat) :
    IsLines (lines.set i (line ++ ['\n'])) := by
  induction h generalizing i with
  | nil => exact .nil
  | last l hne hl =>
    cases i with
    | zero => exact .cons line [] hline .nil
    | succ i => exact .last l hne hl
  | cons l ls hl hls ih =>
    cases i with
    | zero => exact .cons line ls hline hls
    | succ i => exact .cons l _ hl (ih i)

end Python
