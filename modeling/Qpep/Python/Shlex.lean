import Qpep.Python.Dict

/-!
# The words of a command

`shlex.split`, which takes the commands apart that are given to a container as one text: words between white space, with
quotes and backslashes as in a POSIX shell.
-/

namespace Python

/-- Where the reader stands: between words, in a word, in quotes, or behind a backslash, in a word or in double quotes. -/
inductive ShlexState where
  | between
  | word
  | quoted (q : Char)
  | escaped
  | escapedIn (q : Char)
deriving DecidableEq, Repr

/-- `shlex.whitespace` -/
def isBlank (c : Char) : Bool := c == ' ' || c == '\t' || c == '\r' || c == '\n'

/-- `shlex.quotes` -/
def isQuote (c : Char) : Bool := c == '\'' || c == '"'

/-- `read_token`, over and over, with the word read so far. -/
def shlexLoop : ShlexState → List Char → List Char → Except PyErr (List (List Char))
  | .between, _, [] => .ok []
  | .word, token, [] => .ok [token]
  | _, _, [] => .error .valueError
  | .between, _, c :: s =>
    if isBlank c then shlexLoop .between [] s
    else if c = '\\' then shlexLoop .escaped [] s
    else if isQuote c then shlexLoop (.quoted c) [] s
    else shlexLoop .word [c] s
  | .word, token, c :: s =>
    if isBlank c then (shlexLoop .between [] s).map (token :: ·)
    else if isQuote c then shlexLoop (.quoted c) token s
    else if c = '\\' then shlexLoop .escaped token s
    else shlexLoop .word (token ++ [c]) s
  | .quoted q, token, c :: s =>
    if c = q then shlexLoop .word token s
    else if c = '\\' ∧ q = '"' then shlexLoop (.escapedIn q) token s
    else shlexLoop (.quoted q) (token ++ [c]) s
  | .escaped, token, c :: s => shlexLoop .word (token ++ [c]) s
  -- in quotes a backslash stands for itself, except before the quote and before another one
  | .escapedIn q, token, c :: s => shlexLoop (.quoted q) (token ++ if c = '\\' ∨ c = q then [c] else ['\\', c]) s

/-- `shlex.split(command)` -/
def shlexSplit (command : List Char) : Except PyErr (List (List Char)) := shlexLoop .between [] command

example : shlexSplit "a  'b c'\"d\\\"\\e\" \\ f ''".toList = .ok ["a".toList, "b cd\"\\e".toList, " f".toList, []] := by decide

/-- A character that stands for itself. -/
def isPlain (c : Char) : Bool := !isBlank c && !isQuote c && c != '\\'

/-- A word that needs no quotes. -/
def PlainWord (w : List Char) : Prop := w ≠ [] ∧ ∀ c ∈ w, isPlain c = true

instance (w : List Char) : Decidable (PlainWord w) :=
  decidable_of_iff (w.isEmpty = false ∧ w.all isPlain = true) (by simp [PlainWord])

theorem isPlain_iff {c : Char} : isPlain c = true ↔ isBlank c = false ∧ isQuote c = false ∧ c ≠ '\\' := by
  simp [isPlain, and_assoc]

theorem shlexLoop_word {w : List Char} (hw : ∀ c ∈ w, isPlain c = true) (token s : List Char) :
    shlexLoop .word token (w ++ s) = shlexLoop .word (token ++ w) s := by
  induction w generalizing token with
  | nil => simp
  | cons c w ih =>
    obtain ⟨hc, hrest⟩ := List.forall_mem_cons.mp hw
    obtain ⟨hblank, hquote, hslash⟩ := isPlain_iff.mp hc
    rw [List.cons_append, shlexLoop]
    simp only [hblank, hquote, if_neg hslash, Bool.false_eq_true, if_false]
    rw [ih hrest, List.append_assoc, List.singleton_append]

theorem shlexLoop_between {w : List Char} (hw : PlainWord w) (s : List Char) :
    shlexLoop .between [] (w ++ s) = shlexLoop .word w s := by
  obtain ⟨hne, hplain⟩ := hw
  cases w with
  | nil => exact absurd rfl hne
  | cons c w =>
    obtain ⟨hc, hrest⟩ := List.forall_mem_cons.mp hplain
    obtain ⟨hblank, hquote, hslash⟩ := isPlain_iff.mp hc
    rw [List.cons_append, shlexLoop]
    simp only [hblank, hquote, if_neg hslash, Bool.false_eq_true, if_false]
    exact shlexLoop_word hrest [c] s

/-- The words with a blank behind each. -/
def blankBehind (ws : List (List Char)) : List Char := ws.flatMap fun w => w ++ [' ']

/-- Plain words are taken apart at the blanks; the last one may have a blank behind it or not. -/
theorem shlexSplit_plain {ws : List (List Char)} (hws : ∀ w ∈ ws, PlainWord w) {w : List Char} (hw : PlainWord w) :
    shlexSplit (blankBehind ws ++ w) = .ok (ws ++ [w]) ∧ shlexSplit (blankBehind (ws ++ [w])) = .ok (ws ++ [w]) := by
  have hblank : ∀ token s, shlexLoop .word token (' ' :: s) = (shlexLoop .between [] s).map (token :: ·) := fun _ _ => rfl
  unfold shlexSplit
  induction ws with
  | nil =>
    refine ⟨?_, ?_⟩
    · have hword := shlexLoop_between hw []
      rw [List.append_nil] at hword
      exact hword
    · have hbehind : blankBehind ([] ++ [w]) = w ++ [' '] := by simp [blankBehind]
      rw [hbehind, shlexLoop_between hw]
      rfl
  | cons v vs ih =>
    obtain ⟨hv, hrest⟩ := List.forall_mem_cons.mp hws
    obtain ⟨ih₁, ih₂⟩ := ih hrest
    have hcons : ∀ s, shlexLoop .between [] (v ++ [' '] ++ s) = (shlexLoop .between [] s).map (v :: ·) := by
      intro s
      rw [List.append_assoc, shlexLoop_between hv, List.singleton_append, hblank]
    refine ⟨?_, ?_⟩
    · rw [blankBehind, List.flatMap_cons, List.append_assoc, hcons]
      exact congrArg (Except.map (v :: ·)) ih₁
    · rw [List.cons_append, blankBehind, List.flatMap_cons, hcons]
      exact congrArg (Except.map (v :: ·)) ih₂

end Python
