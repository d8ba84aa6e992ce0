import Mathlib.Logic.Basic

/-!
# Command-line flags

`flag.Parse` of Go, for any set of flags and any state that they write to: one or two dashes, a value behind `=` or in the
next word, no next word for a boolean flag. Parsing ends at the first word that is no flag, or behind `--`.

`parse_iff` says which command lines are accepted, and what they amount to: a row of settings, each written in one of the
ways there are, and what ends the flags.
-/

namespace Flags

variable {σ : Type}

/-- A flag: its name, whether it is a `boolFlag`, and its `Set`, which may refuse a text. -/
structure Flag (σ : Type) where
  name : List Char
  isBool : Bool
  set : List Char → σ → Option σ

/-- The errors of `parseOne`; the program exits on all of them. -/
inductive FlagErr where
  | badSyntax (s : List Char)
  | help
  | notDefined (name : List Char)
  | invalidBoolean (value name : List Char)
  | needsArgument (name : List Char)
  | invalidValue (value name : List Char)
deriving DecidableEq, Repr

/-- What a word is to `parseOne`: no flag, the end of the flags, no proper flag, or a flag with its name and perhaps a value. -/
inductive Word where
  | plain
  | terminator
  | bad
  | flag (name : List Char) (value : Option (List Char))
deriving DecidableEq, Repr

/-- Split `name=value` at the first `=`. -/
def splitValue : List Char → List Char × Option (List Char)
  | [] => ([], none)
  | c :: s => if c = '=' then ([], some s) else (c :: (splitValue s).1, (splitValue s).2)

/-- The name behind the dashes. -/
def wordOfName (name : List Char) : Word :=
  match name with
  | [] | '-' :: _ | '=' :: _ => .bad
  | c :: s => .flag (c :: (splitValue s).1) (splitValue s).2

/-- The first part of `parseOne`. -/
def wordOf : List Char → Word
  | '-' :: '-' :: [] => .terminator
  | '-' :: '-' :: name => wordOfName name
  | '-' :: [] => .plain
  | '-' :: name => wordOfName name
  | _ => .plain

/-- `f.formal[name]` -/
def lookup (fs : List (Flag σ)) (name : List Char) : Option (Flag σ) := fs.find? fun f => f.name = name

/-- `Parse`: the state that the flags leave, and the words behind them. -/
def parse (fs : List (Flag σ)) (x : σ) : List (List Char) → Except FlagErr (σ × List (List Char))
  | [] => .ok (x, [])
  | s :: args =>
    match wordOf s with
    | .plain => .ok (x, s :: args)
    | .terminator => .ok (x, args)
    | .bad => .error (.badSyntax s)
    | .flag name value =>
      match lookup fs name with
      | none => .error (if name = "help".toList ∨ name = "h".toList then .help else .notDefined name)
      | some f =>
        if f.isBool then
          match f.set (value.getD "true".toList) x with
          | some x' => parse fs x' args
          | none => .error (.invalidBoolean (value.getD "true".toList) name)
        else
          match value, args with
          | some v, args =>
            match f.set v x with
            | some x' => parse fs x' args
            | none => .error (.invalidValue v name)
          | none, v :: args =>
            match f.set v x with
            | some x' => parse fs x' args
            | none => .error (.invalidValue v name)
          | none, [] => .error (.needsArgument name)

/-! ## Command lines -/

/-- A setting as it is written: with two dashes or one, its value in the same word or in the next one. A boolean flag has no
next word: without `=` it is set to `true`. -/
structure Written (σ : Type) where
  flag : Flag σ
  value : List Char
  twoDashes : Bool
  joined : Bool

namespace Written

/-- The words of a setting. -/
def words (w : Written σ) : List (List Char) :=
  let word := (if w.twoDashes then ['-', '-'] else ['-']) ++ w.flag.name
  if w.joined then [word ++ '=' :: w.value] else if w.flag.isBool then [word] else [word, w.value]

/-- The setting is one of a flag of this set, and a boolean flag without `=` is set to `true`. -/
def Of (fs : List (Flag σ)) (w : Written σ) : Prop :=
  lookup fs w.flag.name = some w.flag ∧ (w.flag.isBool = true → w.joined = false → w.value = "true".toList)

end Written

/-- The state after a row of settings, if none of them is refused. -/
def setAll : List (Written σ) → σ → Option σ
  | [], x => some x
  | w :: ws, x => (w.flag.set w.value x).bind (setAll ws)

/-- How the flags of a command line end, and what is left of it: with the line, before a word that is no flag, or behind
`--`. -/
inductive Ends : List (List Char) → List (List Char) → Prop where
  | none : Ends [] []
  | plain (s : List Char) (args : List (List Char)) (h : wordOf s = .plain) : Ends (s :: args) (s :: args)
  | terminator (args : List (List Char)) : Ends (['-', '-'] :: args) args

/-- A name that a flag can be given by. -/
def Proper (name : List Char) : Prop := ∃ c s, name = c :: s ∧ c ≠ '-' ∧ c ≠ '=' ∧ '=' ∉ s

theorem splitValue_name {s : List Char} (h : '=' ∉ s) : splitValue s = (s, none) := by
  induction s with
  | nil => rfl
  | cons c s ih =>
    simp only [List.mem_cons, not_or] at h
    simp [splitValue, Ne.symm h.1, ih h.2]

theorem splitValue_joined {s : List Char} (h : '=' ∉ s) (v : List Char) : splitValue (s ++ '=' :: v) = (s, some v) := by
  induction s with
  | nil => rfl
  | cons c s ih =>
    simp only [List.mem_cons, not_or] at h
    simp [splitValue, Ne.symm h.1, ih h.2]

/-- What `splitValue` finds is what stands there. -/
theorem splitValue_eq {s name : List Char} {value : Option (List Char)} (h : splitValue s = (name, value)) :
    '=' ∉ name ∧ s = name ++ (value.elim [] fun v => '=' :: v) := by
  induction s generalizing name value with
  | nil =>
    cases h
    exact ⟨by simp, rfl⟩
  | cons c s ih =>
    unfold splitValue at h
    split at h
    · rename_i hc
      cases h
      exact ⟨by simp, by simp [hc]⟩
    · rename_i hc
      cases h
      obtain ⟨hno, hs⟩ := ih rfl
      exact ⟨by simp [hno, Ne.symm hc], by rw [List.cons_append, ← hs]⟩

/-- The word of a flag. -/
theorem wordOf_flag {name : List Char} (hn : Proper name) (two : Bool) (value : Option (List Char)) :
    wordOf ((if two then ['-', '-'] else ['-']) ++ name ++ (value.elim [] fun v => '=' :: v)) = .flag name value := by
  obtain ⟨c, s, rfl, hdash, heq, hno⟩ := hn
  have hname : wordOfName (c :: s ++ (value.elim [] fun v => '=' :: v)) = .flag (c :: s) value := by
    rw [List.cons_append]
    unfold wordOfName
    split
    · rename_i h
      cases h
    · rename_i h
      exact absurd (List.cons.inj h).1 hdash
    · rename_i h
      exact absurd (List.cons.inj h).1 heq
    · rename_i h
      obtain ⟨rfl, rfl⟩ := List.cons.inj h
      cases value with
      | none => simp [splitValue_name hno]
      | some v => simp [splitValue_joined hno]
  cases two with
  | true => simpa [wordOf] using hname
  | false =>
    rw [← hname]
    simp only [Bool.false_eq_true, if_false, List.cons_append, List.nil_append]
    unfold wordOf
    split
    · rename_i h
      exact absurd (List.cons.inj (List.cons.inj h).2).1 hdash
    · rename_i h
      exact absurd (List.cons.inj (List.cons.inj h).2).1 hdash
    · rename_i h
      cases h
    · rename_i h
      rw [(List.cons.inj h).2]
    · rename_i h
      exact absurd rfl (h _)

/-- A name that is read is a proper one. -/
theorem wordOfName_eq {s name : List Char} {value : Option (List Char)} (h : wordOfName s = .flag name value) :
    Proper name ∧ s = name ++ (value.elim [] fun v => '=' :: v) := by
  unfold wordOfName at h
  split at h
  · cases h
  · cases h
  · cases h
  · rename_i c s hdash heq
    cases h
    obtain ⟨hno, hs⟩ := splitValue_eq (s := s) rfl
    exact ⟨⟨c, _, rfl, hdash, heq, hno⟩, by rw [List.cons_append, ← hs]⟩

/-- A word that is read as a flag is written as one. -/
theorem wordOf_eq {s name : List Char} {value : Option (List Char)} (h : wordOf s = .flag name value) :
    Proper name ∧ ∃ two : Bool, s = (if two then ['-', '-'] else ['-']) ++ name ++ (value.elim [] fun v => '=' :: v) := by
  unfold wordOf at h
  split at h
  · cases h
  · obtain ⟨hn, rfl⟩ := wordOfName_eq h
    exact ⟨hn, true, by simp⟩
  · cases h
  · obtain ⟨hn, rfl⟩ := wordOfName_eq h
    exact ⟨hn, false, by simp⟩
  · cases h

/-- The flags of the set have names that they can be given by. -/
def AllProper (fs : List (Flag σ)) : Prop := ∀ f ∈ fs, Proper f.name

theorem mem_of_lookup {fs : List (Flag σ)} {name : List Char} {f : Flag σ} (h : lookup fs name = some f) :
    f ∈ fs ∧ f.name = name :=
  ⟨List.mem_of_find?_eq_some h, by simpa using List.find?_some h⟩

/-- A setting is read as it is written. -/
theorem parse_words {fs : List (Flag σ)} (hfs : AllProper fs) {w : Written σ} (hw : w.Of fs) (x : σ) (args : List (List Char)) :
    (parse fs x (w.words ++ args)).toOption = (w.flag.set w.value x).bind fun x' => (parse fs x' args).toOption := by
  obtain ⟨hlookup, hbool⟩ := hw
  have hproper := hfs w.flag (mem_of_lookup hlookup).1
  have hjoined : wordOf ((if w.twoDashes then ['-', '-'] else ['-']) ++ w.flag.name ++ '=' :: w.value) =
      .flag w.flag.name (some w.value) := wordOf_flag hproper w.twoDashes (some w.value)
  have hapart : wordOf ((if w.twoDashes then ['-', '-'] else ['-']) ++ w.flag.name) = .flag w.flag.name none := by
    simpa using wordOf_flag hproper w.twoDashes none
  have hset : ∀ {err : FlagErr}, Except.toOption (match w.flag.set w.value x with
      | some x' => parse fs x' args
      | none => .error err) = (w.flag.set w.value x).bind fun x' => (parse fs x' args).toOption := by
    intro err
    cases w.flag.set w.value x <;> rfl
  cases hj : w.joined with
  | true =>
    simp only [Written.words, hj, if_true, List.singleton_append]
    cases hb : w.flag.isBool with
    | true =>
      simp only [parse, hjoined, hlookup, hb, if_true, Option.getD_some]
      exact hset
    | false =>
      simp only [parse, hjoined, hlookup, hb, Bool.false_eq_true, if_false]
      exact hset
  | false =>
    cases hb : w.flag.isBool with
    | true =>
      have hv := hbool hb hj
      simp only [Written.words, hj, hb, Bool.false_eq_true, if_false, if_true, List.singleton_append]
      simp only [parse, hapart, hlookup, hb, if_true, Option.getD_none, ← hv]
      exact hset
    | false =>
      simp only [Written.words, hj, hb, Bool.false_eq_true, if_false, List.cons_append, List.nil_append]
      simp only [parse, hapart, hlookup, hb, Bool.false_eq_true, if_false]
      exact hset

/-- A row of settings is read as it is written. -/
theorem parse_flatMap {fs : List (Flag σ)} (hfs : AllProper fs) {ws : List (Written σ)} (hws : ∀ w ∈ ws, w.Of fs) (x : σ)
    (tail : List (List Char)) :
    (parse fs x (ws.flatMap Written.words ++ tail)).toOption = (setAll ws x).bind fun x' => (parse fs x' tail).toOption := by
  induction ws generalizing x with
  | nil => rfl
  | cons w ws ih =>
    obtain ⟨hw, hrest⟩ := List.forall_mem_cons.mp hws
    rw [List.flatMap_cons, List.append_assoc, parse_words hfs hw, setAll, Option.bind_assoc]
    simp only [ih hrest]

/-- What ends the flags leaves the state as it is. -/
theorem Ends.parse {tail rest : List (List Char)} (h : Ends tail rest) (fs : List (Flag σ)) (x : σ) :
    Flags.parse fs x tail = .ok (x, rest) := by
  cases h with
  | none => rfl
  | plain s args hs => simp [Flags.parse, hs]
  | terminator => rfl

theorem eq_of_terminator {s : List Char} (h : wordOf s = .terminator) : s = ['-', '-'] := by
  have hname : ∀ name, wordOfName name ≠ .terminator := by
    intro name
    unfold wordOfName
    split <;> simp
  unfold wordOf at h
  split at h
  · rfl
  · exact absurd h (hname _)
  · cases h
  · exact absurd h (hname _)
  · cases h

/-- The flag that a word gives is written as a setting of it: with its value behind `=`, in the next word, or nowhere. -/
theorem written_of_word {fs : List (Flag σ)} {s name : List Char} {value : Option (List Char)} {f : Flag σ}
    (hs : wordOf s = .flag name value) (hf : lookup fs name = some f) :
    ∃ two, (∀ v, value = some v → Written.words ⟨f, v, two, true⟩ = [s] ∧ Written.Of fs ⟨f, v, two, true⟩) ∧
      (value = none → f.isBool = true →
        Written.words ⟨f, "true".toList, two, false⟩ = [s] ∧ Written.Of fs ⟨f, "true".toList, two, false⟩) ∧
      ∀ v, value = none → f.isBool = false →
        Written.words ⟨f, v, two, false⟩ = [s, v] ∧ Written.Of fs ⟨f, v, two, false⟩ := by
  obtain ⟨-, two, rfl⟩ := wordOf_eq hs
  obtain ⟨-, rfl⟩ := mem_of_lookup hf
  refine ⟨two, ?_, ?_, ?_⟩
  · rintro v rfl
    exact ⟨by simp [Written.words], hf, fun _ h => by cases h⟩
  · rintro rfl hb
    exact ⟨by simp [Written.words, hb], hf, fun _ _ => rfl⟩
  · rintro v rfl hb
    exact ⟨by simp [Written.words, hb], hf, fun h => by simp [hb] at h⟩

/-- A command line that is accepted is a row of settings, and what ends the flags (induction on its length: a setting may be two
words). -/
theorem written_of_parse {fs : List (Flag σ)} {x x' : σ} {args rest : List (List Char)} (h : parse fs x args = .ok (x', rest)) :
    ∃ ws tail, (∀ w ∈ ws, w.Of fs) ∧ args = ws.flatMap Written.words ++ tail ∧ setAll ws x = some x' ∧ Ends tail rest := by
  induction hn : args.length using Nat.strongRecOn generalizing x args with
  | ind n ih =>
    subst hn
    have hcons : ∀ {w : Written σ} {args' : List (List Char)} {x₁ : σ}, w.Of fs → args = w.words ++ args' →
        args'.length < args.length → w.flag.set w.value x = some x₁ → parse fs x₁ args' = .ok (x', rest) →
        ∃ ws tail, (∀ w ∈ ws, w.Of fs) ∧ args = ws.flatMap Written.words ++ tail ∧ setAll ws x = some x' ∧ Ends tail rest := by
      intro w args' x₁ hw hargs hlt hset hparse
      obtain ⟨ws, tail, hws, htail, hall, hends⟩ := ih _ hlt hparse rfl
      refine ⟨w :: ws, tail, List.forall_mem_cons.mpr ⟨hw, hws⟩, ?_, by simp [setAll, hset, hall], hends⟩
      rw [List.flatMap_cons, List.append_assoc, ← htail]
      exact hargs
    cases args with
    | nil =>
      cases h
      exact ⟨[], [], by simp, rfl, rfl, .none⟩
    | cons s args =>
      cases hword : wordOf s with
      | plain =>
        simp only [parse, hword] at h
        cases h
        exact ⟨[], s :: args, by simp, rfl, rfl, .plain s args hword⟩
      | terminator =>
        obtain rfl := eq_of_terminator hword
        simp only [parse, hword] at h
        cases h
        exact ⟨[], ['-', '-'] :: rest, by simp, rfl, rfl, .terminator rest⟩
      | bad =>
        simp only [parse, hword] at h
        cases h
      | flag name value =>
        simp only [parse, hword] at h
        cases hf : lookup fs name with
        | none =>
          simp only [hf] at h
          cases h
        | some f =>
          obtain ⟨two, hjoined, hbare, hapart⟩ := written_of_word hword hf
          simp only [hf] at h
          cases hb : f.isBool with
          | true =>
            simp only [hb, if_true] at h
            split at h
            · rename_i x₁ hset
              cases value with
              | some v =>
                obtain ⟨hwords, hw⟩ := hjoined v rfl
                exact hcons hw (by rw [hwords]; rfl) (by simp) hset h
              | none =>
                obtain ⟨hwords, hw⟩ := hbare rfl hb
                exact hcons hw (by rw [hwords]; rfl) (by simp) hset h
            · cases h
          | false =>
            simp only [hb, Bool.false_eq_true, if_false] at h
            cases value with
            | some v =>
              obtain ⟨hwords, hw⟩ := hjoined v rfl
              cases hset : f.set v x with
              | some x₁ =>
                simp only [hset] at h
                exact hcons hw (by rw [hwords]; rfl) (by simp) hset h
              | none =>
                simp only [hset] at h
                cases h
            | none =>
              cases args with
              | nil => cases h
              | cons v args =>
                obtain ⟨hwords, hw⟩ := hapart v rfl hb
                cases hset : f.set v x with
                | some x₁ =>
                  simp only [hset] at h
                  exact hcons hw (by rw [hwords]; rfl) (by simp only [List.length_cons]; omega) hset h
                | none =>
                  simp only [hset] at h
                  cases h

/-- A command line is accepted exactly if it is a row of settings that are not refused and what ends the flags; it amounts
to these settings, one after the other, and leaves what is behind the end. -/
theorem parse_iff {fs : List (Flag σ)} (hfs : AllProper fs) {x x' : σ} {args rest : List (List Char)} :
    parse fs x args = .ok (x', rest) ↔
      ∃ ws tail, (∀ w ∈ ws, w.Of fs) ∧ args = ws.flatMap Written.words ++ tail ∧ setAll ws x = some x' ∧ Ends tail rest := by
  refine ⟨written_of_parse, ?_⟩
  rintro ⟨ws, tail, hws, rfl, hall, hends⟩
  have hparse := parse_flatMap hfs hws x tail
  rw [hall, Option.bind_some, hends.parse] at hparse
  cases hp : parse fs x (ws.flatMap Written.words ++ tail) with
  | ok r =>
    rw [hp] at hparse
    rw [Option.some.inj hparse]
  | error e =>
    rw [hp] at hparse
    cases hparse

end Flags
