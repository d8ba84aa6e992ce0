import Mathlib.Algebra.Ring.Nat
import Mathlib.Data.List.DropRight
import Qpep.Python.Dict

/-!
# Python texts

A text is the list of its code points; unlike Lean's characters they include the surrogates, which `unicode_escape` can produce.
-/

namespace Python

/-- A `str`: its code points. -/
abbrev Text := List Nat

/-- A literal. -/
def text (s : String) : Text := s.toList.map Char.toNat

/-- `part in t`. -/
def occursIn (part : Text) : Text → Bool
  | [] => part.isEmpty
  | c :: rest => part.isPrefixOf (c :: rest) || occursIn part rest

/-- `t.rstrip('\n')`. -/
def rstripNewlines (t : Text) : Text := t.rdropWhile (· == 10)

/-- `t.replace(old, new)` for a text `old` that is not empty; `skip` code points still belong to the last occurrence. -/
def replaceFrom (old new : Text) : (skip : Nat) → Text → Text
  | _, [] => []
  | skip + 1, _ :: rest => replaceFrom old new skip rest
  | 0, c :: rest =>
    if old.isPrefixOf (c :: rest) then new ++ replaceFrom old new (old.length - 1) rest else c :: replaceFrom old new 0 rest

/-- `t.replace(old, new)` for a text `old` that is not empty. -/
def replace (old new t : Text) : Text := replaceFrom old new 0 t

/-- The value of a hexadecimal digit. -/
def hexValue (c : Nat) : Option Nat :=
  if 48 ≤ c ∧ c ≤ 57 then some (c - 48)
  else if 97 ≤ c ∧ c ≤ 102 then some (c - 87)
  else if 65 ≤ c ∧ c ≤ 70 then some (c - 55)
  else none

/-! ## `unicode_escape` -/

/-- Where the decoder stands: between characters, behind a backslash, before `left` more digits of an octal escape, before
`left + 1` more digits of a hexadecimal one, behind `\N`, or in the name of a character. -/
inductive EscapeMode where
  | between
  | backslash
  | octal (left acc : Nat)
  | hex (left acc : Nat)
  | named
  | name (rev : List UInt8)
deriving DecidableEq, Repr

/-- The decoder and what it has put out, in reverse. -/
structure EscapeState where
  mode : EscapeMode
  out : Text
deriving DecidableEq, Repr

/-- The character that a backslash and this byte stand for. -/
def simpleEscape (b : UInt8) : Option Nat :=
  match Char.ofNat b.toNat with
  | '\\' => some 92
  | '\'' => some 39
  | '"' => some 34
  | 'a' => some 7
  | 'b' => some 8
  | 't' => some 9
  | 'n' => some 10
  | 'v' => some 11
  | 'f' => some 12
  | 'r' => some 13
  | _ => none

/-- A byte between characters: a backslash begins an escape, and every other byte stands for itself. -/
def escapeBetween (out : Text) (b : UInt8) : EscapeState :=
  if b = 92 then ⟨.backslash, out⟩ else ⟨.between, b.toNat :: out⟩

/-- The byte behind a backslash. A backslash before a newline is dropped with it; one before a byte that is no escape is
kept. -/
def escapeBackslash (out : Text) (b : UInt8) : EscapeState :=
  if b = 10 then ⟨.between, out⟩
  else if 48 ≤ b ∧ b ≤ 55 then ⟨.octal 2 (b.toNat - 48), out⟩
  else if b = 120 then ⟨.hex 1 0, out⟩
  else if b = 117 then ⟨.hex 3 0, out⟩
  else if b = 85 then ⟨.hex 7 0, out⟩
  else if b = 78 then ⟨.named, out⟩
  else match simpleEscape b with
    | some c => ⟨.between, c :: out⟩
    | none => ⟨.between, b.toNat :: 92 :: out⟩

/-- One byte. `names` looks up the name of a character. -/
def escapeStep (names : List UInt8 → Option Nat) (s : EscapeState) (b : UInt8) : Except PyErr EscapeState :=
  match s.mode with
  | .between => .ok (escapeBetween s.out b)
  | .backslash => .ok (escapeBackslash s.out b)
  | .octal (left + 1) acc =>
    if 48 ≤ b ∧ b ≤ 55 then .ok ⟨.octal left (acc * 8 + (b.toNat - 48)), s.out⟩ else .ok (escapeBetween (acc :: s.out) b)
  | .octal 0 acc => .ok (escapeBetween (acc :: s.out) b)
  | .hex left acc =>
    match hexValue b.toNat with
    | none => .error .unicodeDecodeError
    | some d =>
      match left with
      | left' + 1 => .ok ⟨.hex left' (acc * 16 + d), s.out⟩
      | 0 => if acc * 16 + d < 0x110000 then .ok ⟨.between, (acc * 16 + d) :: s.out⟩ else .error .unicodeDecodeError
  | .named => if b = 123 then .ok ⟨.name [], s.out⟩ else .error .unicodeDecodeError
  | .name rev =>
    if b = 125 then
      match rev, names rev.reverse with
      | _ :: _, some c => .ok ⟨.between, c :: s.out⟩
      | _, _ => .error .unicodeDecodeError
    else .ok ⟨.name (b :: rev), s.out⟩

/-- The end of the bytes: an escape that is not complete is an error. -/
def escapeEnd (s : EscapeState) : Except PyErr Text :=
  match s.mode with
  | .between => .ok s.out.reverse
  | .octal _ acc => .ok (acc :: s.out).reverse
  | _ => .error .unicodeDecodeError

/-- `output.decode('unicode_escape')`. -/
def decodeUnicodeEscape (names : List UInt8 → Option Nat) (output : List UInt8) : Except PyErr Text := do
  let s ← output.foldlM (escapeStep names) ⟨.between, []⟩
  escapeEnd s

/-- The bytes of an ASCII text. -/
def ascii (s : String) : List UInt8 := s.toList.map fun c => UInt8.ofNat c.toNat

example : decodeUnicodeEscape (fun _ => none) (ascii "a\\x41\\101\\n\\q\\ud800") = .ok [97, 65, 65, 10, 92, 113, 0xd800] := rfl

end Python
