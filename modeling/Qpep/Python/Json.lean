import Qpep.Python.Text

/-!
# `json.loads`

The parser in two automata: one that divides the text into tokens, and one that builds the value with a stack of the arrays
and objects that are still open. Like Python's it accepts `NaN` and the infinities, refuses control characters in strings,
and lets the last of several equal keys win. A word that only begins with a number or a constant is an error here at once;
in Python it is one because nothing but a separator may stand behind a value.
-/

namespace Python

/-- What `json.loads` makes: a float is kept as the text that it is read from, and an object as its entries, the last one
first. -/
inductive Json where
  | null
  | bool (b : Bool)
  | int (n : Int)
  | float (t : Text)
  | str (t : Text)
  | arr (items : List Json)
  | obj (entries : List (Text × Json))

instance : Zero Json := ⟨.int 0⟩

namespace Json

/-! ## Words -/

def isDigit (c : Nat) : Bool := 48 ≤ c && c ≤ 57

/-- The value of some digits. -/
def digitsValue (ds : Text) : Nat := ds.foldl (fun n d => 10 * n + (d - 48)) 0

/-- What stands behind the fraction of a number, if what is there may be one. -/
def skipFraction : Text → Option Text
  | 46 :: rest => if (rest.takeWhile isDigit).isEmpty then none else some (rest.dropWhile isDigit)
  | t => some t

/-- Is this nothing, or the exponent of a number? -/
def isExponent : Text → Bool
  | [] => true
  | e :: rest =>
    (e == 69 || e == 101) &&
      match rest with
      | 43 :: ds => !ds.isEmpty && ds.all isDigit
      | 45 :: ds => !ds.isEmpty && ds.all isDigit
      | ds => !ds.isEmpty && ds.all isDigit

/-- The number behind a possible minus sign: an integer without superfluous zeros, a fraction, an exponent. -/
def unsigned (negative : Bool) (word t : Text) : Option Json :=
  let digits := t.takeWhile isDigit
  let rest := t.dropWhile isDigit
  if digits.isEmpty || (digits.head? == some 48 && digits.length != 1) then none
  else if rest.isEmpty then some (.int (if negative then -(digitsValue digits : Int) else digitsValue digits))
  else match skipFraction rest with
    | some tail => if isExponent tail then some (.float word) else none
    | none => none

/-- A word: a constant or a number. -/
def ofWord (word : Text) : Option Json :=
  if word = text "null" then some .null
  else if word = text "true" then some (.bool true)
  else if word = text "false" then some (.bool false)
  else if word = text "NaN" ∨ word = text "Infinity" ∨ word = text "-Infinity" then some (.float word)
  else match word with
    | 45 :: t => unsigned true word t
    | t => unsigned false word t

/-! ## Tokens -/

inductive Token where
  | leftBrace
  | rightBrace
  | leftBracket
  | rightBracket
  | colon
  | comma
  | str (t : Text)
  | word (j : Json)

def isSpace (c : Nat) : Bool := c == 32 || c == 9 || c == 10 || c == 13

def punctuation (c : Nat) : Option Token :=
  match Char.ofNat c with
  | '{' => some .leftBrace
  | '}' => some .rightBrace
  | '[' => some .leftBracket
  | ']' => some .rightBracket
  | ':' => some .colon
  | ',' => some .comma
  | _ => none

/-- Where the scanner stands: between tokens, in a word, in a string, behind a backslash in a string, or before `left + 1`
more hexadecimal digits. What has been read of the token is kept in reverse. `high` says whether the last thing read was an
escape for a high surrogate, which an escape for a low one completes to one character. -/
inductive LexMode where
  | between
  | word (rev : Text)
  | str (rev : Text) (high : Bool)
  | escape (rev : Text) (high : Bool)
  | hex (left acc : Nat) (rev : Text) (high : Bool)

/-- The scanner and the tokens read, in reverse. -/
structure LexState where
  mode : LexMode
  out : List Token

/-- A code point between tokens. -/
def lexBetween (out : List Token) (c : Nat) : LexState :=
  if isSpace c then ⟨.between, out⟩
  else if c = 34 then ⟨.str [] false, out⟩
  else match punctuation c with
    | some t => ⟨.between, t :: out⟩
    | none => ⟨.word [c], out⟩

/-- The character that a backslash and this one stand for in a string. -/
def stringEscape (c : Nat) : Option Nat :=
  match Char.ofNat c with
  | '"' => some 34
  | '\\' => some 92
  | '/' => some 47
  | 'b' => some 8
  | 'f' => some 12
  | 'n' => some 10
  | 'r' => some 13
  | 't' => some 9
  | _ => none

def isHighSurrogate (c : Nat) : Bool := 0xd800 ≤ c && c < 0xdc00

def isLowSurrogate (c : Nat) : Bool := 0xdc00 ≤ c && c < 0xe000

/-- Put the code point of an escape behind what was read of a string. -/
def addEscaped (rev : Text) (high : Bool) (c : Nat) : LexMode :=
  match rev, high && isLowSurrogate c with
  | h :: rev', true => .str ((0x10000 + (h - 0xd800) * 0x400 + (c - 0xdc00)) :: rev') false
  | _, _ => .str (c :: rev) (isHighSurrogate c)

/-- One code point. -/
def lexStep (s : LexState) (c : Nat) : Option LexState :=
  match s.mode with
  | .between => some (lexBetween s.out c)
  | .word rev =>
    if isSpace c || c == 34 || (punctuation c).isSome then
      (ofWord rev.reverse).map fun j => lexBetween (.word j :: s.out) c
    else some ⟨.word (c :: rev), s.out⟩
  | .str rev high =>
    if c = 34 then some ⟨.between, .str rev.reverse :: s.out⟩
    else if c = 92 then some ⟨.escape rev high, s.out⟩
    else if c < 32 then none
    else some ⟨.str (c :: rev) false, s.out⟩
  | .escape rev high =>
    if c = 117 then some ⟨.hex 3 0 rev high, s.out⟩
    else (stringEscape c).map fun d => ⟨.str (d :: rev) false, s.out⟩
  | .hex left acc rev high =>
    (hexValue c).map fun d =>
      match left with
      | left' + 1 => ⟨.hex left' (acc * 16 + d) rev high, s.out⟩
      | 0 => ⟨addEscaped rev high (acc * 16 + d), s.out⟩

/-- The tokens of a text. -/
def tokens (t : Text) : Option (List Token) :=
  match t.foldlM lexStep ⟨.between, []⟩ with
  | some ⟨.between, out⟩ => some out.reverse
  | some ⟨.word rev, out⟩ => (ofWord rev.reverse).map fun j => (.word j :: out).reverse
  | _ => none

/-! ## Values -/

/-- An array or an object that is still open: the items so far, the last one first, or the entries so far and the key of the
value that is being read. -/
inductive Frame where
  | arr (items : List Json)
  | obj (entries : List (Text × Json)) (key : Text)

/-- What may come next: a value; a value or the end of an array that has just begun; a key, behind these entries; a key or
the end of an object that has just begun; the colon behind a key; or what may stand behind a value. -/
inductive Expect where
  | value
  | valueOrEnd
  | key (entries : List (Text × Json))
  | keyOrEnd
  | colon (entries : List (Text × Json)) (key : Text)
  | behind (j : Json)

structure ParseState where
  stack : List Frame
  expect : Expect

/-- A token where a value begins. -/
def parseValue (stack : List Frame) : Token → Option ParseState
  | .word j => some ⟨stack, .behind j⟩
  | .str t => some ⟨stack, .behind (.str t)⟩
  | .leftBrace => some ⟨stack, .keyOrEnd⟩
  | .leftBracket => some ⟨.arr [] :: stack, .valueOrEnd⟩
  | _ => none

/-- A token behind a value. -/
def parseBehind (stack : List Frame) (j : Json) (t : Token) : Option ParseState :=
  match stack, t with
  | .arr items :: rest, .comma => some ⟨.arr (j :: items) :: rest, .value⟩
  | .arr items :: rest, .rightBracket => some ⟨rest, .behind (.arr (j :: items).reverse)⟩
  | .obj entries k :: rest, .comma => some ⟨rest, .key ((k, j) :: entries)⟩
  | .obj entries k :: rest, .rightBrace => some ⟨rest, .behind (.obj ((k, j) :: entries))⟩
  | _, _ => none

/-- One token. -/
def parseStep (s : ParseState) (t : Token) : Option ParseState :=
  match s.expect, t with
  | .value, t => parseValue s.stack t
  | .valueOrEnd, .rightBracket =>
    match s.stack with
    | .arr _ :: rest => some ⟨rest, .behind (.arr [])⟩
    | _ => none
  | .valueOrEnd, t => parseValue s.stack t
  | .key entries, .str k => some ⟨s.stack, .colon entries k⟩
  | .keyOrEnd, .str k => some ⟨s.stack, .colon [] k⟩
  | .keyOrEnd, .rightBrace => some ⟨s.stack, .behind (.obj [])⟩
  | .colon entries k, .colon => some ⟨.obj entries k :: s.stack, .value⟩
  | .behind j, t => parseBehind s.stack j t
  | _, _ => none

/-- `json.loads(t)`, or nothing where it raises. -/
def loads (t : Text) : Option Json := do
  let ts ← tokens t
  match ← ts.foldlM parseStep ⟨[], .value⟩ with
  | ⟨[], .behind j⟩ => some j
  | _ => none

/-! ## What a program does with a value -/

/-- The entry of a key, if there is one. -/
def lookup (k : Text) : List (Text × Json) → Option Json
  | [] => none
  | (k', j) :: rest => if k' = k then some j else lookup k rest

/-- `j[key]` for a text `key`. -/
def item (j : Json) (key : String) : Except PyErr Json :=
  match j with
  | .obj entries =>
    match lookup (text key) entries with
    | some v => .ok v
    | none => .error .keyError
  | _ => .error .typeError

/-- From here on, the quotient of an integer by a million rounds to more than the largest float. -/
def perMillionLimit : Nat := 1000000 * (2 ^ 1024 - 2 ^ 970)

theorem perMillionLimit_pos : 0 < perMillionLimit := by
  have hpos : ∀ m n : Nat, m < n → 0 < 1000000 * (2 ^ n - 2 ^ m) := by
    intro m n h
    exact Nat.mul_pos (by decide) (Nat.sub_pos_of_lt (Nat.pow_lt_pow_right Nat.one_lt_two h))
  unfold perMillionLimit
  exact hpos 970 1024 (by decide)

/-- `j/1000000`: an integer is divided to a float, for which it can be too large. -/
def perMillion : Json → Except PyErr PUnit
  | .int n => if perMillionLimit ≤ n.natAbs then .error .overflowError else .ok ⟨⟩
  | .float _ => .ok ⟨⟩
  | .bool _ => .ok ⟨⟩
  | _ => .error .typeError

example : loads (text "\x7b\"a\": [1, -2.5e3, \"x\\n\"], \"a\": \x7b\"b\": true\x7d\x7d ") =
    some (.obj [(text "a", .obj [(text "b", .bool true)]),
      (text "a", .arr [.int 1, .float (text "-2.5e3"), .str [120, 10]])]) := rfl

end Json

end Python
