import Mathlib.Logic.Basic

/-!
# Readers of Go's `io` package

`Read(p)` on an `io.Reader` returns some of the next bytes, as many as it likes up to `len(p)`, and an error or nil. Code that
reads is a program over this call (`ReadProg`): it asks for a buffer of some length and goes on with what it was given. The same
program is run to its end against a reader (`ReadProg.run`) and one call at a time inside a system of many parties.
-/

namespace Io

/-- An error of a call: the end of the stream, or anything else. The code never looks further into an error. -/
inductive IoErr where
  | EOF
  | other
deriving DecidableEq, Repr

/-- What a reader answers to a Read with a buffer of some length, and the state it is left in. -/
structure Reader (σ : Type) where
  read : σ → Nat → (List UInt8 × Option IoErr) × σ

/-- A program over a reader: done, or a Read with a buffer of `n` bytes and what to do with the answer. -/
inductive ReadProg (α : Type) where
  | ret (a : α)
  | read (n : Nat) (k : List UInt8 → Option IoErr → ReadProg α)

/-- Run a program against a reader. -/
def ReadProg.run {α σ : Type} (R : Reader σ) : ReadProg α → σ → α × σ
  | .ret a, s => (a, s)
  | .read n k, s => (k (R.read s n).1.1 (R.read s n).1.2).run R (R.read s n).2

@[simp] theorem ReadProg.run_ret {α σ : Type} (R : Reader σ) (a : α) (s : σ) : (ReadProg.ret a).run R s = (a, s) := rfl

theorem ReadProg.run_read {α σ : Type} (R : Reader σ) (n : Nat) (k : List UInt8 → Option IoErr → ReadProg α) (s : σ) :
    (ReadProg.read n k).run R s = (k (R.read s n).1.1 (R.read s n).1.2).run R (R.read s n).2 := rfl

/-- A buffer of `n` zero bytes after a Read has put `bs` at its start. -/
def fill (n : Nat) (bs : List UInt8) : List UInt8 := bs ++ List.replicate (n - bs.length) 0

theorem fill_length {n : Nat} {bs : List UInt8} (h : bs.length ≤ n) : (fill n bs).length = n := by
  simp only [fill, List.length_append, List.length_replicate]
  omega

/-- A full buffer has no zero bytes left. -/
theorem fill_full {n : Nat} {bs : List UInt8} (h : bs.length = n) : fill n bs = bs := by
  simp [fill, h]

/-- A reader that delivers a byte string: `unread s` are the bytes it has still to hand out. While there are any, a Read returns
between one byte and a full buffer of them, with a nil error, or, when these are the last ones, possibly with `io.EOF`; once
there are none it returns `io.EOF` and no data. -/
structure Delivers {σ : Type} (R : Reader σ) (unread : σ → List UInt8) : Prop where
  more : ∀ s n, 0 < n → unread s ≠ [] →
    (R.read s n).1.1 ≠ [] ∧ (R.read s n).1.1.length ≤ n ∧ (R.read s n).1.1 ++ unread (R.read s n).2 = unread s ∧
      ((R.read s n).1.2 = none ∨ (R.read s n).1.2 = some .EOF ∧ unread (R.read s n).2 = [])
  done : ∀ s n, unread s = [] → (R.read s n).1 = ([], some .EOF) ∧ unread (R.read s n).2 = []

/-- The reader over a byte string that fills every buffer while bytes remain, and returns `io.EOF` and no data once none do. -/
def fullReader : Reader (List UInt8) where
  read s n := if s = [] then (([], some .EOF), []) else ((s.take n, none), s.drop n)

/-- A reader over a byte string that hands out chunks of prepared sizes (an entry `k` stands for a chunk of `k + 1` bytes,
cut at the buffer's length), and fills the buffer once the sizes are used up. With `last` it returns `io.EOF` together with
the last bytes, without it on the Read after them. -/
def chunkReader (last : Bool) : Reader (List UInt8 × List Nat) where
  read s n :=
    let k := min n (s.2.headD n + 1)
    if s.1 = [] then (([], some .EOF), s)
    else ((s.1.take k, if last ∧ s.1.length ≤ k then some .EOF else none), (s.1.drop k, s.2.tail))

theorem fullReader_read {s : List UInt8} (h : s ≠ []) (n : Nat) : fullReader.read s n = ((s.take n, none), s.drop n) :=
  if_neg h

/-- The reader over a byte string delivers it. -/
theorem fullReader_delivers : Delivers fullReader (fun s => s) where
  more s n hn hs := by
    rw [fullReader_read hs]
    refine ⟨?_, List.length_take_le _ _, List.take_append_drop _ _, Or.inl rfl⟩
    rw [Ne, List.take_eq_nil_iff, not_or]
    exact ⟨by omega, hs⟩
  done s n hs := by
    subst hs
    exact ⟨rfl, rfl⟩

/-- The reader of prepared chunks delivers the byte string, whatever the sizes. -/
theorem chunkReader_delivers (last : Bool) : Delivers (chunkReader last) (fun s => s.1) where
  more s n hn hs := by
    have hk : 0 < min n (s.2.headD n + 1) := by omega
    simp only [chunkReader, hs, if_false]
    refine ⟨?_, ?_, List.take_append_drop _ _, ?_⟩
    · rw [Ne, List.take_eq_nil_iff, not_or]
      exact ⟨by omega, hs⟩
    · rw [List.length_take]
      omega
    · split
      · rename_i h
        exact Or.inr ⟨rfl, List.drop_eq_nil_of_le h.2⟩
      · exact Or.inl rfl
  done s n hs := by
    simp [chunkReader, hs]

end Io
