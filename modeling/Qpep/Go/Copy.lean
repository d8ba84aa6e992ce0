import Qpep.Go.Io

/-!
# `io.Copy`

`io.Copy(dst, src)` alternates a Read of `src` and, when the Read returned data, a Write of that data to `dst`. It returns
as soon as a Write fails or is short, and otherwise when a Read returns an error; `io.EOF` is the regular end. Here a call
of `io.Copy` is an automaton over the outcomes of its Reads and Writes, so that it can run inside a system of many parties.
A Write can hand over its data piece by piece before it returns.

`Copy.Flow c inn out` says where the bytes are: `inn` is everything the call has read and `out` everything it has written.
What was read and is not written yet is in its buffer, and nothing is reordered, duplicated or invented; only a failed Write
loses bytes.
-/

namespace Io

/-- How a call of `io.Copy` ended: the error of the last Read and whether a Write failed. -/
structure CopyEnd where
  readErr : Option IoErr
  writeFailed : Bool
deriving DecidableEq, Repr

/-- Where a call of `io.Copy(dst, src)` stands: before `src.Read`, in `dst.Write` with the data that it has not handed over
yet and the error of the last Read, or returned. -/
inductive Copy where
  | read
  | write (buf : List UInt8) (er : Option IoErr)
  | ended (e : CopyEnd)
deriving DecidableEq, Repr

/-- The outcome of a call that `io.Copy` makes: data and error of a Read, or count and error of a Write, where the count
goes on from what the Write has handed over before. -/
inductive CopyIo where
  | read (bs : List UInt8) (er : Option IoErr)
  | write (n : Nat) (ew : Option IoErr)
  /-- the Write has handed over `n` bytes and waits -/
  | part (n : Nat)
deriving DecidableEq, Repr

/-- One step of `io.Copy`. -/
def Copy.step : Copy → CopyIo → Option Copy
  | .read, .read bs er =>
    if bs ≠ [] then some (.write bs er)
    else match er with
      | none => some .read
      | some e => some (.ended ⟨some e, false⟩)
  | .write buf er, .write n ew =>
    if ew ≠ none ∨ n ≠ buf.length then some (.ended ⟨er, true⟩)
    else match er with
      | none => some .read
      | some e => some (.ended ⟨some e, false⟩)
  | .write buf er, .part n => if 0 < n ∧ n < buf.length then some (.write (buf.drop n) er) else none
  | _, _ => none

/-- The bytes a call holds, read and not yet written. -/
def Copy.held : Copy → List UInt8
  | .write buf _ => buf
  | _ => []

/-- Where the bytes are: `out` was written, the rest of `inn` is in the buffer. Bytes are missing only after a failed Write. -/
def Copy.Flow (c : Copy) (inn out : List UInt8) : Prop :=
  match c with
  | .read => out = inn
  | .write buf _ => out ++ buf = inn
  | .ended e => out <+: inn ∧ (e.writeFailed = false → out = inn)

/-- What was written is a prefix of what was read. -/
theorem Copy.Flow.out_prefix_inn {c : Copy} {inn out : List UInt8} (h : c.Flow inn out) : out <+: inn := by
  cases c with
  | read => exact h ▸ List.prefix_refl _
  | write buf er => exact ⟨buf, h⟩
  | ended e => exact h.1

/-- What a Read can do: it is made only before a Read, and data goes to the buffer. -/
theorem Copy.step_read {c c' : Copy} {bs : List UInt8} {er : Option IoErr} (h : c.step (.read bs er) = some c') :
    c = .read ∧ (bs ≠ [] ∧ c' = .write bs er ∨ bs = [] ∧ er = none ∧ c' = .read ∨
      ∃ e, bs = [] ∧ er = some e ∧ c' = .ended ⟨some e, false⟩) := by
  cases c with
  | read =>
    refine ⟨rfl, ?_⟩
    simp only [Copy.step] at h
    split at h
    · rename_i hb
      cases h
      exact Or.inl ⟨hb, rfl⟩
    · rename_i hb
      rw [ne_eq, not_not] at hb
      cases er with
      | none =>
        cases h
        exact Or.inr (Or.inl ⟨hb, rfl, rfl⟩)
      | some e =>
        cases h
        exact Or.inr (Or.inr ⟨e, hb, rfl, rfl⟩)
  | write buf er => simp [Copy.step] at h
  | ended e => simp [Copy.step] at h

/-- What a Write can do: it writes from the buffer, and either all of it, or the call ends with a failed Write. -/
theorem Copy.step_write {c c' : Copy} {n : Nat} {ew : Option IoErr} (h : c.step (.write n ew) = some c') :
    ∃ buf er, c = .write buf er ∧ ((ew ≠ none ∨ n ≠ buf.length) ∧ c' = .ended ⟨er, true⟩ ∨
      ew = none ∧ n = buf.length ∧ (er = none ∧ c' = .read ∨ ∃ e, er = some e ∧ c' = .ended ⟨some e, false⟩)) := by
  cases c with
  | read => simp [Copy.step] at h
  | write buf er =>
    refine ⟨buf, er, rfl, ?_⟩
    simp only [Copy.step] at h
    split at h
    · rename_i hf
      cases h
      exact Or.inl ⟨hf, rfl⟩
    · rename_i hf
      rw [not_or, ne_eq, not_not, ne_eq, not_not] at hf
      refine Or.inr ⟨hf.1, hf.2, ?_⟩
      cases er with
      | none =>
        cases h
        exact Or.inl ⟨rfl, rfl⟩
      | some e =>
        cases h
        exact Or.inr ⟨e, rfl, rfl⟩
  | ended e => simp [Copy.step] at h

/-- What a part of a Write can do: some bytes leave the buffer, and some stay. -/
theorem Copy.step_part {c c' : Copy} {n : Nat} (h : c.step (.part n) = some c') :
    ∃ buf er, c = .write buf er ∧ 0 < n ∧ n < buf.length ∧ c' = .write (buf.drop n) er := by
  cases c with
  | read => simp [Copy.step] at h
  | write buf er =>
    simp only [Copy.step, Option.ite_none_right_eq_some, Option.some.injEq] at h
    obtain ⟨⟨hpos, hlt⟩, rfl⟩ := h
    exact ⟨buf, er, rfl, hpos, hlt, rfl⟩
  | ended e => simp [Copy.step] at h

/-- A Read keeps the flow: what it returned is added to the input. -/
theorem Copy.Flow.read {c c' : Copy} {inn out bs : List UInt8} {er : Option IoErr} (h : c.Flow inn out)
    (hs : c.step (.read bs er) = some c') : c'.Flow (inn ++ bs) out := by
  obtain ⟨rfl, ⟨-, rfl⟩ | ⟨rfl, -, rfl⟩ | ⟨e, rfl, -, rfl⟩⟩ := Copy.step_read hs
  · exact congrArg (· ++ bs) h
  · simpa [Copy.Flow] using h
  · have h' : out = inn := h
    simp [Copy.Flow, h']

/-- A Write keeps the flow: the bytes it wrote, from the front of the buffer, are added to the output. -/
theorem Copy.Flow.write {c c' : Copy} {inn out : List UInt8} {n : Nat} {ew : Option IoErr} (h : c.Flow inn out)
    (hs : c.step (.write n ew) = some c') : c'.Flow inn (out ++ c.held.take n) := by
  obtain ⟨buf, er, rfl, ⟨-, rfl⟩ | ⟨-, rfl, hc⟩⟩ := Copy.step_write hs
  · have h' : out ++ buf = inn := h
    refine ⟨?_, fun hw => by cases hw⟩
    rw [← h']
    exact (List.prefix_append_right_inj out).mpr (List.take_prefix _ _)
  · have h' : out ++ buf = inn := h
    have ht : (Copy.write buf er).held.take buf.length = buf := List.take_length
    rw [ht]
    rcases hc with ⟨-, rfl⟩ | ⟨e, -, rfl⟩
    · exact h'
    · exact ⟨h' ▸ List.prefix_refl _, fun _ => h'⟩

/-- A part of a Write keeps the flow. -/
theorem Copy.Flow.part {c c' : Copy} {inn out : List UInt8} {n : Nat} (h : c.Flow inn out) (hs : c.step (.part n) = some c') :
    c'.Flow inn (out ++ c.held.take n) := by
  obtain ⟨buf, er, rfl, -, -, rfl⟩ := Copy.step_part hs
  have h' : out ++ buf = inn := h
  show out ++ buf.take n ++ buf.drop n = inn
  rw [List.append_assoc, List.take_append_drop, h']

end Io
