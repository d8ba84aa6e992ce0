import Qpep.Server
import Qpep.Lemmas.Header
import Qpep.Lib.Machine

/-!
# What one step of the server can do

`Serves` lists the steps in the handling of one stream, with the two Reads of the decoder told apart. `Move` lists the steps
of the server as a whole, and `move_of_step` says that there are no others.
-/

namespace Qpep

open Io Machine HeaderAux

namespace Server

/-- The decoder of a handler is at its first or at its second Read. -/
def StreamHandler.Known (h : StreamHandler) : Prop :=
  ∀ p, h = .header p → p = getQpepHeader ∨ ∃ t0 t1, p = readRest [t0, t1]

/-- One step in the handling of a stream. -/
inductive Serves : StreamHandler → ServerIo → StreamHandler → Prop where
  | preamble (bs : List UInt8) (hlen : bs.length ≤ QPEP_PREAMBLE_LENGTH) (t0 t1 : UInt8)
      (hfill : fill QPEP_PREAMBLE_LENGTH bs = [t0, t1]) :
      Serves (.header getQpepHeader) (.read bs none) (.header (readRest [t0, t1]))
  | noPreamble (bs : List UInt8) (hlen : bs.length ≤ QPEP_PREAMBLE_LENGTH) (e : IoErr) :
      Serves (.header getQpepHeader) (.read bs (some e)) (.returned none)
  | rest (t0 t1 : UInt8) (bs : List UInt8) (hlen : bs.length ≤ restLength t0 t1) :
      Serves (.header (readRest [t0, t1])) (.read bs none) (.dial (decodeRest t0 t1 bs))
  | noRest (t0 t1 : UInt8) (bs : List UInt8) (hlen : bs.length ≤ restLength t0 t1) (e : IoErr) :
      Serves (.header (readRest [t0, t1])) (.read bs (some e)) (.returned none)
  | dialled (header : QpepHeader) : Serves (.dial header) (.dialTimeout true) (.wait header .start)
  | notDialled (header : QpepHeader) : Serves (.dial header) (.dialTimeout false) (.returned none)
  | looped (header : QpepHeader) (r r' : Relay) (n : LoopName) (io : LoopIo) (hstep : r.step n io = some r') :
      Serves (.wait header r) (.loop n io) (.wait header r')
  | cancelRead (header : QpepHeader) (r : Relay) (hdone : r.isDone = true) :
      Serves (.wait header r) .cancelRead (.cancelWrite header r)
  | cancelWrite (header : QpepHeader) (r : Relay) : Serves (.cancelWrite header r) .cancelWrite (.returned (some r))

/-- The call is one on which the handling of the stream gives up: a failed Read of the header, or a failed dial. -/
def ServerIo.givesUp : ServerIo → Bool
  | .read _ er => er.isSome
  | .dialTimeout ok => !ok
  | _ => false

/-- A stream after a call in its handling. -/
def Stream.served (x : Stream) (io : ServerIo) (h : StreamHandler) : Stream :=
  { x with
    handler := h
    readEnded := x.readEnded || io.readsEnd
    readCancelled := x.readCancelled || io = .cancelRead
    writeCancelled := x.writeCancelled || io = .cancelWrite }

/-- One step of the server. -/
inductive Move (s : Server) : Act → Server → Prop where
  | noSession (hl : s.listener = .accept) : Move s (.acceptSession none) { s with quicSession := none, listener := .returned }
  | session (n : SessionId) (hl : s.listener = .accept) (hn : s.accepted n = false) :
      Move s (.acceptSession (some n))
        { s with quicSession := some n, accepted := Function.update s.accepted n true, listener := .start }
  | goListenQuicConn (n : SessionId) (hl : s.listener = .start) (hq : s.quicSession = some n) :
      Move s .goListenQuicConn { s with loops := s.loops ++ [⟨n, true⟩], listener := .accept }
  | noStream (i : Nat) (l : AcceptLoop) (hl : s.loops[i]? = some l) (ha : l.accepting = true) :
      Move s (.acceptStream i none) { s with loops := s.loops.set i { l with accepting := false } }
  | stream (i : Nat) (l : AcceptLoop) (n : StreamId) (hl : s.loops[i]? = some l) (ha : l.accepting = true)
      (hn : s.streams n = none) :
      Move s (.acceptStream i (some n))
        { s with streams := Function.update s.streams n (some (.start l.session)), started := s.started ++ [n] }
  | handler (n : StreamId) (io : ServerIo) (x : Stream) (h : StreamHandler) (hx : s.streams n = some x)
      (hh : x.handler.step io = some h) :
      Move s (.handler n io) { s with streams := Function.update s.streams n (some (x.served io h)) }

namespace ServerAux

/-- A stream just accepted is at the first Read of the decoder. -/
theorem start_eq : StreamHandler.start = .header getQpepHeader := rfl

theorem known_start : StreamHandler.start.Known := by
  intro p hp
  rw [start_eq] at hp
  cases hp
  exact Or.inl rfl

/-- A handler that is not in the decoder any more. -/
theorem known_of_ne {h : StreamHandler} (hne : ∀ p, h ≠ .header p) : h.Known := fun p hp => absurd hp (hne p)

/-- A step in the handling of a stream is one of those listed, and the decoder is then again at one of its two Reads. -/
theorem serves_of_step {h h' : StreamHandler} {io : ServerIo} (hk : h.Known) (hs : h.step io = some h') :
    Serves h io h' ∧ h'.Known := by
  cases h with
  | header p =>
    rcases hk p rfl with rfl | ⟨t0, t1, rfl⟩
    · cases io with
      | read bs er =>
        simp only [getQpepHeader, StreamHandler.step] at hs
        split at hs
        · rename_i hlen
          cases er with
          | none =>
            obtain ⟨t0, t1, hf⟩ := fill_preamble hlen
            simp only [hf] at hs
            cases hs
            refine ⟨.preamble bs hlen t0 t1 hf, ?_⟩
            intro p hp
            cases hp
            exact Or.inr ⟨t0, t1, rfl⟩
          | some e =>
            cases hs
            exact ⟨.noPreamble bs hlen e, known_of_ne (by simp [handleQuicStream])⟩
        · cases hs
      | _ => cases hs
    · cases io with
      | read bs er =>
        simp only [readRest_eq, StreamHandler.step] at hs
        split at hs
        · rename_i hlen
          cases er with
          | none =>
            cases hs
            exact ⟨.rest t0 t1 bs hlen, known_of_ne (by simp [handleQuicStream])⟩
          | some e =>
            cases hs
            exact ⟨.noRest t0 t1 bs hlen e, known_of_ne (by simp [handleQuicStream])⟩
        · cases hs
      | _ => cases hs
  | dial header =>
    cases io with
    | dialTimeout ok =>
      cases ok with
      | true =>
        cases hs
        exact ⟨.dialled header, known_of_ne (by simp)⟩
      | false =>
        cases hs
        exact ⟨.notDialled header, known_of_ne (by simp)⟩
    | _ => cases hs
  | wait header r =>
    cases io with
    | loop n i =>
      obtain ⟨r', hr, rfl⟩ := Option.map_eq_some_iff.mp hs
      exact ⟨.looped header r r' n i hr, known_of_ne (by simp)⟩
    | cancelRead =>
      simp only [StreamHandler.step] at hs
      split at hs
      · rename_i hd
        cases hs
        exact ⟨.cancelRead header r hd, known_of_ne (by simp)⟩
      · cases hs
    | _ => cases hs
  | cancelWrite header r =>
    cases io with
    | cancelWrite =>
      cases hs
      exact ⟨.cancelWrite header r, known_of_ne (by simp)⟩
    | _ => cases hs
  | returned r => cases hs

/-- The first Read of the decoder, with a full buffer. -/
theorem step_preamble {t0 t1 : UInt8} {x : StreamHandler}
    (hs : (StreamHandler.header getQpepHeader).step (.read [t0, t1] none) = some x) : x = .header (readRest [t0, t1]) := by
  simp only [getQpepHeader, StreamHandler.step, fill_two] at hs
  split at hs
  · cases hs
    rfl
  · cases hs

/-- The second Read of the decoder, with a nil error. -/
theorem step_rest {t0 t1 : UInt8} {bs : List UInt8} {x : StreamHandler}
    (hs : (StreamHandler.header (readRest [t0, t1])).step (.read bs none) = some x) : x = .dial (decodeRest t0 t1 bs) := by
  simp only [readRest_eq, StreamHandler.step] at hs
  split at hs
  · cases hs
    rfl
  · cases hs

/-- A Read of the decoder that fails. -/
theorem step_failed {p : ReadProg (Except IoErr QpepHeader)} (hk : (StreamHandler.header p).Known) {bs : List UInt8} {e : IoErr}
    {x : StreamHandler} (hs : (StreamHandler.header p).step (.read bs (some e)) = some x) : x = .returned none := by
  obtain ⟨hserves, -⟩ := serves_of_step hk hs
  cases hserves <;> rfl

/-- The decoder goes on with a Read of one byte, wherever it is. -/
theorem step_one_byte {p : ReadProg (Except IoErr QpepHeader)} (hk : (StreamHandler.header p).Known) (b : UInt8) :
    ((StreamHandler.header p).step (.read [b] none)).isSome = true := by
  rcases hk p rfl with rfl | ⟨t0, t1, rfl⟩
  · rfl
  · have hlen : [b].length ≤ restLength t0 t1 := by
      simp only [restLength, List.length_singleton]
      omega
    simp only [readRest_eq, StreamHandler.step, if_pos hlen]
    rfl

/-- A step of the server is one of those listed. -/
theorem move_of_step {s s' : Server} {a : Act} (hs : s.step a = some s') : Move s a s' := by
  cases a with
  | acceptSession session =>
    simp only [step] at hs
    split at hs
    · rename_i hl
      cases session with
      | none =>
        cases hs
        exact .noSession hl
      | some n =>
        simp only [listenQuicSession] at hs
        split at hs
        · cases hs
        · rename_i hn
          cases hs
          exact .session n hl (by simpa using hn)
    · cases hs
  | goListenQuicConn =>
    simp only [step] at hs
    split at hs
    · rename_i n hl hq
      cases hs
      exact .goListenQuicConn n hl hq
    · cases hs
  | acceptStream i stream =>
    simp only [step] at hs
    split at hs
    · rename_i l hl
      split at hs
      · rename_i ha
        cases stream with
        | none =>
          cases hs
          exact .noStream i l hl ha
        | some n =>
          simp only [listenQuicConn] at hs
          split at hs
          · rename_i hn
            cases hs
            exact .stream i l n hl ha hn
          · cases hs
      · cases hs
    · cases hs
  | handler n io =>
    simp only [step] at hs
    split at hs
    · rename_i x hx
      obtain ⟨x', hx', rfl⟩ := Option.map_eq_some_iff.mp hs
      obtain ⟨h', hh', rfl⟩ := Option.map_eq_some_iff.mp hx'
      exact .handler n io x h' hx hh'
    · cases hs

/-- A step of the server leaves the streams alone, starts a stream under a fresh number, or is a step in the handling of one. -/
theorem streams_of_step {s s' : Server} {a : Act} (hs : s.step a = some s') :
    ((∀ n io, a ≠ .handler n io) ∧ s'.streams = s.streams) ∨
    (∃ i n session, a = .acceptStream i (some n) ∧ s.streams n = none ∧
      s'.streams = Function.update s.streams n (some (.start session))) ∨
    (∃ n io x h', a = .handler n io ∧ s.streams n = some x ∧ x.handler.step io = some h' ∧
      s'.streams = Function.update s.streams n (some (x.served io h'))) := by
  cases move_of_step hs with
  | stream i l n hl ha hn => exact Or.inr (Or.inl ⟨i, n, l.session, rfl, hn, rfl⟩)
  | handler n io x h' hx hh' => exact Or.inr (Or.inr ⟨n, io, x, h', rfl, hx, hh', rfl⟩)
  | _ => exact Or.inl ⟨by simp, rfl⟩

end ServerAux

end Server

end Qpep
