import Qpep.Theorems.HalfClose

/-!
# How the client leaves its stream

When `handleTCPConn` of the client returns it has closed its TCP connection and the direction of the stream that it writes.
The direction that it reads is over only if `streamQUICtoTCP` has read it to its end: nothing cancels it. A
`streamQUICtoTCP` that ends because it cannot write leaves the rest of the stream unread (`client_terminates_iff`).
-/

namespace Qpep

open Io Machine Server.ServerAux

/-- The goroutine loses its destination while there may be more to read: a Write fails, or is short, after a Read with a nil
error. -/
def Loop.StopsReading (x : Loop) (ev : LoopEv) : Prop :=
  ∃ buf k ew, x = .copy (.write buf none) ∧ ev = .write k ew ∧ (ew ≠ none ∨ k ≠ buf.length)

/-- What a goroutine knows of the end of what it reads: `ended`, a Read has returned an error; `kept`, it has not stopped
reading before that. -/
def Loop.ReadsOut (x : Loop) (ended kept : Prop) : Prop :=
  match x with
  | .copy .read | .copy (.write _ none) => ¬ended ∧ kept
  | .copy (.write _ (some _)) => ended ∧ kept
  | .copy (.ended _) | .done _ => ended ↔ kept

/-- A step of the goroutine that reads the stream keeps what it knows of the end. -/
theorem LoopMove.readsOut {down : Bool} {p p' : Port} {x x' : Loop} {ev : LoopEv} {ended kept : Prop}
    (hm : LoopMove down p .streamQUICtoTCP x ev p' x') (h : x.ReadsOut ended kept) :
    x'.ReadsOut (ended ∨ ∃ k e, ev = .read k (some e)) (kept ∧ ¬x.StopsReading ev) := by
  cases hm with
  | readQuic k er bs d c hr hc =>
    have hread : ¬(Loop.copy .read).StopsReading (.read k er) := by
      rintro ⟨_, _, _, hx, -⟩
      cases hx
    obtain ⟨hn, hk⟩ : ¬ended ∧ kept := h
    obtain ⟨-, ⟨-, rfl⟩ | ⟨-, rfl, rfl⟩ | ⟨e, -, rfl, rfl⟩⟩ := Copy.step_read hc
    · cases er with
      | none => exact ⟨by simp [hn], hk, hread⟩
      | some e => exact ⟨Or.inr ⟨k, e, rfl⟩, hk, hread⟩
    · exact ⟨by simp [hn], hk, hread⟩
    · exact ⟨fun _ => ⟨hk, hread⟩, fun _ => Or.inr ⟨k, e, rfl⟩⟩
  | writeTcp buf er k ew s c hw hc =>
    have hev : ¬∃ n e, LoopEv.write k ew = .read n (some e) := by simp
    obtain ⟨_, _, he, hcase⟩ := Copy.step_write hc
    cases he
    cases er with
    | none =>
      obtain ⟨hn, hk⟩ : ¬ended ∧ kept := h
      rcases hcase with ⟨hfail, rfl⟩ | ⟨rfl, rfl, ⟨-, rfl⟩ | ⟨e, he, -⟩⟩
      · -- the Write has failed, and no Read has returned an error
        have hstops : (Loop.copy (.write buf none)).StopsReading (.write k ew) := ⟨buf, k, ew, rfl, rfl, hfail⟩
        refine ⟨?_, fun hkept => absurd hstops hkept.2⟩
        rintro (he | he)
        · exact absurd he hn
        · exact absurd he hev
      · refine ⟨by simp [hn], hk, ?_⟩
        rintro ⟨_, _, _, hx, he, hfail⟩
        cases hx
        cases he
        simp at hfail
      · cases he
    | some e =>
      obtain ⟨he, hk⟩ : ended ∧ kept := h
      have hstops : ¬(Loop.copy (.write buf (some e))).StopsReading (.write k ew) := by
        rintro ⟨_, _, _, hx, -⟩
        cases hx
      rcases hcase with ⟨-, rfl⟩ | ⟨-, -, ⟨hnone, -⟩ | ⟨_, -, rfl⟩⟩
      · exact ⟨fun _ => ⟨hk, hstops⟩, fun _ => Or.inl he⟩
      · cases hnone
      · exact ⟨fun _ => ⟨hk, hstops⟩, fun _ => Or.inl he⟩
  | partTcp buf er k s hw hpos hlt =>
    have hev : ¬∃ n e, LoopEv.part k = .read n (some e) := by simp
    have hgoes : ¬(Loop.copy (.write buf er)).StopsReading (.part k) := by
      rintro ⟨_, _, _, -, he, -⟩
      cases he
    cases er with
    | none =>
      obtain ⟨hn, hk⟩ : ¬ended ∧ kept := h
      exact ⟨fun he => he.elim hn hev, hk, hgoes⟩
    | some e =>
      obtain ⟨he, hk⟩ : ended ∧ kept := h
      exact ⟨Or.inl he, hk, hgoes⟩
  | close n e =>
    have hstops : ¬(Loop.copy (.ended e)).StopsReading .close := by
      rintro ⟨_, _, _, hx, -⟩
      cases hx
    have h' : ended ↔ kept := h
    simp [Loop.ReadsOut, h', hstops]

namespace Link

/-- In this run a Read of the client's `streamQUICtoTCP` has returned `io.EOF` or an error. -/
def ReceiveEnded (as : List Act) : Prop := ∃ k e, Act.loop .client .streamQUICtoTCP (.read k (some e)) ∈ as

/-- The client is through with the connection and the stream: its TCP connection is closed, so is the direction of the
stream that it writes, and the one that it reads was read to its end or cancelled. -/
def Terminated (as : List Act) (l : Link) : Prop :=
  l.app.closed = true ∧ l.up.fin = true ∧ (ReceiveEnded as ∨ l.down.stopped = true)

/-- In the step the client's `streamQUICtoTCP` does not fail to write what it has read with a nil error. -/
def ReadsOn (l : Link) (a : Act) : Prop :=
  ∀ ev, a = .loop .client .streamQUICtoTCP ev → ¬(l.loop .client .streamQUICtoTCP).StopsReading ev

/-- The invariant of a connection for its client's return, after the steps `past`. -/
structure ReturnInv (header : QpepHeader) (past : List Act) (l : Link) : Prop where
  reached : run step (Link.init header) past = some l
  known : l.server.Known
  returned : ∀ r, l.client = .stream (.returned r) → r.isDone = true ∧ l.app.closed = true ∧ l.up.fin = true
  stopped : l.down.stopped = false
  reads : (l.loop .client .streamQUICtoTCP).ReadsOut (ReceiveEnded past) (Along step ReadsOn (Link.init header) past)

namespace LinkAux

/-- A Read of the goroutine with an error is one of the past, or the step. -/
theorem receiveEnded_snoc {past : List Act} {a : Act} :
    ReceiveEnded (past ++ [a]) ↔ ReceiveEnded past ∨ ∃ k e, a = .loop .client .streamQUICtoTCP (.read k (some e)) := by
  constructor
  · rintro ⟨k, e, hmem⟩
    rcases List.mem_append.mp hmem with h | h
    · exact Or.inl ⟨k, e, h⟩
    · exact Or.inr ⟨k, e, (List.mem_singleton.mp h).symm⟩
  · rintro (⟨k, e, hmem⟩ | ⟨k, e, rfl⟩)
    · exact ⟨k, e, List.mem_append_left _ hmem⟩
    · exact ⟨k, e, List.mem_append_right _ (List.mem_singleton.mpr rfl)⟩

/-- Every step keeps what the goroutine knows of the end of the stream. -/
theorem reads_step {header : QpepHeader} {past : List Act} {l l' : Link} {a : Act} (hi : ReturnInv header past l)
    (hm : Move l a l') :
    (l'.loop .client .streamQUICtoTCP).ReadsOut (ReceiveEnded (past ++ [a]))
      (Along step ReadsOn (Link.init header) (past ++ [a])) := by
  rw [receiveEnded_snoc, along_snoc hi.reached]
  by_cases ha : ∃ ev, a = .loop .client .streamQUICtoTCP ev
  · obtain ⟨ev, rfl⟩ := ha
    have hreads := (loop_of_move hm).readsOut hi.reads
    have hend : (∃ k e, ev = .read k (some e)) ↔
        ∃ k e, Act.loop .client .streamQUICtoTCP ev = .loop .client .streamQUICtoTCP (.read k (some e)) := by simp
    have hon : ¬(l.loop .client .streamQUICtoTCP).StopsReading ev ↔ ReadsOn l (.loop .client .streamQUICtoTCP ev) := by
      simp [ReadsOn]
    rwa [hend, hon] at hreads
  · have hno : ¬∃ k e, a = .loop .client .streamQUICtoTCP (.read k (some e)) := by
      rintro ⟨k, e, he⟩
      exact ha ⟨_, he⟩
    have hon : ReadsOn l a := fun ev he => absurd ⟨ev, he⟩ ha
    have hloop : l'.loop .client .streamQUICtoTCP = l.loop .client .streamQUICtoTCP := by
      rcases loop_step hi.known hm .client .streamQUICtoTCP with he | ⟨ev, he, -⟩
      · exact he
      · exact absurd ⟨ev, he⟩ ha
    rw [hloop, or_iff_left hno, and_iff_left hon]
    exact hi.reads

/-- Every step keeps the invariant. -/
theorem returnInv_step (header : QpepHeader) (past : List Act) (l : Link) (a : Act) (l' : Link) (hi : ReturnInv header past l)
    (hs : l.step a = some l') : ReturnInv header (past ++ [a]) l' := by
  have hm := move_of_step hs
  have hlast := lasting_step hm .client
  refine ⟨run_snoc hi.reached hs, known_step hi.known hm, ?_, (down_step hm).2.trans hi.stopped, reads_step hi hm⟩
  intro r hr
  rcases returned_of_move hm hr with h | he
  · exact h
  · obtain ⟨hd, hc, hf⟩ := hi.returned r he
    exact ⟨hd, hlast.1 hc, hlast.2.1 hf⟩

theorem returnInv_init (header : QpepHeader) : ReturnInv header [] (Link.init header) := by
  refine ⟨rfl, known_start, fun r h => (by cases h), rfl, ?_, trivial⟩
  rintro ⟨k, e, hmem⟩
  cases hmem

end LinkAux

open LinkAux

/-- Whatever the two endpoints and the network do: when the client's handler of the connection has returned, its TCP
connection and both directions of the stream are over, exactly if no Write of its `streamQUICtoTCP` has failed after a Read
with a nil error. -/
theorem client_terminates_iff (header : QpepHeader) (as : List Act) (l : Link) (r : Relay)
    (hrun : run step (Link.init header) as = some l) (hret : l.client = .stream (.returned r)) :
    Terminated as l ↔ Along step ReadsOn (Link.init header) as := by
  have hi := inv_run_past (ReturnInv header) (returnInv_step header) (returnInv_init header) hrun
  rw [List.nil_append] at hi
  obtain ⟨hdone, hclosed, hfin⟩ := hi.returned r hret
  have hreads := hi.reads
  have hloop : (l.loop .client .streamQUICtoTCP).isDone = true := by
    simpa [loop, relay, hret] using Relay.isDone_iff.mp hdone .streamQUICtoTCP
  have hiff : ReceiveEnded as ↔ Along step ReadsOn (Link.init header) as := by
    generalize l.loop .client .streamQUICtoTCP = x at hreads hloop
    cases x with
    | copy c => cases hloop
    | done e => exact hreads
  simp [Terminated, hclosed, hfin, hi.stopped, hiff]

/-- The equivalence for a connection whose application finishes sending in the middle of the answer. -/
theorem client_terminates_iff_lost : ∃ l, run step (Link.init webHeader) answerLost = some l ∧
    (Terminated answerLost l ↔ Along step ReadsOn (Link.init webHeader) answerLost) :=
  ⟨_, rfl, client_terminates_iff webHeader answerLost _ _ rfl rfl⟩

/-- The client finds the end of the request and closes its TCP connection, so it cannot write the answer: it returns, and
leaves the direction of the stream that it reads neither read to its end nor cancelled. -/
theorem client_leaves_stream :
    ∃ l r, run step (Link.init webHeader) answerLost = some l ∧ l.client = .stream (.returned r) ∧ l.app.closed = true ∧
      l.up.fin = true ∧ l.down.stopped = false ∧ ¬Terminated answerLost l := by
  refine ⟨_, _, rfl, rfl, rfl, rfl, rfl, ?_⟩
  rintro ⟨-, -, ⟨k, e, hmem⟩ | hstop⟩
  · simp [answerLost, exchange, connect] at hmem
  · cases hstop

end Link

end Qpep
