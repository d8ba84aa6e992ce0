import Qpep.Lemmas.Server

/-!
# Whether the server terminates the streams it accepts

`handleTCPConn` cancels both directions of its stream when both goroutines are done. The returns before that, on a bad
header and on a failed dial, leave the stream as it is (`terminated_iff`).
-/

namespace Qpep

open Io Machine

namespace Server

/-- In this run a step in the handling of the stream was one on which the handling gives up. -/
def GaveUp (as : List Act) (n : StreamId) : Prop := ∃ io, Act.handler n io ∈ as ∧ io.givesUp = true

/-- How far a stream has been terminated, from where its handling stands, and that the handling has given up only if it has
returned without a connection. -/
def Stream.Progress (x : Stream) (gaveUp : Prop) : Prop :=
  match x.handler with
  | .header _ | .dial _ | .wait _ _ => ¬gaveUp ∧ x.writeCancelled = false
  | .cancelWrite _ _ => ¬gaveUp ∧ x.readCancelled = true
  | .returned none => gaveUp ∧ x.writeCancelled = false
  | .returned (some _) => ¬gaveUp ∧ x.readCancelled = true ∧ x.writeCancelled = true

/-- The invariant of the server's streams after the steps `past`. -/
structure StreamInv (past : List Act) (s : Server) : Prop where
  fresh : ∀ n io, s.streams n = none → Act.handler n io ∉ past
  known : ∀ n x, s.streams n = some x → x.handler.Known
  progress : ∀ n x, s.streams n = some x → x.Progress (GaveUp past n)

namespace ServerAux

/-- A step on another stream, or none of a handler, does not make the handling of this one give up. -/
theorem gaveUp_append_other {past : List Act} {a : Act} {n : StreamId} (ha : ∀ io, a ≠ .handler n io) :
    GaveUp (past ++ [a]) n ↔ GaveUp past n := by
  constructor
  · rintro ⟨io, hmem, hg⟩
    rcases List.mem_append.mp hmem with h | h
    · exact ⟨io, h, hg⟩
    · exact absurd (List.mem_singleton.mp h).symm (ha io)
  · rintro ⟨io, hmem, hg⟩
    exact ⟨io, List.mem_append_left _ hmem, hg⟩

/-- A step in the handling of the stream makes it give up, or not. -/
theorem gaveUp_append_self {past : List Act} {n : StreamId} {io : ServerIo} :
    GaveUp (past ++ [.handler n io]) n ↔ GaveUp past n ∨ io.givesUp = true := by
  constructor
  · rintro ⟨io', hmem, hg⟩
    rcases List.mem_append.mp hmem with h | h
    · exact Or.inl ⟨io', h, hg⟩
    · cases List.mem_singleton.mp h
      exact Or.inr hg
  · rintro (⟨io', hmem, hg⟩ | hg)
    · exact ⟨io', List.mem_append_left _ hmem, hg⟩
    · exact ⟨io, List.mem_append_right _ (List.mem_singleton.mpr rfl), hg⟩

/-- One step in the handling of a stream, for what it says about the stream. -/
theorem progress_of_serves {x : Stream} {h' : StreamHandler} {io : ServerIo} {gaveUp : Prop}
    (hs : Serves x.handler io h') (hp : x.Progress gaveUp) :
    (x.served io h').Progress (gaveUp ∨ io.givesUp = true) := by
  obtain ⟨session, h, readEnded, readCancelled, writeCancelled⟩ := x
  cases hs <;> simp_all [Stream.served, Stream.Progress, ServerIo.givesUp]

/-- A step of the server keeps the invariant. -/
theorem streamInv_step {past : List Act} {s s' : Server} {a : Act} (hi : StreamInv past s) (hs : s.step a = some s') :
    StreamInv (past ++ [a]) s' := by
  rcases streams_of_step hs with ⟨ha, hst⟩ | ⟨i, n, session, rfl, hn, hst⟩ | ⟨n, io, x, h', rfl, hx, hh', hst⟩
  · refine ⟨?_, fun n x hx => hi.known n x (hst ▸ hx), ?_⟩
    · intro n io hn hmem
      rcases List.mem_append.mp hmem with h | h
      · exact hi.fresh n io (hst ▸ hn) h
      · exact ha n io (List.mem_singleton.mp h).symm
    · intro n x hx
      rw [gaveUp_append_other (ha n)]
      exact hi.progress n x (hst ▸ hx)
  · have hno : ∀ m io, Act.acceptStream i (some n) ≠ .handler m io := fun m io => by simp
    refine ⟨?_, ?_, ?_⟩
    · intro m io hm hmem
      rw [hst, Function.update_apply] at hm
      split at hm
      · cases hm
      · rcases List.mem_append.mp hmem with h | h
        · exact hi.fresh m io hm h
        · exact hno m io (List.mem_singleton.mp h).symm
    · intro m y hy
      rw [hst, Function.update_apply] at hy
      split at hy
      · cases hy
        exact known_start
      · exact hi.known m y hy
    · intro m y hy
      rw [gaveUp_append_other (hno m)]
      rw [hst, Function.update_apply] at hy
      split at hy
      · rename_i hmn
        subst hmn
        cases hy
        refine ⟨?_, rfl⟩
        rintro ⟨io, hmem, -⟩
        exact hi.fresh m io hn hmem
      · exact hi.progress m y hy
  · obtain ⟨hserves, hknown⟩ := serves_of_step (hi.known n x hx) hh'
    refine ⟨?_, ?_, ?_⟩
    · intro m io' hm hmem
      rw [hst, Function.update_apply] at hm
      split at hm
      · cases hm
      · rename_i hmn
        rcases List.mem_append.mp hmem with h | h
        · exact hi.fresh m io' hm h
        · cases List.mem_singleton.mp h
          exact hmn rfl
    · intro m y hy
      rw [hst, Function.update_apply] at hy
      split at hy
      · cases hy
        exact hknown
      · exact hi.known m y hy
    · intro m y hy
      rw [hst, Function.update_apply] at hy
      split at hy
      · rename_i hmn
        subst hmn
        cases hy
        rw [gaveUp_append_self]
        exact progress_of_serves hserves (hi.progress m x hx)
      · rename_i hmn
        have hother : ∀ io', Act.handler n io ≠ .handler m io' := by
          intro io' he
          cases he
          exact hmn rfl
        rw [gaveUp_append_other hother]
        exact hi.progress m y hy

end ServerAux

open ServerAux

/-- For any number of sessions and streams and any outcomes: a stream whose handling has returned has both directions terminated
exactly if every Read of its header returned a nil error and its destination was dialled. -/
theorem terminated_iff (as : List Act) (s : Server) (hrun : run step init as = some s) (n : StreamId) (x : Stream)
    (hx : s.streams n = some x) (r : Option Relay) (hret : x.handler = .returned r) :
    x.Terminated ↔ ∀ io, Act.handler n io ∈ as → io.givesUp = false := by
  have hinit : StreamInv [] init := ⟨(fun _ _ _ h => by cases h), (fun _ _ h => by cases h), (fun _ _ h => by cases h)⟩
  have hi : StreamInv as s := inv_run_past StreamInv (fun _ _ _ _ hi hs => streamInv_step hi hs) hinit hrun
  have hp := hi.progress n x hx
  have hall : (∀ io, Act.handler n io ∈ as → io.givesUp = false) ↔ ¬GaveUp as n := by
    simp only [GaveUp, not_exists, not_and, Bool.not_eq_true]
  rw [hall]
  cases r with
  | none =>
    simp only [Stream.Progress, hret] at hp
    simp [Stream.Terminated, hp.1, hp.2]
  | some r =>
    simp only [Stream.Progress, hret] at hp
    simp [Stream.Terminated, hp.1, hp.2]

/-- A session is accepted, and a stream on it, whose header arrives whole. -/
def acceptWeb : List Act :=
  [.acceptSession (some 0), .goListenQuicConn, .acceptStream 0 (some 0), .handler 0 (.read (webHeader.toBytes.take 2) none),
    .handler 0 (.read (webHeader.toBytes.drop 2) none)]

/-- A connection that both ends close without sending anything. -/
def serveNothing : List Act :=
  [.handler 0 (.dialTimeout true), .handler 0 (.loop .streamQUICtoTCP (.io (.read [] (some .EOF)))),
    .handler 0 (.loop .streamQUICtoTCP .close), .handler 0 (.loop .streamTCPtoQUIC (.io (.read [] (some .other)))),
    .handler 0 (.loop .streamTCPtoQUIC .close), .handler 0 .cancelRead, .handler 0 .cancelWrite]

/-- The equivalence for a stream that was served. -/
theorem terminated_iff_served : ∃ s x, run step init (acceptWeb ++ serveNothing) = some s ∧ s.streams 0 = some x ∧
    (x.Terminated ↔ ∀ io, Act.handler 0 io ∈ acceptWeb ++ serveNothing → io.givesUp = false) :=
  ⟨_, _, rfl, rfl, terminated_iff (acceptWeb ++ serveNothing) _ rfl 0 _ rfl _ rfl⟩

/-- The destination cannot be dialled: the handling of the stream returns and leaves both directions of the stream open. -/
theorem dial_failure_leaks :
    ∃ s x, run step init (acceptWeb ++ [.handler 0 (.dialTimeout false)]) = some s ∧ s.streams 0 = some x ∧
      x.handler = .returned none ∧ x.readEnded = false ∧ x.readCancelled = false ∧ ¬x.Terminated :=
  ⟨_, _, rfl, rfl, rfl, rfl, rfl, fun h => by cases h.2⟩

end Server

end Qpep
