import Qpep.Lemmas.Client
import Qpep.Lemmas.Server
import Qpep.ProxyListener

/-!
# The accept loops

Every session that `ListenQuicSession` of the server accepts gets its own `ListenQuicConn`, and that one works with its
parameter, not with the package variable of the same name. So the loops do not disturb each other (`accept_isolation`).

`ListenTCPConn` of the client tells temporary errors from other ones, but ends the process on both (`survives_temporary_iff`).
-/

namespace Qpep

open Io Machine

namespace Server

/-! ## The accept loops of the server -/

/-- The session that a step accepts. -/
def Act.session : Act → Option SessionId
  | .acceptSession session => session
  | _ => none

/-- The stream that a step accepts. -/
def Act.stream : Act → Option StreamId
  | .acceptStream _ stream => stream
  | _ => none

/-- The step accepts this stream. -/
def Act.accepts (n : StreamId) : Act → Bool
  | .acceptStream _ (some m) => m == n
  | _ => false

/-- A session that was accepted and whose loop is not started yet. -/
def pending (s : Server) : List SessionId :=
  match s.listener with
  | .start => s.quicSession.toList
  | _ => []

/-- What holds of the accept loops and of the streams they have accepted, after the steps `as`. -/
structure Isolated (as : List Act) (s : Server) : Prop where
  /-- there is one loop for each session accepted, in this order, the last one possibly not started yet -/
  loops : as.filterMap Act.session = s.loops.map AcceptLoop.session ++ s.pending
  distinct : (as.filterMap Act.session).Nodup
  /-- a pending loop can be started -/
  starts : s.pending ≠ [] → (s.step .goListenQuicConn).isSome = true
  /-- one `HandleQuicStream` was started for each stream accepted, in this order -/
  started : s.started = as.filterMap Act.stream
  /-- an accepted stream was accepted once, and has one handler, for the session of the loop that accepted it -/
  once : ∀ i n, .acceptStream i (some n) ∈ as → as.filter (Act.accepts n) = [.acceptStream i (some n)] ∧ s.started.count n = 1 ∧
    ∃ l x, s.loops[i]? = some l ∧ s.streams n = some x ∧ x.session = l.session
  /-- there is no other handler -/
  handled : ∀ n x, s.streams n = some x → ∃ i, .acceptStream i (some n) ∈ as
  /-- a loop accepts until its own `AcceptStream` returns an error -/
  lasting : ∀ i l, s.loops[i]? = some l → (l.accepting = true ↔ .acceptStream i none ∉ as)
  /-- a loop that accepts can accept any stream that comes, wherever everything else stands -/
  free : ∀ i l n, s.loops[i]? = some l → l.accepting = true → s.streams n = none →
    s.step (.acceptStream i (some n)) =
      some { s with streams := Function.update s.streams n (some (.start l.session)), started := s.started ++ [n] }
  /-- no step but its own leaves a loop in another state, and none a stream on another session -/
  kept : ∀ a s', s.step a = some s' →
    (∀ i l, s.loops[i]? = some l → (∀ stream, a ≠ .acceptStream i stream) → s'.loops[i]? = some l) ∧
    ∀ n x, s.streams n = some x → ∃ x', s'.streams n = some x' ∧ x'.session = x.session ∧ ((∀ io, a ≠ .handler n io) → x' = x)

/-- The invariant of the accept loops after the steps `past`. -/
structure LoopInv (past : List Act) (s : Server) : Prop where
  loops : past.filterMap Act.session = s.loops.map AcceptLoop.session ++ s.pending
  distinct : (past.filterMap Act.session).Nodup
  known : ∀ n, s.accepted n = true ↔ n ∈ past.filterMap Act.session
  stored : s.listener = .start → s.quicSession ≠ none
  started : ∀ i stream, .acceptStream i stream ∈ past → i < s.loops.length
  lasting : ∀ i l, s.loops[i]? = some l → (l.accepting = true ↔ .acceptStream i none ∉ past)

/-- The invariant of the accepted streams after the steps `past`. -/
structure AcceptInv (past : List Act) (s : Server) : Prop where
  started : s.started = past.filterMap Act.stream
  once : ∀ i n, .acceptStream i (some n) ∈ past → past.filter (Act.accepts n) = [.acceptStream i (some n)] ∧
    ∃ l x, s.loops[i]? = some l ∧ s.streams n = some x ∧ x.session = l.session
  handled : ∀ n x, s.streams n = some x → ∃ i, .acceptStream i (some n) ∈ past

namespace ServerAux

/-- The sessions accepted after one more step. -/
theorem sessions_snoc (past : List Act) (a : Act) :
    (past ++ [a]).filterMap Act.session = past.filterMap Act.session ++ a.session.toList := by
  cases h : a.session <;> simp [h]

theorem mem_snoc {past : List Act} {a b : Act} : b ∈ past ++ [a] ↔ b ∈ past ∨ b = a := by
  simp

/-- A step keeps the loops: their sessions, and all but the one that it is a step of. -/
theorem loops_of_move {s s' : Server} {a : Act} (hm : Move s a s') (i : Nat) (l : AcceptLoop) (hl : s.loops[i]? = some l) :
    ∃ l', s'.loops[i]? = some l' ∧ l'.session = l.session ∧ (a ≠ .acceptStream i none → l' = l) := by
  cases hm with
  | goListenQuicConn n hlis hq =>
    refine ⟨l, ?_, rfl, fun _ => rfl⟩
    rw [List.getElem?_append_left (List.getElem?_eq_some_iff.mp hl).1, hl]
  | noStream j k hk ha =>
    by_cases hij : j = i
    · subst hij
      cases hl.symm.trans hk
      refine ⟨{ l with accepting := false }, ?_, rfl, fun hne => absurd rfl hne⟩
      rw [List.getElem?_set_self (List.getElem?_eq_some_iff.mp hl).1]
    · exact ⟨l, by rw [List.getElem?_set_ne hij, hl], rfl, fun _ => rfl⟩
  | _ => exact ⟨l, hl, rfl, fun _ => rfl⟩

/-- A step keeps the handlers of streams on their sessions, and leaves all but the one that it is a step of. -/
theorem stream_of_move {s s' : Server} {a : Act} (hm : Move s a s') (n : StreamId) (x : Stream) (hx : s.streams n = some x) :
    ∃ x', s'.streams n = some x' ∧ x'.session = x.session ∧ ((∀ io, a ≠ .handler n io) → x' = x) := by
  cases hm with
  | stream i l m hl ha hm' =>
    have hne : n ≠ m := by
      rintro rfl
      cases hx.symm.trans hm'
    exact ⟨x, by simp [Function.update_of_ne hne, hx], rfl, fun _ => rfl⟩
  | handler m io y h hy hh =>
    by_cases hnm : n = m
    · subst hnm
      cases hx.symm.trans hy
      exact ⟨x.served io h, by simp, rfl, fun hne => absurd rfl (hne io)⟩
    · exact ⟨x, by simp [Function.update_of_ne hnm, hx], rfl, fun _ => rfl⟩
  | _ => exact ⟨x, hx, rfl, fun _ => rfl⟩

/-- A loop that ends keeps its session. -/
theorem map_session_set {ls : List AcceptLoop} {i : Nat} {l : AcceptLoop} (hl : ls[i]? = some l) :
    (ls.set i { l with accepting := false }).map AcceptLoop.session = ls.map AcceptLoop.session := by
  obtain ⟨hlt, rfl⟩ := List.getElem?_eq_some_iff.mp hl
  have hlt' : i < (ls.map AcceptLoop.session).length := by rwa [List.length_map]
  have hget : ls[i].session = (ls.map AcceptLoop.session)[i] := by rw [List.getElem_map]
  rw [List.map_set, hget, List.set_getElem_self hlt']

/-- Only a loop that was started has called `AcceptStream`. -/
theorem started_step {past : List Act} {s s' : Server} {a : Act} (hi : LoopInv past s) (hm : Move s a s') :
    ∀ i stream, .acceptStream i stream ∈ past ++ [a] → i < s'.loops.length := by
  intro i stream h
  have hlt : i < s.loops.length := by
    rcases mem_snoc.mp h with h | rfl
    · exact hi.started i stream h
    · cases hm with
      | noStream _ l hl ha => exact (List.getElem?_eq_some_iff.mp hl).1
      | stream _ l n hl ha hn => exact (List.getElem?_eq_some_iff.mp hl).1
  obtain ⟨l, hl, -⟩ := loops_of_move hm i _ (List.getElem?_eq_getElem hlt)
  exact (List.getElem?_eq_some_iff.mp hl).1

/-- A loop accepts until its own `AcceptStream` returns an error. -/
theorem lasting_step {past : List Act} {s s' : Server} {a : Act} (hi : LoopInv past s) (hm : Move s a s') :
    ∀ i l, s'.loops[i]? = some l → (l.accepting = true ↔ .acceptStream i none ∉ past ++ [a]) := by
  intro i l hl
  by_cases ha : a = .acceptStream i none
  · subst ha
    cases hm with
    | noStream _ k hk _ =>
      rw [List.getElem?_set_self (List.getElem?_eq_some_iff.mp hk).1] at hl
      cases hl
      simp
  · have hmem : Act.acceptStream i none ∈ past ++ [a] ↔ .acceptStream i none ∈ past := by
      rw [mem_snoc, or_iff_left (Ne.symm ha)]
    rw [hmem]
    by_cases hlt : i < s.loops.length
    · obtain ⟨k, hk, -, hkeep⟩ := loops_of_move hm i _ (List.getElem?_eq_getElem hlt)
      cases hl.symm.trans hk
      rw [hkeep ha]
      exact hi.lasting i _ (List.getElem?_eq_getElem hlt)
    · -- the loop has just been started, and has not called `AcceptStream` yet
      have hnone : .acceptStream i none ∉ past := fun h => hlt (hi.started i none h)
      have hnew : l.accepting = true := by
        cases hm with
        | goListenQuicConn n hlis hq =>
          rw [List.getElem?_append_right (Nat.not_lt.mp hlt), List.getElem?_singleton] at hl
          split at hl
          · cases hl
            rfl
          · cases hl
        | noStream j k hk _ =>
          have hlt' := (List.getElem?_eq_some_iff.mp hl).1
          rw [List.length_set] at hlt'
          exact absurd hlt' hlt
        | _ => exact absurd (List.getElem?_eq_some_iff.mp hl).1 hlt
      simp [hnew, hnone]

/-- A step keeps the invariant of the loops. -/
theorem loopInv_step {past : List Act} {s s' : Server} {a : Act} (hi : LoopInv past s) (hm : Move s a s') :
    LoopInv (past ++ [a]) s' := by
  have hstarted := started_step hi hm
  have hlasting := lasting_step hi hm
  have hsame : a.session = none → (past ++ [a]).filterMap Act.session = past.filterMap Act.session := by
    intro h
    rw [sessions_snoc, h, Option.toList_none, List.append_nil]
  have hloops := hi.loops
  cases hm with
  | noSession hl =>
    have he := hsame rfl
    refine ⟨?_, he ▸ hi.distinct, he ▸ hi.known, (fun h => by cases h), hstarted, hlasting⟩
    rw [he, hloops]
    simp [pending, hl]
  | session n hl hn =>
    have he : (past ++ [Act.acceptSession (some n)]).filterMap Act.session = past.filterMap Act.session ++ [n] :=
      sessions_snoc _ _
    refine ⟨?_, ?_, ?_, (fun _ => by simp), hstarted, hlasting⟩
    · rw [he, hloops]
      simp [pending, hl]
    · rw [he, List.nodup_append]
      refine ⟨hi.distinct, by simp, ?_⟩
      intro m hm k hk
      rintro rfl
      rw [List.mem_singleton.mp hk] at hm
      cases hn.symm.trans ((hi.known n).mpr hm)
    · intro m
      rw [he, List.mem_append]
      by_cases hmn : m = n
      · simp [hmn]
      · simp [hmn, hi.known m]
  | goListenQuicConn n hl hq =>
    have he := hsame rfl
    refine ⟨?_, he ▸ hi.distinct, he ▸ hi.known, (fun h => by cases h), hstarted, hlasting⟩
    rw [he, hloops]
    simp [pending, hl, hq]
  | noStream i l hl ha =>
    have he := hsame rfl
    refine ⟨?_, he ▸ hi.distinct, he ▸ hi.known, hi.stored, hstarted, hlasting⟩
    rw [he, hloops, map_session_set hl]
    rfl
  | stream i l n hl ha hn =>
    have he := hsame rfl
    exact ⟨he.trans hloops, he ▸ hi.distinct, he ▸ hi.known, hi.stored, hstarted, hlasting⟩
  | handler n io x h' hx hh =>
    have he := hsame rfl
    exact ⟨he.trans hloops, he ▸ hi.distinct, he ▸ hi.known, hi.stored, hstarted, hlasting⟩

/-- What has been accepted of a stream before a step that does not accept it. -/
theorem accepts_snoc (past : List Act) {a : Act} {n : StreamId} (ha : a.accepts n = false) :
    (past ++ [a]).filter (Act.accepts n) = past.filter (Act.accepts n) ∧
      ∀ i, Act.acceptStream i (some n) ∈ past ++ [a] ↔ .acceptStream i (some n) ∈ past := by
  refine ⟨by simp [List.filter_append, ha], ?_⟩
  intro i
  rw [mem_snoc, or_iff_left]
  rintro rfl
  simp [Act.accepts] at ha

/-- A step that does not accept a stream starts no handler of one. -/
theorem streams_old {s s' : Server} {a : Act} (hm : Move s a s') {n : StreamId} (ha : a.accepts n = false) {x' : Stream}
    (hx' : s'.streams n = some x') : ∃ x, s.streams n = some x := by
  cases hm with
  | stream i l m hl hacc hn =>
    have hne : n ≠ m := by
      rintro rfl
      simp [Act.accepts] at ha
    exact ⟨x', by simpa [Function.update_of_ne hne] using hx'⟩
  | handler m io x h hx hh =>
    by_cases hnm : n = m
    · exact ⟨x, hnm ▸ hx⟩
    · exact ⟨x', by simpa [Function.update_of_ne hnm] using hx'⟩
  | _ => exact ⟨x', hx'⟩

/-- The handlers started for a stream are as many as the steps that accepted it. -/
theorem count_started (past : List Act) (n : StreamId) :
    (past.filterMap Act.stream).count n = (past.filter (Act.accepts n)).length := by
  rw [List.count_filterMap, List.countP_eq_length_filter]
  congr 2
  funext a
  cases a with
  | acceptStream i stream => cases stream <;> rfl
  | _ => rfl

/-- Only an accepted stream gets a handler. -/
theorem handlers_started {s s' : Server} {a : Act} (hm : Move s a s') : s'.started = s.started ++ a.stream.toList := by
  cases hm with
  | stream => rfl
  | _ => exact (List.append_nil _).symm

/-- A step keeps the invariant of the streams. -/
theorem acceptInv_step {past : List Act} {s s' : Server} {a : Act} (hi : AcceptInv past s) (hm : Move s a s') :
    AcceptInv (past ++ [a]) s' := by
  have hstarted : s'.started = (past ++ [a]).filterMap Act.stream := by
    rw [handlers_started hm, hi.started]
    cases h : a.stream <;> simp [h]
  -- a stream that the step does not accept
  have hold : ∀ n, a.accepts n = false →
      (∀ i, .acceptStream i (some n) ∈ past ++ [a] → (past ++ [a]).filter (Act.accepts n) = [.acceptStream i (some n)] ∧
        ∃ l x, s'.loops[i]? = some l ∧ s'.streams n = some x ∧ x.session = l.session) ∧
      ∀ x, s'.streams n = some x → ∃ i, .acceptStream i (some n) ∈ past ++ [a] := by
    intro n ha
    obtain ⟨hfilter, hmem⟩ := accepts_snoc past ha
    refine ⟨?_, ?_⟩
    · intro i h
      obtain ⟨honce, l, x, hl, hx, hsession⟩ := hi.once i n ((hmem i).mp h)
      obtain ⟨l', hl', hls, -⟩ := loops_of_move hm i l hl
      obtain ⟨x', hx', hxs, -⟩ := stream_of_move hm n x hx
      exact ⟨hfilter.trans honce, l', x', hl', hx', hxs.trans (hsession.trans hls.symm)⟩
    · intro x hx
      obtain ⟨y, hy⟩ := streams_old hm ha hx
      obtain ⟨i, h⟩ := hi.handled n y hy
      exact ⟨i, (hmem i).mpr h⟩
  by_cases hacc : ∃ i n, a = .acceptStream i (some n)
  · obtain ⟨j, m, rfl⟩ := hacc
    cases hm with
    | stream _ l _ hl ha hn =>
      have hfresh : ∀ i, .acceptStream i (some m) ∉ past := by
        intro i h
        obtain ⟨-, _, x, -, hx, -⟩ := hi.once i m h
        cases hn.symm.trans hx
      have hnil : past.filter (Act.accepts m) = [] := by
        refine List.filter_eq_nil_iff.mpr ?_
        intro b hb hacc
        cases b with
        | acceptStream i stream =>
          cases stream with
          | none => cases hacc
          | some k =>
            obtain rfl : k = m := by simpa [Act.accepts] using hacc
            exact hfresh i hb
        | _ => cases hacc
      refine ⟨hstarted, ?_, ?_⟩
      · intro i n h
        by_cases hnm : n = m
        · subst hnm
          rcases mem_snoc.mp h with h | h
          · exact absurd h (hfresh i)
          · cases h
            refine ⟨by simp [List.filter_append, hnil, Act.accepts], l, .start l.session, hl, by simp, rfl⟩
        · exact (hold n (by simpa [Act.accepts] using Ne.symm hnm)).1 i h
      · intro n x hx
        by_cases hnm : n = m
        · subst hnm
          exact ⟨j, mem_snoc.mpr (Or.inr rfl)⟩
        · exact (hold n (by simpa [Act.accepts] using Ne.symm hnm)).2 x hx
  · have hno : ∀ n, a.accepts n = false := by
      intro n
      cases a with
      | acceptStream i stream =>
        cases stream with
        | none => rfl
        | some m => exact absurd ⟨i, m, rfl⟩ hacc
      | _ => rfl
    exact ⟨hstarted, fun i n h => (hold n (hno n)).1 i h, fun n x hx => (hold n (hno n)).2 x hx⟩

end ServerAux

open ServerAux

/-- For any number of sessions and any interleaving of the accepts, of their errors and of everything that happens to the
streams: the accept loops and the streams that they have accepted are isolated from each other. -/
theorem accept_isolation (as : List Act) (s : Server) (hrun : run step init as = some s) : Isolated as s := by
  have hinit : LoopInv [] init ∧ AcceptInv [] init := by
    refine ⟨⟨rfl, List.nodup_nil, fun n => by simp [init], fun h => (by cases h), fun i stream h => (by cases h), ?_⟩,
      rfl, fun i n h => (by cases h), fun n x h => (by cases h)⟩
    intro i l h
    simp [init] at h
  have hi := inv_run_past (fun past s => LoopInv past s ∧ AcceptInv past s)
    (fun past s a s' hi hs => ⟨loopInv_step hi.1 (move_of_step hs), acceptInv_step hi.2 (move_of_step hs)⟩) hinit hrun
  rw [List.nil_append] at hi
  obtain ⟨hl, ha⟩ := hi
  refine ⟨hl.loops, hl.distinct, ?_, ha.started, ?_, ha.handled, hl.lasting, ?_, ?_⟩
  · intro hp
    cases hlis : s.listener with
    | start =>
      obtain ⟨n, hq⟩ := Option.ne_none_iff_exists'.mp (hl.stored hlis)
      simp [step, hlis, hq]
    | _ => simp [pending, hlis] at hp
  · intro i n h
    obtain ⟨honce, hhandled⟩ := ha.once i n h
    exact ⟨honce, by rw [ha.started, count_started, honce]; rfl, hhandled⟩
  · intro i l n hi hacc hn
    simp [step, hi, hacc, listenQuicConn, hn]
  · intro a s' hs
    refine ⟨?_, fun n x hx => stream_of_move (move_of_step hs) n x hx⟩
    intro i l hi hne
    obtain ⟨l', hl', -, hkeep⟩ := loops_of_move (move_of_step hs) i l hi
    rw [hl', hkeep (hne none)]

/-- Two sessions are accepted, and streams on both; a dial on the first one fails, the accept loop of the second one ends,
and the listener fails; the first loop goes on. -/
def acceptTwo : List Act :=
  [.acceptSession (some 0), .goListenQuicConn, .acceptSession (some 1), .goListenQuicConn, .acceptStream 0 (some 0),
    .acceptStream 1 (some 1), .handler 0 (.read [] (some .other)), .acceptStream 1 none, .acceptSession none,
    .acceptStream 0 (some 2)]

/-- The loops of two sessions. -/
theorem accept_isolation_two : ∃ s, run step init acceptTwo = some s ∧ Isolated acceptTwo s :=
  ⟨_, rfl, accept_isolation acceptTwo _ rfl⟩

end Server

namespace Client

open ClientAux

/-! ## The accept loop of the client -/

/-- The loop does not have to end with this outcome: it is a connection or a temporary error. -/
def survivable : Accepted → Bool
  | .ok _ => true
  | .error err => err.isTemporary

/-- The connections that come before the first error that is not temporary. -/
def connsBefore (tcps : List Accepted) : List QpepHeader := (tcps.takeWhile survivable).filterMap Except.toOption

/-- The loop has survived the temporary errors: it has started one handler for each connection that comes before the first
error that is not temporary, in this order, and has not ended the process with a temporary error. -/
def SurvivesTemporary (tcps : List Accepted) : Prop :=
  (listenTCPConn tcps).filterMap ListenEvent.handled = connsBefore tcps ∧
    ∀ format err, .fatalf format err ∈ listenTCPConn tcps → err.isTemporary = false

namespace ClientAux

@[simp] theorem survivable_ok (conn : QpepHeader) : survivable (.ok conn) = true := rfl

@[simp] theorem survivable_error (err : AcceptErr) : survivable (.error err) = err.isTemporary := rfl

@[simp] theorem listenTCPConn_ok (conn : QpepHeader) (tcps : List Accepted) :
    listenTCPConn (.ok conn :: tcps) = .goHandleTCPConn conn :: listenTCPConn tcps := rfl

@[simp] theorem listenTCPConn_error (err : AcceptErr) (tcps : List Accepted) :
    listenTCPConn (.error err :: tcps) =
      (if err.isTemporary then [.printf "Temporary error when accepting connection: %s" err] else []) ++
        [.fatalf "Unrecoverable error while accepting connection: %s" err] := rfl

/-- The loop goes on behind a connection. -/
theorem survives_ok (conn : QpepHeader) (tcps : List Accepted) :
    SurvivesTemporary (.ok conn :: tcps) ↔ SurvivesTemporary tcps := by
  have hconns : connsBefore (.ok conn :: tcps) = conn :: connsBefore tcps := by
    rw [connsBefore, List.takeWhile_cons_of_pos (survivable_ok conn)]
    rfl
  simp [SurvivesTemporary, hconns, ListenEvent.handled]

/-- The loop ends with any error. -/
theorem survives_error (err : AcceptErr) (tcps : List Accepted) :
    SurvivesTemporary (.error err :: tcps) ↔ err.isTemporary = false := by
  constructor
  · rintro ⟨-, hfatal⟩
    exact hfatal "Unrecoverable error while accepting connection: %s" err (by simp)
  · intro ht
    have hconns : connsBefore (.error err :: tcps) = [] := by
      rw [connsBefore, List.takeWhile_cons_of_neg (by simp [ht])]
      rfl
    simp [SurvivesTemporary, hconns, ListenEvent.handled, ht]

end ClientAux

/-- For every sequence of connections and errors: the accept loop survives the temporary errors exactly if there is none
before the first other error. -/
theorem survives_temporary_iff (tcps : List Accepted) :
    SurvivesTemporary tcps ↔ ∀ err, .error err ∈ tcps.takeWhile survivable → err.isTemporary = false := by
  induction tcps with
  | nil => simp [SurvivesTemporary, listenTCPConn, connsBefore]
  | cons tcp tcps ih =>
    cases tcp with
    | ok conn =>
      rw [survives_ok, ih, List.takeWhile_cons_of_pos (survivable_ok conn)]
      simp
    | error err =>
      rw [survives_error]
      cases ht : err.isTemporary with
      | false => simp [List.takeWhile_cons_of_neg, ht]
      | true => simp [List.takeWhile_cons_of_pos, ht]

/-- One temporary error ends the process, and the connection behind it is not handled. -/
theorem temporary_error_ends :
    listenTCPConn [.error (.netError true), .ok webHeader] =
      [.printf "Temporary error when accepting connection: %s" (.netError true),
        .fatalf "Unrecoverable error while accepting connection: %s" (.netError true)] ∧
    ¬SurvivesTemporary [.error (.netError true), .ok webHeader] := by
  refine ⟨rfl, ?_⟩
  rintro ⟨-, hfatal⟩
  have ht := hfatal "Unrecoverable error while accepting connection: %s" (.netError true) (by simp [AcceptErr.isTemporary])
  cases ht

namespace ClientAux

/-- A client that has not accepted the connections from `k` on accepts these. -/
theorem run_acceptAll (conns : List QpepHeader) (k : ConnId) (m : Client) (hc : m.crashed = false)
    (hfree : ∀ c, k ≤ c → m.handlers c = none) :
    ∃ m', run step m (acceptAll k conns) = some m' ∧
      ∀ c, m'.handlers c = if c < k then m.handlers c else (conns[c - k]?).map Handler.start := by
  induction conns generalizing k m with
  | nil =>
    refine ⟨m, rfl, ?_⟩
    intro c
    split
    · rfl
    · rename_i hk
      simpa using hfree c (Nat.not_lt.mp hk)
  | cons conn conns ih =>
    have hs : m.step (.accept k conn) = some (m.set k (.start conn)) := by simp [step, hc, hfree k (Nat.le_refl k)]
    have hfree' : ∀ c, k + 1 ≤ c → (m.set k (.start conn)).handlers c = none := by
      intro c hkc
      rw [set_handlers, if_neg (Nat.ne_of_gt hkc)]
      exact hfree c (Nat.le_of_succ_le hkc)
    obtain ⟨m', hr, hm'⟩ := ih (k + 1) (m.set k (.start conn)) hc hfree'
    refine ⟨m', run_cons_eq_some.mpr ⟨_, hs, hr⟩, ?_⟩
    intro c
    rw [hm', set_handlers]
    rcases Nat.lt_trichotomy c k with hlt | rfl | hgt
    · rw [if_pos (Nat.lt_succ_of_lt hlt), if_neg (Nat.ne_of_lt hlt), if_pos hlt]
    · simp
    · have hsub : c - k = c - (k + 1) + 1 := by
        rw [Nat.sub_add_eq]
        exact (Nat.sub_add_cancel (Nat.sub_pos_of_lt hgt)).symm
      rw [if_neg (Nat.not_lt.mpr hgt), if_neg (Nat.lt_asymm hgt), hsub, List.getElem?_cons_succ]

end ClientAux

/-- The client that runs the loop has exactly the handlers that the loop has started. -/
theorem handlers_of_listen (cfg : ClientConfig) (tcps : List Accepted) :
    ∃ m, run step (init cfg) (acceptAll 0 ((listenTCPConn tcps).filterMap ListenEvent.handled)) = some m ∧
      ∀ c, m.handlers c = (((listenTCPConn tcps).filterMap ListenEvent.handled)[c]?).map Handler.start := by
  obtain ⟨m, hr, hm⟩ := run_acceptAll ((listenTCPConn tcps).filterMap ListenEvent.handled) 0 (init cfg) rfl fun _ _ => rfl
  exact ⟨m, hr, fun c => by simpa using hm c⟩

end Client

end Qpep
