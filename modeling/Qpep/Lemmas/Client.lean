import Qpep.Client
import Qpep.Lib.Machine

/-!
# What one step of the client can do

`Move` lists the steps of a handler with the branch each of them takes; `step_cases` says that every step of the client is the
accept of a connection, the failure of a session, one of these moves, or a method call on a nil session. The invariants of the
client are proved from it and never unfold `handleTCPConn`.
-/

namespace Qpep

open Machine

namespace Client

/-- A handler moves: its next position, and the values of `quicSession`, `sessions` and `streams` after the step. -/
inductive Move (m : Client) (h : Handler) : HandlerAct → Handler → Option SessionId → Nat → Nat → Prop where
  | tryOpen (hpc : h.pc = .entry) (hmulti : m.cfg.multiStream = true) (hq : m.quicSession ≠ none) :
      Move m h .test { h with pc := .openStream } m.quicSession m.sessions m.streams
  | noOpen (hpc : h.pc = .entry) :
      Move m h .test { h with pc := .openQuicSession 0 false } m.quicSession m.sessions m.streams
  | load (s : SessionId) (hpc : h.pc = .openStream) (hq : m.quicSession = some s) :
      Move m h .loadOpenStream { h with pc := .openingStream s } m.quicSession m.sessions m.streams
  | opened (s : SessionId) (hpc : h.pc = .openingStream s) (hlive : m.failed s = false) :
      Move m h (.openStream true) { h with pc := .relay m.streams .header, session := some s } m.quicSession m.sessions
        (m.streams + 1)
  | refused (s : SessionId) (hpc : h.pc = .openingStream s) :
      Move m h (.openStream false) { h with pc := .openQuicSession 0 false } m.quicSession m.sessions m.streams
  | dialled (i : Nat) (failed : Bool) (hpc : h.pc = .openQuicSession i failed) (hi : (i : Int) < m.cfg.connectionRetries) :
      Move m h (.dialAddr true) { h with pc := .assign (some m.sessions) false, dialled := some m.sessions } m.quicSession
        (m.sessions + 1) m.streams
  | retry (i : Nat) (failed : Bool) (hpc : h.pc = .openQuicSession i failed) (hi : (i : Int) < m.cfg.connectionRetries) :
      Move m h (.dialAddr false) { h with pc := .openQuicSession (i + 1) true } m.quicSession m.sessions m.streams
  | exhausted (i : Nat) (failed : Bool) (hpc : h.pc = .openQuicSession i failed) (hi : ¬(i : Int) < m.cfg.connectionRetries) :
      Move m h .giveUp { h with pc := .assign none failed } m.quicSession m.sessions m.streams
  | stored (session : Option SessionId) (failed : Bool) (hpc : h.pc = .assign session failed) :
      Move m h .store { h with pc := if failed then .returned else .openStreamSync } session m.sessions m.streams
  | loadSync (s : SessionId) (hpc : h.pc = .openStreamSync) (hq : m.quicSession = some s) :
      Move m h .loadOpenStreamSync { h with pc := .openingStreamSync s } m.quicSession m.sessions m.streams
  | openedSync (s : SessionId) (hpc : h.pc = .openingStreamSync s) (hlive : m.failed s = false) :
      Move m h (.openStreamSync true) { h with pc := .relay m.streams .header, session := some s } m.quicSession m.sessions
        (m.streams + 1)
  | refusedSync (s : SessionId) (hpc : h.pc = .openingStreamSync s) :
      Move m h (.openStreamSync false) { h with pc := .returned } m.quicSession m.sessions m.streams
  | relayed (n : StreamId) (r r' : Relaying) (io : RelayIo) (hpc : h.pc = .relay n r) (hstep : r.step io = some r') :
      Move m h (.relay io) { h with pc := .relay n r' } m.quicSession m.sessions m.streams

/-- The state after a move. -/
def moved (m : Client) (c : ConnId) (h' : Handler) (q : Option SessionId) (n k : Nat) : Client :=
  { m.set c h' with quicSession := q, sessions := n, streams := k }

/-- A handler is about to call a method on `quicSession`. -/
def Pc.Calls (pc : Pc) : Prop := pc = .openStream ∨ pc = .openStreamSync

instance (pc : Pc) : Decidable pc.Calls := inferInstanceAs (Decidable (_ ∨ _))

namespace ClientAux

/-- The handlers after one of them moved. -/
@[simp] theorem moved_handlers (m : Client) (c c' : ConnId) (h' : Handler) (q : Option SessionId) (n k : Nat) :
    (m.moved c h' q n k).handlers c' = if c' = c then some h' else m.handlers c' := by
  simp [moved, set, Function.update_apply]

theorem moved_handlers_self (m : Client) (c : ConnId) (h' : Handler) (q : Option SessionId) (n k : Nat) :
    (m.moved c h' q n k).handlers c = some h' := by
  rw [moved_handlers, if_pos rfl]

@[simp] theorem moved_quicSession (m : Client) (c : ConnId) (h' : Handler) (q : Option SessionId) (n k : Nat) :
    (m.moved c h' q n k).quicSession = q := rfl

@[simp] theorem moved_sessions (m : Client) (c : ConnId) (h' : Handler) (q : Option SessionId) (n k : Nat) :
    (m.moved c h' q n k).sessions = n := rfl

@[simp] theorem moved_streams (m : Client) (c : ConnId) (h' : Handler) (q : Option SessionId) (n k : Nat) :
    (m.moved c h' q n k).streams = k := rfl

@[simp] theorem set_handlers (m : Client) (c c' : ConnId) (h' : Handler) :
    (m.set c h').handlers c' = if c' = c then some h' else m.handlers c' := by
  simp [set, Function.update_apply]

/-- A step of a handler is a move, or a method call on a nil session. -/
theorem handleTCPConn_cases {m m' : Client} {c : ConnId} {h : Handler} {a : HandlerAct}
    (hs : m.handleTCPConn c h a = some m') :
    (∃ h' q n k, Move m h a h' q n k ∧ m' = m.moved c h' q n k) ∨
      (m.quicSession = none ∧ h.pc.Calls ∧ m' = { m with crashed := true }) := by
  cases a with
  | test =>
    simp only [handleTCPConn] at hs
    split at hs
    · rename_i hpc
      split at hs
      · rename_i hg
        cases hs
        exact Or.inl ⟨_, _, _, _, .tryOpen hpc hg.1 hg.2, rfl⟩
      · cases hs
        exact Or.inl ⟨_, _, _, _, .noOpen hpc, rfl⟩
    · cases hs
  | loadOpenStream =>
    simp only [handleTCPConn] at hs
    split at hs
    · rename_i hpc
      split at hs
      · rename_i hq
        cases hs
        exact Or.inr ⟨hq, Or.inl hpc, rfl⟩
      · rename_i s hq
        cases hs
        exact Or.inl ⟨_, _, _, _, .load s hpc hq, rfl⟩
    · cases hs
  | openStream ok =>
    simp only [handleTCPConn] at hs
    split at hs
    · rename_i s hpc
      cases ok with
      | true =>
        simp only [if_true] at hs
        split at hs
        · cases hs
        · rename_i hf
          cases hs
          exact Or.inl ⟨_, _, _, _, .opened s hpc (by simpa using hf), rfl⟩
      | false =>
        cases hs
        exact Or.inl ⟨_, _, _, _, .refused s hpc, rfl⟩
    · cases hs
  | dialAddr ok =>
    simp only [handleTCPConn] at hs
    split at hs
    · rename_i i failed hpc
      split at hs
      · rename_i hi
        cases ok with
        | true =>
          cases hs
          exact Or.inl ⟨_, _, _, _, .dialled i failed hpc hi, rfl⟩
        | false =>
          cases hs
          exact Or.inl ⟨_, _, _, _, .retry i failed hpc hi, rfl⟩
      · cases hs
    · cases hs
  | giveUp =>
    simp only [handleTCPConn] at hs
    split at hs
    · rename_i i failed hpc
      split at hs
      · cases hs
      · rename_i hi
        cases hs
        exact Or.inl ⟨_, _, _, _, .exhausted i failed hpc hi, rfl⟩
    · cases hs
  | store =>
    simp only [handleTCPConn] at hs
    split at hs
    · rename_i session failed hpc
      cases hs
      exact Or.inl ⟨_, _, _, _, .stored session failed hpc, rfl⟩
    · cases hs
  | loadOpenStreamSync =>
    simp only [handleTCPConn] at hs
    split at hs
    · rename_i hpc
      split at hs
      · rename_i hq
        cases hs
        exact Or.inr ⟨hq, Or.inr hpc, rfl⟩
      · rename_i s hq
        cases hs
        exact Or.inl ⟨_, _, _, _, .loadSync s hpc hq, rfl⟩
    · cases hs
  | openStreamSync ok =>
    simp only [handleTCPConn] at hs
    split at hs
    · rename_i s hpc
      cases ok with
      | true =>
        simp only [if_true] at hs
        split at hs
        · cases hs
        · rename_i hf
          cases hs
          exact Or.inl ⟨_, _, _, _, .openedSync s hpc (by simpa using hf), rfl⟩
      | false =>
        cases hs
        exact Or.inl ⟨_, _, _, _, .refusedSync s hpc, rfl⟩
    · cases hs
  | relay io =>
    simp only [handleTCPConn] at hs
    split at hs
    · rename_i n r hpc
      obtain ⟨r', hr, rfl⟩ := Option.map_eq_some_iff.mp hs
      exact Or.inl ⟨_, _, _, _, .relayed n r r' io hpc hr, rfl⟩
    · cases hs

/-- A connection that is accepted gets a handler. -/
theorem accept_some {m m' : Client} {c : ConnId} {header : QpepHeader} (hs : m.step (.accept c header) = some m') :
    m.crashed = false ∧ m.handlers c = none ∧ m' = m.set c (.start header) := by
  simp only [step] at hs
  split at hs
  · cases hs
  · rename_i hc
    cases hh : m.handlers c with
    | none =>
      simp only [hh] at hs
      cases hs
      exact ⟨by simpa using hc, rfl, rfl⟩
    | some h => simp [hh] at hs

/-- A session that fails had been dialled. -/
theorem sessionFail_some {m m' : Client} {s : SessionId} (hs : m.step (.sessionFail s) = some m') :
    s < m.sessions ∧ m' = { m with failed := Function.update m.failed s true } := by
  simp only [step, Option.ite_none_right_eq_some, Option.some.injEq] at hs
  exact ⟨hs.1, hs.2.symm⟩

/-- A step of a handler: a move, or a method call on a nil session. -/
theorem handler_some {m m' : Client} {c : ConnId} {a : HandlerAct} (hs : m.step (.handler c a) = some m') :
    m.crashed = false ∧ ∃ h, m.handlers c = some h ∧ ((∃ h' q n k, Move m h a h' q n k ∧ m' = m.moved c h' q n k) ∨
      m.quicSession = none ∧ h.pc.Calls ∧ m' = { m with crashed := true }) := by
  simp only [step] at hs
  split at hs
  · cases hs
  · rename_i hc
    refine ⟨by simpa using hc, ?_⟩
    cases hh : m.handlers c with
    | none => simp [hh] at hs
    | some h =>
      simp only [hh] at hs
      exact ⟨h, rfl, handleTCPConn_cases hs⟩

/-- A step of the client: an accept, the failure of a session, a move of a handler, or a method call on a nil session. Only
a session can fail after a crash. -/
theorem step_cases {m m' : Client} {a : Act} (hs : m.step a = some m') :
    (m.crashed = false ∨ ∃ s, a = .sessionFail s) ∧
      ((∃ c header, a = .accept c header ∧ m.handlers c = none ∧ m' = m.set c (.start header)) ∨
      (∃ s, a = .sessionFail s ∧ s < m.sessions ∧ m' = { m with failed := Function.update m.failed s true }) ∨
      (∃ c ha h h' q n k, a = .handler c ha ∧ m.handlers c = some h ∧ Move m h ha h' q n k ∧ m' = m.moved c h' q n k) ∨
      (∃ c ha h, a = .handler c ha ∧ m.handlers c = some h ∧ m.quicSession = none ∧ h.pc.Calls ∧
        m' = { m with crashed := true })) := by
  cases a with
  | accept c header =>
    obtain ⟨hc, hnone, rfl⟩ := accept_some hs
    exact ⟨Or.inl hc, Or.inl ⟨c, header, rfl, hnone, rfl⟩⟩
  | sessionFail s =>
    obtain ⟨hlt, rfl⟩ := sessionFail_some hs
    exact ⟨Or.inr ⟨s, rfl⟩, Or.inr (Or.inl ⟨s, rfl, hlt, rfl⟩)⟩
  | handler c ha =>
    obtain ⟨hc, h, hh, ⟨h', q, n, k, hm, rfl⟩ | ⟨hq, hpc, rfl⟩⟩ := handler_some hs
    · exact ⟨Or.inl hc, Or.inr (Or.inr (Or.inl ⟨c, ha, h, h', q, n, k, rfl, hh, hm, rfl⟩))⟩
    · exact ⟨Or.inl hc, Or.inr (Or.inr (Or.inr ⟨c, ha, h, rfl, hh, hq, hpc, rfl⟩))⟩

/-- Every move but the test is a step. -/
theorem step_of_move {m : Client} {c : ConnId} {h h' : Handler} {a : HandlerAct} {q : Option SessionId} {n k : Nat}
    (hc : m.crashed = false) (hh : m.handlers c = some h) (hm : Move m h a h' q n k) (ha : a ≠ .test) :
    m.step (.handler c a) = some (m.moved c h' q n k) := by
  cases hm with
  | tryOpen => exact absurd rfl ha
  | noOpen => exact absurd rfl ha
  | _ => simp [step, handleTCPConn, moved, openOn, set, *]

/-- Where a handler goes from the test. -/
theorem step_test {m m' : Client} {c : ConnId} (hs : m.step (.handler c .test) = some m') :
    m.crashed = false ∧ ∃ h, m.handlers c = some h ∧
      m' = m.set c { h with
        pc := if m.cfg.multiStream ∧ m.quicSession ≠ none then .openStream else .openQuicSession 0 false } := by
  simp only [step] at hs
  split at hs
  · cases hs
  · rename_i hc
    split at hs
    · cases hs
    · rename_i h hh
      refine ⟨by simpa using hc, h, hh, ?_⟩
      simp only [handleTCPConn] at hs
      split at hs
      · split at hs
        · rename_i hg
          cases hs
          rw [if_pos hg]
        · rename_i hg
          cases hs
          rw [if_neg hg]
      · cases hs

/-- What storing the result of a dial does. -/
theorem step_store {m m' : Client} {c : ConnId} {h : Handler} {session : Option SessionId} {failed : Bool}
    (hh : m.handlers c = some h) (hpc : h.pc = .assign session failed) (hs : m.step (.handler c .store) = some m') :
    m' = m.moved c { h with pc := if failed then .returned else .openStreamSync } session m.sessions m.streams := by
  have hstep := step_of_move (handler_some hs).1 hh (.stored session failed hpc) (by simp)
  exact Option.some.inj (hs.symm.trans hstep)

/-- A property of every handler after one of them moved: the mover has it, and the others kept it. -/
theorem forall_moved {m : Client} {c : ConnId} {h' : Handler} {q : Option SessionId} {n k : Nat}
    {Q : ConnId → Handler → Prop} (hc : Q c h') (ho : ∀ c' x, c' ≠ c → m.handlers c' = some x → Q c' x) :
    ∀ c' x, (m.moved c h' q n k).handlers c' = some x → Q c' x := by
  intro c' x hx
  rw [moved_handlers] at hx
  by_cases hcc : c' = c
  · subst hcc
    simp only [if_true, Option.some.injEq] at hx
    exact hx ▸ hc
  · rw [if_neg hcc] at hx
    exact ho c' x hcc hx

/-- A property of every handler after an accept: the new handler has it, and the others kept it. -/
theorem forall_set {m : Client} {c : ConnId} {h' : Handler} {Q : ConnId → Handler → Prop} (hc : Q c h')
    (ho : ∀ c' x, c' ≠ c → m.handlers c' = some x → Q c' x) :
    ∀ c' x, (m.set c h').handlers c' = some x → Q c' x :=
  forall_moved (m := m) (q := m.quicSession) (n := m.sessions) (k := m.streams) hc ho

/-- The configuration stays as it is. -/
theorem cfg_step {m m' : Client} {a : Act} (hs : m.step a = some m') : m'.cfg = m.cfg := by
  obtain ⟨-, ⟨c, header, -, -, rfl⟩ | ⟨s, -, -, rfl⟩ | ⟨c, ha, h, h', q, n, k, -, -, -, rfl⟩ | ⟨c, ha, h, -, -, -, -, rfl⟩⟩ :=
    step_cases hs
  all_goals rfl

theorem cfg_run {cfg : ClientConfig} {as : List Act} {m : Client} (hrun : run step (init cfg) as = some m) : m.cfg = cfg := by
  have hstep : ∀ (m : Client) (a : Act) (m' : Client), m.cfg = cfg → m.step a = some m' → m'.cfg = cfg :=
    fun _ _ _ hi hs => (cfg_step hs).trans hi
  exact inv_run hstep rfl hrun

/-- A move dials the next session or leaves the dialled session as it was. -/
theorem dialled_of_move {m : Client} {h h' : Handler} {a : HandlerAct} {q : Option SessionId} {n k : Nat}
    (hm : Move m h a h' q n k) :
    h'.dialled = h.dialled ∧ n = m.sessions ∨ h'.dialled = some m.sessions ∧ n = m.sessions + 1 := by
  cases hm with
  | dialled => exact Or.inr ⟨rfl, rfl⟩
  | _ => exact Or.inl ⟨rfl, rfl⟩

end ClientAux

end Client

end Qpep
