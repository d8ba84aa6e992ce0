import Qpep.Lemmas.Client
import Qpep.Lemmas.Header

/-!
# The session variable of the client

All handlers of the client write the session they dialled to the one variable `quicSession` and read it back from there. What
another handler stores in between decides what they find: nil, when a dial failed (`nil_session_iff`), or the other handler's
session (`session_isolation`).
-/

namespace Qpep

open Machine

namespace Client

open ClientAux

/-! ## No method call on a nil session -/

/-- No method call on a nil session has happened, and none can happen now: wherever a handler is about to call a method on
`quicSession`, the variable is not nil. -/
def NoNilCall (m : Client) : Prop :=
  m.crashed = false ∧ ∀ c h, m.handlers c = some h → h.pc.Calls → m.quicSession ≠ none

/-- The step does not store nil in `quicSession` while another handler is about to call a method on it. -/
def NilStoreApart (m : Client) (a : Act) : Prop :=
  ∀ c h failed, a = .handler c .store → m.handlers c = some h → h.pc = .assign none failed →
    ∀ c' h', c' ≠ c → m.handlers c' = some h' → ¬h'.pc.Calls

/-- A dial without a session has an error to report: the loop of `openQuicSession` counts a failed attempt at every round. -/
def Pc.ErrorKnown : Pc → Prop
  | .openQuicSession i failed => 0 < i → failed = true
  | .assign none failed => failed = true
  | _ => True

/-- The invariant of a client whose nil stores come apart from the calls of other handlers. -/
structure NilInv (m : Client) : Prop where
  retries : 1 ≤ m.cfg.connectionRetries
  noNilCall : NoNilCall m
  errorKnown : ∀ c h, m.handlers c = some h → h.pc.ErrorKnown

namespace ClientAux

/-- A move of a handler that reported its failed dials so far leaves it reporting them. -/
theorem errorKnown_of_move {m : Client} {h h' : Handler} {a : HandlerAct} {q : Option SessionId} {n k : Nat}
    (hm : Move m h a h' q n k) (hr : 1 ≤ m.cfg.connectionRetries) (he : h.pc.ErrorKnown) : h'.pc.ErrorKnown := by
  cases hm with
  | exhausted i failed hpc hi =>
    rw [hpc] at he
    have hpos : 0 < i := by omega
    exact he hpos
  | noOpen => exact fun hlt => absurd hlt (Nat.lt_irrefl 0)
  | refused => exact fun hlt => absurd hlt (Nat.lt_irrefl 0)
  | retry => exact fun _ => rfl
  | stored _ failed hpc => cases failed <;> trivial
  | _ => trivial

/-- A move that meets the condition leaves a session in `quicSession` wherever a handler is about to use it. -/
theorem session_at_calls {m : Client} {c : ConnId} {h h' : Handler} {a : HandlerAct} {q : Option SessionId} {n k : Nat}
    (hi : NilInv m) (hh : m.handlers c = some h) (hok : NilStoreApart m (.handler c a)) (hm : Move m h a h' q n k) :
    ∀ c' x, (m.moved c h' q n k).handlers c' = some x → x.pc.Calls → q ≠ none := by
  have hothers : ∀ c' x, c' ≠ c → m.handlers c' = some x → x.pc.Calls → m.quicSession ≠ none :=
    fun c' x _ hx => hi.noNilCall.2 c' x hx
  cases hm with
  | tryOpen hpc hmulti hq => exact forall_moved (fun _ => hq) hothers
  | stored _ failed hpc =>
    cases q with
    | some s => exact forall_moved (fun _ => (by simp)) fun _ _ _ _ _ => by simp
    | none =>
      -- the error of the dial makes the handler return, and no other handler is about to call
      have hf : failed = true := by
        have he := hi.errorKnown c h hh
        rwa [hpc] at he
      refine forall_moved ?_ fun c' x hcc hx hc => absurd hc (hok c h failed rfl hh hpc c' x hcc hx)
      intro hc
      simp [hf, Pc.Calls] at hc
  | _ => exact forall_moved (fun hc => by simp [Pc.Calls] at hc) hothers

/-- A step that meets the condition keeps the invariant. -/
theorem nilInv_step {m m' : Client} {a : Act} (hi : NilInv m) (hok : NilStoreApart m a) (hs : m.step a = some m') :
    NilInv m' := by
  obtain ⟨-, ⟨c, header, rfl, -, rfl⟩ | ⟨s, rfl, -, rfl⟩ | ⟨c, ha, h, h', q, n, k, rfl, hh, hm, rfl⟩ |
    ⟨c, ha, h, rfl, hh, hq, hpc, rfl⟩⟩ := step_cases hs
  · refine ⟨hi.retries, ⟨hi.noNilCall.1, ?_⟩, forall_set trivial fun c' x _ => hi.errorKnown c' x⟩
    exact forall_set (fun hc => by simp [Handler.start, Pc.Calls] at hc) fun c' x _ => hi.noNilCall.2 c' x
  · exact ⟨hi.retries, hi.noNilCall, hi.errorKnown⟩
  · refine ⟨hi.retries, ⟨hi.noNilCall.1, session_at_calls hi hh hok hm⟩, ?_⟩
    exact forall_moved (errorKnown_of_move hm hi.retries (hi.errorKnown c h hh)) fun c' x _ => hi.errorKnown c' x
  · exact absurd hq (hi.noNilCall.2 c h hh hpc)

/-- A store of nil while another handler is about to call leaves that handler in front of a nil session. -/
theorem nil_store_exposes {m m' : Client} {a : Act} (hbad : ¬NilStoreApart m a) (hs : m.step a = some m') :
    ¬NoNilCall m' := by
  simp only [NilStoreApart, Classical.not_forall, not_not] at hbad
  obtain ⟨c, h, failed, rfl, hh, hpc, c', h', hcc, hh', hcalls⟩ := hbad
  cases step_store hh hpc hs
  intro hno
  exact hno.2 c' h' (by rw [moved_handlers, if_neg hcc, hh']) hcalls rfl

end ClientAux

/-- For any configuration with at least one retry, any number of handlers and any schedule: no handler is ever in front of a
method call on a nil `quicSession`, in any state the run passes, exactly if no handler stores nil there (its dial failed)
while another one is about to call. -/
theorem nil_session_iff (cfg : ClientConfig) (hr : 1 ≤ cfg.connectionRetries) (as : List Act) (m : Client)
    (hrun : run step (init cfg) as = some m) :
    Throughout step NoNilCall (init cfg) as ↔ Along step NilStoreApart (init cfg) as := by
  have hinit : NilInv (init cfg) := ⟨hr, ⟨rfl, fun _ _ h => by cases h⟩, fun _ _ h => by cases h⟩
  exact throughout_iff_along (fun _ hi => hi.noNilCall) (fun _ _ _ hi _ hok hs => nilInv_step hi hok hs)
    (fun _ _ _ _ _ hbad hs => nil_store_exposes hbad hs) hinit hrun (along_of_forall fun _ _ => trivial)

/-- A handler dials a session and stores it. -/
def dialStore (c : ConnId) : List Act :=
  [.accept c webHeader, .handler c .test, .handler c (.dialAddr true), .handler c .store]

/-- A handler fails to dial three times and stores nil. -/
def dialFail (c : ConnId) : List Act :=
  [.accept c webHeader, .handler c .test, .handler c (.dialAddr false), .handler c (.dialAddr false),
    .handler c (.dialAddr false), .handler c .giveUp, .handler c .store]

/-- The equivalence for two handlers in single-stream mode, one of which fails to dial before the other one starts. -/
theorem nil_session_iff_two : ∃ m, run step (init ⟨false, 3⟩) (dialFail 0 ++ dialStore 1) = some m ∧
    (Throughout step NoNilCall (init ⟨false, 3⟩) (dialFail 0 ++ dialStore 1) ↔
      Along step NilStoreApart (init ⟨false, 3⟩) (dialFail 0 ++ dialStore 1)) :=
  ⟨_, rfl, nil_session_iff ⟨false, 3⟩ (by decide) (dialFail 0 ++ dialStore 1) _ rfl⟩

/-- Handler 0 has stored its session and is about to open its stream on it; the dials of handler 1 fail, it stores nil, and the
next step of handler 0 ends the process. -/
theorem nil_session_crash :
    ∃ m, run step (init ⟨false, 3⟩) (dialStore 0 ++ dialFail 1 ++ [.handler 0 .loadOpenStreamSync]) = some m ∧
      m.crashed = true :=
  ⟨_, rfl, rfl⟩

/-! ## One session, one handler -/

/-- A handler that dialled a session opens its stream on it and on no other one; and in single-stream mode no two handlers have
their streams on one session. -/
def OwnSession (m : Client) : Prop :=
  (∀ c h s t, m.handlers c = some h → h.dialled = some s → h.session = some t → t = s) ∧
  (m.cfg.multiStream = false → ∀ c c' h h' s, c ≠ c' → m.handlers c = some h → m.handlers c' = some h' →
    h.session = some s → h'.session ≠ some s)

/-- The step does not store a session in `quicSession` while another handler is about to open its stream on the one it
stored. -/
def StoreApart (m : Client) (a : Act) : Prop :=
  ∀ c h s failed, a = .handler c .store → m.handlers c = some h → h.pc = .assign (some s) failed →
    ∀ c' h', c' ≠ c → m.handlers c' = some h' → h'.pc ≠ .openStreamSync

/-- What a handler has done so far, from where it stands: which session it has dialled, what it will find in `quicSession`,
and the session of its stream. -/
def Handler.Placed (h : Handler) (multiStream : Bool) (quicSession : Option SessionId) : Prop :=
  match h.pc with
  | .entry | .openQuicSession _ _ => h.dialled = none ∧ h.session = none
  | .openStream | .openingStream _ => multiStream = true ∧ h.dialled = none ∧ h.session = none
  | .assign s _ => h.dialled = s ∧ h.session = none
  | .openStreamSync => (quicSession = h.dialled ∨ quicSession = none) ∧ h.session = none
  | .openingStreamSync s => h.dialled = some s ∧ h.session = none
  | .relay _ _ => ∃ s, h.session = some s ∧ (h.dialled = some s ∨ h.dialled = none ∧ multiStream = true)
  | .returned => h.session = none

/-- The invariant of a client whose stores come apart from the reads of other handlers. -/
structure SessionInv (m : Client) : Prop where
  placed : ∀ c h, m.handlers c = some h → h.Placed m.cfg.multiStream m.quicSession
  old : ∀ c h s, m.handlers c = some h → h.dialled = some s → s < m.sessions
  distinct : ∀ c c' h h' s, c ≠ c' → m.handlers c = some h → m.handlers c' = some h' → h.dialled = some s →
    h'.dialled ≠ some s

namespace ClientAux

/-- The invariant gives every handler its own session. -/
theorem ownSession_of_inv {m : Client} (hi : SessionInv m) : OwnSession m := by
  have hplace : ∀ c h t, m.handlers c = some h → h.session = some t →
      h.dialled = some t ∨ h.dialled = none ∧ m.cfg.multiStream = true := by
    intro c h t hh ht
    have hp := hi.placed c h hh
    unfold Handler.Placed at hp
    split at hp <;> simp_all
  refine ⟨?_, ?_⟩
  · intro c h s t hh hd ht
    rcases hplace c h t hh ht with hdt | ⟨hn, -⟩
    · exact Option.some.inj (hdt.symm.trans hd)
    · cases hn.symm.trans hd
  · intro hm c c' h h' s hcc hh hh' hs hs'
    have hd := (hplace c h s hh hs).resolve_right fun hr => by simp [hm] at hr
    have hd' := (hplace c' h' s hh' hs').resolve_right fun hr => by simp [hm] at hr
    exact hi.distinct c c' h h' s hcc hh hh' hd hd'

/-- The handler that moves is where its past puts it, also after the move. -/
theorem placed_of_move {m : Client} {h h' : Handler} {a : HandlerAct} {q : Option SessionId} {n k : Nat}
    (hm : Move m h a h' q n k) (hp : h.Placed m.cfg.multiStream m.quicSession) : h'.Placed m.cfg.multiStream q := by
  cases hm with
  | tryOpen hpc hmulti hq =>
    simp only [Handler.Placed, hpc] at hp
    exact ⟨hmulti, hp⟩
  | noOpen hpc =>
    simpa only [Handler.Placed, hpc] using hp
  | load s hpc hq =>
    simpa only [Handler.Placed, hpc] using hp
  | opened s hpc hlive =>
    simp only [Handler.Placed, hpc] at hp
    exact ⟨s, rfl, Or.inr ⟨hp.2.1, hp.1⟩⟩
  | refused s hpc =>
    simp only [Handler.Placed, hpc] at hp
    exact hp.2
  | dialled i failed hpc hi =>
    simp only [Handler.Placed, hpc] at hp
    exact ⟨rfl, hp.2⟩
  | retry i failed hpc hi =>
    simpa only [Handler.Placed, hpc] using hp
  | exhausted i failed hpc hi =>
    simpa only [Handler.Placed, hpc] using hp
  | stored session failed hpc =>
    simp only [Handler.Placed, hpc] at hp
    cases failed with
    | true => exact hp.2
    | false => exact ⟨Or.inl hp.1.symm, hp.2⟩
  | loadSync s hpc hq =>
    -- what the handler reads is what it dialled: nothing was stored since
    simp only [Handler.Placed, hpc, hq] at hp
    obtain ⟨hd | hd, hs⟩ := hp
    · exact ⟨hd.symm, hs⟩
    · cases hd
  | openedSync s hpc hlive =>
    simp only [Handler.Placed, hpc] at hp
    exact ⟨s, rfl, Or.inl hp.1⟩
  | refusedSync s hpc =>
    simp only [Handler.Placed, hpc] at hp
    exact hp.2
  | relayed st r r' io hpc hstep =>
    simpa only [Handler.Placed, hpc] using hp

/-- The handlers that do not move are where their past puts them, also when the move stored a session: none of them is about to
open its stream on the one it stored itself. -/
theorem placed_of_others {m : Client} {c c' : ConnId} {h h' x : Handler} {a : HandlerAct} {q : Option SessionId} {n k : Nat}
    (hok : StoreApart m (.handler c a)) (hh : m.handlers c = some h) (hm : Move m h a h' q n k) (hcc : c' ≠ c)
    (hx : m.handlers c' = some x) (hp : x.Placed m.cfg.multiStream m.quicSession) : x.Placed m.cfg.multiStream q := by
  cases hm with
  | stored _ failed hpc =>
    unfold Handler.Placed at hp ⊢
    split at hp <;> try exact hp
    rename_i hxpc
    cases q with
    | none => exact ⟨Or.inr rfl, hp.2⟩
    | some s => exact absurd hxpc (hok c h s failed rfl hh hpc c' x hcc hx)
  | _ => exact hp

/-- After one handler moved, different handlers have still dialled different sessions, if the mover's session is nobody
else's. -/
theorem distinct_moved {m : Client} {c : ConnId} {h' : Handler} {q : Option SessionId} {n k : Nat} (hi : SessionInv m)
    (hnew : ∀ d x s, d ≠ c → m.handlers d = some x → h'.dialled = some s → x.dialled ≠ some s) :
    ∀ d d' x x' s, d ≠ d' → (m.moved c h' q n k).handlers d = some x → (m.moved c h' q n k).handlers d' = some x' →
      x.dialled = some s → x'.dialled ≠ some s := by
  intro d d' x x' s hdd hx hx' hs hs'
  rw [moved_handlers] at hx hx'
  by_cases hd : d = c
  · have hd' : d' ≠ c := fun he => hdd (hd.trans he.symm)
    rw [if_pos hd, Option.some.injEq] at hx
    rw [if_neg hd'] at hx'
    exact hnew d' x' s hd' hx' (hx ▸ hs) hs'
  · rw [if_neg hd] at hx
    by_cases hd' : d' = c
    · rw [if_pos hd', Option.some.injEq] at hx'
      exact hnew d x s hd hx (hx' ▸ hs') hs
    · rw [if_neg hd'] at hx'
      exact hi.distinct d d' x x' s hdd hx hx' hs hs'

/-- A step that meets the condition keeps the invariant. -/
theorem sessionInv_step {m m' : Client} {a : Act} (hi : SessionInv m) (hok : StoreApart m a) (hs : m.step a = some m') :
    SessionInv m' := by
  obtain ⟨-, ⟨c, header, rfl, -, rfl⟩ | ⟨s, rfl, -, rfl⟩ | ⟨c, ha, h, h', q, n, k, rfl, hh, hm, rfl⟩ |
    ⟨c, ha, h, rfl, -, -, -, rfl⟩⟩ := step_cases hs
  · have hstart : ∀ s, (Handler.start header).dialled ≠ some s := fun s => by simp [Handler.start]
    refine ⟨forall_set ⟨rfl, rfl⟩ fun c' x _ => hi.placed c' x, ?_, ?_⟩
    · intro d x s hx
      exact forall_set (Q := fun _ x => x.dialled = some s → s < m.sessions) (fun he => absurd he (hstart s))
        (fun c' y _ hy => hi.old c' y s hy) d x hx
    · exact distinct_moved (q := m.quicSession) (n := m.sessions) (k := m.streams) hi
        fun d x s _ _ he => absurd he (hstart s)
  · exact ⟨hi.placed, hi.old, hi.distinct⟩
  · have hplaced := placed_of_move hm (hi.placed c h hh)
    have hothers : ∀ c' x, c' ≠ c → m.handlers c' = some x → x.Placed m.cfg.multiStream q :=
      fun c' x hcc hx => placed_of_others hok hh hm hcc hx (hi.placed c' x hx)
    refine ⟨forall_moved hplaced hothers, ?_, distinct_moved hi ?_⟩
    · intro d x s hx
      revert d x
      rcases dialled_of_move hm with ⟨hd, hn⟩ | ⟨hd, hn⟩
      · refine forall_moved ?_ fun c' x _ hx he => hn ▸ hi.old c' x s hx he
        intro he
        exact hn ▸ hi.old c h s hh (hd ▸ he)
      · refine forall_moved ?_ fun c' x _ hx he => hn ▸ Nat.lt_succ_of_lt (hi.old c' x s hx he)
        intro he
        rw [hd, Option.some.injEq] at he
        exact hn ▸ he ▸ Nat.lt_succ_self _
    · intro d x s hdc hx hs
      rcases dialled_of_move hm with ⟨hd, -⟩ | ⟨hd, -⟩
      · exact hi.distinct c d h x s hdc.symm hh hx (hd ▸ hs)
      · intro hxs
        have hlt := hi.old d x s hx hxs
        rw [hd, Option.some.injEq] at hs
        exact absurd hlt (hs ▸ Nat.lt_irrefl _)
  · exact ⟨hi.placed, hi.old, hi.distinct⟩

end ClientAux

/-- For any configuration, any number of handlers and any schedule in which no handler stores its session while another one is
about to open its stream on the one it stored: in every state the run passes, a handler that dialled a session has its stream on
that session, and in single-stream mode no two handlers share a session. -/
theorem session_isolation (cfg : ClientConfig) (as : List Act) (m : Client) (hrun : run step (init cfg) as = some m)
    (hok : Along step StoreApart (init cfg) as) : OwnSession m := by
  have hinit : SessionInv (init cfg) :=
    ⟨(fun _ _ h => by cases h), (fun _ _ _ h => by cases h), (fun _ _ _ _ _ _ h => by cases h)⟩
  exact ownSession_of_inv (inv_run_along (fun _ _ _ hi ho hs => sessionInv_step hi ho hs) hinit hrun hok)

/-- A handler opens its stream on what it finds in `quicSession`. -/
def openSync (c : ConnId) : List Act := [.handler c .loadOpenStreamSync, .handler c (.openStreamSync true)]

/-- Two handlers dial at the same time. -/
def dialTogether : List Act :=
  [.accept 0 webHeader, .accept 1 webHeader, .handler 0 .test, .handler 1 .test, .handler 0 (.dialAddr true),
    .handler 1 (.dialAddr true)]

/-- They take turns on `quicSession`: handler 1 stores its session as soon as handler 0 has read back its own. -/
def openInTurn : List Act :=
  [.handler 0 .loadOpenStreamSync, .handler 1 .store, .handler 1 .loadOpenStreamSync, .handler 0 (.openStreamSync true),
    .handler 1 (.openStreamSync true)]

/-- Steps that store nothing meet the condition. -/
theorem storeApart_along {m : Client} {as : List Act} (h : ∀ a ∈ as, ∀ c, a ≠ .handler c .store) : Along step StoreApart m as :=
  (along_of_forall h).mono fun _ _ hne c _ _ _ ha => absurd ha (hne c)

/-- Isolation of two handlers that take turns in single-stream mode. -/
theorem session_isolation_two :
    ∃ m, run step (init ⟨false, 3⟩) (dialTogether ++ .handler 0 .store :: openInTurn) = some m ∧
      (m.handlers 0).map (fun h => (h.dialled, h.session)) = some (some 0, some 0) ∧
      (m.handlers 1).map (fun h => (h.dialled, h.session)) = some (some 1, some 1) ∧ OwnSession m := by
  refine ⟨_, rfl, rfl, rfl, session_isolation ⟨false, 3⟩ (dialTogether ++ .handler 0 .store :: openInTurn) _ rfl ?_⟩
  refine along_append.mpr ⟨storeApart_along (by simp [dialTogether]), fun m hm => ⟨?_, fun m₁ h₁ => ⟨?_, fun m₂ h₂ => ⟨?_, ?_⟩⟩⟩⟩
  · -- handler 1 has dialled, but not stored
    cases hm
    intro c h s failed ha _ _ d x hdc hx
    cases ha
    by_cases hd : d = 1
    · subst hd
      cases hx
      simp
    · simp [init, set, hdc, hd] at hx
  · intro c _ _ _ ha
    cases ha
  · -- handler 0 has read its session back
    cases hm
    cases h₁
    cases h₂
    intro c h s failed ha _ _ d x hdc hx
    cases ha
    by_cases hd : d = 0
    · subst hd
      cases hx
      simp
    · simp [init, set, hdc, hd] at hx
  · intro m₃ _
    exact storeApart_along (by simp)

/-- In single-stream mode handler 1 stores its session before handler 0 reads back its own: both open their streams on
session 1, and session 0 carries none. -/
theorem session_shared :
    ∃ m, run step (init ⟨false, 3⟩) (dialStore 0 ++ dialStore 1 ++ openSync 0 ++ openSync 1) = some m ∧
      (m.handlers 0).map (fun h => (h.dialled, h.session)) = some (some 0, some 1) ∧
      (m.handlers 1).map (fun h => (h.dialled, h.session)) = some (some 1, some 1) ∧ ¬OwnSession m := by
  refine ⟨_, rfl, rfl, rfl, ?_⟩
  intro hown
  have h0 := hown.1 0 _ 0 1 rfl rfl rfl
  cases h0

end Client

end Qpep
