import Qpep.Lemmas.Sessions
import Qpep.Lemmas.World
import Qpep.Theorems.Session

/-!
# Sharing a session

With `MultiStream` on all handlers are to use one session, which is tested for and dialled without a lock (`one_session`).
The result of a dial is stored also when the dial failed (`failed_dial_keeps_iff`). No session is ever closed: one that
nothing uses any more stays until it fails (`session_held_or_given_up`).
-/

namespace Qpep

open Machine

namespace Client

open ClientAux

/-! ## One session for all -/

/-- A handler that stands there is in `openQuicSession`, or has not stored its result. -/
def Pc.dialling : Pc → Bool
  | .openQuicSession _ _ | .assign _ _ => true
  | _ => false

/-- At most one session has been dialled, and all streams are on it. -/
def OneSession (m : Client) : Prop :=
  m.sessions ≤ 1 ∧ ∀ c h s, m.handlers c = some h → h.session = some s → s < m.sessions

/-- No handler but this one is dialling. -/
def Alone (m : Client) (c : ConnId) : Prop := ∀ c' h', c' ≠ c → m.handlers c' = some h' → h'.pc.dialling = false

/-- No handler finds `quicSession` nil in the step while another one is dialling. -/
def TestApart (m : Client) (a : Act) : Prop := ∀ c, a = .handler c .test → m.quicSession = none → Alone m c

/-- The invariant of a client in which no handler starts to dial while another one is dialling. -/
structure OneInv (m : Client) : Prop where
  multi : m.cfg.multiStream = true
  known : Known m
  one : m.sessions ≤ 1
  unset : ∀ c h, m.handlers c = some h → h.pc.dialling = true → m.quicSession = none ∧ Alone m c
  undialled : m.quicSession = none → m.sessions = 0 ∨ ∃ c h s failed, m.handlers c = some h ∧ h.pc = .assign (some s) failed

namespace ClientAux

/-- With `MultiStream` on, a handler goes from the test to the dial only if it found `quicSession` nil. -/
theorem unset_of_test {m m' : Client} {c : ConnId} {h' : Handler} (hmulti : m.cfg.multiStream = true)
    (hs : m.step (.handler c .test) = some m') (hh' : m'.handlers c = some h') (hdial : h'.pc.dialling = true) :
    m.quicSession = none := by
  obtain ⟨-, h, -, rfl⟩ := step_test hs
  by_cases hq : m.quicSession = none
  · exact hq
  · rw [if_pos ⟨hmulti, hq⟩, set_handlers, if_pos rfl] at hh'
    cases hh'
    cases hdial

/-- An accepted connection is not dialling yet. -/
theorem alone_set {m : Client} {c d : ConnId} (header : QpepHeader) (h : Alone m d) : Alone (m.set c (.start header)) d := by
  intro e y hed hy
  rw [set_handlers] at hy
  split at hy
  · cases hy
    rfl
  · exact h e y hed hy

/-- After a move, no other handler than the one that dials is dialling, if this was so before and a handler that starts to
dial was alone. -/
theorem unset_moved {m : Client} {c : ConnId} {h h' : Handler} {q : Option SessionId} {n k : Nat}
    (hi : ∀ c h, m.handlers c = some h → h.pc.dialling = true → m.quicSession = none ∧ Alone m c) (hh : m.handlers c = some h)
    (hq : q = m.quicSession ∨ h.pc.dialling = true ∧ h'.pc.dialling = false)
    (hstart : h'.pc.dialling = true → m.quicSession = none ∧ Alone m c) :
    ∀ d x, (m.moved c h' q n k).handlers d = some x → x.pc.dialling = true →
      (m.moved c h' q n k).quicSession = none ∧ Alone (m.moved c h' q n k) d := by
  have hset : h'.pc.dialling = true → q = none := by
    intro hd
    rcases hq with hq | ⟨-, hn⟩
    · exact hq.trans (hstart hd).1
    · cases hd.symm.trans hn
  intro d x hx hdial
  rw [moved_handlers] at hx
  by_cases hdc : d = c
  · rw [if_pos hdc, Option.some.injEq] at hx
    subst hx hdc
    refine ⟨hset hdial, ?_⟩
    intro e y hed hy
    rw [moved_handlers, if_neg hed] at hy
    exact (hstart hdial).2 e y hed hy
  · rw [if_neg hdc] at hx
    obtain ⟨hnone, halone⟩ := hi d x hx hdial
    have hidle : h.pc.dialling = false := halone c h (Ne.symm hdc) hh
    have hq' : q = m.quicSession := hq.resolve_right fun hr => by cases hr.1.symm.trans hidle
    refine ⟨hq'.trans hnone, ?_⟩
    intro e y hed hy
    rw [moved_handlers] at hy
    by_cases hec : e = c
    · rw [if_pos hec, Option.some.injEq] at hy
      subst hy
      cases hd' : h'.pc.dialling with
      | false => rfl
      | true => cases hdial.symm.trans ((hstart hd').2 d x hdc hx)
    · rw [if_neg hec] at hy
      exact halone e y hed hy

/-- A handler that dials after a move dialled before it, or comes from the test, or its `OpenStream` has failed. -/
theorem dialling_of_move {m : Client} {h h' : Handler} {a : HandlerAct} {q : Option SessionId} {n k : Nat}
    (hm : Move m h a h' q n k) (hd : h'.pc.dialling = true) : h.pc.dialling = true ∨ a = .test ∨ a = .openStream false := by
  cases hm with
  | noOpen => exact Or.inr (Or.inl rfl)
  | refused => exact Or.inr (Or.inr rfl)
  | dialled i failed hpc hi => exact Or.inl (by rw [hpc]; rfl)
  | retry i failed hpc hi => exact Or.inl (by rw [hpc]; rfl)
  | exhausted i failed hpc hi => exact Or.inl (by rw [hpc]; rfl)
  | stored session failed hpc => cases failed <;> cases hd
  | _ => cases hd

/-- Only a handler that stores the result of its dial changes `quicSession`. -/
theorem quicSession_of_move {m : Client} {h h' : Handler} {a : HandlerAct} {q : Option SessionId} {n k : Nat}
    (hm : Move m h a h' q n k) : q = m.quicSession ∨ h.pc.dialling = true ∧ h'.pc.dialling = false := by
  cases hm with
  | stored session failed hpc =>
    refine Or.inr ⟨by rw [hpc]; rfl, ?_⟩
    cases failed <;> rfl
  | _ => exact Or.inl rfl

/-- A handler that is dialling has found no session, so none has been dialled, unless this handler has just done it. -/
theorem no_session_of_dialling {m : Client} {c : ConnId} {h : Handler} (hi : OneInv m) (hh : m.handlers c = some h)
    (hd : h.pc.dialling = true) : m.sessions = 0 ∨ ∃ s failed, h.pc = .assign (some s) failed := by
  obtain ⟨hnone, halone⟩ := hi.unset c h hh hd
  rcases hi.undialled hnone with h0 | ⟨d, x, s, failed, hx, hpc⟩
  · exact Or.inl h0
  · by_cases hdc : d = c
    · subst hdc
      cases hh.symm.trans hx
      exact Or.inr ⟨s, failed, hpc⟩
    · have hidle := halone d x hdc hx
      rw [hpc] at hidle
      cases hidle

/-- After a move that leaves `quicSession` nil, no session has been dialled, or its handler has not stored it yet; and never
more than one has been dialled. -/
theorem undialled_moved {m : Client} {c : ConnId} {h h' : Handler} {a : HandlerAct} {q : Option SessionId} {n k : Nat}
    (hi : OneInv m) (hh : m.handlers c = some h) (hm : Move m h a h' q n k) :
    n ≤ 1 ∧ (q = none → n = 0 ∨ ∃ d x s failed, (m.moved c h' q n k).handlers d = some x ∧ x.pc = .assign (some s) failed) := by
  have hkeep : (∀ s failed, h.pc ≠ .assign (some s) failed) → m.quicSession = none →
      m.sessions = 0 ∨ ∃ d x s failed, (m.moved c h' q n k).handlers d = some x ∧ x.pc = .assign (some s) failed := by
    intro hpc hq
    rcases hi.undialled hq with h0 | ⟨d, x, s, failed, hx, hx'⟩
    · exact Or.inl h0
    · refine Or.inr ⟨d, x, s, failed, ?_, hx'⟩
      rw [moved_handlers, if_neg, hx]
      rintro rfl
      cases hh.symm.trans hx
      exact hpc s failed hx'
  cases hm with
  | dialled i failed hpc hi' =>
    have h0 : m.sessions = 0 := by
      rcases no_session_of_dialling hi hh (by rw [hpc]; rfl) with h0 | ⟨s, f, hx⟩
      · exact h0
      · cases hpc.symm.trans hx
    refine ⟨by omega, fun _ => Or.inr ⟨c, _, m.sessions, false, by rw [moved_handlers, if_pos rfl], rfl⟩⟩
  | stored session failed hpc =>
    refine ⟨hi.one, ?_⟩
    rintro rfl
    rcases no_session_of_dialling hi hh (by rw [hpc]; rfl) with h0 | ⟨s, f, hx⟩
    · exact Or.inl h0
    · cases hpc.symm.trans hx
  | _ => exact ⟨hi.one, hkeep (by simp [*])⟩

/-- A step that meets the condition, and is no refused `OpenStream`, keeps the invariant. -/
theorem oneInv_step {m m' : Client} {a : Act} (hi : OneInv m) (hok : TestApart m a ∧ ∀ c, a ≠ .handler c (.openStream false))
    (hs : m.step a = some m') : OneInv m' := by
  have hknown := known_step hi.known hs
  obtain ⟨-, ⟨c, header, rfl, hnew, rfl⟩ | ⟨s, rfl, -, rfl⟩ | ⟨c, ha, h, h', q, n, k, rfl, hh, hm, rfl⟩ |
    ⟨c, ha, h, rfl, hh, hq, hpc, rfl⟩⟩ := step_cases hs
  · refine ⟨hi.multi, hknown, hi.one, ?_, ?_⟩
    · refine forall_set (fun hd => by cases hd) ?_
      intro d x _ hx hd
      exact ⟨(hi.unset d x hx hd).1, alone_set header (hi.unset d x hx hd).2⟩
    · intro hq
      rcases hi.undialled hq with h0 | ⟨d, x, s, failed, hx, hpc⟩
      · exact Or.inl h0
      · refine Or.inr ⟨d, x, s, failed, ?_, hpc⟩
        rw [set_handlers, if_neg, hx]
        rintro rfl
        cases hnew.symm.trans hx
  · exact ⟨hi.multi, hknown, hi.one, hi.unset, hi.undialled⟩
  · have hstart : h'.pc.dialling = true → m.quicSession = none ∧ Alone m c := by
      intro hd
      rcases dialling_of_move hm hd with hd' | rfl | rfl
      · exact hi.unset c h hh hd'
      · have hq := unset_of_test hi.multi hs (by rw [moved_handlers, if_pos rfl]) hd
        exact ⟨hq, hok.1 c rfl hq⟩
      · exact absurd rfl (hok.2 c)
    obtain ⟨hone, hundialled⟩ := undialled_moved (c := c) hi hh hm
    exact ⟨hi.multi, hknown, hone, unset_moved hi.unset hh (quicSession_of_move hm) hstart, hundialled⟩
  · exact ⟨hi.multi, hknown, hi.one, hi.unset, hi.undialled⟩

theorem oneInv_run {cfg : ClientConfig} (hmulti : cfg.multiStream = true) {as : List Act} {m : Client}
    (hrun : run step (init cfg) as = some m) (hopen : ∀ a ∈ as, ∀ c, a ≠ .handler c (.openStream false))
    (hok : Along step TestApart (init cfg) as) : OneInv m := by
  have hinit : OneInv (init cfg) :=
    ⟨hmulti, known_init cfg, Nat.zero_le 1, fun _ _ h => (by cases h), fun _ => Or.inl rfl⟩
  exact inv_run_along (fun _ _ _ hi ho hs => oneInv_step hi ho hs) hinit hrun (hok.and (along_of_forall hopen))

end ClientAux

/-- With `MultiStream` on, for any number of handlers and any schedule in which no `OpenStream` fails and no handler finds
`quicSession` nil while another one is dialling: at most one session is dialled, and every stream is opened on it. -/
theorem one_session (cfg : ClientConfig) (hmulti : cfg.multiStream = true) (as : List Act) (m : Client)
    (hrun : run step (init cfg) as = some m) (hopen : ∀ a ∈ as, ∀ c, a ≠ .handler c (.openStream false))
    (hok : Along step TestApart (init cfg) as) : OneSession m := by
  have hi := oneInv_run hmulti hrun hopen hok
  exact ⟨hi.one, hi.known.session⟩

/-- A handler opens its stream on the session it finds in `quicSession`. -/
def openExisting (c : ConnId) : List Act :=
  [.accept c webHeader, .handler c .test, .handler c .loadOpenStream, .handler c (.openStream true)]

/-- Steps that are no tests meet the condition. -/
theorem testApart_along {m : Client} {as : List Act} (h : ∀ a ∈ as, ∀ c, a ≠ .handler c .test) : Along step TestApart m as :=
  (along_of_forall h).mono fun _ _ hne c he => absurd he (hne c)

/-- Handler 1 comes when handler 0 has its stream, and shares its session. -/
theorem one_session_two :
    ∃ m, run step (init ⟨true, 3⟩) (dialStore 0 ++ openSync 0 ++ openExisting 1) = some m ∧ OneSession m := by
  refine ⟨_, rfl, one_session ⟨true, 3⟩ rfl (dialStore 0 ++ openSync 0 ++ openExisting 1) _ rfl ?_ ?_⟩
  · intro a ha c
    rintro rfl
    simp [dialStore, openSync, openExisting] at ha
  · refine along_append.mpr ⟨⟨fun _ he => (by cases he), fun m hm => ⟨?_, fun _ _ => testApart_along (by simp [openSync])⟩⟩, ?_⟩
    · -- the first test: there is no other handler
      cases hm
      intro c he _ d x hdc hx
      cases he
      rw [set_handlers, if_neg hdc] at hx
      cases hx
    · intro m hm
      refine ⟨fun _ he => (by cases he), fun m' hm' => ⟨?_, fun _ _ => testApart_along (by simp)⟩⟩
      -- the second test finds a session
      cases hm
      cases hm'
      intro c _ hq
      cases hq

/-- Handlers 0 and 1 both find `quicSession` nil: both dial, and their streams are on two sessions. -/
theorem one_session_lost :
    ∃ m, run step (init ⟨true, 3⟩) ([.accept 0 webHeader, .accept 1 webHeader, .handler 0 .test, .handler 1 .test,
        .handler 0 (.dialAddr true), .handler 1 (.dialAddr true), .handler 0 .store] ++ openSync 0 ++ [.handler 1 .store] ++
        openSync 1) = some m ∧
      m.sessions = 2 ∧ (m.handlers 0).map Handler.session = some (some 0) ∧
      (m.handlers 1).map Handler.session = some (some 1) ∧ ¬OneSession m := by
  refine ⟨_, rfl, rfl, rfl, rfl, ?_⟩
  intro h
  have hone := h.1
  revert hone
  decide

/-- The step meets the condition, no session fails in it, and no `OpenStream`. -/
def Undisturbed (m : Client) (a : Act) : Prop :=
  TestApart m a ∧ (∀ s, a ≠ .sessionFail s) ∧ ∀ c, a ≠ .handler c (.openStream false)

/-- The run can go on undisturbed to a state with more than one session. -/
def Breaks (m : Client) : Prop := ∃ bs m', run step m bs = some m' ∧ Along step Undisturbed m bs ∧ ¬OneSession m'

namespace ClientAux

theorem breaks_of_step {m m' : Client} {a : Act} (hs : m.step a = some m') (hok : Undisturbed m a) (h : Breaks m') :
    Breaks m := by
  obtain ⟨bs, m₁, hr, hal, hn⟩ := h
  refine ⟨a :: bs, m₁, run_cons_eq_some.mpr ⟨m', hs, hr⟩, ⟨hok, ?_⟩, hn⟩
  intro m₂ hm₂
  cases hs.symm.trans hm₂
  exact hal

/-- A handler makes a move that is neither a test nor the failure of an `OpenStream`. -/
theorem breaks_of_move {m : Client} {c : ConnId} {h h' : Handler} {a : HandlerAct} {q : Option SessionId} {n k : Nat}
    (hc : m.crashed = false) (hh : m.handlers c = some h) (hm : Move m h a h' q n k) (ht : a ≠ .test) (ho : a ≠ .openStream false)
    (hb : Breaks (m.moved c h' q n k)) : Breaks m := by
  refine breaks_of_step (step_of_move hc hh hm ht) ⟨?_, by simp, ?_⟩ hb
  · intro d he
    cases he
    exact absurd rfl ht
  · intro d he
    cases he
    exact absurd rfl ho

/-- A second session is dialled. -/
theorem breaks_of_second {m : Client} {c : ConnId} {h : Handler} {i : Nat} {failed : Bool} (hc : m.crashed = false)
    (hone : 1 ≤ m.sessions) (hh : m.handlers c = some h) (hpc : h.pc = .openQuicSession i failed)
    (hi : (i : Int) < m.cfg.connectionRetries) : Breaks m := by
  refine breaks_of_move hc hh (.dialled i failed hpc hi) (by simp) (by simp) ⟨[], _, rfl, trivial, ?_⟩
  intro hn
  exact absurd hn.1 (Nat.not_le.mpr (Nat.succ_lt_succ hone))

/-- A session was dialled, `quicSession` is nil again and nobody is dialling: the next connection dials a second session. -/
theorem breaks_of_lost {m : Client} (hc : m.crashed = false) (hr : 0 < m.cfg.connectionRetries) (hone : 1 ≤ m.sessions)
    (hq : m.quicSession = none) (hidle : ∀ d x, m.handlers d = some x → x.pc.dialling = false)
    (hfree : ∃ e, m.handlers e = none) : Breaks m := by
  obtain ⟨e, he⟩ := hfree
  let m₁ := m.set e (.start webHeader)
  let m₂ := m₁.set e { Handler.start webHeader with pc := .openQuicSession 0 false }
  have haccept : m.step (.accept e webHeader) = some m₁ := by simp [m₁, step, hc, he]
  have htest : m₁.step (.handler e .test) = some m₂ := by simp [m₁, m₂, step, handleTCPConn, set, Handler.start, hc, hq]
  refine breaks_of_step haccept ⟨by simp [TestApart], by simp, by simp⟩ ?_
  refine breaks_of_step htest ⟨?_, by simp, by simp⟩ ?_
  · intro d heq _
    cases heq
    intro d x hde hx
    rw [set_handlers, if_neg hde] at hx
    exact hidle d x hx
  · exact breaks_of_second (m := m₂) hc hone (by rw [set_handlers, if_pos rfl]) rfl hr

/-- A move accepts no connection. -/
theorem free_moved {m : Client} {c : ConnId} {h h' : Handler} {q : Option SessionId} {n k : Nat} (hh : m.handlers c = some h)
    (hfree : ∃ e, m.handlers e = none) : ∃ e, (m.moved c h' q n k).handlers e = none := by
  obtain ⟨e, he⟩ := hfree
  refine ⟨e, ?_⟩
  rw [moved_handlers, if_neg, he]
  rintro rfl
  cases hh.symm.trans he

/-- Handler `c` dials and stores its session, and handler `d` stores the nil of its failed dial behind it. -/
theorem breaks_of_failed {m : Client} {c d : ConnId} {h x : Handler} {failed : Bool} (hc : m.crashed = false)
    (hr : 0 < m.cfg.connectionRetries) (hh : m.handlers c = some h) (hpc : h.pc = .openQuicSession 0 false) (hdc : d ≠ c)
    (hx : m.handlers d = some x) (hxpc : x.pc = .assign none failed)
    (hidle : ∀ e y, e ≠ c → e ≠ d → m.handlers e = some y → y.pc.dialling = false) (hfree : ∃ e, m.handlers e = none) :
    Breaks m := by
  refine breaks_of_move hc hh (.dialled 0 false hpc hr) (by simp) (by simp) ?_
  have hdialled : ∀ g q n k, (m.moved c g q n k).handlers c = some g := fun g q n k => by rw [moved_handlers, if_pos rfl]
  refine breaks_of_move hc (hdialled _ _ _ _) (.stored (some m.sessions) false rfl) (by simp) (by simp) ?_
  have hother : ∀ g g' q n k q' n' k', ((m.moved c g q n k).moved c g' q' n' k').handlers d = some x := by
    intro g g' q n k q' n' k'
    rw [moved_handlers, if_neg hdc, moved_handlers, if_neg hdc, hx]
  refine breaks_of_move hc (hother _ _ _ _ _ _ _ _) (.stored none failed hxpc) (by simp) (by simp) ?_
  refine breaks_of_lost hc hr (Nat.succ_le_succ (Nat.zero_le _)) rfl ?_ ?_
  · refine forall_moved (Q := fun _ y => y.pc.dialling = false) (by cases failed <;> rfl) ?_
    intro e y hed hy
    rw [moved_handlers] at hy
    split at hy
    · cases hy
      rfl
    · rename_i hec
      rw [moved_handlers, if_neg hec] at hy
      exact hidle e y hec hed hy
  · exact free_moved (hother _ _ _ _ _ _ _ _) (free_moved (hdialled _ _ _ _) (free_moved hh hfree))

/-- There is always a connection that has not been accepted. -/
theorem exists_free {cfg : ClientConfig} {as : List Act} {m : Client} (hrun : run step (init cfg) as = some m) :
    ∃ c, m.handlers c = none := by
  have hstep : ∀ (m : Client) (a : Act) (m' : Client), (∃ k, ∀ c, k ≤ c → m.handlers c = none) → m.step a = some m' →
      ∃ k, ∀ c, k ≤ c → m'.handlers c = none := by
    rintro m a m' ⟨k, hk⟩ hs
    obtain ⟨-, ⟨c, header, -, -, rfl⟩ | ⟨s, -, -, rfl⟩ | ⟨c, ha, h, h', q, n, j, -, hh, -, rfl⟩ | ⟨c, ha, h, -, -, -, -, rfl⟩⟩ :=
      step_cases hs
    · refine ⟨max k (c + 1), ?_⟩
      intro d hd
      obtain ⟨hkd, hcd⟩ := Nat.max_le.mp hd
      rw [set_handlers, if_neg (Nat.ne_of_gt hcd)]
      exact hk d hkd
    · exact ⟨k, hk⟩
    · refine ⟨k, ?_⟩
      intro d hd
      rw [moved_handlers, if_neg, hk d hd]
      rintro rfl
      cases hh.symm.trans (hk d hd)
    · exact ⟨k, hk⟩
  obtain ⟨k, hk⟩ := inv_run hstep ⟨0, fun _ _ => rfl⟩ hrun
  exact ⟨k, hk k (Nat.le_refl k)⟩

/-- Handler `c` has just found `quicSession` nil, and handler `d` is dialling too. -/
theorem breaks_of_both {m : Client} {c d : ConnId} {h x : Handler} (hc : m.crashed = false) (hr : 0 < m.cfg.connectionRetries)
    (hknown : Known m) (hh : m.handlers c = some h) (hpc : h.pc = .openQuicSession 0 false) (hdc : d ≠ c)
    (hx : m.handlers d = some x) (hdial : x.pc.dialling = true)
    (hidle : ∀ e y, e ≠ c → e ≠ d → m.handlers e = some y → y.pc.dialling = false) (hfree : ∃ e, m.handlers e = none) :
    Breaks m := by
  -- handler `d` dials a session, has dialled one, or is going to store nil
  cases hxpc : x.pc with
  | openQuicSession i failed =>
    have hother : ∀ g q n k, (m.moved d g q n k).handlers c = some h := by
      intro g q n k
      rw [moved_handlers, if_neg (Ne.symm hdc), hh]
    by_cases hlt : (i : Int) < m.cfg.connectionRetries
    · refine breaks_of_move hc hx (.dialled i failed hxpc hlt) (by simp) (by simp) ?_
      exact breaks_of_second hc (Nat.succ_le_succ (Nat.zero_le _)) (hother _ _ _ _) hpc hr
    · refine breaks_of_move hc hx (.exhausted i failed hxpc hlt) (by simp) (by simp) ?_
      refine breaks_of_failed hc hr (hother _ _ _ _) hpc hdc (by rw [moved_handlers, if_pos rfl]) rfl ?_ (free_moved hx hfree)
      intro e y hec hed hy
      rw [moved_handlers, if_neg hed] at hy
      exact hidle e y hec hed hy
  | assign q failed =>
    cases q with
    | some s =>
      have hs : s < m.sessions := hknown.holds d x s hx (by simp only [Handler.Holds, hxpc])
      exact breaks_of_second hc (Nat.succ_le_of_lt (Nat.zero_lt_of_lt hs)) hh hpc hr
    | none => exact breaks_of_failed hc hr hh hpc hdc hx hxpc hidle hfree
  | _ => simp [Pc.dialling, hxpc] at hdial

end ClientAux

/-- The condition of `one_session` is needed: after the first step that does not meet it, the run can go on undisturbed
until a second session is dialled. -/
theorem overlap_breaks (cfg : ClientConfig) (hmulti : cfg.multiStream = true) (hr : 1 ≤ cfg.connectionRetries) (as : List Act)
    (m m' : Client) (a : Act) (hrun : run step (init cfg) as = some m) (hopen : ∀ a ∈ as, ∀ c, a ≠ .handler c (.openStream false))
    (hok : Along step TestApart (init cfg) as) (hbad : ¬TestApart m a) (hs : m.step a = some m') : Breaks m' := by
  have hi := oneInv_run hmulti hrun hopen hok
  simp only [TestApart, Classical.not_forall] at hbad
  obtain ⟨c, rfl, hq, hbad⟩ := hbad
  simp only [Alone, Classical.not_forall] at hbad
  obtain ⟨d, x, hdc, hx, hdial⟩ := hbad
  have hdial : x.pc.dialling = true := by simpa using hdial
  obtain ⟨-, hidle⟩ := hi.unset d x hx hdial
  obtain ⟨hc, h, hh, rfl⟩ := step_test hs
  have hr' : 0 < m.cfg.connectionRetries := by
    rw [cfg_run hrun]
    omega
  rw [if_neg fun hm => hm.2 hq] at hs ⊢
  refine breaks_of_both (c := c) (d := d) hc hr' (known_step hi.known hs) (by rw [set_handlers, if_pos rfl]) rfl hdc
    (by rw [set_handlers, if_neg hdc, hx]) hdial ?_ ?_
  · intro e y hec hed hy
    rw [set_handlers, if_neg hec] at hy
    exact hidle e y hed hy
  · exact free_moved (q := m.quicSession) (n := m.sessions) (k := m.streams) hh (exists_free hrun)

/-! ## What becomes of a session -/

/-- Another handler has stored the result of its dial after this one. -/
def Replaced (past : List Act) (c : ConnId) : Prop :=
  ∃ c', c' ≠ c ∧ [Act.handler c .store, Act.handler c' .store].Sublist past

/-- The handler has returned, with or without a stream. -/
def Handler.Returned (h : Handler) : Prop := h.pc = .returned ∨ ∃ n r, h.pc = .relay n (.returned r)

/-- The session was given up: after its dialler had stored it, another handler has replaced it; or it is no session for later
connections, and its dialler has returned. -/
def GivenUp (past : List Act) (m : Client) (s : SessionId) : Prop :=
  ∃ c h, m.handlers c = some h ∧ h.dialled = some s ∧ (Replaced past c ∨ m.cfg.multiStream = false ∧ h.Returned)

/-- A handler that stands there has not dialled yet. -/
def Pc.beforeDial : Pc → Bool
  | .entry | .openStream | .openingStream _ | .openQuicSession _ _ => true
  | _ => false

/-- The dialler of a session that nobody has replaced: until it has stored the session it holds it, then the session is in
`quicSession` and the handler finds it there. -/
def Handler.Keeps (h : Handler) (quicSession : Option SessionId) (s : SessionId) : Prop :=
  match h.pc with
  | .assign q _ => q = some s
  | .openStreamSync | .returned => quicSession = some s
  | .openingStreamSync t => t = s ∧ quicSession = some s
  | .relay _ _ => h.session = some s ∧ quicSession = some s
  | _ => False

/-- Every session has its dialler, which keeps it or was replaced. -/
structure Traced (past : List Act) (m : Client) : Prop where
  before : ∀ c h, m.handlers c = some h → h.pc.beforeDial = true → h.dialled = none
  dialler : ∀ s, s < m.sessions → ∃ c h, m.handlers c = some h ∧ h.dialled = some s ∧
    (h.Keeps m.quicSession s ∧ (h.pc.dialling = false → .handler c .store ∈ past) ∨ Replaced past c)
  failed : ∀ s, m.failed s = true ↔ .sessionFail s ∈ past

namespace ClientAux

theorem replaced_mono {past : List Act} {c : ConnId} (h : Replaced past c) (a : Act) : Replaced (past ++ [a]) c := by
  obtain ⟨c', hne, hsub⟩ := h
  exact ⟨c', hne, hsub.trans (List.sublist_append_left _ _)⟩

/-- A handler that has stored its session is replaced by the next one that stores. -/
theorem replaced_of_store {past : List Act} {c c' : ConnId} (h : .handler c .store ∈ past) (hne : c' ≠ c) :
    Replaced (past ++ [.handler c' .store]) c :=
  ⟨c', hne, (List.singleton_sublist.mpr h).append (List.Sublist.refl [Act.handler c' .store])⟩

/-- A handler does not go back in front of the dial. -/
theorem beforeDial_of_move {m : Client} {h h' : Handler} {a : HandlerAct} {q : Option SessionId} {n k : Nat}
    (hm : Move m h a h' q n k) (hb : h'.pc.beforeDial = true) : h.pc.beforeDial = true ∧ h'.dialled = h.dialled := by
  cases hm with
  | tryOpen hpc => exact ⟨by rw [hpc]; rfl, rfl⟩
  | noOpen hpc => exact ⟨by rw [hpc]; rfl, rfl⟩
  | load s hpc => exact ⟨by rw [hpc]; rfl, rfl⟩
  | refused s hpc => exact ⟨by rw [hpc]; rfl, rfl⟩
  | retry i failed hpc => exact ⟨by rw [hpc]; rfl, rfl⟩
  | stored session failed hpc => cases failed <;> cases hb
  | _ => cases hb

/-- The dialler of a session keeps it with its own moves; one that is no longer dialling has stored it. -/
theorem keeps_of_move {m : Client} {h h' : Handler} {a : HandlerAct} {q : Option SessionId} {n k : Nat} {s : SessionId}
    (hm : Move m h a h' q n k) (hk : h.Keeps m.quicSession s) :
    h'.Keeps q s ∧ (h'.pc.dialling = false → h.pc.dialling = false ∨ a = .store) := by
  cases hm with
  | stored session failed hpc =>
    simp only [Handler.Keeps, hpc] at hk
    cases failed <;> exact ⟨hk, fun _ => Or.inr rfl⟩
  | loadSync t hpc hq =>
    simp only [Handler.Keeps, hpc] at hk
    exact ⟨⟨Option.some.inj (hq.symm.trans hk), hk⟩, fun _ => Or.inl (by rw [hpc]; rfl)⟩
  | openedSync t hpc hlive =>
    simp only [Handler.Keeps, hpc] at hk
    exact ⟨⟨congrArg some hk.1, hk.2⟩, fun _ => Or.inl (by rw [hpc]; rfl)⟩
  | refusedSync t hpc =>
    simp only [Handler.Keeps, hpc] at hk
    exact ⟨hk.2, fun _ => Or.inl (by rw [hpc]; rfl)⟩
  | relayed st r r' io hpc hstep =>
    simp only [Handler.Keeps, hpc] at hk
    exact ⟨hk, fun _ => Or.inl (by rw [hpc]; rfl)⟩
  | _ =>
    -- a handler that stands there keeps no session
    simp [Handler.Keeps, *] at hk

/-- A dialler that has not stored its session keeps it whatever is in `quicSession`. -/
theorem keeps_of_dialling {h : Handler} {q q' : Option SessionId} {s : SessionId} (hk : h.Keeps q s)
    (hd : h.pc.dialling = true) : h.Keeps q' s := by
  unfold Handler.Keeps Pc.dialling at *
  split at hk <;> simp_all

/-- A dialler that nobody has replaced and that has not returned holds its session for the client; with `MultiStream` on the
session is there for later connections also when it has returned. -/
theorem held_of_keeps {m : Client} {c : ConnId} {h : Handler} {s : SessionId} (hh : m.handlers c = some h)
    (hk : h.Keeps m.quicSession s) : Held m s ∨ m.cfg.multiStream = false ∧ h.Returned := by
  have hreturned : m.quicSession = some s → h.Returned → Held m s ∨ m.cfg.multiStream = false ∧ h.Returned := by
    intro hq hr
    cases hmulti : m.cfg.multiStream with
    | true => exact Or.inl (Or.inl ⟨hmulti, hq⟩)
    | false => exact Or.inr ⟨rfl, hr⟩
  cases hpc : h.pc with
  | assign q failed => exact Or.inl (held_of_handler hh (by simpa only [Handler.Keeps, Handler.Holds, hpc] using hk))
  | openStreamSync =>
    simp only [Handler.Keeps, hpc] at hk
    exact Or.inl (Or.inr ⟨c, h, hh, Or.inr ⟨Or.inr hpc, hk⟩⟩)
  | openingStreamSync t =>
    simp only [Handler.Keeps, hpc] at hk
    exact Or.inl (held_of_handler hh (by simpa only [Handler.Holds, hpc] using hk.1))
  | returned =>
    simp only [Handler.Keeps, hpc] at hk
    exact hreturned hk (Or.inl hpc)
  | relay n r =>
    simp only [Handler.Keeps, hpc] at hk
    cases r with
    | returned r' => exact hreturned hk.2 (Or.inr ⟨n, r', hpc⟩)
    | header => exact Or.inl (held_of_handler hh (by simpa only [Handler.Holds, hpc] using hk.1))
    | wait r' => exact Or.inl (held_of_handler hh (by simpa only [Handler.Holds, hpc] using hk.1))
  | _ => simp [Handler.Keeps, hpc] at hk

/-- The dialler of a session that existed before a move still keeps it, or was replaced. -/
theorem dialler_moved {past : List Act} {m : Client} {c : ConnId} {h h' : Handler} {a : HandlerAct}
    {q : Option SessionId} {n k : Nat} (hi : Traced past m) (hh : m.handlers c = some h)
    (hm : Move m h a h' q n k) {s : SessionId} (hs : s < m.sessions) :
    ∃ d x, (m.moved c h' q n k).handlers d = some x ∧ x.dialled = some s ∧
      (x.Keeps q s ∧ (x.pc.dialling = false → .handler d .store ∈ past ++ [.handler c a]) ∨
        Replaced (past ++ [.handler c a]) d) := by
  obtain ⟨d, x, hx, hdial, hfate⟩ := hi.dialler s hs
  by_cases hdc : d = c
  · subst hdc
    cases hh.symm.trans hx
    have hdial' : h'.dialled = some s := by
      cases hm with
      | dialled i failed hpc => cases (hi.before d h hh (by rw [hpc]; rfl)).symm.trans hdial
      | _ => exact hdial
    refine ⟨d, h', by rw [moved_handlers, if_pos rfl], hdial', ?_⟩
    rcases hfate with ⟨hk, hstored⟩ | hr
    · obtain ⟨hk', hpast⟩ := keeps_of_move hm hk
      refine Or.inl ⟨hk', ?_⟩
      intro hidle
      rcases hpast hidle with hd | rfl
      · exact List.mem_append_left _ (hstored hd)
      · exact List.mem_append_right _ (List.mem_singleton.mpr rfl)
    · exact Or.inr (replaced_mono hr _)
  · refine ⟨d, x, by rw [moved_handlers, if_neg hdc, hx], hdial, ?_⟩
    rcases hfate with ⟨hk, hstored⟩ | hr
    · cases hd : x.pc.dialling with
      | true => exact Or.inl ⟨keeps_of_dialling hk hd, fun he => by cases he⟩
      | false =>
        cases hm with
        | stored session failed hpc => exact Or.inr (replaced_of_store (hstored hd) (Ne.symm hdc))
        | _ => exact Or.inl ⟨hk, fun _ => List.mem_append_left _ (hstored hd)⟩
    · exact Or.inr (replaced_mono hr _)

/-- Every step keeps the sessions traced. -/
theorem traced_step (past : List Act) (m : Client) (a : Act) (m' : Client) (hi : Traced past m) (hs : m.step a = some m') :
    Traced (past ++ [a]) m' := by
  have hmem : ∀ {b : Act}, b ≠ a → (b ∈ past ++ [a] ↔ b ∈ past) := by
    intro b hb
    simp [hb]
  have hkept : ∀ s, s < m.sessions → ∃ c h, m.handlers c = some h ∧ h.dialled = some s ∧
      (h.Keeps m.quicSession s ∧ (h.pc.dialling = false → .handler c .store ∈ past ++ [a]) ∨ Replaced (past ++ [a]) c) := by
    intro s hs
    obtain ⟨c, h, hh, hdial, hfate⟩ := hi.dialler s hs
    refine ⟨c, h, hh, hdial, ?_⟩
    rcases hfate with ⟨hk, hstored⟩ | hr
    · exact Or.inl ⟨hk, fun hd => List.mem_append_left _ (hstored hd)⟩
    · exact Or.inr (replaced_mono hr a)
  obtain ⟨-, ⟨c, header, rfl, hnew, rfl⟩ | ⟨t, rfl, -, rfl⟩ | ⟨c, ha, h, h', q, n, k, rfl, hh, hm, rfl⟩ |
    ⟨c, ha, h, rfl, -, -, -, rfl⟩⟩ := step_cases hs
  · refine ⟨forall_set (fun _ => rfl) fun c' x _ => hi.before c' x, ?_, ?_⟩
    · intro s hs
      obtain ⟨d, x, hx, hrest⟩ := hkept s hs
      refine ⟨d, x, ?_, hrest⟩
      rw [set_handlers, if_neg, hx]
      rintro rfl
      cases hnew.symm.trans hx
    · intro s
      rw [hmem (by simp)]
      exact hi.failed s
  · refine ⟨hi.before, hkept, ?_⟩
    intro s
    by_cases hst : s = t
    · subst hst
      simp
    · rw [hmem (by simpa using hst)]
      simp only [Function.update_of_ne hst]
      exact hi.failed s
  · refine ⟨?_, ?_, ?_⟩
    · refine forall_moved ?_ fun c' x _ => hi.before c' x
      intro hb
      obtain ⟨hb', hd⟩ := beforeDial_of_move hm hb
      exact hd.trans (hi.before c h hh hb')
    · intro s hlt
      by_cases hold : s < m.sessions
      · exact dialler_moved hi hh hm hold
      · cases hm with
        | dialled i failed hpc =>
          obtain rfl : s = m.sessions := Nat.le_antisymm (Nat.le_of_lt_succ hlt) (Nat.not_lt.mp hold)
          refine ⟨c, _, by rw [moved_handlers, if_pos rfl], rfl, Or.inl ⟨?_, fun he => by cases he⟩⟩
          rfl
        | _ => exact absurd hlt hold
    · intro s
      rw [hmem (by simp)]
      exact hi.failed s
  · refine ⟨hi.before, hkept, ?_⟩
    intro s
    rw [hmem (by simp)]
    exact hi.failed s

/-- A session that nothing holds is not held after a step either. -/
theorem unheld_step {m m' : Client} {a : Act} {s : SessionId} (hi : s < m.sessions ∧ ¬Held m s) (hs : m.step a = some m') :
    s < m'.sessions ∧ ¬Held m' s :=
  ⟨Nat.lt_of_lt_of_le hi.1 (sessions_mono hs), fun hheld => hi.2 (held_of_step hs hheld hi.1)⟩

end ClientAux

/-- In every state of the client, in either mode, for any number of connections and any schedule: a session that was dialled
is there for later connections, or a handler that is still running uses it or is about to, or it was given up. It is live
until it fails: no step closes it. Once nothing holds it, nothing ever will. -/
theorem session_held_or_given_up (cfg : ClientConfig) (as : List Act) (m : Client) (hrun : run step (init cfg) as = some m)
    (s : SessionId) (hs : s < m.sessions) :
    (Held m s ∨ GivenUp as m s) ∧ (m.failed s = true ↔ .sessionFail s ∈ as) ∧
    (¬Held m s → ∀ bs m', run step m bs = some m' → ¬Held m' s) := by
  have hinit : Traced [] (init cfg) :=
    ⟨fun _ _ h => (by cases h), fun _ h => absurd h (Nat.not_lt_zero _), fun _ => by simp [init]⟩
  have hi : Traced ([] ++ as) m := inv_run_past Traced traced_step hinit hrun
  rw [List.nil_append] at hi
  refine ⟨?_, hi.failed s, ?_⟩
  · obtain ⟨c, h, hh, hdial, hfate⟩ := hi.dialler s hs
    rcases hfate with ⟨hk, -⟩ | hr
    · rcases held_of_keeps hh hk with hheld | hret
      · exact Or.inl hheld
      · exact Or.inr ⟨c, h, hh, hdial, Or.inr hret⟩
    · exact Or.inr ⟨c, h, hh, hdial, Or.inl hr⟩
  · intro hn bs m' hr
    exact (inv_run (fun _ _ _ hi hs => unheld_step hi hs) (And.intro hs hn) hr).2

/-- Both goroutines of a handler find the end of what they copy, and the handler returns. -/
def relayAll (c : ConnId) : List Act :=
  [.writeHeader 14 none, .loop .streamTCPtoQUIC (.io (.read [] (some .EOF))), .loop .streamTCPtoQUIC .close,
    .loop .streamQUICtoTCP (.io (.read [] (some .EOF))), .loop .streamQUICtoTCP .close, .close].map
    fun io => .handler c (.relay io)

/-- In single-stream mode a connection comes and goes, and then another one comes. -/
def oneAfterAnother : List Act := dialStore 0 ++ openSync 0 ++ relayAll 0 ++ dialStore 1 ++ openSync 1

/-- What becomes of the sessions of both. -/
theorem session_held_or_given_up_two : ∃ m, run step (init ⟨false, 3⟩) oneAfterAnother = some m ∧ m.quicSession = some 1 ∧
    ∀ s, s = 0 ∨ s = 1 → (Held m s ∨ GivenUp oneAfterAnother m s) ∧ (m.failed s = true ↔ .sessionFail s ∈ oneAfterAnother) ∧
      (¬Held m s → ∀ bs m', run step m bs = some m' → ¬Held m' s) := by
  refine ⟨_, rfl, rfl, ?_⟩
  rintro s (rfl | rfl)
  · exact session_held_or_given_up ⟨false, 3⟩ oneAfterAnother _ rfl 0 (by decide)
  · exact session_held_or_given_up ⟨false, 3⟩ oneAfterAnother _ rfl 1 (by decide)

/-- When the only connection has returned, its session is live, and nothing holds it. -/
theorem session_left_behind :
    ∃ m, run step (init ⟨false, 3⟩) (dialStore 0 ++ openSync 0 ++ relayAll 0) = some m ∧
      0 < m.sessions ∧ m.failed 0 = false ∧ ¬Held m 0 := by
  refine ⟨_, rfl, by decide, rfl, ?_⟩
  rintro (⟨hmulti, -⟩ | ⟨c, h, hh, hholds⟩)
  · cases hmulti
  · by_cases hc : c = 0
    · subst hc
      cases hh
      rcases hholds with hx | ⟨hx | hx, -⟩
      · exact hx
      · cases hx
      · cases hx
    · simp [init, set, openOn, hc] at hh

namespace ClientAux

/-- A step keeps the dials that report an error without a session to store. -/
theorem failed_nil_step {m m' : Client} {a : Act} (hi : ∀ c h q, m.handlers c = some h → h.pc = .assign q true → q = none)
    (hs : m.step a = some m') : ∀ c h q, m'.handlers c = some h → h.pc = .assign q true → q = none := by
  obtain ⟨-, ⟨c, header, rfl, -, rfl⟩ | ⟨s, rfl, -, rfl⟩ | ⟨c, ha, h, h', q, n, k, rfl, hh, hm, rfl⟩ |
    ⟨c, ha, h, rfl, -, -, -, rfl⟩⟩ := step_cases hs
  · intro d x q hx
    exact forall_set (Q := fun _ x => x.pc = .assign q true → q = none) (fun he => by cases he)
      (fun e y _ hy => hi e y q hy) d x hx
  · exact hi
  · intro d x r hx
    refine forall_moved (Q := fun _ x => x.pc = .assign r true → r = none) ?_ (fun e y _ hy => hi e y r hy) d x hx
    intro he
    cases hm with
    | stored session failed hpc => cases failed <;> cases he
    | dialled i failed hpc hi' => cases he
    | exhausted i failed hpc hi' =>
      cases he
      rfl
    | _ => cases he
  · exact hi

end ClientAux

end Client

/-! ## A failed dial -/

namespace World

open Client.ClientAux WorldAux

/-- When the step stores the result of a dial that has failed, `quicSession` keeps its value, and all that happens is that
the handler returns and its TCP connection is closed. -/
def KeepsSession (w : World) (a : Act) : Prop :=
  ∀ c h q, a = .client (.handler c .store) → w.client.handlers c = some h → h.pc = .assign q true → ∀ w', w.step a = some w' →
    w'.client.quicSession = w.client.quicSession ∧
    w' = { w with client := w.client.set c { h with pc := .returned }, apps := Function.update w.apps c (w.apps c).close }

/-- When the step stores the result of a dial that has failed, `quicSession` is nil already. -/
def NilAtFailure (w : World) (a : Act) : Prop :=
  ∀ c h q, a = .client (.handler c .store) → w.client.handlers c = some h → h.pc = .assign q true → w.client.quicSession = none

/-- A dial that reports an error has no session to store. -/
def FailedNil (w : World) : Prop := ∀ c h q, w.client.handlers c = some h → h.pc = .assign q true → q = none

namespace WorldAux

/-- What storing the result of a failed dial does. -/
theorem step_failed_store {w w' : World} {c : ConnId} {h : Client.Handler} (hh : w.client.handlers c = some h)
    (hpc : h.pc = .assign none true) (hs : w.step (.client (.handler c .store)) = some w') :
    w' = { w with
      client := { w.client.set c { h with pc := .returned } with quicSession := none }
      apps := Function.update w.apps c (w.apps c).close } := by
  obtain ⟨m, hm, rfl⟩ := Option.map_eq_some_iff.mp hs
  have hrunning := (handler_some hm).1
  cases step_store hh hpc hm
  simp [after, Client.moved, Client.set, hrunning]

/-- Storing the result of a failed dial keeps `quicSession` exactly if it is nil. -/
theorem keepsSession_iff {w w' : World} {a : Act} (hi : FailedNil w) (hs : w.step a = some w') :
    KeepsSession w a ↔ NilAtFailure w a := by
  constructor
  · rintro hk c h q rfl hh hpc
    cases hi c h q hh hpc
    rw [← (hk c h none rfl hh hpc w' hs).1, step_failed_store hh hpc hs]
  · rintro hn c h q rfl hh hpc w₁ hs₁
    have hq := hn c h q rfl hh hpc
    cases hi c h q hh hpc
    have hw := step_failed_store hh hpc hs₁
    rw [hw]
    refine ⟨hq.symm, ?_⟩
    simp [Client.set, hq]

theorem failedNil_step {w w' : World} {a : Act} (hi : FailedNil w) (hs : w.step a = some w') : FailedNil w' := by
  rcases client_of_step hs with he | ⟨b, hb⟩
  · intro c h q hh
    exact hi c h q (he ▸ hh)
  · exact failed_nil_step hi hb

end WorldAux

/-- In any run of any number of connections, every handler whose dial fails leaves `quicSession` as it is and does nothing
else than close its TCP connection, exactly if `quicSession` is nil whenever the result of a failed dial is stored. -/
theorem failed_dial_keeps_iff (cfg : ClientConfig) (as : List Act) (w : World) (hrun : run step (init cfg) as = some w) :
    Along step KeepsSession (init cfg) as ↔ Along step NilAtFailure (init cfg) as := by
  have hinit : FailedNil (init cfg) := fun _ _ _ h => by cases h
  exact along_iff_along (fun _ _ _ hi hs => failedNil_step hi hs) (fun _ _ _ hi hs => keepsSession_iff hi hs) hinit hrun

/-- All dials of handler 0 fail, and it stores that while handler 1 has dialled a session and not stored it yet; then
handler 1 stores it. -/
def failBefore : List Act :=
  [.accept 0 webHeader, .accept 1 webHeader, .handler 0 .test, .handler 1 .test, .handler 0 (.dialAddr false),
    .handler 0 (.dialAddr false), .handler 0 (.dialAddr false), .handler 0 .giveUp, .handler 1 (.dialAddr true),
    .handler 0 .store, .handler 1 .store].map .client

/-- The equivalence in a run of two connections. -/
theorem failed_dial_keeps_iff_two : ∃ w, run step (init ⟨true, 3⟩) failBefore = some w ∧ w.client.quicSession = some 0 ∧
    (Along step KeepsSession (init ⟨true, 3⟩) failBefore ↔ Along step NilAtFailure (init ⟨true, 3⟩) failBefore) :=
  ⟨_, rfl, rfl, failed_dial_keeps_iff ⟨true, 3⟩ failBefore _ rfl⟩

/-- Two handlers find `quicSession` nil; handler 0 dials a session and stores it, all dials of handler 1 fail. -/
def failBeside : List Act :=
  [.accept 0 webHeader, .accept 1 webHeader, .handler 0 .test, .handler 1 .test, .handler 0 (.dialAddr true), .handler 0 .store,
    .handler 1 (.dialAddr false), .handler 1 (.dialAddr false), .handler 1 (.dialAddr false), .handler 1 .giveUp].map .client

/-- Handler 1 discards the live session of handler 0. -/
theorem failed_dial_discards :
    ∃ w w', run step (init ⟨true, 3⟩) failBeside = some w ∧ w.client.quicSession = some 0 ∧ w.client.failed 0 = false ∧
      (w.client.handlers 1).map Client.Handler.pc = some (.assign none true) ∧
      w.step (.client (.handler 1 .store)) = some w' ∧ w'.client.quicSession = none ∧
      ¬KeepsSession w (.client (.handler 1 .store)) := by
  refine ⟨_, _, rfl, rfl, rfl, rfl, rfl, rfl, ?_⟩
  intro hk
  have hq := (hk 1 _ none rfl rfl rfl _ rfl).1
  cases hq

end World

end Qpep
