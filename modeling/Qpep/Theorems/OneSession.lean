import Qpep.Lemmas.Opening

/-!
# One session is enough

As long as nothing fails and no connection is dropped, the connections could all have been relayed over a single session, up
to the number of streams that a session can have: for every run there is one with `MultiStream` on that dials at most once,
in which every connection does and sees the same (`one_session_suffices`).

The handlers of the second run wait until their counterparts get their streams. Then the first one dials, and each later one
finds that session in `quicSession`. The second server accepts the streams in their order, and so sooner than the first one
at times.
-/

namespace Qpep

open Machine

namespace World

open WorldAux AlikeAux Client.ClientAux

/-- No connection has been dropped for want of a stream, no session has failed, and the client has not crashed. -/
structure Unharmed (w : World) : Prop where
  kept : ∀ c x, w.client.handlers c = some x → x.pc ≠ .returned
  live : ∀ s, w.client.failed s = false
  running : w.client.crashed = false

/-- The client has dialled once, or not at all; no session has failed, every stream is on the first one, and they are
accepted in their order. -/
structure OneSession (s : Sessions) : Prop where
  multiStream : s.cfg.multiStream = true
  dialled : s.sessions = 0 ∧ s.quicSession = none ∨ s.sessions = 1 ∧ s.quicSession = some 0
  live : ∀ p, s.failed p = false
  onFirst : ∀ n, n < s.streams → s.session n = 0 ∧ 0 < s.sessions
  turns : ∃ k, ∀ n, s.streamAccepted n = true ↔ n < k
  ready : s.Ready

/-- The second world does on one session what the first one does. -/
structure Bundles (w w' : World) : Prop where
  alike : Alike w w'
  one : OneSession w'.sessionsOf
  retries : w'.client.cfg.connectionRetries = w.client.cfg.connectionRetries

/-- The second world can follow the first one. -/
def Bundled (w₁ w' : World) : Prop := ∃ bs w₁', Leads w' bs w₁' ∧ Bundles w₁ w₁'

namespace OneSessionAux

variable {w w' w₁ : World}

/-- A connection that has been dropped stays dropped, and a session that has failed stays so. -/
theorem unharmed_step {a : Act} (hs : w.step a = some w₁) (h : Unharmed w₁) : Unharmed w := by
  have hrunning := running_step hs h.running
  rcases client_of_step hs with he | ⟨b, hb⟩
  · exact ⟨he ▸ h.kept, he ▸ h.live, hrunning⟩
  · obtain ⟨hkept, hlive, -⟩ := h
    obtain ⟨-, ⟨c', header, -, hnone, he⟩ | ⟨t, -, -, he⟩ | ⟨c', ha, y, y', q, k, n, -, hy, hm, he⟩ |
      ⟨c', ha, y, -, -, -, -, he⟩⟩ :=
      step_cases hb
    · rw [he] at hkept hlive
      refine ⟨?_, hlive, hrunning⟩
      intro c x hx
      have hne : c ≠ c' := fun hc => by cases (hc ▸ hnone).symm.trans hx
      exact hkept c x (by rw [set_handlers, if_neg hne, hx])
    · rw [he] at hlive
      exact absurd (hlive t) (by simp)
    · rw [he] at hkept hlive
      refine ⟨?_, hlive, hrunning⟩
      intro c x hx hpc
      have hne : c ≠ c' := by
        rintro rfl
        cases hx.symm.trans hy
        cases hm <;> simp_all
      exact hkept c x (by rw [moved_handlers, if_neg hne, hx]) hpc
    · rw [he] at hkept hlive
      exact ⟨hkept, hlive, hrunning⟩

/-- The streams that were opened stay opened. -/
theorem streams_le_step {a : Act} (hs : w.step a = some w₁) : w.client.streams ≤ w₁.client.streams := by
  rcases client_of_step hs with he | ⟨b, hb⟩
  · exact Nat.le_of_eq (congrArg Client.streams he).symm
  · exact streams_mono hb

/-! ## A handler gets its stream -/

/-- A stream is opened on the first session. -/
theorem onFirst_opened {s : Sessions} (h : OneSession s) {channels : StreamId → Channel}
    (hsession : s.session = fun n => (channels n).session) (n : StreamId) (hn : n < s.streams + 1) :
    (Function.update channels s.streams (.fresh 0) n).session = 0 := by
  by_cases he : n = s.streams
  · simp [he, Channel.fresh]
  · have hold := (h.onFirst n (Nat.lt_of_le_of_ne (Nat.le_of_lt_succ hn) he)).1
    rw [hsession] at hold
    simpa only [Function.update_of_ne he] using hold

/-- A handler opens its stream on the first session, which it dials if nobody has. -/
theorem leads_openFirst (hone : OneSession w.sessionsOf) (hretries : 0 < w.client.cfg.connectionRetries)
    (hroom : w.client.streams < maxIncomingStreams) {c : ConnId} {x : Client.Handler} (hc : w.client.crashed = false)
    (hx : w.client.handlers c = some x) (hpc : x.pc = .entry) :
    ∃ bs x' s', x'.header = x.header ∧ x'.pc = .relay w.client.streams .header ∧ s'.streams = w.server.streams ∧
      Leads w bs { w with
        client := w.client.moved c x' (some 0) 1 (w.client.streams + 1)
        server := s'
        channels := Function.update w.channels w.client.streams (.fresh 0) } ∧
      OneSession (World.sessionsOf ⟨w.client.moved c x' (some 0) 1 (w.client.streams + 1), s', w.apps,
        Function.update w.channels w.client.streams (.fresh 0)⟩) := by
  have hlive : ∀ p, w.client.failed p = false := hone.live
  have hfirst := onFirst_opened hone rfl
  rcases hone.dialled with ⟨hsessions, hq⟩ | ⟨hsessions, hq⟩
  · replace hsessions : w.client.sessions = 0 := hsessions
    replace hq : w.client.quicSession = none := hq
    have hnone : ∀ n, n < w.client.streams → (w.channels n).session ≠ w.client.sessions := fun n hn =>
      absurd (hone.onFirst n hn).2 (Nat.not_lt.mpr hsessions.le)
    obtain ⟨bs, x', hheader, hpc', hleads⟩ := leads_dial hone.ready hnone (hlive _) hretries hc hx hpc (by simp [hq])
    have hready := ready_accepting hone.ready (c := c) (x := x') (q := some 0) (n := w.client.streams + 1)
      (Function.update w.channels w.client.streams (.fresh 0))
    simp only [hsessions, Nat.zero_add] at hleads hready
    exact ⟨bs, x', accepting w.server 0, hheader, hpc', rfl, hleads,
      ⟨hone.multiStream, Or.inr ⟨rfl, rfl⟩, hone.live, fun n hn => ⟨hfirst n hn, Nat.one_pos⟩, hone.turns, hready⟩⟩
  · replace hsessions : w.client.sessions = 1 := hsessions
    replace hq : w.client.quicSession = some 0 := hq
    obtain ⟨bs, x', hheader, hpc', hleads⟩ := leads_find hc hx hpc hone.multiStream hq (hlive 0) hroom
    rw [hq, hsessions] at hleads
    exact ⟨bs, x', w.server, hheader, hpc', rfl, hleads,
      ⟨hone.multiStream, Or.inr ⟨rfl, rfl⟩, hone.live, fun n hn => ⟨hfirst n hn, Nat.one_pos⟩, hone.turns,
        hone.ready.same rfl rfl hsessions.symm rfl⟩⟩

/-- A step of a handler that is getting a stream is followed when it has got one. -/
theorem bundled_handler (hi : Settled w) {c : ConnId} {a : Client.HandlerAct} (h : Bundles w w')
    (hs : w.clientStep (.handler c a) = some w₁) (hend : Unharmed w₁) (hroom : w₁.client.streams ≤ maxIncomingStreams) :
    Bundled w₁ w' := by
  obtain ⟨hc, x, hx, ⟨x', q, k, n, hm, hno, rfl⟩ | ⟨-, -, rfl⟩⟩ := handlerStep_cases hs
  · obtain ⟨y, hy, hheader, hcounter⟩ := handler_of_alike h.alike hx
    obtain ⟨ho, hheader', houtcome⟩ := outcome_of_move hi hx hm hno
    have hpc := entry_of_counterpart hcounter ho
    rcases houtcome with ⟨ho', rfl⟩ | ⟨hretries, ⟨hreturned, rfl⟩ | ⟨s, rfl, rfl, -⟩⟩
    · rw [after_opening (moved_handlers_self _ _ _ _ _ _) hc ho']
      exact ⟨[], w', .nil, alike_waited h.alike hy (hheader.trans hheader'.symm) hpc ho', h.one, h.retries⟩
    · rw [after_returned (moved_handlers_self _ _ _ _ _ _) hc hreturned] at hend
      exact absurd hreturned (hend.kept c x' (moved_handlers_self _ _ _ _ _ _))
    · rw [after_opened (moved_handlers_self _ _ _ _ _ _) hc rfl rfl] at hend hroom ⊢
      have hroom' : w'.client.streams < maxIncomingStreams := h.alike.streams ▸ hroom
      obtain ⟨bs, y', s', hheader₁, hpc₁, hs', hleads, hone⟩ :=
        leads_openFirst h.one (h.retries ▸ hretries) hroom' h.alike.running hy hpc
      have hlive : w'.client.failed 0 = w.client.failed s := (h.one.live 0).trans (hend.live s).symm
      exact ⟨bs, _, hleads, alike_opened h.alike (hheader₁.trans hheader) rfl hpc₁ hlive hs', hone, h.retries⟩
  · cases hend.running

/-! ## The server -/

/-- The server accepts the next streams in their order (induction on their number). -/
theorem leads_acceptNext (hone : OneSession w.sessionsOf) {k : Nat} (hk : ∀ m, w.server.streams m ≠ none ↔ m < k) {d : Nat}
    (hd : k + d ≤ w.client.streams) :
    ∃ bs s', Leads w bs { w with server := s' } ∧ (∀ m, s'.streams m ≠ none ↔ m < k + d) ∧
      (∀ m, World.serving { w with server := s' } m = w.serving m) ∧
      (World.sessionsOf { w with server := s' }).Ready := by
  induction d with
  | zero => exact ⟨[], w.server, .nil, hk, fun _ => rfl, hone.ready⟩
  | succ d ih =>
    obtain ⟨bs, s, hleads, haccepted, hserving, hready⟩ := ih (Nat.le_of_succ_le hd)
    have hfirst : ∀ m, m < w.client.streams → (w.channels m).session = 0 ∧ 0 < w.client.sessions := hone.onFirst
    have hn : k + d < w.client.streams := hd
    have hnone : s.streams (k + d) = none := by
      by_cases h : s.streams (k + d) = none
      · exact h
      · exact absurd ((haccepted _).mp h) (Nat.lt_irrefl _)
    obtain ⟨bs', hleads'⟩ := leads_acceptStream (w := { w with server := s }) hready hn ((hfirst _ hn).1 ▸ (hfirst _ hn).2) hnone
      fun m hm _ => (haccepted m).mpr hm
    have hnext := serving_accepted (w := { w with server := s })
      (s := acceptingStream s (k + d) (w.channels (k + d)).session) hnone rfl
    refine ⟨bs ++ bs', _, hleads.trans hleads', ?_, fun m => (hnext m).trans (hserving m), hready.same rfl rfl rfl rfl⟩
    intro m
    by_cases hm : m = k + d
    · simp [acceptingStream, hm, ← Nat.add_assoc]
    · simp only [acceptingStream, Function.update_of_ne hm, haccepted m, ← Nat.add_assoc]
      exact ⟨Nat.lt_succ_of_lt, fun hlt => (Nat.lt_succ_iff_lt_or_eq.mp hlt).resolve_right hm⟩

/-- A step of the server is followed when it accepts a stream that the second server has not accepted. -/
theorem bundled_server (h : Bundles w w') {b : Server.Act} (hs : w.serverStep b = some w₁) : Bundled w₁ w' := by
  obtain ⟨hno, hopened, s, hstep, rfl⟩ := server_of_serverStep hs
  rcases Server.ServerAux.streams_of_step hstep with ⟨-, hst⟩ | ⟨i, n, session, rfl, hnone, hst⟩ | ⟨n, io, _, _, rfl, -⟩
  · refine ⟨[], w', .nil, alike_serve h.alike (fun n => by simp only [serving, hst]) (fun _ => rfl) ?_, h.one, h.retries⟩
    simpa only [hst] using h.alike.accepted
  · have hserving := serving_accepted hnone hst
    obtain ⟨k, hk⟩ := h.one.turns
    replace hk : ∀ m, w'.server.streams m ≠ none ↔ m < k := fun m => Option.isSome_iff_ne_none.symm.trans (hk m)
    rcases Nat.lt_or_ge n k with hlt | hge
    · refine ⟨[], w', .nil, alike_serve h.alike hserving (fun _ => rfl) ?_, h.one, h.retries⟩
      exact accepted_more h.alike.accepted hst fun m hm => hm.elim (fun he => he ▸ (hk n).mpr hlt) id
    · have hn : n < w'.client.streams := h.alike.streams ▸ hopened i n rfl
      obtain ⟨d, hd⟩ : ∃ d : Nat, k + d = n + 1 := ⟨_, Nat.add_sub_cancel' (Nat.le_succ_of_le hge)⟩
      obtain ⟨bs, s', hleads, haccepted, hserving', hready⟩ := leads_acceptNext h.one hk (hd.trans_le hn)
      rw [hd] at haccepted
      refine ⟨bs, _, hleads, alike_serve h.alike hserving hserving' ?_, { h.one with turns := ⟨n + 1, ?_⟩, ready := hready },
        h.retries⟩
      · refine accepted_more h.alike.accepted hst fun m hm => (haccepted m).mpr ?_
        rcases hm with rfl | hm
        · exact Nat.lt_succ_self m
        · exact Nat.lt_of_lt_of_le ((hk m).mp hm) (Nat.le_succ_of_le hge)
      · exact fun m => Option.isSome_iff_ne_none.trans (haccepted m)
  · exact absurd rfl (hno n io)

/-- Every step of a run that ends unharmed can be followed on one session. -/
theorem answers_bundles : Answers step Settled (fun w => Unharmed w ∧ w.client.streams ≤ maxIncomingStreams) step
    (fun w a => w.permits a = true) Act.sessionless Bundles where
  keeps _ _ _ := settled_step
  back w a w₁ hs h := ⟨unharmed_step hs h.1, (streams_le_step hs).trans h.2⟩
  counted w a w₁ w' hi _ h ha hs := by
    obtain ⟨w₁', hs', halike', hsame, hsame'⟩ := alike_step h.alike hi.owned ha hs
    have hcfg : w₁.client.cfg = w.client.cfg := congrArg Sessions.cfg hsame
    have hcfg' : w₁'.client.cfg = w'.client.cfg := congrArg Sessions.cfg hsame'
    exact ⟨w₁', .one (permits_of_sessionless ha w') hs', halike', hsame' ▸ h.one, by rw [hcfg, hcfg']; exact h.retries⟩
  other w a w₁ w' hi hend h ha hs := by
    have hfollowed : Bundled w₁ w' := by
      cases a with
      | client b =>
        cases b with
        | accept c header => cases ha
        | sessionFail t =>
          obtain ⟨m, hm, rfl⟩ := Option.map_eq_some_iff.mp hs
          obtain ⟨-, rfl⟩ := sessionFail_some hm
          exact absurd (hend.1.live t) (by simp)
        | handler c a => exact bundled_handler hi h hs hend.1 hend.2
      | server b => exact bundled_server h hs
      | _ => cases ha
    obtain ⟨bs, w₁', hleads, hbundles⟩ := hfollowed
    exact ⟨bs, w₁', hleads.1, hleads.2, hbundles⟩

end OneSessionAux

open OneSessionAux

/-- For every run that has opened no more streams than a session can have and in which no session fails, no connection is
dropped and the client does not crash, in either mode, there is a run with `MultiStream` on that dials one session at most.
It consists otherwise of the same steps, and quic-go makes each of them; the endpoints of every connection see the same of
both runs, and in the end every connection stands where it stands after the first one. -/
theorem one_session_suffices (retries : Int) (b : Bool) (as : List Act) (w : World)
    (hrun : run step (World.init ⟨b, retries⟩) as = some w) (hw : Unharmed w) (hroom : w.client.streams ≤ maxIncomingStreams) :
    ∃ as' w', run step (World.init ⟨true, retries⟩) as' = some w' ∧
      Along step (fun w a => w.permits a = true) (World.init ⟨true, retries⟩) as' ∧ w'.client.sessions ≤ 1 ∧ Unharmed w' ∧
      as'.filter Act.sessionless = as.filter Act.sessionless ∧
      (∀ c, trace step (visible c) (World.init ⟨true, retries⟩) as' = trace step (visible c) (World.init ⟨b, retries⟩) as) ∧
      ∀ c, w'.view c = w.view c := by
  have hinit := settled_init ⟨b, retries⟩
  have hstart : Bundles (World.init ⟨b, retries⟩) (World.init ⟨true, retries⟩) := by
    refine ⟨⟨rfl, rfl, fun _ => .none, rfl, fun _ => rfl, ?_, fun _ => rfl, fun _ h => absurd rfl h⟩,
      ⟨rfl, Or.inl ⟨rfl, rfl⟩, fun _ => rfl, ?_, ⟨0, fun n => ?_⟩, ?_⟩, rfl⟩
    · exact fun n hn => absurd hn (Nat.not_lt_zero n)
    · exact fun n hn => absurd hn (Nat.not_lt_zero n)
    · exact ⟨fun h => (by cases h), fun h => absurd h (Nat.not_lt_zero n)⟩
    · exact ⟨rfl, fun p hp => absurd hp (Nat.not_lt_zero p), fun _ _ => rfl⟩
  obtain ⟨as', w', hleads, hsame, htrace, h⟩ := answers_bundles.run (fun c w a w' h _ => visible_alike h.alike c a)
    (fun c a ha => ⟨unseen ha c, unseen ha c⟩) hinit hstart hrun ⟨hw, hroom⟩
  have hsettled := inv_run (fun _ _ _ => settled_step) hinit hrun
  have hview := view_alike h.alike hsettled.owned
  refine ⟨as', w', hleads.1, hleads.2, ?_, ⟨?_, h.one.live, h.alike.running⟩, hsame, htrace, hview⟩
  · rcases h.one.dialled with ⟨hs, -⟩ | ⟨hs, -⟩
    · exact Nat.le_trans (Nat.le_of_eq hs) (Nat.zero_le 1)
    · exact Nat.le_of_eq hs
  · intro c x' hx' hpc'
    obtain ⟨x, hx⟩ := Option.ne_none_iff_exists'.mp fun hnone => by cases ((no_handler_of_alike h.alike).mpr hnone).symm.trans hx'
    obtain ⟨y, hy, -, hcounter⟩ := handler_of_alike h.alike hx
    cases hx'.symm.trans hy
    cases ho : x.pc.opening with
    | false => exact hw.kept c x hx ((same_of_counterpart hcounter ho).symm.trans hpc')
    | true => cases (entry_of_counterpart hcounter ho).symm.trans hpc'

/-- Two connections that dial at the same time, and whose streams are accepted in the order that the sessions happen to be. -/
def apartRun : List Act :=
  [.client (.accept 0 webHeader), .client (.accept 1 webHeader), .client (.handler 0 .test), .client (.handler 1 .test),
    .client (.handler 0 (.dialAddr true)), .client (.handler 1 (.dialAddr true)), .client (.handler 0 .store),
    .client (.handler 0 .loadOpenStreamSync), .client (.handler 1 .store), .client (.handler 1 .loadOpenStreamSync),
    .client (.handler 0 (.openStreamSync true)), .client (.handler 1 (.openStreamSync true)), .app 1 (.send [72]),
    .server (.acceptSession (some 1)), .server .goListenQuicConn, .server (.acceptStream 0 (some 1))]

/-- They could have shared a session. -/
theorem one_session_suffices_apart : ∃ w as' w', run step (World.init ⟨false, 3⟩) apartRun = some w ∧ w.client.sessions = 2 ∧
    run step (World.init ⟨true, 3⟩) as' = some w' ∧ w'.client.sessions ≤ 1 ∧ ∀ c, w'.view c = w.view c := by
  obtain ⟨w, hw, htwo, hstreams, h₀, h₁, hnone, hlive, hrunning⟩ : ∃ w, run step (World.init ⟨false, 3⟩) apartRun = some w ∧
      w.client.sessions = 2 ∧ w.client.streams = 2 ∧ (w.client.handlers 0).map (·.pc) = some (.relay 0 .header) ∧
      (w.client.handlers 1).map (·.pc) = some (.relay 1 .header) ∧ (∀ c, w.client.handlers (c + 2) = none) ∧
      (∀ s, w.client.failed s = false) ∧ w.client.crashed = false :=
    ⟨_, rfl, rfl, rfl, rfl, rfl, fun _ => rfl, fun _ => rfl, rfl⟩
  have hunharmed : Unharmed w := by
    refine ⟨?_, hlive, hrunning⟩
    intro c x hx hpc
    match c with
    | 0 => simp [hx, hpc] at h₀
    | 1 => simp [hx, hpc] at h₁
    | c + 2 => cases (hnone c).symm.trans hx
  have hroom : w.client.streams ≤ maxIncomingStreams := by
    rw [hstreams]
    decide
  obtain ⟨as', w', hrun, -, hone, -, -, -, hview⟩ := one_session_suffices 3 false apartRun w hw hunharmed hroom
  exact ⟨w, as', w', hw, htwo, hrun, hone, hview⟩

end World

end Qpep
