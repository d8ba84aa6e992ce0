import Qpep.Lemmas.Opening

/-!
# Sharing a session is not seen

With `MultiStream` on, connections share sessions, and the handlers share `quicSession` in either mode. The endpoints cannot
tell: for every run, whatever fails in it short of the whole client, there is one with `MultiStream` off in which every
stream has a session of its own, and every connection does and sees the same (`multiStream_unseen`).

A handler of the second run waits until its counterpart has opened a stream, or has given up. Then it dials a session and
opens its stream on it, or it dials in vain.
-/

namespace Qpep

open Machine

namespace World

open WorldAux AlikeAux Client.ClientAux

/-- `MultiStream` is off, and every stream has a session of its own, with the same number. -/
structure OwnSessions (s : Sessions) : Prop where
  multiStream : s.cfg.multiStream = false
  sessions : s.sessions = s.streams
  own : ∀ n, n < s.streams → s.session n = n
  undialled : ∀ p, s.sessions ≤ p → s.failed p = false
  ready : s.Ready

/-- The second world does on sessions of their own what the first one does. -/
structure Separates (w w' : World) : Prop where
  alike : Alike w w'
  own : OwnSessions w'.sessionsOf
  retries : w'.client.cfg.connectionRetries = w.client.cfg.connectionRetries

/-- The second world can follow the first one. -/
def Separated (w₁ w' : World) : Prop := ∃ bs w₁', Leads w' bs w₁' ∧ Separates w₁ w₁'

namespace MultiStreamAux

variable {w w' w₁ : World}

/-! ## A session fails -/

/-- Sessions fail one after the other (induction on the list). -/
theorem leads_sessionFails {ps : List SessionId} (hps : ∀ p ∈ ps, p < w.client.sessions) :
    Leads w (ps.map fun p => .client (.sessionFail p))
      { w with client := { w.client with failed := fun p => w.client.failed p || decide (p ∈ ps) } } := by
  induction ps generalizing w with
  | nil => simpa using Leads.nil
  | cons p ps ih =>
    have hstep : w.step (.client (.sessionFail p)) =
        some { w with client := { w.client with failed := Function.update w.client.failed p true } } := by
      simp [step, clientStep, Client.step, hps p List.mem_cons_self]
    have hrest := (Leads.one rfl rfl hstep).trans (ih fun q hq => hps q (List.mem_cons_of_mem p hq))
    have hfailed : (fun q => Function.update w.client.failed p true q || decide (q ∈ ps)) =
        fun q => w.client.failed q || decide (q ∈ p :: ps) := by
      funext q
      by_cases hq : q = p
      · subst hq
        simp
      · simp [hq]
    rw [← hfailed]
    exact hrest

/-- When a session fails, the sessions of its streams fail. -/
theorem separated_sessionFail {t : SessionId} (h : Separates w w')
    (hs : w.clientStep (.sessionFail t) = some w₁) : Separated w₁ w' := by
  obtain ⟨m, hm, rfl⟩ := Option.map_eq_some_iff.mp hs
  obtain ⟨-, rfl⟩ := sessionFail_some hm
  have hsessions : w'.client.sessions = w'.client.streams := h.own.sessions
  have hown : ∀ n, n < w.client.streams → (w'.channels n).session = n := by
    intro n hn
    exact h.own.own n (Nat.lt_of_lt_of_eq hn h.alike.streams.symm)
  let ps := (List.range w.client.streams).filter fun n => (w.channels n).session = t
  have hps : ∀ n, n ∈ ps ↔ n < w.client.streams ∧ (w.channels n).session = t := fun n => by simp [ps]
  have hleads := leads_sessionFails (w := w') fun n hn => by
    rw [hsessions, h.alike.streams]
    exact ((hps n).mp hn).1
  refine ⟨_, _, hleads, alike_failed h.alike ?_, ?_, h.retries⟩
  · intro n hn
    have hlost : w'.client.failed n = w.client.failed (w.channels n).session := by
      simpa only [lost, hown n hn] using h.alike.lost n hn
    rw [hown n hn, hlost]
    by_cases ht : (w.channels n).session = t
    · simp [ht, (hps n).mpr ⟨hn, ht⟩]
    · have hno : n ∉ ps := fun hmem => ht ((hps n).mp hmem).2
      simp [hno, Function.update_of_ne ht]
  · refine { h.own with undialled := ?_, ready := h.own.ready.same rfl rfl rfl rfl }
    intro p hp
    have hno : p ∉ ps := by
      intro hmem
      have hlt := ((hps p).mp hmem).1
      rw [← h.alike.streams, ← hsessions] at hlt
      exact absurd hlt (Nat.not_lt.mpr hp)
    simpa [sessionsOf, hno] using h.own.undialled p hp

/-! ## A handler gets its stream -/

/-- A stream is opened on a session of its own. -/
theorem own_opened (h : OwnSessions w.sessionsOf) (c : ConnId) (x : Client.Handler) :
    OwnSessions ({ w with
      client := w.client.moved c x (some w.client.sessions) (w.client.sessions + 1) (w.client.streams + 1)
      server := accepting w.server w.client.sessions
      channels := Function.update w.channels w.client.streams (.fresh w.client.sessions) } : World).sessionsOf where
  multiStream := h.multiStream
  sessions := congrArg (· + 1) h.sessions
  own n hn := by
    by_cases he : n = w.client.streams
    · subst he
      simpa [sessionsOf, Channel.fresh] using h.sessions
    · have hold := h.own n (Nat.lt_of_le_of_ne (Nat.le_of_lt_succ hn) he)
      simpa [sessionsOf, Function.update_of_ne he] using hold
  undialled p hp := h.undialled p (Nat.le_of_succ_le hp)
  ready := ready_accepting h.ready _

/-- A step of a handler that is getting a stream is followed when it has got one, or has given up. -/
theorem separated_handler (hi : Settled w) {c : ConnId} {a : Client.HandlerAct} (h : Separates w w')
    (hs : w.clientStep (.handler c a) = some w₁) (hend : w₁.client.crashed = false) : Separated w₁ w' := by
  obtain ⟨hc, x, hx, ⟨x', q, k, n, hm, hno, rfl⟩ | ⟨-, -, rfl⟩⟩ := handlerStep_cases hs
  · obtain ⟨y, hy, hheader, hcounter⟩ := handler_of_alike h.alike hx
    obtain ⟨ho, hheader', houtcome⟩ := outcome_of_move hi hx hm hno
    have hpc := entry_of_counterpart hcounter ho
    rcases houtcome with ⟨ho', rfl⟩ | ⟨hretries, ⟨hreturned, rfl⟩ | ⟨s, rfl, rfl, hlive⟩⟩
    · rw [after_opening (moved_handlers_self _ _ _ _ _ _) hc ho']
      exact ⟨[], w', .nil, alike_waited h.alike hy (hheader.trans hheader'.symm) hpc ho', h.own, h.retries⟩
    · obtain ⟨bs, y', hheader₁, hpc₁, hleads⟩ := leads_giveUp (h.retries ▸ hretries) h.alike.running hy hpc h.own.multiStream
      rw [after_returned (moved_handlers_self _ _ _ _ _ _) hc hreturned]
      exact ⟨bs, _, hleads, alike_returned h.alike (hheader₁.trans (hheader.trans hheader'.symm)) hreturned hpc₁,
        { h.own with ready := h.own.ready.same rfl rfl rfl rfl }, h.retries⟩
    · have hnew : ∀ n, n < w'.client.streams → (w'.channels n).session ≠ w'.client.sessions := by
        intro n hn
        rw [show (w'.channels n).session = n from h.own.own n hn, show w'.client.sessions = w'.client.streams from h.own.sessions]
        exact Nat.ne_of_lt hn
      have hlive' : w'.client.failed w'.client.sessions = false := h.own.undialled _ (Nat.le_refl _)
      have hoff : ¬(w'.client.cfg.multiStream = true ∧ w'.client.quicSession ≠ none) := by
        simp [show w'.client.cfg.multiStream = false from h.own.multiStream]
      obtain ⟨bs, y', hheader₁, hpc₁, hleads⟩ :=
        leads_dial h.own.ready hnew hlive' (h.retries ▸ hretries) h.alike.running hy hpc hoff
      rw [after_opened (moved_handlers_self _ _ _ _ _ _) hc rfl rfl]
      exact ⟨bs, _, hleads, alike_opened h.alike (hheader₁.trans hheader) rfl hpc₁ (hlive'.trans hlive.symm) rfl,
        own_opened h.own c y', h.retries⟩
  · cases hend

/-! ## The server -/

/-- A step of the server is followed when it accepts a stream. -/
theorem separated_server (h : Separates w w') {b : Server.Act} (hs : w.serverStep b = some w₁) : Separated w₁ w' := by
  obtain ⟨hno, hopened, s, hstep, rfl⟩ := server_of_serverStep hs
  rcases Server.ServerAux.streams_of_step hstep with ⟨-, hst⟩ | ⟨i, n, session, rfl, hnone, hst⟩ | ⟨n, io, _, _, rfl, -⟩
  · refine ⟨[], w', .nil, alike_serve h.alike (fun n => by simp only [serving, hst]) (fun _ => rfl) ?_, h.own, h.retries⟩
    simpa only [hst] using h.alike.accepted
  · have hserving := serving_accepted hnone hst
    by_cases haccepted : w'.server.streams n = none
    · have hn : n < w'.client.streams := h.alike.streams ▸ hopened i n rfl
      have hown : ∀ m, m < w'.client.streams → (w'.channels m).session = m := h.own.own
      have hsession : (w'.channels n).session < w'.client.sessions := by
        rw [hown n hn, show w'.client.sessions = w'.client.streams from h.own.sessions]
        exact hn
      obtain ⟨bs, hleads⟩ := leads_acceptStream h.own.ready hn hsession haccepted fun m hm he =>
        absurd ((hown m (hm.trans hn)).symm.trans (he.trans (hown n hn))) (Nat.ne_of_lt hm)
      refine ⟨bs, _, hleads, alike_serve h.alike hserving (serving_accepted haccepted rfl) ?_, 
        { h.own with ready := h.own.ready.same rfl rfl rfl rfl }, h.retries⟩
      refine accepted_more h.alike.accepted hst ?_
      intro m hm
      by_cases he : m = n
      · simp [acceptingStream, he]
      · simpa only [acceptingStream, Function.update_of_ne he] using hm.resolve_left he
    · refine ⟨[], w', .nil, alike_serve h.alike hserving (fun _ => rfl) ?_, h.own, h.retries⟩
      exact accepted_more h.alike.accepted hst fun m hm => hm.elim (fun he => he ▸ haccepted) id
  · exact absurd rfl (hno n io)

/-- Every step can be followed on sessions of their own, as long as the client does not crash. -/
theorem answers_separates : Answers step Settled (fun w => w.client.crashed = false) step
    (fun w a => w.permits a = true) Act.sessionless
    Separates where
  keeps _ _ _ := settled_step
  back _ _ _ := running_step
  counted w a w₁ w' hi _ h ha hs := by
    obtain ⟨w₁', hs', halike', hsame, hsame'⟩ := alike_step h.alike hi.owned ha hs
    have hcfg : w₁.client.cfg = w.client.cfg := congrArg Sessions.cfg hsame
    have hcfg' : w₁'.client.cfg = w'.client.cfg := congrArg Sessions.cfg hsame'
    exact ⟨w₁', .one (permits_of_sessionless ha w') hs', halike', hsame' ▸ h.own, by rw [hcfg, hcfg']; exact h.retries⟩
  other w a w₁ w' hi hend h ha hs := by
    have hfollowed : Separated w₁ w' := by
      cases a with
      | client b =>
        cases b with
        | accept c header => cases ha
        | sessionFail t => exact separated_sessionFail h hs
        | handler c a => exact separated_handler hi h hs hend
      | server b => exact separated_server h hs
      | _ => cases ha
    obtain ⟨bs, w₁', hleads, hsep⟩ := hfollowed
    exact ⟨bs, w₁', hleads.1, hleads.2, hsep⟩

end MultiStreamAux

open MultiStreamAux

/-- Two connections on one session, which fails. -/
def sharedRun : List Act :=
  [.client (.accept 0 webHeader), .client (.accept 1 webHeader), .client (.handler 0 .test),
    .client (.handler 0 (.dialAddr true)), .client (.handler 0 .store), .client (.handler 1 .test),
    .client (.handler 0 .loadOpenStreamSync), .client (.handler 1 .loadOpenStream), .client (.handler 0 (.openStreamSync true)),
    .client (.handler 1 (.openStream true)),
    .server (.acceptSession (some 0)), .server .goListenQuicConn, .server (.acceptStream 0 (some 0)), .app 1 (.send [72]),
    .client (.sessionFail 0)]

end World

end Qpep
