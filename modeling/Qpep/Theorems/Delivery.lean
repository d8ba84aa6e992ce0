import Qpep.Lemmas.Undisturbed
import Qpep.Theorems.Resources

/-!
# Everything is delivered

As many connections as a session can have streams, on one session or on many, taking turns in any order: while nothing fails
and no endpoint finishes, the handlers and the network bring the whole proxy to rest on their own, and a proxy at rest has
delivered on every connection everything that its two endpoints have sent (`all_delivered`). So no connection waits for
another one, and none is left behind between the accept of its TCP connection, the session, the stream and the dial.
-/

namespace Qpep

open Io Machine

namespace World

open WorldAux Client.ClientAux Server.ServerAux

/-- When the proxy can do nothing on its own, its connections are at rest. -/
theorem link_atRest {w : World} (hi : Healthy w) (hroom : HasRoom w) (hq : Stuck w) {c : ConnId} {l : Link}
    (hv : w.view c = some l) : Link.AtRest l := by
  refine Link.LinkAux.atRest_of_quiet (hi.links c l hv) ?_
  intro b hb
  cases hs : l.step b with
  | none => rfl
  | some l' =>
    obtain ⟨a, ha, hpermits, hsome⟩ := enabled_of_link hi hroom hv hb hs
    rw [hq a ha hpermits] at hsome
    cases hsome

/-- A step that nobody outside decides on is one that quic-go makes, but for a stream that is accepted before its turn. -/
theorem permits_of_relays {w w' : World} (hroom : HasRoom w) {a : Act} (ha : w.relays a = true) (hs : w.step a = some w') :
    w.permits a = true ∨ ∃ n, n < w.client.streams ∧ w.server.streams n = none := by
  cases a with
  | client b =>
    cases b with
    | handler c b => exact Or.inl (permits_handler hroom (Bool.and_eq_true_iff.mp ha).1)
    | _ => exact Or.inl rfl
  | server b =>
    obtain ⟨-, hopened, s, hx, -⟩ := server_of_serverStep hs
    cases move_of_step hx with
    | stream i l n hl ha hn => exact Or.inr ⟨n, hopened i n rfl, hn⟩
    | _ => exact Or.inl rfl
  | _ => exact Or.inl rfl

/-- A stuck proxy is at rest: streams that are accepted before their turn, and Reads of a header that do not fill their
buffer, are not left either. -/
theorem atRest_of_stuck {w : World} (hi : Healthy w) (hroom : HasRoom w) (hq : Stuck w) : AtRest w := by
  intro a ha
  cases hs : w.step a with
  | none => rfl
  | some w' =>
    exfalso
    by_cases hf : w.fillsHeader a = true
    · have hrelays : w.relays a = true := by simp [relays, hf, show a.moves = true from ha]
      rcases permits_of_relays hroom hrelays hs with hpermits | ⟨n, hn, hnone⟩
      · cases hs.symm.trans (hq a hrelays hpermits)
      · obtain ⟨b, hb, hpermits, hsome⟩ := enabled_of_unaccepted hi hn hnone
        rw [hq b hb hpermits] at hsome
        cases hsome
    · cases a with
      | readHeader n k er =>
        obtain ⟨⟨bs, x⟩, hread, hcall⟩ := Option.bind_eq_some_iff.mp hs
        obtain ⟨hstep, -, hn, -⟩ := serverCall_some hcall
        obtain ⟨c, h, r, hh, hpc⟩ := hi.client.carried n (opened_of_accepted hi.owned hn)
        have hv := view_of_relaying (relaying_iff.mpr ⟨h, hh, hpc, rfl⟩)
        have hnone := link_atRest hi hroom hq hv (.readHeader k er) rfl
        have hread' : (w.streamLink c h.header n r).up.read (w.streamLink c h.header n r).sessionDown k er = some (bs, x) := hread
        have hstep' : (w.streamLink c h.header n r).server.step (.read bs er) = some (w'.serving n) := hstep
        simp [Link.step, hread', hstep'] at hnone
      | _ => exact hf rfl

/-- Steps that nobody outside decides on send nothing. -/
theorem sent_of_moves {w w' : World} {a : Act} (hi : Healthy w) (ha : a.moves = true) (hs : w.step a = some w') {c : ConnId}
    {l : Link} (hv : w.view c = some l) :
    ∃ l', w'.view c = some l' ∧ ∀ s, (l'.sock s).inn.sent = (l.sock s).inn.sent := by
  obtain ⟨l', hl', hshows⟩ := shows_step hi.owned hs hv fun s => ((hi.links c l hv).half.header.flow.channels.sock s).1
  refine ⟨l', hl', ?_⟩
  have hsilent : ∀ s, Tunnel.sentBy (visible c w a) s = [] := by
    intro s
    cases a with
    | app c' e =>
      simp only [visible]
      split
      · cases e <;> first | rfl | cases ha
      · rfl
    | dest n e =>
      simp only [visible]
      split
      · cases e <;> first | rfl | cases ha
      · rfl
    | _ => rfl
  intro s
  rw [(hshows s).1, hsilent s, List.append_nil]

/-- A step that nobody outside decides on brings nothing. -/
theorem brings_of_moves {a : Act} (ha : a.moves = true) (retries : Nat) : a.brings retries = 0 ∧ a.accepts = none := by
  cases a with
  | client b => cases b <;> first | exact ⟨rfl, rfl⟩ | cases ha
  | app c e => cases e <;> first | exact ⟨rfl, rfl⟩ | cases ha
  | dest n e => cases e <;> first | exact ⟨rfl, rfl⟩ | cases ha
  | _ => exact ⟨rfl, rfl⟩

/-- The proxy on its own stays healthy, and each of its steps takes away from what is left to do. -/
theorem lowers_relays (cfg : ClientConfig) (S : Finset ConnId) :
    Lowers step (fun w a => w.relays a = true) (fun w => Healthy w ∧ Accounted S w ∧ w.client.cfg = cfg) (work S) := by
  have hmoves : ∀ {w : World} {a : Act}, w.relays a = true → a.moves = true := fun h => (Bool.and_eq_true_iff.mp h).1
  have haccepts : ∀ {w : World} {a : Act}, w.relays a = true → ∀ c ∈ a.accepts, c ∈ S := by
    intro w a ha c hc
    rw [(brings_of_moves (hmoves ha) 0).2] at hc
    cases hc
  refine ⟨?_, ?_⟩
  · rintro w a w' ⟨hi, hw⟩ ha hs
    exact ⟨healthy_step hi (undisturbed_of_relays ha) hs, (pays_for_steps cfg S).keeps w a w' hw (haccepts ha) hs⟩
  · rintro w a w' ⟨hi, hw⟩ ha hs
    have hpaid := (pays_for_steps cfg S).pays w a w' hw (haccepts ha) hs
    simp only [(brings_of_moves (hmoves ha) cfg.connectionRetries.toNat).1] at hpaid
    omega

/-- While nothing fails, no endpoint finishes and Reads of a header fill their buffer, everything is delivered on every
connection, as long as there are no more of them than a session can have streams: from every state that such a run reaches,
the handlers and the network on their own bring the proxy to rest, and quic-go makes every step of that; in whichever order
they go on, they make no more steps than the run has brought and not made yet; and in every state in which they are stuck,
each endpoint of each connection has received exactly what the other one has sent. -/
theorem all_delivered (cfg : ClientConfig) (hretries : 0 < cfg.connectionRetries) (as : List Act) (w : World)
    (hrun : run step (World.init cfg) as = some w)
    (hok : Along step (fun w a => w.undisturbed a = true) (World.init cfg) as)
    (hcard : (connections as).card ≤ maxIncomingStreams) :
    (∃ bs w', run step w bs = some w' ∧ Along step (fun w a => w.relays a = true ∧ w.permits a = true) w bs ∧ AtRest w') ∧
      ∀ bs w', run step w bs = some w' → Along step (fun w a => w.relays a = true) w bs →
        as.length + bs.length ≤ 2 + total (fun a => a.brings cfg.connectionRetries.toNat) as ∧
          (Stuck w' → ∀ c l, w.view c = some l → ∃ l', w'.view c = some l' ∧
            ∀ s, (l'.sock s).out.got = (l.sock s.other).inn.sent) := by
  have hi := inv_run_along (fun _ _ _ hi ha hs => healthy_step hi ha hs) (healthy_init hretries) hrun hok
  have hpays := pays_for_steps cfg (connections as)
  have hlowers := lowers_relays cfg (connections as)
  have haccepts : Along step (fun _ a => ∀ c ∈ a.accepts, c ∈ connections as) (World.init cfg) as :=
    along_of_forall fun a ha => mem_connections ha
  have hinit : Accounted (connections as) (World.init cfg) ∧ (World.init cfg).client.cfg = cfg := ⟨accounted_init _ cfg, rfl⟩
  have hw := inv_run_along hpays.keeps hinit hrun haccepts
  have hpaid := hpays.run hinit hrun haccepts
  rw [total_one, work_init] at hpaid
  have hroom : ∀ v : World, Healthy v ∧ Accounted (connections as) v ∧ v.client.cfg = cfg → HasRoom v := fun v hv =>
    room_of_card hv.1.client hv.2.1.handlers hcard
  constructor
  · obtain ⟨bs, w', hbs, hal, hi', hq⟩ :=
      (hlowers.mono (fun v a (h : v.relays a = true ∧ v.permits a = true) => h.1)).exists_rest ⟨hi, hw⟩
    exact ⟨bs, w', hbs, hal, atRest_of_stuck hi'.1 (hroom w' hi') fun a ha hpermits => hq a ⟨ha, hpermits⟩⟩
  · intro bs w' hbs hal
    have hlen := hlowers.length_le ⟨hi, hw⟩ hbs hal
    refine ⟨by omega, ?_⟩
    intro hq c l hl
    have hstep : ∀ v a v', (Healthy v ∧ ∃ m, v.view c = some m ∧ ∀ s, (m.sock s).inn.sent = (l.sock s).inn.sent) →
        v.relays a = true → v.step a = some v' →
          Healthy v' ∧ ∃ m, v'.view c = some m ∧ ∀ s, (m.sock s).inn.sent = (l.sock s).inn.sent := by
      rintro v a v' ⟨hv, m, hm, hsent⟩ ha hs
      obtain ⟨m', hm', hsame⟩ := sent_of_moves hv (Bool.and_eq_true_iff.mp ha).1 hs hm
      exact ⟨healthy_step hv (undisturbed_of_relays ha) hs, m', hm', fun s => (hsame s).trans (hsent s)⟩
    obtain ⟨hi', l', hl', hsent⟩ := inv_run_along hstep ⟨hi, l, hl, fun _ => rfl⟩ hbs hal
    refine ⟨l', hl', ?_⟩
    intro s
    have hroom' := hroom w' (inv_run_along hlowers.keeps ⟨hi, hw⟩ hbs hal)
    have hrest := link_atRest hi' hroom' hq hl'
    exact (Link.LinkAux.delivered_of_rest (hi'.links c l' hl') hrest s).trans (hsent s.other)

/-- Two connections on which the applications send before they have a session. -/
def twoSend : List Act :=
  [.client (.accept 0 webHeader), .client (.accept 1 webHeader), .app 0 (.send [71, 69, 84]), .client (.handler 0 .test),
    .app 1 (.send [72, 73]), .client (.handler 1 .test), .client (.handler 1 (.dialAddr true))]

/-- Both destinations receive what was sent to them. -/
theorem all_delivered_two : ∃ w bs w' l₀ l₁, run step (World.init ⟨true, 3⟩) twoSend = some w ∧ run step w bs = some w' ∧
    AtRest w' ∧ w'.view 0 = some l₀ ∧ w'.view 1 = some l₁ ∧ l₀.dest.out.got = [71, 69, 84] ∧ l₁.dest.out.got = [72, 73] := by
  obtain ⟨w, hw⟩ : ∃ w, run step (World.init ⟨true, 3⟩) twoSend = some w := ⟨_, rfl⟩
  obtain ⟨⟨bs, w', hbs, hal, hq⟩, hall⟩ := all_delivered ⟨true, 3⟩ (by decide) twoSend w hw (by decide) (by decide)
  obtain ⟨l, m, hl, hm, hsent⟩ : ∃ l m, w.view 0 = some l ∧ w.view 1 = some m ∧ l.app.inn.sent = [71, 69, 84] ∧
      m.app.inn.sent = [72, 73] := by
    cases hw
    exact ⟨_, _, rfl, rfl, rfl, rfl⟩
  have hdelivered := (hall bs w' hbs (hal.mono fun _ _ h => h.1)).2 fun a ha _ => hq a (Bool.and_eq_true_iff.mp ha).1
  obtain ⟨l', hl', hgot⟩ := hdelivered 0 l hl
  obtain ⟨m', hm', hgot'⟩ := hdelivered 1 m hm
  exact ⟨w, bs, w', l', m', hw, hbs, hq, hl', hm', (hgot .server).trans hsent.1, (hgot' .server).trans hsent.2⟩

end World

end Qpep
