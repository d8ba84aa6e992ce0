import Qpep.Lemmas.Work
import Qpep.Lib.Simulation
import Qpep.Theorems.EndToEnd
import Qpep.Tunnel

/-!
# The proxy is a tunnel for each connection

What the two endpoints of a connection do and see, in any run of the two processes with any number of other connections, is
a run of the tunnel alone (`refines_tunnel`). So neither of them can tell the proxy from a pair of ideal pipes, whatever the
other connections do.
-/

namespace Qpep

open Io Machine

/-- A call of a goroutine changes neither what the endpoint of its connection has sent, received and decided, nor whether
the connection works. -/
theorem Port.loop_endpoint {p p' : Port} {down : Bool} {t : CopyTask} {l : Loop} {ev : LoopEv} {io : LoopIo}
    (h : p.loop down t l ev = some (p', io)) :
    (p'.sock.inn.sent = p.sock.inn.sent ∧ p'.sock.out.got = p.sock.out.got) ∧
      p'.sock.fin = p.sock.fin ∧ p'.sock.gone = p.sock.gone ∧ p'.sock.broken = p.sock.broken := by
  cases ev with
  | read k er =>
    obtain ⟨⟨bs, q⟩, hq, he⟩ := Option.map_eq_some_iff.mp h
    cases he
    unfold Port.read at hq
    split at hq
    · obtain ⟨⟨bs', s⟩, hs, he⟩ := Option.map_eq_some_iff.mp hq
      cases he
      obtain ⟨-, rfl, -⟩ := Sock.read_some hs
      exact ⟨⟨Fifo.sent_pull _ _, rfl⟩, rfl, rfl, rfl⟩
    · obtain ⟨⟨bs', s⟩, hs, he⟩ := Option.map_eq_some_iff.mp hq
      cases he
      exact ⟨⟨rfl, rfl⟩, rfl, rfl, rfl⟩
  | write k ew =>
    obtain ⟨q, hq, he⟩ := Option.map_eq_some_iff.mp h
    cases he
    unfold Port.write at hq
    split at hq
    · obtain ⟨s, hs, rfl⟩ := Option.map_eq_some_iff.mp hq
      obtain ⟨rfl, -⟩ := Sock.write_some hs
      exact ⟨⟨rfl, Fifo.push_got _ _⟩, rfl, rfl, rfl⟩
    · obtain ⟨s, hs, rfl⟩ := Option.map_eq_some_iff.mp hq
      exact ⟨⟨rfl, rfl⟩, rfl, rfl, rfl⟩
  | part k =>
    obtain ⟨q, hq, he⟩ := Option.map_eq_some_iff.mp h
    cases he
    unfold Port.part at hq
    split at hq
    · obtain ⟨s, hs, rfl⟩ := Option.map_eq_some_iff.mp hq
      obtain ⟨rfl, -⟩ := Sock.part_some hs
      exact ⟨⟨rfl, Fifo.push_got _ _⟩, rfl, rfl, rfl⟩
    · cases hq
  | close =>
    cases h
    unfold Port.close
    split <;> exact ⟨⟨rfl, rfl⟩, rfl, rfl, rfl⟩

/-- What an endpoint's step on its connection shows of it. -/
def SockEnv.visible (s : Side) (k : Sock) : SockEnv → Option Tunnel.Act
  | .send bs => some (.send s bs)
  | .receive n => some (.receive s (k.out.ready.take n))
  | _ => none

/-- What an endpoint has sent and received after a step on its connection. -/
theorem Sock.env_visible {k k' : Sock} {e : SockEnv} (h : k.env e = some k') (hk : k.inn.abandoned = none) (s : Side) :
    k'.inn.sent = k.inn.sent ++ Tunnel.sentBy (e.visible s k) s ∧
      k'.out.got = k.out.got ++ Tunnel.receivedBy (e.visible s k) s := by
  have hsent := Sock.sent_env h hk
  cases e with
  | send bs =>
    simp only [Sock.env, Option.ite_none_right_eq_some, Option.some.injEq] at h
    obtain ⟨-, rfl⟩ := h
    simpa [SockEnv.visible, SockEnv.sent, Tunnel.sentBy, Tunnel.receivedBy] using hsent
  | receive n =>
    simp only [Sock.env, Option.ite_none_right_eq_some, Option.some.injEq] at h
    obtain ⟨-, rfl⟩ := h
    simp [SockEnv.visible, Tunnel.sentBy, Tunnel.receivedBy]
  | _ =>
    simp only [Sock.env, Option.ite_none_right_eq_some, Option.some.injEq] at h
    obtain ⟨-, rfl⟩ := h
    simp [SockEnv.visible, Tunnel.sentBy, Tunnel.receivedBy]

namespace World

open WorldAux

/-- The connection has this stream. -/
def has (w : World) (c : ConnId) (n : StreamId) : Bool :=
  match w.relaying c with
  | some (_, m, _) => m == n
  | none => false

/-- What a step shows to the two endpoints of a connection: their own sends and receives, and nothing else. -/
def visible (c : ConnId) (w : World) : Act → Option Tunnel.Act
  | .app c' e => if c' = c then e.visible .client (w.apps c) else none
  | .dest n e => if w.has c n then e.visible .server (w.channels n).dest else none
  | _ => none

/-- What the two endpoints have sent and received in a link after something that shows `e`. -/
def Shows (l l' : Link) (e : Option Tunnel.Act) : Prop :=
  ∀ s, (l'.sock s).inn.sent = (l.sock s).inn.sent ++ Tunnel.sentBy e s ∧
    (l'.sock s).out.got = (l.sock s).out.got ++ Tunnel.receivedBy e s

/-- Nothing is shown by a step that changes neither what the endpoints have sent nor what they have received. -/
theorem Shows.silent {l l' : Link}
    (h : ∀ s, (l'.sock s).inn.sent = (l.sock s).inn.sent ∧ (l'.sock s).out.got = (l.sock s).out.got) : Shows l l' none := by
  intro s
  simpa [Tunnel.sentBy, Tunnel.receivedBy] using h s

theorem Shows.refl (l : Link) : Shows l l none := .silent fun _ => ⟨rfl, rfl⟩

theorem relaying_of_has {w : World} {c : ConnId} {n : StreamId} (h : w.has c n = true) :
    ∃ header r, w.relaying c = some (header, n, r) := by
  unfold has at h
  split at h
  · rename_i header m r hr
    cases beq_iff_eq.mp h
    exact ⟨header, r, hr⟩
  · cases h

theorem app_of_view {w : World} {c : ConnId} {l : Link} (hv : w.view c = some l) : l.app = w.apps c := by
  obtain ⟨h, -, rfl⟩ := Option.map_eq_some_iff.mp hv
  exact link_app w c h

/-- What a call of a connection's own handler shows: nothing, when it leaves what the two endpoints have sent and received. -/
theorem shows_call {w w' : World} {c : ConnId} {l : Link} {header : QpepHeader} {n : StreamId} {r r' : Client.Relaying}
    {x : Server.StreamHandler} {app dest : Sock} {up down : Half} {lost : Bool} {headerOut headerIn : List UInt8}
    {dialled : List Net.TCPAddr} (hv : w.view c = some l) (hr : w.relaying c = some (header, n, r))
    (hl' : w'.view c = some ⟨header, .stream r', x, app, dest, up, down, lost, headerOut, headerIn, dialled⟩)
    (happ : app.inn.sent = (w.apps c).inn.sent ∧ app.out.got = (w.apps c).out.got)
    (hdest : dest.inn.sent = (w.channels n).dest.inn.sent ∧ dest.out.got = (w.channels n).dest.out.got) :
    ∃ l', w'.view c = some l' ∧ Shows l l' none := by
  refine ⟨_, hl', .silent ?_⟩
  rw [link_of_relaying hv hr]
  intro s
  cases s with
  | client => exact happ
  | server => exact hdest

/-- A step of the world shows to the endpoints of a connection what they do in it, and nothing else. -/
theorem shows_step {w w' : World} {a : Act} (hi : Owned w) (hs : w.step a = some w') {c : ConnId} {l : Link}
    (hv : w.view c = some l) (hopen : ∀ s, (l.sock s).inn.abandoned = none) :
    ∃ l', w'.view c = some l' ∧ Shows l l' (visible c w a) := by
  cases a with
  | client b =>
    obtain ⟨l', hl', rfl | ⟨d, hd, hstep⟩⟩ := view_clientStep hi hs hv
    · exact ⟨l', hl', .refl _⟩
    · refine ⟨l', hl', .silent ?_⟩
      simp only [List.mem_cons, List.not_mem_nil, or_false] at hd
      intro s
      rcases hd with rfl | rfl | rfl | rfl
      case inr.inr.inr =>
        obtain ⟨k, he, rfl⟩ := Option.map_eq_some_iff.mp hstep
        simp only [Sock.env, Option.ite_none_right_eq_some, Option.some.injEq] at he
        obtain ⟨-, rfl⟩ := he
        cases s <;> exact ⟨rfl, rfl⟩
      all_goals
        cases Link.LinkAux.move_of_step hstep
        cases s <;> exact ⟨rfl, rfl⟩
  | server b => exact ⟨l, (view_serverStep hs c).trans hv, .refl _⟩
  | app c₀ e =>
    simp only [step, Option.ite_none_right_eq_some] at hs
    obtain ⟨x, he, rfl⟩ := Option.map_eq_some_iff.mp hs.2
    by_cases hc : c₀ = c
    · subst hc
      have happ := app_of_view hv
      obtain ⟨h, hh, rfl⟩ := Option.map_eq_some_iff.mp hv
      refine ⟨{ w.link c₀ h with app := x }, ?_, ?_⟩
      · simp only [view, hh, Option.map_some, link]
        split <;> simp [streamLink, serving, lost]
      · have hshown := Sock.env_visible (happ ▸ he) (hopen .client)
        intro s
        simp only [visible, if_true]
        cases s with
        | client => exact happ ▸ hshown .client
        | server =>
          cases e <;> simp [SockEnv.visible, Tunnel.sentBy, Tunnel.receivedBy, Link.sock]
    · simp only [visible, if_neg hc]
      have hsame : ({ w with apps := Function.update w.apps c₀ x } : World).view c = w.view c :=
        view_congr rfl (Function.update_of_ne (Ne.symm hc) _ _) fun _ _ _ _ => ⟨rfl, rfl, rfl⟩
      exact ⟨l, hsame.trans hv, .refl l⟩
  | dest n e =>
    obtain ⟨x, he, rfl⟩ : ∃ x, (w.channels n).dest.env e = some x ∧
        w' = { w with channels := Function.update w.channels n { w.channels n with dest := x } } := by
      simp only [step] at hs
      split at hs
      case h_4 => cases hs
      all_goals
        obtain ⟨x, he, rfl⟩ := Option.map_eq_some_iff.mp hs
        exact ⟨x, he, rfl⟩
    by_cases hown : w.has c n = true
    · obtain ⟨header, r, hr⟩ := relaying_of_has hown
      have hl := link_of_relaying hv hr
      subst hl
      have hview := view_of_relaying
        (w := { w with channels := Function.update w.channels n { w.channels n with dest := x } }) (c := c) hr
      refine ⟨_, hview, ?_⟩
      have hshown := Sock.env_visible he (hopen .server)
      intro s
      simp only [visible, hown, if_true]
      cases s with
      | client => cases e <;> simp [SockEnv.visible, Tunnel.sentBy, Tunnel.receivedBy, Link.sock, streamLink]
      | server => simpa [Link.sock, streamLink] using hshown .server
    · simp only [visible, if_neg hown]
      refine ⟨l, ?_, .refl l⟩
      rcases view_putChannel w n { w.channels n with dest := x } rfl c with ⟨header, r, hr, -⟩ | hsame
      · exact absurd (by simp [has, hr]) hown
      · exact hsame.trans hv
  | deliver n s k =>
    cases s with
    | client =>
      obtain ⟨h, -, rfl⟩ := Option.map_eq_some_iff.mp hs
      rcases view_putChannel w n { w.channels n with up := h } rfl c with ⟨header, r, hr, hl'⟩ | hsame
      · exact shows_call hv hr hl' ⟨rfl, rfl⟩ ⟨rfl, rfl⟩
      · exact ⟨l, hsame.trans hv, .refl l⟩
    | server =>
      obtain ⟨h, -, rfl⟩ := Option.map_eq_some_iff.mp hs
      rcases view_putChannel w n { w.channels n with down := h } rfl c with ⟨header, r, hr, hl'⟩ | hsame
      · exact shows_call hv hr hl' ⟨rfl, rfl⟩ ⟨rfl, rfl⟩
      · exact ⟨l, hsame.trans hv, .refl l⟩
  | writeHeader c₀ k ew =>
    simp only [step] at hs
    split at hs
    · rename_i header n r hr
      obtain ⟨h, -, hcall⟩ := Option.bind_eq_some_iff.mp hs
      rcases view_clientCall hi hr hcall rfl c with ⟨rfl, r', -, hl'⟩ | hsame
      · exact shows_call hv hr hl' ⟨rfl, rfl⟩ ⟨rfl, rfl⟩
      · exact ⟨l, hsame.trans hv, .refl l⟩
    · cases hs
  | clientLoop c₀ name ev =>
    simp only [step] at hs
    split at hs
    · rename_i header n r hr
      obtain ⟨⟨p, io⟩, hp, hcall⟩ := Option.bind_eq_some_iff.mp hs
      rcases view_clientCall hi hr hcall rfl c with ⟨rfl, r', -, hl'⟩ | hsame
      · exact shows_call hv hr hl' (Port.loop_endpoint hp).1 ⟨rfl, rfl⟩
      · exact ⟨l, hsame.trans hv, .refl l⟩
    · cases hs
  | close c₀ =>
    simp only [step] at hs
    split at hs
    · rename_i header n r hr
      rcases view_clientCall hi hr hs rfl c with ⟨rfl, r', -, hl'⟩ | hsame
      · exact shows_call hv hr hl' ⟨rfl, rfl⟩ ⟨rfl, rfl⟩
      · exact ⟨l, hsame.trans hv, .refl l⟩
    · cases hs
  | readHeader n k er =>
    obtain ⟨⟨bs, h⟩, -, hcall⟩ := Option.bind_eq_some_iff.mp hs
    rcases view_serverCall hcall rfl c with ⟨header, r, x, hr, -, hl'⟩ | hsame
    · exact shows_call hv hr hl' ⟨rfl, rfl⟩ ⟨rfl, rfl⟩
    · exact ⟨l, hsame.trans hv, .refl l⟩
  | dialTimeout n ok =>
    simp only [step] at hs
    split at hs
    · rcases view_serverCall hs rfl c with ⟨header, r, x, hr, -, hl'⟩ | hsame
      · exact shows_call hv hr hl' ⟨rfl, rfl⟩ ⟨rfl, rfl⟩
      · exact ⟨l, hsame.trans hv, .refl l⟩
    · cases hs
  | serverLoop n name ev =>
    simp only [step] at hs
    split at hs
    · obtain ⟨⟨p, io⟩, hp, hcall⟩ := Option.bind_eq_some_iff.mp hs
      rcases view_serverCall hcall rfl c with ⟨header, r, x, hr, -, hl'⟩ | hsame
      · exact shows_call hv hr hl' ⟨rfl, rfl⟩ (Port.loop_endpoint hp).1
      · exact ⟨l, hsame.trans hv, .refl l⟩
    · cases hs
  | cancelRead n =>
    rcases view_serverCall hs rfl c with ⟨header, r, x, hr, -, hl'⟩ | hsame
    · exact shows_call hv hr hl' ⟨rfl, rfl⟩ ⟨rfl, rfl⟩
    · exact ⟨l, hsame.trans hv, .refl l⟩
  | cancelWrite n =>
    rcases view_serverCall hs rfl c with ⟨header, r, x, hr, -, hl'⟩ | hsame
    · exact shows_call hv hr hl' ⟨rfl, rfl⟩ ⟨rfl, rfl⟩
    · exact ⟨l, hsame.trans hv, .refl l⟩

/-- A connection that does not exist shows nothing. -/
theorem hidden_of_none {w w' : World} {a : Act} (hs : w.step a = some w') {c : ConnId} (hv : w.view c = none) :
    visible c w a = none := by
  have hh : w.client.handlers c = none := Option.map_eq_none_iff.mp hv
  cases a with
  | app c₀ e =>
    by_cases hc : c₀ = c
    · subst hc
      simp [step, hh] at hs
    · exact if_neg hc
  | dest n e =>
    have hno : w.has c n = false := by simp [has, relaying, hh]
    simp [visible, hno]
  | _ => rfl

/-- The tunnel of a connection: its pipes hold what the endpoints have sent and received. -/
def Tunnelled (c : ConnId) (w : World) (t : Tunnel) : Prop :=
  match w.view c with
  | none => t = .empty
  | some l => ∀ s, (t.pipe s).sent = (l.sock s).inn.sent ∧ (t.pipe s.other).received = (l.sock s).out.got

/-- The streams are apart, and the connection relays its header if its addresses are valid. -/
def Relays (c : ConnId) (w : World) : Prop :=
  Owned w ∧ ∀ l, w.view c = some l → Link.FlowInv l ∧ (l.header.Valid → Link.HeaderInv l)

theorem relays_step {w w' : World} {a : Act} {c : ConnId} (hi : Relays c w) (hok : w.headerFills c a = true)
    (hs : w.step a = some w') : Relays c w' := by
  refine ⟨owned_step hi.1 hs, ?_⟩
  intro l' hl'
  cases hv : w.view c with
  | none =>
    obtain ⟨header, rfl⟩ := view_enters hs hv hl'
    exact ⟨Link.LinkAux.flowInv_init header, fun _ => Link.LinkAux.headerInv_init header⟩
  | some l =>
    obtain ⟨hflow, hheader⟩ := hi.2 l hv
    obtain ⟨l₁, hl₁, rfl | ⟨b, hfills, hb⟩⟩ := seen_step hi.1 hs hv
    · cases hl'.symm.trans hl₁
      exact ⟨hflow, hheader⟩
    · cases hl'.symm.trans hl₁
      refine ⟨Link.LinkAux.flowInv_step hflow hb, ?_⟩
      intro hvalid
      have hsame := Link.LinkAux.header_step (Link.LinkAux.move_of_step hb)
      exact Link.LinkAux.headerInv_step (hheader (hsame ▸ hvalid)) (hsame ▸ hvalid) (hfills hok) hb

/-- What an endpoint has received is a prefix of what the other one has sent. -/
theorem received_prefix {l : Link} (hi : Link.HeaderInv l) (s : Side) : (l.sock s).out.got <+: (l.sock s.other).inn.sent := by
  have hgot := Fifo.got_prefix_sent (l.sock s).out
  cases s with
  | client => exact hgot.trans (Link.LinkAux.response_prefix hi.flow)
  | server => exact hgot.trans (Link.LinkAux.request_prefix hi)

/-- A step keeps the header of a connection. -/
theorem header_of_step {w w' : World} {a : Act} {c : ConnId} {l : Link} (hi : Owned w) (hs : w.step a = some w')
    (hv : w.view c = some l) : ∃ l', w'.view c = some l' ∧ l'.header = l.header := by
  obtain ⟨l', hl', rfl | ⟨b, -, hb⟩⟩ := seen_step hi hs hv
  · exact ⟨l', hl', rfl⟩
  · exact ⟨l', hl', Link.LinkAux.header_step (Link.LinkAux.move_of_step hb)⟩

/-- Throughout a run a connection has the header that it has in the end. -/
theorem header_along {w w' : World} {as : List Act} {c : ConnId} {l' : Link} (hi : Owned w) (hrun : run step w as = some w')
    (hl' : w'.view c = some l') : Along step (fun w _ => ∀ l, w.view c = some l → l.header = l'.header) w as := by
  induction as generalizing w with
  | nil => trivial
  | cons a as ih =>
    obtain ⟨w₁, h₁, hr⟩ := run_cons_eq_some.mp hrun
    refine ⟨?_, ?_⟩
    · intro l hl
      have hstep : ∀ v b v', (Owned v ∧ ∃ m, v.view c = some m ∧ m.header = l.header) → v.step b = some v' →
          Owned v' ∧ ∃ m, v'.view c = some m ∧ m.header = l.header := by
        rintro v b v' ⟨hv, m, hm, heq⟩ hb
        obtain ⟨m', hm', heq'⟩ := header_of_step hv hb hm
        exact ⟨owned_step hv hb, m', hm', heq'.trans heq⟩
      obtain ⟨-, m, hm, heq⟩ := inv_run hstep ⟨hi, l, hl, rfl⟩ hrun
      cases hl'.symm.trans hm
      exact heq.symm
    · intro w₂ hw₂
      cases h₁.symm.trans hw₂
      exact ih (owned_step hi h₁) hr

/-- The tunnel follows what a step shows. -/
theorem follows_step {w w' : World} {a : Act} {c : ConnId} {t : Tunnel} {l : Link} (hi : Relays c w) (ht : Tunnelled c w t)
    (hok : w.headerFills c a = true) (hs : w.step a = some w') (hv : w.view c = some l) (hvalid : l.header.Valid) :
    (visible c w a = none → Tunnelled c w' t) ∧
      ∀ e, visible c w a = some e → ∃ t', t.step e = some t' ∧ Tunnelled c w' t' := by
  obtain ⟨hflow, -⟩ := hi.2 l hv
  obtain ⟨l', hl', hshows⟩ := shows_step hi.1 hs hv fun s => (hflow.channels.sock s).1
  obtain ⟨l₁, hl₁, hheader⟩ := header_of_step hi.1 hs hv
  cases hl'.symm.trans hl₁
  have hreceived := received_prefix (((relays_step hi hok hs).2 l' hl').2 (hheader ▸ hvalid))
  have ht' : ∀ s, (t.pipe s).sent = (l.sock s).inn.sent ∧ (t.pipe s.other).received = (l.sock s).out.got := by
    simpa only [Tunnelled, hv] using ht
  simp only [Tunnelled, hl']
  constructor
  · intro hnone
    rw [hnone] at hshows
    intro s
    have hsame := hshows s
    simp only [Tunnel.sentBy, Tunnel.receivedBy, List.append_nil] at hsame
    exact ⟨(ht' s).1.trans hsame.1.symm, (ht' s).2.trans hsame.2.symm⟩
  · intro e he
    rw [he] at hshows
    have hnext : ∀ s, (t.pipe s.other).received ++ Tunnel.receivedBy (some e) s <+: (t.pipe s.other).sent := by
      intro s
      cases e with
      | send s' bs => simpa [Tunnel.receivedBy] using (t.pipe s.other).inOrder
      | receive s' bs =>
        have hnothing : Tunnel.sentBy (some (.receive s' bs)) s.other = [] := rfl
        have hprefix := hreceived s
        rw [(hshows s).2, (hshows s.other).1, hnothing, List.append_nil] at hprefix
        rwa [(ht' s.other).1, (ht' s).2]
    obtain ⟨t', hstep, hpipes⟩ := Tunnel.step_some hnext
    refine ⟨t', hstep, ?_⟩
    intro s
    rw [(hpipes s).1, (hpipes s).2, (hshows s).1, (hshows s).2, (ht' s).1, (ht' s).2]
    exact ⟨rfl, rfl⟩

/-- The tunnel simulates what the world shows to the endpoints of a connection between valid addresses. -/
theorem tunnel_simulates (c : ConnId) {header : QpepHeader} (hvalid : header.Valid) :
    Simulates step (fun w a => w.headerFills c a = true ∧ ∀ l, w.view c = some l → l.header = header) (Relays c) (visible c)
      Tunnel.step (Tunnelled c) where
  keeps w a w' hi hok hs := relays_step hi hok.1 hs
  silent w a w' t hi ht hok hs hnone := by
    cases hv : w.view c with
    | some l => exact (follows_step hi ht hok.1 hs hv (hok.2 l hv ▸ hvalid)).1 hnone
    | none =>
      have hempty : t = .empty := by simpa only [Tunnelled, hv] using ht
      subst hempty
      cases hv' : w'.view c with
      | none => simp only [Tunnelled, hv']
      | some l' =>
        obtain ⟨header', rfl⟩ := view_enters hs hv hv'
        simp only [Tunnelled, hv']
        intro s
        cases s <;> exact ⟨rfl, rfl⟩
  answered w a w' t e hi ht hok hs he := by
    cases hv : w.view c with
    | some l => exact (follows_step hi ht hok.1 hs hv (hok.2 l hv ▸ hvalid)).2 e he
    | none => cases (hidden_of_none hs hv).symm.trans he

/-- For any number of connections, any order of their steps, and either value of `MultiStream`: what the two endpoints of a
connection with valid addresses do and see in a run is a run of the tunnel, if the Reads of its header fill their buffers;
in the end the pipes hold what the endpoints have sent and received. -/
theorem refines_tunnel (cfg : ClientConfig) (as : List Act) (w : World) (hrun : run step (World.init cfg) as = some w)
    (c : ConnId) (l : Link) (hl : w.view c = some l) (hv : l.header.Valid)
    (hok : Along step (fun w a => w.headerFills c a = true) (World.init cfg) as) :
    ∃ t, run Tunnel.step .empty (trace step (visible c) (World.init cfg) as) = some t ∧
      ∀ s, (t.pipe s).sent = (l.sock s).inn.sent ∧ (t.pipe s.other).received = (l.sock s).out.got := by
  have hinit : Relays c (World.init cfg) := ⟨owned_init cfg, fun _ h => by cases h⟩
  obtain ⟨t, ht, hrel, -⟩ := (tunnel_simulates c hv).run hinit (t := .empty) rfl hrun
    (hok.and (header_along (owned_init cfg) hrun hl))
  refine ⟨t, ht, ?_⟩
  simpa only [Tunnelled, hl] using hrel

/-- The destinations of both connections receive what the applications have sent. -/
def receivedRun : List Act :=
  relayedRun ++ [.dest 0 (.deliverOut 2), .dest 1 (.deliverOut 1), .dest 1 (.receive 1), .dest 0 (.receive 2)]

/-- What the endpoints of the first connection see, which is nothing of the second one. -/
theorem refines_tunnel_two : ∃ w t, run step (World.init ⟨true, 3⟩) receivedRun = some w ∧
    trace step (visible 0) (World.init ⟨true, 3⟩) receivedRun = [.send .client [71, 69], .receive .server [71, 69]] ∧
    run Tunnel.step .empty [.send .client [71, 69], .receive .server [71, 69]] = some t ∧
    (t.pipe .client).received = [71, 69] := by
  obtain ⟨w, hw⟩ : ∃ w, run step (World.init ⟨true, 3⟩) receivedRun = some w := ⟨_, rfl⟩
  obtain ⟨l, hl, hvalid, hgot⟩ : ∃ l, w.view 0 = some l ∧ l.header.Valid ∧ l.dest.out.got = [71, 69] := by
    cases hw
    exact ⟨_, rfl, by decide, rfl⟩
  obtain ⟨t, ht, hpipes⟩ := refines_tunnel ⟨true, 3⟩ receivedRun w hw 0 l hl hvalid (by decide)
  have htrace : trace step (visible 0) (World.init ⟨true, 3⟩) receivedRun =
      [.send .client [71, 69], .receive .server [71, 69]] := by
    rfl
  exact ⟨w, t, hw, htrace, htrace ▸ ht, (hpipes .server).2.trans hgot⟩

end World

end Qpep
