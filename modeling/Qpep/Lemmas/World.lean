import Qpep.World
import Qpep.Lemmas.Client
import Qpep.Lemmas.Flow

/-!
# One connection among all

Different handlers have different streams (`Owned`), so a step of one connection leaves the view of every other one as it
was, and what a step does to its own connection is a step of `Link`: each connection, on its own, runs as a `Link`
(`view_tracks`).
-/

namespace Qpep

open Net Io Machine

namespace Client

/-- A handler that stands there is getting a stream. -/
def Pc.opening : Pc → Bool
  | .relay _ _ | .returned => false
  | _ => true

/-- Each stream was opened, and has one handler. -/
structure OwnStreams (m : Client) : Prop where
  below : ∀ c h n r, m.handlers c = some h → h.pc = .relay n r → n < m.streams
  distinct : ∀ c c' h h' n r r', m.handlers c = some h → m.handlers c' = some h' → h.pc = .relay n r → h'.pc = .relay n r' →
    c = c'

namespace ClientAux

/-- The stream of a handler that moved: the one it had, or the next one. -/
theorem stream_of_move {m : Client} {h h' : Handler} {a : HandlerAct} {q : Option SessionId} {i k : Nat} {n : StreamId}
    {r : Relaying} (hm : Move m h a h' q i k) (hpc : h'.pc = .relay n r) :
    (∃ r₀, h.pc = .relay n r₀) ∨ n = m.streams ∧ k = m.streams + 1 := by
  cases hm with
  | opened s hpc' hlive =>
    cases hpc
    exact Or.inr ⟨rfl, rfl⟩
  | openedSync s hpc' hlive =>
    cases hpc
    exact Or.inr ⟨rfl, rfl⟩
  | relayed n' r₀ r' io hpc' hstep =>
    cases hpc
    exact Or.inl ⟨r₀, hpc'⟩
  | stored session failed hpc' => cases failed <;> cases hpc
  | _ => cases hpc

/-- A move opens at most one stream. -/
theorem streams_of_move {m : Client} {h h' : Handler} {a : HandlerAct} {q : Option SessionId} {i k : Nat}
    (hm : Move m h a h' q i k) : m.streams ≤ k := by
  cases hm with
  | opened => exact Nat.le_succ _
  | openedSync => exact Nat.le_succ _
  | _ => exact Nat.le_refl _

/-- No stream number is taken back. -/
theorem streams_mono {m m' : Client} {a : Act} (hs : m.step a = some m') : m.streams ≤ m'.streams := by
  obtain ⟨-, ⟨c, header, -, -, rfl⟩ | ⟨s, -, -, rfl⟩ | ⟨c, ha, h, h', q, n, k, -, -, hm, rfl⟩ | ⟨c, ha, h, -, -, -, -, rfl⟩⟩ :=
    step_cases hs
  · exact Nat.le_refl _
  · exact Nat.le_refl _
  · exact streams_of_move hm
  · exact Nat.le_refl _

theorem ownStreams_init (cfg : ClientConfig) : OwnStreams (init cfg) :=
  ⟨fun _ _ _ _ h => (by cases h), fun _ _ _ _ _ _ _ h => (by cases h)⟩

/-- Every step of the client keeps the streams apart. -/
theorem ownStreams_step {m m' : Client} {a : Act} (hi : OwnStreams m) (hs : m.step a = some m') : OwnStreams m' := by
  obtain ⟨-, ⟨c, header, -, -, rfl⟩ | ⟨s, -, -, rfl⟩ | ⟨c, ha, h, h', q, i, k, -, hh, hm, rfl⟩ | ⟨c, ha, h, -, -, -, -, rfl⟩⟩ :=
    step_cases hs
  · have hold : ∀ {c' x n r}, (m.set c (.start header)).handlers c' = some x → x.pc = .relay n r → m.handlers c' = some x := by
      intro c' x n r hx hpc
      rw [set_handlers] at hx
      split at hx
      · cases hx
        cases hpc
      · exact hx
    exact ⟨fun c' x n r hx hpc => hi.below c' x n r (hold hx hpc) hpc,
      fun c₁ c₂ x y n r r' hx hy hpx hpy => hi.distinct c₁ c₂ x y n r r' (hold hx hpx) (hold hy hpy) hpx hpy⟩
  · exact ⟨hi.below, hi.distinct⟩
  · -- a stream after the move belongs to a handler that had it, or it is the next one and belongs to the handler that moved
    have hold : ∀ {c' x n r}, (m.moved c h' q i k).handlers c' = some x → x.pc = .relay n r →
        (∃ x₀ r₀, m.handlers c' = some x₀ ∧ x₀.pc = .relay n r₀) ∨ c' = c ∧ n = m.streams ∧ k = m.streams + 1 := by
      intro c' x n r hx hpc
      rw [moved_handlers] at hx
      split at hx
      · rename_i hc
        cases hx
        rcases stream_of_move hm hpc with ⟨r₀, hpc₀⟩ | ⟨hn, hk⟩
        · exact Or.inl ⟨h, r₀, hc ▸ hh, hpc₀⟩
        · exact Or.inr ⟨hc, hn, hk⟩
      · exact Or.inl ⟨x, r, hx, hpc⟩
    refine ⟨?_, ?_⟩
    · intro c' x n r hx hpc
      rcases hold hx hpc with ⟨x₀, r₀, hx₀, hpc₀⟩ | ⟨-, hn, hk⟩
      · exact Nat.lt_of_lt_of_le (hi.below c' x₀ n r₀ hx₀ hpc₀) (streams_of_move hm)
      · rw [moved_streams, hn, hk]
        exact Nat.lt_succ_self _
    · intro c₁ c₂ x y n r r' hx hy hpx hpy
      rcases hold hx hpx with ⟨x₀, r₀, hx₀, hpx₀⟩ | ⟨hc₁, hn₁, -⟩
      · rcases hold hy hpy with ⟨y₀, s₀, hy₀, hpy₀⟩ | ⟨-, hn₂, -⟩
        · exact hi.distinct c₁ c₂ x₀ y₀ n r₀ s₀ hx₀ hy₀ hpx₀ hpy₀
        · exact absurd (hn₂ ▸ hi.below c₁ x₀ n r₀ hx₀ hpx₀) (Nat.lt_irrefl _)
      · rcases hold hy hpy with ⟨y₀, s₀, hy₀, hpy₀⟩ | ⟨hc₂, -, -⟩
        · exact absurd (hn₁ ▸ hi.below c₂ y₀ n s₀ hy₀ hpy₀) (Nat.lt_irrefl _)
        · exact hc₁.trans hc₂.symm
  · exact ⟨hi.below, hi.distinct⟩

/-- A handler comes into being only with the accept of its connection. -/
theorem handlers_enter {m m' : Client} {a : Act} (hs : m.step a = some m') {c : ConnId} (hnone : m.handlers c = none)
    (hsome : m'.handlers c ≠ none) : ∃ header, a = .accept c header ∧ m' = m.set c (.start header) := by
  obtain ⟨-, ⟨c₀, header, rfl, -, rfl⟩ | ⟨s, -, -, rfl⟩ | ⟨c₀, ha, h, h', q, i, k, -, hh, -, rfl⟩ | ⟨_, _, _, -, -, -, -, rfl⟩⟩ :=
    step_cases hs
  · by_cases hc : c = c₀
    · exact ⟨header, hc ▸ rfl, hc ▸ rfl⟩
    · simp [hc, hnone] at hsome
  · exact absurd hnone hsome
  · by_cases hc : c = c₀
    · subst hc
      cases hnone.symm.trans hh
    · simp [hc, hnone] at hsome
  · exact absurd hnone hsome

/-- A call of a handler that has a stream is a step of this part of it. -/
theorem relay_step {m m' : Client} {c : ConnId} {h : Handler} {n : StreamId} {r : Relaying} {io : RelayIo}
    (hh : m.handlers c = some h) (hpc : h.pc = .relay n r) (hs : m.step (.handler c (.relay io)) = some m') :
    ∃ r', r.step io = some r' ∧ m' = m.set c { h with pc := .relay n r' } := by
  obtain ⟨-, h₀, hh₀, ⟨h', q, i, k, hm, rfl⟩ | ⟨-, hcalls, -⟩⟩ := handler_some hs
  · cases hh.symm.trans hh₀
    cases hm with
    | relayed n' r₀ r' io' hpc' hstep =>
      cases hpc.symm.trans hpc'
      exact ⟨r', hstep, rfl⟩
  · cases hh.symm.trans hh₀
    rcases hcalls with h | h <;> cases hpc.symm.trans h

end ClientAux

end Client

namespace World

open Client.ClientAux Server.ServerAux

/-- Each stream has one handler of the client, and the server has accepted only streams that were opened. -/
structure Owned (w : World) : Prop where
  streams : w.client.OwnStreams
  unopened : ∀ n, w.client.streams ≤ n → w.server.streams n = none

/-- A Read of the header on the stream of this connection fills its buffer, if it returns a nil error. -/
def headerFills (w : World) (c : ConnId) : Act → Bool
  | .readHeader n k none =>
    match w.relaying c, w.serving n with
    | some (_, m, _), .header (.read b _) => m != n || k == b
    | _, _ => true
  | _ => true

namespace WorldAux

/-- On a session no more streams are opened than there are. -/
theorem openedOn_le (w : World) (s : SessionId) : w.openedOn s ≤ w.client.streams :=
  Nat.le_trans List.countP_le_length (Nat.le_of_eq List.length_range)

theorem after_client (w : World) (c : ConnId) (m : Client) : (w.after c m).client = m := by
  unfold after
  split
  · rfl
  · split <;> rfl

theorem after_server (w : World) (c : ConnId) (m : Client) : (w.after c m).server = w.server := by
  unfold after
  split
  · rfl
  · split <;> rfl

/-- A step of the client that is no call. -/
theorem client_of_clientStep {w w' : World} {a : Client.Act} (hs : w.clientStep a = some w') :
    w.client.step a = some w'.client ∧ w'.server = w.server := by
  cases a with
  | accept c header =>
    obtain ⟨m, hm, rfl⟩ := Option.map_eq_some_iff.mp hs
    exact ⟨hm, rfl⟩
  | sessionFail s =>
    obtain ⟨m, hm, rfl⟩ := Option.map_eq_some_iff.mp hs
    exact ⟨hm, rfl⟩
  | handler c ha =>
    cases ha with
    | relay io => cases hs
    | _ =>
      obtain ⟨m, hm, rfl⟩ := Option.map_eq_some_iff.mp hs
      exact ⟨hm.trans (congrArg some (after_client w c m).symm), after_server w c m⟩

/-- A step of the server that is no call. -/
theorem server_of_serverStep {w w' : World} {a : Server.Act} (hs : w.serverStep a = some w') :
    (∀ n io, a ≠ .handler n io) ∧ (∀ i n, a = .acceptStream i (some n) → n < w.client.streams) ∧
      ∃ s, w.server.step a = some s ∧ w' = { w with server := s } := by
  cases a with
  | acceptSession session =>
    simp only [serverStep, Option.ite_none_right_eq_some] at hs
    obtain ⟨s, hx, rfl⟩ := Option.map_eq_some_iff.mp hs.2
    exact ⟨by simp, by simp, s, hx, rfl⟩
  | goListenQuicConn =>
    obtain ⟨s, hx, rfl⟩ := Option.map_eq_some_iff.mp hs
    exact ⟨by simp, by simp, s, hx, rfl⟩
  | acceptStream i stream =>
    simp only [serverStep, Option.ite_none_right_eq_some] at hs
    obtain ⟨s, hx, rfl⟩ := Option.map_eq_some_iff.mp hs.2
    refine ⟨by simp, ?_, s, hx, rfl⟩
    intro j n ha
    cases ha
    exact (hs.1 n rfl).1
  | handler n io => cases hs

/-- A call of a handler of the client. -/
theorem clientCall_some {w w' : World} {c : ConnId} {n : StreamId} {io : Client.RelayIo} {app : Sock} {ch : Channel}
    {header : QpepHeader} {r : Client.Relaying} (hr : w.relaying c = some (header, n, r))
    (hs : w.clientCall c n io app ch = some w') :
    ∃ h r', w.client.handlers c = some h ∧ h.header = header ∧ h.pc = .relay n r ∧ r.step io = some r' ∧
      w' = ⟨w.client.set c { h with pc := .relay n r' }, w.server, Function.update w.apps c app,
        Function.update w.channels n ch⟩ := by
  simp only [relaying] at hr
  split at hr
  · rename_i header' n' r' d s hh
    cases hr
    obtain ⟨m, hm, rfl⟩ := Option.map_eq_some_iff.mp hs
    obtain ⟨r', hstep, rfl⟩ := relay_step hh rfl hm
    exact ⟨_, r', hh, rfl, rfl, hstep, rfl⟩
  · cases hr

/-- A call of a handler of the server. -/
theorem serverCall_some {w w' : World} {n : StreamId} {io : Server.ServerIo} {ch : Channel}
    (hs : w.serverCall n io ch = some w') :
    (w.serving n).step io = some (w'.serving n) ∧ (∀ n', n' ≠ n → w'.server.streams n' = w.server.streams n') ∧
      w.server.streams n ≠ none ∧ w'.client = w.client ∧ w'.apps = w.apps ∧ w'.channels = Function.update w.channels n ch := by
  obtain ⟨s, hx, rfl⟩ := Option.map_eq_some_iff.mp hs
  rcases streams_of_step hx with ⟨hno, -⟩ | ⟨i, m, session, ha, -⟩ | ⟨m, io', x, h', ha, hstream, hstep, hst⟩
  · exact absurd rfl (hno n io)
  · cases ha
  · cases ha
    refine ⟨?_, ?_, by simp [hstream], rfl, rfl, rfl⟩
    · simp only [serving, hst, hstream, Function.update_self]
      exact hstep
    · intro n' hn'
      simp only [hst, Function.update_of_ne hn']

/-- A step is one of the client or of the server, one of the environment, or a call; a dial is a call of its own. -/
theorem step_forms {w w' : World} {a : Act} (hs : w.step a = some w') :
    (∃ b, a = .client b ∧ w.clientStep b = some w') ∨ (∃ b, a = .server b ∧ w.serverStep b = some w') ∨
      (w'.client = w.client ∧ w'.server = w.server) ∨
      (∃ c header n r io app ch, w.relaying c = some (header, n, r) ∧ w.clientCall c n io app ch = some w') ∨
      ∃ n io ch, (∀ ok, io = .dialTimeout ok → a = .dialTimeout n ok) ∧ w.serverCall n io ch = some w' := by
  cases a with
  | client b => exact Or.inl ⟨b, rfl, hs⟩
  | server b => exact Or.inr (Or.inl ⟨b, rfl, hs⟩)
  | app c e =>
    simp only [step, Option.ite_none_right_eq_some] at hs
    obtain ⟨s, -, rfl⟩ := Option.map_eq_some_iff.mp hs.2
    exact Or.inr (Or.inr (Or.inl ⟨rfl, rfl⟩))
  | dest n e =>
    simp only [step] at hs
    split at hs
    case h_4 => cases hs
    all_goals
      obtain ⟨s, -, rfl⟩ := Option.map_eq_some_iff.mp hs
      exact Or.inr (Or.inr (Or.inl ⟨rfl, rfl⟩))
  | deliver n s k =>
    cases s <;> obtain ⟨h, -, rfl⟩ := Option.map_eq_some_iff.mp hs <;> exact Or.inr (Or.inr (Or.inl ⟨rfl, rfl⟩))
  | writeHeader c k ew =>
    simp only [step] at hs
    split at hs
    · rename_i header n r hr
      obtain ⟨h, -, hcall⟩ := Option.bind_eq_some_iff.mp hs
      exact Or.inr (Or.inr (Or.inr (Or.inl ⟨c, header, n, r, _, _, _, hr, hcall⟩)))
    · cases hs
  | clientLoop c name ev =>
    simp only [step] at hs
    split at hs
    · rename_i header n r hr
      obtain ⟨⟨p, io⟩, -, hcall⟩ := Option.bind_eq_some_iff.mp hs
      exact Or.inr (Or.inr (Or.inr (Or.inl ⟨c, header, n, _, _, _, _, hr, hcall⟩)))
    · cases hs
  | close c =>
    simp only [step] at hs
    split at hs
    · rename_i header n r hr
      exact Or.inr (Or.inr (Or.inr (Or.inl ⟨c, header, n, r, _, _, _, hr, hs⟩)))
    · cases hs
  | readHeader n k er =>
    obtain ⟨⟨bs, h⟩, -, hcall⟩ := Option.bind_eq_some_iff.mp hs
    exact Or.inr (Or.inr (Or.inr (Or.inr ⟨n, _, _, fun ok h => (by cases h), hcall⟩)))
  | dialTimeout n ok =>
    simp only [step] at hs
    split at hs
    · refine Or.inr (Or.inr (Or.inr (Or.inr ⟨n, _, _, ?_, hs⟩)))
      intro ok' h
      cases h
      rfl
    · cases hs
  | serverLoop n name ev =>
    simp only [step] at hs
    split at hs
    · obtain ⟨⟨p, io⟩, -, hcall⟩ := Option.bind_eq_some_iff.mp hs
      exact Or.inr (Or.inr (Or.inr (Or.inr ⟨n, _, _, fun ok h => (by cases h), hcall⟩)))
    · cases hs
  | cancelRead n => exact Or.inr (Or.inr (Or.inr (Or.inr ⟨n, _, _, fun ok h => (by cases h), hs⟩)))
  | cancelWrite n => exact Or.inr (Or.inr (Or.inr (Or.inr ⟨n, _, _, fun ok h => (by cases h), hs⟩)))

/-- A step is one of the client or of the server, one of the environment, or a call. -/
theorem step_kinds {w w' : World} {a : Act} (hs : w.step a = some w') :
    (∃ b, w.clientStep b = some w') ∨ (∃ b, w.serverStep b = some w') ∨ (w'.client = w.client ∧ w'.server = w.server) ∨
      (∃ c header n r io app ch, w.relaying c = some (header, n, r) ∧ w.clientCall c n io app ch = some w') ∨
      ∃ n io ch, w.serverCall n io ch = some w' := by
  rcases step_forms hs with ⟨b, -, h⟩ | ⟨b, -, h⟩ | h | h | ⟨n, io, ch, -, h⟩
  · exact Or.inl ⟨b, h⟩
  · exact Or.inr (Or.inl ⟨b, h⟩)
  · exact Or.inr (Or.inr (Or.inl h))
  · exact Or.inr (Or.inr (Or.inr (Or.inl h)))
  · exact Or.inr (Or.inr (Or.inr (Or.inr ⟨n, io, ch, h⟩)))

/-- In every step the client makes a step of its own, or none. -/
theorem client_of_step {w w' : World} {a : Act} (hs : w.step a = some w') :
    w'.client = w.client ∨ ∃ b, w.client.step b = some w'.client := by
  rcases step_kinds hs with ⟨b, hb⟩ | ⟨b, hb⟩ | ⟨hc, -⟩ | ⟨c, header, n, r, io, app, ch, -, hcall⟩ | ⟨n, io, ch, hcall⟩
  · exact Or.inr ⟨b, (client_of_clientStep hb).1⟩
  · obtain ⟨-, -, s, -, rfl⟩ := server_of_serverStep hb
    exact Or.inl rfl
  · exact Or.inl hc
  · obtain ⟨m, hm, rfl⟩ := Option.map_eq_some_iff.mp hcall
    exact Or.inr ⟨_, hm⟩
  · exact Or.inl (serverCall_some hcall).2.2.2.1

/-- The server accepts only streams that were opened. -/
theorem accepted_of_step {w w' : World} {a : Act} (hs : w.step a = some w') {n : StreamId}
    (hn : w'.server.streams n ≠ none) : w.server.streams n ≠ none ∨ n < w.client.streams := by
  rcases step_kinds hs with ⟨b, hb⟩ | ⟨b, hb⟩ | ⟨-, hserver⟩ | ⟨c, header, m, r, io, app, ch, -, hcall⟩ | ⟨m, io, ch, hcall⟩
  · rw [(client_of_clientStep hb).2] at hn
    exact Or.inl hn
  · obtain ⟨hno, hopened, s, hx, rfl⟩ := server_of_serverStep hb
    rcases streams_of_step hx with ⟨-, hst⟩ | ⟨i, m, session, rfl, -, hst⟩ | ⟨m, io, _, _, rfl, -⟩
    · exact Or.inl (hst ▸ hn)
    · simp only [hst] at hn
      by_cases hm : n = m
      · exact Or.inr (hm ▸ hopened i m rfl)
      · rw [Function.update_of_ne hm] at hn
        exact Or.inl hn
    · exact absurd rfl (hno m io)
  · exact Or.inl (hserver ▸ hn)
  · obtain ⟨m, -, rfl⟩ := Option.map_eq_some_iff.mp hcall
    exact Or.inl hn
  · obtain ⟨-, hother, hm, -⟩ := serverCall_some hcall
    by_cases h : n = m
    · exact Or.inl (h ▸ hm)
    · exact Or.inl (hother n h ▸ hn)

theorem owned_init (cfg : ClientConfig) : Owned (init cfg) := ⟨ownStreams_init cfg, fun _ _ => rfl⟩

/-- Every step keeps the streams apart. -/
theorem owned_step {w w' : World} {a : Act} (hi : Owned w) (hs : w.step a = some w') : Owned w' := by
  have hmono : w.client.OwnStreams → w'.client.OwnStreams ∧ w.client.streams ≤ w'.client.streams := by
    rcases client_of_step hs with h | ⟨b, hb⟩
    · exact fun hown => ⟨h ▸ hown, Nat.le_of_eq (congrArg Client.streams h).symm⟩
    · exact fun hown => ⟨ownStreams_step hown hb, streams_mono hb⟩
  obtain ⟨hown, hle⟩ := hmono hi.streams
  refine ⟨hown, ?_⟩
  intro n hn
  by_cases hnone : w'.server.streams n = none
  · exact hnone
  · have hle' : w.client.streams ≤ n := Nat.le_trans hle hn
    rcases accepted_of_step hs hnone with h | h
    · exact absurd (hi.unopened n hle') h
    · exact absurd h (Nat.not_lt.mpr hle')

/-! ## The view of a connection -/

theorem view_of_relaying {w : World} {c : ConnId} {header : QpepHeader} {n : StreamId} {r : Client.Relaying}
    (hr : w.relaying c = some (header, n, r)) : w.view c = some (w.streamLink c header n r) := by
  simp only [relaying] at hr
  split at hr
  · rename_i header' n' r' d s hh
    cases hr
    simp [view, hh, link]
  · cases hr

/-- The view of a connection changes only with its handler, its TCP connection and its stream. -/
theorem view_congr {w w' : World} {c : ConnId} (hh : w'.client.handlers c = w.client.handlers c) (happ : w'.apps c = w.apps c)
    (hstream : ∀ header n r, w.relaying c = some (header, n, r) →
      w'.channels n = w.channels n ∧ w'.serving n = w.serving n ∧ w'.lost n = w.lost n) : w'.view c = w.view c := by
  simp only [view, hh]
  cases hc : w.client.handlers c with
  | none => rfl
  | some h =>
    obtain ⟨header, pc, d, s⟩ := h
    cases pc with
    | relay n r =>
      have hr : w.relaying c = some (header, n, r) := by simp [relaying, hc]
      obtain ⟨hch, hserving, hlost⟩ := hstream header n r hr
      simp [link, streamLink, happ, hch, hserving, hlost]
    | _ => simp [link, happ]

/-- A step that changes one stream changes the view of the connection that has it, and of no other one. -/
theorem view_setChannel {w v : World} {n : StreamId} {ch : Channel} (hclient : v.client = w.client)
    (happs : v.apps = w.apps) (hch : v.channels = Function.update w.channels n ch)
    (hother : ∀ n', n' ≠ n → v.serving n' = w.serving n') (hsession : ch.session = (w.channels n).session) (c : ConnId) :
    (∃ header r, w.relaying c = some (header, n, r) ∧ v.view c = some ⟨header, .stream r, v.serving n, w.apps c, ch.dest, ch.up,
      ch.down, w.lost n, ch.headerOut, ch.headerIn, ch.dialled⟩) ∨ v.view c = w.view c := by
  by_cases hown : ∃ header r, w.relaying c = some (header, n, r)
  · obtain ⟨header, r, hr⟩ := hown
    refine Or.inl ⟨header, r, hr, ?_⟩
    have hr' : v.relaying c = some (header, n, r) := by rw [← hr, relaying, relaying, hclient]
    rw [view_of_relaying hr']
    simp [streamLink, happs, hch, lost, hclient, hsession]
  · refine Or.inr (view_congr (by rw [hclient]) (by rw [happs]) ?_)
    intro header m r hr
    have hne : m ≠ n := fun he => hown ⟨header, r, he ▸ hr⟩
    simp [hch, hother m hne, lost, hclient, Function.update_of_ne hne]

/-- The environment changes a stream. -/
theorem view_putChannel (w : World) (n : StreamId) (ch : Channel) (hsession : ch.session = (w.channels n).session) (c : ConnId) :
    (∃ header r, w.relaying c = some (header, n, r) ∧ ({ w with channels := Function.update w.channels n ch } : World).view c =
      some ⟨header, .stream r, w.serving n, w.apps c, ch.dest, ch.up, ch.down, w.lost n, ch.headerOut, ch.headerIn, ch.dialled⟩) ∨
    ({ w with channels := Function.update w.channels n ch } : World).view c = w.view c :=
  view_setChannel (w := w) (v := { w with channels := Function.update w.channels n ch }) (n := n) rfl rfl rfl (fun _ _ => rfl)
    hsession c

/-- A call of a handler of the client changes the view of its own connection only. -/
theorem view_clientCall {w w' : World} {c₀ : ConnId} {n : StreamId} {io : Client.RelayIo} {app : Sock} {ch : Channel}
    {header : QpepHeader} {r : Client.Relaying} (hi : Owned w) (hr : w.relaying c₀ = some (header, n, r))
    (hs : w.clientCall c₀ n io app ch = some w') (hsession : ch.session = (w.channels n).session) (c : ConnId) :
    (c = c₀ ∧ ∃ r', r.step io = some r' ∧ w'.view c = some ⟨header, .stream r', w.serving n, app, ch.dest, ch.up, ch.down,
      w.lost n, ch.headerOut, ch.headerIn, ch.dialled⟩) ∨ w'.view c = w.view c := by
  obtain ⟨h, r', hh, rfl, hpc, hstep, rfl⟩ := clientCall_some hr hs
  by_cases hc : c = c₀
  · subst hc
    refine Or.inl ⟨rfl, r', hstep, ?_⟩
    simp [view, link, streamLink, serving, lost, hsession, Client.set]
  · refine Or.inr (view_congr (by simp [hc]) (Function.update_of_ne hc _ _) ?_)
    intro header' m s hr'
    -- the other connection has another stream
    have hne : m ≠ n := by
      rintro rfl
      simp only [relaying] at hr'
      split at hr'
      · rename_i hh'
        cases hr'
        exact hc (hi.streams.distinct c c₀ _ h m _ r hh' hh rfl hpc)
      · cases hr'
    simp [serving, lost, Client.set, Function.update_of_ne hne]

/-- A call of a handler of the server changes the view of the connection that has the stream, and of no other one. -/
theorem view_serverCall {w w' : World} {n : StreamId} {io : Server.ServerIo} {ch : Channel}
    (hs : w.serverCall n io ch = some w') (hsession : ch.session = (w.channels n).session) (c : ConnId) :
    (∃ header r x, w.relaying c = some (header, n, r) ∧ (w.serving n).step io = some x ∧ w'.view c = some ⟨header, .stream r, x,
      w.apps c, ch.dest, ch.up, ch.down, w.lost n, ch.headerOut, ch.headerIn, ch.dialled⟩) ∨ w'.view c = w.view c := by
  obtain ⟨hstep, hstreams, -, hclient, happs, hch⟩ := serverCall_some hs
  have hother : ∀ n', n' ≠ n → w'.serving n' = w.serving n' := fun n' hn' => by simp only [serving, hstreams n' hn']
  refine (view_setChannel hclient happs hch hother hsession c).imp_left ?_
  rintro ⟨header, r, hr, hview⟩
  exact ⟨header, r, _, hr, hstep, hview⟩

/-- The acceptance of sessions and streams changes no view: a stream accepted is at its start, as it was before. -/
theorem view_serverStep {w w' : World} {a : Server.Act} (hs : w.serverStep a = some w') (c : ConnId) : w'.view c = w.view c := by
  obtain ⟨hno, -, s, hx, rfl⟩ := server_of_serverStep hs
  refine view_congr rfl rfl fun header n r _ => ⟨rfl, ?_, rfl⟩
  rcases streams_of_step hx with ⟨-, hst⟩ | ⟨i, m, session, -, hnone, hst⟩ | ⟨m, io, _, _, rfl, -⟩
  · simp only [serving, hst]
  · by_cases hm : n = m
    · subst hm
      simp [serving, hst, hnone, Server.Stream.start]
    · simp only [serving, hst, Function.update_of_ne hm]
  · exact absurd rfl (hno m io)

/-- What a step of a handler that had no stream does around it, unless it ends the process. -/
theorem after_cases {w : World} {c : ConnId} {m : Client} {h : Client.Handler} (hh : m.handlers c = some h)
    (hc : m.crashed = false) :
    (∃ n s, h.pc = .relay n .header ∧ h.session = some s ∧
      w.after c m = { w with client := m, channels := Function.update w.channels n (.fresh s) }) ∨
    (h.pc = .returned ∧ w.after c m = { w with client := m, apps := Function.update w.apps c (w.apps c).close }) ∨
    ((∀ n s, h.pc = .relay n .header → h.session ≠ some s) ∧ h.pc ≠ .returned ∧ w.after c m = { w with client := m }) := by
  simp only [after, hc, Bool.false_eq_true, if_false, hh]
  split
  · rename_i hd
    cases hd
    exact Or.inl ⟨_, _, rfl, rfl, rfl⟩
  · rename_i hd
    cases hd
    exact Or.inr (Or.inl ⟨rfl, rfl⟩)
  · rename_i hopen hret
    obtain ⟨header, pc, d, session⟩ := h
    refine Or.inr (Or.inr ⟨?_, ?_, rfl⟩)
    · rintro n s rfl rfl
      exact hopen header n d s rfl
    · rintro rfl
      exact hret header d session rfl

/-- A handler that is getting a stream: what belongs to its connection. -/
theorem link_opening {w : World} {c : ConnId} {h : Client.Handler} (ho : h.pc.opening = true) :
    w.link c h = { Link.init h.header with app := w.apps c } := by
  obtain ⟨header, pc, d, s⟩ := h
  cases pc with
  | relay n r => cases ho
  | returned => cases ho
  | _ => rfl

/-- A step of a handler that is still getting a stream does nothing around it. -/
theorem after_opening {w : World} {c : ConnId} {m : Client} {h : Client.Handler} (hh : m.handlers c = some h)
    (hc : m.crashed = false) (ho : h.pc.opening = true) : w.after c m = { w with client := m } := by
  rcases after_cases (w := w) hh hc with ⟨n, s, hpc, -⟩ | ⟨hpc, -⟩ | ⟨-, -, he⟩
  · cases (hpc ▸ ho : (Client.Pc.relay n .header).opening = true)
  · cases (hpc ▸ ho : Client.Pc.returned.opening = true)
  · exact he

/-- A handler that is getting a stream, and one step later: it has the next stream, on a session that is up, or it has
returned, or it is still getting one. -/
theorem move_opening {m : Client} {h h' : Client.Handler} {a : Client.HandlerAct} {q : Option SessionId} {i k : Nat}
    (hm : Client.Move m h a h' q i k) (hno : ∀ io, a ≠ .relay io) :
    h.pc.opening = true ∧ h'.header = h.header ∧
      ((∃ s, h'.pc = .relay m.streams .header ∧ h'.session = some s ∧ m.failed s = false) ∨ h'.pc = .returned ∨
        h'.pc.opening = true) := by
  have hbefore : ∀ {pc}, h.pc = pc → pc.opening = true → h.pc.opening = true := fun hpc ho => hpc ▸ ho
  cases hm with
  | opened s hpc hlive | openedSync s hpc hlive => exact ⟨hbefore hpc rfl, rfl, Or.inl ⟨s, rfl, rfl, hlive⟩⟩
  | refusedSync s hpc => exact ⟨hbefore hpc rfl, rfl, Or.inr (Or.inl rfl)⟩
  | stored session failed hpc =>
    refine ⟨hbefore hpc rfl, rfl, Or.inr ?_⟩
    cases failed with
    | true => exact Or.inl rfl
    | false => exact Or.inr rfl
  | relayed n r r' io hpc hstep => exact absurd rfl (hno io)
  | tryOpen hpc | noOpen hpc | load s hpc | refused s hpc | dialled i failed hpc | retry i failed hpc | exhausted i failed hpc
  | loadSync s hpc => exact ⟨hbefore hpc rfl, rfl, Or.inr (Or.inr rfl)⟩

/-- A handler that gets a stream, or gives up, is seen so; any other step of a handler without a stream is not seen. -/
theorem view_handler {w : World} {c₀ : ConnId} {a : Client.HandlerAct} {h h' : Client.Handler} {q : Option SessionId} {i k : Nat}
    (hi : Owned w) (hrunning : w.client.crashed = false) (hh : w.client.handlers c₀ = some h)
    (hm : Client.Move w.client h a h' q i k) (hno : ∀ io, a ≠ .relay io) {c : ConnId} {l : Link} (hv : w.view c = some l) :
    ∃ l', (w.after c₀ (w.client.moved c₀ h' q i k)).view c = some l' ∧
      (l' = l ∨ l.step .openStream = some l' ∨ l.step .drop = some l') := by
  obtain ⟨hopening, hheader, hnext⟩ := move_opening hm hno
  have hh' : (w.client.moved c₀ h' q i k).handlers c₀ = some h' := by simp
  by_cases hc : c = c₀
  · subst hc
    have hl : l = { Link.init h.header with app := w.apps c } := by
      rw [← link_opening hopening]
      simpa [view, hh] using hv.symm
    subst hl
    rcases hnext with ⟨s, hpc, hs, hlive⟩ | hpc | hopening'
    · rcases after_cases (w := w) hh' hrunning with ⟨n, s', hpc', hs', he⟩ | ⟨hret', -⟩ | ⟨hopen, -⟩
      · cases hpc.symm.trans hpc'
        cases hs.symm.trans hs'
        have hstart : w.serving w.client.streams = .start := by
          simp only [serving, hi.unopened _ (Nat.le_refl _)]
        refine ⟨{ Link.init h.header with app := w.apps c, client := .stream .header }, ?_, Or.inr (Or.inl ?_)⟩
        · rw [he]
          have hlost : (w.client.moved c h' q i k).failed s = false := hlive
          simp [view, link, hpc, hheader, streamLink, lost, hlost, Channel.fresh, Link.init]
          exact hstart
        · simp [Link.step, Link.init]
      · cases hpc.symm.trans hret'
      · exact absurd hs (hopen _ s hpc)
    · rcases after_cases (w := w) hh' hrunning with ⟨n, s', hpc', -⟩ | ⟨-, he⟩ | ⟨-, hret', -⟩
      · cases hpc.symm.trans hpc'
      · refine ⟨{ Link.init h.header with client := .dropped, app := (w.apps c).close }, ?_, Or.inr (Or.inr ?_)⟩
        · rw [he]
          simp [view, link, hpc, hheader]
        · simp [Link.step, Link.init]
      · exact absurd hpc hret'
    · refine ⟨_, ?_, Or.inl rfl⟩
      rw [after_opening hh' hrunning hopening']
      simp [view, link_opening hopening', hheader]
  · refine ⟨l, ?_, Or.inl rfl⟩
    rw [← hv]
    have hmoved : (w.client.moved c₀ h' q i k).handlers c = w.client.handlers c := by simp [hc]
    rcases after_cases (w := w) hh' hrunning with ⟨n, s, hpc, -, he⟩ | ⟨-, he⟩ | ⟨-, -, he⟩
    · -- a stream just opened belongs to no other connection
      have hn : n = w.client.streams := by
        rcases hnext with ⟨_, hpc', -⟩ | hpc' | hopening'
        · cases hpc'.symm.trans hpc
          rfl
        · cases hpc'.symm.trans hpc
        · cases (hpc ▸ hopening' : (Client.Pc.relay n .header).opening = true)
      rw [he]
      refine view_congr hmoved rfl ?_
      intro header m r hr
      have hne : m ≠ n := by
        rintro rfl
        simp only [relaying] at hr
        split at hr
        · rename_i hx
          cases hr
          exact absurd (hn ▸ hi.streams.below c _ m r hx rfl) (Nat.lt_irrefl _)
        · cases hr
      simp [serving, lost, Client.moved, Client.set, Function.update_of_ne hne]
    · rw [he]
      exact view_congr hmoved (Function.update_of_ne hc _ _) fun _ _ _ _ => ⟨rfl, rfl, rfl⟩
    · rw [he]
      exact view_congr hmoved rfl fun _ _ _ _ => ⟨rfl, rfl, rfl⟩

/-- The failure of a session is seen by the connections whose stream is on it. -/
theorem view_sessionFail {w : World} {s : SessionId} {m : Client}
    (hm : m = { w.client with failed := Function.update w.client.failed s true }) {c : ConnId} {l : Link}
    (hv : w.view c = some l) :
    ∃ l', ({ w with client := m } : World).view c = some l' ∧ (l' = l ∨ l.step .sessionFail = some l') := by
  subst hm
  have hkeep : (∀ header n r, w.relaying c = some (header, n, r) → (w.channels n).session = s → w.lost n = true) →
      ∃ l', ({ w with client := { w.client with failed := Function.update w.client.failed s true } } : World).view c = some l' ∧
        (l' = l ∨ l.step .sessionFail = some l') := by
    intro h
    refine ⟨l, hv ▸ view_congr rfl rfl fun header n r hr => ⟨rfl, rfl, ?_⟩, Or.inl rfl⟩
    simp only [lost, Function.update_apply]
    split
    · rename_i hs
      exact (h header n r hr hs).symm
    · rfl
  by_cases hown : ∃ header n r, w.relaying c = some (header, n, r) ∧ (w.channels n).session = s ∧ w.lost n = false
  · obtain ⟨header, n, r, hr, hs, hlost⟩ := hown
    cases hv.symm.trans (view_of_relaying hr)
    refine ⟨{ w.streamLink c header n r with sessionDown := true }, ?_, Or.inr ?_⟩
    · rw [view_of_relaying (w := { w with client := { w.client with failed := Function.update w.client.failed s true } }) hr]
      simp [streamLink, lost, hs, serving]
    · simp [Link.step, streamLink, hlost]
  · refine hkeep ?_
    intro header n r hr hs
    cases hl : w.lost n with
    | true => rfl
    | false => exact absurd ⟨header, n, r, hr, hs, hl⟩ hown

/-- Every connection has the TCP connection that was accepted for it. -/
theorem link_app (w : World) (c : ConnId) (h : Client.Handler) : (w.link c h).app = w.apps c := by
  simp only [link]
  split <;> rfl

/-- When the process ends, every connection sees its TCP connection break, unless it has broken before. -/
theorem view_crash (w : World) {c : ConnId} {l : Link} (hv : w.view c = some l) :
    ∃ l', ({ w with client := { w.client with crashed := true }, apps := fun c => (w.apps c).fault } : World).view c = some l' ∧
      (l' = l ∨ ∃ a ∈ [Link.Act.openStream, .drop, .sessionFail, .app .fault], l.step a = some l') := by
  obtain ⟨h, hh, rfl⟩ := Option.map_eq_some_iff.mp hv
  have happ := link_app w c h
  refine ⟨{ w.link c h with app := (w.apps c).fault }, ?_, ?_⟩
  · simp only [view, hh, Option.map_some, link]
    split <;> simp [streamLink, serving, lost]
  · cases hb : (w.apps c).broken with
    | true =>
      left
      have hsame : (w.apps c).fault = (w.link c h).app := by rw [happ, Sock.fault, ← hb]
      rw [hsame]
    | false => exact Or.inr ⟨.app .fault, by simp, by simp [Link.step, happ, Sock.env, hb]⟩

/-- A handler that has no stream makes a move, or it calls a method on a nil session and the process ends. -/
theorem handlerStep_cases {w w' : World} {c : ConnId} {a : Client.HandlerAct} (hs : w.clientStep (.handler c a) = some w') :
    w.client.crashed = false ∧ ∃ h, w.client.handlers c = some h ∧
      ((∃ h' q i k, Client.Move w.client h a h' q i k ∧ (∀ io, a ≠ .relay io) ∧ w' = w.after c (w.client.moved c h' q i k)) ∨
        w.client.quicSession = none ∧ h.pc.Calls ∧
          w' = { w with client := { w.client with crashed := true }, apps := fun c => (w.apps c).fault }) := by
  have hno : ∀ io, a ≠ .relay io := by
    rintro io rfl
    cases hs
  have he : w' = w.after c w'.client := by
    cases a with
    | relay io => exact absurd rfl (hno io)
    | _ =>
      obtain ⟨m, -, rfl⟩ := Option.map_eq_some_iff.mp hs
      rw [after_client]
  obtain ⟨hc, h, hh, ⟨h', q, i, k, hm, hmoved⟩ | ⟨hq, hpc, hcrashed⟩⟩ := handler_some (client_of_clientStep hs).1
  · exact ⟨hc, h, hh, Or.inl ⟨h', q, i, k, hm, hno, hmoved ▸ he⟩⟩
  · exact ⟨hc, h, hh, Or.inr ⟨hq, hpc, by rw [he, hcrashed]; rfl⟩⟩

/-- A step of the client that is no call. -/
theorem view_clientStep {w w' : World} {b : Client.Act} (hi : Owned w) (hs : w.clientStep b = some w') {c : ConnId} {l : Link}
    (hv : w.view c = some l) :
    ∃ l', w'.view c = some l' ∧ (l' = l ∨ ∃ a ∈ [Link.Act.openStream, .drop, .sessionFail, .app .fault], l.step a = some l') := by
  cases b with
  | accept c₀ header =>
    obtain ⟨m, hm, rfl⟩ := Option.map_eq_some_iff.mp hs
    obtain ⟨-, hnone, rfl⟩ := accept_some hm
    have hc : c ≠ c₀ := by
      rintro rfl
      simp [view, hnone] at hv
    refine ⟨l, hv ▸ view_congr ?_ (Function.update_of_ne hc _ _) fun _ _ _ _ => ⟨rfl, rfl, rfl⟩, Or.inl rfl⟩
    simp [hc]
  | sessionFail s =>
    obtain ⟨m, hm, rfl⟩ := Option.map_eq_some_iff.mp hs
    obtain ⟨l', hl', hl⟩ := view_sessionFail (sessionFail_some hm).2 hv
    exact ⟨l', hl', hl.imp_right fun h => ⟨.sessionFail, by simp, h⟩⟩
  | handler c₀ a =>
    obtain ⟨hrunning, h, hh, ⟨h', q, i, k, hm, hno, rfl⟩ | ⟨-, -, rfl⟩⟩ := handlerStep_cases hs
    · obtain ⟨l', hl', hl⟩ := view_handler hi hrunning hh hm hno hv
      refine ⟨l', hl', hl.imp_right ?_⟩
      rintro (h | h)
      · exact ⟨.openStream, by simp, h⟩
      · exact ⟨.drop, by simp, h⟩
    · exact view_crash w hv

/-- A step of the world, seen from one connection: nothing, or a step of it. -/
def Seen (w w' : World) (a : Act) (c : ConnId) (l : Link) : Prop :=
  ∃ l', w'.view c = some l' ∧ (l' = l ∨ ∃ b, (w.headerFills c a = true → l.headerFills b = true) ∧ l.step b = some l')

/-- A step that changes the view of a connection in one way, or not at all. -/
theorem Seen.intro {w w' : World} {a : Act} {c : ConnId} {l : Link} {own : Prop} (hv : w.view c = some l)
    (h : own ∨ w'.view c = w.view c)
    (hown : own → ∃ l', w'.view c = some l' ∧
      ∃ b, (w.headerFills c a = true → l.headerFills b = true) ∧ l.step b = some l') : Seen w w' a c l := by
  rcases h with h | hsame
  · obtain ⟨l', hl', hstep⟩ := hown h
    exact ⟨l', hl', Or.inr hstep⟩
  · exact ⟨l, hsame.trans hv, Or.inl rfl⟩

theorem link_of_relaying {w : World} {c : ConnId} {l : Link} {header : QpepHeader} {n : StreamId} {r : Client.Relaying}
    (hv : w.view c = some l) (hr : w.relaying c = some (header, n, r)) : l = w.streamLink c header n r :=
  Option.some.inj (hv.symm.trans (view_of_relaying hr))

/-- An endpoint of a TCP connection of the client makes a step. -/
theorem seen_app {w w' : World} {c₀ : ConnId} {e : SockEnv} (hs : w.step (.app c₀ e) = some w') {c : ConnId} {l : Link}
    (hv : w.view c = some l) : Seen w w' (.app c₀ e) c l := by
  simp only [step, Option.ite_none_right_eq_some] at hs
  obtain ⟨s, he, rfl⟩ := Option.map_eq_some_iff.mp hs.2
  by_cases hc : c = c₀
  · subst hc
    obtain ⟨h, hh, rfl⟩ := Option.map_eq_some_iff.mp hv
    have happ : (w.link c h).app = w.apps c := by
      simp only [link]
      split <;> rfl
    refine ⟨{ w.link c h with app := s }, ?_, Or.inr ⟨.app e, fun _ => rfl, by simp [Link.step, happ, he]⟩⟩
    simp only [view, hh, Option.map_some, link]
    split <;> simp [streamLink, serving, lost]
  · exact ⟨l, hv ▸ view_congr rfl (Function.update_of_ne hc _ _) fun _ _ _ _ => ⟨rfl, rfl, rfl⟩, Or.inl rfl⟩

/-- A destination makes a step. -/
theorem seen_dest {w w' : World} {n : StreamId} {e : SockEnv} (hs : w.step (.dest n e) = some w') {c : ConnId} {l : Link}
    (hv : w.view c = some l) : Seen w w' (.dest n e) c l := by
  have hsome : ∃ s, (w.channels n).dest.env e = some s ∧
      w' = { w with channels := Function.update w.channels n { w.channels n with dest := s } } ∧
      ∀ l₀ : Link, l₀.server = w.serving n → (l₀.relay .server).isSome = true := by
    simp only [step] at hs
    split at hs
    case h_4 => cases hs
    all_goals
      rename_i hserving
      obtain ⟨s, he, rfl⟩ := Option.map_eq_some_iff.mp hs
      exact ⟨s, he, rfl, fun l₀ hl₀ => by simp [Link.relay, hl₀, hserving]⟩
  obtain ⟨s, he, rfl, hrel⟩ := hsome
  refine .intro hv (view_putChannel w n { w.channels n with dest := s } rfl c) ?_
  rintro ⟨header, r, hr, hl'⟩
  refine ⟨_, hl', .dest e, fun _ => rfl, ?_⟩
  rw [link_of_relaying hv hr]
  have hsome := hrel (w.streamLink c header n r) rfl
  simp only [Link.step, hsome, if_true]
  simp only [streamLink, he, Option.map_some]

/-- The network delivers on a stream. -/
theorem seen_deliver {w w' : World} {n : StreamId} {s : Side} {k : Nat} (hs : w.step (.deliver n s k) = some w') {c : ConnId}
    {l : Link} (hv : w.view c = some l) : Seen w w' (.deliver n s k) c l := by
  cases s with
  | client =>
    obtain ⟨h, hd, rfl⟩ := Option.map_eq_some_iff.mp hs
    refine .intro hv (view_putChannel w n { w.channels n with up := h } rfl c) ?_
    rintro ⟨header, r, hr, hl'⟩
    refine ⟨_, hl', .deliver .client k, fun _ => rfl, ?_⟩
    rw [link_of_relaying hv hr]
    simp only [Link.step, streamLink, hd, Option.map_some]
  | server =>
    obtain ⟨h, hd, rfl⟩ := Option.map_eq_some_iff.mp hs
    refine .intro hv (view_putChannel w n { w.channels n with down := h } rfl c) ?_
    rintro ⟨header, r, hr, hl'⟩
    refine ⟨_, hl', .deliver .server k, fun _ => rfl, ?_⟩
    rw [link_of_relaying hv hr]
    simp only [Link.step, streamLink, hd, Option.map_some]

/-- A handler of the client makes a call. -/
theorem seen_clientCall {w w' : World} {c₀ : ConnId} {a : Act} (hi : Owned w)
    (ha : (∃ k ew, a = .writeHeader c₀ k ew) ∨ (∃ name ev, a = .clientLoop c₀ name ev) ∨ a = .close c₀)
    (hs : w.step a = some w') {c : ConnId} {l : Link} (hv : w.view c = some l) : Seen w w' a c l := by
  rcases ha with ⟨k, ew, rfl⟩ | ⟨name, ev, rfl⟩ | rfl
  · simp only [step] at hs
    split at hs
    · rename_i header n r hr
      obtain ⟨h, hw, hcall⟩ := Option.bind_eq_some_iff.mp hs
      refine .intro hv (view_clientCall hi hr hcall rfl c) ?_
      rintro ⟨rfl, r', hstep, hl'⟩
      refine ⟨_, hl', .writeHeader k ew, fun _ => rfl, ?_⟩
      rw [link_of_relaying hv hr]
      simp [Link.step, streamLink, hw, hstep]
    · cases hs
  · simp only [step] at hs
    split at hs
    · rename_i header n r hr
      obtain ⟨⟨p, io⟩, hp, hcall⟩ := Option.bind_eq_some_iff.mp hs
      refine .intro hv (view_clientCall hi hr hcall rfl c) ?_
      rintro ⟨rfl, r', hstep, hl'⟩
      refine ⟨_, hl', .loop .client name ev, fun _ => rfl, ?_⟩
      rw [link_of_relaying hv hr]
      simp [Link.step, Link.clientLoop, Link.port, Link.sock, Link.half, Side.other, Link.setPort, streamLink, hp, hstep]
    · cases hs
  · simp only [step] at hs
    split at hs
    · rename_i header n r hr
      refine .intro hv (view_clientCall hi hr hs rfl c) ?_
      rintro ⟨rfl, r', hstep, hl'⟩
      refine ⟨_, hl', .close, fun _ => rfl, ?_⟩
      rw [link_of_relaying hv hr]
      simp [Link.step, streamLink, hstep]
    · cases hs

/-- A handler of the server makes a call. -/
theorem seen_serverCall {w w' : World} {n : StreamId} {a : Act}
    (ha : (∃ k er, a = .readHeader n k er) ∨ (∃ ok, a = .dialTimeout n ok) ∨ (∃ name ev, a = .serverLoop n name ev) ∨
      a = .cancelRead n ∨ a = .cancelWrite n)
    (hs : w.step a = some w') {c : ConnId} {l : Link} (hv : w.view c = some l) : Seen w w' a c l := by
  rcases ha with ⟨k, er, rfl⟩ | ⟨ok, rfl⟩ | ⟨name, ev, rfl⟩ | rfl | rfl
  · obtain ⟨⟨bs, h⟩, hread, hcall⟩ := Option.bind_eq_some_iff.mp hs
    refine .intro hv (view_serverCall hcall rfl c) ?_
    rintro ⟨header, r, x, hr, hstep, hl'⟩
    refine ⟨_, hl', .readHeader k er, ?_, ?_⟩
    · intro hfill
      rw [link_of_relaying hv hr]
      cases er with
      | some e => rfl
      | none =>
        simp only [headerFills, hr] at hfill
        simp only [Link.headerFills, streamLink]
        split
        · rename_i b f hserving
          simpa [hserving] using hfill
        · rfl
    · rw [link_of_relaying hv hr]
      simp [Link.step, streamLink, hread, hstep]
  · simp only [step] at hs
    split at hs
    · rename_i q hserving
      refine .intro hv (view_serverCall hs rfl c) ?_
      rintro ⟨header, r, x, hr, hstep, hl'⟩
      refine ⟨_, hl', .dialTimeout ok, fun _ => rfl, ?_⟩
      rw [link_of_relaying hv hr]
      simp only [Link.step, streamLink, hserving]
      rw [← hserving, hstep]
      rfl
    · cases hs
  · simp only [step] at hs
    split at hs
    · rename_i q r₀ hserving
      obtain ⟨⟨p, io⟩, hp, hcall⟩ := Option.bind_eq_some_iff.mp hs
      refine .intro hv (view_serverCall hcall rfl c) ?_
      rintro ⟨header, r, x, hr, hstep, hl'⟩
      refine ⟨_, hl', .loop .server name ev, fun _ => rfl, ?_⟩
      rw [link_of_relaying hv hr]
      rw [hserving] at hstep
      simp [Link.step, Link.serverLoop, Link.port, Link.sock, Link.half, Side.other, Link.setPort, streamLink, hserving, hp,
        hstep]
    · cases hs
  · refine .intro hv (view_serverCall hs rfl c) ?_
    rintro ⟨header, r, x, hr, hstep, hl'⟩
    refine ⟨_, hl', .cancelRead, fun _ => rfl, ?_⟩
    rw [link_of_relaying hv hr]
    simp [Link.step, streamLink, hstep]
  · refine .intro hv (view_serverCall hs rfl c) ?_
    rintro ⟨header, r, x, hr, hstep, hl'⟩
    refine ⟨_, hl', .cancelWrite, fun _ => rfl, ?_⟩
    rw [link_of_relaying hv hr]
    simp [Link.step, streamLink, hstep]

/-- What a step of the world does to one connection: nothing, or a step of it. -/
theorem seen_step {w w' : World} {a : Act} (hi : Owned w) (hs : w.step a = some w') {c : ConnId} {l : Link}
    (hv : w.view c = some l) : Seen w w' a c l := by
  cases a with
  | client b =>
    obtain ⟨l', hl', rfl | ⟨a, ha, hl⟩⟩ := view_clientStep hi hs hv
    · exact ⟨l', hl', Or.inl rfl⟩
    · refine ⟨l', hl', Or.inr ⟨a, fun _ => ?_, hl⟩⟩
      simp only [List.mem_cons, List.not_mem_nil, or_false] at ha
      rcases ha with rfl | rfl | rfl | rfl <;> rfl
  | server b => exact ⟨l, (view_serverStep hs c).trans hv, Or.inl rfl⟩
  | app c₀ e => exact seen_app hs hv
  | dest n e => exact seen_dest hs hv
  | deliver n s k => exact seen_deliver hs hv
  | writeHeader c₀ k ew => exact seen_clientCall hi (Or.inl ⟨k, ew, rfl⟩) hs hv
  | clientLoop c₀ name ev => exact seen_clientCall hi (Or.inr (Or.inl ⟨name, ev, rfl⟩)) hs hv
  | close c₀ => exact seen_clientCall hi (Or.inr (Or.inr rfl)) hs hv
  | readHeader n k er => exact seen_serverCall (Or.inl ⟨k, er, rfl⟩) hs hv
  | dialTimeout n ok => exact seen_serverCall (Or.inr (Or.inl ⟨ok, rfl⟩)) hs hv
  | serverLoop n name ev => exact seen_serverCall (Or.inr (Or.inr (Or.inl ⟨name, ev, rfl⟩))) hs hv
  | cancelRead n => exact seen_serverCall (Or.inr (Or.inr (Or.inr (Or.inl rfl)))) hs hv
  | cancelWrite n => exact seen_serverCall (Or.inr (Or.inr (Or.inr (Or.inr rfl)))) hs hv

/-- A connection comes into being just accepted. -/
theorem view_enters {w w' : World} {a : Act} (hs : w.step a = some w') {c : ConnId} {l : Link} (hnone : w.view c = none)
    (hv : w'.view c = some l) : ∃ header, l = Link.init header := by
  have hbefore : w.client.handlers c = none := Option.map_eq_none_iff.mp hnone
  have hafter : w'.client.handlers c ≠ none := by
    intro h
    simp [view, h] at hv
  have hsame : w'.client ≠ w.client := fun h => hafter (h ▸ hbefore)
  rcases step_kinds hs with ⟨b, hb⟩ | ⟨b, hb⟩ | ⟨hc, -⟩ | ⟨c₀, header, n, r, io, app, ch, -, hcall⟩ | ⟨n, io, ch, hcall⟩
  · obtain ⟨header, rfl, hm⟩ := handlers_enter (client_of_clientStep hb).1 hbefore hafter
    obtain ⟨m, -, rfl⟩ := Option.map_eq_some_iff.mp hb
    refine ⟨header, ?_⟩
    simp only at hm
    simpa [view, hm, link, Client.Handler.start, Link.init] using hv.symm
  · obtain ⟨-, -, s, -, rfl⟩ := server_of_serverStep hb
    exact absurd rfl hsame
  · exact absurd hc hsame
  · obtain ⟨m, hm, rfl⟩ := Option.map_eq_some_iff.mp hcall
    obtain ⟨_, ha, -⟩ := handlers_enter hm hbefore hafter
    cases ha
  · exact absurd (serverCall_some hcall).2.2.2.1 hsame

/-- Each connection, on its own, runs as a `Link`. -/
theorem view_tracks (c : ConnId) :
    Tracks step (fun w a => w.headerFills c a = true) Owned Link.step (fun l a => l.headerFills a = true)
      (fun l => ∃ header, l = Link.init header) (fun w => w.view c) where
  keeps _ _ _ hi hs := owned_step hi hs
  enters _ _ _ _ _ hs hnone hv := view_enters hs hnone hv
  matched w a w' l hi hok hs hv := by
    obtain ⟨l', hl', hstep⟩ := seen_step hi hs hv
    refine ⟨l', hl', hstep.imp_right ?_⟩
    rintro ⟨b, hfill, hb⟩
    exact ⟨b, hfill hok, hb⟩

end WorldAux

end World

end Qpep
