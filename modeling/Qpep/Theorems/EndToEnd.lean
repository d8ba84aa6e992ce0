import Qpep.Lemmas.World

/-!
# From end to end

What the server dials for a connection, and what its two endpoints receive, for any number of connections in any order of
steps. Each connection runs on its own (`view_tracks`), so this is a statement about the runs of one (`request_prefix`,
`response_prefix`); it holds of every connection whose header Reads fill their buffers (`relayed_end_to_end`).
-/

namespace Qpep

open Net Io Machine

namespace World

open WorldAux

/-- The connection is relayed: the server dials its destination and nothing else, what the destination receives is a prefix
of what the application sent, and what the application receives is a prefix of what the destination sent. -/
structure Relayed (l : Link) : Prop where
  dialled : ∀ a ∈ l.dialled, a.Same l.header.destAddr
  request : l.dest.out.sent <+: l.app.inn.sent
  response : l.app.out.sent <+: l.dest.inn.sent

/-- For any number of connections, any order of their steps, and either value of `MultiStream`: a connection between
endpoints with valid addresses is relayed, if every Read of its header that returns a nil error fills its buffer. -/
theorem relayed_end_to_end (cfg : ClientConfig) (as : List Act) (w : World) (hrun : run step (World.init cfg) as = some w)
    (c : ConnId) (l : Link) (hl : w.view c = some l) (hv : l.header.Valid)
    (hok : Along step (fun w a => w.headerFills c a = true) (World.init cfg) as) : Relayed l := by
  obtain ⟨_, bs, ⟨header, rfl⟩, hbs, hfills⟩ := (view_tracks c).run (owned_init cfg) rfl hrun hok hl
  have hi := Link.LinkAux.headerInv_run hbs hv hfills
  refine ⟨?_, Link.LinkAux.request_prefix hi, Link.LinkAux.response_prefix hi.flow⟩
  intro a ha
  rw [hi.dialled a ha]
  exact l.header.destAddr.canonical_same

/-- A connection is accepted, and its header is written to stream 0 of session 0. -/
def accepted : List Act :=
  [.client (.accept 0 webHeader), .client (.handler 0 .test), .client (.handler 0 (.dialAddr true)), .client (.handler 0 .store),
    .client (.handler 0 .loadOpenStreamSync), .client (.handler 0 (.openStreamSync true)), .writeHeader 0 14 none,
    .server (.acceptSession (some 0)), .server .goListenQuicConn]

/-- With `MultiStream` on a second connection gets stream 1 of the same session. -/
def joined : List Act :=
  [.client (.accept 1 webHeader), .client (.handler 1 .test), .client (.handler 1 .loadOpenStream),
    .client (.handler 1 (.openStream true)), .writeHeader 1 14 none]

/-- Both headers arrive as a whole, the server dials for both, and what the two applications send gets to the destinations. -/
def relayedRun : List Act :=
  accepted ++ joined ++
  [.deliver 1 .client 14, .deliver 0 .client 14, .server (.acceptStream 0 (some 0)), .server (.acceptStream 0 (some 1)),
    .readHeader 0 2 none, .readHeader 1 2 none, .readHeader 1 12 none, .dialTimeout 1 true, .readHeader 0 12 none,
    .dialTimeout 0 true, .app 0 (.send [71, 69]), .app 1 (.send [72]), .app 1 (.deliverIn 1), .app 0 (.deliverIn 2),
    .clientLoop 0 .streamTCPtoQUIC (.read 2 none), .clientLoop 1 .streamTCPtoQUIC (.read 1 none),
    .clientLoop 1 .streamTCPtoQUIC (.write 1 none), .clientLoop 0 .streamTCPtoQUIC (.write 2 none), .deliver 0 .client 2,
    .deliver 1 .client 1, .serverLoop 0 .streamQUICtoTCP (.read 2 none), .serverLoop 0 .streamQUICtoTCP (.part 1),
    .serverLoop 1 .streamQUICtoTCP (.read 1 none), .serverLoop 1 .streamQUICtoTCP (.write 1 none),
    .serverLoop 0 .streamQUICtoTCP (.write 1 none)]

/-- The header arrives in two pieces, cut behind the source address: the server dials what it finds in the rest of the
buffer, and the other piece gets to the destination as payload. -/
def cutRun : List Act :=
  accepted ++
  [.deliver 0 .client 8, .server (.acceptStream 0 (some 0)), .readHeader 0 2 none, .readHeader 0 6 none, .dialTimeout 0 true,
    .deliver 0 .client 6, .serverLoop 0 .streamQUICtoTCP (.read 6 none), .serverLoop 0 .streamQUICtoTCP (.write 6 none)]

/-- Two connections whose headers arrive as a whole are relayed side by side. -/
theorem relayed_end_to_end_two : ∃ w l₀ l₁, run step (World.init ⟨true, 3⟩) relayedRun = some w ∧
    (w.view 0 = some l₀ ∧ l₀.dest.out.sent = [71, 69] ∧ Relayed l₀) ∧ w.view 1 = some l₁ ∧ l₁.dest.out.sent = [72] ∧
      Relayed l₁ := by
  obtain ⟨w, hw⟩ : ∃ w, run step (World.init ⟨true, 3⟩) relayedRun = some w := ⟨_, rfl⟩
  obtain ⟨l₀, hl₀, hvalid₀, hsent₀⟩ : ∃ l, w.view 0 = some l ∧ l.header.Valid ∧ l.dest.out.sent = [71, 69] := by
    cases hw
    exact ⟨_, rfl, by decide, rfl⟩
  obtain ⟨l₁, hl₁, hvalid₁, hsent₁⟩ : ∃ l, w.view 1 = some l ∧ l.header.Valid ∧ l.dest.out.sent = [72] := by
    cases hw
    exact ⟨_, rfl, by decide, rfl⟩
  have hrelayed₀ := relayed_end_to_end ⟨true, 3⟩ relayedRun w hw 0 l₀ hl₀ hvalid₀ (by decide)
  have hrelayed₁ := relayed_end_to_end ⟨true, 3⟩ relayedRun w hw 1 l₁ hl₁ hvalid₁ (by decide)
  exact ⟨w, l₀, l₁, hw, ⟨hl₀, hsent₀, hrelayed₀⟩, hl₁, hsent₁, hrelayed₁⟩

/-- A connection whose header arrives in two pieces is not: the server dials 0.0.0.0:0, and sends it the end of the header. -/
theorem header_cut_misrouted : ∃ w l, run step (World.init ⟨false, 3⟩) cutRun = some w ∧ w.view 0 = some l ∧ l.header.Valid ∧
    l.dialled = [⟨[0, 0, 0, 0], 0⟩] ∧ l.dest.out.sent = [93, 184, 216, 34, 80, 0] ∧ l.app.inn.sent = [] ∧ ¬Relayed l := by
  obtain ⟨w, hw⟩ : ∃ w, run step (World.init ⟨false, 3⟩) cutRun = some w := ⟨_, rfl⟩
  obtain ⟨l, hl, hvalid, hdialled, hout, hinn⟩ : ∃ l, w.view 0 = some l ∧ l.header.Valid ∧ l.dialled = [⟨[0, 0, 0, 0], 0⟩] ∧
      l.dest.out.sent = [93, 184, 216, 34, 80, 0] ∧ l.app.inn.sent = [] := by
    cases hw
    exact ⟨_, rfl, by decide, rfl, rfl, rfl⟩
  refine ⟨w, l, hw, hl, hvalid, hdialled, hout, hinn, ?_⟩
  intro hr
  have hreq := hr.request
  rw [hout, hinn, List.prefix_nil] at hreq
  cases hreq

end World

end Qpep
