import Mathlib.Data.Finset.Dedup
import Qpep.Lemmas.WorldWork
import Qpep.Theorems.EndToEnd

/-!
# What a connection can cost

Every connection that the client accepts brings about a bounded number of calls, whatever the other connections do in
between: at most `ConnectionRetries` dials, one session and one stream (`dials_bounded`), and with what its endpoints send a
bounded number of steps of the whole proxy (`proxy_steps_bounded`). No interleaving makes the handlers repeat themselves.
-/

namespace Qpep

open Machine

namespace Client

open ClientAux

/-! ## Dials, sessions and streams -/

/-- The step is one attempt of `quic.DialAddr`. -/
def HandlerAct.dials : HandlerAct → Bool
  | .dialAddr _ => true
  | _ => false

/-- The step opens a session. -/
def HandlerAct.opensSession : HandlerAct → Bool
  | .dialAddr ok => ok
  | _ => false

/-- The step opens a stream. -/
def HandlerAct.opensStream : HandlerAct → Bool
  | .openStream ok | .openStreamSync ok => ok
  | _ => false

/-- The step is one of this kind, made by the handler of connection `c`. -/
def Act.isBy (c : ConnId) (kind : HandlerAct → Bool) : Act → Bool
  | .handler c' a => c' = c && kind a
  | _ => false

/-- The dials that a handler has left. -/
def Handler.dialsLeft (retries : Nat) (h : Handler) : Nat :=
  match h.pc with
  | .entry | .openStream | .openingStream _ => retries
  | .openQuicSession i _ => retries - i
  | _ => 0

/-- The sessions that a handler has left to open. -/
def Handler.sessionsLeft (h : Handler) : Nat :=
  match h.pc with
  | .entry | .openStream | .openingStream _ | .openQuicSession _ _ => 1
  | _ => 0

/-- The streams that a handler has left to open. -/
def Handler.streamsLeft (h : Handler) : Nat :=
  match h.pc with
  | .relay _ _ | .returned => 0
  | _ => 1

/-- What connection `c` has left: as much as a new handler before it is accepted. -/
def left (f : Handler → Nat) (most : Nat) (c : ConnId) (m : Client) : Nat :=
  match m.handlers c with
  | some h => f h
  | none => most

theorem left_of_some {f : Handler → Nat} {most : Nat} {c : ConnId} {m : Client} {h : Handler} (hh : m.handlers c = some h) :
    m.left f most c = f h := by
  simp [left, hh]

theorem left_congr {f : Handler → Nat} {most : Nat} {c : ConnId} {m m' : Client} (hh : m'.handlers c = m.handlers c) :
    m'.left f most c = m.left f most c := by
  simp [left, hh]

/-- A handler whose moves of one kind are paid for by what it has left makes no more of them than a new handler has, however its
moves fall between those of the others. -/
theorem countP_le_most {cfg : ClientConfig} {f : Handler → Nat} {most : Nat} {kind : HandlerAct → Bool}
    (hstart : ∀ header, f (.start header) ≤ most)
    (hmove : ∀ {m : Client} {h h' a q n k}, m.cfg = cfg → Move m h a h' q n k → f h' + (if kind a then 1 else 0) ≤ f h)
    (hcalls : ∀ {m m' : Client} {c h a}, h.pc.Calls → m.handleTCPConn c h a = some m' → kind a = false)
    {as : List Act} {m : Client} (hrun : run step (init cfg) as = some m) (c : ConnId) :
    as.countP (Act.isBy c kind) ≤ most := by
  have hpays : Pays step (fun _ _ => True) (fun m => m.cfg = cfg) (left f most c) (fun _ => 0)
      (fun a => if a.isBy c kind then 1 else 0) (fun _ => 0) := by
    refine ⟨fun m a m' hcfg _ hs => (cfg_step hs).trans hcfg, ?_⟩
    intro m a m' hcfg _ hs
    obtain ⟨-, ⟨c', header, rfl, hnone, rfl⟩ | ⟨s, rfl, -, rfl⟩ | ⟨c', ha, h, h', q, n, k, rfl, hh, hm, rfl⟩ |
      ⟨c', ha, h, rfl, hh, -, hpc, rfl⟩⟩ := step_cases hs
    · by_cases he : c = c'
      · subst he
        have hnew := hstart header
        simpa [left, hnone, Act.isBy] using hnew
      · rw [left_congr (m := m) (by simp [he])]
        simp [Act.isBy]
    · have hsame : left f most c { m with failed := Function.update m.failed s true } = m.left f most c := rfl
      simp [Act.isBy, hsame]
    · by_cases he : c = c'
      · subst he
        rw [left_of_some (moved_handlers_self m c h' q n k), left_of_some hh]
        simpa [Act.isBy] using hmove hcfg hm
      · rw [left_congr (m := m) (by simp [he])]
        simp [Act.isBy, Ne.symm he]
    · have hkind : kind ha = false := by
        simp only [step, (handler_some hs).1, hh] at hs
        exact hcalls hpc hs
      have hsame : left f most c { m with crashed := true } = m.left f most c := rfl
      simp [Act.isBy, hkind, hsame]
  have hrun' := hpays.run rfl hrun (along_of_forall fun _ _ => trivial)
  simp only [total_ite, total_zero] at hrun'
  have hinit : (init cfg).left f most c = most := rfl
  omega

/-- A handler that is about to call a method on `quicSession` neither dials nor has a stream opened. -/
theorem calls_kind {m m' : Client} {c : ConnId} {h : Handler} {a : HandlerAct} (hpc : h.pc.Calls)
    (hs : m.handleTCPConn c h a = some m') : a.dials = false ∧ a.opensSession = false ∧ a.opensStream = false := by
  cases a with
  | dialAddr ok => rcases hpc with hpc | hpc <;> simp [handleTCPConn, hpc] at hs
  | openStream ok => rcases hpc with hpc | hpc <;> simp [handleTCPConn, hpc] at hs
  | openStreamSync ok => rcases hpc with hpc | hpc <;> simp [handleTCPConn, hpc] at hs
  | _ => exact ⟨rfl, rfl, rfl⟩

/-- A move goes at the cost of the dials that are left, of the session and of the stream. -/
theorem left_of_move {m : Client} {h h' : Handler} {a : HandlerAct} {q : Option SessionId} {n k : Nat}
    (hm : Move m h a h' q n k) :
    h'.dialsLeft m.cfg.connectionRetries.toNat + (if a.dials then 1 else 0) ≤ h.dialsLeft m.cfg.connectionRetries.toNat ∧
      h'.sessionsLeft + (if a.opensSession then 1 else 0) ≤ h.sessionsLeft ∧
      h'.streamsLeft + (if a.opensStream then 1 else 0) ≤ h.streamsLeft := by
  cases hm with
  | stored session failed hpc =>
    cases failed <;>
      simp [Handler.dialsLeft, Handler.sessionsLeft, Handler.streamsLeft, HandlerAct.dials, HandlerAct.opensSession,
        HandlerAct.opensStream, hpc]
  | dialled i failed hpc hi =>
    simp [Handler.dialsLeft, Handler.sessionsLeft, Handler.streamsLeft, HandlerAct.dials, HandlerAct.opensSession,
      HandlerAct.opensStream, hpc]
    omega
  | retry i failed hpc hi =>
    simp [Handler.dialsLeft, Handler.sessionsLeft, Handler.streamsLeft, HandlerAct.dials, HandlerAct.opensSession,
      HandlerAct.opensStream, hpc]
    omega
  | relayed n r r' io hpc hstep | tryOpen hpc | noOpen hpc | load s hpc | opened s hpc | refused s hpc | exhausted j failed hpc
  | loadSync s hpc | openedSync s hpc | refusedSync s hpc =>
    simp [Handler.dialsLeft, Handler.sessionsLeft, Handler.streamsLeft, HandlerAct.dials, HandlerAct.opensSession,
      HandlerAct.opensStream, hpc]

/-- In every run of the client, whatever `MultiStream` is and however the handlers take turns: each connection dials the
gateway at most `ConnectionRetries` times, opens at most one session and at most one stream. -/
theorem dials_bounded (cfg : ClientConfig) (as : List Act) (m : Client) (hrun : run step (init cfg) as = some m) (c : ConnId) :
    as.countP (Act.isBy c HandlerAct.dials) ≤ cfg.connectionRetries.toNat ∧
      as.countP (Act.isBy c HandlerAct.opensSession) ≤ 1 ∧ as.countP (Act.isBy c HandlerAct.opensStream) ≤ 1 := by
  refine ⟨?_, ?_, ?_⟩
  · refine countP_le_most (f := Handler.dialsLeft cfg.connectionRetries.toNat) (fun _ => Nat.le_refl _) ?_ ?_ hrun c
    · rintro m h h' a q n k rfl hm
      exact (left_of_move hm).1
    · intro m m' c h a hpc hs
      exact (calls_kind hpc hs).1
  · exact countP_le_most (f := Handler.sessionsLeft) (fun _ => Nat.le_refl _) (fun _ hm => (left_of_move hm).2.1)
      (fun hpc hs => (calls_kind hpc hs).2.1) hrun c
  · exact countP_le_most (f := Handler.streamsLeft) (fun _ => Nat.le_refl _) (fun _ hm => (left_of_move hm).2.2)
      (fun hpc hs => (calls_kind hpc hs).2.2) hrun c

/-- A connection whose first two dials fail, between the steps of another. -/
def retried : List Act :=
  [.accept 0 webHeader, .handler 0 .test, .handler 0 (.dialAddr false), .accept 1 webHeader, .handler 1 .test,
    .handler 1 (.dialAddr true), .handler 0 (.dialAddr false), .handler 1 .store, .handler 0 (.dialAddr true), .handler 0 .store,
    .handler 0 .loadOpenStreamSync, .handler 0 (.openStreamSync true)]

/-- A connection that dials three times and opens one session and one stream. -/
theorem dials_bounded_retried : retried.countP (Act.isBy 0 HandlerAct.dials) = 3 ∧
    retried.countP (Act.isBy 0 HandlerAct.dials) ≤ 3 ∧ retried.countP (Act.isBy 0 HandlerAct.opensSession) ≤ 1 ∧
    retried.countP (Act.isBy 0 HandlerAct.opensStream) ≤ 1 := by
  obtain ⟨m, hm⟩ : ∃ m, run step (init ⟨false, 3⟩) retried = some m := ⟨_, rfl⟩
  exact ⟨rfl, dials_bounded ⟨false, 3⟩ retried m hm 0⟩

end Client

namespace World

open WorldAux

/-! ## Steps -/

/-- The connection that a step accepts. -/
def Act.accepts : Act → Option ConnId
  | .client (.accept c _) => some c
  | _ => none

/-- The steps that a step may bring about, itself included: those of the connection it accepts, and those that move the bytes it
sends. -/
def Act.brings (retries : Nat) : Act → Nat
  | .client (.accept _ header) => 32 + 5 * header.toBytes.length + retries
  | .client (.sessionFail _) => 1
  | .app _ (.send bs) | .dest _ (.send bs) => 8 * bs.length + 1
  | _ => 0

theorem brings_eq (retries : Nat) (a : Act) :
    a.brings retries = a.admits retries + a.sessionFails.toNat + (8 * a.sent.length + a.sends.toNat) := by
  cases a with
  | client b => cases b <;> rfl
  | app c e => cases e <;> simp [Act.brings, Act.admits, Act.sessionFails, Act.sent, Act.sends, SockEnv.sent, SockEnv.sends]
  | dest n e => cases e <;> simp [Act.brings, Act.admits, Act.sessionFails, Act.sent, Act.sends, SockEnv.sent, SockEnv.sends]
  | _ => rfl

/-- Before the first connection there is the accept loop of the server, and the client can crash. -/
theorem work_init (S : Finset ConnId) (cfg : ClientConfig) : (World.init cfg).work S = 2 := by
  have hconns : (World.init cfg).connsWork S = 0 := Finset.sum_eq_zero fun c _ => rfl
  have hstreams : (World.init cfg).streamsWork = 0 := rfl
  have hloops : (World.init cfg).loopsWork = 2 := rfl
  rw [work, hconns, hstreams, hloops]

/-- Each step is paid for, by what is left to do or by what it brings. -/
theorem pays_for_steps (cfg : ClientConfig) (S : Finset ConnId) :
    Pays step (fun _ a => ∀ c ∈ a.accepts, c ∈ S) (fun w => Accounted S w ∧ w.client.cfg = cfg) (work S) (fun _ => 0) (fun _ => 1)
      (fun a => a.brings cfg.connectionRetries.toNat) := by
  have hin : ∀ {a : Act}, (∀ c ∈ a.accepts, c ∈ S) → ∀ c header, a = .client (.accept c header) → c ∈ S := by
    rintro a ha c header rfl
    exact ha c rfl
  refine ⟨?_, ?_⟩
  · rintro w a w' ⟨hi, hcfg⟩ ha hs
    refine ⟨accounted_step hi (hin ha) hs, ?_⟩
    rcases client_of_step hs with h | ⟨b, hb⟩
    · rw [h, hcfg]
    · rw [Client.ClientAux.cfg_step hb, hcfg]
  · rintro w a w' ⟨hi, hcfg⟩ ha hs
    have hwork := work_step hi (hin ha) hs
    rw [brings_eq, ← hcfg]
    exact hwork

/-- The connections that are accepted in a run. -/
def connections (as : List Act) : Finset ConnId := (as.filterMap Act.accepts).toFinset

theorem mem_connections {as : List Act} {a : Act} (ha : a ∈ as) : ∀ c ∈ a.accepts, c ∈ connections as := fun _ hc =>
  List.mem_toFinset.mpr (List.mem_filterMap.mpr ⟨a, ha, hc⟩)

/-- In every run of the client, the server and the network between them, for any number of connections in any order of
steps, whatever fails: the steps are bounded by the connections that are accepted, the bytes that their endpoints send, and
the sessions that fail. -/
theorem proxy_steps_bounded (cfg : ClientConfig) (as : List Act) (w : World) (hrun : run step (World.init cfg) as = some w) :
    as.length ≤ 2 + total (fun a => a.brings cfg.connectionRetries.toNat) as := by
  have hpaid := (pays_for_steps cfg (connections as)).run ⟨accounted_init _ cfg, rfl⟩ hrun
    (along_of_forall fun a ha => mem_connections ha)
  rw [total_one, work_init] at hpaid
  omega

/-- The run of two connections that move three bytes. -/
theorem proxy_steps_bounded_two : relayedRun.length ≤ 2 + total (fun a => a.brings 3) relayedRun := by
  obtain ⟨w, hw⟩ : ∃ w, run step (World.init ⟨true, 3⟩) relayedRun = some w := ⟨_, rfl⟩
  exact proxy_steps_bounded ⟨true, 3⟩ relayedRun w hw

end World

end Qpep
