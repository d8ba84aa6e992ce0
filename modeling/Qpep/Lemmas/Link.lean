import Qpep.Link
import Qpep.Lemmas.Relay
import Qpep.Lemmas.Server

/-!
# What one step of a proxied connection can do

`Move` lists the steps of a connection, the loop steps once for both sides, and `move_of_step` says that there are no
others. The invariants are stated over the view from one side (`sock`, `half`, `loop`), so each is proved once for both.
-/

namespace Qpep

open Io Machine HeaderAux Server.ServerAux

namespace Link

/-- The two goroutines of a side while its handler waits for them. -/
def waits (l : Link) : Side → Option Relay
  | .client => match l.client with
    | .stream (.wait r) => some r
    | _ => none
  | .server => match l.server with
    | .wait _ r => some r
    | _ => none

/-- Put back the two goroutines of a side that waits for them. -/
def setRelay (l : Link) (s : Side) (r : Relay) : Link :=
  match s with
  | .client => { l with client := .stream (.wait r) }
  | .server => match l.server with
    | .wait h _ => { l with server := .wait h r }
    | _ => l

/-- Put back the direction of the stream that a side writes. -/
def setHalf (l : Link) (s : Side) (h : Half) : Link :=
  match s with
  | .client => { l with up := h }
  | .server => { l with down := h }

/-- One step of a proxied connection. -/
inductive Move (l : Link) : Act → Link → Prop where
  | app (e : SockEnv) (s : Sock) (he : l.app.env e = some s) : Move l (.app e) { l with app := s }
  | dest (e : SockEnv) (s : Sock) (hr : (l.relay .server).isSome = true) (he : l.dest.env e = some s) :
      Move l (.dest e) { l with dest := s }
  | deliver (s : Side) (k : Nat) (h : Half) (hd : (l.half s).deliver k = some h) : Move l (.deliver s k) (l.setHalf s h)
  | sessionFail (hs : l.sessionDown = false) : Move l .sessionFail { l with sessionDown := true }
  | openStream (hc : l.client = .opening) (hs : l.sessionDown = false) : Move l .openStream { l with client := .stream .header }
  | drop (hc : l.client = .opening) : Move l .drop { l with client := .dropped, app := l.app.close }
  | writeHeader (k : Nat) (ew : Option IoErr) (h : Half) (hc : l.client = .stream .header)
      (hw : l.up.write l.sessionDown l.header.toBytes k ew = some h) :
      Move l (.writeHeader k ew)
        { l with up := h, client := .stream (.wait .start), headerOut := l.header.toBytes.take k }
  | loop (s : Side) (n : LoopName) (ev : LoopEv) (r : Relay) (p : Port) (x : Loop) (hw : l.waits s = some r)
      (hm : LoopMove l.sessionDown (l.port s) n (r.loop n) ev p x) :
      Move l (.loop s n ev) ((l.setPort s p).setRelay s (r.setLoop n x))
  | close (r : Relay) (hc : l.client = .stream (.wait r)) (hd : r.isDone = true) :
      Move l .close { l with client := .stream (.returned r), up := l.up.close, app := l.app.close }
  | readHeader (k : Nat) (er : Option IoErr) (bs : List UInt8) (h : Half) (x : Server.StreamHandler)
      (hr : l.up.read l.sessionDown k er = some (bs, h)) (hs : l.server.step (.read bs er) = some x) :
      Move l (.readHeader k er) { l with up := h, server := x, headerIn := l.headerIn ++ bs }
  | dialled (h : QpepHeader) (hs : l.server = .dial h) :
      Move l (.dialTimeout true) { l with server := .wait h .start, dialled := l.dialled ++ [h.destAddr] }
  | notDialled (h : QpepHeader) (hs : l.server = .dial h) :
      Move l (.dialTimeout false) { l with server := .returned none, dialled := l.dialled ++ [h.destAddr] }
  | cancelRead (h : QpepHeader) (r : Relay) (hs : l.server = .wait h r) (hd : r.isDone = true) :
      Move l .cancelRead { l with server := .cancelWrite h r, up := l.up.cancelRead }
  | cancelWrite (h : QpepHeader) (r : Relay) (hs : l.server = .cancelWrite h r) :
      Move l .cancelWrite { l with server := .returned (some r), down := l.down.cancelWrite }

namespace LinkAux

theorem client_task_eq (n : LoopName) : Client.task n = relayTask n := by
  cases n <;> rfl

theorem server_task_eq (n : LoopName) : Server.task n = relayTask n := by
  cases n <;> rfl

/-- A loop step of a client that waits. -/
theorem clientLoop_iff {l l' : Link} {r : Relay} {n : LoopName} {ev : LoopEv} :
    l.clientLoop r n ev = some l' ↔ ∃ p x, LoopMove l.sessionDown (l.port .client) n (r.loop n) ev p x ∧
      l' = (l.setPort .client p).setRelay .client (r.setLoop n x) := by
  constructor
  · intro h
    simp only [clientLoop, client_task_eq, Option.bind_eq_bind, Option.bind_eq_some_iff, Option.pure_def,
      Option.some.injEq, Client.Relaying.step, Option.map_eq_some_iff] at h
    obtain ⟨⟨p, io⟩, hp, _, ⟨r', hr, rfl⟩, rfl⟩ := h
    obtain ⟨x, hm, rfl⟩ := loop_iff_move.mp ⟨io, hp, hr⟩
    exact ⟨p, x, hm, rfl⟩
  · rintro ⟨p, x, hm, rfl⟩
    obtain ⟨io, hp, hr⟩ := loop_iff_move.mpr ⟨x, hm, rfl⟩
    simp [clientLoop, client_task_eq, hp, Client.Relaying.step, hr, setRelay]

/-- A loop step of a server that waits. -/
theorem serverLoop_iff {l l' : Link} {h : QpepHeader} {r : Relay} {n : LoopName} {ev : LoopEv} (hs : l.server = .wait h r) :
    l.serverLoop h r n ev = some l' ↔ ∃ p x, LoopMove l.sessionDown (l.port .server) n (r.loop n) ev p x ∧
      l' = (l.setPort .server p).setRelay .server (r.setLoop n x) := by
  have hset : ∀ p r', { l.setPort .server p with server := .wait h r' } = (l.setPort .server p).setRelay .server r' := by
    intro p r'
    simp only [setRelay, setPort, hs]
  constructor
  · intro he
    simp only [serverLoop, server_task_eq, Option.bind_eq_bind, Option.bind_eq_some_iff, Option.pure_def,
      Option.some.injEq, Server.StreamHandler.step, Option.map_eq_some_iff] at he
    obtain ⟨⟨p, io⟩, hp, _, ⟨r', hr, rfl⟩, rfl⟩ := he
    obtain ⟨x, hm, rfl⟩ := loop_iff_move.mp ⟨io, hp, hr⟩
    exact ⟨p, x, hm, hset p _⟩
  · rintro ⟨p, x, hm, rfl⟩
    obtain ⟨io, hp, hr⟩ := loop_iff_move.mpr ⟨x, hm, rfl⟩
    simp [serverLoop, server_task_eq, hp, Server.StreamHandler.step, hr, hset]

/-- A side that waits for its goroutines has them. -/
theorem relay_of_waits {l : Link} {s : Side} {r : Relay} (h : l.waits s = some r) : l.relay s = some r := by
  cases s with
  | client =>
    simp only [waits] at h
    split at h
    · rename_i r' hc
      cases h
      simp only [relay, hc]
    · cases h
  | server =>
    simp only [waits] at h
    split at h
    · rename_i q r' hs
      cases h
      simp only [relay, hs]
    · cases h

theorem waits_client_iff {l : Link} {r : Relay} : l.waits .client = some r ↔ l.client = .stream (.wait r) := by
  simp only [waits]
  split
  · rename_i r' hc
    simp [hc]
  · rename_i hne
    simp only [reduceCtorEq, false_iff]
    exact hne r

theorem waits_server_iff {l : Link} {r : Relay} : l.waits .server = some r ↔ ∃ h, l.server = .wait h r := by
  simp only [waits]
  split
  · rename_i q r' hs
    simp [hs]
  · rename_i hne
    simp only [reduceCtorEq, false_iff, not_exists]
    exact fun q => hne q r

/-- A step of a connection is one of those listed. -/
theorem move_of_step {l l' : Link} {a : Act} (h : l.step a = some l') : Move l a l' := by
  cases a with
  | app e =>
    obtain ⟨s, he, rfl⟩ := Option.map_eq_some_iff.mp h
    exact .app e s he
  | dest e =>
    simp only [step, Option.ite_none_right_eq_some] at h
    obtain ⟨hr, h⟩ := h
    obtain ⟨s, he, rfl⟩ := Option.map_eq_some_iff.mp h
    exact .dest e s hr he
  | deliver s k =>
    cases s with
    | client =>
      obtain ⟨x, hd, rfl⟩ := Option.map_eq_some_iff.mp h
      exact .deliver .client k x hd
    | server =>
      obtain ⟨x, hd, rfl⟩ := Option.map_eq_some_iff.mp h
      exact .deliver .server k x hd
  | sessionFail =>
    simp only [step] at h
    split at h
    · cases h
    · rename_i hs
      cases h
      exact .sessionFail (by simpa using hs)
  | openStream =>
    simp only [step] at h
    split at h
    · rename_i hc
      split at h
      · cases h
      · rename_i hs
        cases h
        exact .openStream hc (by simpa using hs)
    · cases h
  | drop =>
    simp only [step] at h
    split at h
    · rename_i hc
      cases h
      exact .drop hc
    · cases h
  | writeHeader k ew =>
    simp only [step] at h
    split at h
    · rename_i c hc
      simp only [Option.bind_eq_bind, Option.bind_eq_some_iff, Option.pure_def, Option.some.injEq] at h
      obtain ⟨x, hw, c', hc', rfl⟩ := h
      cases c with
      | header =>
        cases hc'
        exact .writeHeader k ew x hc hw
      | wait r => cases hc'
      | returned r => cases hc'
    · cases h
  | loop s n ev =>
    cases s with
    | client =>
      simp only [step] at h
      split at h
      · rename_i r hc
        obtain ⟨p, x, hm, rfl⟩ := clientLoop_iff.mp h
        exact .loop .client n ev r p x (waits_client_iff.mpr hc) hm
      · cases h
    | server =>
      simp only [step] at h
      split at h
      · rename_i q r hs
        obtain ⟨p, x, hm, rfl⟩ := (serverLoop_iff hs).mp h
        exact .loop .server n ev r p x (waits_server_iff.mpr ⟨q, hs⟩) hm
      · cases h
  | close =>
    simp only [step] at h
    split at h
    · rename_i c hc
      obtain ⟨c', hc', rfl⟩ := Option.map_eq_some_iff.mp h
      cases c with
      | wait r =>
        simp only [Client.Relaying.step, Option.ite_none_right_eq_some, Option.some.injEq] at hc'
        obtain ⟨hd, rfl⟩ := hc'
        exact .close r hc hd
      | header => cases hc'
      | returned r => cases hc'
    · cases h
  | readHeader k er =>
    simp only [step, Option.bind_eq_bind, Option.bind_eq_some_iff, Option.pure_def, Option.some.injEq] at h
    obtain ⟨⟨bs, x⟩, hr, y, hs, rfl⟩ := h
    exact .readHeader k er bs x y hr hs
  | dialTimeout ok =>
    simp only [step] at h
    split at h
    · rename_i q hs
      rw [hs] at h
      cases ok with
      | true =>
        cases h
        exact .dialled q hs
      | false =>
        cases h
        exact .notDialled q hs
    · cases h
  | cancelRead =>
    obtain ⟨x, hx, rfl⟩ := Option.map_eq_some_iff.mp h
    cases hs : l.server with
    | wait q r =>
      rw [hs] at hx
      simp only [Server.StreamHandler.step, Option.ite_none_right_eq_some, Option.some.injEq] at hx
      obtain ⟨hd, rfl⟩ := hx
      exact .cancelRead q r hs hd
    | header p => cases p <;> simp [hs, Server.StreamHandler.step] at hx
    | _ => simp [hs, Server.StreamHandler.step] at hx
  | cancelWrite =>
    obtain ⟨x, hx, rfl⟩ := Option.map_eq_some_iff.mp h
    cases hs : l.server with
    | cancelWrite q r =>
      rw [hs] at hx
      cases hx
      exact .cancelWrite q r hs
    | header p => cases p <;> simp [hs, Server.StreamHandler.step] at hx
    | _ => simp [hs, Server.StreamHandler.step] at hx

/-- The listed steps are steps of a connection. -/
theorem step_of_move {l l' : Link} {a : Act} (h : Move l a l') : l.step a = some l' := by
  cases h with
  | app e s he => simp [step, he]
  | dest e s hr he => simp [step, he, hr]
  | deliver s k h hd =>
    cases s with
    | client => exact Option.map_eq_some_iff.mpr ⟨h, hd, rfl⟩
    | server => exact Option.map_eq_some_iff.mpr ⟨h, hd, rfl⟩
  | sessionFail hs => simp [step, hs]
  | openStream hc hs => simp [step, hc, hs]
  | drop hc => simp [step, hc]
  | writeHeader k ew h hc hw => simp [step, hc, hw, Client.Relaying.step]
  | loop s n ev r p x hw hm =>
    cases s with
    | client =>
      have hc := waits_client_iff.mp hw
      simp only [step, hc]
      exact clientLoop_iff.mpr ⟨p, x, hm, rfl⟩
    | server =>
      obtain ⟨q, hs⟩ := waits_server_iff.mp hw
      simp only [step, hs]
      exact (serverLoop_iff hs).mpr ⟨p, x, hm, rfl⟩
  | close r hc hd => simp [step, hc, hd, Client.Relaying.step]
  | readHeader k er bs h x hr hs => simp [step, hr, hs]
  | dialled q hs => simp [step, hs, Server.StreamHandler.step]
  | notDialled q hs => simp [step, hs, Server.StreamHandler.step]
  | cancelRead q r hs hd => simp [step, hs, hd, Server.StreamHandler.step]
  | cancelWrite q r hs => simp [step, hs, Server.StreamHandler.step]

/-! ## One side after a step -/

@[simp] theorem sock_setPort (l : Link) (s s' : Side) (p : Port) :
    (l.setPort s p).sock s' = if s' = s then p.sock else l.sock s' := by
  cases s <;> cases s' <;> rfl

@[simp] theorem half_setPort (l : Link) (s s' : Side) (p : Port) :
    (l.setPort s p).half s' = if s' = s then p.out else p.inn := by
  cases s <;> cases s' <;> rfl

@[simp] theorem headOut_setPort (l : Link) (s s' : Side) (p : Port) : (l.setPort s p).headOut s' = l.headOut s' := by
  cases s <;> cases s' <;> rfl

@[simp] theorem headIn_setPort (l : Link) (s s' : Side) (p : Port) : (l.setPort s p).headIn s' = l.headIn s' := by
  cases s <;> cases s' <;> rfl

@[simp] theorem relay_setPort (l : Link) (s s' : Side) (p : Port) : (l.setPort s p).relay s' = l.relay s' := by
  cases s <;> cases s' <;> rfl

@[simp] theorem waits_setPort (l : Link) (s s' : Side) (p : Port) : (l.setPort s p).waits s' = l.waits s' := by
  cases s <;> cases s' <;> rfl

@[simp] theorem setPort_client (l : Link) (s : Side) (p : Port) : (l.setPort s p).client = l.client := by
  cases s <;> rfl

@[simp] theorem setPort_server (l : Link) (s : Side) (p : Port) : (l.setPort s p).server = l.server := by
  cases s <;> rfl

@[simp] theorem setPort_sessionDown (l : Link) (s : Side) (p : Port) : (l.setPort s p).sessionDown = l.sessionDown := by
  cases s <;> rfl

/-- Putting back the goroutines changes the handlers only. -/
theorem setRelay_eq (l : Link) (s : Side) (r : Relay) :
    l.setRelay s r = { l with client := (l.setRelay s r).client, server := (l.setRelay s r).server } := by
  cases s with
  | client => rfl
  | server =>
    simp only [setRelay]
    split <;> rfl

@[simp] theorem sock_setRelay (l : Link) (s s' : Side) (r : Relay) : (l.setRelay s r).sock s' = l.sock s' := by
  rw [setRelay_eq]
  cases s' <;> rfl

@[simp] theorem half_setRelay (l : Link) (s s' : Side) (r : Relay) : (l.setRelay s r).half s' = l.half s' := by
  rw [setRelay_eq]
  cases s' <;> rfl

@[simp] theorem headOut_setRelay (l : Link) (s s' : Side) (r : Relay) : (l.setRelay s r).headOut s' = l.headOut s' := by
  rw [setRelay_eq]
  cases s' <;> rfl

@[simp] theorem headIn_setRelay (l : Link) (s s' : Side) (r : Relay) : (l.setRelay s r).headIn s' = l.headIn s' := by
  rw [setRelay_eq]
  cases s' <;> rfl

@[simp] theorem setRelay_sessionDown (l : Link) (s : Side) (r : Relay) : (l.setRelay s r).sessionDown = l.sessionDown := by
  rw [setRelay_eq]

@[simp] theorem setRelay_server_client (l : Link) (r : Relay) : (l.setRelay .server r).client = l.client := by
  unfold setRelay
  cases l.server <;> rfl

/-- The goroutines of both sides after one of them made a step. -/
theorem relay_setRelay {l : Link} {s : Side} {r₀ : Relay} (h : l.waits s = some r₀) (s' : Side) (r : Relay) :
    (l.setRelay s r).relay s' = if s' = s then some r else l.relay s' := by
  cases s with
  | client => cases s' <;> rfl
  | server =>
    obtain ⟨q, hs⟩ := waits_server_iff.mp h
    cases s' <;> simp [setRelay, relay, hs]

@[simp] theorem sock_setHalf (l : Link) (s s' : Side) (h : Half) : (l.setHalf s h).sock s' = l.sock s' := by
  cases s <;> cases s' <;> rfl

@[simp] theorem half_setHalf (l : Link) (s s' : Side) (h : Half) :
    (l.setHalf s h).half s' = if s' = s then h else l.half s' := by
  cases s <;> cases s' <;> rfl

@[simp] theorem relay_setHalf (l : Link) (s s' : Side) (h : Half) : (l.setHalf s h).relay s' = l.relay s' := by
  cases s <;> cases s' <;> rfl

@[simp] theorem headOut_setHalf (l : Link) (s s' : Side) (h : Half) : (l.setHalf s h).headOut s' = l.headOut s' := by
  cases s <;> cases s' <;> rfl

@[simp] theorem headIn_setHalf (l : Link) (s s' : Side) (h : Half) : (l.setHalf s h).headIn s' = l.headIn s' := by
  cases s <;> cases s' <;> rfl

@[simp] theorem other_other (s : Side) : s.other.other = s := by
  cases s <;> rfl

@[simp] theorem other_ne (s : Side) : s.other ≠ s := by
  cases s <;> simp [Side.other]

theorem eq_other_of_ne {s s' : Side} (h : s' ≠ s) : s' = s.other := by
  cases s <;> cases s' <;> first | rfl | exact absurd rfl h

end LinkAux

end Link

end Qpep
