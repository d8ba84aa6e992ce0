import Qpep.Lib.Machine
import Qpep.Lib.Pipe
import Qpep.Link

/-!
# What a proxied connection is for

The two endpoints of a connection should see nothing of the proxy but two ideal pipes, one for each direction (`Tunnel`).
This is the purpose of the proxy, stated apart from its code: no header, no stream, no goroutine and no other connection
occurs in it.
-/

namespace Qpep

/-- Two endpoints joined by a pipe in each direction: the one that the endpoint of a side sends into. -/
structure Tunnel where
  pipe : Side → Pipe UInt8

namespace Tunnel

/-- A tunnel that nothing was sent through. -/
def empty : Tunnel := ⟨fun _ => .empty⟩

/-- What the endpoint of a side does: it sends some bytes, or receives some. -/
inductive Act where
  | send (s : Side) (bs : List UInt8)
  | receive (s : Side) (bs : List UInt8)
deriving DecidableEq, Repr

/-- Put a pipe back. -/
def set (t : Tunnel) (s : Side) (p : Pipe UInt8) : Tunnel := ⟨fun s' => if s' = s then p else t.pipe s'⟩

/-- One step of the tunnel. -/
def step (t : Tunnel) : Act → Option Tunnel
  | .send s bs => some (t.set s ((t.pipe s).send bs))
  | .receive s bs => ((t.pipe s.other).receive bs).map (t.set s.other)

/-- The bytes that the endpoint of a side sends in an event, if there is one. -/
def sentBy (e : Option Act) (s : Side) : List UInt8 :=
  match e with
  | some (.send s' bs) => if s' = s then bs else []
  | _ => []

/-- The bytes that the endpoint of a side receives in an event, if there is one. -/
def receivedBy (e : Option Act) (s : Side) : List UInt8 :=
  match e with
  | some (.receive s' bs) => if s' = s then bs else []
  | _ => []

/-- An event can happen when the bytes it receives are the next ones that were sent; then the pipes hold what was sent and
received before, and what the event adds. -/
theorem step_some {t : Tunnel} {e : Act}
    (h : ∀ s, (t.pipe s.other).received ++ receivedBy (some e) s <+: (t.pipe s.other).sent) :
    ∃ t', t.step e = some t' ∧ ∀ s, (t'.pipe s).sent = (t.pipe s).sent ++ sentBy (some e) s ∧
      (t'.pipe s.other).received = (t.pipe s.other).received ++ receivedBy (some e) s := by
  cases e with
  | send s bs =>
    refine ⟨_, rfl, ?_⟩
    intro s'
    cases s <;> cases s' <;> simp [set, sentBy, receivedBy, Pipe.send, Side.other]
  | receive s bs =>
    have hs := h s
    simp only [receivedBy, if_true] at hs
    refine ⟨_, Option.map_eq_some_iff.mpr ⟨_, Pipe.receive_next hs, rfl⟩, ?_⟩
    intro s'
    cases s <;> cases s' <;> simp [set, sentBy, receivedBy, Side.other]

end Tunnel

end Qpep
