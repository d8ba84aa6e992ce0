import Qpep.Lemmas.Client

/-!
# Which sessions the handlers use

A handler uses the session that it is about to store, the one it is opening a stream on, and the one its stream is on (`Holds`).
What a handler may find in `quicSession`, and use from then on, is what is there when it is about to read it. `Held` puts these
together; `held_of_step` says that no step gives a session back that was not held before.
-/

namespace Qpep

open Machine

namespace Client

/-- The handler uses the session: it has dialled it and not stored it yet, is in a call on it, or has a stream on it. -/
def Handler.Holds (h : Handler) (s : SessionId) : Prop :=
  match h.pc with
  | .assign q _ => q = some s
  | .openingStream t | .openingStreamSync t => t = s
  | .relay _ (.returned _) => False
  | .relay _ _ => h.session = some s
  | _ => False

/-- The session is there for later connections, or a handler that is still running uses it or is about to. -/
def Held (m : Client) (s : SessionId) : Prop :=
  (m.cfg.multiStream = true ∧ m.quicSession = some s) ∨
    ∃ c h, m.handlers c = some h ∧ (h.Holds s ∨ h.pc.Calls ∧ m.quicSession = some s)

/-- The sessions in `quicSession` and in the hands of the handlers were dialled. -/
structure Known (m : Client) : Prop where
  stored : ∀ s, m.quicSession = some s → s < m.sessions
  holds : ∀ c h s, m.handlers c = some h → h.Holds s → s < m.sessions
  session : ∀ c h s, m.handlers c = some h → h.session = some s → s < m.sessions

namespace ClientAux

/-- What a handler uses after a move it used before, or has read from `quicSession`, or has just dialled. -/
theorem holds_of_move {m : Client} {h h' : Handler} {a : HandlerAct} {q : Option SessionId} {n k : Nat} {s : SessionId}
    (hm : Move m h a h' q n k) (hs : h'.Holds s) :
    h.Holds s ∨ (h.pc.Calls ∧ m.quicSession = some s) ∨ (s = m.sessions ∧ n = m.sessions + 1) := by
  cases hm with
  | load t hpc hq =>
    have ht : t = s := hs
    exact Or.inr (Or.inl ⟨Or.inl hpc, ht ▸ hq⟩)
  | loadSync t hpc hq =>
    have ht : t = s := hs
    exact Or.inr (Or.inl ⟨Or.inr hpc, ht ▸ hq⟩)
  | opened t hpc hlive =>
    have ht : t = s := Option.some.inj hs
    left
    simp only [Handler.Holds, hpc, ht]
  | openedSync t hpc hlive =>
    have ht : t = s := Option.some.inj hs
    left
    simp only [Handler.Holds, hpc, ht]
  | dialled i failed hpc hi => exact Or.inr (Or.inr ⟨(Option.some.inj hs).symm, rfl⟩)
  | exhausted i failed hpc hi => cases hs
  | stored session failed hpc => cases failed <;> exact hs.elim
  | relayed st r r' io hpc hstep =>
    -- a returned handler makes no call
    have hr : ∀ x, r ≠ .returned x := by
      rintro x rfl
      simp [Relaying.step] at hstep
    have hs' : h.session = some s := by
      unfold Handler.Holds at hs
      split at hs <;> simp_all
    left
    simpa only [Handler.Holds, hpc] using hs'
  | _ => exact hs.elim

/-- What a move leaves in `quicSession` was there before, or the handler that moved has stored it. -/
theorem stored_of_move {m : Client} {h h' : Handler} {a : HandlerAct} {q : Option SessionId} {n k : Nat} {s : SessionId}
    (hm : Move m h a h' q n k) (hq : q = some s) : m.quicSession = some s ∨ h.Holds s := by
  cases hm with
  | stored session failed hpc =>
    right
    simpa only [Handler.Holds, hpc] using hq
  | _ => exact Or.inl hq

/-- A handler that is about to call a method on `quicSession` after a move has found a session there, with `MultiStream` on,
or has stored its own. -/
theorem calls_of_move {m : Client} {h h' : Handler} {a : HandlerAct} {q : Option SessionId} {n k : Nat} {s : SessionId}
    (hm : Move m h a h' q n k) (hcalls : h'.pc.Calls) (hq : q = some s) :
    m.cfg.multiStream = true ∧ m.quicSession = some s ∨ h.Holds s := by
  cases hm with
  | tryOpen hpc hmulti hq' => exact Or.inl ⟨hmulti, hq⟩
  | stored session failed hpc =>
    right
    simpa only [Handler.Holds, hpc] using hq
  | _ => rcases hcalls with hc | hc <;> cases hc

/-- The session of a stream is the one on which the handler was opening it. -/
theorem session_of_move {m : Client} {h h' : Handler} {a : HandlerAct} {q : Option SessionId} {n k : Nat} {s : SessionId}
    (hm : Move m h a h' q n k) (hs : h'.session = some s) : h.session = some s ∨ h.Holds s := by
  cases hm with
  | opened t hpc hlive =>
    right
    simpa only [Handler.Holds, hpc] using Option.some.inj hs
  | openedSync t hpc hlive =>
    right
    simpa only [Handler.Holds, hpc] using Option.some.inj hs
  | _ => exact Or.inl hs

/-- A move dials at most one session. -/
theorem sessions_of_move {m : Client} {h h' : Handler} {a : HandlerAct} {q : Option SessionId} {n k : Nat}
    (hm : Move m h a h' q n k) : m.sessions ≤ n := by
  rcases dialled_of_move hm with ⟨-, hn⟩ | ⟨-, hn⟩ <;> omega

/-- A handler that holds a session, or is about to read it from `quicSession`, holds it for the client. -/
theorem held_of_handler {m : Client} {c : ConnId} {h : Handler} {s : SessionId} (hh : m.handlers c = some h) (hs : h.Holds s) :
    Held m s :=
  Or.inr ⟨c, h, hh, Or.inl hs⟩

/-- A session that is held after a step was held before it, or was dialled by it. -/
theorem held_of_step {m m' : Client} {a : Act} {s : SessionId} (hs : m.step a = some m') (hheld : Held m' s)
    (hold : s < m.sessions) : Held m s := by
  obtain ⟨-, ⟨c, header, rfl, -, rfl⟩ | ⟨t, rfl, -, rfl⟩ | ⟨c, ha, h, h', q, n, k, rfl, hh, hm, rfl⟩ |
    ⟨c, ha, h, rfl, -, -, -, rfl⟩⟩ := step_cases hs
  · rcases hheld with hq | ⟨c', x, hx, hholds⟩
    · exact Or.inl hq
    · rw [set_handlers] at hx
      split at hx
      · cases hx
        rcases hholds with hx | ⟨hx | hx, -⟩
        · exact hx.elim
        · cases hx
        · cases hx
      · exact Or.inr ⟨c', x, hx, hholds⟩
  · exact hheld
  · rcases hheld with ⟨hmulti, hq⟩ | ⟨c', x, hx, hholds⟩
    · rcases stored_of_move hm hq with hq' | hx
      · exact Or.inl ⟨hmulti, hq'⟩
      · exact held_of_handler hh hx
    · rw [moved_handlers] at hx
      split at hx
      · cases hx
        rcases hholds with hx | ⟨hcalls, hq⟩
        · rcases holds_of_move hm hx with hx' | hx' | ⟨he, -⟩
          · exact held_of_handler hh hx'
          · exact Or.inr ⟨c, h, hh, Or.inr hx'⟩
          · exact absurd (he ▸ hold) (Nat.lt_irrefl _)
        · rcases calls_of_move hm hcalls hq with hq' | hx'
          · exact Or.inl hq'
          · exact held_of_handler hh hx'
      · rcases hholds with hx' | ⟨hcalls, hq⟩
        · exact held_of_handler hx hx'
        · rcases stored_of_move hm hq with hq' | hx'
          · exact Or.inr ⟨c', x, hx, Or.inr ⟨hcalls, hq'⟩⟩
          · exact held_of_handler hh hx'
  · exact hheld

/-- No session number is taken back. -/
theorem sessions_mono {m m' : Client} {a : Act} (hs : m.step a = some m') : m.sessions ≤ m'.sessions := by
  obtain ⟨-, ⟨c, header, -, -, rfl⟩ | ⟨s, -, -, rfl⟩ | ⟨c, ha, h, h', q, n, k, -, -, hm, rfl⟩ | ⟨c, ha, h, -, -, -, -, rfl⟩⟩ :=
    step_cases hs
  · exact Nat.le_refl _
  · exact Nat.le_refl _
  · exact sessions_of_move hm
  · exact Nat.le_refl _

theorem known_init (cfg : ClientConfig) : Known (init cfg) :=
  ⟨fun _ h => (by cases h), fun _ _ _ h => (by cases h), fun _ _ _ h => (by cases h)⟩

/-- Every step keeps the sessions known. -/
theorem known_step {m m' : Client} {a : Act} (hi : Known m) (hs : m.step a = some m') : Known m' := by
  have hmono := sessions_mono hs
  obtain ⟨-, ⟨c, header, rfl, -, rfl⟩ | ⟨t, rfl, -, rfl⟩ | ⟨c, ha, h, h', q, n, k, rfl, hh, hm, rfl⟩ |
    ⟨c, ha, h, rfl, -, -, -, rfl⟩⟩ := step_cases hs
  · refine ⟨hi.stored, ?_, ?_⟩
    · intro c' x s hx
      exact forall_set (Q := fun _ x => x.Holds s → s < m.sessions) False.elim (fun c' y _ hy => hi.holds c' y s hy) c' x hx
    · intro c' x s hx
      exact forall_set (Q := fun _ x => x.session = some s → s < m.sessions) (fun he => by cases he)
        (fun c' y _ hy => hi.session c' y s hy) c' x hx
  · exact ⟨hi.stored, hi.holds, hi.session⟩
  · have hmover : ∀ s, h'.Holds s → s < n := by
      intro s hx
      rcases holds_of_move hm hx with hx' | ⟨-, hq⟩ | ⟨rfl, hn⟩
      · exact Nat.lt_of_lt_of_le (hi.holds c h s hh hx') hmono
      · exact Nat.lt_of_lt_of_le (hi.stored s hq) hmono
      · exact hn ▸ Nat.lt_succ_self _
    have hstream : ∀ s, h'.session = some s → s < n := by
      intro s hx
      rcases session_of_move hm hx with hx' | hx'
      · exact Nat.lt_of_lt_of_le (hi.session c h s hh hx') hmono
      · exact Nat.lt_of_lt_of_le (hi.holds c h s hh hx') hmono
    refine ⟨?_, ?_, ?_⟩
    · intro s hq
      rcases stored_of_move hm hq with hq' | hx
      · exact Nat.lt_of_lt_of_le (hi.stored s hq') hmono
      · exact Nat.lt_of_lt_of_le (hi.holds c h s hh hx) hmono
    · intro c' x s hx
      exact forall_moved (Q := fun _ x => x.Holds s → s < n) (hmover s)
        (fun c' y _ hy hholds => Nat.lt_of_lt_of_le (hi.holds c' y s hy hholds) hmono) c' x hx
    · intro c' x s hx
      exact forall_moved (Q := fun _ x => x.session = some s → s < n) (hstream s)
        (fun c' y _ hy hses => Nat.lt_of_lt_of_le (hi.session c' y s hy hses) hmono) c' x hx
  · exact ⟨hi.stored, hi.holds, hi.session⟩

end ClientAux

end Client

end Qpep
