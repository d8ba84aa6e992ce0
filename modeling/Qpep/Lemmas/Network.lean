import Qpep.Network

/-!
# What the calls on a connection can answer

For each call one lemma that says what an outcome means (`_some`), and for each outcome that the progress of a relay rests
on one that says when it is possible (`_enabled`).
-/

namespace Qpep

open Io

/-! ## TCP connections -/

/-- What a Read of a TCP connection did. -/
theorem Sock.read_some {s s' : Sock} {k : Nat} {er : Option IoErr} {bs : List UInt8} (h : s.read k er = some (bs, s')) :
    bs = s.inn.ready.take k ∧ s' = { s with inn := s.inn.pull k } ∧
      (er = none → 0 < k ∧ k ≤ s.inn.ready.length ∧ s.closed = false) ∧
      (er = some .EOF → k = 0 ∧ s.inn.ready = [] ∧ s.inn.wire = [] ∧ s.fin = true ∧ s.closed = false) ∧
      (er = some .other → k = 0 ∧ s.failing = true) := by
  simp only [Sock.read, Option.ite_none_right_eq_some] at h
  obtain ⟨hp, h⟩ := h
  cases h
  refine ⟨rfl, rfl, ?_, ?_, ?_⟩
  · rintro rfl
    simpa [and_assoc] using hp
  · rintro rfl
    simpa [and_assoc] using hp
  · rintro rfl
    simpa using hp

/-- Data that has arrived can be read. -/
theorem Sock.read_enabled {s : Sock} (h : s.inn.ready ≠ []) (hc : s.closed = false) :
    s.read s.inn.ready.length none = some (s.inn.ready, { s with inn := s.inn.pull s.inn.ready.length }) := by
  have hpos : 0 < s.inn.ready.length := List.length_pos_iff.mpr h
  simp [Sock.read, hpos, hc]

/-- The end of the data is seen once all of it has been read. -/
theorem Sock.read_eof_enabled {s : Sock} (hr : s.inn.ready = []) (hw : s.inn.wire = []) (hf : s.fin = true)
    (hc : s.closed = false) : (s.read 0 (some .EOF)).isSome = true := by
  simp [Sock.read, hr, hw, hf, hc]

/-- A Read of a connection closed here fails. -/
theorem Sock.read_closed_enabled {s : Sock} (hc : s.closed = true) : (s.read 0 (some .other)).isSome = true := by
  simp [Sock.read, Sock.failing, hc]

/-- A Read with no data, no end of the data and no failure to report blocks. -/
theorem Sock.read_blocked {s : Sock} (hr : s.inn.ready = []) (hf : s.fin = false) (hn : s.failing = false) (k : Nat)
    (er : Option IoErr) : s.read k er = none := by
  cases h : s.read k er with
  | none => rfl
  | some y =>
    obtain ⟨-, -, hdata, heof, hother⟩ := Sock.read_some h
    cases er with
    | none =>
      have hle := (hdata rfl).2.1
      rw [hr] at hle
      exact absurd (hdata rfl).1 (Nat.not_lt.mpr hle)
    | some e =>
      cases e with
      | EOF => exact Bool.noConfusion (hf.symm.trans (heof rfl).2.2.2.1)
      | other => exact Bool.noConfusion (hn.symm.trans (hother rfl).2)

/-- What a Write to a TCP connection did. -/
theorem Sock.write_some {s s' : Sock} {buf : List UInt8} {k : Nat} {ew : Option IoErr} (h : s.write buf k ew = some s') :
    s' = { s with out := s.out.push (buf.take k) } ∧ k ≤ buf.length ∧
      (ew = none → k = buf.length ∧ s.closed = false) ∧
      (∀ e, ew = some e → s.failing = true ∧ (s.closed = true → k = 0)) := by
  simp only [Sock.write, Option.ite_none_right_eq_some] at h
  obtain ⟨hp, h⟩ := h
  cases h
  cases ew with
  | none =>
    simp only [Bool.and_eq_true, decide_eq_true_eq, Bool.not_eq_true'] at hp
    exact ⟨rfl, Nat.le_of_eq hp.1, fun _ => hp, by simp⟩
  | some e =>
    cases e with
    | EOF => cases hp
    | other =>
      simp only [Bool.and_eq_true, decide_eq_true_eq, Bool.or_eq_true, Bool.not_eq_true'] at hp
      refine ⟨rfl, hp.1.1, by simp, fun _ _ => ⟨hp.1.2, ?_⟩⟩
      intro hc
      rcases hp.2 with hn | hk
      · cases hn.symm.trans hc
      · exact hk

/-- What a part of a Write to a TCP connection did. -/
theorem Sock.part_some {s s' : Sock} {buf : List UInt8} {k : Nat} (h : s.part buf k = some s') :
    s' = { s with out := s.out.push (buf.take k) } ∧ s.closed = false := by
  unfold Sock.part at h
  split at h
  · cases h
  · rename_i hc
    cases h
    exact ⟨rfl, Bool.eq_false_iff.mpr hc⟩

/-- A Write to a connection ends one way or the other. -/
theorem Sock.write_enabled (s : Sock) (buf : List UInt8) : ∃ k ew, (s.write buf k ew).isSome = true := by
  cases hc : s.closed with
  | false => exact ⟨buf.length, none, by simp [Sock.write, hc]⟩
  | true => exact ⟨0, some .other, by simp [Sock.write, Sock.failing, hc]⟩

/-- What an endpoint and the network do leaves what the proxy has read and written. -/
theorem Sock.env_some {s s' : Sock} {e : SockEnv} (h : s.env e = some s') :
    s'.inn.got = s.inn.got ∧ s'.out.sent = s.out.sent ∧ s'.inn.abandoned = s.inn.abandoned ∧
      s'.out.abandoned = s.out.abandoned ∧ s'.closed = s.closed := by
  cases e <;> simp only [Sock.env] at h <;> split at h <;> cases h <;> simp [Sock.fault]

/-- An endpoint that has finished, and whose bytes have all been read, stays so. -/
theorem Sock.env_drained {s s' : Sock} {e : SockEnv} (h : s.env e = some s')
    (hd : s.fin = true ∧ s.inn.ready = [] ∧ s.inn.wire = []) : s'.fin = true ∧ s'.inn.ready = [] ∧ s'.inn.wire = [] := by
  obtain ⟨hf, hr, hw⟩ := hd
  cases e with
  | send bs => simp [Sock.env, hf] at h
  | finish => simp [Sock.env, hf] at h
  | deliverIn k =>
    simp only [Sock.env, hw, Option.ite_none_right_eq_some] at h
    exact absurd h.1.1 (Nat.not_lt.mpr h.1.2)
  | leave =>
    simp only [Sock.env, Option.ite_none_right_eq_some, Option.some.injEq] at h
    obtain ⟨-, rfl⟩ := h
    exact ⟨rfl, hr, hw⟩
  | receive k =>
    simp only [Sock.env, Option.ite_none_right_eq_some, Option.some.injEq] at h
    obtain ⟨-, rfl⟩ := h
    exact ⟨hf, hr, hw⟩
  | deliverOut k =>
    simp only [Sock.env, Option.ite_none_right_eq_some, Option.some.injEq] at h
    obtain ⟨-, rfl⟩ := h
    exact ⟨hf, hr, hw⟩
  | fault =>
    simp only [Sock.env, Option.ite_none_right_eq_some, Option.some.injEq] at h
    obtain ⟨-, rfl⟩ := h
    exact ⟨hf, hr, hw⟩

/-! ## QUIC streams -/

/-- What a Read of a stream did. -/
theorem Half.read_some {h h' : Half} {down : Bool} {k : Nat} {er : Option IoErr} {bs : List UInt8}
    (hr : h.read down k er = some (bs, h')) :
    bs = h.bytes.ready.take k ∧ h' = { h with bytes := h.bytes.pull k } ∧
      (er = none → 0 < k ∧ k ≤ h.bytes.ready.length) ∧
      (er = some .EOF → k = h.bytes.ready.length ∧ h.bytes.wire = [] ∧ h.fin = true) ∧
      (er = some .other → h.reset = true ∨ h.stopped = true ∨ down = true) := by
  simp only [Half.read, Option.ite_none_right_eq_some] at hr
  obtain ⟨hp, hr⟩ := hr
  cases hr
  refine ⟨rfl, rfl, ?_, ?_, ?_⟩
  · rintro rfl
    simpa using hp
  · rintro rfl
    simp only [Bool.and_eq_true, decide_eq_true_eq] at hp
    exact ⟨hp.1.1.1, hp.1.1.2, hp.1.2⟩
  · rintro rfl
    simp only [Bool.and_eq_true, decide_eq_true_eq, Bool.or_eq_true, or_assoc] at hp
    exact hp.2

/-- Data that has arrived can be read. -/
theorem Half.read_enabled {h : Half} {down : Bool} {k : Nat} (hk : 0 < k) (hl : k ≤ h.bytes.ready.length) :
    h.read down k none = some (h.bytes.ready.take k, { h with bytes := h.bytes.pull k }) := by
  simp [Half.read, hk, hl]

/-- The end of a stream is seen once everything has arrived. -/
theorem Half.read_eof_enabled {h : Half} {down : Bool} (hr : h.bytes.ready = []) (hw : h.bytes.wire = []) (hf : h.fin = true)
    (hn : h.reset = false) : (h.read down 0 (some .EOF)).isSome = true := by
  simp [Half.read, hr, hw, hf, hn]

/-- A Read of a stream that was reset fails. -/
theorem Half.read_reset_enabled {h : Half} {down : Bool} (hr : h.reset = true) :
    (h.read down 0 (some .other)).isSome = true := by
  simp [Half.read, hr]

/-- A Read with no data, no end of the data and no failure to report blocks. -/
theorem Half.read_blocked {h : Half} {down : Bool} (hr : h.bytes.ready = []) (hf : h.fin = false)
    (hn : h.reset = false ∧ h.stopped = false ∧ down = false) (k : Nat) (er : Option IoErr) : h.read down k er = none := by
  cases hread : h.read down k er with
  | none => rfl
  | some y =>
    obtain ⟨-, -, hdata, heof, hother⟩ := Half.read_some hread
    cases er with
    | none =>
      have hle := (hdata rfl).2
      rw [hr] at hle
      exact absurd (hdata rfl).1 (Nat.not_lt.mpr hle)
    | some e =>
      cases e with
      | EOF => exact Bool.noConfusion (hf.symm.trans (heof rfl).2.2)
      | other =>
        have hcause := hother rfl
        simp [hn.1, hn.2.1, hn.2.2] at hcause

/-- What a Write to a stream did. -/
theorem Half.write_some {h h' : Half} {down : Bool} {buf : List UInt8} {k : Nat} {ew : Option IoErr}
    (hw : h.write down buf k ew = some h') :
    h' = { h with bytes := h.bytes.push (buf.take k), dead := h.dead || ew.isSome } ∧ k ≤ buf.length ∧
      (ew = none → k = buf.length ∧ h.fin = false ∧ h.reset = false ∧ h.dead = false) ∧
      (∀ e, ew = some e → (h.fin = true ∨ h.reset = true ∨ h.dead = true ∨ h.stopped = true ∨ down = true) ∧
        (h.fin = true ∨ h.reset = true ∨ h.dead = true → k = 0)) := by
  simp only [Half.write, Option.ite_none_right_eq_some] at hw
  obtain ⟨hp, hw⟩ := hw
  cases hw
  cases ew with
  | none =>
    simp only [Bool.and_eq_true, decide_eq_true_eq, Bool.not_eq_true', Bool.or_eq_false_iff] at hp
    exact ⟨rfl, Nat.le_of_eq hp.1, fun _ => ⟨hp.1, hp.2.1.1, hp.2.1.2, hp.2.2⟩, by simp⟩
  | some e =>
    cases e with
    | EOF => cases hp
    | other =>
      simp only [Bool.and_eq_true, decide_eq_true_eq, Bool.or_eq_true, Bool.not_eq_true', Bool.or_eq_false_iff,
        or_assoc] at hp
      refine ⟨rfl, hp.1.1, by simp, fun _ _ => ⟨hp.1.2, ?_⟩⟩
      intro he
      rcases hp.2 with ⟨⟨hf, hr⟩, hd⟩ | hk
      · simp [hf, hr, hd] at he
      · exact hk

/-- A Write to a stream ends one way or the other. -/
theorem Half.write_enabled (h : Half) (down : Bool) (buf : List UInt8) : ∃ k ew, (h.write down buf k ew).isSome = true := by
  cases he : h.fin || h.reset || h.dead with
  | false => exact ⟨buf.length, none, by simp [Half.write, he]⟩
  | true => exact ⟨0, some .other, by simp [Half.write, he]⟩

/-- Delivery changes neither what was written to the stream nor what was read from it. -/
theorem Half.deliver_some {h h' : Half} {k : Nat} (hd : h.deliver k = some h') :
    0 < k ∧ k ≤ h.bytes.wire.length ∧ h' = { h with bytes := h.bytes.deliver k } := by
  unfold Half.deliver at hd
  split at hd
  · rename_i hk
    cases hd
    exact ⟨hk.1, hk.2, rfl⟩
  · cases hd

/-- What is on its way can be delivered. -/
theorem Half.deliver_enabled {h : Half} (hw : h.bytes.wire ≠ []) : (h.deliver h.bytes.wire.length).isSome = true := by
  have hpos : 0 < h.bytes.wire.length := List.length_pos_iff.mpr hw
  simp [Half.deliver, hpos]

end Qpep
