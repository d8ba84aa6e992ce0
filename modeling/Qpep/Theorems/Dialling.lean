import Qpep.Lemmas.Client
import Qpep.OpenQuicSession

/-!
# Dialling the gateway

`openQuicSession` reports its outcome faithfully exactly if it dials at least once (`openQuicSession_faithful_iff`): when
`ConnectionRetries` is zero or negative, the loop does not run, `err` is still nil, and the caller is handed neither a
session nor an error.
-/

namespace Qpep

variable {σ ε : Type}

namespace Dialled

/-- What a caller relies on: exactly one of session and error; a session exactly if one of the first `retries` attempts
succeeds, and then that of the first success, which is the last attempt; and no more attempts than allowed. -/
structure Faithful (retries : Int) (attempt : Nat → Except ε σ) (r : Dialled σ ε) : Prop where
  exactly_one : r.session.isSome ↔ r.err = none
  session_iff : r.session.isSome ↔ ∃ i : Nat, (i : Int) < retries ∧ ∃ s, attempt i = .ok s
  first : ∀ s, r.session = some s →
    ∃ i, attempt i = .ok s ∧ (∀ j < i, ∃ e, attempt j = .error e) ∧ r.dials = i + 1
  dials_le : (r.dials : Int) ≤ max retries 0

end Dialled

/-! ## The loop -/

/-- The loop stops at the first success, or has seen a failure in every round. -/
theorem openQuicSessionLoop_cases (attempt : Nat → Except ε σ) (n i : Nat) (err : Option ε) :
    (∃ (k : Nat) (s : σ), k < n ∧ attempt (i + k) = .ok s ∧ (∀ j < k, ∃ e, attempt (i + j) = .error e) ∧
      openQuicSessionLoop attempt n i err = ⟨some s, none, i + k + 1⟩) ∨
    ((∀ j < n, ∃ e, attempt (i + j) = .error e) ∧
      ∃ err', openQuicSessionLoop attempt n i err = ⟨none, err', i + n⟩ ∧ (err' = none ↔ n = 0 ∧ err = none)) := by
  induction n generalizing i err with
  | zero => exact Or.inr ⟨by simp, err, rfl, by simp⟩
  | succ n ih =>
    unfold openQuicSessionLoop
    cases hi : attempt i with
    | ok s => exact Or.inl ⟨0, s, Nat.succ_pos n, hi, by simp, rfl⟩
    | error e =>
      have hall : ∀ m, (∀ j < m, ∃ e, attempt (i + 1 + j) = .error e) → ∀ j < m + 1, ∃ e, attempt (i + j) = .error e := by
        intro m hm j hj
        cases j with
        | zero => exact ⟨e, hi⟩
        | succ j =>
          have h := hm j (by omega)
          rwa [show i + 1 + j = i + (j + 1) by omega] at h
      rcases ih (i + 1) (some e) with ⟨k, s, hk, hok, hbefore, hrun⟩ | ⟨hfail, err', hrun, herr⟩
      · left
        rw [show i + 1 + k = i + (k + 1) by omega] at hok hrun
        exact ⟨k + 1, s, by omega, hok, hall k hbefore, hrun⟩
      · right
        rw [show i + 1 + n = i + (n + 1) by omega] at hrun
        exact ⟨hall n hfail, err', hrun, by simp [herr]⟩

/-- The call dials until the first success, and for the number of retries when there is none. -/
theorem openQuicSession_cases (cfg : ClientConfig) (gateway : GatewayConfig) (dialAddr : List Char → Nat → Except ε σ) :
    (∃ (k : Nat) (s : σ), (k : Int) < cfg.connectionRetries ∧ dialAddr gateway.gatewayPath k = .ok s ∧
      (∀ j < k, ∃ e, dialAddr gateway.gatewayPath j = .error e) ∧
      openQuicSession cfg gateway dialAddr = ⟨some s, none, k + 1⟩) ∨
    ((∀ j : Nat, (j : Int) < cfg.connectionRetries → ∃ e, dialAddr gateway.gatewayPath j = .error e) ∧
      ∃ err, openQuicSession cfg gateway dialAddr = ⟨none, err, cfg.connectionRetries.toNat⟩ ∧
        (err = none ↔ cfg.connectionRetries ≤ 0)) := by
  have h := openQuicSessionLoop_cases (dialAddr gateway.gatewayPath) cfg.connectionRetries.toNat 0 none
  simp only [Nat.zero_add] at h
  rcases h with ⟨k, s, hk, hok, hbefore, hrun⟩ | ⟨hfail, err, hrun, herr⟩
  · exact Or.inl ⟨k, s, by omega, hok, hbefore, hrun⟩
  · refine Or.inr ⟨?_, err, hrun, ?_⟩
    · intro j hj
      exact hfail j (by omega)
    · simp only [herr, and_true]
      omega

/-- For every number of retries and every sequence of outcomes: the result is faithful exactly if at least one attempt is
allowed. -/
theorem openQuicSession_faithful_iff (cfg : ClientConfig) (gateway : GatewayConfig)
    (dialAddr : List Char → Nat → Except ε σ) :
    (openQuicSession cfg gateway dialAddr).Faithful cfg.connectionRetries (dialAddr gateway.gatewayPath) ↔
      1 ≤ cfg.connectionRetries := by
  rcases openQuicSession_cases cfg gateway dialAddr with ⟨k, s, hk, hok, hbefore, hrun⟩ | ⟨hfail, err, hrun, herr⟩
  · rw [hrun]
    refine ⟨fun _ => by omega, fun _ => ⟨by simp, ?_, ?_, ?_⟩⟩
    · simp only [Option.isSome_some, true_iff]
      exact ⟨k, hk, s, hok⟩
    · rintro s' ⟨⟩
      exact ⟨k, hok, hbefore, rfl⟩
    · push_cast
      omega
  · rw [hrun]
    constructor
    · intro h
      have hone := h.exactly_one
      simp only [Option.isSome_none, Bool.false_eq_true, false_iff, herr] at hone
      omega
    · intro hpos
      refine ⟨?_, ?_, by simp, ?_⟩
      · simp only [Option.isSome_none, Bool.false_eq_true, false_iff, herr]
        omega
      · simp only [Option.isSome_none, Bool.false_eq_true, false_iff, not_exists, not_and]
        intro i hi s hs
        obtain ⟨e, he⟩ := hfail i hi
        cases hs.symm.trans he
      · show ((cfg.connectionRetries.toNat : Nat) : Int) ≤ max cfg.connectionRetries 0
        omega

/-! ## The handlers of the client -/

namespace Client

open Machine ClientAux

/-- The steps of a handler in `openQuicSession`, for the outcomes of the attempts, with `n` rounds to go. -/
def dialActs (attempt : Nat → Except ε σ) : (n i : Nat) → List HandlerAct
  | 0, _ => [.giveUp]
  | n + 1, i =>
    match attempt i with
    | .ok _ => [.dialAddr true]
    | .error _ => .dialAddr false :: dialActs attempt n (i + 1)

/-- A handler in `openQuicSession` can make the calls of `openQuicSession`, and is then about to store what that returns: a
session that is new to the client where there is one, and the error. -/
theorem run_dialActs (attempt : Nat → Except ε σ) (n i : Nat) (err : Option ε) {m : Client} {c : ConnId} {h : Handler}
    (hrunning : m.crashed = false) (hh : m.handlers c = some h) (hpc : h.pc = .openQuicSession i err.isSome)
    (hn : i + n = m.cfg.connectionRetries.toNat) :
    ∃ m' h', run step m ((dialActs attempt n i).map (.handler c)) = some m' ∧ m'.handlers c = some h' ∧
      h'.pc = .assign ((openQuicSessionLoop attempt n i err).session.map fun _ => m.sessions)
        (openQuicSessionLoop attempt n i err).err.isSome := by
  induction n generalizing i err m h with
  | zero =>
    have hstep := step_of_move hrunning hh (.exhausted i err.isSome hpc (by omega)) HandlerAct.noConfusion
    exact ⟨_, _, run_cons_eq_some.mpr ⟨_, hstep, rfl⟩, moved_handlers_self m c _ _ _ _, rfl⟩
  | succ n ih =>
    have hi : (i : Int) < m.cfg.connectionRetries := by omega
    unfold dialActs openQuicSessionLoop
    cases attempt i with
    | ok s =>
      have hstep := step_of_move hrunning hh (.dialled i err.isSome hpc hi) HandlerAct.noConfusion
      exact ⟨_, _, run_cons_eq_some.mpr ⟨_, hstep, rfl⟩, moved_handlers_self m c _ _ _ _, rfl⟩
    | error e =>
      have hstep := step_of_move hrunning hh (.retry i err.isSome hpc hi) HandlerAct.noConfusion
      let h₁ := { h with pc := .openQuicSession (i + 1) true }
      let m₁ := m.moved c h₁ m.quicSession m.sessions m.streams
      have hleft : i + 1 + n = m₁.cfg.connectionRetries.toNat := by
        rw [Nat.add_assoc, Nat.add_comm 1 n]
        exact hn
      obtain ⟨m', h', hrun, hh', hpc'⟩ := ih (i + 1) (some e) (m := m₁) hrunning (moved_handlers_self m c h₁ _ _ _) rfl hleft
      exact ⟨m', h', run_cons_eq_some.mpr ⟨_, hstep, hrun⟩, hh', hpc'⟩

end Client

/-- With no retries allowed, the caller gets neither a session nor an error, whatever the attempts would have done, and a
handler of the client then opens its stream on nil. -/
theorem no_retries_crash :
    openQuicSession (σ := Nat) (ε := Nat) ⟨false, 0⟩ ⟨"198.18.0.254".toList, 4242⟩ (fun _ => .ok) = ⟨none, none, 0⟩ ∧
      ¬(openQuicSession (σ := Nat) (ε := Nat) ⟨false, 0⟩ ⟨"198.18.0.254".toList, 4242⟩ fun _ => .ok).Faithful 0 .ok ∧
      (Machine.run Client.step (Client.init ⟨false, 0⟩)
        [.accept 0 ⟨⟨[10, 0, 0, 7], 50000⟩, ⟨[93, 184, 216, 34], 80⟩⟩, .handler 0 .test, .handler 0 .giveUp,
          .handler 0 .store, .handler 0 .loadOpenStreamSync]).map Client.crashed = some true := by
  refine ⟨rfl, ?_, by decide⟩
  intro h
  have hone := h.exactly_one
  exact absurd (hone.mpr rfl) (by decide)

end Qpep
