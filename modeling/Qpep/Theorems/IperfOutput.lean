import Qpep.Testbed.IperfOutput

/-!
# Reading the output of iperf3

`run_iperf_test` is meant to come to the values or to the failure record, whatever the client printed. It does so exactly
for the outputs described by `Readable` (`iperfOutcome_reads_iff`): the decoding of the bytes, the two byte counts and the
printing of a text that is not understood are outside of its two `try` statements.
-/

namespace Qpep.Testbed

open Python

/-! ## What the output holds -/

/-- The value at the end of a path of keys. -/
def valueAt (j : Json) : List String → Option Json
  | [] => some j
  | key :: path =>
    match j with
    | .obj entries => (Json.lookup (text key) entries).bind fun v => valueAt v path
    | _ => none

/-- The four values of `end.sum_sent` and `end.sum_received`, when all four are there. -/
def fourValues (j : Json) : Option (PerMetric Json) := do
  return {
    sentBytes := ← valueAt j ["end", "sum_sent", "bytes"]
    sentBps := ← valueAt j ["end", "sum_sent", "bits_per_second"]
    receivedBytes := ← valueAt j ["end", "sum_received", "bytes"]
    receivedBps := ← valueAt j ["end", "sum_received", "bits_per_second"] }

/-- A number that is not too large to be divided. -/
def IsNumber : Json → Prop
  | .int n => n.natAbs < Json.perMillionLimit
  | .float _ => True
  | .bool _ => True
  | _ => False

/-- Both rates are there, and are numbers. -/
def HasRates (j : Json) : Prop :=
  (∃ x, valueAt j ["end", "sum_sent", "bits_per_second"] = some x ∧ IsNumber x) ∧
    ∃ x, valueAt j ["end", "sum_received", "bits_per_second"] = some x ∧ IsNumber x

/-- The call returns the four values when all four are there, and the failure record otherwise. -/
def Reads (names : List UInt8 → Option Nat) (encodable : Nat → Bool) (output : List UInt8) : Prop :=
  iperfOutcome names encodable output =
    .ok ((((jsonString names output).toOption.bind Json.loads).bind fourValues).getD failureRecord)

/-- The bytes can be decoded; and if the text is JSON, then: where it holds the words for a closed socket, it does not hold
four values other than zeros; where it does not, it holds either the four values, with numbers for the rates, or not all
four of them, and then the rates are not both there as numbers and the text can be printed. -/
def Readable (names : List UInt8 → Option Nat) (encodable : Nat → Bool) (output : List UInt8) : Prop :=
  ∃ t, jsonString names output = .ok t ∧ ∀ j, Json.loads t = some j →
    (occursIn socketClosed t = true → ∀ r, fourValues j = some r → r = failureRecord) ∧
    (occursIn socketClosed t = false → HasRates j → ∃ r, fourValues j = some r) ∧
    (occursIn socketClosed t = false → ¬HasRates j → fourValues j = none ∧ t.all encodable = true)

/-! ## The accesses -/

theorem toOption_bind {ε α β : Type} (x : Except ε α) (f : α → Except ε β) :
    (x >>= f).toOption = x.toOption.bind fun a => (f a).toOption := by
  cases x <;> rfl

theorem eq_ok_iff_toOption {ε α : Type} {x : Except ε α} {a : α} : x = .ok a ↔ x.toOption = some a := by
  cases x <;> simp [Except.toOption]

theorem valueAt_cons (j : Json) (key : String) (path : List String) :
    valueAt j (key :: path) = (j.item key).toOption.bind fun v => valueAt v path := by
  cases j with
  | obj entries => cases h : Json.lookup (text key) entries <;> simp [valueAt, Json.item, h, Except.toOption]
  | _ => rfl

/-- An access as the code makes it finds what is at the end of the path. -/
theorem endItem_toOption (j : Json) (sum key : String) : (endItem (some j) sum key).toOption = valueAt j ["end", sum, key] := by
  have hlast : ∀ v : Json, (v.item key).toOption = valueAt v [key] := by
    intro v
    rw [valueAt_cons]
    cases v.item key <;> rfl
  rw [valueAt_cons]
  simp only [valueAt_cons _ sum, ← hlast]
  unfold endItem
  rw [toOption_bind]
  congr 1
  funext v
  exact toOption_bind _ _

/-- The record that is returned holds the four values, when all four are there. -/
theorem endRecord_toOption (j : Json) : (endRecord (some j)).toOption = fourValues j := by
  simp only [endRecord, toOption_bind, endItem_toOption]
  rfl

theorem perMillion_toOption (j : Json) : j.perMillion.toOption = some ⟨⟩ ↔ IsNumber j := by
  cases j with
  | int n =>
    by_cases h : Json.perMillionLimit ≤ n.natAbs
    · simp [Json.perMillion, IsNumber, h, Except.toOption]
    · simp [Json.perMillion, IsNumber, h, Except.toOption, Nat.lt_of_not_le h]
  | _ => simp [Json.perMillion, IsNumber, Except.toOption]

/-- The log line can be made exactly if both rates are there as numbers. -/
theorem logRates_toOption (j : Json) : (logRates (some j)).toOption = some ⟨⟩ ↔ HasRates j := by
  have hpart : ∀ sum, (endItem (some j) sum "bits_per_second" >>= Json.perMillion).toOption = some ⟨⟩ ↔
      ∃ x, valueAt j ["end", sum, "bits_per_second"] = some x ∧ IsNumber x := by
    intro sum
    simp only [toOption_bind, endItem_toOption, Option.bind_eq_some_iff, perMillion_toOption]
  have hsplit : logRates (some j) = (endItem (some j) "sum_sent" "bits_per_second" >>= Json.perMillion) >>= fun _ =>
      endItem (some j) "sum_received" "bits_per_second" >>= Json.perMillion := by
    unfold logRates
    cases endItem (some j) "sum_sent" "bits_per_second" <;> rfl
  rw [hsplit, toOption_bind, Option.bind_eq_some_iff, HasRates, ← hpart, ← hpart]
  constructor
  · intro hall
    obtain ⟨⟨⟩, hsent, hreceived⟩ := hall
    exact ⟨hsent, hreceived⟩
  · intro h
    obtain ⟨hsent, hreceived⟩ := h
    exact ⟨⟨⟩, hsent, hreceived⟩

/-! ## The outcome -/

/-- Without JSON, the call returns the failure record. -/
theorem iperfOutcome_of_none {names : List UInt8 → Option Nat} {encodable : Nat → Bool} {output : List UInt8} {t : Text}
    (ht : jsonString names output = .ok t) (hj : Json.loads t = none) :
    iperfOutcome names encodable output = .ok failureRecord := by
  have hclosed : occursIn socketClosed socketClosed = true := by decide
  simp [iperfOutcome, ht, hj, hclosed, bind, Except.bind, pure, Except.pure]

/-- With JSON, the outcome is decided by the words for a closed socket and then by the rates. -/
theorem iperfOutcome_of_some {names : List UInt8 → Option Nat} {encodable : Nat → Bool} {output : List UInt8} {t : Text}
    {j : Json}
    (ht : jsonString names output = .ok t) (hj : Json.loads t = some j) :
    iperfOutcome names encodable output =
      if occursIn socketClosed t then .ok failureRecord
      else match logRates (some j) with
        | .error _ => print encodable t >>= fun _ => .ok failureRecord
        | .ok _ => endRecord (some j) := by
  cases hclosed : occursIn socketClosed t with
  | true => simp [iperfOutcome, ht, hj, hclosed, bind, Except.bind, pure, Except.pure]
  | false =>
    cases hrates : logRates (some j) with
    | error e => simp [iperfOutcome, ht, hj, hclosed, hrates, bind, Except.bind, pure, Except.pure]
    | ok u => simp [iperfOutcome, ht, hj, hclosed, hrates, bind, Except.bind]

/-- The failure record looks like a transfer with the rate 0. -/
theorem hasRates_of_failureRecord {j : Json} (h : fourValues j = some failureRecord) : HasRates j := by
  have hzero : IsNumber (0 : Json) := Json.perMillionLimit_pos
  simp only [fourValues, Option.bind_eq_bind, Option.bind_eq_some_iff, Option.pure_def, Option.some.injEq, failureRecord,
    PerMetric.mk.injEq] at h
  obtain ⟨_, -, sentBps, hsent, _, -, receivedBps, hreceived, -, rfl, -, rfl⟩ := h
  exact ⟨⟨0, hsent, hzero⟩, ⟨0, hreceived, hzero⟩⟩

/-- The failure record is right for a closed socket, unless there are four values that differ from it. -/
theorem failure_iff (j : Json) :
    (Except.ok failureRecord : Except PyErr _) = .ok ((fourValues j).getD failureRecord) ↔
      ∀ r, fourValues j = some r → r = failureRecord := by
  rw [Except.ok.injEq]
  cases fourValues j with
  | none => simp
  | some r => simp [eq_comm]

/-- With the rates, what is returned is right exactly if the byte counts are there too. -/
theorem record_iff (j : Json) :
    endRecord (some j) = .ok ((fourValues j).getD failureRecord) ↔ ∃ r, fourValues j = some r := by
  rw [eq_ok_iff_toOption, endRecord_toOption]
  cases fourValues j with
  | none => simp
  | some r => simp

/-- Without the rates, the failure record is right exactly if the four values are not there and the text can be printed. -/
theorem unparsed_iff {j : Json} (t : Text) (encodable : Nat → Bool) (hrates : ¬HasRates j) :
    (print encodable t >>= fun _ => Except.ok failureRecord) = .ok ((fourValues j).getD failureRecord) ↔
      fourValues j = none ∧ t.all encodable = true := by
  have hother : ∀ r, fourValues j = some r → r ≠ failureRecord := by
    intro r hr heq
    rw [heq] at hr
    exact hrates (hasRates_of_failureRecord hr)
  unfold print
  cases hprint : t.all encodable with
  | false =>
    constructor
    · intro h
      cases h
    · intro h
      cases h.2
  | true =>
    show (Except.ok failureRecord : Except PyErr _) = _ ↔ _
    rw [failure_iff]
    constructor
    · intro h
      refine ⟨Option.eq_none_iff_forall_ne_some.mpr ?_, rfl⟩
      intro r hr
      exact hother r hr (h r hr)
    · intro h r hr
      rw [h.1] at hr
      cases hr

/-- The outcome for JSON, case by case: the words for a closed socket, then the rates, then the values. -/
theorem outcome_iff (j : Json) (t : Text) (encodable : Nat → Bool) :
    (if occursIn socketClosed t then .ok failureRecord
      else match logRates (some j) with
        | .error _ => print encodable t >>= fun _ => .ok failureRecord
        | .ok _ => endRecord (some j)) = Except.ok ((fourValues j).getD failureRecord) ↔
      (occursIn socketClosed t = true → ∀ r, fourValues j = some r → r = failureRecord) ∧
      (occursIn socketClosed t = false → HasRates j → ∃ r, fourValues j = some r) ∧
      (occursIn socketClosed t = false → ¬HasRates j → fourValues j = none ∧ t.all encodable = true) := by
  have hrates := logRates_toOption j
  cases hclosed : occursIn socketClosed t with
  | true =>
    rw [if_pos rfl, failure_iff]
    simp
  | false =>
    rw [if_neg Bool.false_ne_true]
    cases hlog : logRates (some j) with
    | ok _ =>
      rw [hlog] at hrates
      have hhas : HasRates j := hrates.mp rfl
      show endRecord (some j) = _ ↔ _
      rw [record_iff]
      simp [hhas]
    | error e =>
      rw [hlog] at hrates
      have hnot : ¬HasRates j := fun h => by cases hrates.mpr h
      show (print encodable t >>= fun _ => Except.ok failureRecord) = _ ↔ _
      rw [unparsed_iff t encodable hnot]
      simp [hnot]

theorem reads_of_readable {names : List UInt8 → Option Nat} {encodable : Nat → Bool} {output : List UInt8}
    (h : Readable names encodable output) : Reads names encodable output := by
  obtain ⟨t, ht, hall⟩ := h
  unfold Reads
  rw [ht]
  simp only [Except.toOption, Option.bind_some]
  cases hj : Json.loads t with
  | none => exact iperfOutcome_of_none ht hj
  | some j =>
    rw [iperfOutcome_of_some ht hj]
    exact (outcome_iff j t encodable).mpr (hall j hj)

theorem readable_of_reads {names : List UInt8 → Option Nat} {encodable : Nat → Bool} {output : List UInt8}
    (h : Reads names encodable output) : Readable names encodable output := by
  unfold Reads at h
  cases ht : jsonString names output with
  | error e =>
    have hraise : iperfOutcome names encodable output = .error e := by
      unfold iperfOutcome
      rw [ht]
      rfl
    cases hraise.symm.trans h
  | ok t =>
    refine ⟨t, ht, ?_⟩
    intro j hj
    rw [iperfOutcome_of_some ht hj, ht] at h
    simp only [Except.toOption, Option.bind_some, hj] at h
    exact (outcome_iff j t encodable).mp h

/-- The code points that UTF-8 encodes. -/
def utf8 (c : Nat) : Bool := c < 0xd800 || 0xe000 ≤ c

/-- Rates without byte counts. -/
def ratesOnly : List UInt8 :=
  ascii "\x7b\"end\": \x7b\"sum_sent\": \x7b\"bits_per_second\": 9.5e6\x7d, \"sum_received\": \x7b\"bits_per_second\": 9.5e6\x7d\x7d\x7d"

example : iperfOutcome (fun _ => none) utf8 (ascii "iperf3: error - unable to connect to server\n") = .ok failureRecord := rfl

end Qpep.Testbed
