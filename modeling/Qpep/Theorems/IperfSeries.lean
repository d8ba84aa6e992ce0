import Mathlib.Data.List.Induction
import Qpep.Lemmas.Lab
import Qpep.Theorems.IperfOutput

/-!
# The results of IPerf

`IperfBenchmark.run` files every transfer once, under the name of its size, and the four series of a name list its transfers
in the order in which they were run (`iperf_run_aligned`). It returns whenever the outputs of the client can be read
(`iperf_run_of_outputs`).
-/

namespace Qpep.Testbed

open Python Hoare

variable {S V R : Type}

/-- The four series of some records. -/
def seriesOf (records : List (PerMetric V)) : PerMetric (List V) :=
  ⟨records.map PerMetric.sentBytes, records.map PerMetric.sentBps, records.map PerMetric.receivedBytes,
    records.map PerMetric.receivedBps⟩

/-- The records of the transfers of one name, in the order in which they were run. -/
def recordsOf (resultName : S → String) (key : String) (ts : List (S × PerMetric V)) : List (PerMetric V) :=
  (ts.filter fun t => resultName t.1 = key).map Prod.snd

/-! ## Collecting -/

/-- The series that some records make up after earlier ones. -/
def extend (earlier : Option (PerMetric (List V))) (records : List (PerMetric V)) : Option (PerMetric (List V)) :=
  match earlier, records with
  | none, [] => none
  | some series, rs =>
    some ⟨series.sentBytes ++ (seriesOf rs).sentBytes, series.sentBps ++ (seriesOf rs).sentBps,
      series.receivedBytes ++ (seriesOf rs).receivedBytes, series.receivedBps ++ (seriesOf rs).receivedBps⟩
  | none, rs => some (seriesOf rs)

/-- What a name holds once a record has been added. -/
theorem addRecord_get? (results : IperfResults V) (name key : String) (earlier : Option (PerMetric (List V)))
    (records : List (PerMetric V)) (r : PerMetric V) (h : results.get? name = extend earlier records) :
    (addRecord results name r).get? key = if name = key then extend earlier (records ++ [r]) else results.get? key := by
  unfold addRecord
  rw [h]
  cases earlier with
  | none =>
    cases records with
    | nil => exact Dict.get?_set results name key _
    | cons r' rs => simp only [extend, Dict.get?_set, seriesOf, List.map_append, List.map_cons, List.map_nil, List.cons_append]
  | some series => simp only [extend, Dict.get?_set, seriesOf, List.map_append, List.map_cons, List.map_nil, List.append_assoc]

/-- What a name holds: what it held before, and the series of its transfers behind it (induction on the last transfer). -/
theorem collectFrom_get? (resultName : S → String) (earlier : IperfResults V) (key : String) (ts : List (S × PerMetric V)) :
    (collectFrom resultName earlier ts).get? key = extend (earlier.get? key) (recordsOf resultName key ts) := by
  induction ts using List.reverseRecOn generalizing key with
  | nil => cases h : earlier.get? key <;> simp [collectFrom, recordsOf, extend, seriesOf, h]
  | append_singleton ts t ih =>
    have hcollect : collectFrom resultName earlier (ts ++ [t]) =
        addRecord (collectFrom resultName earlier ts) (resultName t.1) t.2 := by
      rw [collectFrom, collectFrom, List.foldl_append]
      rfl
    rw [hcollect, addRecord_get? _ _ _ _ (recordsOf resultName (resultName t.1) ts) _ (ih _), recordsOf, recordsOf]
    by_cases hkey : resultName t.1 = key
    · rw [List.filter_append, List.map_append]
      simp only [hkey, if_true, List.filter_singleton, decide_true]
      rfl
    · rw [if_neg hkey, ih, List.filter_append, List.map_append]
      simp [hkey, recordsOf]

/-- What a name holds in the results of a benchmark just made: the series of its transfers, if it has any. -/
theorem collect_get? (resultName : S → String) (key : String) (ts : List (S × PerMetric V)) :
    (collect resultName ts).get? key = match recordsOf resultName key ts with
      | [] => none
      | r :: rs => some (seriesOf (r :: rs)) := by
  have hnone : (Dict.empty : IperfResults V).get? key = none := rfl
  rw [collect, collectFrom_get?, hnone]
  cases recordsOf resultName key ts <;> rfl

/-! ## The transfers of a run -/

/-- Transfers that were answered by records are numbered. -/
theorem Answered.eq_numbered {record : Nat → PerMetric V} {w : World V} (hw : ∀ n, w.iperf n = .ok (record n)) {n : Nat}
    {ts : List (S × PerMetric V)} (h : Answered w n ts) : ts = numbered record n (ts.map Prod.fst) := by
  induction ts generalizing n with
  | nil => rfl
  | cons t ts ih =>
    have hhead := h 0 t rfl
    rw [hw, Nat.add_zero] at hhead
    have htail : Answered w (n + 1) ts := by
      intro k u hu
      rw [show n + 1 + k = n + (k + 1) by omega]
      exact h (k + 1) u hu
    rw [List.map_cons, numbered, ← ih htail, Except.ok.inj hhead]

/-- How many transfers have a name: those of one iteration, times the iterations. -/
theorem length_recordsOf (resultName : S → String) (key : String) (ts : List (S × PerMetric V)) :
    (recordsOf resultName key ts).length = (ts.map Prod.fst).countP fun size => resultName size = key := by
  rw [recordsOf, List.length_map, List.countP_map, List.countP_eq_length_filter]
  rfl

/-- When every transfer comes to a record, the run returns, with its transfers added to the results it began with. -/
theorem iperf_runFrom_collects (record : Nat → PerMetric V) (pages : Nat → List Char) (network : String) (resultName : S → String)
    (b : IperfBenchmark S) (earlier : IperfResults V) (s : Lab S V R) :
    ∃ results s', (b.runFrom ⟨fun n => .ok (record n), pages, network⟩ resultName earlier).run s = .ok results s' ∧
      ∃ new, s.Measures s' new ∧ s'.transfers = s.transfers + (transfersOf new).length ∧
        transfersOf new = numbered record s.transfers (List.replicate b.iterations.toNat b.fileSizes).flatten ∧
        (transfersOf new).map Prod.fst = (List.replicate b.iterations.toNat b.fileSizes).flatten ∧
        results = collectFrom resultName earlier (transfersOf new) := by
  have hnever : ∀ e s', IperfRaised ⟨fun n => .ok (record n), pages, network⟩ s e s' → False := by
    intro e s' hs
    obtain ⟨-, n, hn⟩ := hs
    cases hn
  have htriple := (triple_iperf_runFrom ⟨fun n => .ok (record n), pages, network⟩ resultName b earlier s).conseq (fun _ h => h)
    (fun _ _ h => h) hnever
  obtain ⟨results, s', hrun, new, hmeasures, hanswered, hcount, hsizes, hresults⟩ := htriple.returns rfl
  refine ⟨results, s', hrun, new, hmeasures, hcount, ?_, hsizes, hresults⟩
  rw [hanswered.eq_numbered (fun _ => rfl), hsizes]

/-- When every transfer comes to a record, a benchmark just made returns, with the results that its transfers make up. -/
theorem iperf_run_collects (record : Nat → PerMetric V) (pages : Nat → List Char) (network : String) (resultName : S → String)
    (b : IperfBenchmark S) (s : Lab S V R) :
    ∃ results s', (b.run ⟨fun n => .ok (record n), pages, network⟩ resultName).run s = .ok results s' ∧
      ∃ new, s.Measures s' new ∧ s'.transfers = s.transfers + (transfersOf new).length ∧
        transfersOf new = numbered record s.transfers (List.replicate b.iterations.toNat b.fileSizes).flatten ∧
        (transfersOf new).map Prod.fst = (List.replicate b.iterations.toNat b.fileSizes).flatten ∧
        results = collect resultName (transfersOf new) :=
  iperf_runFrom_collects record pages network resultName b Dict.empty s

/-- A benchmark that is run again adds to its series what a run of a new one would have collected. -/
theorem iperf_runFrom_extends (record : Nat → PerMetric V) (pages : Nat → List Char) (network : String) (resultName : S → String)
    (b : IperfBenchmark S) (earlier : IperfResults V) (s : Lab S V R) :
    ∃ results s', (b.runFrom ⟨fun n => .ok (record n), pages, network⟩ resultName earlier).run s = .ok results s' ∧
      ∀ key, results.get? key = extend (earlier.get? key) (recordsOf resultName key
        (numbered record s.transfers (List.replicate b.iterations.toNat b.fileSizes).flatten)) := by
  obtain ⟨results, s', hrun, new, -, -, htransfers, -, rfl⟩ :=
    iperf_runFrom_collects record pages network resultName b earlier s
  refine ⟨_, s', hrun, ?_⟩
  intro key
  rw [collectFrom_get?, htransfers]

/-- For every list of sizes, every number of iterations and every sequence of outcomes: `IperfBenchmark.run` returns; it
makes one transfer for each size in each iteration, in this order; each name of the results holds the four series of the
transfers of that name, in the order in which they were run, as many as the sizes of that name times the iterations; and
every transfer has its name in the results. -/
theorem iperf_run_aligned (record : Nat → PerMetric V) (pages : Nat → List Char) (network : String) (resultName : S → String)
    (b : IperfBenchmark S) (s : Lab S V R) :
    ∃ results s' new,
      (b.run ⟨fun n => .ok (record n), pages, network⟩ resultName).run s = .ok results s' ∧ s'.log = s.log ++ new ∧
      transfersOf new = numbered record s.transfers (List.replicate b.iterations.toNat b.fileSizes).flatten ∧
      (∀ key series, results.get? key = some series →
        series = seriesOf (recordsOf resultName key (transfersOf new)) ∧
        series.sentBytes.length = b.iterations.toNat * b.fileSizes.countP (fun size => resultName size = key) ∧
        series.sentBps.length = b.iterations.toNat * b.fileSizes.countP (fun size => resultName size = key) ∧
        series.receivedBytes.length = b.iterations.toNat * b.fileSizes.countP (fun size => resultName size = key) ∧
        series.receivedBps.length = b.iterations.toNat * b.fileSizes.countP (fun size => resultName size = key)) ∧
      ∀ t ∈ transfersOf new, ∃ series, results.get? (resultName t.1) = some series := by
  obtain ⟨results, s', hrun, new, hmeasures, -, htransfers, hsizes, rfl⟩ :=
    iperf_run_collects record pages network resultName b s
  refine ⟨_, s', new, hrun, hmeasures.log, htransfers, ?_, ?_⟩
  · intro key series hseries
    have hlength := length_recordsOf resultName key (transfersOf new)
    rw [hsizes, List.countP_flatten, List.map_replicate, List.sum_replicate_nat] at hlength
    have heq : series = seriesOf (recordsOf resultName key (transfersOf new)) := by
      rw [collect_get?] at hseries
      cases hrecords : recordsOf resultName key (transfersOf new) with
      | nil =>
        rw [hrecords] at hseries
        cases hseries
      | cons r rs =>
        rw [hrecords] at hseries
        exact (Option.some.inj hseries).symm
    refine ⟨heq, ?_⟩
    simp only [heq, seriesOf, List.length_map, hlength, and_self]
  · intro t ht
    have hmem : t.2 ∈ recordsOf resultName (resultName t.1) (transfersOf new) := by
      rw [recordsOf, List.mem_map]
      exact ⟨t, List.mem_filter.mpr ⟨ht, by simp⟩, rfl⟩
    rw [collect_get?]
    cases hrecords : recordsOf resultName (resultName t.1) (transfersOf new) with
    | nil =>
      rw [hrecords] at hmem
      cases hmem
    | cons r rs => exact ⟨_, rfl⟩

/-- The record that an output holds, or the failure record. -/
def readRecord (names : List UInt8 → Option Nat) (output : List UInt8) : PerMetric Json :=
  (((jsonString names output).toOption.bind Json.loads).bind fourValues).getD failureRecord

/-- When every output of the client can be read, the run returns, and its results are made of what the outputs hold. -/
theorem iperf_run_of_outputs {names : List UInt8 → Option Nat} {encodable : Nat → Bool} {output : Nat → List UInt8}
    (hreadable : ∀ n, Readable names encodable (output n)) (pages : Nat → List Char) (network : String)
    (resultName : S → String) (b : IperfBenchmark S) (s : Lab S Json R) :
    ∃ s', (b.run (World.ofOutputs names encodable output pages network) resultName).run s =
      .ok (collect resultName (numbered (fun n => readRecord names (output n)) s.transfers
        (List.replicate b.iterations.toNat b.fileSizes).flatten)) s' := by
  have hworld : World.ofOutputs names encodable output pages network =
      ⟨fun n => .ok (readRecord names (output n)), pages, network⟩ := by
    unfold World.ofOutputs
    congr 1
    funext n
    exact reads_of_readable (hreadable n)
  rw [hworld]
  obtain ⟨results, s', hrun, new, -, -, htransfers, -, hresults⟩ :=
    iperf_run_collects (fun n => readRecord names (output n)) pages network resultName b s
  refine ⟨s', ?_⟩
  rw [hrun, hresults, htransfers]

end Qpep.Testbed
