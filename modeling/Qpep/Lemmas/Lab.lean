import Qpep.Lib.Hoare
import Qpep.Testbed.Benchmarks

/-!
# The testbed: what each function does

One statement for each function of the testbed: those that always return are equations, the others are triples.
-/

namespace Qpep.Testbed

open Python Hoare

variable {S V R F : Type}

namespace Lab

/-- After `deploy_scenario`. -/
def deployed (s : Lab S V R) (testbedUp : Bool) : Lab S V R :=
  { s with netem := if testbedUp then s.netem else fun _ => none }.note (.deployScenario testbedUp)

/-- After `set_plr_percentage` at the gateway. -/
def lossy (s : Lab S V R) (plr : String) : Lab S V R :=
  { s with netem := Function.update s.netem .gateway (some plr) }.note (.setPlrPercentage plr false true)

@[simp] theorem deployed_transfers (s : Lab S V R) (up : Bool) : (s.deployed up).transfers = s.transfers := rfl
@[simp] theorem deployed_runs (s : Lab S V R) (up : Bool) : (s.deployed up).runs = s.runs := rfl
@[simp] theorem deployed_filed (s : Lab S V R) (up : Bool) : (s.deployed up).filed = s.filed := rfl
@[simp] theorem lossy_transfers (s : Lab S V R) (plr : String) : (s.lossy plr).transfers = s.transfers := rfl
@[simp] theorem lossy_runs (s : Lab S V R) (plr : String) : (s.lossy plr).runs = s.runs := rfl
@[simp] theorem lossy_filed (s : Lab S V R) (plr : String) : (s.lossy plr).filed = s.filed := rfl

@[simp] theorem lossy_gateway (s : Lab S V R) (plr : String) : (s.lossy plr).netem .gateway = some plr := by
  simp [lossy]

/-- The log after a deployment: one step more. -/
theorem deployed_log (s : Lab S V R) (up : Bool) :
    (s.deployed up).log.map Entry.act = s.log.map Entry.act ++ [.deployScenario up] := by
  simp [deployed]

/-- The log after a change of the loss: one step more. -/
theorem lossy_log (s : Lab S V R) (plr : String) :
    (s.lossy plr).log.map Entry.act = s.log.map Entry.act ++ [.setPlrPercentage plr false true] := by
  simp [lossy]

end Lab

theorem note_run (a : Act S V) (s : Lab S V R) : (note a : Prog S V R PUnit).run s = .ok ⟨⟩ (s.note a) := rfl

theorem execRun_run (command : String) (s : Lab S V R) :
    (execRun command : Prog S V R PUnit).run s = .ok ⟨⟩ (s.note (.execRun command)) := rfl

theorem deployScenario_run (up : Bool) (s : Lab S V R) :
    (deployScenario up : Prog S V R PUnit).run s = .ok ⟨⟩ (s.deployed up) := by
  cases up <;> rfl

/-- `set_plr_percentage` installs the loss whether or not there is a rule: the change fails exactly when there is none, and then
the rule is added. -/
theorem setPlrPercentage_run (plr : String) (s : Lab S V R) :
    (setPlrPercentage plr false true : Prog S V R PUnit).run s = .ok ⟨⟩ (s.lossy plr) := by
  cases h : s.netem .gateway with
  | none => simp [setPlrPercentage, tcChange, tcAdd, h, Lab.lossy, note]
  | some loss => simp [setPlrPercentage, tcChange, h, Lab.lossy, note]

/-- A run of a benchmark that returns. -/
theorem runBenchmark_run {run : Prog S V R R} {s s₁ : Lab S V R} {results : R}
    (h : run.run { s with log := [] } = .ok results s₁) :
    (runBenchmark run).run s = .ok ⟨s.log, s.netem .gateway, s₁.log, results⟩
      { s₁ with log := [], runs := s₁.runs ++ [⟨s.log, s.netem .gateway, s₁.log, results⟩] } := by
  simp only [runBenchmark, EStateM.run_bind, EStateM.run_get, EStateM.run_set, EStateM.run_pure, h]

theorem fileResults_run {report report' : Dict String (List R)} {plr : String} {r : Run S V R}
    (h : report.append plr r.results = .ok report') (s : Lab S V R) :
    (fileResults report plr r).run s = .ok report' { s with filed := s.filed ++ [(plr, r)] } := by
  rw [fileResults, h]
  rfl

/-! ## Steps that touch no rule -/

/-- `s'` is `s` after the steps `new`, which touch no rule and file nothing. -/
structure Lab.Measures (s s' : Lab S V R) (new : List (Entry S V)) : Prop where
  netem : s'.netem = s.netem
  runs : s'.runs = s.runs
  filed : s'.filed = s.filed
  log : s'.log = s.log ++ new
  loss : ∀ e ∈ new, e.loss = s.netem .gateway

theorem Lab.Measures.refl (s : Lab S V R) : s.Measures s [] :=
  ⟨rfl, rfl, rfl, by simp, by simp⟩

theorem Lab.Measures.trans {s s₁ s₂ : Lab S V R} {new₁ new₂ : List (Entry S V)} (h₁ : s.Measures s₁ new₁)
    (h₂ : s₁.Measures s₂ new₂) : s.Measures s₂ (new₁ ++ new₂) := by
  refine ⟨h₂.netem.trans h₁.netem, h₂.runs.trans h₁.runs, h₂.filed.trans h₁.filed, ?_, ?_⟩
  · rw [h₂.log, h₁.log, List.append_assoc]
  · intro e he
    rcases List.mem_append.mp he with he | he
    · exact h₁.loss e he
    · rw [h₂.loss e he, h₁.netem]

theorem Lab.Measures.note (s : Lab S V R) (a : Act S V) : s.Measures (s.note a) [⟨a, s.netem .gateway⟩] :=
  ⟨rfl, rfl, rfl, rfl, by simp⟩

/-- Pair the elements of a list with the answers from number `n` on. -/
def numbered {α β : Type} (answer : Nat → β) : (n : Nat) → List α → List (α × β)
  | _, [] => []
  | n, x :: xs => (x, answer n) :: numbered answer (n + 1) xs

theorem numbered_append {α β : Type} (answer : Nat → β) (n : Nat) (xs ys : List α) :
    numbered answer n (xs ++ ys) = numbered answer n xs ++ numbered answer (n + xs.length) ys := by
  induction xs generalizing n with
  | nil => rfl
  | cons x xs ih =>
    rw [List.cons_append, numbered, numbered, ih, List.cons_append, List.length_cons, Nat.add_right_comm, Nat.add_assoc]

/-! ## IPerf -/

/-- The transfers among some steps: the size and the record of each. -/
def transfersOf (entries : List (Entry S V)) : List (S × PerMetric V) :=
  entries.filterMap fun e =>
    match e.act with
    | .transfer size record => some (size, record)
    | _ => none

@[simp] theorem transfersOf_append (es es' : List (Entry S V)) : transfersOf (es ++ es') = transfersOf es ++ transfersOf es' :=
  List.filterMap_append

/-- The records of some transfers are what the world answered from call number `n` on. -/
def Answered (w : World V) (n : Nat) (ts : List (S × PerMetric V)) : Prop :=
  ∀ k t, ts[k]? = some t → w.iperf (n + k) = .ok t.2

theorem Answered.nil (w : World V) (n : Nat) : Answered w n ([] : List (S × PerMetric V)) := by
  intro k t ht
  cases ht

theorem Answered.snoc {w : World V} {n : Nat} {ts : List (S × PerMetric V)} {t : S × PerMetric V} (h : Answered w n ts)
    (ht : w.iperf (n + ts.length) = .ok t.2) : Answered w n (ts ++ [t]) := by
  intro k u hu
  by_cases hk : k < ts.length
  · rw [List.getElem?_append_left hk] at hu
    exact h k u hu
  · rw [List.getElem?_append_right (by omega), List.getElem?_singleton] at hu
    split at hu
    · rename_i hzero
      cases hu
      rwa [show n + k = n + ts.length by omega]
    · cases hu

/-- The results that some transfers add to earlier ones. -/
def collectFrom (resultName : S → String) (earlier : IperfResults V) (ts : List (S × PerMetric V)) : IperfResults V :=
  ts.foldl (fun results t => addRecord results (resultName t.1) t.2) earlier

/-- The results that some transfers make up. -/
def collect (resultName : S → String) (ts : List (S × PerMetric V)) : IperfResults V := collectFrom resultName Dict.empty ts

/-- A run of the benchmark that began in `s₀` with the results `earlier` has come to `s`: it has transferred these sizes. -/
def IperfProgress (w : World V) (resultName : S → String) (earlier : IperfResults V) (s₀ : Lab S V R) (sizes : List S)
    (results : IperfResults V) (s : Lab S V R) : Prop :=
  ∃ new, s₀.Measures s new ∧ Answered w s₀.transfers (transfersOf new) ∧
    s.transfers = s₀.transfers + (transfersOf new).length ∧ (transfersOf new).map Prod.fst = sizes ∧
    results = collectFrom resultName earlier (transfersOf new)

/-- A run of the benchmark that began in `s₀` was ended in `s` by an exception that a transfer raised. -/
def IperfRaised (w : World V) (s₀ : Lab S V R) (e : PyErr) (s : Lab S V R) : Prop :=
  (∃ new, s₀.Measures s new) ∧ ∃ n, w.iperf n = .error e

/-- A transfer is counted, and then raises or is put on record. -/
theorem countTransfer_run (w : World V) (size : S) (s : Lab S V R) :
    (do
      let s ← get
      set { s with transfers := s.transfers + 1 }
      match w.iperf s.transfers with
      | .error e => throw e
      | .ok testResults =>
        note (.transfer size testResults)
        return testResults : Prog S V R (PerMetric V)).run s =
      match w.iperf s.transfers with
      | .error e => .error e { s with transfers := s.transfers + 1 }
      | .ok r => .ok r ({ s with transfers := s.transfers + 1 }.note (.transfer size r)) := by
  simp only [EStateM.run_bind, EStateM.run_get, EStateM.run_set]
  cases w.iperf s.transfers with
  | error e => rfl
  | ok r => rfl

/-- The commands before a transfer, and the count of it. -/
theorem runIperfTest_run (w : World V) (size : S) (resetOnRun : Bool) (s : Lab S V R) :
    ∃ s₁ new, s.Measures s₁ new ∧ transfersOf new = [] ∧ s₁.transfers = s.transfers + 1 ∧
      (runIperfTest w size resetOnRun).run s =
        match w.iperf s.transfers with
        | .error e => .error e s₁
        | .ok r => .ok r (s₁.note (.transfer size r)) := by
  cases resetOnRun with
  | false =>
    let ready := s.note (.execRun "iperf3 -s")
    have h : s.Measures ready _ := .note s _
    exact ⟨{ ready with transfers := s.transfers + 1 }, _, ⟨h.netem, h.runs, h.filed, h.log, h.loss⟩, rfl, rfl,
      countTransfer_run w size ready⟩
  | true =>
    let ready := ((s.note (.execRun "pkill -9 iperf3")).note (.execRun "iperf3 -s")).note (.execRun "pkill -9 iperf3")
    have h : s.Measures ready _ := ((Lab.Measures.note s _).trans (.note _ _)).trans (.note _ _)
    exact ⟨{ ready with transfers := s.transfers + 1 }, _, ⟨h.netem, h.runs, h.filed, h.log, h.loss⟩, rfl, rfl,
      countTransfer_run w size ready⟩

/-- One transfer of a run: it raises, or its record is added. -/
theorem triple_transfer (w : World V) (resultName : S → String) (resetOnRun : Bool) (earlier : IperfResults V) (s₀ : Lab S V R)
    (sizes : List S) (size : S) (results : IperfResults V) :
    Triple (IperfProgress w resultName earlier s₀ sizes results)
      (do
        let testResults ← runIperfTest w size resetOnRun
        return addRecord results (resultName size) testResults)
      (IperfProgress w resultName earlier s₀ (sizes ++ [size])) (IperfRaised w s₀) := by
  intro s hs
  obtain ⟨new, hmeasures, hanswered, hcount, hsizes, hresults⟩ := hs
  obtain ⟨s₁, new₁, hmeasures₁, htransfers₁, hcount₁, hrun⟩ := runIperfTest_run w size resetOnRun s
  rw [EStateM.run_bind, hrun]
  cases hw : w.iperf s.transfers with
  | error e => exact ⟨⟨_, hmeasures.trans hmeasures₁⟩, s.transfers, hw⟩
  | ok r =>
    have hnew : transfersOf (new ++ new₁ ++ [⟨.transfer size r, s₁.netem .gateway⟩]) = transfersOf new ++ [(size, r)] := by
      rw [transfersOf_append, transfersOf_append, htransfers₁, List.append_nil]
      rfl
    refine ⟨_, (hmeasures.trans hmeasures₁).trans (.note s₁ _), ?_, ?_, ?_, ?_⟩
    · rw [hnew]
      exact hanswered.snoc (by rwa [← hcount])
    · rw [hnew, List.length_append, Lab.note_transfers, hcount₁, hcount]
      rfl
    · rw [hnew, List.map_append, hsizes]
      rfl
    · rw [hnew, hresults, collectFrom, collectFrom, List.foldl_append]
      rfl

/-- `IperfBenchmark.run`: it transfers every size in every iteration, in order, and adds the transfers to its results. -/
theorem triple_iperf_runFrom (w : World V) (resultName : S → String) (b : IperfBenchmark S) (earlier : IperfResults V)
    (s₀ : Lab S V R) :
    Triple (fun s => s = s₀) (b.runFrom w resultName earlier)
      (IperfProgress w resultName earlier s₀ (List.replicate b.iterations.toNat b.fileSizes).flatten) (IperfRaised w s₀) := by
  have hstart : Triple (fun s => s = s₀) (execRun "wget http://1.1.1.1")
      (fun _ => IperfProgress w resultName earlier s₀ [] earlier) (IperfRaised w s₀) := by
    refine triple_of_run (fun s => execRun_run _ s) ?_
    rintro s rfl
    exact ⟨_, .note s _, .nil w _, rfl, rfl, rfl⟩
  refine triple_bind hstart ?_
  intro _
  refine triple_foldlM_range (fun i => IperfProgress w resultName earlier s₀ (List.replicate i b.fileSizes).flatten) ?_
  intro i _ results
  have hsizes := triple_foldlM (E := IperfRaised w s₀) (l := b.fileSizes) (b := results)
    (fun done => IperfProgress w resultName earlier s₀ ((List.replicate i b.fileSizes).flatten ++ done))
    fun done size rest _ results' => by
      rw [← List.append_assoc]
      exact triple_transfer w resultName b.resetOnRun earlier s₀ _ size results'
  rw [List.append_nil] at hsizes
  rwa [List.replicate_succ', List.flatten_append, List.flatten_singleton]

/-! ## SiteSpeed -/

/-- The loop over the matches of a page, apart from the testbed: it ends at the first text that is no number. -/
def addLoads (ops : FloatOps F) (host : String) : (results : Dict String (List F)) → List (List Char × Char) →
    Except PyErr (Dict String (List F))
  | results, [] => .ok results
  | results, m :: ms =>
    match hostVal ops m with
    | .error e => .error e
    | .ok x => addLoads ops host (addLoad results host x) ms

theorem addLoads_run (ops : FloatOps F) (host : String) (results : Dict String (List F)) (ms : List (List Char × Char))
    (s : Lab S V R) :
    (ms.foldlM (addMatch ops host) results : Prog S V R _).run s =
      match addLoads ops host results ms with
      | .error e => .error e s
      | .ok results' => .ok results' s := by
  induction ms generalizing results with
  | nil => rfl
  | cons m ms ih =>
    rw [List.foldlM_cons, EStateM.run_bind, addLoads, addMatch]
    cases hostVal ops m with
    | error e => rfl
    | ok x => exact ih (addLoad results host x)

/-- The testbed after a page load. -/
def Lab.loaded (s : Lab S V R) (host : String) : Lab S V R :=
  { s with pages := s.pages + 1 }.note (.browsertime host)

/-- A page load reads the next output, and raises only at a text that is no number. -/
theorem loadHost_run (w : World V) (ops : FloatOps F) (subIterations : Int) (acc : SitespeedResults F) (host : String)
    (s : Lab S V R) :
    (loadHost w ops subIterations acc host).run s =
      match addLoads ops host acc.results (countedLoads subIterations (w.browsertime s.pages)) with
      | .error e => .error e (s.loaded host)
      | .ok results => .ok ⟨results, acc.errors + countLoadErrors (w.browsertime s.pages)⟩ (s.loaded host) := by
  have hloop := addLoads_run ops host acc.results (countedLoads subIterations (w.browsertime s.pages)) (s.loaded host)
  unfold loadHost
  simp only [EStateM.run_bind, EStateM.run_get, EStateM.run_set, note_run]
  rw [show ({ s with pages := s.pages + 1 } : Lab S V R).note (.browsertime host) = s.loaded host from rfl, hloop]
  cases addLoads ops host acc.results (countedLoads subIterations (w.browsertime s.pages)) <;> rfl

end Qpep.Testbed
