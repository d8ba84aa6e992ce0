import Qpep.Theorems.IperfSeries
import Qpep.Testbed.SimulationExamples

/-!
# Recovery after a failed transfer

`plr_test_scenario` wants to restart the routes when a transfer has failed, but compares a series with 0, so it never does.
A failed run is followed by a deployment only where the next batch begins with one (`plrTest_followed_up_iff`).
-/

namespace Qpep.Testbed

open Python Hoare

variable {S V R L : Type}

section

variable [Zero V]

/-- Some transfer of the run got the failure record. -/
def Run.Failed (r : Run S V R) : Prop := ∃ t ∈ transfersOf r.during, t.2 = failureRecord

/-- What was done after run number `n` and before the next run, or until the end when it was the last. -/
def gapAfter (s : Lab S V R) (n : Nat) : List (Act S V) :=
  match s.runs[n + 1]? with
  | some r => r.before.map Entry.act
  | none => s.log.map Entry.act

/-- Every failed run is followed, before the next run, by a deployment and a setting of the loss to the level of the run; and
between two runs of one batch nothing is deployed when the first did not fail. -/
structure FollowedUp (s : Lab S V R) : Prop where
  restored : ∀ n r, s.runs[n]? = some r → r.Failed →
    ∃ plr, r.loss = some plr ∧ [.deployScenario false, .setPlrPercentage plr false true].Sublist (gapAfter s n)
  undisturbed : ∀ n r r', s.runs[n]? = some r → s.runs[n + 1]? = some r' → (∀ plr j, .batch plr j ∉ gapAfter s n) →
    ¬r.Failed → ∀ up, .deployScenario up ∉ gapAfter s n

/-- The batches of the experiment: each level of the slice, as often as there are meta-iterations. -/
def plrTestBatches (plrLevels : List L) (plrString : L → String) (env : Env) : List (String × Nat) :=
  if env.scenarioName ∈ ["QPEP", "Plain", "OpenVPN", "PEPSal", "Distributed PEPsal"] then
    (Python.slice plrLevels env.plrMinIndex env.plrMaxIndex).flatMap fun plrLevel =>
      (List.range env.plrMetaIterations.toNat).map fun j => (plrString plrLevel, j)
  else []

/-- Run number `n` fails: one of its four transfers gets the failure record. -/
def FailsAt (record : Nat → PerMetric V) (n : Nat) : Prop := ∃ t < 4, record (4 * n + t) = failureRecord

/-- Every run that fails is the last of its batch, and the next batch is at the same level. -/
def FailuresEndBatches (record : Nat → PerMetric V) (batches : List (String × Nat)) (iterations : Nat) : Prop :=
  ∀ n < batches.length * iterations, FailsAt record n →
    (n + 1) % iterations = 0 ∧
    (batches[(n + 1) / iterations]?).map Prod.fst = (batches[n / iterations]?).map Prod.fst

/-! ## One iteration -/

/-- A list is equal to no number, so nothing is restarted. -/
theorem restartIfBroken_eq (plr : String) (results : IperfResults V) :
    (restartIfBroken plr results : Prog S V (IperfResults V) PUnit) = return ⟨⟩ := by
  have hany : (results.items.any fun item => listEqNumber item.2.sentBps (0 : V)) = false := by simp [listEqNumber]
  rw [restartIfBroken, if_neg (by rw [hany]; decide)]

/-- One iteration is one run of four transfers, filed under the level, and nothing else. -/
theorem plrTestIteration_run (record : Nat → PerMetric V) (pages : Nat → List Char) (network : String)
    (resultName : Nat → String) (plr : String) (report : Dict String (List (IperfResults V))) (hplr : report.get? plr ≠ none)
    (s : Lab Nat V (IperfResults V)) :
    ∃ r report' s', (plrTestIteration ⟨fun n => .ok (record n), pages, network⟩ resultName plr report).run s = .ok report' s' ∧
      report'.get? plr ≠ none ∧ s'.netem = s.netem ∧ s'.transfers = s.transfers + 4 ∧ s'.log = [] ∧ s'.runs = s.runs ++ [r] ∧
      r.before = s.log ∧ r.loss = s.netem .gateway ∧
      transfersOf r.during = numbered record s.transfers [1000000, 2000000, 5000000, 1000000] := by
  obtain ⟨xs, hxs⟩ := Option.ne_none_iff_exists'.mp hplr
  obtain ⟨results, s₁, hrun, new, hmeasures, hcount, htransfers, -, -⟩ := iperf_run_collects record pages network resultName
    { fileSizes := [1000000, 2000000, 5000000, 1000000], resetOnRun := true, iterations := 1 } { s with log := [] }
  have hnew : transfersOf new = numbered record s.transfers [1000000, 2000000, 5000000, 1000000] := htransfers
  have hlog : s₁.log = new := hmeasures.log
  refine ⟨⟨s.log, s.netem .gateway, s₁.log, results⟩, report.set plr (xs ++ [results]),
    { s₁ with log := [], runs := s₁.runs ++ [⟨s.log, s.netem .gateway, s₁.log, results⟩],
              filed := s₁.filed ++ [(plr, ⟨s.log, s.netem .gateway, s₁.log, results⟩)] }, ?_, ?_, ?_, ?_, rfl, ?_, rfl, rfl, ?_⟩
  · have happend : report.append plr results = .ok (report.set plr (xs ++ [results])) := by rw [Dict.append, hxs]
    have hfile := fileResults_run (r := (⟨s.log, s.netem .gateway, s₁.log, results⟩ : Run Nat V (IperfResults V))) happend
    simp [plrTestIteration, runBenchmarks, runBenchmark_run hrun, hfile, restartIfBroken_eq]
  · simp
  · exact hmeasures.netem
  · show s₁.transfers = _
    rw [hcount, hnew]
    rfl
  · show s₁.runs ++ _ = s.runs ++ _
    rw [hmeasures.runs]
  · rw [hlog]
    exact hnew

/-! ## The plan of the experiment -/

/-- What a batch begins with. -/
def batchStart (plr : String) (j : Nat) : List (Act S V) :=
  [.batch plr j, .deployScenario false, .setPlrPercentage plr false true]

/-- Run number `n` is as the experiment plans it: in batch `n / iterations`, at the level of this batch, with the start of
the batch before it if it is the first of the batch, and failed exactly if the outcomes say so. -/
structure Planned (record : Nat → PerMetric V) (batches : List (String × Nat)) (iterations n : Nat) (r : Run Nat V R) : Prop where
  level : (batches[n / iterations]?).map Prod.fst = r.loss
  before : r.before.map Entry.act =
    if n % iterations = 0 then ((batches[n / iterations]?).map fun b => batchStart b.1 b.2).getD [] else []
  failed : r.Failed ↔ FailsAt record n

/-- The experiment has made the first `n` runs, as planned. -/
structure Progress (record : Nat → PerMetric V) (batches : List (String × Nat)) (iterations n : Nat) (s : Lab Nat V R) :
    Prop where
  length : s.runs.length = n
  transfers : s.transfers = 4 * n
  planned : ∀ m r, s.runs[m]? = some r → Planned record batches iterations m r

/-- Four transfers with the outcomes from number `4 * n` on. -/
theorem failed_iff_failsAt {record : Nat → PerMetric V} {n : Nat} {r : Run Nat V R}
    (h : transfersOf r.during = numbered record (4 * n) [1000000, 2000000, 5000000, 1000000]) :
    r.Failed ↔ FailsAt record n := by
  unfold Run.Failed FailsAt
  rw [h]
  simp only [numbered, List.mem_cons, List.not_mem_nil, or_false, exists_eq_or_imp, exists_eq_left]
  constructor
  · rintro (h | h | h | h)
    · exact ⟨0, by decide, h⟩
    · exact ⟨1, by decide, h⟩
    · exact ⟨2, by decide, h⟩
    · exact ⟨3, by decide, h⟩
  · intro h
    obtain ⟨t, ht, h⟩ := h
    have hcases : t = 0 ∨ t = 1 ∨ t = 2 ∨ t = 3 := by omega
    rcases hcases with rfl | rfl | rfl | rfl
    · exact Or.inl h
    · exact Or.inr (Or.inl h)
    · exact Or.inr (Or.inr (Or.inl h))
    · exact Or.inr (Or.inr (Or.inr h))

section Run

variable {record : Nat → PerMetric V} {pages : Nat → List Char} {network : String} {resultName : Nat → String}
  {batches : List (String × Nat)} {iterations : Nat}

/-- Round `i` of a batch begins: the runs before it are made, and since the last of them only the start of the batch was
done. -/
def AtRound (record : Nat → PerMetric V) (batches : List (String × Nat)) (iterations b i : Nat) (plr : String) (j : Nat)
    (report : Dict String (List R)) (s : Lab Nat V R) : Prop :=
  Progress record batches iterations (b * iterations + i) s ∧ s.netem .gateway = some plr ∧ report.get? plr ≠ none ∧
    s.log.map Entry.act = if i = 0 then batchStart plr j else []

/-- One round of a batch. -/
theorem triple_plrTestIteration {b i : Nat} (hi : i < iterations) {plr : String} {j : Nat} (hb : batches[b]? = some (plr, j))
    (report : Dict String (List (IperfResults V))) :
    Triple (AtRound record batches iterations b i plr j report)
      (plrTestIteration ⟨fun n => .ok (record n), pages, network⟩ resultName plr report)
      (AtRound record batches iterations b (i + 1) plr j) fun _ _ => False := by
  refine triple_of_returns ?_
  intro s hs
  obtain ⟨hprogress, hgateway, hplr, hlog⟩ := hs
  obtain ⟨r, report', s', hrun, hplr', hnetem, htransfers, hlog', hruns, hbefore, hloss, hduring⟩ :=
    plrTestIteration_run record pages network resultName plr report hplr s
  refine ⟨report', s', hrun, ?_⟩
  have hdiv : (b * iterations + i) / iterations = b := by
    rw [Nat.mul_comm, Nat.mul_add_div (by omega), Nat.div_eq_of_lt hi, Nat.add_zero]
  have hmod : (b * iterations + i) % iterations = i := by
    rw [Nat.mul_comm, Nat.mul_add_mod, Nat.mod_eq_of_lt hi]
  have hplanned : Planned record batches iterations (b * iterations + i) r := by
    refine ⟨?_, ?_, failed_iff_failsAt (by rw [hduring, hprogress.transfers])⟩
    · rw [hdiv, hb, hloss, hgateway]
      rfl
    · rw [hdiv, hmod, hb, hbefore, hlog]
      rfl
  have hgateway' : s'.netem .gateway = some plr := by rw [hnetem, hgateway]
  refine ⟨⟨?_, ?_, ?_⟩, hgateway', hplr', ?_⟩
  · rw [hruns, List.length_append, List.length_singleton, hprogress.length, Nat.add_assoc]
  · rw [htransfers, hprogress.transfers]
    omega
  · intro m r' hr'
    rw [hruns] at hr'
    by_cases hm : m < s.runs.length
    · rw [List.getElem?_append_left hm] at hr'
      exact hprogress.planned m r' hr'
    · rw [List.getElem?_append_right (by omega), List.getElem?_singleton] at hr'
      split at hr'
      · rename_i hzero
        cases hr'
        rwa [show m = b * iterations + i by rw [← hprogress.length]; omega]
      · cases hr'
  · rw [hlog', if_neg (Nat.succ_ne_zero i)]
    rfl

/-- A batch begins: the runs of the batches before it are made, and nothing was done since the last. -/
def AtBatch (record : Nat → PerMetric V) (batches : List (String × Nat)) (iterations b : Nat) (plr : String)
    (report : Dict String (List R)) (s : Lab Nat V R) : Prop :=
  Progress record batches iterations (b * iterations) s ∧ report.get? plr ≠ none ∧ (iterations ≠ 0 → s.log = [])

/-- One batch. -/
theorem triple_plrTestBatch {env : Env} (hiterations : env.iperfIterations.toNat = iterations) {b : Nat} {plr : String} {j : Nat}
    (hb : batches[b]? = some (plr, j)) (report : Dict String (List (IperfResults V))) :
    Triple (AtBatch record batches iterations b plr report)
      (plrTestBatch ⟨fun n => .ok (record n), pages, network⟩ resultName env plr report j)
      (AtBatch record batches iterations (b + 1) plr) fun _ _ => False := by
  intro s hs
  obtain ⟨hprogress, hplr, hlog⟩ := hs
  have hstart : (plrTestBatch ⟨fun n => .ok (record n), pages, network⟩ resultName env plr report j).run s =
      ((List.range iterations).foldlM (fun report _ =>
        plrTestIteration ⟨fun n => .ok (record n), pages, network⟩ resultName plr report) report).run
          (((s.note (.batch plr j)).deployed false).lossy plr) := by
    simp only [plrTestBatch, EStateM.run_bind, note_run, deployScenario_run, setPlrPercentage_run, hiterations]
  rw [hstart]
  have hready : iterations ≠ 0 →
      AtRound record batches iterations b 0 plr j report (((s.note (.batch plr j)).deployed false).lossy plr) := by
    intro hpos
    refine ⟨⟨hprogress.length, hprogress.transfers, hprogress.planned⟩, Lab.lossy_gateway _ _, hplr, ?_⟩
    rw [Lab.lossy_log, Lab.deployed_log, Lab.note_log, hlog hpos]
    rfl
  have hloop := triple_foldlM_range (E := fun _ _ => False) (n := iterations) (b := report)
    (f := fun report _ => plrTestIteration ⟨fun n => .ok (record n), pages, network⟩ resultName plr report)
    (fun i => AtRound record batches iterations b i plr j) fun i hi report' => triple_plrTestIteration hi hb report'
  by_cases hzero : iterations = 0
  · subst hzero
    exact ⟨⟨by simpa using hprogress.length, by simpa using hprogress.transfers, hprogress.planned⟩, hplr, fun h => absurd rfl h⟩
  · refine (hloop.post ?_) _ (hready hzero)
    intro report' s' hs'
    obtain ⟨hprogress', -, hplr', hlog'⟩ := hs'
    refine ⟨by rwa [Nat.succ_mul], hplr', fun _ => ?_⟩
    rw [if_neg hzero] at hlog'
    exact List.map_eq_nil_iff.mp hlog'

/-- Where the batches of a level stand among all batches. -/
theorem getElem?_batches (plrString : L → String) (m : Nat) {done : List L} {plrLevel : L} {rest : List L} {j : Nat}
    (hj : j < m) :
    ((done ++ plrLevel :: rest).flatMap fun plrLevel =>
      (List.range m).map fun j => (plrString plrLevel, j))[done.length * m + j]? = some (plrString plrLevel, j) := by
  have hlength : (done.flatMap fun plrLevel => (List.range m).map fun j => (plrString plrLevel, j)).length = done.length * m := by
    simp [List.length_flatMap]
  rw [List.flatMap_append, List.flatMap_cons, List.getElem?_append_right (by rw [hlength]; omega), hlength,
    Nat.add_sub_cancel_left, List.getElem?_append_left (by simpa using hj), List.getElem?_map, List.getElem?_range hj]
  rfl

/-- All batches of one level, where `b` batches were before. -/
theorem triple_level {env : Env} (hiterations : env.iperfIterations.toNat = iterations) {b : Nat} {plr : String}
    (hb : ∀ j < env.plrMetaIterations.toNat, batches[b + j]? = some (plr, j)) (report : Dict String (List (IperfResults V))) :
    Triple (fun s => Progress record batches iterations (b * iterations) s ∧ (iterations ≠ 0 → s.log = []))
      ((List.range env.plrMetaIterations.toNat).foldlM
        (plrTestBatch ⟨fun n => .ok (record n), pages, network⟩ resultName env plr) (report.set plr []))
      (fun _ s => Progress record batches iterations ((b + env.plrMetaIterations.toNat) * iterations) s ∧
        (iterations ≠ 0 → s.log = [])) fun _ _ => False := by
  have hloop := triple_foldlM_range (E := fun _ _ => False) (n := env.plrMetaIterations.toNat) (b := report.set plr [])
    (f := plrTestBatch ⟨fun n => .ok (record n), pages, network⟩ resultName env plr)
    (fun j => AtBatch record batches iterations (b + j) plr) fun j hj report' =>
      triple_plrTestBatch hiterations (hb j hj) report'
  refine hloop.conseq ?_ (fun _ _ h => ⟨h.1, h.2.2⟩) fun _ _ h => h
  intro s hs
  obtain ⟨hprogress, hlog⟩ := hs
  exact ⟨hprogress, by simp, hlog⟩

/-- All levels, when no run was made before. -/
theorem triple_levels {env : Env} (hiterations : env.iperfIterations.toNat = iterations) {plrLevels : List L}
    {plrString : L → String} (hbatches : batches = plrLevels.flatMap fun plrLevel =>
      (List.range env.plrMetaIterations.toNat).map fun j => (plrString plrLevel, j)) :
    Triple (fun s => Progress record batches iterations 0 s ∧ (iterations ≠ 0 → s.log = []))
      (plrLevels.foldlM (fun report plrLevel => (List.range env.plrMetaIterations.toNat).foldlM
        (plrTestBatch ⟨fun n => .ok (record n), pages, network⟩ resultName env (plrString plrLevel))
        (report.set (plrString plrLevel) [])) (Dict.empty : Dict String (List (IperfResults V))))
      (fun _ s => Progress record batches iterations (batches.length * iterations) s ∧ (iterations ≠ 0 → s.log = []))
      fun _ _ => False := by
  have hloop := triple_foldlM (E := fun _ _ => False) (l := plrLevels)
    (b := (Dict.empty : Dict String (List (IperfResults V))))
    (f := fun report plrLevel => (List.range env.plrMetaIterations.toNat).foldlM
      (plrTestBatch ⟨fun n => .ok (record n), pages, network⟩ resultName env (plrString plrLevel))
      (report.set (plrString plrLevel) []))
    (fun done _ s => Progress record batches iterations (done.length * env.plrMetaIterations.toNat * iterations) s ∧
      (iterations ≠ 0 → s.log = [])) fun done plrLevel rest hdone report => by
        rw [List.length_append, List.length_singleton, Nat.succ_mul]
        exact triple_level hiterations (fun j hj => by rw [hbatches, hdone]; exact getElem?_batches plrString _ hj) report
  have hlength : batches.length = plrLevels.length * env.plrMetaIterations.toNat := by
    rw [hbatches]
    simp [List.length_flatMap]
  rw [hlength]
  refine hloop.pre ?_
  intro s hs
  simpa using hs

end Run

/-- The scenarios of these names were looked at: the runs are made if the one that is asked for is among them. -/
def AtScenario (record : Nat → PerMetric V) (batches : List (String × Nat)) (iterations : Nat) (scenarioName : String)
    (done : List String) (s : Lab Nat V R) : Prop :=
  Progress record batches iterations (if scenarioName ∈ done then batches.length * iterations else 0) s ∧
    (iterations ≠ 0 → s.log = [])

/-- The experiment returns, and has made all its runs as planned. -/
theorem plrTestScenario_progress (record : Nat → PerMetric V) (pages : Nat → List Char) (network : String)
    (resultName : Nat → String) (plrLevels : List L) (plrString : L → String) (env : Env) (netem : Container → Option String) :
    ∃ printed s', (plrTestScenario ⟨fun n => .ok (record n), pages, network⟩ resultName plrLevels plrString env).run
        (Lab.init netem) = .ok printed s' ∧
      Progress record (plrTestBatches plrLevels plrString env) env.iperfIterations.toNat
        ((plrTestBatches plrLevels plrString env).length * env.iperfIterations.toNat) s' ∧
      (env.iperfIterations.toNat ≠ 0 → s'.log = []) := by
  generalize hbatches : plrTestBatches plrLevels plrString env = batches
  generalize hiterations : env.iperfIterations.toNat = iterations
  have hloop : Triple (AtScenario record batches iterations env.scenarioName [])
      (plrTestScenario ⟨fun n => .ok (record n), pages, network⟩ resultName plrLevels plrString env)
      (fun _ => AtScenario record batches iterations env.scenarioName
        ["QPEP", "Plain", "OpenVPN", "PEPSal", "Distributed PEPsal"]) fun _ _ => False := by
    refine triple_foldlM (fun done _ => AtScenario record batches iterations env.scenarioName done) ?_
    intro done name rest hnames printed
    refine triple_ite ?_ ?_
    · intro hname
      have hnew : env.scenarioName ∉ done := by
        intro hmem
        have hnodup : ["QPEP", "Plain", "OpenVPN", "PEPSal", "Distributed PEPsal"].Nodup := by decide
        rw [hnames, List.nodup_append] at hnodup
        exact hnodup.2.2 _ hmem name List.mem_cons_self hname.symm
      have hall : batches = (Python.slice plrLevels env.plrMinIndex env.plrMaxIndex).flatMap fun plrLevel =>
          (List.range env.plrMetaIterations.toNat).map fun j => (plrString plrLevel, j) := by
        rw [← hbatches, plrTestBatches, if_pos (by rw [hnames, ← hname]; simp)]
      refine triple_bind ((triple_levels hiterations hall).pre ?_) fun report => triple_pure ?_
      · intro s hs
        rwa [AtScenario, if_neg hnew] at hs
      · intro s hs
        rwa [AtScenario, if_pos (by rw [hname]; simp)]
    · intro hname
      refine triple_pure ?_
      intro s hs
      obtain ⟨hprogress, hlog⟩ := hs
      refine ⟨?_, hlog⟩
      have hmem : env.scenarioName ∈ done ++ [name] ↔ env.scenarioName ∈ done := by
        rw [List.mem_append, List.mem_singleton, or_iff_left (fun h => hname h.symm)]
      rwa [if_congr hmem rfl rfl]
  obtain ⟨printed, s', hrun, hprogress, hlog⟩ := hloop.returns (s := Lab.init netem)
    ⟨⟨rfl, rfl, fun m r hr => by cases hr⟩, fun _ => rfl⟩
  refine ⟨printed, s', hrun, ?_, hlog⟩
  split at hprogress
  · exact hprogress
  · rename_i hnone
    rw [← hbatches, plrTestBatches, if_neg hnone, List.length_nil, Nat.zero_mul]
    rwa [← hbatches, plrTestBatches, if_neg hnone] at hprogress

/-! ## What follows a run -/

/-- After a run comes nothing, or the start of the next batch when the run was the last of its batch. -/
theorem Progress.gapAfter_eq {record : Nat → PerMetric V} {batches : List (String × Nat)} {iterations n : Nat} {s : Lab Nat V R}
    (h : Progress record batches iterations (batches.length * iterations) s) (hlog : iterations ≠ 0 → s.log = [])
    (hn : n < batches.length * iterations) :
    gapAfter s n = if (n + 1) % iterations = 0 then
      ((batches[(n + 1) / iterations]?).map fun b => batchStart b.1 b.2).getD [] else [] := by
  have hpos : iterations ≠ 0 := by
    rintro rfl
    omega
  unfold gapAfter
  cases hr : s.runs[n + 1]? with
  | some r => exact (h.planned (n + 1) r hr).before
  | none =>
    have hlast : n + 1 = batches.length * iterations := by
      have := List.getElem?_eq_none_iff.mp hr
      have := h.length
      omega
    rw [hlog hpos, hlast, Nat.mul_div_cancel _ (Nat.pos_of_ne_zero hpos), List.getElem?_eq_none (Nat.le_refl _)]
    simp

omit [Zero V] in
/-- A deployment and a setting of the loss to this level follow exactly if the run was the last of its batch and the next
batch is at this level. -/
theorem sublist_gap_iff {batches : List (String × Nat)} {iterations n : Nat} {plr : String} :
    [Act.deployScenario false, .setPlrPercentage plr false true].Sublist
        ((if (n + 1) % iterations = 0 then
          ((batches[(n + 1) / iterations]?).map fun b => batchStart b.1 b.2).getD [] else []) : List (Act Nat V)) ↔
      (n + 1) % iterations = 0 ∧ (batches[(n + 1) / iterations]?).map Prod.fst = some plr := by
  by_cases hend : (n + 1) % iterations = 0
  · rw [if_pos hend]
    cases batches[(n + 1) / iterations]? with
    | none => simp
    | some b =>
      simp only [hend, true_and, Option.map_some, Option.getD_some, Option.some.injEq]
      constructor
      · intro hsub
        have hmem := hsub.subset (List.mem_cons_of_mem _ List.mem_cons_self)
        simp only [batchStart, List.mem_cons, List.not_mem_nil, or_false, reduceCtorEq, false_or, Act.setPlrPercentage.injEq,
          and_true] at hmem
        exact hmem.symm
      · rintro rfl
        exact List.sublist_cons_self _ _
  · rw [if_neg hend]
    simp [hend]

/-- For an experiment that has made all its runs as planned: its failed runs are followed up exactly if they end batches. -/
theorem Progress.followedUp_iff {record : Nat → PerMetric V} {batches : List (String × Nat)} {iterations : Nat}
    {s : Lab Nat V R} (h : Progress record batches iterations (batches.length * iterations) s)
    (hlog : iterations ≠ 0 → s.log = []) : FollowedUp s ↔ FailuresEndBatches record batches iterations := by
  have hbound : ∀ n r, s.runs[n]? = some r → n < batches.length * iterations := by
    intro n r hr
    rw [← h.length]
    exact (List.getElem?_eq_some_iff.mp hr).1
  constructor
  · intro hfollowed n hn hfails
    obtain ⟨r, hr⟩ : ∃ r, s.runs[n]? = some r := ⟨_, List.getElem?_eq_getElem (by rw [h.length]; exact hn)⟩
    have hplanned := h.planned n r hr
    obtain ⟨plr, hloss, hsub⟩ := hfollowed.restored n r hr (hplanned.failed.mpr hfails)
    rw [h.gapAfter_eq hlog hn, sublist_gap_iff] at hsub
    exact ⟨hsub.1, by rw [hsub.2, hplanned.level, hloss]⟩
  · intro hends
    refine ⟨?_, ?_⟩
    · intro n r hr hfailed
      have hn := hbound n r hr
      have hplanned := h.planned n r hr
      obtain ⟨hend, hnext⟩ := hends n hn (hplanned.failed.mp hfailed)
      have hlevel := hplanned.level
      have hlt : n / iterations < batches.length := Nat.div_lt_of_lt_mul (by rwa [Nat.mul_comm])
      rw [List.getElem?_eq_getElem hlt, Option.map_some] at hlevel hnext
      exact ⟨_, hlevel.symm, by rw [h.gapAfter_eq hlog hn, sublist_gap_iff]; exact ⟨hend, hnext⟩⟩
    · intro n r r' hr _ hsame _ up hdeploy
      rw [h.gapAfter_eq hlog (hbound n r hr)] at hsame hdeploy
      split at hdeploy
      · rename_i hend
        rw [if_pos hend] at hsame
        cases hb : batches[(n + 1) / iterations]? with
        | none =>
          rw [hb] at hdeploy
          cases hdeploy
        | some b =>
          rw [hb] at hsame
          exact hsame b.1 b.2 List.mem_cons_self
      · cases hdeploy

/-- For all lists of levels, all values of the environment variables and every sequence of outcomes: the experiment returns,
with all its runs, and its failed runs are followed up exactly if each of them is the last of its batch and the next batch
is at the same level. -/
theorem plrTest_followed_up_iff (record : Nat → PerMetric V) (pages : Nat → List Char) (network : String)
    (resultName : Nat → String) (plrLevels : List L) (plrString : L → String) (env : Env) (netem : Container → Option String) :
    ∃ printed s', (plrTestScenario ⟨fun n => .ok (record n), pages, network⟩ resultName plrLevels plrString env).run
        (Lab.init netem) = .ok printed s' ∧
      s'.runs.length = (plrTestBatches plrLevels plrString env).length * env.iperfIterations.toNat ∧
      (FollowedUp s' ↔ FailuresEndBatches record (plrTestBatches plrLevels plrString env) env.iperfIterations.toNat) := by
  obtain ⟨printed, s', hrun, hprogress, hlog⟩ :=
    plrTestScenario_progress record pages network resultName plrLevels plrString env netem
  exact ⟨printed, s', hrun, hprogress.length, hprogress.followedUp_iff hlog⟩

end

/-- One batch of two iterations at one level, for the scenario `QPEP`. -/
def oneBatch : Env where
  scenarioName := "QPEP"
  iperfIterations := 2
  ackBundlingMin := 0
  ackBundlingMax := 0
  plrMinIndex := 0
  plrMaxIndex := 1
  plrMetaIterations := 1
  plrPltIterations := 1

/-- The first transfer fails and the others do not. -/
def firstFails (n : Nat) : PerMetric Nat := if n = 0 then failureRecord else ⟨1000000, 8000000, 1000000, 8000000⟩

/-- The first run fails, and the second one follows at once. -/
theorem failed_run_not_followed_up :
    ∃ printed s', (plrTestScenario ⟨fun n => .ok (firstFails n), fun _ => [], "172.11"⟩ (fun _ => "iperf_1.0mb") [0]
        (fun _ => "0") oneBatch).run (Lab.init fun _ => none) = .ok printed s' ∧
      s'.runs.length = 2 ∧ (∃ r, s'.runs[0]? = some r ∧ r.Failed) ∧ gapAfter s' 0 = [] ∧ ¬FollowedUp s' := by
  obtain ⟨printed, s', hrun, hprogress, hlog⟩ := plrTestScenario_progress firstFails (fun _ => []) "172.11"
    (fun _ => "iperf_1.0mb") [0] (fun _ => "0") oneBatch fun _ => none
  have hbatches : plrTestBatches [0] (fun _ => "0") oneBatch = [("0", 0)] := by decide
  rw [hbatches] at hprogress
  have hlength : s'.runs.length = 2 := hprogress.length
  have hfails : FailsAt firstFails 0 := ⟨0, by decide, rfl⟩
  have hfirst : s'.runs[0]? = some s'.runs[0] := List.getElem?_eq_getElem (by omega)
  refine ⟨printed, s', hrun, hlength, ⟨_, hfirst, (hprogress.planned 0 _ hfirst).failed.mpr hfails⟩, ?_, ?_⟩
  · rw [hprogress.gapAfter_eq hlog (by decide)]
    rfl
  · rw [hprogress.followedUp_iff hlog]
    intro hends
    exact absurd (hends 0 (by decide) hfails).1 (by decide)

end Qpep.Testbed
