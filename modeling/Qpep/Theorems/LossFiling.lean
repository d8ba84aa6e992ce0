import Qpep.Lemmas.Lab
import Qpep.Testbed.SimulationExamples

/-!
# Results are filed under the loss they were measured at

In the three experiments with packet loss a benchmark runs only after the loss has been set, and nothing that it does
touches the rule: `SitespeedBenchmark.run` would deploy between its iterations, but has only one here. So what is filed
under a packet loss rate was measured at this rate from beginning to end (`measurements_filed_as_taken`).
-/

namespace Qpep.Testbed

open Python Hoare

variable {S V R F L α : Type}

/-- The run was made, from its beginning to its last step, while the gateway had this loss. -/
def Run.MeasuredAt (r : Run S V R) (plr : String) : Prop := r.loss = some plr ∧ ∀ e ∈ r.during, e.loss = some plr

/-- What is filed under a packet loss rate was measured at this rate. -/
def AsMeasured (filed : List (String × Run S V R)) : Prop := ∀ f ∈ filed, f.2.MeasuredAt f.1

/-- What a report holds under a packet loss rate are the results of runs filed under it. -/
def Reported (report : Dict String (List R)) (filed : List (String × Run S V R)) : Prop :=
  ∀ plr xs, report.get? plr = some xs → ∀ x ∈ xs, ∃ r, (plr, r) ∈ filed ∧ r.results = x

/-- However an experiment ends, and even if it raises, what it filed was measured at the loss it was filed under; and when it
returns, the reports it prints hold only what was filed. -/
def FiledAsMeasured (x : Prog S V R α) (prints : α → Dict String (List R) → Prop) : Prop :=
  ∀ s, s.filed = [] → AsMeasured (endState (x.run s)).filed ∧
    ∀ a s', x.run s = .ok a s' → ∀ report, prints a report → Reported report s'.filed

/-! ## Reports -/

theorem reported_empty (filed : List (String × Run S V R)) : Reported Dict.empty filed := by
  intro plr xs hxs
  cases hxs

/-- Filing more does not hurt. -/
theorem Reported.mono {report : Dict String (List R)} {filed filed' : List (String × Run S V R)} (h : Reported report filed)
    (hsub : filed ⊆ filed') : Reported report filed' := by
  intro plr xs hxs x hx
  obtain ⟨r, hr, hrx⟩ := h plr xs hxs x hx
  exact ⟨r, hsub hr, hrx⟩

theorem Reported.set_nil {report : Dict String (List R)} {filed : List (String × Run S V R)} (h : Reported report filed)
    (plr : String) : Reported (report.set plr []) filed := by
  intro plr' xs hxs x hx
  rw [Dict.get?_set] at hxs
  split at hxs
  · cases hxs
    cases hx
  · exact h plr' xs hxs x hx

/-- A report that a run has been appended to, when the run is filed. -/
theorem Reported.append {report report' : Dict String (List R)} {filed : List (String × Run S V R)} (h : Reported report filed)
    {plr : String} {r : Run S V R} (happend : report.append plr r.results = .ok report') :
    Reported report' (filed ++ [(plr, r)]) := by
  unfold Dict.append at happend
  cases hxs : report.get? plr with
  | none =>
    rw [hxs] at happend
    cases happend
  | some xs =>
    rw [hxs] at happend
    cases happend
    intro plr' ys hys y hy
    rw [Dict.get?_set] at hys
    split at hys
    · rename_i hplr
      subst hplr
      cases hys
      rcases List.mem_append.mp hy with hy | hy
      · exact (h.mono (List.subset_append_left _ _)) plr xs hxs y hy
      · exact ⟨r, by simp, (List.mem_singleton.mp hy).symm⟩
    · exact (h.mono (List.subset_append_left _ _)) plr' ys hys y hy

/-! ## The parts of the experiments -/

/-- What holds between the parts of an experiment: nothing filed before, `old`, has gone, everything filed was measured at
its rate, and the report is made of what was filed. -/
structure Sound (old : List (String × Run S V R)) (report : Dict String (List R)) (s : Lab S V R) : Prop where
  keeps : old ⊆ s.filed
  measured : AsMeasured s.filed
  reported : Reported report s.filed

/-- The gateway has this loss. -/
def AtLoss (plr : String) (old : List (String × Run S V R)) (report : Dict String (List R)) (s : Lab S V R) : Prop :=
  s.netem .gateway = some plr ∧ Sound old report s

/-- A program that only measures: it touches no rule and files nothing, whether it returns or raises. -/
def Steady (run : Prog S V R α) : Prop :=
  ∀ s₀, Triple (fun s => s = s₀) run (fun _ s => ∃ new, s₀.Measures s new) fun _ s => ∃ new, s₀.Measures s new

section Parts

variable {plr : String} {old : List (String × Run S V R)} {report : Dict String (List R)}

theorem triple_deployScenario_sound (up : Bool) {E : PyErr → Lab S V R → Prop} :
    Triple (Sound old report) (deployScenario up) (fun _ => Sound old report) E :=
  triple_of_run (deployScenario_run up) fun _ h => ⟨h.keeps, h.measured, h.reported⟩

theorem triple_note_sound (a : Act S V) {E : PyErr → Lab S V R → Prop} :
    Triple (Sound old report) (note a) (fun _ => Sound old report) E :=
  triple_of_run (note_run a) fun _ h => ⟨h.keeps, h.measured, h.reported⟩

theorem triple_note_atLoss (a : Act S V) {E : PyErr → Lab S V R → Prop} :
    Triple (AtLoss plr old report) (note a) (fun _ => AtLoss plr old report) E :=
  triple_of_run (note_run a) fun _ h => ⟨h.1, h.2.keeps, h.2.measured, h.2.reported⟩

theorem triple_setPlrPercentage_sound {E : PyErr → Lab S V R → Prop} :
    Triple (Sound old report) (setPlrPercentage plr false true) (fun _ => AtLoss plr old report) E :=
  triple_of_run (setPlrPercentage_run plr) fun s h => ⟨s.lossy_gateway plr, h.keeps, h.measured, h.reported⟩

/-- Deploying and setting the loss, as the experiments do it. -/
theorem triple_restart {E : PyErr → Lab S V R → Prop} :
    Triple (Sound old report) (do
      deployScenario false
      setPlrPercentage plr false true) (fun _ => AtLoss plr old report) E :=
  triple_bind (triple_deployScenario_sound false) fun _ => triple_setPlrPercentage_sound

/-- A run of a steady benchmark is made at the loss that is set. -/
theorem triple_runBenchmark_atLoss {run : Prog S V R R} (hrun : Steady run) :
    Triple (AtLoss plr old report) (runBenchmark run) (fun r s => r.MeasuredAt plr ∧ AtLoss plr old report s)
      fun _ s => AsMeasured s.filed := by
  intro s hs
  obtain ⟨hgateway, hsound⟩ := hs
  have h := hrun { s with log := [] } { s with log := [] } rfl
  unfold runBenchmark
  simp only [EStateM.run_bind, EStateM.run_get, EStateM.run_set]
  cases hx : run.run { s with log := [] } with
  | error e s' =>
    rw [hx] at h
    obtain ⟨new, hmeasures⟩ := h
    show AsMeasured s'.filed
    rw [hmeasures.filed]
    exact hsound.measured
  | ok results s' =>
    rw [hx] at h
    obtain ⟨new, hmeasures⟩ := h
    have hlog : s'.log = new := hmeasures.log
    refine ⟨⟨hgateway, ?_⟩, ?_, ?_, ?_, ?_⟩
    · intro e he
      rw [hlog] at he
      exact (hmeasures.loss e he).trans hgateway
    · show s'.netem .gateway = some plr
      rw [hmeasures.netem]
      exact hgateway
    · show old ⊆ s'.filed
      rw [hmeasures.filed]
      exact hsound.keeps
    · show AsMeasured s'.filed
      rw [hmeasures.filed]
      exact hsound.measured
    · show Reported report s'.filed
      rw [hmeasures.filed]
      exact hsound.reported

/-- `run_benchmarks` on steady benchmarks. -/
theorem triple_runBenchmarks_atLoss {benchmarks : List (Prog S V R R)} (hrun : ∀ run ∈ benchmarks, Steady run) :
    Triple (AtLoss plr old report) (runBenchmarks true benchmarks)
      (fun runs s => (∀ r ∈ runs, r.MeasuredAt plr) ∧ AtLoss plr old report s) fun _ s => AsMeasured s.filed := by
  unfold runBenchmarks
  refine (triple_foldlM_inv (I := fun (runs : List (Run S V R)) s =>
    (∀ r ∈ runs, r.MeasuredAt plr) ∧ AtLoss plr old report s) ?_).pre
    fun s hs => ⟨by simp, hs⟩
  intro run hmem runs
  refine triple_pure_and ?_
  intro hruns
  refine triple_bind (triple_runBenchmark_atLoss (hrun run hmem)) ?_
  intro r
  refine triple_pure ?_
  intro s h
  obtain ⟨hr, hs⟩ := h
  refine ⟨?_, hs⟩
  intro r' hr'
  rcases List.mem_append.mp hr' with hr' | hr'
  · exact hruns r' hr'
  · rwa [List.mem_singleton.mp hr']

/-- A run that was made at the loss that is set may be filed under it. -/
theorem triple_fileResults_atLoss {r : Run S V R} (hr : r.MeasuredAt plr) :
    Triple (AtLoss plr old report) (fileResults report plr r) (fun report' => AtLoss plr old report')
      fun _ s => AsMeasured s.filed := by
  unfold fileResults
  cases happend : report.append plr r.results with
  | error e => exact triple_throw fun s hs => hs.2.measured
  | ok report' =>
    refine triple_bind (Q := fun _ => AtLoss plr old report') (triple_modify ?_) fun _ => triple_pure fun _ hs => hs
    intro s h
    obtain ⟨hgateway, hsound⟩ := h
    refine ⟨hgateway, fun f hf => List.mem_append_left _ (hsound.keeps hf), ?_, hsound.reported.append happend⟩
    intro f hf
    rcases List.mem_append.mp hf with hf | hf
    · exact hsound.measured f hf
    · rwa [List.mem_singleton.mp hf]

theorem triple_fileAll_atLoss {runs : List (Run S V R)} (hruns : ∀ r ∈ runs, r.MeasuredAt plr) :
    Triple (AtLoss plr old report) (fileAll report plr runs) (fun report' => AtLoss plr old report')
      fun _ s => AsMeasured s.filed :=
  triple_foldlM_inv (I := fun report' => AtLoss plr old report') fun r hr _ => triple_fileResults_atLoss (hruns r hr)

/-- Running steady benchmarks and filing their results. -/
theorem triple_measure {benchmarks : List (Prog S V R R)} (hrun : ∀ run ∈ benchmarks, Steady run) :
    Triple (AtLoss plr old report) (do
      let runs ← runBenchmarks true benchmarks
      fileAll report plr runs) (fun report' => AtLoss plr old report') fun _ s => AsMeasured s.filed := by
  refine triple_bind (triple_runBenchmarks_atLoss hrun) ?_
  intro runs
  exact triple_pure_and triple_fileAll_atLoss

end Parts

/-! ## The benchmarks are steady -/

theorem steady_iperf (w : World V) (resultName : S → String) (b : IperfBenchmark S) :
    Steady (b.run w resultName : Prog S V (IperfResults V) _) := by
  intro s₀
  refine (triple_iperf_runFrom w resultName b Dict.empty s₀).conseq (fun _ h => h) ?_ ?_
  · intro results s hs
    obtain ⟨new, hmeasures, -⟩ := hs
    exact ⟨new, hmeasures⟩
  · intro e s hs
    obtain ⟨hmeasures, -⟩ := hs
    exact hmeasures

/-- With one iteration, the SiteSpeed benchmark deploys nothing. -/
theorem steady_sitespeed (w : World V) (ops : FloatOps F) (b : SitespeedBenchmark) (hone : b.iterations = 1) :
    Steady (b.run w ops : Prog S V R _) := by
  intro s₀
  let I : Lab S V R → Prop := fun s => ∃ new, s₀.Measures s new
  have hnote : ∀ a, Triple I (note a) (fun _ => I) fun _ => I := by
    intro a
    refine triple_of_run (note_run a) ?_
    intro s hs
    obtain ⟨new, h⟩ := hs
    exact ⟨_, h.trans (.note s a)⟩
  have hload : ∀ host acc, Triple I (loadHost w ops b.subIterations acc host) (fun _ => I) fun _ => I := by
    intro host acc s hs
    obtain ⟨new, h⟩ := hs
    have hloaded : I (s.loaded host) := ⟨_, h.trans ⟨rfl, rfl, rfl, rfl, by simp⟩⟩
    rw [loadHost_run]
    cases addLoads ops host acc.results (countedLoads b.subIterations (w.browsertime s.pages)) with
    | error e => exact hloaded
    | ok results => exact hloaded
  refine (triple_foldlM_inv (I := fun _ => I) ?_).pre fun s hs => ⟨[], hs ▸ .refl s₀⟩
  intro i hi acc
  have hlast : (i : Int) = b.iterations - 1 := by
    have := List.mem_range.mp hi
    omega
  refine triple_bind (hnote _) fun _ => triple_bind (hnote _) fun _ => triple_bind (hnote _) fun _ => ?_
  refine triple_bind (Q := fun _ => I) (triple_foldlM_inv fun host _ acc => hload host acc) fun acc => ?_
  rw [SitespeedBenchmark.deployBetween, if_neg (not_not.mpr hlast)]
  exact triple_bind (Q := fun _ => I) (triple_pure fun _ hs => hs) fun _ => triple_pure fun _ hs => hs

/-! ## The experiments -/

variable {old : List (String × Run S V R)}

/-- From what the parts keep to the whole of an experiment. -/
theorem filedAsMeasured_of_triple {x : Prog S V R α} {prints : α → Dict String (List R) → Prop}
    (h : Triple (fun s => AsMeasured s.filed) x
      (fun a s => AsMeasured s.filed ∧ ∀ report, prints a report → Reported report s.filed) fun _ s => AsMeasured s.filed) :
    FiledAsMeasured x prints := by
  intro s hs
  have hstart : AsMeasured s.filed := by
    rw [hs]
    intro f hf
    cases hf
  have hrun := h s hstart
  cases hx : x.run s with
  | error e s' =>
    rw [hx] at hrun
    refine ⟨hrun, ?_⟩
    rintro a s'' ⟨⟩
  | ok a s' =>
    rw [hx] at hrun
    refine ⟨hrun.1, ?_⟩
    rintro a' s'' ⟨⟩
    exact hrun.2

/-- An experiment on one scenario after another prints a sound report for each that it runs. -/
theorem triple_scenarios {names : List String} {name₀ : String} {x : Prog S V R (Dict String (List R))}
    (hx : ∀ old, Triple (fun s => old ⊆ s.filed ∧ AsMeasured s.filed) x (Sound old) fun _ s => AsMeasured s.filed) :
    FiledAsMeasured (names.foldlM (fun printed name =>
        if name = name₀ then do
          let report ← x
          return printed ++ [report]
        else return printed) []) (fun printed report => report ∈ printed) := by
  refine filedAsMeasured_of_triple ?_
  let I : List (Dict String (List R)) → Lab S V R → Prop := fun printed s =>
    AsMeasured s.filed ∧ ∀ report ∈ printed, Reported report s.filed
  refine (triple_foldlM_inv (I := I) ?_).pre fun s hs => ⟨hs, by simp⟩
  intro name _ printed
  refine triple_ite (fun _ => ?_) fun _ => triple_pure fun _ hs => hs
  intro s₀ h
  obtain ⟨hmeasured, hprinted⟩ := h
  refine triple_bind ((hx s₀.filed).pre fun s hs => hs) (fun report => triple_pure ?_) s₀ ⟨List.Subset.refl _, hmeasured⟩
  intro s hs
  refine ⟨hs.measured, ?_⟩
  intro report' hreport'
  rcases List.mem_append.mp hreport' with hreport' | hreport'
  · exact (hprinted report' hreport').mono hs.keeps
  · rw [List.mem_singleton.mp hreport']
    exact hs.reported

/-- The loss level that an experiment is at is forgotten. -/
theorem AtLoss.sound {plr : String} {report : Dict String (List R)} {s : Lab S V R} (h : AtLoss plr old report s) :
    Sound old report s := h.2

theorem Sound.set_nil {report : Dict String (List R)} {s : Lab S V R} (h : Sound old report s) (plr : String) :
    Sound old (report.set plr []) s := ⟨h.keeps, h.measured, h.reported.set_nil plr⟩

theorem filed_ackBundling (w : World V) (resultName : Nat → String) (plrLevels : List L) (plrString : L → String) (env : Env) :
    FiledAsMeasured (ackBundlingIperfScenario w resultName plrLevels plrString env)
      fun decimationResults row => ∃ number, decimationResults.get? number = some row := by
  refine filedAsMeasured_of_triple ?_
  let I : Dict String (Dict String (List (IperfResults V))) → Lab Nat V (IperfResults V) → Prop := fun decimationResults s =>
    AsMeasured s.filed ∧ ∀ row, (∃ number, decimationResults.get? number = some row) → Reported row s.filed
  refine (triple_foldlM_inv (I := I) ?_).pre fun s hs => ⟨hs, by rintro row ⟨number, hrow⟩; cases hrow⟩
  intro number _ decimationResults s₀ h
  obtain ⟨hmeasured, hreported⟩ := h
  -- the row that the number has so far, or a new one
  generalize hrow₀ : (decimationResults.get? (toString number)).getD Dict.empty = row₀
  have hsound₀ : Sound s₀.filed row₀ s₀ := by
    refine ⟨List.Subset.refl _, hmeasured, ?_⟩
    cases hget : decimationResults.get? (toString number) with
    | none =>
      rw [hget] at hrow₀
      exact hrow₀ ▸ reported_empty _
    | some row =>
      rw [hget] at hrow₀
      exact hrow₀ ▸ hreported row ⟨_, hget⟩
  refine triple_bind (P := Sound s₀.filed row₀) (triple_deployScenario_sound false) (fun _ => ?_) s₀ hsound₀
  refine triple_bind (Q := Sound s₀.filed) (triple_foldlM_inv ?_) fun row => triple_pure ?_
  · intro plrLevel _ row
    have hset : ∀ s, Sound s₀.filed row s →
        Sound s₀.filed (if (row.get? (plrString plrLevel)).isNone then row.set (plrString plrLevel) [] else row) s := by
      intro s hs
      split
      · exact hs.set_nil _
      · exact hs
    refine triple_bind (triple_setPlrPercentage_sound.pre hset) fun _ => (triple_measure ?_).post fun _ _ hs => hs.sound
    intro run hrun
    rw [List.mem_singleton.mp hrun]
    exact steady_iperf w resultName _
  · intro s hs
    refine ⟨hs.measured, ?_⟩
    intro row' hrow'
    obtain ⟨number', hrow'⟩ := hrow'
    rw [Dict.get?_set] at hrow'
    split at hrow'
    · cases hrow'
      exact hs.reported
    · exact (hreported row' ⟨number', hrow'⟩).mono hs.keeps

theorem filed_plrPlt (w : World V) (ops : FloatOps F) (plrLevels : List L) (plrString : L → String) (env : Env) :
    FiledAsMeasured (plrPltScenario w ops plrLevels plrString env : Prog S V (Dict String (List F)) _)
      fun printed report => report ∈ printed := by
  refine triple_scenarios fun old => ?_
  refine (triple_foldlM_inv (I := Sound old) ?_).pre fun s hs => ⟨hs.1, hs.2, reported_empty _⟩
  intro plrLevel _ report
  have hbatches : Triple (Sound old report)
      ((List.range env.plrMetaIterations.toNat).foldlM (plrPltBatch w ops env (plrString plrLevel))
        (report.set (plrString plrLevel) []) : Prog S V (Dict String (List F)) _)
      (Sound old) fun _ s => AsMeasured s.filed := by
    refine (triple_foldlM_inv (I := Sound old) ?_).pre fun s hs => hs.set_nil _
    intro j _ report'
    refine triple_bind (triple_deployScenario_sound false) fun _ => triple_bind triple_setPlrPercentage_sound fun _ => ?_
    refine triple_bind (triple_note_atLoss _) fun _ => (triple_measure ?_).post fun _ _ hs => hs.sound
    intro run hrun
    rw [List.mem_singleton.mp hrun]
    intro s₀
    exact triple_bind (steady_sitespeed w ops _ rfl s₀) fun results => triple_pure fun _ hs => hs
  refine triple_bind hbatches fun report' => ?_
  split
  · exact triple_bind (Q := fun _ _ => False) (triple_throw fun s hs => hs.measured) fun _ => by rintro s ⟨⟩
  · exact triple_pure fun _ hs => hs

theorem filed_plrTest [Zero V] (w : World V) (resultName : Nat → String) (plrLevels : List L) (plrString : L → String)
    (env : Env) :
    FiledAsMeasured (plrTestScenario w resultName plrLevels plrString env) fun printed report => report ∈ printed := by
  refine triple_scenarios fun old => ?_
  refine (triple_foldlM_inv (I := Sound old) ?_).pre fun s hs => ⟨hs.1, hs.2, reported_empty _⟩
  intro plrLevel _ report
  refine (triple_foldlM_inv (I := Sound old) ?_).pre fun s hs => hs.set_nil _
  intro j _ report'
  have hiteration : ∀ report'', Triple (AtLoss (plrString plrLevel) old report'')
      (plrTestIteration w resultName (plrString plrLevel) report'') (fun report₂ => AtLoss (plrString plrLevel) old report₂)
      fun _ s => AsMeasured s.filed := by
    intro report''
    refine triple_bind (triple_runBenchmarks_atLoss ?_) fun runs => triple_pure_and fun hruns => ?_
    · intro run hrun
      rw [List.mem_singleton.mp hrun]
      exact steady_iperf w resultName _
    · refine triple_foldlM_inv (I := fun report₂ => AtLoss (plrString plrLevel) old report₂) ?_
      intro r hr report₂
      refine triple_bind (triple_fileResults_atLoss (hruns r hr)) fun report₃ => ?_
      refine triple_bind (Q := fun _ => AtLoss (plrString plrLevel) old report₃) ?_ fun _ => triple_pure fun _ hs => hs
      -- a restart loses the rule and sets it again
      exact triple_ite (fun _ => triple_restart.pre fun _ hs => hs.sound) fun _ => triple_pure fun _ hs => hs
  refine triple_bind (triple_note_sound _) fun _ => triple_bind (triple_deployScenario_sound false) fun _ => ?_
  refine triple_bind triple_setPlrPercentage_sound fun _ => ?_
  exact (triple_foldlM_inv (I := fun report₂ => AtLoss (plrString plrLevel) old report₂) fun _ _ report₂ =>
    hiteration report₂).post fun _ _ hs => hs.sound

/-- For all values of the environment variables, all packet loss rates, and every sequence of outcomes, those that raise
included: in the three experiments everything that is filed under a packet loss rate was measured, from the beginning of its
run to the last step, while the gateway had this loss. -/
theorem measurements_filed_as_taken [Zero V] (w : World V) (resultName : Nat → String) (ops : FloatOps F) (plrLevels : List L)
    (plrString : L → String) (env : Env) :
    FiledAsMeasured (ackBundlingIperfScenario w resultName plrLevels plrString env)
        (fun decimationResults row => ∃ number, decimationResults.get? number = some row) ∧
      FiledAsMeasured (plrPltScenario w ops plrLevels plrString env : Prog S V (Dict String (List F)) _)
        (fun printed report => report ∈ printed) ∧
      FiledAsMeasured (plrTestScenario w resultName plrLevels plrString env) (fun printed report => report ∈ printed) :=
  ⟨filed_ackBundling w resultName plrLevels plrString env, filed_plrPlt w ops plrLevels plrString env,
    filed_plrTest w resultName plrLevels plrString env⟩

end Qpep.Testbed
