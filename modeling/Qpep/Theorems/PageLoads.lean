import Qpep.Lemmas.Lab

/-!
# Page load times

What `SitespeedBenchmark.run` collects when it returns: for each host its measurements in order, and the number of load
errors. It returns exactly if a scenario was given or there is no second iteration (`sitespeed_complete_iff`): between two
iterations it calls `deploy_scenario` on its scenario, whose default is `None`.
-/

namespace Qpep.Testbed

open Python Hoare

variable {S V R F : Type}

/-! ## The scan for measurements -/

theorem findLoadsFrom_eq_drop (skip : Nat) (text : List Char) : findLoadsFrom skip text = findLoads (text.drop skip) := by
  induction text generalizing skip with
  | nil => cases skip <;> rfl
  | cons c rest ih =>
    cases skip with
    | zero => rfl
    | succ skip => exact ih skip

/-- Where no measurement begins, the scan goes on. -/
theorem findLoads_cons_of_none {c : Char} {rest : List Char} (h : loadMatch (c :: rest) = none) :
    findLoads (c :: rest) = findLoads rest := by
  unfold findLoads
  rw [findLoadsFrom, h]

/-- A measurement is found whole, and the scan goes on behind it. -/
theorem findLoads_measurement {number : List Char} {unit : Char} (rest : List Char) (hne : number ≠ [])
    (hnumber : ∀ c ∈ number, isNumeral c = true) (hunit : unit = 'm' ∨ unit = 's') :
    findLoads ("Load: ".toList ++ (number ++ unit :: rest)) = (number, unit) :: findLoads rest := by
  have hunit' : isNumeral unit = false := by rcases hunit with rfl | rfl <;> decide
  have htake : (number ++ unit :: rest).takeWhile isNumeral = number := by
    rw [List.takeWhile_append_of_pos hnumber, List.takeWhile_cons_of_neg (by simp [hunit']), List.append_nil]
  have hmatch : loadMatch ("Load: ".toList ++ (number ++ unit :: rest)) = some (number, unit, 6 + number.length + 1) := by
    have hhead : "Load: ".toList.isPrefixOf ("Load: ".toList ++ (number ++ unit :: rest)) = true :=
      List.isPrefixOf_iff_prefix.mpr (List.prefix_append _ _)
    have hdrop : ("Load: ".toList ++ (number ++ unit :: rest)).drop 6 = number ++ unit :: rest := rfl
    unfold loadMatch
    simp only [hhead, if_true, hdrop, htake, List.drop_left]
    cases number with
    | nil => exact absurd rfl hne
    | cons c number => rcases hunit with rfl | rfl <;> rfl
  have hscan : findLoads ("Load: ".toList ++ (number ++ unit :: rest)) =
      (number, unit) :: findLoadsFrom (6 + number.length) ("oad: ".toList ++ (number ++ unit :: rest)) := by
    have hcons : "Load: ".toList ++ (number ++ unit :: rest) = 'L' :: ("oad: ".toList ++ (number ++ unit :: rest)) := rfl
    rw [hcons] at hmatch ⊢
    rw [findLoads, findLoadsFrom, hmatch]
    rfl
  rw [hscan, findLoadsFrom_eq_drop]
  congr 2
  rw [show 6 + number.length = 5 + (number.length + 1) by omega, ← List.drop_drop]
  show (number ++ unit :: rest).drop (number.length + 1) = rest
  rw [← List.drop_drop, List.drop_left]
  rfl

/-! ## What a run collects -/

/-- A text that Python's `float` reads: digits with at most one point among them. -/
def WellFormedDecimal (text : List Char) : Prop :=
  text.all isNumeral = true ∧ text.count '.' ≤ 1 ∧ text.any Char.isDigit = true

instance (text : List Char) : Decidable (WellFormedDecimal text) := inferInstanceAs (Decidable (_ ∧ _ ∧ _))

/-- The load times that an output reports, in milliseconds and without the average. -/
def measurements (ops : FloatOps F) (subIterations : Int) (text : List Char) : List F :=
  (countedLoads subIterations text).filterMap fun m =>
    (ops.float m.1).map fun x => if m.2 == 'm' then x else ops.times1000 x

/-- The page loads of a run that began in `s`: in each iteration one for each host, with the outputs in their order. -/
def pageLoads (w : World V) (b : SitespeedBenchmark) (s : Lab S V R) : List (String × List Char) :=
  numbered w.browsertime s.pages (List.replicate b.iterations.toNat b.hosts).flatten

/-- The run made all its page loads, and its results are complete: for each host its measurements in order, and the number
of all load errors. -/
structure Complete (w : World V) (ops : FloatOps F) (b : SitespeedBenchmark) (s : Lab S V R) (r : SitespeedResults F)
    (s' : Lab S V R) : Prop where
  pages : s'.pages = s.pages + b.iterations.toNat * b.hosts.length
  results : ∀ h, (r.results.get? h).getD [] =
    ((pageLoads w b s).filter fun v => v.1 = h).flatMap fun v => measurements ops b.subIterations v.2
  errors : r.errors = ((pageLoads w b s).map fun v => countLoadErrors v.2).sum

theorem addLoad_get? (results : Dict String (List F)) (host h : String) (x : F) :
    ((addLoad results host x).get? h).getD [] = (results.get? h).getD [] ++ if host = h then [x] else [] := by
  unfold addLoad
  by_cases heq : host = h
  · subst heq
    cases hget : results.get? host <;> simp
  · cases hget : results.get? host <;> simp [Dict.get?_set, heq]

/-- When every text is a number, the loop over the matches adds the load times to those of the host. -/
theorem addLoads_ok (ops : FloatOps F) (host : String) (results : Dict String (List F)) (ms : List (List Char × Char))
    (hms : ∀ m ∈ ms, ∃ x, ops.float m.1 = some x) :
    ∃ results', addLoads ops host results ms = .ok results' ∧ ∀ h, (results'.get? h).getD [] = (results.get? h).getD [] ++
      if host = h then ms.filterMap fun m => (ops.float m.1).map fun x => if m.2 == 'm' then x else ops.times1000 x else [] := by
  induction ms generalizing results with
  | nil => exact ⟨results, rfl, by simp⟩
  | cons m ms ih =>
    obtain ⟨x, hx⟩ := hms m List.mem_cons_self
    have hval : hostVal ops m = .ok (if m.2 == 'm' then x else ops.times1000 x) := by
      simp only [hostVal, hx]
      cases m.2 == 'm' <;> rfl
    obtain ⟨results', hrun, hresults'⟩ := ih (addLoad results host (if m.2 == 'm' then x else ops.times1000 x))
      fun m' hm' => hms m' (List.mem_cons_of_mem m hm')
    refine ⟨results', by simpa only [addLoads, hval] using hrun, ?_⟩
    intro h
    rw [hresults', addLoad_get?, List.append_assoc]
    congr 1
    by_cases heq : host = h
    · simp [heq, hx]
    · simp [heq]

/-- A run that began in `s₀` with the results `acc₀` has loaded the pages of these hosts. -/
def PageProgress (w : World V) (ops : FloatOps F) (subIterations : Int) (s₀ : Lab S V R) (acc₀ : SitespeedResults F)
    (hosts : List String) (acc : SitespeedResults F) (s : Lab S V R) : Prop :=
  s.pages = s₀.pages + hosts.length ∧
    (∀ h, (acc.results.get? h).getD [] = (acc₀.results.get? h).getD [] ++
      ((numbered w.browsertime s₀.pages hosts).filter fun v => v.1 = h).flatMap fun v => measurements ops subIterations v.2) ∧
    acc.errors = acc₀.errors + ((numbered w.browsertime s₀.pages hosts).map fun v => countLoadErrors v.2).sum

section Run

variable {w : World V} {ops : FloatOps F} (hfloat : ∀ text, WellFormedDecimal text → ∃ x, ops.float text = some x)
  (hw : ∀ n, ∀ m ∈ findLoads (w.browsertime n), WellFormedDecimal m.1)

include hfloat hw

/-- One page load. -/
theorem triple_loadHost (subIterations : Int) (s₀ : Lab S V R) (acc₀ : SitespeedResults F) (hosts : List String) (host : String)
    (acc : SitespeedResults F) :
    Triple (PageProgress w ops subIterations s₀ acc₀ hosts acc) (loadHost w ops subIterations acc host)
      (PageProgress w ops subIterations s₀ acc₀ (hosts ++ [host])) fun _ _ => False := by
  intro s hs
  obtain ⟨hpages, hresults, herrors⟩ := hs
  have hms : ∀ m ∈ countedLoads subIterations (w.browsertime s.pages), ∃ x, ops.float m.1 = some x := by
    intro m hm
    unfold countedLoads at hm
    split at hm
    · exact hfloat m.1 (hw s.pages m (List.dropLast_subset _ hm))
    · exact hfloat m.1 (hw s.pages m hm)
  obtain ⟨results', hrun, hresults'⟩ := addLoads_ok ops host acc.results _ hms
  rw [loadHost_run, hrun]
  have hnumbered : numbered w.browsertime s₀.pages (hosts ++ [host]) =
      numbered w.browsertime s₀.pages hosts ++ [(host, w.browsertime s.pages)] := by
    rw [numbered_append, ← hpages]
    rfl
  refine ⟨?_, ?_, ?_⟩
  · show s.pages + 1 = _
    rw [hpages, List.length_append, List.length_singleton, Nat.add_assoc]
  · intro h
    rw [hresults', hresults, hnumbered, List.filter_append, List.flatMap_append, ← List.append_assoc]
    congr 1
    by_cases heq : host = h
    · simp [heq, measurements]
    · simp [heq]
  · rw [hnumbered, List.map_append, List.sum_append, herrors, Nat.add_assoc]
    rfl

/-- One iteration: the page of every host, and then, unless it is the last iteration, a deployment. -/
theorem triple_iteration (b : SitespeedBenchmark) (s₀ : Lab S V R) (acc₀ : SitespeedResults F) (hosts : List String)
    (acc : SitespeedResults F) (i : Nat) {E : PyErr → Lab S V R → Prop}
    (hdeploy : (i : Int) ≠ b.iterations - 1 → b.scenario = false → ∀ s, E .attributeError s) :
    Triple (PageProgress w ops b.subIterations s₀ acc₀ hosts acc) (b.iteration w ops acc i)
      (fun acc' s => ((i : Int) ≠ b.iterations - 1 → b.scenario = true) ∧
        PageProgress w ops b.subIterations s₀ acc₀ (hosts ++ b.hosts) acc' s) E := by
  have hexec : ∀ command, Triple (PageProgress w ops b.subIterations s₀ acc₀ hosts acc) (execRun command : Prog S V R PUnit)
      (fun _ => PageProgress w ops b.subIterations s₀ acc₀ hosts acc) E :=
    fun command => triple_of_run (execRun_run command) fun _ h => h
  refine triple_bind (hexec _) fun _ => triple_bind (hexec _) fun _ => triple_bind (hexec _) fun _ => ?_
  have hhosts := triple_foldlM (E := E) (l := b.hosts) (b := acc) (f := loadHost w ops b.subIterations)
    (fun done => PageProgress w ops b.subIterations s₀ acc₀ (hosts ++ done)) fun done host rest _ acc' => by
      rw [← List.append_assoc]
      exact (triple_loadHost hfloat hw b.subIterations s₀ acc₀ _ host acc').conseq (fun _ h => h) (fun _ _ h => h)
        fun _ _ h => h.elim
  rw [List.append_nil] at hhosts
  refine triple_bind hhosts fun acc' => ?_
  refine triple_bind (Q := fun _ s => ((i : Int) ≠ b.iterations - 1 → b.scenario = true) ∧
    PageProgress w ops b.subIterations s₀ acc₀ (hosts ++ b.hosts) acc' s) ?_ ?_
  · unfold SitespeedBenchmark.deployBetween
    refine triple_ite (fun hnotLast => ?_) fun hlast => triple_pure fun s hs => ⟨fun hnot => absurd hnot hlast, hs⟩
    cases hscenario : b.scenario with
    | true =>
      rw [if_pos rfl]
      exact triple_of_run (deployScenario_run false) fun s hs => ⟨fun _ => rfl, hs⟩
    | false =>
      rw [if_neg (by decide)]
      exact triple_throw fun s _ => hdeploy hnotLast hscenario s
  · intro _
    exact triple_pure fun _ hs => hs

/-- With a scenario, or without a second iteration, the run returns, and has added to its results what the pages report. -/
theorem sitespeed_runFrom_returns (b : SitespeedBenchmark) (s₀ : Lab S V R) (acc₀ : SitespeedResults F)
    (hok : b.scenario = true ∨ b.iterations ≤ 1) :
    ∃ r s', (b.runFrom w ops acc₀).run s₀ = .ok r s' ∧
      PageProgress w ops b.subIterations s₀ acc₀ (List.replicate b.iterations.toNat b.hosts).flatten r s' := by
  have hloop := triple_foldlM_range (E := fun _ _ => False) (n := b.iterations.toNat) (b := acc₀) (f := b.iteration w ops)
    (fun i => PageProgress w ops b.subIterations s₀ acc₀ (List.replicate i b.hosts).flatten) ?_
  · exact hloop.returns (s := s₀) ⟨rfl, fun h => (List.append_nil _).symm, rfl⟩
  · intro i hi acc
    rw [List.replicate_succ', List.flatten_append, List.flatten_singleton]
    refine (triple_iteration hfloat hw b s₀ acc₀ _ acc i ?_).post fun _ _ h => h.2
    intro hnotLast hscenario
    rcases hok with hok | hok
    · rw [hok] at hscenario
      cases hscenario
    · omega

/-- With a scenario, or without a second iteration, a benchmark just made returns, and its results are complete. -/
theorem sitespeed_returns (b : SitespeedBenchmark) (s₀ : Lab S V R) (hok : b.scenario = true ∨ b.iterations ≤ 1) :
    ∃ r s', (b.run w ops).run s₀ = .ok r s' ∧ Complete w ops b s₀ r s' := by
  obtain ⟨r, s', hrun, hpages, hresults, herrors⟩ := sitespeed_runFrom_returns hfloat hw b s₀ ⟨Dict.empty, 0⟩ hok
  refine ⟨r, s', hrun, ?_, hresults, herrors.trans (Nat.zero_add _)⟩
  rw [hpages, List.length_flatten, List.map_replicate, List.sum_replicate_nat]

/-- Without a scenario, the first of several iterations ends the run. -/
theorem sitespeed_raises (b : SitespeedBenchmark) (s₀ : Lab S V R) (hscenario : b.scenario = false) (hmany : 1 < b.iterations) :
    ∃ s', (b.run w ops).run s₀ = .error .attributeError s' := by
  obtain ⟨n, hn⟩ : ∃ n, b.iterations.toNat = n + 1 := ⟨b.iterations.toNat - 1, by omega⟩
  have hraise : Triple (PageProgress w ops b.subIterations s₀ ⟨Dict.empty, 0⟩ [] ⟨Dict.empty, 0⟩) (b.run w ops)
      (fun _ _ => False) fun e _ => e = .attributeError := by
    unfold SitespeedBenchmark.run SitespeedBenchmark.runFrom
    rw [hn, List.range_succ_eq_map, List.foldlM_cons]
    refine triple_bind (triple_iteration hfloat hw b s₀ _ [] _ 0 fun _ _ _ => rfl) fun acc => ?_
    refine triple_pure_and fun hgiven => ?_
    rw [hgiven (by push_cast; omega)] at hscenario
    cases hscenario
  have h := hraise s₀ ⟨rfl, fun h => rfl, rfl⟩
  cases hrun : (b.run w ops).run s₀ with
  | ok r s' =>
    rw [hrun] at h
    exact h.elim
  | error e s' =>
    rw [hrun] at h
    exact ⟨s', by rw [show e = .attributeError from h]⟩

end Run

/-- Decimals as numerator and number of decimal places. -/
def decimalOps : FloatOps (Nat × Nat) where
  float text :=
    if WellFormedDecimal text then
      some ((text.filter Char.isDigit).foldl (fun n c => 10 * n + (c.toNat - '0'.toNat)) 0,
        ((text.dropWhile (· != '.')).drop 1).length)
    else none
  times1000 x := (x.1 * 1000, x.2)

/-- An outside where the first page load reports two measurements and their average, and every other one fails. -/
def oneGoodPage : World Nat where
  iperf _ := .error .valueError
  browsertime
    | 0 => "Load: 1.5s, Load: 2250ms, Load: 1.875s".toList
    | _ + 1 => "UrlLoadError".toList
  stNetworkHead := "172.11"

theorem oneGoodPage_wellFormed (n : Nat) : ∀ m ∈ findLoads (oneGoodPage.browsertime n), WellFormedDecimal m.1 := by
  cases n with
  | zero => decide
  | succ n =>
    show ∀ m ∈ findLoads "UrlLoadError".toList, WellFormedDecimal m.1
    decide

/-- The benchmark of the README. -/
def readmeBenchmark : SitespeedBenchmark :=
  { hosts := ["https://www.google.com", "https://www.wikipedia.org", "https://www.tmall.com"], iterations := 3 }

end Qpep.Testbed
