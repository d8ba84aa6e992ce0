import Mathlib.Data.List.Forall2
import Qpep.Testbed.Partition

/-!
# Dividing an experiment over testbeds

The chunks of `partitionIndexes`, with both ends included, hold every position exactly once (`count_inclusive`). The
consumer takes slices, which leave out the upper index, so the last element of every chunk is dropped, and the partial runs
make up the full run only when there is nothing to run (`testbeds_cover_iff`).
-/

namespace Qpep.Testbed

variable {α β : Type}

/-- Each position of a list lies in exactly one of the slices, and the slices together hold what the list holds. -/
def CoversOnce (xs : List α) (pairs : List (Int × Int)) : Prop :=
  (∀ i < xs.length, (pairs.countP fun p => i ∈ Python.slice (List.range xs.length) p.1 p.2) = 1) ∧
    (pairs.flatMap fun p => Python.slice xs p.1 p.2).Perm xs

/-! ## The chunks -/

/-- Where chunk `i` starts. -/
def chunkStart (chunksize remainder i : Nat) : Nat := i * chunksize + min i remainder

theorem chunkStart_succ (c r i : Nat) :
    chunkStart c r (i + 1) = chunkStart c r i + c + (if i < r then 1 else 0) := by
  unfold chunkStart
  rw [Nat.succ_mul]
  split <;> omega

theorem chunkStart_mono (c r : Nat) {i j : Nat} (h : i ≤ j) : chunkStart c r i ≤ chunkStart c r j := by
  unfold chunkStart
  have hmul : i * c ≤ j * c := Nat.mul_le_mul_right c h
  omega

/-- The running bounds are the starts of the chunks. -/
theorem partitionIndexesLoop_eq (c r n i : Nat) :
    partitionIndexesLoop c r n i (chunkStart c r i) =
      (List.range' i n).map fun j => ((chunkStart c r j : Int), (chunkStart c r (j + 1) : Int) - 1) := by
  induction n generalizing i with
  | zero => rfl
  | succ n ih =>
    unfold partitionIndexesLoop
    simp only [← chunkStart_succ, ih, List.range'_succ, List.map_cons]

/-- The chunks, for a division with quotient `c` and remainder `r`. -/
theorem partitionIndexes_eq (N k : Nat) :
    partitionIndexes N k = (List.range k).map fun j =>
      ((chunkStart (N / k) (N - N / k * k) j : Int), (chunkStart (N / k) (N - N / k * k) (j + 1) : Int) - 1) := by
  have h := partitionIndexesLoop_eq (N / k) (N - N / k * k) k 0
  have hzero : chunkStart (N / k) (N - N / k * k) 0 = 0 := by simp [chunkStart]
  rw [hzero, ← List.range_eq_range'] at h
  exact h

@[simp] theorem length_partitionIndexes (N k : Nat) : (partitionIndexes N k).length = k := by
  simp [partitionIndexes_eq]

/-- The last chunk ends with the list. -/
theorem chunkStart_last {N k : Nat} (hk : 1 ≤ k) : chunkStart (N / k) (N - N / k * k) k = N := by
  have hmod : N % k < k := Nat.mod_lt N hk
  have hdiv : k * (N / k) + N % k = N := Nat.div_add_mod N k
  rw [chunkStart, Nat.mul_comm (N / k) k]
  omega

/-- How many of the first `n` chunks hold position `x`, with both ends included: one if it lies before the end of the last. -/
theorem countP_chunks (c r n x : Nat) :
    ((List.range n).countP fun j => chunkStart c r j ≤ x ∧ x < chunkStart c r (j + 1)) =
      if x < chunkStart c r n then 1 else 0 := by
  induction n with
  | zero => simp [chunkStart]
  | succ n ih =>
    have hmono := chunkStart_mono c r (show n ≤ n + 1 by omega)
    rw [List.range_succ, List.countP_append, ih, List.countP_singleton]
    simp only [decide_eq_true_eq]
    split_ifs <;> omega

/-- For every length and every number of chunks: with both ends included, each position lies in exactly one chunk. -/
theorem count_inclusive {N k x : Nat} (hk : 1 ≤ k) (hx : x < N) :
    ((partitionIndexes N k).countP fun p => p.1 ≤ (x : Int) ∧ (x : Int) ≤ p.2) = 1 := by
  have hchunks := countP_chunks (N / k) (N - N / k * k) k x
  rw [chunkStart_last hk, if_pos hx] at hchunks
  rw [partitionIndexes_eq, List.countP_map]
  refine Eq.trans ?_ hchunks
  congr 1
  funext j
  simp only [Function.comp_apply, decide_eq_decide]
  omega

/-- No chunk reaches beyond the last position. -/
theorem snd_le_of_mem {N k : Nat} {p : Int × Int} (hk : 1 ≤ k) (hp : p ∈ partitionIndexes N k) : p.2 ≤ (N : Int) - 1 := by
  rw [partitionIndexes_eq, List.mem_map] at hp
  obtain ⟨j, hj, rfl⟩ := hp
  have hle := chunkStart_mono (N / k) (N - N / k * k) (show j + 1 ≤ k from List.mem_range.mp hj)
  rw [chunkStart_last hk] at hle
  simp only
  omega

/-! ## The slices -/

/-- An upper index below the last position leaves the last position out of the slice. -/
theorem last_not_mem_slice {n : Nat} {lo hi : Int} (hhi : hi ≤ (n : Int) - 1) :
    n - 1 ∉ Python.slice (List.range n) lo hi := by
  rw [Python.mem_slice_range]
  unfold Python.sliceIndex
  split <;> split <;> omega

/-- The chunks taken as slices cover a list exactly if it is empty: the last position of a list is in none of them. -/
theorem coversOnce_partition_iff {k : Nat} (hk : 1 ≤ k) (xs : List α) :
    CoversOnce xs (partitionIndexes xs.length k) ↔ xs = [] := by
  constructor
  · intro h
    cases hn : xs.length with
    | zero => exact List.length_eq_zero_iff.mp hn
    | succ n =>
      have hone := h.1 (xs.length - 1) (by omega)
      have hzero : ((partitionIndexes xs.length k).countP fun p =>
          xs.length - 1 ∈ Python.slice (List.range xs.length) p.1 p.2) = 0 := by
        rw [List.countP_eq_zero]
        intro p hp
        simpa using last_not_mem_slice (snd_le_of_mem hk hp)
      omega
  · rintro rfl
    refine ⟨?_, ?_⟩
    · intro i hi
      exact absurd hi (Nat.not_lt_zero i)
    · simp

/-! ## The settings -/

/-- `mapM` over elements that each give a result. -/
theorem exists_mapM_eq_some {f : α → Option β} {Q : α → β → Prop} (xs : List α) (h : ∀ x ∈ xs, ∃ y, f x = some y ∧ Q x y) :
    ∃ ys, xs.mapM f = some ys ∧ List.Forall₂ Q xs ys := by
  induction xs with
  | nil => exact ⟨[], rfl, .nil⟩
  | cons x xs ih =>
    obtain ⟨y, hy, hq⟩ := h x List.mem_cons_self
    obtain ⟨ys, hys, hqs⟩ := ih fun x' hx' => h x' (List.mem_cons_of_mem x hx')
    exact ⟨y :: ys, by simp [hy, hys], .cons hq hqs⟩

/-- A part of a list that repeats a piece. -/
theorem take_drop_flatMap_const (piece : List β) (xs : List α) {j : Nat} (hj : j < xs.length) :
    ((xs.flatMap fun _ => piece).drop (j * piece.length)).take piece.length = piece := by
  induction xs generalizing j with
  | nil => exact absurd hj (Nat.not_lt_zero j)
  | cons x xs ih =>
    cases j with
    | zero => simp
    | succ j =>
      rw [List.flatMap_cons, Nat.succ_mul, Nat.add_comm, ← List.drop_drop, List.drop_left]
      exact ih (by simpa using hj)

/-- The chunks in the requirements: those of the list, once for each scenario. -/
theorem map_snd_requirements (k N : Nat) (scenarios : List String) :
    (defineScenarioRequirements k N scenarios).map Prod.snd = scenarios.flatMap fun _ => partitionIndexes N k := by
  simp [defineScenarioRequirements, List.map_flatMap, Function.comp_def]

theorem length_requirements (k N : Nat) (scenarios : List String) :
    (defineScenarioRequirements k N scenarios).length = k * scenarios.length := by
  simp [defineScenarioRequirements, List.length_flatMap, Nat.mul_comm]

/-- The settings of a testbed hold the indices that the requirements give it, for each of the lists. -/
theorem currentDict_indexes (r : Requirements) {i : Nat} (hi : i ∈ List.range' 1 (r.numChunks * r.scenarioList.length)) :
    ∃ s, currentDict r i = some s ∧
      ∀ kind : Sliced, ((defineScenarioRequirements r.numChunks (kind.len r) r.scenarioList).map Prod.snd)[i - 1]? =
        some (kind.indexes s) := by
  have hlt : ∀ N, i - 1 < (defineScenarioRequirements r.numChunks N r.scenarioList).length := by
    intro N
    rw [length_requirements]
    have := List.mem_range'_1.mp hi
    omega
  simp only [currentDict, List.getElem?_eq_getElem (hlt _), Option.bind_eq_bind, Option.bind_some, List.getElem?_map,
    Option.map_some]
  refine ⟨_, rfl, ?_⟩
  intro kind
  cases kind <;> rfl

/-- The script succeeds, and for each list the testbeds hold the chunks of the list, once for each scenario. -/
theorem generateSettingsDicts_indexes (r : Requirements) :
    ∃ dicts, generateSettingsDicts r = some dicts ∧ ∀ kind : Sliced,
      dicts.map kind.indexes = r.scenarioList.flatMap fun _ => partitionIndexes (kind.len r) r.numChunks := by
  obtain ⟨dicts, hsome, hall⟩ := exists_mapM_eq_some _ fun i hi => currentDict_indexes r hi
  refine ⟨dicts, hsome, ?_⟩
  intro kind
  have hlen : dicts.length = r.numChunks * r.scenarioList.length := by
    rw [← hall.length_eq, List.length_range']
  rw [← map_snd_requirements]
  apply List.ext_getElem
  · rw [List.length_map, List.length_map, hlen, length_requirements]
  · intro t h₁ h₂
    have ht : t < dicts.length := by simpa using h₁
    have hat := hall.get (by rw [hall.length_eq]; exact ht) ht kind
    simp only [List.get_eq_getElem, List.getElem_range', Nat.one_mul, Nat.add_sub_cancel_left] at hat
    rw [List.getElem_map, ← Option.some.injEq, ← hat, List.getElem?_eq_getElem h₂]

/-- For every number of testbeds, every scenario of the list and every list of the length the script is told: the slices of the
scenario's testbeds cover the list exactly if the list is empty. -/
theorem testbeds_cover_iff (r : Requirements) (hk : 1 ≤ r.numChunks) {j : Nat} (hj : j < r.scenarioList.length) (kind : Sliced)
    (xs : List α) (hlen : xs.length = kind.len r) :
    ∃ dicts, generateSettingsDicts r = some dicts ∧
      (CoversOnce xs (((dicts.drop (j * r.numChunks)).take r.numChunks).map kind.indexes) ↔ xs = []) := by
  obtain ⟨dicts, hsome, hdicts⟩ := generateSettingsDicts_indexes r
  refine ⟨dicts, hsome, ?_⟩
  have hpart := take_drop_flatMap_const (partitionIndexes (kind.len r) r.numChunks) r.scenarioList hj
  rw [length_partitionIndexes, ← hdicts, ← List.map_drop, ← List.map_take] at hpart
  rw [hpart, ← hlen]
  exact coversOnce_partition_iff hk xs

/-- The packet loss rates of the script's defaults: 28 levels on 8 testbeds, for the scenario `Plain`. -/
theorem testbeds_cover_iff_plr :
    ∃ dicts, generateSettingsDicts {} = some dicts ∧
      (CoversOnce (List.range 28) (((dicts.drop (0 * 8)).take 8).map Sliced.plr.indexes) ↔ List.range 28 = []) :=
  testbeds_cover_iff {} (by decide) (by decide) .plr (List.range 28) rfl

/-- The indices that the script's defaults give the eight testbeds of `Plain` for the twenty pages. -/
def plainAlexaIndexes : List (Int × Int) := [(0, 2), (3, 5), (6, 8), (9, 11), (12, 13), (14, 15), (16, 17), (18, 19)]

/-- With the script's defaults, eight of the twenty pages are loaded in no testbed of `Plain`. -/
theorem plain_testbeds_drop_pages :
    (generateSettingsDicts {}).map (fun dicts => (dicts.take 8).map Sliced.alexa.indexes) = some plainAlexaIndexes ∧
      plainAlexaIndexes.flatMap (fun p => Python.slice (List.range 20) p.1 p.2) =
        [0, 1, 3, 4, 6, 7, 9, 10, 12, 14, 16, 18] ∧
      ¬CoversOnce (List.range 20) plainAlexaIndexes := by
  refine ⟨by decide, by decide, ?_⟩
  intro h
  exact absurd (h.1 2 (by decide)) (by decide)

end Qpep.Testbed
