import Mathlib.Data.List.TakeWhile
import Qpep.Lib.Hoare
import Qpep.Lib.Writes
import Qpep.Testbed.Configurator

/-!
# Configuring a testbed again

A run of the configurator is a row of writes to lines of files. It replaces the lines that it names, up to the first one
that is not there; of a file that it writes to, all other lines stay but for their line ends, which become newlines, and no
other file changes (`main_lines`). It leaves nothing of the runs before it, whatever they were given and wherever they
stopped (`main_again`).
-/

namespace Qpep.Configurator

open Python Hoare Writes

/-! ## Lines of files -/

/-- A text without a line end. -/
abbrev Line := { s : List Char // OneLine s }

/-- The lines of a file. -/
def linesOf (files : Files) (f : String) : Option (List (List Char)) := (files f).map readlines

/-- Lines into a file. -/
def putLines (f : String) (lines : List (List Char)) (files : Files) : Files := Function.update files f (some lines.flatten)

/-- A text in the place of the line `i` of a file, counted from 0. -/
def write (a : String × Nat) (line : Line) (files : Files) : Option Files :=
  (linesOf files a.1).bind fun lines =>
    if a.2 < lines.length then some (putLines a.1 (lines.set a.2 (line.1 ++ ['\n'])) files) else none

/-- The line `i` of a file. -/
def lineAt (a : String × Nat) (files : Files) : Option (List Char) := (linesOf files a.1).bind fun lines => lines[a.2]?

theorem linesOf_putLines {lines : List (List Char)} (h : IsLines lines) (f g : String) (files : Files) :
    linesOf (putLines f lines files) g = if g = f then some lines else linesOf files g := by
  unfold linesOf putLines
  by_cases hg : g = f
  · rw [hg, Function.update_self, if_pos rfl, Option.map_some, readlines_flatten h]
  · rw [Function.update_of_ne hg, if_neg hg]

theorem isLines_of_linesOf {files : Files} {f : String} {lines : List (List Char)}
    (h : linesOf files f = some lines) : IsLines lines := by
  obtain ⟨text, -, rfl⟩ := Option.map_eq_some_iff.mp h
  exact isLines_readlines text

/-- What a write that is not refused has found and done. -/
theorem write_eq_some {a : String × Nat} {line : Line} {files files' : Files} (h : write a line files = some files') :
    ∃ lines, linesOf files a.1 = some lines ∧ a.2 < lines.length ∧
      files' = putLines a.1 (lines.set a.2 (line.1 ++ ['\n'])) files := by
  obtain ⟨lines, hlines, hwrite⟩ := Option.bind_eq_some_iff.mp h
  split at hwrite
  · rename_i hlt
    exact ⟨lines, hlines, hlt, (Option.some.inj hwrite).symm⟩
  · cases hwrite

/-- The lines of the files after a write. -/
theorem linesOf_write {a : String × Nat} (line : Line) {files files' : Files} {lines : List (List Char)}
    (hlines : linesOf files a.1 = some lines) (h : files' = putLines a.1 (lines.set a.2 (line.1 ++ ['\n'])) files) (g : String) :
    linesOf files' g = if g = a.1 then some (lines.set a.2 (line.1 ++ ['\n'])) else linesOf files g := by
  rw [h]
  exact linesOf_putLines ((isLines_of_linesOf hlines).set line.2 a.2) a.1 g files

/-- A write is refused when its line is not there. -/
theorem write_isSome (a : String × Nat) (line : Line) (files : Files) :
    (write a line files).isSome = (linesOf files a.1).any fun lines => a.2 < lines.length := by
  unfold write
  cases linesOf files a.1 with
  | none => rfl
  | some lines =>
    rw [Option.bind_some, Option.any_some]
    by_cases h : a.2 < lines.length <;> simp [h]

theorem write_of_lines {a : String × Nat} (line : Line) {files : Files} {lines : List (List Char)}
    (h : linesOf files a.1 = some lines)
    (hlt : a.2 < lines.length) : write a line files = some (putLines a.1 (lines.set a.2 (line.1 ++ ['\n'])) files) := by
  rw [write, h, Option.bind_some, if_pos hlt]

/-- A write of a file's lines over another one. -/
theorem putLines_putLines (f : String) (lines lines' : List (List Char)) (files : Files) :
    putLines f lines' (putLines f lines files) = putLines f lines' files := by
  simp [putLines]

theorem putLines_comm {f g : String} (h : f ≠ g) (lines lines' : List (List Char)) (files : Files) :
    putLines g lines' (putLines f lines files) = putLines f lines (putLines g lines' files) :=
  Function.update_comm h _ _ _

/-- Writes to lines are lawful. -/
theorem write_lawful : Lawful write where
  again := by
    intro a v v' s s' h
    obtain ⟨lines, hlines, hlt, rfl⟩ := write_eq_some h
    have hlines' := linesOf_write v hlines rfl a.1
    rw [if_pos rfl] at hlines'
    rw [write_of_lines _ hlines' (by rwa [List.length_set]), write_of_lines _ hlines hlt, List.set_set, putLines_putLines]
  comm := by
    intro a b v u s s' hab h
    obtain ⟨lines, hlines, hlt, rfl⟩ := write_eq_some h
    have hlines' := linesOf_write v hlines rfl b.1
    by_cases hfile : b.1 = a.1
    · have hline : b.2 ≠ a.2 := fun h => hab (Prod.ext hfile.symm h.symm)
      rw [if_pos hfile] at hlines'
      have hb : linesOf s b.1 = some lines := by rw [hfile, hlines]
      by_cases hlt' : b.2 < lines.length
      · have ha := linesOf_write u hb rfl a.1
        rw [if_pos hfile.symm] at ha
        rw [write_of_lines _ hlines' (by rwa [List.length_set]), write_of_lines _ hb hlt', Option.bind_some,
          write_of_lines _ ha (by rwa [List.length_set]), hfile, putLines_putLines, putLines_putLines, List.set_comm _ _ hline]
      · simp [write, hlines', hb, hlt']
    · rw [if_neg hfile] at hlines'
      cases hb : linesOf s b.1 with
      | none => simp [write, hlines', hb]
      | some lines' =>
        rw [hb] at hlines'
        by_cases hlt' : b.2 < lines'.length
        · have ha := linesOf_write u hb rfl a.1
          rw [if_neg (Ne.symm hfile), hlines] at ha
          rw [write_of_lines _ hlines' hlt', write_of_lines _ hb hlt', Option.bind_some, write_of_lines _ ha hlt,
            putLines_comm (Ne.symm hfile)]
        · simp [write, hlines', hb, hlt']
  value := by
    intro a v v' s
    rw [write_isSome, write_isSome]
  keeps := by
    intro a b v u s s' hab h
    obtain ⟨lines, hlines, hlt, rfl⟩ := write_eq_some h
    rw [write_isSome, write_isSome, linesOf_write _ hlines rfl]
    by_cases hfile : b.1 = a.1
    · rw [if_pos hfile, hfile, hlines, Option.any_some, Option.any_some, List.length_set]
    · rw [if_neg hfile]

/-- What a write leaves at each line. -/
theorem lineAt_write {a : String × Nat} {line : Line} {files files' : Files} (h : write a line files = some files')
    (b : String × Nat) :
    lineAt b files' = if a = b then some (line.1 ++ ['\n']) else lineAt b files := by
  obtain ⟨lines, hlines, hlt, rfl⟩ := write_eq_some h
  unfold lineAt
  rw [linesOf_write _ hlines rfl]
  by_cases hfile : b.1 = a.1
  · rw [if_pos hfile, hfile, hlines, Option.bind_some, Option.bind_some]
    by_cases hline : a.2 = b.2
    · have hab : a = b := Prod.ext hfile.symm hline
      rw [if_pos hab, ← hline, List.getElem?_set_self hlt]
    · have hab : a ≠ b := fun h => hline (congrArg Prod.snd h)
      rw [if_neg hab, List.getElem?_set_ne hline]
  · have hab : a ≠ b := fun h => hfile (congrArg Prod.fst h.symm)
    rw [if_neg hfile, if_neg hab]

/-! ## The script -/

/-- The files that a program leaves, and whether it came to its end. -/
def outcome (x : EStateM FileErr Files PUnit) (files : Files) : Files × Bool :=
  match x.run files with
  | .ok _ files' => (files', true)
  | .error _ files' => (files', false)

/-- No value of the environment has a line end in it. -/
def Env.OneLined (env : Env) : Prop := ∀ name text, env name = some text → OneLine text

/-- The line of a change, counted from 0. -/
def Change.address (c : Change) : String × Nat := (c.filename, c.lineNumber - 1)

/-- A change as a write. -/
def Change.asWrite (c : Change) (h : OneLine c.lineText) : (String × Nat) × Line := (c.address, ⟨c.lineText, h⟩)

theorem oneLine_append {s t : List Char} (hs : OneLine s) (ht : OneLine t) : OneLine (s ++ t) :=
  ⟨by simp [hs.1, ht.1], by simp [hs.2, ht.2]⟩

theorem Env.OneLined.str {env : Env} (henv : env.OneLined) (name : String) : OneLine (env.str name) := by
  unfold Env.str
  cases h : env name with
  | none => exact (by decide : OneLine "None".toList)
  | some text => exact henv name text h

/-- No change brings in a line end. -/
theorem oneLine_changes {env : Env} (henv : env.OneLined) : ∀ c ∈ changes env, OneLine c.lineText := by
  intro c hc
  simp only [changes, configureGatewayContainer, configureProxyStContainer, configureSatelliteContainer,
    configureTerminalContainer,
    configureWsOvpnContainer, configureWsStContainer, configureWsGwContainer, configureWorkstation, List.mem_append,
      List.mem_cons,
    List.not_mem_nil, or_false, or_assoc] at hc
  rcases hc with rfl | rfl | rfl | rfl | rfl | rfl | rfl | rfl | rfl | rfl | rfl | rfl | rfl | rfl | rfl | rfl <;>
    exact oneLine_append (oneLine_append (by decide) (henv.str _)) (by decide)

theorem outcome_bind (x : EStateM FileErr Files PUnit) (f : PUnit → EStateM FileErr Files PUnit) (files : Files) :
    outcome (x >>= f) files = if (outcome x files).2 then outcome (f ⟨⟩) (outcome x files).1 else outcome x files := by
  unfold outcome
  rw [EStateM.run_bind]
  cases x.run files <;> rfl

/-- A call of `change_line` is a write; what is refused changes nothing. -/
theorem outcome_changeLine {c : Change} (h : OneLine c.lineText) (files : Files) :
    outcome (changeLine c.filename c.lineNumber c.lineText) files = run write [c.asWrite h] files := by
  unfold outcome
  cases hfile : files c.filename with
  | none =>
    have hwrite : write c.address ⟨c.lineText, h⟩ files = none := by simp [write, linesOf, Change.address, hfile]
    have hrun : (changeLine c.filename c.lineNumber c.lineText).run files = .error .fileNotFoundError files := by
      simp only [changeLine, EStateM.run_bind, EStateM.run_get, hfile]
      rfl
    rw [hrun, Change.asWrite, run_cons_none hwrite]
  | some text =>
    have hlines : linesOf files c.address.1 = some (readlines text) := by simp [linesOf, Change.address, hfile]
    by_cases hlt : c.lineNumber - 1 < (readlines text).length
    · have hwrite := write_of_lines ⟨c.lineText, h⟩ hlines hlt
      have hrun : (changeLine c.filename c.lineNumber c.lineText).run files =
          .ok ⟨⟩ (putLines c.filename ((readlines text).set (c.lineNumber - 1) (c.lineText ++ ['\n'])) files) := by
        simp only [changeLine, EStateM.run_bind, EStateM.run_get, hfile, if_pos hlt]
        rfl
      rw [hrun, Change.asWrite, run_cons_some hwrite]
      rfl
    · have hwrite : write c.address ⟨c.lineText, h⟩ files = none := by
        simp only [write, hlines, Option.bind_some]
        exact if_neg hlt
      have hrun : (changeLine c.filename c.lineNumber c.lineText).run files = .error .indexError files := by
        simp only [changeLine, EStateM.run_bind, EStateM.run_get, hfile, if_neg hlt]
        rfl
      rw [hrun, Change.asWrite, run_cons_none hwrite]

/-- The writes of a row of changes. -/
def asWrites (cs : List Change) (h : ∀ c ∈ cs, OneLine c.lineText) : List ((String × Nat) × Line) := cs.pmap Change.asWrite h

theorem outcome_changes {cs : List Change} (h : ∀ c ∈ cs, OneLine c.lineText) (files : Files) :
    outcome (cs.foldlM (fun _ c => changeLine c.filename c.lineNumber c.lineText) ⟨⟩) files =
      run write (asWrites cs h) files := by
  induction cs generalizing files with
  | nil => rfl
  | cons c cs ih =>
    obtain ⟨hc, hrest⟩ := List.forall_mem_cons.mp h
    rw [List.foldlM_cons, outcome_bind, outcome_changeLine hc]
    have hcons : asWrites (c :: cs) h = c.asWrite hc :: asWrites cs hrest := rfl
    rw [hcons]
    cases hwrite : write c.address ⟨c.lineText, hc⟩ files with
    | none =>
      rw [Change.asWrite, run_cons_none hwrite, run_cons_none hwrite]
      rfl
    | some files' =>
      rw [Change.asWrite, run_cons_some hwrite, run_cons_some hwrite]
      exact ih hrest files'

/-- The lines that a run writes to, whatever the environment. -/
def addresses : List (String × Nat) :=
  [("gateway/config/gw.conf", 21), ("gateway/config/gw.conf", 24), ("gateway/config/gw.conf", 28),
    ("gateway/config/launch_pepsal.sh", 4), ("proxy-st/client.ovpn", 5), ("proxy-st/launch_firefox.sh", 3),
    ("proxy-st/launch_firefox.sh", 4), ("satellite/config/sat.conf", 16), ("terminal/config/term.conf", 17),
    ("terminal/config/term.conf", 19), ("terminal/config/term.conf", 20), ("ws-ovpn/ovpn_env.sh", 23), ("ws-st/client.ovpn", 5),
    ("ws-st/launch_firefox.sh", 3), ("ws-st/launch_firefox.sh", 4), ("ws-gw/Dockerfile", 14)]

theorem addresses_nodup : addresses.Nodup := by decide

theorem map_address (env : Env) : (changes env).map Change.address = addresses := by
  simp [changes, configureGatewayContainer, configureProxyStContainer, configureSatelliteContainer, configureTerminalContainer,
    configureWsOvpnContainer, configureWsStContainer, configureWsGwContainer, configureWorkstation, Change.address, addresses]

theorem map_fst_asWrites {env : Env} (h : ∀ c ∈ changes env, OneLine c.lineText) :
    (asWrites (changes env) h).map Prod.fst = addresses := by
  rw [asWrites, List.map_pmap, ← map_address env]
  exact List.pmap_eq_map _

theorem outcome_main {env : Env} (henv : env.OneLined) (files : Files) :
    outcome (main env) files = run write (asWrites (changes env) (oneLine_changes henv)) files :=
  outcome_changes (oneLine_changes henv) files

/-- The files after runs of the script, one after the other. -/
def afterRuns (envs : List Env) (files : Files) : Files := envs.foldl (fun files env => (outcome (main env) files).1) files

/-- The runs before leave nothing, whatever they were given and wherever they stopped: the files, and whether the script
comes to its end, are as if it was run for the first time. -/
theorem main_again {envs : List Env} (henvs : ∀ env ∈ envs, env.OneLined) {env : Env} (henv : env.OneLined) (files : Files) :
    outcome (main env) (afterRuns envs files) = outcome (main env) files := by
  induction envs generalizing files with
  | nil => rfl
  | cons e envs ih =>
    obtain ⟨he, hrest⟩ := List.forall_mem_cons.mp henvs
    have hagain : outcome (main env) (outcome (main e) files).1 = outcome (main env) files := by
      rw [outcome_main henv, outcome_main he, outcome_main henv]
      refine write_lawful.run_again ?_ ?_ files
      · rw [map_fst_asWrites, map_fst_asWrites]
      · rw [map_fst_asWrites]
        exact addresses_nodup
    exact (ih hrest _).trans hagain

/-- Every variable has this value. -/
def constEnv (value : String) : Env := fun _ => some value.toList

theorem constEnv_oneLined (value : String) (h : OneLine value.toList) : (constEnv value).OneLined := by
  intro name text htext
  obtain rfl := Option.some.inj htext
  exact h

/-- With a gateway's configuration that is too short for its last line, the script stops there both times. -/
theorem main_again_short :
    outcome (main (constEnv "172.10")) (afterRuns [constEnv "172.20", constEnv "None"] fun _ => some (List.replicate 25 '\n')) =
      outcome (main (constEnv "172.10")) fun _ => some (List.replicate 25 '\n') :=
  main_again (by
    intro env henv
    simp only [List.mem_cons, List.not_mem_nil, or_false] at henv
    rcases henv with rfl | rfl <;> exact constEnv_oneLined _ (by decide)) (constEnv_oneLined _ (by decide)) _

/-! ## One run -/

/-- The line of a change is there. -/
def found (files : Files) (c : Change) : Bool := (linesOf files c.filename).any fun lines => c.lineNumber - 1 < lines.length

/-- The writes that are accepted are those of the changes whose lines are there, up to the first one whose line is not. -/
theorem accepted_asWrites {cs : List Change} (h : ∀ c ∈ cs, OneLine c.lineText) (files : Files) :
    accepted write (asWrites cs h) files = asWrites (cs.takeWhile (found files)) fun c hc =>
      h c (List.takeWhile_subset _ hc) := by
  induction cs with
  | nil => rfl
  | cons c cs ih =>
    obtain ⟨hc, hrest⟩ := List.forall_mem_cons.mp h
    have hcons : asWrites (c :: cs) h = (c.address, ⟨c.lineText, hc⟩) :: asWrites cs hrest := rfl
    have hsome : (write c.address ⟨c.lineText, hc⟩ files).isSome = found files c := write_isSome _ _ files
    rw [hcons]
    cases hwrite : write c.address ⟨c.lineText, hc⟩ files with
    | none =>
      rw [hwrite, Option.isSome_none] at hsome
      rw [accepted_cons_none hwrite]
      simp only [List.takeWhile_cons, ← hsome]
      rfl
    | some files' =>
      rw [hwrite, Option.isSome_some] at hsome
      rw [accepted_cons_some hwrite, ih hrest]
      simp only [List.takeWhile_cons, ← hsome]
      rfl

theorem find?_asWrites {cs : List Change} (h : ∀ c ∈ cs, OneLine c.lineText) (b : String × Nat) :
    ((asWrites cs h).find? fun e => e.1 = b).map (fun e => e.2.1 ++ ['\n']) =
      (cs.find? fun c => c.address = b).map fun c => c.lineText ++ ['\n'] := by
  induction cs with
  | nil => rfl
  | cons c cs ih =>
    obtain ⟨hc, hrest⟩ := List.forall_mem_cons.mp h
    have hcons : asWrites (c :: cs) h = (c.address, ⟨c.lineText, hc⟩) :: asWrites cs hrest := rfl
    rw [hcons, List.find?_cons, List.find?_cons]
    by_cases hb : c.address = b
    · simp [hb]
    · simp only [hb, decide_false]
      exact ih hrest

/-- A text whose lines the changes have replaced, where they name one: the lines are those that are read, so every line end
has become a newline. -/
def changedText (done : List Change) (f : String) (text : List Char) : List Char :=
  ((readlines text).mapIdx fun i line =>
    ((done.find? fun c => c.address = (f, i)).map fun c => c.lineText ++ ['\n']).getD line).flatten

/-- A file that was written holds its lines and nothing else. -/
theorem flatten_of_written {f : String} {es : List ((String × Nat) × Line)} (hnodup : (es.map Prod.fst).Nodup) {files : Files}
    (hes : ∃ e ∈ accepted write es files, e.1.1 = f) :
    (run write es files).1 f = (linesOf (run write es files).1 f).map List.flatten := by
  refine write_lawful.run_makes (p := fun files' => files' f = (linesOf files' f).map List.flatten) (q := fun a => a.1 = f) ?_ ?_
    hnodup hes
  · intro a line files files' ha hwrite
    obtain ⟨lines, hlines, -, hfiles'⟩ := write_eq_some hwrite
    rw [linesOf_write line hlines hfiles', if_pos ha.symm, hfiles', putLines, ha, Function.update_self]
    rfl
  · intro a line files files' hwrite hfile
    obtain ⟨lines, hlines, -, hfiles'⟩ := write_eq_some hwrite
    rw [linesOf_write line hlines hfiles', hfiles', putLines]
    by_cases ha : f = a.1
    · rw [if_pos ha, ha, Function.update_self]
      rfl
    · rw [if_neg ha, Function.update_of_ne ha, hfile]

/-- The lines of a file that has the lines of the changes, from what is at each of them. -/
theorem lines_changed {done : List Change} {f : String} {lines lines' : List (List Char)}
    (hlines : ∀ i, lines'[i]? = ((done.find? fun c => c.address = (f, i)).map fun c => c.lineText ++ ['\n']).or lines[i]?)
    (hfound : ∀ c ∈ done, c.filename = f → c.lineNumber - 1 < lines.length) :
    lines' = lines.mapIdx fun i line =>
      ((done.find? fun c => c.address = (f, i)).map fun c => c.lineText ++ ['\n']).getD line := by
  refine List.ext_getElem? ?_
  intro i
  rw [hlines, List.getElem?_mapIdx]
  cases hfind : done.find? fun c => c.address = (f, i) with
  | none => cases lines[i]? <;> rfl
  | some c =>
    have haddress : c.address = (f, i) := by simpa using List.find?_some hfind
    obtain ⟨hfile, hline⟩ := Prod.mk.inj haddress
    have hlt : i < lines.length := hline ▸ hfound c (List.mem_of_find?_eq_some hfind) hfile
    rw [List.getElem?_eq_getElem hlt]
    rfl

theorem exists_of_found {files : Files} {c : Change} (h : found files c = true) :
    ∃ text, files c.filename = some text ∧ c.lineNumber - 1 < (readlines text).length := by
  unfold found linesOf at h
  cases htext : files c.filename with
  | none => simp [htext] at h
  | some text => exact ⟨text, rfl, by simpa [htext] using h⟩

/-- The changes that a run makes: those before the first one whose line is not there. -/
def made (env : Env) (files : Files) : List Change := (changes env).takeWhile (found files)

section Run

variable {env : Env} (henv : env.OneLined) (files : Files)
include henv

theorem nodup_asWrites : ((asWrites (changes env) (oneLine_changes henv)).map Prod.fst).Nodup := by
  rw [map_fst_asWrites]
  exact addresses_nodup

/-- A run comes to its end if it makes all changes. -/
theorem main_done_iff : (outcome (main env) files).2 = true ↔ ∀ c ∈ changes env, found files c = true := by
  rw [outcome_main henv, write_lawful.run_done_iff (nodup_asWrites henv), accepted_asWrites, ← List.takeWhile_eq_self_iff]
  refine ⟨fun h => ?_, fun h => ?_⟩
  · have hlength := congrArg List.length h
    simp only [asWrites, List.length_pmap] at hlength
    exact (List.takeWhile_prefix _).eq_of_length hlength
  · simp only [h]

/-- What is at each line of a file after a run. -/
theorem lineAt_main {f : String} {text : List Char} (htext : files f = some text) (i : Nat) :
    lineAt (f, i) (outcome (main env) files).1 =
      (((made env files).find? fun c => c.address = (f, i)).map fun c => c.lineText ++ ['\n']).or (readlines text)[i]? := by
  have hlines : linesOf files f = some (readlines text) := by rw [linesOf, htext, Option.map_some]
  rw [outcome_main henv, write_lawful.run_get lineAt (fun line => line.1 ++ ['\n']) lineAt_write (nodup_asWrites henv),
    accepted_asWrites, find?_asWrites, lineAt, hlines, Option.bind_some]
  rfl

/-- A file in which a run makes no change stays as it is. -/
theorem main_unnamed {f : String} (hnamed : ¬∃ c ∈ made env files, c.filename = f) :
    (outcome (main env) files).1 f = files f := by
  rw [outcome_main henv]
  refine write_lawful.run_keeps (p := fun files' => files' f = files f) (q := fun a => a.1 ≠ f) ?_ (nodup_asWrites henv) ?_ rfl
  · intro a v s s' ha hwrite hs
    obtain ⟨lines, -, -, rfl⟩ := write_eq_some hwrite
    rw [putLines, Function.update_of_ne (Ne.symm ha), hs]
  · rw [accepted_asWrites]
    intro e he hfile
    obtain ⟨c, hc, rfl⟩ := List.mem_pmap.mp he
    exact hnamed ⟨c, hc, hfile⟩

/-- A file in which a run makes a change has its lines, and those of the changes where they name one. -/
theorem main_named {f : String} (hnamed : ∃ c ∈ made env files, c.filename = f) :
    (outcome (main env) files).1 f = (files f).map (changedText (made env files) f) := by
  obtain ⟨c, hc, hfile⟩ := hnamed
  have hfound : ∀ c ∈ made env files, found files c = true := fun c hc => List.mem_takeWhile_imp hc
  obtain ⟨text, htext, hlt⟩ := exists_of_found (hfound c hc)
  rw [hfile] at htext
  have hget := lineAt_main henv files htext
  have hwritten : ∃ e ∈ accepted write (asWrites (changes env) (oneLine_changes henv)) files, e.1.1 = f := by
    rw [accepted_asWrites]
    exact ⟨_, List.mem_pmap_of_mem hc, hfile⟩
  have hflat := flatten_of_written (nodup_asWrites henv) hwritten
  rw [← outcome_main henv] at hflat
  rw [hflat, htext]
  cases hafter : linesOf (outcome (main env) files).1 f with
  | none =>
    have hline := hget (c.lineNumber - 1)
    rw [lineAt, hafter, Option.bind_none, List.getElem?_eq_getElem hlt] at hline
    simp at hline
  | some lines' =>
    have hlines' : ∀ i, lines'[i]? =
        (((made env files).find? fun c => c.address = (f, i)).map fun c => c.lineText ++ ['\n']).or (readlines text)[i]? := by
      intro i
      rw [← hget i, lineAt, hafter, Option.bind_some]
    rw [Option.map_some, lines_changed hlines']
    · rfl
    · intro c' hc' hfile'
      obtain ⟨text', htext', hlt'⟩ := exists_of_found (hfound c' hc')
      rw [hfile', htext] at htext'
      rwa [Option.some.inj htext']

end Run

/-- A run makes the changes in their order, up to the first one whose line is not there, and comes to its end exactly if
there is none. A file in which it made none is unchanged; in any other one the lines that they name are replaced, and the
other lines are those that were read. -/
theorem main_lines {env : Env} (henv : env.OneLined) (files : Files) :
    ((outcome (main env) files).2 = true ↔ ∀ c ∈ changes env, found files c = true) ∧
      ∀ f, (outcome (main env) files).1 f =
        if ∃ c ∈ made env files, c.filename = f then (files f).map (changedText (made env files) f) else files f := by
  refine ⟨main_done_iff henv files, ?_⟩
  intro f
  by_cases hnamed : ∃ c ∈ made env files, c.filename = f
  · rw [if_pos hnamed]
    exact main_named henv files hnamed
  · rw [if_neg hnamed]
    exact main_unnamed henv files hnamed

/-- Files of thirty lines each that end as on Windows are long enough; their line ends are newlines afterwards. -/
theorem main_lines_windows :
    let files : Files := fun _ => some (List.replicate 30 ['\r', '\n']).flatten
    let files' := (outcome (main (constEnv "172.10")) files).1
    files' "satellite/config/sat.conf" =
        some (List.replicate 16 '\n' ++ "emu_ipv4 = 172.10.0.2/24\n".toList ++ List.replicate 13 '\n') ∧
      files' "README.md" = files "README.md" := by
  intro files files'
  obtain ⟨-, hfiles⟩ := main_lines (constEnv_oneLined "172.10" (by decide)) files
  refine ⟨?_, ?_⟩
  · exact (hfiles "satellite/config/sat.conf").trans (by decide)
  · exact (hfiles "README.md").trans (by decide)

end Qpep.Configurator
