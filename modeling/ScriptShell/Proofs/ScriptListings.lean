import Mathlib.Data.List.Forall2
import ScriptShell.Session.Scripts

/-! # The startup scripts of a configuration

Which scripts a session has at startup is read off its configuration and the files: those directly
inside each directory, in the order of the directories and sorted by name inside each, and then the
single files that exist, in their order (`SessionRef.startupScripts_ok`).  Only a directory whose
names may not be read is an error; a missing one has no scripts.
-/

namespace ScriptShell

/-- Whether something inside a directory is a script: its name says so and a file stands there. -/
def Files.HoldsScript (t : Files) (p : Place) (name : String) : Prop :=
  name.endsWith Scripts.suffix = true ∧
    ((∃ content, t.lookup? (p ++ [name]) = some (.file content)) ∨
      ∃ tool, t.lookup? (p ++ [name]) = some (.program tool))

theorem Files.mem_namesIn {t : Files} {p : Place} {name : String} :
    name ∈ t.namesIn p ↔ ∃ e, (p ++ [name], e) ∈ t.entries := by
  rw [namesIn, List.mem_filterMap]
  constructor
  · rintro ⟨⟨q, e⟩, hmem, hname⟩
    split at hname
    · next hq =>
      obtain ⟨ys, rfl⟩ := List.getLast?_eq_some_iff.1 hname
      have hp : ys = p := by simpa using hq
      exact ⟨e, hp ▸ hmem⟩
    · cases hname
  · rintro ⟨e, hmem⟩
    exact ⟨_, hmem, by simp⟩

theorem Files.HoldsScript.mem_namesIn {t : Files} {p : Place} {name : String}
    (h : t.HoldsScript p name) : name ∈ t.namesIn p := by
  obtain ⟨e, he⟩ : ∃ e, t.lookup? (p ++ [name]) = some e := by
    rcases h.2 with ⟨_, h⟩ | ⟨_, h⟩
    · exact ⟨_, h⟩
    · exact ⟨_, h⟩
  rw [Files.lookup?, if_neg (by simp)] at he
  obtain ⟨_, _, hentries, -⟩ := List.lookup_eq_some_iff.1 he
  refine Files.mem_namesIn.2 ⟨e, ?_⟩
  rw [hentries]
  exact List.mem_append_right _ (List.mem_cons_self ..)

/-- Names in a directory that has one entry for each of them are different. -/
theorem Files.nodup_namesIn {t : Files} (distinct : (t.entries.map Prod.fst).Nodup) (p : Place) :
    (t.namesIn p).Nodup := by
  have hplaces : t.namesIn p = (t.entries.map Prod.fst).filterMap fun q =>
      if q.dropLast == p then q.getLast? else none := by
    rw [List.filterMap_map]
    rfl
  rw [hplaces]
  refine List.Pairwise.filterMap _ ?_ distinct
  intro q q' hne a ha b hb hab
  subst hab
  split at ha
  · next hq =>
    split at hb
    · next hq' =>
      obtain ⟨ys, rfl⟩ := List.getLast?_eq_some_iff.1 ha
      obtain ⟨zs, rfl⟩ := List.getLast?_eq_some_iff.1 hb
      have hys : ys = p := by simpa using hq
      have hzs : zs = p := by simpa using hq'
      exact hne (by rw [hys, hzs])
    · cases hb
  · cases ha

namespace Scripts

variable {t : Files} {dir : String}

/-- A list of the scripts in a directory: sorted, with all of them, and each once where the
directory has one entry of a name. -/
structure Listing (t : Files) (p : Place) (names : List String) : Prop where
  /-- By name. -/
  sorted : names.Pairwise (· ≤ ·)
  /-- These are the scripts. -/
  mem : ∀ name, name ∈ names ↔ t.HoldsScript p name
  /-- Each once. -/
  once : (t.entries.map Prod.fst).Nodup → names.Nodup

/-- The path of something inside a directory. -/
def pathIn (dir name : String) : String :=
  if listed dir = "." then name else join (listed dir) name

/-- The scripts that a configured directory stands for. -/
inductive Lists (t : Files) (dir : String) : List String → Prop where
  /-- Those directly inside, by name. -/
  | inside {p : Place} {names : List String} (found : t.locate (listed dir) = .ok (p, .directory))
      (listing : Listing t p names) : Lists t dir (names.map (pathIn dir))
  /-- None, where there is no directory. -/
  | missing (missing : ∀ p, t.locate (listed dir) ≠ .ok (p, .directory)) : Lists t dir []

/-- Sorting the names that pass a test for scripts lists the scripts. -/
theorem listing_sort {t : Files} {p : Place} {test : String → Bool}
    (htest : ∀ name, test name = true ↔ t.HoldsScript p name) :
    Listing t p (((t.namesIn p).filter test).mergeSort fun a b => a ≤ b) where
  sorted := by
    refine (List.pairwise_mergeSort ?_ ?_ _).imp fun h => of_decide_eq_true h
    · intro a b c hab hbc
      exact decide_eq_true (String.le_trans (of_decide_eq_true hab) (of_decide_eq_true hbc))
    · intro a b
      simpa using String.le_total a b
  mem name := by
    rw [List.mem_mergeSort, List.mem_filter, htest]
    exact and_iff_right_of_imp fun h => h.mem_namesIn
  once distinct :=
    (List.mergeSort_perm _ _).nodup_iff.2 ((Files.nodup_namesIn distinct p).filter _)

theorem lists_discover (t : Files) (dir : String) : Lists t dir (discover t dir) := by
  unfold discover
  split
  · next p found =>
    refine .inside found (listing_sort fun name => ?_)
    rw [Bool.and_eq_true, Files.HoldsScript]
    refine and_congr_right fun _ => ?_
    constructor
    · intro h
      split at h
      · exact .inl ⟨_, ‹_›⟩
      · exact .inr ⟨_, ‹_›⟩
      all_goals cases h
    · rintro (⟨_, h⟩ | ⟨_, h⟩) <;> rw [h]
  · next missing => exact .missing missing

/-- What is listed of a directory, if it may be, is what is discovered in it. -/
theorem lists_list {paths : List String} (h : list t dir = .ok paths) : Lists t dir paths := by
  unfold list at h
  split at h
  · split at h
    · cases h
    · cases h
      exact lists_discover t dir
  · next hmissing =>
    cases h
    exact .missing hmissing

theorem lists_mapM {dirs : List String} {inside : List (List String)}
    (h : dirs.mapM (list t) = .ok inside) : List.Forall₂ (Lists t) dirs inside := by
  induction dirs generalizing inside with
  | nil =>
    cases h
    exact .nil
  | cons dir dirs ih =>
    rw [List.mapM_cons] at h
    cases hdir : list t dir with
    | error e =>
      rw [hdir] at h
      cases h
    | ok paths =>
      cases hrest : dirs.mapM (list t) with
      | error e =>
        rw [hdir, hrest] at h
        cases h
      | ok rest =>
        rw [hdir, hrest] at h
        cases h
        exact .cons (lists_list hdir) (ih hrest)

end Scripts

/-- Without directories they are the files that exist. -/
theorem SessionRef.startupScripts_of_files {config : Config} (h : config.scriptDirs = [])
    (files : Files) :
    startupScripts config files = .ok (config.startupFiles.filter files.isFile) := by
  rw [startupScripts, h]
  rfl

/-- **The startup scripts** are those of each directory and then the files that exist. -/
theorem SessionRef.startupScripts_ok {config : Config} {files : Files} {scripts : List String}
    (h : startupScripts config files = .ok scripts) :
    ∃ inside, List.Forall₂ (Scripts.Lists files) config.scriptDirs inside ∧
      scripts = inside.flatten ++ config.startupFiles.filter files.isFile := by
  unfold startupScripts at h
  cases hdirs : config.scriptDirs.mapM (Scripts.list files) with
  | error e =>
    rw [hdirs] at h
    cases h
  | ok inside =>
    rw [hdirs] at h
    cases h
    exact ⟨inside, Scripts.lists_mapM hdirs, rfl⟩

end ScriptShell
