import SqlRender.Files.Tree
import SqlRender.Proofs.Directories
import SqlRender.Settings.Search

/-!
# The nearest settings file

The search for a settings file asks for it in each directory upwards, from the deepest on, until
there is one. What is in there is the answer, and nothing above it is looked at.

```text
 directories of /srv//app/     asked for                           read
   /srv//app/                  /srv//app/clausal.json     no
   /srv                        /srv/clausal.json          yes      /srv/clausal.json
   /
```

`Settings.nearest?_eq_findM?` says so in whatever monad the file system answers. One that keeps a
log (`FileSystem.logged`) shows all that was asked, and `Settings.settings_from_nearest_file` puts
the questions and the answer together, for any answers of the file system.

In a `FileTree` it does not matter how a path is written. Where no double dot leads back, the
directories above a path are those of its names, and `Settings.load_from_tree` speaks of them alone.
-/

namespace SqlRender

/-! ## What is asked -/

namespace FileSystem

/-- A question that was asked. -/
inductive Call where
  | isFile (path : Path)
  | read (path : Path)
deriving DecidableEq, Repr

/-- The file system with a log of what it is asked. -/
def logged (fs : FileSystem Id) : FileSystem (StateM (List Call)) where
  isFile path := do
    modify (· ++ [.isFile path])
    return (fs.isFile path).run
  read path := do
    modify (· ++ [.read path])
    return (fs.read path).run

section

variable (fs : FileSystem Id) (log : List Call)

@[simp] theorem run_isFile_logged (path : Path) :
    (fs.logged.isFile path).run log = pure ((fs.isFile path).run, log ++ [.isFile path]) := rfl

@[simp] theorem run_read_logged (path : Path) :
    (fs.logged.read path).run log = pure ((fs.read path).run, log ++ [.read path]) := rfl

theorem findM?_logged_cons (p : Path) (paths : List Path) :
    ((p :: paths).findM? fs.logged.isFile).run log =
      if (fs.isFile p).run then (some p, log ++ [.isFile p])
      else (paths.findM? fs.logged.isFile).run (log ++ [.isFile p]) := by
  rw [List.findM?, StateT.run_bind, run_isFile_logged, pure_bind]
  cases (fs.isFile p).run <;> rfl

/-- Paths that lead to no file are asked for and passed over. -/
theorem findM?_logged_append {passed : List Path} (h : ∀ p ∈ passed, (fs.isFile p).run = false)
    (paths : List Path) :
    ((passed ++ paths).findM? fs.logged.isFile).run log =
      (paths.findM? fs.logged.isFile).run (log ++ passed.map .isFile) := by
  induction passed generalizing log with
  | nil => simp
  | cons p passed ih =>
    rw [List.forall_mem_cons] at h
    rw [List.cons_append, findM?_logged_cons, h.1, ih _ h.2]
    simp

/-- Keeping a log does not change what is found. -/
theorem findM?_logged (paths : List Path) :
    ((paths.findM? fs.logged.isFile).run log).1 = (paths.findM? fs.isFile).run := by
  induction paths generalizing log with
  | nil => rfl
  | cons p paths ih =>
    rw [findM?_logged_cons, List.findM?, Id.run_bind]
    cases (fs.isFile p).run with
    | true => rfl
    | false => exact ih _

end

end FileSystem

/-! ## The search -/

namespace Settings

/-- **The search asks for the settings file of each directory upwards**, until there is one. -/
theorem nearest?_eq_findM? {m : Type → Type} [Monad m] (fs : FileSystem m) {start : Path}
    (h : start.rooted = true) :
    nearest? fs start = (start.directories.map fileIn).findM? fs.isFile := by
  induction hn : start.segments.length using Nat.strongRecOn generalizing start with
  | _ n ih =>
    rw [nearest?, Path.directories_eq h, List.map_cons, List.findM?]
    refine bind_congr fun found => ?_
    cases found with
    | true => rfl
    | false =>
      simp only [Bool.false_eq_true, if_false]
      split
      · next hp => simp [hp]
      · next above hp =>
        have hroot : above.rooted = true := (Path.rooted_of_parent? hp).trans h
        simpa [hp] using ih _ (hn ▸ Path.length_parent? hp) hroot rfl

section

variable (fs : FileSystem Id) (parse : String → Option Settings)

/-- Whether a directory has a settings file. -/
def hasFile (directory : Path) : Bool := (fs.isFile (fileIn directory)).run

/-- The question whether a directory has a settings file. -/
def probe (directory : Path) : FileSystem.Call := .isFile (fileIn directory)

/-- What is asked of a file system while the settings of a directory are loaded. -/
def calls (start : Path) : List FileSystem.Call := ((loadFrom fs.logged parse start).run []).2

/-- Of directories that have a settings file, one is the nearest. -/
theorem exists_nearest {directories : List Path} (h : ∃ d ∈ directories, hasFile fs d = true) :
    ∃ nearer d farther, directories = nearer ++ d :: farther ∧
      (∀ c ∈ nearer, hasFile fs c = false) ∧ hasFile fs d = true := by
  obtain ⟨d, hfind⟩ := Option.isSome_iff_exists.1 (List.find?_isSome.2 h)
  obtain ⟨hd, nearer, farther, hsplit, hnearer⟩ := List.find?_eq_some_iff_append.1 hfind
  exact ⟨nearer, d, farther, hsplit, by simpa using hnearer, hd⟩

theorem ofFile_logged (path : Path) (log : List FileSystem.Call) :
    (ofFile fs.logged parse path).run log = ((ofFile fs parse path).run, log ++ [.read path]) := by
  rw [ofFile, StateT.run_bind, FileSystem.run_read_logged, pure_bind, ofFile, Id.run_bind]
  cases (fs.read path).run with
  | error reason => rfl
  | ok text =>
    cases hparse : parse text with
    | none =>
      simp only [hparse]
      rfl
    | some s =>
      simp only [hparse]
      rfl

theorem ofFile_ne_notFound (path start : Path) :
    (ofFile fs parse path).run ≠ .error (.notFound start) := by
  rw [ofFile, Id.run_bind]
  cases (fs.read path).run with
  | error reason => nofun
  | ok text => cases hparse : parse text <;> simp [hparse]

variable {start : Path} (h : start.rooted = true)

include h

/-- Keeping a log does not change what is loaded. -/
theorem loadFrom_logged :
    ((loadFrom fs.logged parse start).run []).1 = (loadFrom fs parse start).run := by
  rw [loadFrom, StateT.run_bind, loadFrom, Id.run_bind, nearest?_eq_findM? fs h,
    nearest?_eq_findM? fs.logged h, ← FileSystem.findM?_logged fs []]
  generalize ((start.directories.map fileIn).findM? fs.logged.isFile).run [] = found
  obtain ⟨path, log⟩ := found
  cases path with
  | none => rfl
  | some path => exact congrArg Prod.fst (ofFile_logged fs parse path log)

/-- Where there is no settings file, every directory is asked for it. -/
theorem loadFrom_of_absent (habsent : ∀ d ∈ start.directories, hasFile fs d = false) :
    (loadFrom fs.logged parse start).run [] =
      (.error (.notFound start), start.directories.map probe) := by
  have hpassed := FileSystem.findM?_logged_append fs [] (List.forall_mem_map.2 habsent) []
  rw [List.append_nil, List.map_map] at hpassed
  rw [loadFrom, StateT.run_bind, nearest?_eq_findM? fs.logged h, hpassed]
  rfl

variable {nearer farther : List Path} {d : Path}

/-- The nearest settings file is the last one that is asked for and the only one that is read. -/
theorem loadFrom_of_nearest (hsplit : start.directories = nearer ++ d :: farther)
    (hnearer : ∀ c ∈ nearer, hasFile fs c = false) (hd : hasFile fs d = true) :
    (loadFrom fs.logged parse start).run [] =
      ((ofFile fs parse (fileIn d)).run, nearer.map probe ++ [probe d, .read (fileIn d)]) := by
  have hfile : (fs.isFile (fileIn d)).run = true := hd
  have hpassed := FileSystem.findM?_logged_append fs [] (List.forall_mem_map.2 hnearer)
    (fileIn d :: farther.map fileIn)
  rw [FileSystem.findM?_logged_cons, if_pos hfile, List.map_map] at hpassed
  rw [loadFrom, StateT.run_bind, nearest?_eq_findM? fs.logged h, hsplit, List.map_append,
    List.map_cons, hpassed]
  refine (ofFile_logged fs parse (fileIn d) _).trans ?_
  rw [List.nil_append, List.append_assoc]
  rfl

theorem loadFrom_eq_ofFile (hsplit : start.directories = nearer ++ d :: farther)
    (hnearer : ∀ c ∈ nearer, hasFile fs c = false) (hd : hasFile fs d = true) :
    (loadFrom fs parse start).run = (ofFile fs parse (fileIn d)).run := by
  rw [← loadFrom_logged fs parse h, loadFrom_of_nearest fs parse h hsplit hnearer hd]

theorem loadFrom_eq_notFound_iff :
    (loadFrom fs parse start).run = .error (.notFound start) ↔
      ∀ d ∈ start.directories, hasFile fs d = false := by
  constructor
  · intro hload d hd
    refine Bool.eq_false_iff.2 fun hfile => ?_
    -- The nearest directory that had a file would be loaded from.
    obtain ⟨nearer, c, farther, hsplit, hnearer, hc⟩ := exists_nearest fs ⟨d, hd, hfile⟩
    rw [loadFrom_eq_ofFile fs parse h hsplit hnearer hc] at hload
    exact ofFile_ne_notFound fs parse _ _ hload
  · intro habsent
    rw [← loadFrom_logged fs parse h, loadFrom_of_absent fs parse h habsent]

end

/-- **Settings come from the nearest file**, whatever the file system answers. From an absolute path
upwards no settings file is found exactly if no directory has one, and then each was asked for it.
Otherwise there is a deepest directory that has one, and the search ends there: only its file is
read, and the settings that its text stands for are the answer, with its path; if it cannot be read
or understood, that is the answer. -/
theorem settings_from_nearest_file (fs : FileSystem Id) (parse : String → Option Settings)
    {start : Path} (h : start.rooted = true) :
    ((loadFrom fs parse start).run = .error (.notFound start) ↔
      ∀ d ∈ start.directories, hasFile fs d = false) ∧
    ((∀ d ∈ start.directories, hasFile fs d = false) →
      calls fs parse start = start.directories.map probe) ∧
    ((∃ d ∈ start.directories, hasFile fs d = true) →
      ∃ nearer d farther, start.directories = nearer ++ d :: farther ∧
        (∀ c ∈ nearer, hasFile fs c = false) ∧ hasFile fs d = true) ∧
    ∀ nearer d farther, start.directories = nearer ++ d :: farther →
      (∀ c ∈ nearer, hasFile fs c = false) → hasFile fs d = true →
      calls fs parse start = nearer.map probe ++ [probe d, .read (fileIn d)] ∧
      (∀ reason, (fs.read (fileIn d)).run = .error reason →
        (loadFrom fs parse start).run = .error (.unreadable ⟨fileIn d, reason⟩)) ∧
      ∀ text, (fs.read (fileIn d)).run = .ok text →
        (parse text = none → (loadFrom fs parse start).run = .error .malformed) ∧
        ∀ s, parse text = some s → (loadFrom fs parse start).run = .ok (s, fileIn d) := by
  refine ⟨loadFrom_eq_notFound_iff fs parse h, fun habsent => ?_, exists_nearest fs, ?_⟩
  · rw [calls, loadFrom_of_absent fs parse h habsent]
  · intro nearer d farther hsplit hnearer hd
    rw [calls, loadFrom_of_nearest fs parse h hsplit hnearer hd,
      loadFrom_eq_ofFile fs parse h hsplit hnearer hd, ofFile, Id.run_bind]
    refine ⟨rfl, ?_, ?_⟩
    · intro reason hread
      rw [hread]
      rfl
    · intro text hread
      rw [hread]
      refine ⟨fun hparse => ?_, fun s hparse => ?_⟩
      · simp [hparse]
      · simp [hparse]

/-- The file of `/srv` decides, whatever is in it: no directory below has one, and the file of the
root is left alone. -/
theorem settings_from_nearest_file_below_another :
    let place := fun segments => ({ rooted := true, segments } : Path)
    let start := place ["srv", "", "app", ""]
    let fs := fun text : String => ({
      isFile := fun p => p = place ["srv", fileName] || p = place [fileName]
      read := fun p => .ok (if p = place ["srv", fileName] then text else "null") } : FileSystem Id)
    start.rooted = true ∧
    (loadFrom (fs "\x7b\"dialect\": \"MySql\"\x7d") ofText? start).run =
      .ok ({ dialect := .mySql }, place ["srv", fileName]) ∧
    (loadFrom (fs "\x7b") ofText? start).run = .error .malformed ∧
    calls (fs "\x7b") ofText? start =
      [probe start, probe (place ["srv"]), .read (place ["srv", fileName])] := by
  intro place start fs
  have hsplit : start.directories = [start] ++ place ["srv"] :: [place []] := by decide
  have habsent : ∀ text, ∀ c ∈ [start], hasFile (fs text) c = false := by
    intro text
    rw [List.forall_mem_singleton]
    rfl
  have hsettings : ofText? "\x7b\"dialect\": \"MySql\"\x7d" = some { dialect := .mySql } := by cbv
  have hnone : ofText? "\x7b" = none := by cbv
  have hroot : start.rooted = true := rfl
  have hgood := (settings_from_nearest_file (fs "\x7b\"dialect\": \"MySql\"\x7d") ofText? hroot).2.2.2
    _ _ _ hsplit (habsent _) rfl
  have hbad := (settings_from_nearest_file (fs "\x7b") ofText? hroot).2.2.2
    _ _ _ hsplit (habsent _) rfl
  exact ⟨hroot, (hgood.2.2 _ rfl).2 _ hsettings, (hbad.2.2 _ rfl).1 hnone, hbad.1⟩

end Settings

/-! ## In a tree of files -/

/-- Where all names on the way are directories and no double dot leads back, a path leads to its
names. -/
theorem FileTree.follow?_concat (t : FileTree) {here segments : List String} {name : String}
    (hname : Path.isName name = true) (hup : name ≠ "..") (hdots : ".." ∉ segments)
    (hdirs : ∀ above, above <+: segments.filter Path.isName →
      t.isDirectory (here ++ above) = true) :
    t.follow? here (segments ++ [name]) =
      some (here ++ (segments.filter Path.isName ++ [name])) := by
  induction segments generalizing here with
  | nil =>
    have hhere : t.isDirectory here = true := by simpa using hdirs [] List.nil_prefix
    have hidle : ¬ (name = "" ∨ name = ".") := by simpa [Path.isName] using hname
    simp [FileTree.follow?, hhere, hidle, hup]
  | cons s segments ih =>
    rw [List.mem_cons, not_or] at hdots
    have hhere : t.isDirectory here = true := by simpa using hdirs [] List.nil_prefix
    rw [List.cons_append, FileTree.follow?]
    by_cases hs : Path.isName s = true
    · have hidle : ¬ (s = "" ∨ s = ".") := by simpa [Path.isName] using hs
      have hbelow : ∀ above, above <+: segments.filter Path.isName →
          t.isDirectory (here ++ [s] ++ above) = true := by
        intro above habove
        rw [List.append_assoc]
        refine hdirs _ ?_
        rw [List.filter_cons_of_pos hs]
        exact List.cons_prefix_cons.2 ⟨rfl, habove⟩
      simp [hhere, hidle, Ne.symm hdots.1, ih hdots.2 hbelow, List.filter_cons_of_pos hs]
    · have hidle : s = "" ∨ s = "." := by
        simpa [Path.isName, Classical.or_iff_not_imp_left] using hs
      rw [List.filter_cons_of_neg hs] at hdirs ⊢
      simp [hhere, hidle, ih hdots.2 hdirs]

namespace Settings

/-- The settings file of a directory is written behind it, in the place of a blank at its end. -/
theorem segments_fileIn {d : Path} :
    ∃ segments, (fileIn d).segments = segments ++ [fileName] ∧ segments <+: d.segments ∧
      segments.filter Path.isName = d.names := by
  by_cases hlast : d.segments.getLast? = some ""
  · obtain ⟨front, hfront⟩ := List.getLast?_eq_some_iff.1 hlast
    refine ⟨front, ?_, ⟨[""], hfront.symm⟩, ?_⟩
    · simp [fileIn, Path.child, Path.join, hfront]
    · simp [Path.names, hfront, Path.isName]
  · refine ⟨d.segments, ?_, List.prefix_refl _, rfl⟩
    by_cases hempty : d.segments = [] <;> simp [fileIn, Path.child, Path.join, hlast, hempty]

theorem names_fileIn (d : Path) : (fileIn d).names = d.names ++ [fileName] := by
  obtain ⟨segments, hsegments, -, hnames⟩ := segments_fileIn (d := d)
  rw [Path.names, hsegments, List.filter_append, hnames]
  rfl

theorem rooted_fileIn (d : Path) : (fileIn d).rooted = d.rooted := by
  unfold fileIn Path.child Path.join
  split_ifs <;> simp_all

section

variable (t : FileTree) (current : List String) {start : Path} (h : start.rooted = true)
  (hdots : ".." ∉ start.segments)
  (hdirs : ∀ above, above <+: start.names → t.isDirectory above = true)

include h hdots hdirs

/-- In a tree, the settings file of a directory is found by its names. -/
theorem content?_fileIn {d : Path} (hd : d ∈ start.directories) :
    t.content? current (fileIn d) = t.files.lookup (d.names ++ [fileName]) := by
  obtain ⟨hroot, hbeginning⟩ := Path.of_mem_directories hd
  obtain ⟨segments, hsegments, hfront, hnames⟩ := segments_fileIn (d := d)
  have hlocate : t.follow? [] (segments ++ [fileName]) = some (d.names ++ [fileName]) := by
    rw [← hnames]
    refine t.follow?_concat (by decide) (by decide) (fun hup => hdots ?_) fun above habove => ?_
    · exact (hfront.trans hbeginning).subset hup
    · exact hdirs above (habove.trans ((hfront.trans hbeginning).filter _))
  rw [FileTree.content?, FileTree.locate?, rooted_fileIn, hroot, h, if_pos rfl, hsegments, hlocate]
  rfl

theorem hasFile_tree {d : Path} (hd : d ∈ start.directories) :
    hasFile (FileStore.system (t.content? current)) d =
      (t.files.lookup (d.names ++ [fileName])).isSome := by
  rw [← content?_fileIn t current h hdots hdirs hd]
  rfl

/-- **In a tree of files the names decide**, whatever the settings are written in. Of the directories
on the names of a path, from the root down, the last one with a settings file gives the settings; and
none are found exactly if none of them has one. -/
theorem load_from_tree (parse : String → Option Settings) :
    let fs := FileStore.system (t.content? current)
    ((loadFrom fs parse start).run = .error (.notFound start) ↔
      ∀ above, above <+: start.names → t.files.lookup (above ++ [fileName]) = none) ∧
    ∀ above content, above <+: start.names →
      t.files.lookup (above ++ [fileName]) = some content →
      (∀ below, above <+: below → below ≠ above → below <+: start.names →
        t.files.lookup (below ++ [fileName]) = none) →
      ∃ path : Path, path.names = above ++ [fileName] ∧ t.content? current path = some content ∧
        (loadFrom fs parse start).run = (ofFile fs parse path).run := by
  intro fs
  have hfile : ∀ {d : Path}, d ∈ start.directories →
      hasFile fs d = (t.files.lookup (d.names ++ [fileName])).isSome :=
    hasFile_tree t current h hdots hdirs
  constructor
  · rw [loadFrom_eq_notFound_iff fs parse h]
    constructor
    · intro habsent above habove
      obtain ⟨nearer, d, farther, hsplit, rfl, -⟩ := Path.exists_directories_split h habove
      have hd : d ∈ start.directories := by simp [hsplit]
      simpa [hfile hd] using habsent d hd
    · intro hnone d hd
      rw [hfile hd, hnone _ (Path.names_prefix_of_mem_directories hd)]
      rfl
  · intro above content habove hcontent hbelow
    obtain ⟨nearer, d, farther, hsplit, rfl, hnearer⟩ := Path.exists_directories_split h habove
    have hd : d ∈ start.directories := by simp [hsplit]
    have hhas : hasFile fs d = true := by
      rw [hfile hd, hcontent]
      rfl
    have hpassed : ∀ c ∈ nearer, hasFile fs c = false := by
      intro c hc
      have hcs : c ∈ start.directories := by simp [hsplit, hc]
      obtain ⟨hdeep, hne⟩ := hnearer c hc
      rw [hfile hcs, hbelow c.names hdeep hne (Path.names_prefix_of_mem_directories hcs)]
      rfl
    refine ⟨fileIn d, names_fileIn d, ?_, ?_⟩
    · rw [content?_fileIn t current h hdots hdirs hd, hcontent]
    · exact loadFrom_eq_ofFile fs parse h hsplit hpassed hhas

end

end Settings

end SqlRender
