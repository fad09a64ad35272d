import Thumbnailer.Encoder.Search
import Thumbnailer.Proofs.FileTree.Held

/-!
# Where a program is found

The search path is searched for something executable, name by name. In the usual directories, one after the other,
any file ends the search: one that is not executable is given as the program, and hides those that stand behind it.
-/

namespace Thumbnailer

/-- A path in a list with a property that none before it has. -/
def IsFirst (P : String → Prop) (paths : List String) (path : String) : Prop :=
  P path ∧ ∃ before behind, paths = before ++ path :: behind ∧ ∀ p ∈ before, ¬P p

section
variable {P : String → Prop} {paths rest : List String} {path path' : String}

theorem IsFirst.mem (h : IsFirst P paths path) : path ∈ paths := by
  obtain ⟨-, before, behind, rfl, -⟩ := h
  simp

theorem exists_isFirst (h : ∃ path ∈ paths, P path) : ∃ path, IsFirst P paths path := by
  classical
  induction paths with
  | nil => simp at h
  | cons head rest ih =>
    by_cases hhead : P head
    · exact ⟨head, hhead, [], rest, rfl, by simp⟩
    · obtain ⟨path, hpath, before, behind, rfl, hnone⟩ := ih (by simpa [hhead] using h)
      exact ⟨path, hpath, head :: before, behind, rfl, by simpa [hhead] using hnone⟩

theorem isFirst_cons_iff {head : String} : IsFirst P (head :: rest) path ↔
    P head ∧ path = head ∨ ¬P head ∧ IsFirst P rest path := by
  constructor
  · rintro ⟨hpath, before, behind, hsplit, hnone⟩
    cases before with
    | nil =>
      obtain ⟨rfl, rfl⟩ := List.cons.inj hsplit
      exact .inl ⟨hpath, rfl⟩
    | cons other before =>
      obtain ⟨rfl, rfl⟩ := List.cons.inj hsplit
      obtain ⟨hhead, hnone⟩ := List.forall_mem_cons.1 hnone
      exact .inr ⟨hhead, hpath, before, behind, rfl, hnone⟩
  · rintro (⟨hhead, rfl⟩ | ⟨hhead, hpath, before, behind, rfl, hnone⟩)
    · exact ⟨hhead, [], rest, rfl, by simp⟩
    · exact ⟨hpath, head :: before, behind, rfl, List.forall_mem_cons.2 ⟨hhead, hnone⟩⟩

theorem IsFirst.unique (h : IsFirst P paths path) (h' : IsFirst P paths path') : path = path' := by
  induction paths with
  | nil => simpa using h.mem
  | cons head rest ih =>
    obtain ⟨hhead, rfl⟩ | ⟨hhead, hrest⟩ := isFirst_cons_iff.1 h
    · obtain ⟨-, rfl⟩ | ⟨hnot, -⟩ := isFirst_cons_iff.1 h'
      · rfl
      · exact absurd hhead hnot
    · obtain ⟨hyes, -⟩ | ⟨-, hrest'⟩ := isFirst_cons_iff.1 h'
      · exact absurd hyes hhead
      · exact ih hrest hrest'

theorem isFirst_append_of_none (hnone : ∀ p ∈ paths, ¬P p) : IsFirst P (paths ++ rest) path ↔ IsFirst P rest path := by
  induction paths with
  | nil => rfl
  | cons head paths ih =>
    obtain ⟨hhead, hpaths⟩ := List.forall_mem_cons.1 hnone
    rw [List.cons_append, isFirst_cons_iff, ih hpaths]
    simp [hhead]

theorem IsFirst.append (h : IsFirst P paths path) (rest : List String) : IsFirst P (paths ++ rest) path := by
  obtain ⟨hpath, before, behind, rfl, hnone⟩ := h
  exact ⟨hpath, before, behind ++ rest, by simp, hnone⟩

theorem find?_eq_some_iff_isFirst {test : String → Bool} :
    paths.find? test = some path ↔ IsFirst (fun p => test p = true) paths path := by
  rw [List.find?_eq_some_iff_append, IsFirst]
  simp only [Bool.not_eq_eq_eq_not, Bool.not_true, Bool.not_eq_true]

end

namespace FileTree

variable {t : FileTree} {paths : List String} {path : String}

/-- The search for a file ends at a path: one stands there, or the system refuses to look. -/
def Stops (t : FileTree) (path : String) : Prop := t.fileAt path ≠ .ok false

theorem fileAt_eq_true_iff : t.fileAt path = .ok true ↔
    ∃ content executable, t.node path = some (.file content executable) := by
  unfold fileAt node
  split
  · simp
  · cases hlook : t.lookUp path with
    | ok n => cases n <;> simp [Except.toOption]
    | error reason =>
      dsimp only
      split <;> simp [Except.toOption]

theorem isExecutable_iff : t.isExecutable path = true ↔ ∃ content, t.node path = some (.file content true) := by
  unfold isExecutable
  split
  · next hnode => simp [hnode]
  · next hnode => simpa using fun content hfile => hnode _ _ hfile

theorem fileAt_of_isExecutable (h : t.isExecutable path = true) : t.fileAt path = .ok true := by
  obtain ⟨content, hnode⟩ := isExecutable_iff.1 h
  exact fileAt_eq_true_iff.2 ⟨content, true, hnode⟩

theorem firstFile?_of_isFirst (h : IsFirst t.Stops paths path) :
    t.firstFile? paths = (t.fileAt path).map fun _ => some path := by
  induction paths with
  | nil => simpa using h.mem
  | cons head rest ih =>
    rw [firstFile?]
    obtain ⟨hhead, rfl⟩ | ⟨hhead, hrest⟩ := isFirst_cons_iff.1 h
    · split
      · next he => rw [he, Except.map]
      · next hfile => rw [hfile, Except.map]
      · next hnone => exact absurd hnone hhead
    · have hnone : t.fileAt head = .ok false := by simpa [Stops] using hhead
      rw [hnone]
      exact ih hrest

theorem firstFile?_of_none (h : ∀ path ∈ paths, ¬t.Stops path) : t.firstFile? paths = .ok none := by
  induction paths with
  | nil => rfl
  | cons head rest ih =>
    obtain ⟨hhead, hrest⟩ := List.forall_mem_cons.1 h
    have hnone : t.fileAt head = .ok false := by simpa [Stops] using hhead
    rw [firstFile?, hnone]
    exact ih hrest

end FileTree

namespace Machine

variable (m : Machine) (names : List String)

/-- Where the search path may have a program: under each name, in every directory. -/
def searchPaths : List String := names.flatMap fun name => m.searchDirectories.map (Path.join · name)

/-- Where the usual directories may have a program: in each directory, under every name. -/
def usualPaths : List String := m.wellKnown.flatMap fun d => names.map fun name => Path.normal (Path.join d name)

/-- A program can be run from a path. -/
def Runs (path : String) : Prop := m.files.isExecutable path = true

/-- What the search is for: the first program that can be run, on the search path and then in the usual directories. -/
structure FindsRunnable (answer : Except PathError (Option String)) : Prop where
  none_iff : answer = .ok none ↔ ∀ path ∈ m.searchPaths names ++ m.usualPaths names, ¬m.Runs path
  some_iff : ∀ path, answer = .ok (some path) ↔ IsFirst m.Runs (m.searchPaths names ++ m.usualPaths names) path

variable {m names}

theorem directory_of_noSlash {name : String} (h : '/' ∉ name.toList) : Path.directory name = "" := by
  have hdirectory : Path.directory ("" ++ name) = "" := Path.directory_append (.inl rfl) h
  rwa [String.empty_append] at hdirectory

theorem resolve?_eq (h : ∀ name ∈ names, '/' ∉ name.toList) : m.resolve? names =
    match (m.searchPaths names).find? m.files.isExecutable with
    | some path => .ok (some path)
    | none => m.files.firstFile? (m.usualPaths names) := by
  have hsearch : names.findSome? m.onSearchPath? = (m.searchPaths names).find? m.files.isExecutable := by
    rw [searchPaths, List.find?_flatMap]
    induction names with
    | nil => rw [List.findSome?_nil, List.findSome?_nil]
    | cons name rest ih =>
      obtain ⟨hname, hrest⟩ := List.forall_mem_cons.1 h
      rw [List.findSome?_cons, List.findSome?_cons, ih hrest, onSearchPath?, directory_of_noSlash hname]
      rfl
  rw [resolve?, hsearch]
  rfl

theorem resolve?_of_isFirst (h : ∀ name ∈ names, '/' ∉ name.toList) {path : String}
    (hpath : IsFirst m.Runs (m.searchPaths names) path) : m.resolve? names = .ok (some path) := by
  rw [resolve?_eq h, find?_eq_some_iff_isFirst.2 hpath]

theorem resolve?_of_none (h : ∀ name ∈ names, '/' ∉ name.toList)
    (hnone : ∀ path ∈ m.searchPaths names, ¬m.Runs path) :
    m.resolve? names = m.files.firstFile? (m.usualPaths names) := by
  rw [resolve?_eq h, List.find?_eq_none.2 hnone]

theorem Runs.stops {path : String} (h : m.Runs path) : m.files.Stops path := by
  rw [FileTree.Stops, FileTree.fileAt_of_isExecutable h]
  simp

theorem isFirst_runs_of_stops {paths : List String} {path : String} (h : IsFirst m.files.Stops paths path)
    (hruns : m.Runs path) : IsFirst m.Runs paths path := by
  obtain ⟨-, before, behind, hsplit, hnone⟩ := h
  exact ⟨hruns, before, behind, hsplit, fun p hp hp' => hnone p hp hp'.stops⟩

theorem FindsRunnable.of_isFirst {path : String}
    (h : IsFirst m.Runs (m.searchPaths names ++ m.usualPaths names) path) : m.FindsRunnable names (.ok (some path)) where
  none_iff := by
    simp only [Except.ok.injEq, reduceCtorEq, false_iff]
    intro hnone
    exact hnone path h.mem h.1
  some_iff other := by
    rw [Except.ok.injEq, Option.some.injEq]
    constructor
    · rintro rfl
      exact h
    · exact h.unique

theorem FindsRunnable.of_none (h : ∀ path ∈ m.searchPaths names ++ m.usualPaths names, ¬m.Runs path) :
    m.FindsRunnable names (.ok none) where
  none_iff := by simpa using h
  some_iff path := by
    simp only [Except.ok.injEq, reduceCtorEq, false_iff]
    intro hpath
    exact h path hpath.mem hpath.1

theorem FindsRunnable.ne_error {answer : Except PathError (Option String)} (h : m.FindsRunnable names answer)
    (e : PathError) : answer ≠ .error e := by
  by_cases hnone : ∀ path ∈ m.searchPaths names ++ m.usualPaths names, ¬m.Runs path
  · rw [h.none_iff.2 hnone]
    simp
  · simp only [not_forall, not_not] at hnone
    obtain ⟨path, hmem, hruns⟩ := hnone
    obtain ⟨first, hfirst⟩ := exists_isFirst ⟨path, hmem, hruns⟩
    rw [(h.some_iff first).2 hfirst]
    simp

/-- The ways in which a search goes, and what comes of each. -/
inductive Course (m : Machine) (names : List String) : Except PathError (Option String) → Prop where
  | onPath {path : String} (first : IsFirst m.Runs (m.searchPaths names) path) : Course m names (.ok (some path))
  | absent (unfound : ∀ path ∈ m.searchPaths names, ¬m.Runs path)
      (empty : ∀ path ∈ m.usualPaths names, ¬m.files.Stops path) : Course m names (.ok none)
  | installed {path : String} (unfound : ∀ path ∈ m.searchPaths names, ¬m.Runs path)
      (first : IsFirst m.files.Stops (m.usualPaths names) path) (file : m.files.fileAt path = .ok true) :
      Course m names (.ok (some path))
  | refused {path : String} {e : PathError} (unfound : ∀ path ∈ m.searchPaths names, ¬m.Runs path)
      (first : IsFirst m.files.Stops (m.usualPaths names) path) (refusal : m.files.fileAt path = .error e) :
      Course m names (.error e)

section
variable (h : ∀ name ∈ names, '/' ∉ name.toList)
include h

theorem resolve?_course : m.Course names (m.resolve? names) := by
  by_cases hsearch : ∃ p ∈ m.searchPaths names, m.Runs p
  · obtain ⟨path, hpath⟩ := exists_isFirst hsearch
    rw [resolve?_of_isFirst h hpath]
    exact .onPath hpath
  have hnone : ∀ p ∈ m.searchPaths names, ¬m.Runs p := by simpa using hsearch
  rw [resolve?_of_none h hnone]
  by_cases hstops : ∃ p ∈ m.usualPaths names, m.files.Stops p
  · obtain ⟨path, hpath⟩ := exists_isFirst hstops
    rw [FileTree.firstFile?_of_isFirst hpath]
    match hat : m.files.fileAt path with
    | .ok true => exact .installed hnone hpath hat
    | .ok false => exact absurd hat hpath.1
    | .error e => exact .refused hnone hpath hat
  · have hempty : ∀ p ∈ m.usualPaths names, ¬m.files.Stops p := by simpa using hstops
    rw [FileTree.firstFile?_of_none hempty]
    exact .absent hnone hempty

theorem resolve?_of_installed (hnone : ∀ path ∈ m.searchPaths names, ¬m.Runs path) {path : String}
    (hfirst : IsFirst m.files.Stops (m.usualPaths names) path) :
    m.resolve? names = (m.files.fileAt path).map fun _ => some path := by
  rw [resolve?_of_none h hnone, FileTree.firstFile?_of_isFirst hfirst]

theorem findsRunnable_iff : m.FindsRunnable names (m.resolve? names) ↔
    (∃ p ∈ m.searchPaths names, m.Runs p) ∨
      ∀ path, IsFirst m.files.Stops (m.usualPaths names) path → m.Runs path := by
  generalize hanswer : m.resolve? names = answer
  have hcourse : m.Course names answer := hanswer ▸ resolve?_course h
  cases hcourse with
  | onPath hfirst => exact iff_of_true (.of_isFirst (hfirst.append _)) (.inl ⟨_, hfirst.mem, hfirst.1⟩)
  | absent hnone hempty =>
    refine iff_of_true (.of_none ?_) (.inr fun path hpath => absurd hpath.1 (hempty path hpath.mem))
    exact List.forall_mem_append.2 ⟨hnone, fun p hp hruns => hempty p hp hruns.stops⟩
  -- The search stops at a file that cannot be run; only there it may miss a later one that can.
  | @installed path hnone hfirst hfile =>
    constructor
    · intro hfinds
      have hruns : m.Runs path := ((hfinds.some_iff path).1 rfl).1
      exact .inr fun other hother => hfirst.unique hother ▸ hruns
    · rintro (⟨p, hp, hfound⟩ | hall)
      · exact absurd hfound (hnone p hp)
      · refine .of_isFirst ((isFirst_append_of_none hnone).2 ?_)
        exact isFirst_runs_of_stops hfirst (hall path hfirst)
  | @refused path e hnone hfirst hrefused =>
    refine iff_of_false (fun hfinds => hfinds.ne_error e rfl) ?_
    rintro (⟨p, hp, hfound⟩ | hall)
    · exact hnone p hp hfound
    · rw [FileTree.fileAt_of_isExecutable (hall path hfirst)] at hrefused
      cases hrefused

end

/-- How a program is found, for names without a directory. -/
structure Located (m : Machine) (names : List String) : Prop where
  /-- A program on the search path is found first. Otherwise, the first file in the usual directories is. -/
  some_iff : ∀ path, m.resolve? names = .ok (some path) ↔ IsFirst m.Runs (m.searchPaths names) path ∨
    (∀ p ∈ m.searchPaths names, ¬m.Runs p) ∧ IsFirst m.files.Stops (m.usualPaths names) path ∧
      m.files.fileAt path = .ok true
  none_iff : m.resolve? names = .ok none ↔
    (∀ p ∈ m.searchPaths names, ¬m.Runs p) ∧ ∀ p ∈ m.usualPaths names, ¬m.files.Stops p
  error_iff : ∀ e, m.resolve? names = .error e ↔ (∀ p ∈ m.searchPaths names, ¬m.Runs p) ∧
    ∃ path, IsFirst m.files.Stops (m.usualPaths names) path ∧ m.files.fileAt path = .error e
  /-- The search keeps what it is for exactly if it does not end at a file that cannot be run. -/
  keeps_iff : m.FindsRunnable names (m.resolve? names) ↔ (∃ p ∈ m.searchPaths names, m.Runs p) ∨
    ∀ path, IsFirst m.files.Stops (m.usualPaths names) path → m.Runs path
  /-- A program can be run from a path where a directory has an executable file with the name. -/
  runs_iff : ∀ directory name, IsName name → ¬Path.IsDots name → (m.Runs (Path.join directory name) ↔
    FileTree.IsUsable (Path.join directory name) ∧ ∃ content, m.files.Has directory name (.file content true))
  runs_normal_iff : ∀ directory name, IsName name → ¬Path.IsDots name →
    (m.Runs (Path.normal (Path.join directory name)) ↔ FileTree.IsUsable (Path.normal (Path.join directory name)) ∧
      ∃ content, m.files.Has directory name (.file content true))
  /-- For a file it does not matter whether it is executable. -/
  file_iff : ∀ directory name, IsName name → ¬Path.IsDots name →
    (m.files.fileAt (Path.normal (Path.join directory name)) = .ok true ↔
      FileTree.IsUsable (Path.normal (Path.join directory name)) ∧
        ∃ content executable, m.files.Has directory name (.file content executable))

/-- **Looking for a program.** On every machine and for all names without a directory: a program on the search path is
found; without one, the first file in the usual directories is given, whether it can be run or not. -/
theorem program_located (m : Machine) {names : List String} (h : ∀ name ∈ names, '/' ∉ name.toList) :
    m.Located names where
  some_iff path := by
    constructor
    · intro hpath
      have hcourse := hpath ▸ resolve?_course h
      cases hcourse with
      | onPath hfirst => exact .inl hfirst
      | installed hnone hfirst hfile => exact .inr ⟨hnone, hfirst, hfile⟩
    · rintro (hfirst | ⟨hnone, hfirst, hfile⟩)
      · exact resolve?_of_isFirst h hfirst
      · rw [resolve?_of_installed h hnone hfirst, hfile, Except.map]
  none_iff := by
    constructor
    · intro hnothing
      have hcourse := hnothing ▸ resolve?_course h
      cases hcourse with
      | absent hnone hempty => exact ⟨hnone, hempty⟩
    · rintro ⟨hnone, hempty⟩
      rw [resolve?_of_none h hnone, FileTree.firstFile?_of_none hempty]
  error_iff e := by
    constructor
    · intro herror
      have hcourse := herror ▸ resolve?_course h
      cases hcourse with
      | refused hnone hfirst hrefused => exact ⟨hnone, _, hfirst, hrefused⟩
    · rintro ⟨hnone, path, hfirst, hrefused⟩
      rw [resolve?_of_installed h hnone hfirst, hrefused, Except.map]
  keeps_iff := findsRunnable_iff h
  runs_iff directory name hname hdots := by
    rw [Runs, FileTree.isExecutable_iff]
    simp only [FileTree.node_join hname hdots, exists_and_left]
  runs_normal_iff directory name hname hdots := by
    rw [Runs, FileTree.isExecutable_iff]
    simp only [FileTree.node_normal_join hname hdots, exists_and_left]
  file_iff directory name hname hdots := by
    rw [FileTree.fileAt_eq_true_iff]
    simp only [FileTree.node_normal_join hname hdots, exists_and_left]

/-- The second name is in a directory before the one where the first name is; one file there cannot be run. -/
def searchedMachine : Machine where
  files := .ofFiles [("bin/ffmpeg", .file [] false), ("bin/ffmpeg.exe", .file [] true), ("opt/ffmpeg", .file [] true)]
  searchPath := "bin:opt"

theorem program_located_searched : (∀ name ∈ encoderNames, '/' ∉ name.toList) ∧
    searchedMachine.Located encoderNames ∧ searchedMachine.resolve? encoderNames = .ok (some "opt/ffmpeg") :=
  ⟨by decide, program_located searchedMachine (by decide), by decide +kernel⟩

/-- A file in the first usual directory cannot be run, and the program in the second one is not found. -/
theorem program_hidden :
    let m : Machine :=
      { files := .ofFiles [("v/ffmpeg", .file [] false), ("w/ffmpeg", .file [] true)], wellKnown := ["v", "w"] }
    m.resolve? ["ffmpeg"] = .ok (some "v/ffmpeg") ∧ ¬m.Runs "v/ffmpeg" ∧ m.Runs "w/ffmpeg" ∧
      ¬m.FindsRunnable ["ffmpeg"] (m.resolve? ["ffmpeg"]) := by
  intro m
  have hresolve : m.resolve? ["ffmpeg"] = .ok (some "v/ffmpeg") := by decide +kernel
  have hnot : ¬m.Runs "v/ffmpeg" := by
    unfold Runs
    decide +kernel
  refine ⟨hresolve, hnot, ?_, ?_⟩
  · unfold Runs
    decide +kernel
  · intro hfinds
    exact hnot ((hfinds.some_iff "v/ffmpeg").1 hresolve).1

end Machine

end Thumbnailer
