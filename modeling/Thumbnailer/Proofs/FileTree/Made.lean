import Thumbnailer.Proofs.Destinations.Paths
import Thumbnailer.Proofs.FileTree.Extended

/-!
# Directories that are made

When a directory and those above it could be made the path leads to a directory, and all that was there before
is still there: `makeDirectories_made`.
-/

namespace Thumbnailer

namespace Path

/-- The path is not empty and ends with no slash. -/
def EndsInName (path : String) : Prop := ∃ c, path.toList.getLast? = some c ∧ c ≠ '/'

/-- A path as it stands before a name: it ends in a name itself, or it has only slashes. -/
def Trimmed (path : String) : Prop := EndsInName path ∨ ∀ c ∈ path.toList, c = '/'

theorem directory_trimmed (path : String) : Trimmed (directory path) := by
  have hcases := unslashed_cases (path.toList.reverse.dropWhile (· != '/')).reverse
  rw [Trimmed, EndsInName, directory, String.toList_ofList]
  exact hcases.symm

theorem EndsInName.base_ne {path : String} (h : EndsInName path) : base path ≠ "" := by
  obtain ⟨c, hlast, hc⟩ := h
  obtain ⟨before, hbefore⟩ := List.getLast?_eq_some_iff.1 hlast
  simp [base, hbefore, hc]

theorem base_of_slashes {path : String} (h : ∀ c ∈ path.toList, c = '/') : base path = "" := by
  cases hr : path.toList.reverse with
  | nil => simp [base, hr]
  | cons c rest =>
    have hc := h c (by rw [← List.mem_reverse, hr]; simp)
    simp [base, hr, hc]

theorem directory_length_lt {path : String} (h : EndsInName path) : (directory path).length < path.length := by
  obtain ⟨front, n, -, hpath, hfront⟩ := eq_directory_append path
  have hbase : 0 < (base path).length := by
    rw [← String.length_toList]
    exact List.length_pos_iff.2 (by simpa using h.base_ne)
  have hlength := congrArg String.length hpath
  rw [hfront, String.length_append, String.length_append] at hlength
  omega

theorem directory_of_slashes {path : String} (h : ∀ c ∈ path.toList, c = '/') : directory path = path := by
  obtain ⟨front, hfront, hpath⟩ := eq_front_append_base path
  rw [base_of_slashes h, String.append_empty] at hpath
  subst hpath
  have := directory_append hfront (show '/' ∉ "".toList by simp)
  rwa [String.append_empty, unslashed_of_all h, String.ofList_toList] at this

end Path

namespace FileTree

variable {t t' : FileTree} {path : String}

/-! ## Names of joined paths -/

theorem names_append_slash (front rest : String) : names (front ++ "/" ++ rest) = names front ++ names rest := by
  have hlist : (front ++ "/" ++ rest).toList = front.toList ++ '/' :: rest.toList := by simp
  rw [names, hlist, List.splitOn_append_cons_self, List.map_append]
  rfl

theorem names_of_noSlash (name : String) (h : '/' ∉ name.toList) : names name = [name] := by
  have hsingle : name.toList.splitOn '/' = [name.toList] := List.splitOn_eq_singleton h
  rw [names, hsingle, List.map_singleton, String.ofList_toList]

theorem start_append (t : FileTree) {front : String} (h : front ≠ "") (rest : String) :
    t.start (front ++ rest) = t.start front := by
  have hhead : (front ++ rest).toList.head? = front.toList.head? := by
    obtain ⟨c, more, hfront⟩ := List.exists_cons_of_ne_nil (show front.toList ≠ [] by simpa using h)
    simp [hfront]
  rw [start, start, hhead]

theorem Holds.append_slash (h : t.Holds path) (hpath : path ≠ "") : t.Holds (path ++ "/") := by
  obtain ⟨place, hfollow, hplace⟩ := h
  have hnames : names (path ++ "/") = names path ++ [""] := by
    have hsplit := names_append_slash path ""
    rwa [names_of_noSlash "" (by simp), String.append_empty] at hsplit
  refine ⟨place, ?_, hplace⟩
  rw [start_append t hpath, hnames, follow_append, hfollow]
  simp [Except.bind, follow, hplace]

theorem Holds.append_slashes (h : t.Holds path) (hpath : path ≠ "") (n : Nat) :
    t.Holds (path ++ String.ofList (List.replicate n '/')) := by
  induction n with
  | zero => simpa using h
  | succ n ih =>
    have hmore := ih.append_slash (by simp [hpath])
    rw [List.replicate_succ', String.ofList_append, ← String.append_assoc]
    exact hmore

theorem Holds.append_dot (h : t.Holds path) (hlast : path.toList.getLast? = some '/') : t.Holds (path ++ ".") := by
  obtain ⟨before, hbefore⟩ := List.getLast?_eq_some_iff.1 hlast
  have hpath : path = String.ofList before ++ "/" := by
    rw [← String.toList_inj, hbefore]
    simp
  have hne : path ≠ "" := by rintro rfl; simp at hlast
  have hnames : names path = names (String.ofList before) ++ [""] := by
    have hsplit := names_append_slash (String.ofList before) ""
    rwa [names_of_noSlash "" (by simp), String.append_empty, ← hpath] at hsplit
  have hnames' : names (path ++ ".") = names (String.ofList before) ++ ["."] := by
    rw [hpath, names_append_slash, names_of_noSlash "." (by decide)]
  obtain ⟨place, hfollow, hplace⟩ := h
  rw [hnames] at hfollow
  obtain ⟨next, hbefore, hlast⟩ := follow_append_ok hfollow
  have hnext := directory_of_follow hlast
  refine ⟨next, ?_, hnext⟩
  rw [start_append t hne, hnames', follow_append, hbefore]
  simp [Except.bind, follow, hnext]

/-! ## One directory -/

theorem addDirectory_made (hpath : Path.EndsInName path) (h : t.addDirectory path = .ok t') :
    t.Extends t' ∧ t'.Holds path := by
  obtain ⟨c, hlast, hc⟩ := hpath
  obtain ⟨parent, hfollow, hparent, -, name, hname, ⟨hempty, hdot, hdots⟩, hshort, hfree, rfl⟩ := addDirectory_ok h
  have hextends := extends_insert hfree
  refine ⟨hextends, parent ++ [name], ?_, ?_⟩
  · rw [Path.dropSlashes_of_getLast? hlast hc, String.ofList_toList] at hfollow hname
    have hne : names path ≠ [] := by simp [names, List.splitOn_ne_nil]
    -- The way to the parent leads there as before, and one step further to what is new.
    have hsplit : names path = (names path).dropLast ++ [name] := by
      rw [List.getLast?_eq_some_getLast hne, Option.getD_some] at hname
      rw [← hname, List.dropLast_concat_getLast hne]
    rw [hsplit, follow_append, hextends.start, hextends.follow (follow_opened hfollow)]
    simp [Except.bind, follow, hextends.node _ _ hparent, hempty, hdot, hdots, hshort]
  · simp [node?, OrderedMap.get?_insert_self]

theorem addDirectory_slashes (hpath : ∀ c ∈ path.toList, c = '/') : t.addDirectory path ≠ .ok t' := by
  intro h
  obtain ⟨parent, -, -, -, name, hname, ⟨hempty, -⟩, -⟩ := addDirectory_ok h
  have hnone : Path.dropSlashes path.toList = [] := by
    rw [Path.dropSlashes, Text.stripEnd, List.reverse_eq_nil_iff, List.dropWhile_eq_nil_iff]
    simpa using hpath
  rw [hnone, String.ofList_nil, names_of_noSlash _ (by simp)] at hname
  exact hempty hname.symm

theorem makeLast_made (hpath : Path.Trimmed path) (h : t.makeLast path = .ok t') :
    t.Extends t' ∧ t'.Holds path := by
  unfold makeLast at h
  split at h
  · cases h
  · cases hadd : t.addDirectory path with
    | ok made =>
      simp only [hadd, Except.ok.injEq] at h
      subst h
      rcases hpath with hpath | hpath
      · exact addDirectory_made hpath hadd
      · exact absurd hadd (addDirectory_slashes hpath)
    | error reason =>
      simp only [hadd] at h
      split at h
      · next hdirectory =>
        obtain rfl := Except.ok.inj h
        exact ⟨.refl t, holds_of_isDirectory hdirectory⟩
      · cases h

/-! ## A directory and those above it -/

theorem splitLast_of_endsInName (h : Path.EndsInName path) :
    splitLast path = (Path.directory path, Path.base path) := by
  simp [splitLast, h.base_ne]

theorem splitLast_of_slashes (h : ∀ c ∈ path.toList, c = '/') : splitLast path = (path, "") := by
  simp [splitLast, Path.base_of_slashes h, Path.directory_of_slashes h]

theorem Holds.of_directory (h : t.Holds (Path.directory path)) (hdirectory : Path.directory path ≠ "")
    (htail : Path.base path = ".") : t.Holds path := by
  obtain ⟨front, n, hfolder, hpath, hfront⟩ := Path.eq_directory_append path
  have hholds : t.Holds front := hfront ▸ h.append_slashes hdirectory n
  have hne : front.toList ≠ [] := by simp [hfront, hdirectory]
  rw [hpath, htail]
  exact hholds.append_dot (hfolder.resolve_left hne)

theorem makeDirectoriesWithin_made {fuel : Nat} (hfuel : path.length < fuel) (hpath : Path.Trimmed path)
    (h : t.makeDirectoriesWithin fuel path = (.ok (), t')) : t.Extends t' ∧ t'.Holds path := by
  induction fuel generalizing t t' path with
  | zero => exact absurd hfuel (Nat.not_lt_zero _)
  | succ fuel ih =>
    rw [makeDirectoriesWithin] at h
    dsimp only at h
    split at h
    case isTrue =>
      cases hmake : t.makeLast path with
      | error e => simp [hmake] at h
      | ok v =>
        obtain rfl : v = t' := by simpa [hmake] using h
        exact makeLast_made hpath hmake
    case isFalse hdeep =>
      -- The directory above is made first. Its path is shorter, which keeps the fuel above the length.
      have hname : Path.EndsInName path := by
        rcases hpath with hname | hslashes
        · exact hname
        · simp [splitLast_of_slashes hslashes] at hdeep
      rw [splitLast_of_endsInName hname] at h hdeep
      have hhead : Path.directory path ≠ "" := by
        intro hempty
        simp [hempty] at hdeep
      cases hmake : t.makeDirectoriesWithin fuel (Path.directory path) with
      | mk made between =>
        cases made with
        | error e => simp [hmake] at h
        | ok =>
          have hshort := Path.directory_length_lt hname
          obtain ⟨hextends, hholds⟩ := ih (by omega) (Path.directory_trimmed path) hmake
          simp only [hmake] at h
          split at h
          case isTrue hdot =>
            obtain rfl : between = t' := by simpa using h
            exact ⟨hextends, hholds.of_directory hhead hdot⟩
          case isFalse =>
            cases hmake : between.makeLast path with
            | error e => simp [hmake] at h
            | ok v =>
              obtain rfl : v = t' := by simpa [hmake] using h
              obtain ⟨hextends', hmade⟩ := makeLast_made hpath hmake
              exact ⟨hextends.trans hextends', hmade⟩

theorem makeDirectories_made (hpath : Path.Trimmed path) (h : t.makeDirectories path = (.ok (), t')) :
    t.Extends t' ∧ t'.Holds path := by
  delta makeDirectories at h
  exact makeDirectoriesWithin_made (Nat.lt_succ_self _) hpath h

end FileTree

end Thumbnailer
