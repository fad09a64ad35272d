import Thumbnailer.Proofs.Destinations.Dots
import Thumbnailer.Proofs.FileTree.Made

/-!
# What stands in a directory

A path that is joined of a directory and a name leads to what stands under this name in the directory, and so does
its normal form.
-/

namespace Thumbnailer

namespace Path

/-! ## The normal form of a path -/

theorem components_of_mem {path name : String} (h : name ∈ components path) : components name = [name] := by
  have hname := components_isName h
  have hdot : name ≠ "." := by
    rintro rfl
    rw [components_eq_filter_names] at h
    simpa using (List.mem_filter.1 h).2
  rw [components_of_noSlash hname.no_slash, if_neg (by simp [hname.ne_empty, hdot])]

theorem components_intercalate {names : List String} (h : ∀ name ∈ names, components name = [name]) :
    components ("/".intercalate names) = names := by
  induction names with
  | nil => rfl
  | cons name rest ih =>
    obtain ⟨hname, hrest⟩ := List.forall_mem_cons.1 h
    cases rest with
    | nil => rw [String.intercalate_singleton, hname]
    | cons next more =>
      rw [String.intercalate_cons_cons, components_append_slash, hname, ih hrest]
      rfl

theorem root_cases (path : String) : root path = "" ∨ root path = "/" ∨ root path = "//" := by
  unfold root
  split <;> simp

theorem root_eq_empty_iff (path : String) : root path = "" ↔ path.toList.head? ≠ some '/' := by
  constructor
  · intro h hhead
    obtain ⟨rest, hpath⟩ := List.head?_eq_some_iff.1 hhead
    unfold root at h
    split at h <;> simp_all
  · intro h
    by_contra hne
    exact h (head?_of_root_ne hne)

section
variable {path : String} (h : components path ≠ [])
include h

theorem normal_eq : normal path = root path ++ "/".intercalate (components path) := by
  have hne : root path ++ "/".intercalate (components path) ≠ "" := by
    intro hempty
    have hnames : components ("/".intercalate (components path)) = components path :=
      components_intercalate fun _ => components_of_mem
    rw [(String.append_eq_empty_iff.1 hempty).2] at hnames
    exact h hnames.symm
  rw [normal, if_neg (by simpa using hne)]

theorem root_normal : root (normal path) = "" ↔ root path = "" := by
  -- The text behind the root starts with a component, and there is no slash in it.
  have hback : ("/".intercalate (components path)).toList.head? ≠ some '/' := by
    obtain ⟨name, rest, hcomponents⟩ := List.exists_cons_of_ne_nil h
    have hmem : name ∈ components path := by simp [hcomponents]
    have hname : IsName name := components_isName hmem
    obtain ⟨c, more, hlist⟩ := List.exists_cons_of_ne_nil (show name.toList ≠ [] by simpa using hname.ne_empty)
    have hc : c ≠ '/' := by
      rintro rfl
      exact hname.no_slash (by simp [hlist])
    rw [hcomponents]
    cases rest with
    | nil => simp [hlist, hc]
    | cons next more => simp [String.intercalate_cons_cons, hlist, hc]
  rw [normal_eq h, root_append (.inr hback)]
  obtain hroot | hroot | hroot := root_cases path <;> rw [hroot] <;> decide

end

end Path

namespace FileTree

open Thumbnailer.Path

variable {t : FileTree} {here place : Place} {directory name : String} {node : Node}

/-! ## Names in a directory -/

theorem follow_of_closed (hnode : t.node? here = some .directory) (hclosed : here ∈ t.closed) {names : List String}
    (h : ∃ name ∈ names, name ≠ "") : t.follow here names = .error .denied := by
  induction names with
  | nil => simp at h
  | cons name rest ih =>
    rw [follow, hnode]
    by_cases hempty : name = ""
    · simp only [if_pos hempty]
      exact ih (by simpa [hempty] using h)
    · simp only [if_neg hempty, if_pos hclosed]

/-- What is skipped must stand in a directory that may be searched, but so must the name that comes next. -/
theorem follow_skip (hskip : name = "" ∨ name = ".") {rest : List String} (h : ∃ next ∈ rest, next ≠ "") :
    t.follow here (name :: rest) = t.follow here rest := by
  obtain ⟨next, more, rfl⟩ := List.exists_cons_of_ne_nil (List.ne_nil_of_mem h.choose_spec.1)
  rw [follow]
  split
  · next hnode => simp [follow, hnode]
  · next hnode => simp [follow, hnode]
  · next hnode =>
    split
    · rfl
    next hempty =>
    split
    · next hclosed => exact (follow_of_closed hnode hclosed h).symm
    · exact if_pos (hskip.resolve_left hempty)

theorem follow_filter (names : List String) {last : String} (hlast : last ≠ "") :
    t.follow here (names.filter (fun name => name ≠ "" ∧ name ≠ ".") ++ [last]) = t.follow here (names ++ [last]) := by
  induction names generalizing here with
  | nil => rfl
  | cons name rest ih =>
    by_cases hskip : name = "" ∨ name = "."
    · rw [List.filter_cons_of_neg (by simpa [imp_iff_not_or] using hskip), List.cons_append,
        follow_skip hskip ⟨last, by simp, hlast⟩, ih]
    · rw [List.filter_cons_of_pos (by simpa [not_or] using hskip), List.cons_append, List.cons_append, follow_cons,
        follow_cons t here name (rest ++ [last])]
      cases t.follow here [name] with
      | error e => rfl
      | ok next => exact ih

theorem follow_name (hname : IsName name) (hdots : ¬IsDots name) : t.follow here [name] = .ok place ↔
    t.node? here = some .directory ∧ here ∉ t.closed ∧ name.utf8ByteSize ≤ nameLimit ∧ place = here ++ [name] := by
  obtain ⟨hdot, hup⟩ := not_or.1 hdots
  rw [follow]
  split
  · next hnode => simp [hnode]
  · next hnode => simp [hnode]
  · next hnode =>
    rw [if_neg hname.ne_empty, if_neg hdot, if_neg hup]
    split_ifs with hclosed hlong
    · simp [hclosed]
    · simp [Nat.not_le_of_lt hlong]
    · simp [hnode, hclosed, follow, Nat.le_of_not_lt hlong, eq_comm]

theorem follow_empty : t.follow here [""] = .ok place ↔ t.node? here = some .directory ∧ place = here := by
  rw [follow]
  split
  · next hnode => simp [hnode]
  · next hnode => simp [hnode]
  · next hnode =>
    rw [if_pos (by simp), follow, Except.ok.injEq]
    simp [hnode, eq_comm]

theorem follow_append_ok_iff {first rest : List String} : t.follow here (first ++ rest) = .ok place ↔
    ∃ next, t.follow here first = .ok next ∧ t.follow next rest = .ok place := by
  refine ⟨follow_append_ok, ?_⟩
  rintro ⟨next, hfirst, hrest⟩
  rw [follow_append, hfirst]
  exact hrest

theorem names_intercalate {names : List String} (h : ∀ name ∈ names, '/' ∉ name.toList) (hne : names ≠ []) :
    FileTree.names ("/".intercalate names) = names := by
  induction names with
  | nil => exact absurd rfl hne
  | cons name rest ih =>
    obtain ⟨hname, hrest⟩ := List.forall_mem_cons.1 h
    cases rest with
    | nil => rw [String.intercalate_singleton, names_of_noSlash name hname]
    | cons next more =>
      rw [String.intercalate_cons_cons, names_append_slash, names_of_noSlash name hname, ih hrest (by simp),
        List.singleton_append]

theorem names_slash_append (rest : String) : names ("/" ++ rest) = "" :: names rest := by
  have hsplit := names_append_slash "" rest
  rwa [String.empty_append, names_of_noSlash "" (by simp), List.singleton_append] at hsplit

theorem follow_normal {path : String} (h : components path ≠ []) :
    t.follow here (names (normal path)) = t.follow here (components path) := by
  have hslash : ∀ name ∈ components path, '/' ∉ name.toList := fun name hname => (components_isName hname).no_slash
  have hname : ∃ name ∈ components path, name ≠ "" := by
    obtain ⟨name, hmem⟩ := List.exists_mem_of_ne_nil _ h
    exact ⟨name, hmem, (components_isName hmem).ne_empty⟩
  have hnames := names_intercalate hslash h
  have hroot : names (normal path) = components path ∨ names (normal path) = "" :: components path ∨
      names (normal path) = "" :: "" :: components path := by
    rw [normal_eq h]
    obtain hroot | hroot | hroot := root_cases path
    · exact .inl (by rw [hroot, String.empty_append, hnames])
    · exact .inr (.inl (by rw [hroot, names_slash_append, hnames]))
    · refine .inr (.inr ?_)
      rw [hroot, show "//" = "/" ++ "/" by decide, String.append_assoc, names_slash_append, names_slash_append, hnames]
  obtain hroot | hroot | hroot := hroot
  · rw [hroot]
  · rw [hroot, follow_skip (.inl rfl) hname]
  · rw [hroot, follow_skip (.inl rfl) (by simpa using hname), follow_skip (.inl rfl) hname]

theorem names_join (hname : '/' ∉ name.toList) (directory : String) : ∃ front,
    names (join directory name) = front ++ [name] ∧ (names directory = front ∨ names directory = front ++ [""]) := by
  rw [join_eq hname, folder]
  split
  · next hfolder =>
    obtain rfl | hlast : directory = "" ∨ directory.toList.getLast? = some '/' := by simpa using hfolder
    · refine ⟨[], ?_, .inr (names_of_noSlash "" (by simp))⟩
      rw [String.empty_append, names_of_noSlash name hname, List.nil_append]
    · obtain ⟨before, hbefore⟩ := List.getLast?_eq_some_iff.1 hlast
      obtain rfl : directory = String.ofList before ++ "/" ++ "" := by
        rw [String.append_empty, ← String.toList_inj, hbefore]
        simp
      refine ⟨names (String.ofList before), ?_, .inr ?_⟩
      · rw [String.append_empty, names_append_slash, names_of_noSlash name hname]
      · rw [names_append_slash, names_of_noSlash "" (by simp)]
  · refine ⟨names directory, ?_, .inl rfl⟩
    rw [names_append_slash, names_of_noSlash name hname]

theorem components_join_ne_nil (hname : IsName name) (hdots : ¬IsDots name) (directory : String) :
    components (join directory name) ≠ [] := by
  have hdot : name ≠ "." := (not_or.1 hdots).1
  rw [join_eq hname.no_slash, components_append (folder_isFolder directory), components_of_noSlash hname.no_slash]
  simp [hname.ne_empty, hdot]

theorem start_join (hname : IsName name) (t : FileTree) (directory : String) :
    t.start (join directory name) = t.start directory := by
  rw [join_eq hname.no_slash, folder]
  by_cases hempty : directory = ""
  · have hhead : name.toList.head? ≠ some '/' := fun h => hname.no_slash (List.mem_of_mem_head? h)
    simp [hempty, start, hhead]
  · split
    · exact start_append t hempty name
    · rw [String.append_assoc, start_append t hempty]

/-! ## What stands under a name -/

/-- What stands under a name in a directory that may be searched. -/
def Has (t : FileTree) (directory name : String) (node : Node) : Prop :=
  ∃ place, t.follow (t.start directory) (names directory) = .ok place ∧ t.node? place = some .directory ∧
    place ∉ t.closed ∧ name.utf8ByteSize ≤ nameLimit ∧ t.node? (place ++ [name]) = some node

/-- A path that the system looks at. -/
structure IsUsable (path : String) : Prop where
  no_null : '\x00' ∉ path.toList
  ne_empty : path ≠ ""
  short : path.utf8ByteSize ≤ pathLimit

theorem lookUp_eq_ok_iff {path : String} : t.lookUp path = .ok node ↔ path ≠ "" ∧ path.utf8ByteSize ≤ pathLimit ∧
    ∃ place, t.follow (t.start path) (names path) = .ok place ∧ t.node? place = some node := by
  constructor
  · intro h
    refine ⟨?_, ?_, lookUp_ok h⟩
    · rintro rfl
      simp [lookUp, checked, bind, Except.bind] at h
    · by_contra hlong
      have hchecked : checked path = .error .nameTooLong ∨ checked path = .error .noEntry := by
        unfold checked
        split
        · exact .inr rfl
        · rw [if_pos (Nat.lt_of_not_le hlong)]
          exact .inl rfl
      obtain hchecked | hchecked := hchecked <;> simp [lookUp, hchecked, bind, Except.bind] at h
  · rintro ⟨hne, hshort, place, hfollow, hnode⟩
    have hchecked : checked path = .ok () := by
      rw [checked, if_neg (by simpa using hne), if_neg (Nat.not_lt_of_le hshort)]
    simp [lookUp, hchecked, hfollow, hnode, bind, Except.bind, pure, Except.pure]

theorem node_eq_some_iff {path : String} : t.node path = some node ↔ IsUsable path ∧
    ∃ place, t.follow (t.start path) (names path) = .ok place ∧ t.node? place = some node := by
  have hlook : (t.lookUp path).toOption = some node ↔ t.lookUp path = .ok node := by
    cases t.lookUp path <;> simp [Except.toOption]
  unfold FileTree.node
  split
  · next hnull =>
    have hmem : '\x00' ∈ path.toList := by simpa using hnull
    simp only [reduceCtorEq, false_iff]
    exact fun h => h.1.no_null hmem
  · next hnull =>
    rw [hlook, lookUp_eq_ok_iff]
    constructor
    · rintro ⟨hne, hshort, h⟩
      exact ⟨⟨by simpa using hnull, hne, hshort⟩, h⟩
    · rintro ⟨husable, h⟩
      exact ⟨husable.ne_empty, husable.short, h⟩

section
variable (hname : IsName name) (hdots : ¬IsDots name)
include hname hdots

theorem follow_join_iff : t.follow (t.start directory) (names (join directory name)) = .ok place ↔
    ∃ above, t.follow (t.start directory) (names directory) = .ok above ∧ t.node? above = some .directory ∧
      above ∉ t.closed ∧ name.utf8ByteSize ≤ nameLimit ∧ place = above ++ [name] := by
  obtain ⟨front, hjoin, hfront⟩ := names_join hname.no_slash directory
  rw [hjoin, follow_append_ok_iff]
  simp only [follow_name hname hdots]
  obtain rfl | hfront := hfront
  · rfl
  · rw [hfront]
    simp only [follow_append_ok_iff, follow_empty]
    constructor
    · rintro ⟨above, habove, hnode, hrest⟩
      exact ⟨above, ⟨above, habove, hnode, rfl⟩, hnode, hrest⟩
    · rintro ⟨above, ⟨_, hfollow, -, rfl⟩, hnode, hrest⟩
      exact ⟨above, hfollow, hnode, hrest⟩

theorem has_iff : t.Has directory name node ↔
    ∃ place, t.follow (t.start directory) (names (join directory name)) = .ok place ∧ t.node? place = some node := by
  simp only [follow_join_iff hname hdots]
  constructor
  · rintro ⟨above, hfollow, habove, hopen, hshort, hnode⟩
    exact ⟨above ++ [name], ⟨above, hfollow, habove, hopen, hshort, rfl⟩, hnode⟩
  · rintro ⟨_, ⟨above, hfollow, habove, hopen, hshort, rfl⟩, hnode⟩
    exact ⟨above, hfollow, habove, hopen, hshort, hnode⟩

theorem node_join : t.node (join directory name) = some node ↔
    IsUsable (join directory name) ∧ t.Has directory name node := by
  rw [node_eq_some_iff, start_join hname, has_iff hname hdots]

/-- The normal form of a path leads to where the path leads. -/
theorem follow_normal_join : t.follow (t.start directory) (names (normal (join directory name))) =
    t.follow (t.start directory) (names (join directory name)) := by
  obtain ⟨front, hjoin, -⟩ := names_join hname.no_slash directory
  have hkept : (front ++ [name]).filter (fun name => name ≠ "" ∧ name ≠ ".") =
      front.filter (fun name => name ≠ "" ∧ name ≠ ".") ++ [name] := by
    have hdot : name ≠ "." := (not_or.1 hdots).1
    simp [List.filter_append, hname.ne_empty, hdot]
  rw [follow_normal (components_join_ne_nil hname hdots directory), components_eq_filter_names, hjoin, hkept,
    follow_filter front hname.ne_empty]

theorem start_normal_join : t.start (normal (join directory name)) = t.start directory := by
  have hroot := root_normal (components_join_ne_nil hname hdots directory)
  rw [root_eq_empty_iff, root_eq_empty_iff] at hroot
  rw [← start_join hname t directory, start, start]
  exact if_congr (not_iff_not.1 hroot) rfl rfl

theorem node_normal_join : t.node (normal (join directory name)) = some node ↔
    IsUsable (normal (join directory name)) ∧ t.Has directory name node := by
  rw [node_eq_some_iff, start_normal_join hname hdots, follow_normal_join hname hdots, has_iff hname hdots]

end

end FileTree

end Thumbnailer
