import Mathlib.Data.List.TakeWhile
import Thumbnailer.Destinations

/-!
# Cutting and joining paths

A path that was joined from a directory and a name is cut into these two again. With this a destination tells
the directory, the subdirectory and the name that it was made of.
-/

namespace Thumbnailer.Path

/-! ## Folders -/

/-- A name can follow without a slash between: the path is empty or ends with a slash. -/
def IsFolder (path : String) : Prop := path.toList = [] ∨ path.toList.getLast? = some '/'

/-- A directory with a slash behind it, if it has none. The empty path stays empty. -/
def folder (directory : String) : String :=
  if directory.isEmpty || directory.toList.getLast? = some '/' then directory else directory ++ "/"

theorem folder_isFolder (directory : String) : IsFolder (folder directory) := by
  unfold folder
  split
  case isTrue h => simpa [IsFolder] using h
  case isFalse h => simp [IsFolder]

theorem isFolder_append_slash (path : String) : IsFolder (path ++ "/") := by simp [IsFolder]

theorem join_eq {directory path : String} (h : '/' ∉ path.toList) :
    join directory path = folder directory ++ path := by
  have hrelative : path.toList.head? ≠ some '/' := fun hs => h (List.mem_of_mem_head? hs)
  rw [join, if_neg hrelative, folder]
  split <;> rfl

/-! ## Cutting off a name -/

theorem not_mem_base (path : String) : '/' ∉ (base path).toList := by
  intro h
  have := List.mem_takeWhile_imp (l := path.toList.reverse) (p := (· != '/')) (by simpa [base] using h)
  simp at this

theorem reverse_cut {front : String} {name : List Char} (hfront : IsFolder front) (hname : '/' ∉ name) :
    (front.toList ++ name).reverse.takeWhile (· != '/') = name.reverse ∧
      (front.toList ++ name).reverse.dropWhile (· != '/') = front.toList.reverse := by
  have hall : ∀ c ∈ name.reverse, (c != '/') = true := by
    intro c hc
    simpa using fun h : c = '/' => hname (h ▸ List.mem_reverse.1 hc)
  have hstop : ∀ c, front.toList.reverse.head? = some c → c = '/' := by
    intro c hc
    rw [List.head?_reverse] at hc
    obtain hnil | hlast := hfront
    · simp [hnil] at hc
    · simpa [hlast, eq_comm] using hc
  rw [List.reverse_append, List.takeWhile_append_of_pos hall, List.dropWhile_append_of_pos hall]
  cases hr : front.toList.reverse with
  | nil => simp
  | cons c rest => simp [hstop c (by simp [hr])]

theorem base_append {front name : String} (hfront : IsFolder front) (hname : '/' ∉ name.toList) :
    base (front ++ name) = name := by
  rw [base, String.toList_append, (reverse_cut hfront hname).1]
  simp

/-- What is left of the text before a name: no slashes at the end, unless there is nothing else. -/
def unslashed (front : List Char) : List Char := if front.all (· == '/') then front else dropSlashes front

theorem directory_append {front name : String} (hfront : IsFolder front) (hname : '/' ∉ name.toList) :
    directory (front ++ name) = String.ofList (unslashed front.toList) := by
  rw [directory, String.toList_append, (reverse_cut hfront hname).2, List.reverse_reverse]
  rfl

theorem eq_front_append_base (path : String) : ∃ front, IsFolder front ∧ path = front ++ base path := by
  refine ⟨String.ofList (path.toList.reverse.dropWhile (· != '/')).reverse, ?_, ?_⟩
  · rw [IsFolder, String.toList_ofList, List.getLast?_reverse]
    cases h : path.toList.reverse.dropWhile (· != '/') with
    | nil => simp
    | cons c rest =>
      have := List.dropWhile_get_zero_not (· != '/') path.toList.reverse (by simp [h])
      simpa [h] using this
  · rw [base, ← String.ofList_append, ← List.reverse_append, List.takeWhile_append_dropWhile, List.reverse_reverse,
      String.ofList_toList]

/-! ## A directory stays the same when a name is put behind it -/

theorem unslashed_of_all {front : List Char} (h : ∀ c ∈ front, c = '/') : unslashed front = front :=
  if_pos (by simpa using h)

theorem eq_unslashed_append (front : List Char) : ∃ n, front = unslashed front ++ List.replicate n '/' := by
  by_cases hall : ∀ c ∈ front, c = '/'
  · exact ⟨0, by simp [unslashed_of_all hall]⟩
  · have hslashes : ∀ c ∈ front.reverse.takeWhile (· == '/'), c = '/' := fun c hc => by
      simpa using List.mem_takeWhile_imp hc
    have hsplit := congrArg List.reverse (List.takeWhile_append_dropWhile (p := (· == '/')) (l := front.reverse))
    rw [List.reverse_append, List.reverse_reverse, List.eq_replicate_of_mem hslashes, List.reverse_replicate] at hsplit
    refine ⟨(front.reverse.takeWhile (· == '/')).length, ?_⟩
    rw [unslashed, if_neg (by simpa using hall), dropSlashes, Text.stripEnd, hsplit]

theorem eq_directory_append (path : String) : ∃ front n, IsFolder front ∧ path = front ++ base path ∧
    front = directory path ++ String.ofList (List.replicate n '/') := by
  obtain ⟨front, hfront, hpath⟩ := eq_front_append_base path
  have hdirectory : directory path = String.ofList (unslashed front.toList) := by
    rw [hpath]
    exact directory_append hfront (not_mem_base path)
  obtain ⟨n, hn⟩ := eq_unslashed_append front.toList
  refine ⟨front, n, hfront, hpath, ?_⟩
  rw [hdirectory, ← String.ofList_append, ← hn, String.ofList_toList]

theorem dropSlashes_of_getLast? {front : List Char} {c : Char} (hlast : front.getLast? = some c) (hc : c ≠ '/') :
    dropSlashes front = front := by
  obtain ⟨before, rfl⟩ := List.getLast?_eq_some_iff.1 hlast
  simp [dropSlashes, Text.stripEnd, hc]

theorem unslashed_cases (front : List Char) :
    (∀ c ∈ unslashed front, c = '/') ∨ ∃ c, (unslashed front).getLast? = some c ∧ c ≠ '/' := by
  by_cases hall : ∀ c ∈ front, c = '/'
  · exact .inl (by rwa [unslashed_of_all hall])
  right
  rw [unslashed, if_neg (by simpa using hall), dropSlashes, Text.stripEnd, List.getLast?_reverse]
  cases hrest : front.reverse.dropWhile (· == '/') with
  | nil => exact absurd (by simpa using List.dropWhile_eq_nil_iff.1 hrest) hall
  | cons c rest =>
    have := List.dropWhile_get_zero_not (· == '/') front.reverse (by simp [hrest])
    exact ⟨c, rfl, by simpa [hrest] using this⟩

theorem unslashed_append_slash {front : List Char} {c : Char} (hlast : front.getLast? = some c) (hc : c ≠ '/') :
    unslashed (front ++ ['/']) = front := by
  have hmixed : ¬∀ d ∈ front ++ ['/'], d = '/' := fun h => hc (h c (by simp [List.mem_of_getLast? hlast]))
  have hdrop : dropSlashes (front ++ ['/']) = dropSlashes front := by simp [dropSlashes, Text.stripEnd]
  rw [unslashed, if_neg (by simpa using hmixed), hdrop, dropSlashes_of_getLast? hlast hc]

theorem folder_of_getLast? {directory : String} {c : Char} (hlast : directory.toList.getLast? = some c)
    (hc : c ≠ '/') : folder directory = directory ++ "/" := by
  have hne : directory ≠ "" := by rintro rfl; simp at hlast
  exact if_neg (by simpa [hne, hlast] using hc)

theorem unslashed_folder (front : List Char) :
    unslashed (folder (String.ofList (unslashed front))).toList = unslashed front := by
  generalize hu : unslashed front = u
  obtain hall | ⟨c, hlast, hc⟩ := hu ▸ unslashed_cases front
  · have hself : folder (String.ofList u) = String.ofList u := by
      refine if_pos ?_
      cases hl : u.getLast? with
      | none => simp [List.getLast?_eq_none_iff.1 hl]
      | some c => simp [hl, hall c (List.mem_of_getLast? hl)]
    rw [hself, String.toList_ofList, unslashed_of_all hall]
  · rw [folder_of_getLast? (by rwa [String.toList_ofList]) hc, String.toList_append, String.toList_ofList]
    exact unslashed_append_slash hlast hc

theorem directory_folder_append (path : String) {name : String} (hname : '/' ∉ name.toList) :
    directory (folder (directory path) ++ name) = directory path := by
  rw [directory_append (folder_isFolder _) hname]
  exact congrArg String.ofList (unslashed_folder _)

theorem directory_slash_append {directory name : String} {c : Char} (hlast : directory.toList.getLast? = some c)
    (hc : c ≠ '/') (hname : '/' ∉ name.toList) : Path.directory (directory ++ "/" ++ name) = directory := by
  rw [directory_append (isFolder_append_slash _) hname, String.toList_append]
  exact (congrArg String.ofList (unslashed_append_slash hlast hc)).trans String.ofList_toList

end Thumbnailer.Path
