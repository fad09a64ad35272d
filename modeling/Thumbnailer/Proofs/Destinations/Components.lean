import Thumbnailer.Proofs.Destinations.Names
import Thumbnailer.Proofs.Destinations.Paths

/-!
# The components of a path

A path has the components of its directory and behind them those of its base name. From the last component of an
input its name is taken, and that can be dots.
-/

namespace Thumbnailer

namespace Path

/-! ## Directory and base name -/

theorem components_eq (path : String) :
    components path = ((Text.solidPieces '/' path.toList).filter (· != ['.'])).map String.ofList := by
  rw [components, Text.solidPieces, List.filter_filter]
  simp only [Bool.and_comm]

theorem components_append_slash (front back : String) :
    components (front ++ "/" ++ back) = components front ++ components back := by
  simp [components_eq, String.toList_append, Text.solidPieces_separator]

theorem components_append {front : String} (h : IsFolder front) (back : String) :
    components (front ++ back) = components front ++ components back := by
  obtain hnil | hlast := h
  · rw [String.toList_eq_nil_iff.1 hnil, String.empty_append]
    rfl
  · obtain ⟨before, hbefore⟩ := List.getLast?_eq_some_iff.1 hlast
    obtain rfl : front = String.ofList before ++ "/" ++ "" := by
      rw [String.append_empty, ← String.toList_inj, hbefore]
      simp
    rw [components_append_slash, String.append_empty, components_append_slash, List.append_assoc]
    rfl

theorem components_of_noSlash {name : String} (h : '/' ∉ name.toList) :
    components name = if name = "" ∨ name = "." then [] else [name] := by
  rw [components, List.splitOn_eq_singleton h]
  by_cases hempty : name = ""
  · simp [hempty]
  · by_cases hdot : name = "."
    · simp [hdot]
    · have hlist : name.toList ≠ ['.'] := fun heq => hdot (String.toList_inj.1 heq)
      simp [hempty, hdot, hlist]

theorem components_folder (directory : String) : components (folder directory) = components directory := by
  unfold folder
  split
  · rfl
  · have := components_append_slash directory ""
    rwa [String.append_empty, show components "" = [] from rfl, List.append_nil] at this

theorem components_dropSlashes (path : List Char) :
    components (String.ofList (dropSlashes path)) = components (String.ofList path) := by
  simp only [components_eq, String.toList_ofList, dropSlashes, Text.solidPieces_stripEnd]

theorem components_eq_directory_base (path : String) :
    components path = components (directory path) ++ components (base path) := by
  obtain ⟨front, hfront, hpath⟩ := eq_front_append_base path
  have hdirectory : components (directory path) = components front := by
    rw [hpath, directory_append hfront (not_mem_base path), unslashed]
    split
    · rw [String.ofList_toList]
    · rw [components_dropSlashes, String.ofList_toList]
  rw [hdirectory, ← components_append hfront, ← hpath]

/-! ## The root -/

theorem root_eq (path : String) : root path =
    match path.toList.takeWhile (· == '/') with
    | [] => ""
    | [_, _] => "//"
    | _ => "/" := by
  unfold root
  rcases path.toList with _ | ⟨a, _ | ⟨b, _ | ⟨c, rest⟩⟩⟩
  · rfl
  · by_cases ha : a = '/' <;> simp [ha]
  · by_cases ha : a = '/' <;> by_cases hb : b = '/' <;> simp [ha, hb]
  · by_cases ha : a = '/' <;> by_cases hb : b = '/' <;> by_cases hc : c = '/' <;> simp [ha, hb, hc]

/-- What stands behind a character that is no slash does not count, and neither does what starts with one. -/
theorem root_append {front back : String}
    (h : (∃ c ∈ front.toList, c ≠ '/') ∨ back.toList.head? ≠ some '/') : root (front ++ back) = root front := by
  have hstart : (front ++ back).toList.takeWhile (· == '/') = front.toList.takeWhile (· == '/') := by
    rw [String.toList_append, List.takeWhile_append]
    split
    case isFalse => rfl
    case isTrue hlength =>
      have hfront := (List.takeWhile_prefix (· == '/')).eq_of_length hlength
      have hback : back.toList.head? ≠ some '/' := by
        refine h.resolve_left ?_
        rintro ⟨c, hc, hne⟩
        rw [← hfront] at hc
        exact hne (by simpa using List.mem_takeWhile_imp hc)
      rw [hfront]
      cases hlist : back.toList with
      | nil => simp
      | cons c rest => simp_all
  rw [root_eq, root_eq, hstart]

theorem root_folder (directory : String) : root (folder directory) = root directory := by
  unfold folder
  split
  case isTrue => rfl
  case isFalse h =>
    obtain ⟨hne, hlast⟩ : directory ≠ "" ∧ directory.toList.getLast? ≠ some '/' := by simpa using h
    cases hc : directory.toList.getLast? with
    | none => exact absurd (by simpa using hc) hne
    | some c => exact root_append (.inl ⟨c, List.mem_of_getLast? hc, fun heq => hlast (heq ▸ hc)⟩)

theorem root_directory (path : String) : root (directory path) = root path := by
  obtain ⟨front, hfront, hpath⟩ := eq_front_append_base path
  have hbase : (base path).toList.head? ≠ some '/' := fun h => not_mem_base path (List.mem_of_mem_head? h)
  have hroot : root path = root front := by
    rw [hpath]
    exact root_append (.inr hbase)
  obtain ⟨n, hn⟩ := eq_unslashed_append front.toList
  rw [hroot, hpath, directory_append hfront (not_mem_base path)]
  obtain hall | ⟨c, hlast, hc⟩ := unslashed_cases front.toList
  · have hslashes : ∀ c ∈ front.toList, c = '/' := by
      rw [hn]
      simpa [or_imp, forall_and] using hall
    rw [unslashed_of_all hslashes, String.ofList_toList]
  · have hsplit : front = String.ofList (unslashed front.toList) ++ String.ofList (List.replicate n '/') := by
      rw [← String.ofList_append, ← hn, String.ofList_toList]
    conv_rhs => rw [hsplit]
    refine (root_append (.inl ⟨c, ?_, hc⟩)).symm
    simpa using List.mem_of_getLast? hlast

/-! ## Names with extensions -/

/-- What can follow the last point of a name. -/
def IsExtension (text : String) : Prop := text ≠ "" ∧ '.' ∉ text.toList

theorem withoutExtension_append {stem extension : String} (hstem : stem ≠ "") (h : IsExtension extension) :
    withoutExtension (stem ++ "." ++ extension) = stem := by
  have hall : ∀ c ∈ extension.toList.reverse, (c != '.') = true := fun c hc => by
    simpa using fun heq : c = '.' => h.2 (heq ▸ List.mem_reverse.1 hc)
  have hreverse : (stem ++ "." ++ extension).toList.reverse = extension.toList.reverse ++ '.' :: stem.toList.reverse := by
    simp [String.toList_append]
  unfold withoutExtension
  rw [hreverse, List.takeWhile_append_of_pos hall, List.dropWhile_append_of_pos hall]
  simp [hstem, h.1]

theorem withoutExtension_cases (name : String) : withoutExtension name = name ∨
    ∃ extension, IsExtension extension ∧ name = withoutExtension name ++ "." ++ extension := by
  -- Read from its end a name is the extension up to the last point, and then the rest.
  have hcut := List.takeWhile_append_dropWhile (p := (· != '.')) (l := name.toList.reverse)
  have hbehind : ∀ c ∈ name.toList.reverse.takeWhile (· != '.'), c ≠ '.' := fun c hc => by
    simpa using List.mem_takeWhile_imp hc
  unfold withoutExtension
  dsimp only
  split
  case isTrue => exact .inl rfl
  case isFalse hsolid =>
    refine .inr ⟨String.ofList (name.toList.reverse.takeWhile (· != '.')).reverse, ⟨?_, ?_⟩, ?_⟩
    · simp_all
    · simpa using fun hmem => hbehind '.' hmem rfl
    · cases hrest : name.toList.reverse.dropWhile (· != '.') with
      | nil => simp [hrest] at hsolid
      | cons c before =>
        obtain rfl : c = '.' := by
          have := List.dropWhile_get_zero_not (· != '.') name.toList.reverse (by simp [hrest])
          simpa [hrest] using this
        rw [hrest] at hcut
        rw [← String.toList_inj, ← List.reverse_inj]
        simpa [String.toList_append] using hcut.symm

/-- A name that stands for the directory itself or for the one above it. -/
def IsDots (name : String) : Prop := name = "." ∨ name = ".."

theorem IsDots.ne_empty {name : String} (h : IsDots name) : name ≠ "" := by
  rintro rfl
  simp [IsDots] at h

theorem withoutExtension_eq_iff {name dots : String} (h : IsDots dots) :
    withoutExtension name = dots ↔ name = dots ∨ ∃ extension, IsExtension extension ∧ name = dots ++ "." ++ extension := by
  constructor
  · rintro rfl
    exact (withoutExtension_cases name).imp_left Eq.symm
  · rintro (rfl | ⟨extension, hextension, rfl⟩)
    · obtain rfl | rfl := h <;> decide
    · exact withoutExtension_append h.ne_empty hextension

end Path

theorem inputStem_eq (input : String) : inputStem input =
    match (Path.components input).getLast? with
    | some name => Path.withoutExtension name
    | none => "input" := by
  unfold inputStem Path.stem
  rw [Path.components_dropSlashes, String.ofList_toList]
  cases hlast : (Path.components input).getLast? with
  | none => rfl
  | some name =>
    have hname := Path.withoutExtension_isName (Path.components_isName (List.mem_of_getLast? hlast))
    simp [hname.ne_empty]

open Thumbnailer.Path in
/-- The name of an input is dots when its last component is, or is dots with an extension. -/
theorem inputStem_eq_iff {input dots : String} (h : IsDots dots) :
    inputStem input = dots ↔ ∃ last, (components input).getLast? = some last ∧
      (last = dots ∨ ∃ extension, IsExtension extension ∧ last = dots ++ "." ++ extension) := by
  rw [inputStem_eq]
  cases hlast : (components input).getLast? with
  | none =>
    have hinput : "input" ≠ dots := by obtain rfl | rfl := h <;> decide
    simpa using hinput
  | some last => simp [withoutExtension_eq_iff h]

end Thumbnailer
