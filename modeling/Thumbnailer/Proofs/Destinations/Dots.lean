import Thumbnailer.Proofs.Destinations.Components
import Thumbnailer.FileTree

/-!
# Paths without dots

A path is resolved by its text alone: a point stays, two points lead up.
-/

namespace Thumbnailer

namespace Path

/-- A path without dots, except that a relative one can lead up first. -/
@[ext]
structure Resolved where
  root : String
  /-- How many directories up the names start. -/
  up : Nat
  names : List String
deriving DecidableEq, Repr

namespace Resolved

def extend (r : Resolved) (more : List String) : Resolved := { r with names := r.names ++ more }

/-- Goes on to a component. Two points take back the last name; without one they lead up, but nothing is above a
root. -/
def enter (r : Resolved) (component : String) : Resolved :=
  if component ≠ ".." then r.extend [component]
  else if r.names ≠ [] then { r with names := r.names.dropLast }
  else if r.root = "" then { r with up := r.up + 1 }
  else r

def enterAll (r : Resolved) (components : List String) : Resolved := components.foldl enter r

/-- One path leads further down than another one. -/
def Below (r s : Resolved) : Prop := ∃ more, more ≠ [] ∧ r = s.extend more

/-- The root itself: nothing is above. -/
def IsTop (r : Resolved) : Prop := r.root ≠ "" ∧ r.names = []

variable {r : Resolved} {component : String}

@[simp]
theorem extend_names (r : Resolved) (more : List String) : (r.extend more).names = r.names ++ more := rfl

theorem extend_extend (r : Resolved) (more rest : List String) :
    (r.extend more).extend rest = r.extend (more ++ rest) := by
  simp [extend]

theorem extend_inj {s : Resolved} (more : List String) : r.extend more = s.extend more ↔ r = s := by
  simp [extend, Resolved.ext_iff]

theorem enter_name (h : component ≠ "..") : r.enter component = r.extend [component] := if_pos h

theorem enter_up_of_names (h : r.names ≠ []) : r.enter ".." = { r with names := r.names.dropLast } := by
  simp [enter, h]

theorem enter_up_of_relative (h : r.names = []) (hroot : r.root = "") : r.enter ".." = { r with up := r.up + 1 } := by
  simp [enter, h, hroot]

theorem IsTop.enter_up (h : r.IsTop) : r.enter ".." = r := by
  simp [enter, h.1, h.2]

theorem enter_up_names (r : Resolved) : (r.enter "..").names = r.names.dropLast := by
  unfold enter
  split_ifs <;> simp_all

/-- Going up leads elsewhere, unless nothing is above. -/
theorem enter_up_eq_self_iff : r.enter ".." = r ↔ r.IsTop := by
  refine ⟨fun h => ?_, IsTop.enter_up⟩
  have hnames : r.names = [] := by
    by_contra hne
    have hlength := congrArg List.length ((enter_up_names r).symm.trans (congrArg names h))
    have hpos := List.length_pos_iff.2 hne
    rw [List.length_dropLast] at hlength
    omega
  refine ⟨fun hroot => ?_, hnames⟩
  have hup := congrArg up h
  rw [enter_up_of_relative hnames hroot] at hup
  exact absurd hup (by simp)

@[simp]
theorem enterAll_nil : r.enterAll [] = r := rfl

@[simp]
theorem enterAll_cons (components : List String) :
    r.enterAll (component :: components) = (r.enter component).enterAll components := rfl

theorem enterAll_append (first rest : List String) : r.enterAll (first ++ rest) = (r.enterAll first).enterAll rest :=
  List.foldl_append

theorem enterAll_names {components : List String} (h : ".." ∉ components) :
    r.enterAll components = r.extend components := by
  induction components generalizing r with
  | nil => simp [extend]
  | cons component rest ih =>
    obtain ⟨hne, hrest⟩ : component ≠ ".." ∧ ".." ∉ rest := by simpa [eq_comm] using h
    rw [enterAll_cons, enter_name hne, ih hrest, extend_extend, List.singleton_append]

/-- One name is not enough to be below again after going up. -/
theorem not_below_enter_up (h : ¬r.IsTop) {more : List String} (hmore : more.length ≤ 1) :
    ¬Below ((r.enter "..").extend more) r := by
  rintro ⟨rest, hrest, heq⟩
  by_cases hnames : r.names = []
  · have hroot : r.root = "" := by simpa [IsTop, hnames] using h
    have hup := congrArg up heq
    rw [enter_up_of_relative hnames hroot] at hup
    simp [extend] at hup
  · have hlength := congrArg (fun r => r.names.length) heq
    have hpos := List.length_pos_iff.2 hnames
    have hpos' := List.length_pos_iff.2 hrest
    simp only [extend_names, enter_up_names, List.length_append, List.length_dropLast] at hlength
    omega

end Resolved

/-- What a path leads to, told by its text alone. -/
def resolve (path : String) : Resolved := Resolved.enterAll ⟨root path, 0, []⟩ (components path)

theorem resolve_eq (path : String) : resolve path = (resolve (directory path)).enterAll (components (base path)) := by
  rw [resolve, components_eq_directory_base, Resolved.enterAll_append, ← root_directory]
  rfl

/-! ## Roots and names -/

theorem head?_of_root_ne {path : String} (h : root path ≠ "") : path.toList.head? = some '/' := by
  unfold root at h
  split at h <;> simp_all

theorem components_eq_filter_names (path : String) :
    components path = (FileTree.names path).filter fun name => name ≠ "" ∧ name ≠ "." := by
  rw [components, FileTree.names, List.filter_map]
  refine congrArg (List.map String.ofList) (List.filter_congr fun piece _ => ?_)
  have hempty : String.ofList piece = "" ↔ piece = [] := by simp
  have hdot : String.ofList piece = "." ↔ piece = ['.'] := by rw [← String.toList_inj, String.toList_ofList]; rfl
  rw [Bool.eq_iff_iff]
  simp [hempty, hdot]

end Path

end Thumbnailer
