import Thumbnailer.FileTree

/-!
# Trees that are extended

Whatever a path leads to in a tree it leads to in every tree that has more entries. Making a directory extends
the tree, and the path leads to it then.
-/

namespace Thumbnailer.FileTree

variable {t t' t'' : FileTree} {here place : Place} {path : String}

/-- All that stands in a tree stands in the other one, too. -/
structure Extends (t t' : FileTree) : Prop where
  current : t'.current = t.current
  node : ∀ place n, t.node? place = some n → t'.node? place = some n

theorem Extends.refl (t : FileTree) : Extends t t := ⟨rfl, fun _ _ h => h⟩

theorem Extends.trans (h : Extends t t') (h' : Extends t' t'') : Extends t t'' where
  current := h'.current.trans h.current
  node place n hn := h'.node place n (h.node place n hn)

/-! ## Following names -/

theorem follow_cons (t : FileTree) (here : Place) (name : String) (rest : List String) :
    t.follow here (name :: rest) = (t.follow here [name]).bind fun next => t.follow next rest := by
  rw [follow, follow]
  split
  · rfl
  · rfl
  · split
    · rfl
    · split
      · rfl
      · split
        · rfl
        · split
          · rfl
          · split <;> rfl

theorem follow_append (t : FileTree) (here : Place) (first rest : List String) :
    t.follow here (first ++ rest) = (t.follow here first).bind fun next => t.follow next rest := by
  induction first generalizing here with
  | nil => rfl
  | cons name first ih =>
    rw [List.cons_append, follow_cons, follow_cons t here name first]
    cases t.follow here [name] with
    | error e => rfl
    | ok next => exact ih next

theorem follow_append_ok {first rest : List String} (h : t.follow here (first ++ rest) = .ok place) :
    ∃ next, t.follow here first = .ok next ∧ t.follow next rest = .ok place := by
  rw [follow_append] at h
  cases hfirst : t.follow here first with
  | error e => simp [hfirst, Except.bind] at h
  | ok next => exact ⟨next, rfl, by simpa [hfirst, Except.bind] using h⟩

theorem directory_of_follow {name : String} (h : t.follow here [name] = .ok place) :
    t.node? here = some .directory := by
  rw [follow] at h
  split at h
  · cases h
  · cases h
  · next hhere => exact hhere

/-- The tree as somebody sees it who may search all directories. -/
def opened (t : FileTree) : FileTree := { t with closed := [] }

@[simp] theorem node?_opened (t : FileTree) (here : Place) : t.opened.node? here = t.node? here := rfl

@[simp] theorem not_mem_closed_opened (t : FileTree) (here : Place) : here ∉ t.opened.closed := List.not_mem_nil

theorem follow_opened {names : List String} (h : t.follow here names = .ok place) :
    t.opened.follow here names = .ok place := by
  induction names generalizing here with
  | nil => exact h
  | cons name rest ih =>
    rw [follow] at h ⊢
    split at h
    · cases h
    · cases h
    · next hhere =>
      rw [node?_opened, hhere]
      by_cases hempty : name = ""
      · simp only [if_pos hempty] at h ⊢
        exact ih h
      simp only [if_neg hempty, if_neg (t.not_mem_closed_opened here)] at h ⊢
      split at h
      · cases h
      by_cases hdot : name = "."
      · rw [if_pos hdot] at h ⊢
        exact ih h
      rw [if_neg hdot] at h ⊢
      by_cases hup : name = ".."
      · rw [if_pos hup] at h ⊢
        exact ih h
      rw [if_neg hup] at h ⊢
      split at h
      · cases h
      · next hshort =>
        rw [if_neg hshort]
        exact ih h

theorem Extends.follow (h : Extends t t') {names : List String} (hfollow : t.opened.follow here names = .ok place) :
    t'.opened.follow here names = .ok place := by
  induction names generalizing here with
  | nil => exact hfollow
  | cons name rest ih =>
    obtain ⟨next, hone, hrest⟩ := follow_append_ok (show t.opened.follow here ([name] ++ rest) = .ok place from hfollow)
    have hhere := directory_of_follow hone
    have hone' : t'.opened.follow here [name] = .ok next := by
      rw [FileTree.follow, hhere] at hone
      rw [FileTree.follow, node?_opened, h.node _ _ hhere]
      exact hone
    rw [follow_cons, hone']
    exact ih hrest

/-! ## Directories that are there -/

/-- The path leads to a directory, whether it may be searched or not. -/
def Holds (t : FileTree) (path : String) : Prop :=
  ∃ place, t.opened.follow (t.start path) (names path) = .ok place ∧ t.node? place = some .directory

theorem Extends.start (h : Extends t t') (path : String) : t'.start path = t.start path := by
  rw [FileTree.start, FileTree.start, h.current]

theorem Extends.holds (h : Extends t t') (hpath : t.Holds path) : t'.Holds path := by
  obtain ⟨place, hfollow, hplace⟩ := hpath
  exact ⟨place, h.start path ▸ h.follow hfollow, h.node _ _ hplace⟩

theorem lookUp_ok {n : Node} (h : t.lookUp path = .ok n) :
    ∃ place, t.follow (t.start path) (names path) = .ok place ∧ t.node? place = some n := by
  unfold lookUp at h
  cases hchecked : checked path with
  | error e => simp [hchecked, bind, Except.bind] at h
  | ok =>
    cases hfollow : t.follow (t.start path) (names path) with
    | error e => simp [hchecked, hfollow, bind, Except.bind] at h
    | ok place =>
      cases hnode : t.node? place with
      | none => simp [hchecked, hfollow, hnode, bind, Except.bind] at h
      | some m =>
        obtain rfl : m = n := by simpa [hchecked, hfollow, hnode, bind, Except.bind, pure, Except.pure] using h
        exact ⟨place, rfl, hnode⟩

theorem holds_of_isDirectory (h : t.isDirectory path = true) : t.Holds path := by
  rw [isDirectory, decide_eq_true_eq, node] at h
  split at h
  · cases h
  · cases hlook : t.lookUp path with
    | error e => simp [hlook, Except.toOption] at h
    | ok n =>
      obtain rfl : n = .directory := by simpa [hlook, Except.toOption] using h
      obtain ⟨place, hfollow, hplace⟩ := lookUp_ok hlook
      exact ⟨place, follow_opened hfollow, hplace⟩

/-! ## A directory is made -/

/-- What `addDirectory` does when it does not fail: one directory is new, in one that is there. -/
theorem addDirectory_ok (h : t.addDirectory path = .ok t') :
    ∃ parent, t.follow (t.start path) (names (String.ofList (Path.dropSlashes path.toList))).dropLast = .ok parent ∧
      t.node? parent = some .directory ∧ parent ∉ t.closed ∧
      ∃ name, (names (String.ofList (Path.dropSlashes path.toList))).getLast?.getD "" = name ∧
        (name ≠ "" ∧ name ≠ "." ∧ name ≠ "..") ∧ ¬name.utf8ByteSize > nameLimit ∧
        t.node? (parent ++ [name]) = none ∧
        t' = { t with entries := t.entries.insert (parent ++ [name]) .directory } := by
  unfold addDirectory at h
  cases hchecked : checked path with
  | error e => simp [hchecked, bind, Except.bind] at h
  | ok =>
    cases hfollow : t.follow (t.start path) (names (String.ofList (Path.dropSlashes path.toList))).dropLast with
    | error e => simp [hchecked, hfollow, bind, Except.bind] at h
    | ok parent =>
      refine ⟨parent, rfl, ?_⟩
      simp only [hchecked, hfollow, bind, Except.bind] at h
      split at h
      · cases h
      · cases h
      · next hparent =>
        split at h
        · cases h
        next hempty =>
        split at h
        · cases h
        next hopen =>
        refine ⟨hparent, hopen, _, rfl, ?_⟩
        split at h
        · cases h
        next hplain =>
        split at h
        · cases h
        next hshort =>
        split at h
        · cases h
        next hfree =>
        refine ⟨⟨hempty, ?_⟩, hshort, by simpa using hfree, (Except.ok.inj h).symm⟩
        simpa [not_or] using hplain

theorem extends_insert (h : t.node? place = none) :
    t.Extends { t with entries := t.entries.insert place .directory } where
  current := rfl
  node q n hq := by
    have hne : place ≠ q := by
      rintro rfl
      simp [h] at hq
    unfold node? at hq ⊢
    split
    · simpa [*] using hq
    · next hempty => simpa [hempty, OrderedMap.get?_insert_of_ne _ _ hne] using hq

end Thumbnailer.FileTree
