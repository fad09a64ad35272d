import Mathlib.Data.Finset.Card
import Mathlib.Data.List.TakeWhile
import Std.Data.String.ToInt
import Thumbnailer.Destinations
import Thumbnailer.Proofs.Text.Pieces

/-!
# The names of inputs

Every input gets a name of its own: the names are different, none is empty, and none holds a slash, so each can
stand for one directory.
-/

namespace Thumbnailer

/-! ## Names without slashes -/

/-- A name can stand for one directory. -/
structure IsName (name : String) : Prop where
  ne_empty : name ≠ ""
  no_slash : '/' ∉ name.toList

namespace Path

theorem components_isName {path component : String} (h : component ∈ components path) : IsName component := by
  obtain ⟨piece, hpiece, rfl⟩ := List.mem_map.1 h
  obtain ⟨hmem, hcounts⟩ := List.mem_filter.1 hpiece
  have hne : piece ≠ [] := by simp_all
  exact ⟨by simpa using hne, by simpa using Text.not_mem_of_mem_splitOn '/' _ piece hmem⟩

theorem withoutExtension_isName {name : String} (h : IsName name) : IsName (withoutExtension name) := by
  unfold withoutExtension
  dsimp only
  split
  case isTrue => exact h
  case isFalse hsplit =>
    obtain ⟨-, hbefore⟩ : _ ∧ ¬((name.toList.reverse.dropWhile (· != '.')).drop 1).isEmpty := by
      simpa using hsplit
    refine ⟨by simpa using hbefore, fun hmem => h.no_slash ?_⟩
    rw [String.toList_ofList, List.mem_reverse] at hmem
    exact List.mem_reverse.1 ((List.dropWhile_sublist _).mem (List.mem_of_mem_drop hmem))

theorem stem_isName {path : String} (h : stem path ≠ "") : IsName (stem path) := by
  unfold stem at h ⊢
  cases hlast : (components path).getLast? with
  | none => simp [hlast, withoutExtension] at h
  | some component => exact withoutExtension_isName (components_isName (List.mem_of_getLast? hlast))

end Path

theorem inputStem_isName (input : String) : IsName (inputStem input) := by
  unfold inputStem
  dsimp only
  split
  case isTrue => exact ⟨by decide, by decide⟩
  case isFalse h => exact Path.stem_isName (by simpa using h)

theorem toList_numbered (stem : String) (n : Nat) :
    (numbered stem n).toList = stem.toList ++ '-' :: Nat.toDigits 10 n := by
  simp [numbered, ToString.toString, Nat.toList_repr]

theorem numbered_isName {stem : String} (h : IsName stem) (n : Nat) : IsName (numbered stem n) := by
  have hdigits : '/' ∉ Nat.toDigits 10 n := fun hmem =>
    absurd (Nat.isDigit_of_mem_toDigits (by omega) (by omega) hmem) (by decide)
  constructor
  · intro hempty
    simpa [toList_numbered] using congrArg String.toList hempty
  · simp [toList_numbered, h.no_slash, hdigits]

theorem numbered_injective (stem : String) : Function.Injective (numbered stem) := by
  intro m n h
  have hlists := congrArg String.toList h
  simp only [toList_numbered, List.append_cancel_left_eq, List.cons.injEq, true_and] at hlists
  exact Nat.repr_injective (String.toList_injective (by simpa [Nat.toList_repr] using hlists))

/-! ## A free number is found -/

theorem OrderedMap.mem_keys {α β : Type} [BEq α] [LawfulBEq α] {m : OrderedMap α β} {k : α}
    (h : (m.get? k).isSome) : k ∈ m.map Prod.fst := by
  obtain ⟨e, hmem, hkey⟩ : ∃ e ∈ m, e.1 == k := by simpa [get?] using h
  exact List.mem_map.2 ⟨e, hmem, by simpa using hkey⟩

theorem freeNumber_cases (given : NamesGiven) (stem : String) (fuel tried : Nat) :
    given.get? (numbered stem (freeNumber given stem fuel tried)) = none ∨
      ∀ n ∈ List.range' (tried + 1) fuel, (given.get? (numbered stem n)).isSome := by
  induction fuel generalizing tried with
  | zero => exact .inr (by simp)
  | succ fuel ih =>
    rw [freeNumber]
    split
    case isTrue htaken =>
      refine (ih (tried + 1)).imp_right fun hall n hn => ?_
      rw [List.range'_succ, List.mem_cons] at hn
      obtain rfl | hn := hn
      · exact htaken
      · exact hall n hn
    case isFalse hfree => exact .inl (by simpa using hfree)

/-- More numbers are tried than names are given, so one of them is free. -/
theorem freeNumber_free (given : NamesGiven) (stem : String) {fuel : Nat} (hfuel : given.length < fuel) (tried : Nat) :
    given.get? (numbered stem (freeNumber given stem fuel tried)) = none := by
  obtain hfree | hall := freeNumber_cases given stem fuel tried
  · exact hfree
  -- All tried numbers taken would be one name more than there are.
  have hnodup : ((List.range' (tried + 1) fuel).map (numbered stem)).Nodup :=
    (List.nodup_map_iff (numbered_injective stem)).2 (List.nodup_range' 1)
  have hsub : (List.range' (tried + 1) fuel).map (numbered stem) ⊆ given.map Prod.fst :=
    List.forall_mem_map.2 fun n hn => OrderedMap.mem_keys (hall n hn)
  have hcount := (hnodup.subperm hsub).length_le
  simp only [List.length_map, List.length_range'] at hcount
  omega

/-! ## The names are different -/

theorem nameInput_isName (given : NamesGiven) {stem : String} (h : IsName stem) :
    IsName (nameInput given stem).1 := by
  unfold nameInput
  split
  · exact h
  · exact numbered_isName h _

theorem nameInput_free (given : NamesGiven) (stem : String) :
    given.get? (nameInput given stem).1 = none := by
  unfold nameInput
  split
  case h_1 h => exact h
  case h_2 => exact freeNumber_free given stem (Nat.lt_succ_self _) _

theorem OrderedMap.isSome_get?_insert {α β : Type} [BEq α] [LawfulBEq α] (m : OrderedMap α β) (k k' : α) (v : β) :
    ((m.insert k v).get? k').isSome ↔ k = k' ∨ (m.get? k').isSome := by
  by_cases h : k = k'
  · simp [h, get?_insert_self]
  · simp [h, get?_insert_of_ne]

theorem nameInput_given (given : NamesGiven) (stem k : String) :
    ((nameInput given stem).2.get? k).isSome ↔ (nameInput given stem).1 = k ∨ (given.get? k).isSome := by
  unfold nameInput
  split
  case h_1 => exact OrderedMap.isSome_get?_insert ..
  case h_2 tried h =>
    simp only [OrderedMap.isSome_get?_insert]
    refine or_congr_right ⟨?_, .inr⟩
    rintro (rfl | hk)
    · simp [h]
    · exact hk

theorem nameInputs_isName (given : NamesGiven) (inputs : List String) :
    ∀ name ∈ nameInputs given inputs, IsName name := by
  induction inputs generalizing given with
  | nil => simp [nameInputs]
  | cons input rest ih =>
    rw [nameInputs, List.forall_mem_cons]
    exact ⟨nameInput_isName given (inputStem_isName input), ih _⟩

theorem nameInputs_free (given : NamesGiven) (inputs : List String) :
    ∀ name ∈ nameInputs given inputs, given.get? name = none := by
  induction inputs generalizing given with
  | nil => simp [nameInputs]
  | cons input rest ih =>
    rw [nameInputs, List.forall_mem_cons]
    refine ⟨nameInput_free given _, fun name hname => ?_⟩
    -- A name that is given now would still be given when the later one is chosen.
    have hlater := ih _ name hname
    by_contra hgiven
    have := (nameInput_given given (inputStem input) name).2 (.inr (Option.isSome_iff_ne_none.2 hgiven))
    simp [hlater] at this

theorem nameInputs_nodup (given : NamesGiven) (inputs : List String) : (nameInputs given inputs).Nodup := by
  induction inputs generalizing given with
  | nil => simp [nameInputs]
  | cons input rest ih =>
    rw [nameInputs, List.nodup_cons]
    refine ⟨fun hmem => ?_, ih _⟩
    have hlater := nameInputs_free _ rest _ hmem
    have := (nameInput_given given (inputStem input) _).2 (.inl rfl)
    simp [hlater] at this

theorem nameInputs_length (given : NamesGiven) (inputs : List String) :
    (nameInputs given inputs).length = inputs.length := by
  induction inputs generalizing given with
  | nil => rfl
  | cons input rest ih => simp [nameInputs, ih]

section
variable (inputs : List String)

theorem directoryNames_length : (directoryNames inputs).length = inputs.length := nameInputs_length [] inputs

theorem directoryNames_nodup : (directoryNames inputs).Nodup := nameInputs_nodup [] inputs

theorem directoryNames_isName : ∀ name ∈ directoryNames inputs, IsName name := nameInputs_isName [] inputs

end

end Thumbnailer
