import Thumbnailer.Proofs.Destinations.Apart
import Thumbnailer.Proofs.Destinations.Dots
import Thumbnailer.Proofs.Destinations.Greedy

/-!
# Where destinations lead

The outputs of an input stay below the directory that was asked for, in one of their own, unless the name of the
input is dots: `places_resolved`.
-/

namespace Thumbnailer

/-! ## The destination of an input -/

open Thumbnailer.Path

/-- Where the directory of an input is. -/
def housed (name : String) (r : Resolved) : Resolved := r.enterAll (components name)

theorem housed_dot (r : Resolved) : housed "." r = r := rfl

theorem housed_up (r : Resolved) : housed ".." r = r.enter ".." := rfl

theorem isName_dot : IsName "." := ⟨by decide, by decide⟩

theorem isName_up : IsName ".." := ⟨by decide, by decide⟩

section
variable {name name' : String} (hname : IsName name) (hname' : IsName name')
include hname

theorem housed_name (h : ¬IsDots name) (r : Resolved) : housed name r = r.extend [name] := by
  obtain ⟨hdot, hup⟩ := not_or.1 h
  have hcomponents := components_of_noSlash hname.no_slash
  rw [if_neg (not_or.2 ⟨hname.ne_empty, hdot⟩)] at hcomponents
  rw [housed, hcomponents, Resolved.enterAll_cons, Resolved.enter_name hup, Resolved.enterAll_nil]

theorem resolve_directory_destinationIn (pattern : String) :
    resolve (directory (destinationIn name pattern)) = housed name (resolve (directory pattern)) := by
  have hhead : name.toList.head? ≠ some '/' := fun h => hname.no_slash (List.mem_of_mem_head? h)
  rw [directory_destinationIn hname, resolve, root_append (.inr hhead), root_folder,
    components_append (folder_isFolder _), components_folder, Resolved.enterAll_append]
  rfl

theorem resolve_destinationIn (pattern : String) : resolve (destinationIn name pattern) =
    (housed name (resolve (directory pattern))).enterAll (components (base pattern)) := by
  rw [resolve_eq, resolve_directory_destinationIn hname, base_destinationIn hname]

theorem housed_length_le_iff (r : Resolved) : (housed name r).names.length ≤ r.names.length ↔ IsDots name := by
  by_cases h : IsDots name
  · obtain rfl | rfl := id h
    · simp [housed_dot, h]
    · simp [housed_up, Resolved.enter_up_names, h]
  · simp [housed_name hname h, h]

include hname'

/-- Two inputs share a directory only when both are named by dots and there is nothing above. -/
theorem housed_eq_iff (hne : name ≠ name') (r : Resolved) :
    housed name r = housed name' r ↔ IsDots name ∧ IsDots name' ∧ r.IsTop := by
  constructor
  · intro heq
    -- Other names than dots lead to directories of their own, which have one name more.
    have hboth : IsDots name ↔ IsDots name' := by
      rw [← housed_length_le_iff hname r, ← housed_length_le_iff hname' r, heq]
    have hdots : IsDots name := by
      by_contra hproper
      rw [housed_name hname hproper, housed_name hname' (mt hboth.2 hproper)] at heq
      exact hne (by simpa [Resolved.extend] using heq)
    refine ⟨hdots, hboth.1 hdots, Resolved.enter_up_eq_self_iff.1 ?_⟩
    obtain rfl | rfl := id hdots <;> obtain rfl | rfl := hboth.1 hdots
    · exact absurd rfl hne
    · exact heq.symm
    · exact heq
    · exact absurd rfl hne
  · rintro ⟨rfl | rfl, rfl | rfl, htop⟩
    · rfl
    · exact htop.enter_up.symm
    · exact htop.enter_up
    · rfl

end

/-! ## The base name -/

theorem up_not_mem_components_base {pattern : String} (h : base pattern ≠ "..") : ".." ∉ components (base pattern) := by
  rw [components_of_noSlash (not_mem_base pattern)]
  split
  · simp
  · simpa using h.symm

theorem components_base_up {pattern : String} (h : base pattern = "..") : components (base pattern) = [".."] := by
  rw [h]
  rfl

theorem components_base_length_le (pattern : String) : (components (base pattern)).length ≤ 1 := by
  rw [components_of_noSlash (not_mem_base pattern)]
  split <;> simp

section
variable {name name' : String} (hname : IsName name) (hname' : IsName name')
include hname

theorem resolve_destinationIn_of_base {pattern : String} (h : base pattern ≠ "..") :
    resolve (destinationIn name pattern) =
      (housed name (resolve (directory pattern))).extend (components (base pattern)) := by
  rw [resolve_destinationIn hname, Resolved.enterAll_names (up_not_mem_components_base h)]

theorem resolve_destinationIn_of_name (hproper : ¬IsDots name) {pattern : String} (h : base pattern ≠ "..") :
    resolve (destinationIn name pattern) =
      (resolve (directory pattern)).extend (name :: components (base pattern)) := by
  rw [resolve_destinationIn_of_base hname h, housed_name hname hproper, Resolved.extend_extend, List.singleton_append]

include hname'

theorem resolve_destinationIn_eq_iff {pattern : String} (h : base pattern ≠ "..") :
    resolve (destinationIn name pattern) = resolve (destinationIn name' pattern) ↔
      housed name (resolve (directory pattern)) = housed name' (resolve (directory pattern)) := by
  rw [resolve_destinationIn_of_base hname h, resolve_destinationIn_of_base hname' h, Resolved.extend_inj]

theorem resolve_destinationIn_ne (hne : name ≠ name') (hproper : ¬IsDots name) (hproper' : ¬IsDots name')
    {pattern pattern' : String} (h : base pattern ≠ "..") (h' : base pattern' ≠ "..")
    (hlength : (components (base pattern)).length = (components (base pattern')).length) :
    resolve (destinationIn name pattern) ≠ resolve (destinationIn name' pattern') := by
  rw [resolve_destinationIn_of_name hname hproper h, resolve_destinationIn_of_name hname' hproper' h']
  intro heq
  have htails := (List.append_inj' (congrArg Resolved.names heq) (by simpa using hlength)).2
  exact hne (List.cons.inj htails).1

end

/-! ## Inputs that are named by dots -/

theorem not_isDots_numbered (stem : String) (n : Nat) : ¬IsDots (numbered stem n) := by
  have hhyphen : '-' ∈ (numbered stem n).toList := by simp [toList_numbered]
  rintro (h | h) <;> simp [h] at hhyphen

theorem FirstFree.stem_eq_of_dots {taken : List String} {stem dots : String} (h : FirstFree taken stem dots)
    (hdots : IsDots dots) : stem = dots := by
  obtain ⟨-, k, hname, -⟩ := h
  cases k with
  | zero => exact hname
  | succ k =>
    subst hname
    exact absurd hdots (not_isDots_numbered stem (k + 2))

section
variable {inputs : List String} {i : Nat}

theorem stem_mem_directoryNames {input : String} (hi : inputs[i]? = some input) {j : Nat} (hj : i < j) :
    inputStem input ∈ (directoryNames inputs).take j := by
  obtain ⟨name, hname, hfirst⟩ := exists_directoryName hi
  have htake : (directoryNames inputs).take i ++ [name] = (directoryNames inputs).take (i + 1) := by
    rw [List.take_add_one, hname, Option.toList_some]
  exact (List.take_subset_take_left _ hj) (htake ▸ hfirst.stem_mem)

theorem inputStem_of_directoryName {dots : String} (hdots : IsDots dots)
    (h : (directoryNames inputs)[i]? = some dots) :
    ∃ input, inputs[i]? = some input ∧ inputStem input = dots ∧ dots ∉ (directoryNames inputs).take i := by
  have hlt : i < inputs.length := by
    rw [← directoryNames_length]
    exact (List.getElem?_eq_some_iff.1 h).1
  obtain ⟨name, hname, hfirst⟩ := exists_directoryName (List.getElem?_eq_getElem hlt)
  obtain rfl := Option.some.inj (hname.symm.trans h)
  exact ⟨_, List.getElem?_eq_getElem hlt, hfirst.stem_eq_of_dots hdots, hfirst.1⟩

/-- The first input whose stem is dots is named by them, and no other one is. -/
theorem directoryName_eq_dots_iff {dots : String} (hdots : IsDots dots) :
    (directoryNames inputs)[i]? = some dots ↔
      ∃ input, inputs[i]? = some input ∧ inputStem input = dots ∧
        ∀ j < i, ∀ earlier, inputs[j]? = some earlier → inputStem earlier ≠ dots := by
  constructor
  · intro h
    obtain ⟨input, hi, hstem, hfree⟩ := inputStem_of_directoryName hdots h
    exact ⟨input, hi, hstem, fun j hj earlier hearlier heq => hfree (heq ▸ stem_mem_directoryNames hearlier hj)⟩
  · rintro ⟨input, hi, rfl, hearlier⟩
    refine directoryNames_of_stem_free hi fun hmem => ?_
    obtain ⟨j, hj⟩ := List.mem_iff_getElem?.1 hmem
    obtain ⟨hlt, hname⟩ : j < i ∧ (directoryNames inputs)[j]? = some (inputStem input) := by
      simpa [List.getElem?_take] using hj
    obtain ⟨earlier, hj', hstem, -⟩ := inputStem_of_directoryName hdots hname
    exact hearlier j hlt earlier hj' hstem

end

theorem names_of_ne {inputs : List String} {i j : Nat} {name name' : String} (hij : i ≠ j)
    (hi : (directoryNames inputs)[i]? = some name) (hj : (directoryNames inputs)[j]? = some name') :
    IsName name ∧ IsName name' ∧ name ≠ name' := by
  refine ⟨directoryNames_isName inputs name (List.mem_of_getElem? hi),
    directoryNames_isName inputs name' (List.mem_of_getElem? hj), fun heq => hij ?_⟩
  have hlt : i < (directoryNames inputs).length := (List.getElem?_eq_some_iff.1 hi).1
  exact (List.getElem?_inj hlt (directoryNames_nodup inputs)).1 (by rw [hi, hj, heq])

/-! ## Several inputs -/

namespace CommandLine

/-- The destination of an input is in a directory of its own, below the one that was asked for. -/
structure Inside (name pattern : String) : Prop where
  subdirectory : resolve (directory (destinationIn name pattern)) = (resolve (directory pattern)).extend [name]
  place : base pattern ≠ ".." →
    resolve (destinationIn name pattern) = (resolve (directory pattern)).extend (name :: components (base pattern))
  below : base pattern ≠ ".." → (resolve (destinationIn name pattern)).Below (resolve (directory pattern))
  /-- A base name of two points leads back to the directory that was asked for. -/
  back : base pattern = ".." → resolve (destinationIn name pattern) = resolve (directory pattern)

/-- Where the destinations of several inputs lead. -/
structure PlacesResolved (p : Plan) (inputs : List String) : Prop where
  named : ∀ name ∈ directoryNames inputs, IsName name
  placed : ∀ i name, (directoryNames inputs)[i]? = some name → ∀ e ∈ p.entries,
    placeOf? p inputs i e.index = some (destinationIn name e.output.destination)
  /-- Only the first input whose stem is dots is named by them. -/
  dots : ∀ {dots}, IsDots dots → ∀ i : Nat, (directoryNames inputs)[i]? = some dots ↔
    ∃ input, inputs[i]? = some input ∧ inputStem input = dots ∧
      ∀ j < i, ∀ earlier, inputs[j]? = some earlier → inputStem earlier ≠ dots
  /-- The stem is dots when the last component is, with an extension or without. -/
  stems : ∀ {dots}, IsDots dots → ∀ input, inputStem input = dots ↔
    ∃ last, (components input).getLast? = some last ∧
      (last = dots ∨ ∃ extension, IsExtension extension ∧ last = dots ++ "." ++ extension)
  inside : ∀ name ∈ directoryNames inputs, ¬IsDots name → ∀ pattern, Inside name pattern
  /-- An input that is named by a point has no directory of its own. -/
  stray : ∀ pattern, resolve (destinationIn "." pattern) = resolve pattern
  /-- An input that is named by two points has the directory above. -/
  above : ∀ pattern, resolve (directory (destinationIn ".." pattern)) = (resolve (directory pattern)).enter ".."
  outside : ∀ pattern, base pattern ≠ ".." → ¬(resolve (directory pattern)).IsTop →
    ¬(resolve (destinationIn ".." pattern)).Below (resolve (directory pattern))
  /-- Two inputs share a destination only if both are named by dots and nothing is above. -/
  apart : ∀ {i j : Nat} {name name' : String}, i ≠ j → (directoryNames inputs)[i]? = some name →
    (directoryNames inputs)[j]? = some name' → ∀ pattern, base pattern ≠ ".." →
      (resolve (destinationIn name pattern) = resolve (destinationIn name' pattern) ↔
        IsDots name ∧ IsDots name' ∧ (resolve (directory pattern)).IsTop)
  /-- Different outputs do not meet either, if both have base names or neither has. -/
  across : ∀ {i j : Nat} {name name' : String}, i ≠ j → (directoryNames inputs)[i]? = some name →
    (directoryNames inputs)[j]? = some name' → ¬IsDots name → ¬IsDots name' →
      ∀ pattern pattern', base pattern ≠ ".." → base pattern' ≠ ".." →
        (components (base pattern)).length = (components (base pattern')).length →
          resolve (destinationIn name pattern) ≠ resolve (destinationIn name' pattern')

theorem inside_of_name {name : String} (hname : IsName name) (hproper : ¬IsDots name) (pattern : String) :
    Inside name pattern where
  subdirectory := by rw [resolve_directory_destinationIn hname, housed_name hname hproper]
  place := resolve_destinationIn_of_name hname hproper
  below h := ⟨name :: components (base pattern), by simp, resolve_destinationIn_of_name hname hproper h⟩
  back h := by
    rw [resolve_destinationIn hname, components_base_up h, housed_name hname hproper, Resolved.enterAll_cons,
      Resolved.enter_up_of_names (by simp), Resolved.enterAll_nil]
    simp [Resolved.extend]

/-- **Destinations without dots.** For two or more inputs and whatever was asked for, the outputs of an input stay in a
directory of its own, below the one that was asked for, unless the input is named by dots. -/
theorem places_resolved (p : Plan) (inputs : List String) (h : 2 ≤ inputs.length) : PlacesResolved p inputs where
  named := directoryNames_isName inputs
  placed i name hname e he := by rw [placeOf?_eq p h, hname, Option.bind_some, get?_destinationsIn p name he]
  dots hdots i := directoryName_eq_dots_iff hdots
  stems hdots _ := inputStem_eq_iff hdots
  inside name hname hproper := inside_of_name (directoryNames_isName inputs name hname) hproper
  stray pattern := by rw [resolve_destinationIn isName_dot, housed_dot, ← resolve_eq]
  above pattern := by rw [resolve_directory_destinationIn isName_up, housed_up]
  outside pattern hbase htop := by
    rw [resolve_destinationIn_of_base isName_up hbase, housed_up]
    exact Resolved.not_below_enter_up htop (components_base_length_le pattern)
  apart := by
    intro i j name name' hij hi hj pattern hbase
    obtain ⟨hname, hname', hne⟩ := names_of_ne hij hi hj
    rw [resolve_destinationIn_eq_iff hname hname' hbase, housed_eq_iff hname hname' hne]
  across := by
    intro i j name name' hij hi hj hproper hproper' pattern pattern' hbase hbase'
    obtain ⟨hname, hname', hne⟩ := names_of_ne hij hi hj
    exact resolve_destinationIn_ne hname hname' hne hproper hproper' hbase hbase'

def dottedInputs : List String := ["...mp4", "clips/b.mp4"]

theorem places_resolved_dotted : 2 ≤ dottedInputs.length ∧ PlacesResolved twoPlaces dottedInputs ∧
    placeOf? twoPlaces dottedInputs 0 1 = some "../%04d.jpg" ∧
    placeOf? twoPlaces dottedInputs 1 1 = some "b/%04d.jpg" ∧
    resolve "../%04d.jpg" = ⟨"", 1, ["%04d.jpg"]⟩ ∧ resolve "b/%04d.jpg" = ⟨"", 0, ["b", "%04d.jpg"]⟩ :=
  ⟨by decide, places_resolved twoPlaces dottedInputs (by decide), by decide +kernel, by decide +kernel,
    by decide +kernel, by decide +kernel⟩

/-- Dots in a name lead out of the directory that was asked for, or two inputs to the same place. -/
theorem dots_lead_out :
    directoryNames ["...mp4", "b.mp4"] = ["..", "b"] ∧
      ¬(resolve (destinationIn ".." "out/%04d.jpg")).Below (resolve (directory "out/%04d.jpg")) ∧
    directoryNames ["..mp4", "...mp4"] = [".", ".."] ∧
      resolve (destinationIn "." "/%04d.jpg") = resolve (destinationIn ".." "/%04d.jpg") := by
  refine ⟨by decide +kernel, ?_, by decide +kernel, by decide +kernel⟩
  rintro ⟨more, -, heq⟩
  have hplace : resolve (destinationIn ".." "out/%04d.jpg") = ⟨"", 0, ["%04d.jpg"]⟩ := by decide +kernel
  have hdirectory : resolve (directory "out/%04d.jpg") = ⟨"", 0, ["out"]⟩ := by decide +kernel
  rw [hplace, hdirectory] at heq
  simp [Resolved.extend] at heq

end CommandLine

end Thumbnailer
