import Thumbnailer.Proofs.Destinations.Components

/-!
# Names are chosen greedily

An input gets the first name that no earlier input has: its stem, or else the stem with the lowest free number from two
on. A counter for each name remembers which numbers were tried; it skips only numbers that are taken.
-/

namespace Thumbnailer

/-! ## Stems -/

/-- The stem of an input: the last component of its path without its extension. A name that has nothing before its last
point or nothing behind it is all stem. -/
inductive IsStem (input : String) : String → Prop
  | nameless : Path.components input = [] → IsStem input "input"
  | extended {stem extension : String} : (Path.components input).getLast? = some (stem ++ "." ++ extension) →
      stem ≠ "" → Path.IsExtension extension → IsStem input stem
  | whole {name : String} : (Path.components input).getLast? = some name →
      (∀ stem extension, stem ≠ "" → Path.IsExtension extension → name ≠ stem ++ "." ++ extension) →
      IsStem input name

theorem inputStem_isStem (input : String) : IsStem input (inputStem input) := by
  rw [inputStem_eq]
  cases hlast : (Path.components input).getLast? with
  | none => exact .nameless (List.getLast?_eq_none_iff.1 hlast)
  | some name =>
    have hname := Path.withoutExtension_isName (Path.components_isName (List.mem_of_getLast? hlast))
    rcases Path.withoutExtension_cases name with hwhole | ⟨extension, hextension, heq⟩
    · dsimp only
      rw [hwhole]
      refine .whole hlast fun stem extension hstem hextension heq => ?_
      rw [heq, Path.withoutExtension_append hstem hextension] at hwhole
      have hlength := congrArg String.length hwhole
      simp only [String.length_append, show ".".length = 1 from rfl] at hlength
      omega
    · exact .extended (heq ▸ hlast) hname.ne_empty hextension

theorem IsStem.eq {input stem : String} (h : IsStem input stem) : stem = inputStem input := by
  rw [inputStem_eq]
  cases h with
  | nameless hnone => rw [hnone]; rfl
  | extended hlast hstem hextension => rw [hlast]; exact (Path.withoutExtension_append hstem hextension).symm
  | whole hlast hall =>
    rw [hlast]
    rcases Path.withoutExtension_cases stem with hwhole | ⟨extension, hextension, heq⟩
    · exact hwhole.symm
    · have hname := Path.withoutExtension_isName (Path.components_isName (List.mem_of_getLast? hlast))
      exact absurd heq (hall _ _ hname.ne_empty hextension)

/-! ## The first free name -/

/-- The names that an input with a stem can get, the best one first. -/
def candidate (stem : String) : Nat → String
  | 0 => stem
  | k + 1 => numbered stem (k + 2)

/-- The best name for a stem that is not taken. -/
def FirstFree (taken : List String) (stem name : String) : Prop :=
  name ∉ taken ∧ ∃ k, candidate stem k = name ∧ ∀ j < k, candidate stem j ∈ taken

section
variable {taken : List String} {stem name name' : String}

theorem FirstFree.unique (h : FirstFree taken stem name) (h' : FirstFree taken stem name') : name = name' := by
  obtain ⟨hfree, k, rfl, htaken⟩ := h
  obtain ⟨hfree', k', rfl, htaken'⟩ := h'
  rcases lt_trichotomy k k' with hlt | rfl | hlt
  · exact absurd (htaken' k hlt) hfree
  · rfl
  · exact absurd (htaken k' hlt) hfree'

theorem firstFree_self (h : stem ∉ taken) : FirstFree taken stem stem := ⟨h, 0, rfl, by simp⟩

theorem FirstFree.stem_mem (h : FirstFree taken stem name) : stem ∈ taken ++ [name] := by
  obtain ⟨-, k, hname, htaken⟩ := h
  cases k with
  | zero => simp [← hname, candidate]
  | succ k => exact List.mem_append_left _ (htaken 0 (by omega))

end

/-! ## The search for a number -/

theorem freeNumber_ge (given : NamesGiven) (stem : String) (fuel tried : Nat) :
    tried ≤ freeNumber given stem fuel tried := by
  induction fuel generalizing tried with
  | zero => exact le_refl _
  | succ fuel ih =>
    rw [freeNumber]
    split
    · exact (Nat.le_succ tried).trans (ih (tried + 1))
    · exact Nat.le_succ tried

theorem freeNumber_skips (given : NamesGiven) (stem : String) (fuel tried : Nat) :
    ∀ k, tried < k → k < freeNumber given stem fuel tried → (given.get? (numbered stem k)).isSome := by
  induction fuel generalizing tried with
  | zero => exact fun k hlow hhigh => absurd (hlow.trans hhigh) (lt_irrefl tried)
  | succ fuel ih =>
    intro k hlow hhigh
    rw [freeNumber] at hhigh
    split at hhigh
    · next htaken =>
      obtain rfl | hlow := Nat.eq_or_lt_of_le hlow
      · exact htaken
      · exact ih (tried + 1) k hlow hhigh
    · omega

theorem freeNumber_gt (given : NamesGiven) (stem : String) {fuel : Nat} (hfuel : 0 < fuel) (tried : Nat) :
    tried < freeNumber given stem fuel tried := by
  obtain ⟨fuel, rfl⟩ := Nat.exists_eq_succ_of_ne_zero hfuel.ne'
  rw [freeNumber]
  split
  · exact freeNumber_ge given stem fuel (tried + 1)
  · exact Nat.lt_succ_self tried

/-- The search ends by itself: what it finds does not depend on the fuel. -/
theorem freeNumber_fuel (given : NamesGiven) (stem : String) {fuel fuel' : Nat} (h : given.length < fuel)
    (h' : given.length < fuel') (tried : Nat) : freeNumber given stem fuel tried = freeNumber given stem fuel' tried := by
  have hfree := freeNumber_free given stem h tried
  have hfree' := freeNumber_free given stem h' tried
  rcases lt_trichotomy (freeNumber given stem fuel tried) (freeNumber given stem fuel' tried) with hlt | heq | hlt
  · have := freeNumber_skips given stem fuel' tried _ (freeNumber_gt given stem (by omega) tried) hlt
    simp [hfree] at this
  · exact heq
  · have := freeNumber_skips given stem fuel tried _ (freeNumber_gt given stem (by omega) tried) hlt
    simp [hfree'] at this

/-! ## One input -/

/-- The numbers up to `n` were tried for a stem, and none is free. -/
def Tried (taken : List String) (stem : String) (n : Nat) : Prop :=
  1 ≤ n ∧ ∀ k, 2 ≤ k → k ≤ n → numbered stem k ∈ taken

theorem tried_one (taken : List String) (stem : String) : Tried taken stem 1 := ⟨le_refl 1, fun _ _ _ => by omega⟩

theorem Tried.append {taken : List String} {stem : String} {n : Nat} (h : Tried taken stem n) (more : List String) :
    Tried (taken ++ more) stem n :=
  ⟨h.1, fun k hlow hhigh => List.mem_append_left more (h.2 k hlow hhigh)⟩

/-- What the counters know: which names are taken, and which numbers were tried for each. -/
structure Counted (given : NamesGiven) (taken : List String) : Prop where
  keys : ∀ name, (given.get? name).isSome ↔ name ∈ taken
  tried : ∀ stem n, given.get? stem = some n → Tried taken stem n

theorem counted_nil : Counted [] [] where
  keys name := by simp [OrderedMap.get?]
  tried stem n h := by simp [OrderedMap.get?] at h

theorem OrderedMap.forall_get?_insert {α β : Type} [BEq α] [LawfulBEq α] {m : OrderedMap α β} {P : α → β → Prop}
    (h : ∀ k v, m.get? k = some v → P k v) {k : α} {v : β} (hnew : P k v) :
    ∀ k' v', (m.insert k v).get? k' = some v' → P k' v' := by
  intro k' v' hget
  by_cases hk : k = k'
  · subst hk
    rw [get?_insert_self, Option.some.injEq] at hget
    exact hget ▸ hnew
  · rw [get?_insert_of_ne m v hk] at hget
    exact h k' v' hget

section
variable {given : NamesGiven} {taken : List String} (h : Counted given taken) (stem : String)
include h

/-- The numbers below the one that the search finds are taken: it starts behind those that were tried, and passes
over no free one. -/
theorem Counted.search {tried : Nat} (htried : given.get? stem = some tried) :
    tried < freeNumber given stem (given.length + 1) tried ∧
      ∀ k, 2 ≤ k → k < freeNumber given stem (given.length + 1) tried → numbered stem k ∈ taken := by
  refine ⟨freeNumber_gt given stem (by omega) tried, fun k hlow hhigh => ?_⟩
  rcases le_or_gt k tried with hle | hlt
  · exact (h.tried stem tried htried).2 k hlow hle
  · exact (h.keys _).1 (freeNumber_skips given stem _ tried k hlt hhigh)

theorem nameInput_firstFree : FirstFree taken stem (nameInput given stem).1 := by
  refine ⟨by simp [← h.keys, nameInput_free], ?_⟩
  unfold nameInput
  split
  case h_1 => exact ⟨0, rfl, by simp⟩
  case h_2 tried htried =>
    have hpos := (h.tried stem tried htried).1
    obtain ⟨hgt, hbelow⟩ := h.search stem htried
    obtain ⟨n, hn⟩ : ∃ n, freeNumber given stem (given.length + 1) tried = n + 2 := Nat.exists_eq_add_of_le' (by omega)
    refine ⟨n + 1, by rw [hn, candidate], fun j hj => ?_⟩
    cases j with
    | zero => exact (h.keys stem).1 (by simp [htried])
    | succ j => exact hbelow (j + 2) (by omega) (by omega)

theorem nameInput_counted : Counted (nameInput given stem).2 (taken ++ [(nameInput given stem).1]) where
  keys name := by rw [nameInput_given, h.keys, List.mem_append, List.mem_singleton, or_comm, eq_comm]
  tried := by
    have hold : ∀ (name : String) s n, given.get? s = some n → Tried (taken ++ [name]) s n :=
      fun name s n hget => (h.tried s n hget).append [name]
    unfold nameInput
    split
    case h_1 => exact OrderedMap.forall_get?_insert (hold stem) (tried_one _ stem)
    case h_2 tried htried =>
      obtain ⟨hgt, hbelow⟩ := h.search stem htried
      have hpos := (h.tried stem tried htried).1
      refine OrderedMap.forall_get?_insert (OrderedMap.forall_get?_insert (hold _) ⟨by omega, fun k hlow hle => ?_⟩)
        (tried_one _ _)
      obtain hlt | rfl := Nat.lt_or_eq_of_le hle
      · exact List.mem_append_left _ (hbelow k hlow hlt)
      · simp

end

/-! ## All inputs -/

/-- Each name is the best one for its input that no earlier input has. -/
structure Greedy (taken : List String) (inputs names : List String) : Prop where
  length : names.length = inputs.length
  firstFree : ∀ i input name, inputs[i]? = some input → names[i]? = some name →
    FirstFree (taken ++ names.take i) (inputStem input) name

theorem greedy_nil_iff {taken names : List String} : Greedy taken [] names ↔ names = [] :=
  ⟨fun h => List.length_eq_zero_iff.1 h.length, fun h => ⟨by simp [h], by simp⟩⟩

theorem greedy_cons_iff {taken : List String} {input name : String} {inputs names : List String} :
    Greedy taken (input :: inputs) (name :: names) ↔
      FirstFree taken (inputStem input) name ∧ Greedy (taken ++ [name]) inputs names := by
  constructor
  · intro h
    refine ⟨by simpa using h.firstFree 0 input name rfl rfl, by simpa using h.length, fun i input' name' hi hn => ?_⟩
    simpa using h.firstFree (i + 1) input' name' hi hn
  · rintro ⟨hfirst, hrest⟩
    refine ⟨by simp [hrest.length], fun i input' name' hi hn => ?_⟩
    cases i with
    | zero =>
      obtain rfl := Option.some.inj hi
      obtain rfl := Option.some.inj hn
      simpa using hfirst
    | succ i => simpa using hrest.firstFree i input' name' hi hn

/-- At most one list of names is chosen greedily. -/
theorem Greedy.unique {taken inputs names names' : List String} (h : Greedy taken inputs names)
    (h' : Greedy taken inputs names') : names = names' := by
  induction inputs generalizing taken names names' with
  | nil => rw [greedy_nil_iff.1 h, greedy_nil_iff.1 h']
  | cons input inputs ih =>
    cases names with
    | nil => simpa using h.length
    | cons name names =>
    cases names' with
    | nil => simpa using h'.length
    | cons name' names' =>
    rw [greedy_cons_iff] at h h'
    obtain rfl := h.1.unique h'.1
    rw [ih h.2 h'.2]

theorem nameInputs_greedy {given : NamesGiven} {taken : List String} (h : Counted given taken) (inputs : List String) :
    Greedy taken inputs (nameInputs given inputs) := by
  induction inputs generalizing given taken with
  | nil => exact greedy_nil_iff.2 rfl
  | cons input inputs ih =>
    exact greedy_cons_iff.2 ⟨nameInput_firstFree h _, ih (nameInput_counted h _)⟩

theorem greedy_directoryNames (inputs : List String) : Greedy [] inputs (directoryNames inputs) :=
  nameInputs_greedy counted_nil inputs

section
variable {inputs : List String} {i : Nat} {input : String} (hi : inputs[i]? = some input)
include hi

theorem exists_directoryName : ∃ name, (directoryNames inputs)[i]? = some name ∧
    FirstFree ((directoryNames inputs).take i) (inputStem input) name := by
  have hlt : i < (directoryNames inputs).length := by
    rw [directoryNames_length]
    exact (List.getElem?_eq_some_iff.1 hi).1
  have hname := List.getElem?_eq_getElem hlt
  exact ⟨_, hname, (greedy_directoryNames inputs).firstFree i input _ hi hname⟩

theorem directoryNames_of_stem_free (hfree : inputStem input ∉ (directoryNames inputs).take i) :
    (directoryNames inputs)[i]? = some (inputStem input) := by
  obtain ⟨name, hname, hfirst⟩ := exists_directoryName hi
  rw [hname, hfirst.unique (firstFree_self hfree)]

end

/-- The names of the inputs are those that a greedy choice gives. -/
structure NamedGreedily (inputs : List String) : Prop where
  stems : ∀ input stem, IsStem input stem ↔ stem = inputStem input
  /-- The names, and no others, are chosen greedily. -/
  greedy : ∀ names, Greedy [] inputs names ↔ names = directoryNames inputs
  distinct : (directoryNames inputs).Nodup
  kept : ∀ i input, inputs[i]? = some input → inputStem input ∉ (directoryNames inputs).take i →
    (directoryNames inputs)[i]? = some (inputStem input)
  /-- No search for a number is cut short: with more fuel each would find the same. -/
  ends : ∀ (given : NamesGiven) (stem : String) (tried fuel : Nat), given.length < fuel →
    freeNumber given stem (given.length + 1) tried = freeNumber given stem fuel tried ∧
      (given.get? (numbered stem (freeNumber given stem fuel tried))) = none

/-- **Inputs are named greedily.** Whatever the inputs are called, each gets the first of its stem and the stem with
the numbers from two on that no earlier input has. -/
theorem directoryNames_greedy (inputs : List String) : NamedGreedily inputs where
  stems input _ := ⟨IsStem.eq, fun h => h ▸ inputStem_isStem input⟩
  greedy _ := ⟨fun h => h.unique (greedy_directoryNames inputs), fun h => h ▸ greedy_directoryNames inputs⟩
  distinct := directoryNames_nodup inputs
  kept _ _ := directoryNames_of_stem_free
  ends given stem tried _ hfuel :=
    ⟨freeNumber_fuel given stem (Nat.lt_succ_self _) hfuel tried, freeNumber_free given stem hfuel tried⟩

/-- A name with a number is itself told apart when an input is called that. -/
example : directoryNames ["a.mp4", "a.mkv", "a-2.mov", "b/a"] = ["a", "a-2", "a-2-2", "a-3"] := by decide +kernel

end Thumbnailer
