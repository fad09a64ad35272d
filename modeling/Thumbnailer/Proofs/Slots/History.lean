import Thumbnailer.Proofs.Slots.Judged

/-!
# What slots keep of earlier lists

Slots are compiled, changed and given labels in any order. Outputs never depend on names, and a list is compiled from
its outputs alone: every name in a graph was given by the same compile.
-/

namespace Thumbnailer.Slots

/-- What is done to slots. -/
inductive Step where
  | compile (order : List Nat)
  /-- The user changes the output in a slot. -/
  | change (slot : Nat) (f : Output → Output)
  | assign (slot : Nat)

def perform (slots : Slots) : Step → Slots
  | .compile order => (slots.write order).2
  | .change i f => slots.modifyOutput i f
  | .assign i => slots.assignNames i

def session (slots : Slots) (steps : List Step) : Slots := steps.foldl perform slots

def Step.changed (outputs : List Output) : Step → List Output
  | .change i f => outputs.modify i f
  | .compile _ | .assign _ => outputs

/-! ## Outputs -/

theorem write_slots (slots : Slots) (order : List Nat) :
    (slots.write order).2 = slots ∨
      ∃ labelled, (∀ i ∈ labelled, i ∈ order) ∧ (slots.write order).2 = (slots.number 0 order).label labelled := by
  rw [write]
  split
  · exact .inl rfl
  · refine .inr ?_
    obtain ⟨reached, hstart, heq⟩ := build_slots (slots.number 0 order) (slots.bucketsOf order)
    have hslots : ∀ i ∈ reached.flatten, i ∈ order := by
      intro i hi
      obtain ⟨bucket, hbucket, hi⟩ := List.mem_flatten.1 hi
      obtain ⟨o, ho⟩ := mem_bucketsOf (hstart.subset hbucket) hi
      exact (mem_listed.1 ho).1
    refine ⟨reached.flatten, hslots, ?_⟩
    simp only [number_bucketsOf]
    rw [← heq]
    split
    · next hbuilt => rw [hbuilt]
    · next hbuilt => split <;> rw [hbuilt]

theorem write_outputs (slots : Slots) (order : List Nat) :
    (slots.write order).2.map Slot.output = slots.map Slot.output := by
  obtain heq | ⟨labelled, -, heq⟩ := write_slots slots order <;> rw [heq]
  rw [label_outputs, number_outputs]

theorem write_unlisted (slots : Slots) {order : List Nat} {i : Nat} (hi : i ∉ order) :
    (slots.write order).2[i]? = slots[i]? := by
  obtain heq | ⟨labelled, hlisted, heq⟩ := write_slots slots order <;> rw [heq]
  rw [label_getElem?, number_getElem?, lastIndex?_eq_none hi]
  have hnot : i ∉ labelled := fun h => hi (hlisted i h)
  simp [hnot]

theorem perform_outputs (slots : Slots) (step : Step) :
    (slots.perform step).map Slot.output = step.changed (slots.map Slot.output) := by
  cases step with
  | compile order => exact write_outputs slots order
  | assign i => exact modify_names_outputs slots i _
  | change i f =>
    refine List.ext_getElem? fun j => ?_
    rw [perform, modifyOutput, Step.changed, List.getElem?_map, modify_getElem?, List.getElem?_modify,
      List.getElem?_map]
    cases slots[j]? with
    | none => rfl
    | some s => by_cases h : i = j <;> simp [h]

/-- The outputs after a session are those the user made of them. -/
theorem session_outputs (slots : Slots) (steps : List Step) :
    (slots.session steps).map Slot.output = steps.foldl Step.changed (slots.map Slot.output) := by
  induction steps generalizing slots with
  | nil => rfl
  | cons step rest ih => rw [session, List.foldl_cons, ← session, ih, perform_outputs, List.foldl_cons]

/-! ## Two histories -/

section Twice
variable {a b : Slots} {order : List Nat}
  (h : ∀ i ∈ order, a[i]?.map Slot.output = b[i]?.map Slot.output)
include h

theorem listed_congr : a.listed order = b.listed order := by
  rw [listed_eq, listed_eq]
  refine List.filterMap_congr fun i hi => ?_
  rw [List.getElem?_map, List.getElem?_map, h i hi]

theorem outputsOf_congr : a.outputsOf order = b.outputsOf order := by
  rw [← listed_outputs, ← listed_outputs, listed_congr h]

theorem write_congr : (a.write order).1 = (b.write order).1 := by
  have houtputs := outputsOf_congr h
  cases hv : violation? (a.outputsOf order) with
  | some v => rw [write_of_violation a order hv, write_of_violation b order (houtputs ▸ hv)]
  | none =>
    by_cases hw : ∀ o ∈ a.outputsOf order, o.numbers.all Text.isWritable = true
    · rw [write_of_writable a order hv hw, write_of_writable b order (houtputs ▸ hv) (houtputs ▸ hw), entriesOf_eq,
        entriesOf_eq, listed_congr h]
    · rw [write_of_unwritable a order hv hw, write_of_unwritable b order (houtputs ▸ hv) (houtputs ▸ hw)]

end Twice

theorem write_names {slots : Slots} {order : List Nat} {text : String} (h : (slots.write order).1 = .ok text) {i : Nat}
    (hi : i ∈ order) : ∃ k, lastIndex? i order = some k ∧
      (slots.write order).2[i]? = (slots[i]?.map Slot.output).map fun o => ⟨o, o.names k⟩ := by
  obtain ⟨k, hk⟩ := lastIndex?_isSome hi
  refine ⟨k, hk, ?_⟩
  rw [write_of_ok slots order h]
  cases hs : slots[i]? with
  | none => simp [rename, List.getElem?_mapIdx, hs]
  | some s => simp [rename_getElem? slots order hs, hk]

theorem write_names_congr {a b : Slots} {order : List Nat}
    (h : ∀ i ∈ order, a[i]?.map Slot.output = b[i]?.map Slot.output) {text : String}
    (ha : (a.write order).1 = .ok text) {i : Nat} (hi : i ∈ order) : (a.write order).2[i]? = (b.write order).2[i]? := by
  obtain ⟨k, hk, hslot⟩ := write_names ha hi
  obtain ⟨k', hk', hslot'⟩ := write_names ((write_congr h).symm.trans ha) hi
  obtain rfl : k = k' := Option.some.inj (hk.symm.trans hk')
  rw [hslot, hslot', h i hi]

/-- A list that was just written is written the same again. -/
theorem write_again {slots : Slots} {order : List Nat} {text : String} (h : (slots.write order).1 = .ok text) :
    (slots.write order).2.write order = slots.write order := by
  have houtputs : ∀ i ∈ order, (slots.write order).2[i]?.map Slot.output = slots[i]?.map Slot.output := by
    intro i _
    rw [← List.getElem?_map, write_outputs, List.getElem?_map]
  have hgraph := write_congr houtputs
  refine Prod.ext hgraph (List.ext_getElem? fun i => ?_)
  by_cases hi : i ∈ order
  · exact write_names_congr houtputs (hgraph.trans h) hi
  · exact write_unlisted _ hi

/-- Compiling a list takes nothing from names that were given before. -/
structure HistoryForgotten (a b : Slots) (order : List Nat) : Prop where
  /-- The graphs are the same, or the errors. -/
  graph : (a.write order).1 = (b.write order).1
  /-- With a graph, so are the listed slots with their names. -/
  names : ∀ text, (a.write order).1 = .ok text → ∀ i ∈ order, (a.write order).2[i]? = (b.write order).2[i]?
  /-- The names are those of the last place in the list, for the kind that the output has now. -/
  given : ∀ text, (a.write order).1 = .ok text → ∀ i ∈ order, ∀ s, a[i]? = some s →
    ∃ k, lastIndex? i order = some k ∧ (a.write order).2[i]? = some ⟨s.output, s.output.names k⟩
  no_input : ∀ text, (a.write order).1 = .ok text → ∀ i ∈ order, ∀ s, (a.write order).2[i]? = some s →
    s.output.isSprites = false → s.names.input = ""
  unlisted : ∀ i, i ∉ order → (a.write order).2[i]? = a[i]?
  again : ∀ text, (a.write order).1 = .ok text → (a.write order).2.write order = a.write order

/-- **Compiling forgets history.** Outputs are what the user made of them in a session, and two sessions that made
the same of the listed ones compile them alike, whatever names they have given. -/
theorem session_forgotten (slots slots' : Slots) (steps steps' : List Step) :
    (slots.session steps).map Slot.output = steps.foldl Step.changed (slots.map Slot.output) ∧
      ∀ order, (∀ i ∈ order, (slots.session steps)[i]?.map Slot.output = (slots'.session steps')[i]?.map Slot.output) →
        HistoryForgotten (slots.session steps) (slots'.session steps') order := by
  refine ⟨session_outputs slots steps, fun order h => ⟨write_congr h, fun text ha i hi => write_names_congr h ha hi,
    fun text ha i hi s hs => ?_, fun text ha i hi s hs hkind => ?_, fun i hi => write_unlisted _ hi,
    fun text ha => write_again ha⟩⟩
  · obtain ⟨k, hk, hslot⟩ := write_names ha hi
    exact ⟨k, hk, by rw [hslot, hs]; rfl⟩
  · obtain ⟨k, -, hslot⟩ := write_names ha hi
    obtain ⟨o, -, rfl⟩ := Option.map_eq_some_iff.1 (hslot.symm.trans hs)
    simp [Output.names, (show o.isSprites = false from hkind)]

/-- Sprites that become thumbnails after a compile, and thumbnails that were never compiled: both compile alike. -/
theorem session_forgotten_changed :
    let toThumbs (o : Output) : Output := { o with kind := 0 }
    let sprites : Slots := [⟨{ kind := 1, scale := ⟨320, 180, 0⟩ }, {}⟩]
    let thumbs : Slots := [⟨{ scale := ⟨320, 180, 0⟩ }, {}⟩]
    (∀ i ∈ [0], (sprites.session [.compile [0, 0], .change 0 toThumbs])[i]?.map Slot.output =
      (thumbs.session [])[i]?.map Slot.output) ∧
      (((sprites.session [.compile [0, 0]])[0]?.map fun s => s.names.input) = some "sprites-1" ∧
      ((sprites.session [.compile [0, 0], .change 0 toThumbs]).write [0]).1 = (thumbs.write [0]).1 ∧
      ((sprites.session [.compile [0, 0], .change 0 toThumbs]).write [0]).2[0]? = (thumbs.write [0]).2[0]?) := by
  intro toThumbs sprites thumbs
  have houtputs : ∀ i ∈ [0], (sprites.session [.compile [0, 0], .change 0 toThumbs])[i]?.map Slot.output =
      (thumbs.session [])[i]?.map Slot.output := by
    intro i hi
    rw [← List.getElem?_map, ← List.getElem?_map, session_outputs, session_outputs]
    rfl
  have hforgotten :=
    (session_forgotten sprites thumbs [.compile [0, 0], .change 0 toThumbs] []).2 [0] houtputs
  obtain ⟨text, htext⟩ :=
    (write_ok_iff (sprites.session [.compile [0, 0], .change 0 toThumbs]) [0]).2 (by decide +kernel)
  exact ⟨houtputs, by decide +kernel, hforgotten.graph, hforgotten.names text htext 0 (by simp)⟩

end Thumbnailer.Slots
