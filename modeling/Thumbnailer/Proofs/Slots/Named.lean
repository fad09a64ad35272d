import Thumbnailer.Output.Written
import Thumbnailer.Proofs.Graph.Routes
import Thumbnailer.Proofs.Groups.Partition

/-!
# What writing makes of slots

The loops that number and label slots, slot by slot: which slots they name, and that they leave the outputs alone.
The statements of the buckets, made of the labels found in the slots, are those of `graphOf`, and the names are those
of `rename`: every label is given before it is read.
-/

namespace Thumbnailer

namespace Slot

/-- The slot with the labels that belong to its index. -/
def assigned (s : Slot) : Slot := { s with names := s.output.names s.names.index }

def entry (s : Slot) : Entry := ⟨s.names.index, s.output⟩

theorem assigned_index (s : Slot) : s.assigned.names.index = s.names.index := by
  unfold assigned Output.names
  split <;> rfl

theorem assigned_assigned (s : Slot) : s.assigned.assigned = s.assigned := by
  rw [assigned, assigned_index]
  rfl

theorem statements_assigned (members : List Slot) :
    statements (members.map assigned) = groupStatements (members.map entry) := by
  match members with
  | [] => rfl
  | [s] => rfl
  | s :: t :: rest =>
    have hlabels : (s.assigned :: t.assigned :: rest.map assigned).map splitLabel =
        (s.entry :: t.entry :: rest.map entry).map Entry.splitLabel := by
      simp only [List.map_cons, List.map_map]
      rfl
    have htiles :
        ((s.assigned :: t.assigned :: rest.map assigned).filter fun m => m.output.isSprites).map tileStatement =
        ((s.entry :: t.entry :: rest.map entry).filter fun m => m.output.isSprites).map Entry.tileStatement := by
      rw [← List.map_cons, ← List.map_cons, ← List.map_cons, ← List.map_cons, List.filter_map, List.filter_map,
        List.map_map, List.map_map]
      rfl
    simp only [List.map_cons (f := assigned), List.map_cons (f := entry), statements, groupStatements, hlabels, htiles,
      List.length_cons, List.length_map]
    rfl

end Slot

theorem lastIndex?_eq_none {i : Nat} {order : List Nat} (h : i ∉ order) : lastIndex? i order = none := by
  cases hk : lastIndex? i order with
  | none => rfl
  | some k => exact absurd (List.mem_of_getElem? (getElem?_of_lastIndex? hk)) h

namespace Slots

/-! ## Outputs -/

theorem outputsOf_eq (slots : Slots) (order : List Nat) :
    slots.outputsOf order = order.filterMap fun i => (slots.map Slot.output)[i]? := by
  simp only [outputsOf, List.getElem?_map]

theorem listed_eq (slots : Slots) (order : List Nat) :
    slots.listed order = order.filterMap fun i => (slots.map Slot.output)[i]?.map fun o => (i, o) := by
  simp only [listed, List.getElem?_map, Option.map_map]
  rfl

theorem listed_outputs (slots : Slots) (order : List Nat) :
    (slots.listed order).map Prod.snd = slots.outputsOf order := by
  rw [listed, outputsOf, List.map_filterMap]
  simp only [Option.map_map]
  rfl

theorem mem_listed {slots : Slots} {order : List Nat} {i : Nat} {o : Output} :
    (i, o) ∈ slots.listed order ↔ i ∈ order ∧ ∃ s, slots[i]? = some s ∧ s.output = o := by
  simp only [listed, List.mem_filterMap, Option.map_eq_some_iff, Prod.mk.injEq]
  constructor
  · rintro ⟨j, hj, s, hs, rfl, rfl⟩
    exact ⟨hj, s, hs, rfl⟩
  · rintro ⟨hi, s, hs, rfl⟩
    exact ⟨i, hi, s, hs, rfl, rfl⟩

theorem modify_getElem? (slots : Slots) (i j : Nat) (f : Slot → Slot) :
    (List.modify slots i f)[j]? = slots[j]?.map fun s => if i = j then f s else s := List.getElem?_modify ..

theorem modify_names_outputs (slots : Slots) (i : Nat) (names : Slot → Names) :
    (List.modify slots i fun s => { s with names := names s }).map Slot.output = slots.map Slot.output := by
  refine List.ext_getElem? fun j => ?_
  rw [List.getElem?_map, List.getElem?_map, modify_getElem?, Option.map_map]
  refine congrFun (congrArg Option.map (funext fun s => ?_)) _
  by_cases h : i = j <;> simp [h]

theorem number_outputs (slots : Slots) (position : Nat) (order : List Nat) :
    (slots.number position order).map Slot.output = slots.map Slot.output := by
  induction order generalizing slots position with
  | nil => rfl
  | cons i rest ih => rw [number, ih, modify_names_outputs]

theorem label_outputs (slots : Slots) (members : List Nat) :
    (slots.label members).map Slot.output = slots.map Slot.output := by
  unfold label
  induction members generalizing slots with
  | nil => rfl
  | cons i rest ih => rw [List.foldl_cons, ih, assignNames, modify_names_outputs]

/-! ## Names -/

theorem number_getElem? (slots : Slots) (position : Nat) (order : List Nat) (i : Nat) :
    (slots.number position order)[i]? = slots[i]?.map fun s =>
      match lastIndex? i order with
      | some k => { s with names := { s.names with index := (position + k : Nat) } }
      | none => s := by
  induction order generalizing slots position with
  | nil => simp [number, lastIndex?]
  | cons j rest ih =>
    rw [number, ih, modify_getElem?, Option.map_map, lastIndex?]
    refine congrFun (congrArg Option.map (funext fun s => ?_)) _
    -- Later places of the slot take precedence over this one.
    cases lastIndex? i rest with
    | some k => by_cases h : j = i <;> simp [h] <;> omega
    | none => by_cases h : j = i <;> simp [h]

theorem label_getElem? (slots : Slots) (members : List Nat) (i : Nat) :
    (slots.label members)[i]? = slots[i]?.map fun s => if i ∈ members then s.assigned else s := by
  unfold label
  induction members generalizing slots with
  | nil => simp
  | cons j rest ih =>
    rw [List.foldl_cons, ih, assignNames, modify_getElem?, Option.map_map]
    refine congrFun (congrArg Option.map (funext fun s => ?_)) _
    have hagain := s.assigned_assigned
    unfold Slot.assigned at hagain ⊢
    by_cases hj : j = i
    · by_cases hi : i ∈ rest <;> simp [hj, hi, hagain]
    · simp [hj, Ne.symm hj]

theorem label_label (slots : Slots) (members more : List Nat) :
    (slots.label members).label more = slots.label (members ++ more) := by
  simp [label]

/-! ## Buckets -/

/-- The slots of a bucket, labelled. -/
def membersOf (slots : Slots) (bucket : List Nat) : List Slot := bucket.filterMap fun i => slots[i]?.map Slot.assigned

theorem label_members (slots : Slots) (bucket : List Nat) :
    (bucket.filterMap fun i => (slots.label bucket)[i]?) = slots.membersOf bucket := by
  refine List.filterMap_congr fun i hi => ?_
  rw [label_getElem?]
  simp only [hi, if_true]

theorem membersOf_label (slots : Slots) (labelled bucket : List Nat) :
    (slots.label labelled).membersOf bucket = slots.membersOf bucket := by
  refine List.filterMap_congr fun i _ => ?_
  rw [label_getElem?, Option.map_map]
  refine congrFun (congrArg Option.map (funext fun s => ?_)) _
  by_cases hi : i ∈ labelled <;> simp [hi, Slot.assigned_assigned]

theorem membersOf_outputs (slots : Slots) (bucket : List Nat) :
    (slots.membersOf bucket).map Slot.output = slots.outputsOf bucket := by
  rw [membersOf, outputsOf, List.map_filterMap]
  simp only [Option.map_map]
  rfl

/-- The grid of an output can be written. -/
abbrev GridWritable (o : Output) : Prop := o.gridNumbers.all Text.isWritable = true

theorem members_writable (slots : Slots) (bucket : List Nat) :
    ((slots.membersOf bucket).all fun s => s.output.gridNumbers.all Text.isWritable) = true ↔
      ∀ o ∈ slots.outputsOf bucket, GridWritable o := by
  rw [← membersOf_outputs, List.forall_mem_map, List.all_eq_true]

theorem outputsOf_append (slots : Slots) (order more : List Nat) :
    slots.outputsOf (order ++ more) = slots.outputsOf order ++ slots.outputsOf more := List.filterMap_append

theorem outputsOf_label (slots : Slots) (labelled order : List Nat) :
    (slots.label labelled).outputsOf order = slots.outputsOf order := by
  rw [outputsOf_eq, outputsOf_eq, label_outputs]

theorem build_of_writable (slots : Slots) (groups : List (List Nat))
    (h : ∀ o ∈ slots.outputsOf groups.flatten, GridWritable o) :
    slots.build groups =
      (some (groups.flatMap fun bucket => Slot.statements (slots.membersOf bucket)), slots.label groups.flatten) := by
  induction groups generalizing slots with
  | nil => rfl
  | cons bucket rest ih =>
    rw [List.flatten_cons, outputsOf_append, List.forall_mem_append] at h
    rw [build]
    simp only [label_members]
    rw [if_pos ((members_writable slots bucket).2 h.1), ih _ (by rw [outputsOf_label]; exact h.2)]
    simp only [membersOf_label, label_label, Option.map_some, List.flatMap_cons, List.flatten_cons]

theorem build_of_unwritable (slots : Slots) (groups : List (List Nat))
    (h : ¬ ∀ o ∈ slots.outputsOf groups.flatten, GridWritable o) : (slots.build groups).1 = none := by
  induction groups generalizing slots with
  | nil => exact absurd (by simp [outputsOf]) h
  | cons bucket rest ih =>
    rw [List.flatten_cons, outputsOf_append, List.forall_mem_append, ← members_writable] at h
    rw [build]
    simp only [label_members]
    split
    · next hbucket =>
      have hrest := ih (slots.label bucket) fun hall => h ⟨hbucket, by rwa [outputsOf_label] at hall⟩
      rw [hrest]
      rfl
    · rfl

theorem build_slots (slots : Slots) (groups : List (List Nat)) :
    ∃ reached, reached <+: groups ∧ (slots.build groups).2 = slots.label reached.flatten := by
  induction groups generalizing slots with
  | nil => exact ⟨[], List.prefix_rfl, rfl⟩
  | cons bucket rest ih =>
    rw [build]
    simp only
    split
    · obtain ⟨reached, hstart, heq⟩ := ih (slots.label bucket)
      exact ⟨bucket :: reached, (List.prefix_cons_inj bucket).2 hstart, by rw [heq, label_label, List.flatten_cons]⟩
    · exact ⟨[bucket], by simp, by simp⟩

/-- The entry of a listed slot. -/
def entryIn (order : List Nat) (m : Nat × Output) : Entry := ⟨((lastIndex? m.1 order).getD 0 : Nat), m.2⟩

theorem entriesOf_eq (slots : Slots) (order : List Nat) :
    slots.entriesOf order = (slots.listed order).map (entryIn order) := by
  rw [entriesOf, listed, List.map_filterMap]
  refine List.filterMap_congr fun i hi => ?_
  obtain ⟨k, hk⟩ := lastIndex?_isSome hi
  cases slots[i]? <;> simp [entryIn, hk]

theorem bucketsOf_perm (slots : Slots) (order : List Nat) :
    (slots.bucketsOf order).flatten.Perm ((slots.listed order).map Prod.fst) := by
  have h := (flatMap_groupOutputs_perm Prod.snd (slots.listed order)).map Prod.fst
  simpa [bucketsOf, List.flatten_eq_flatMap, List.flatMap_assoc, List.flatMap_map, List.map_flatMap] using h

theorem mem_bucketsOf {slots : Slots} {order bucket : List Nat} (hb : bucket ∈ slots.bucketsOf order) {i : Nat}
    (hi : i ∈ bucket) : ∃ o, (i, o) ∈ slots.listed order := by
  have hflat := (bucketsOf_perm slots order).subset (List.mem_flatten.2 ⟨bucket, hb, hi⟩)
  obtain ⟨⟨j, o⟩, hmem, rfl⟩ := List.mem_map.1 hflat
  exact ⟨o, hmem⟩

theorem buckets_eq (slots : Slots) (order : List Nat) :
    buckets (slots.entriesOf order) =
      (slots.bucketsOf order).map fun bucket =>
        bucket.filterMap fun i => (slots.number 0 order)[i]?.map Slot.entry := by
  rw [entriesOf_eq, buckets, groupOutputs_map, List.flatMap_map, bucketsOf, List.map_flatMap]
  refine List.flatMap_congr fun g hg => ?_
  simp only [List.map_map]
  refine List.map_congr_left fun b hb => ?_
  rw [Function.comp_apply, Function.comp_apply, List.filterMap_map, ← List.filterMap_eq_map]
  refine List.filterMap_congr fun m hm => ?_
  obtain ⟨hi, s, hs, hout⟩ := mem_listed.1 ((mem_bucket Prod.snd hg hb).1 hm).1
  obtain ⟨k, hk⟩ := lastIndex?_isSome hi
  rw [Function.comp_apply, Function.comp_apply, number_getElem?, hs, hk]
  simp [entryIn, hk, hout, Slot.entry]

/-! ## The graph and the names -/

section Write
variable (slots : Slots) (order : List Nat)

theorem number_bucketsOf : (slots.number 0 order).bucketsOf order = slots.bucketsOf order := by
  rw [bucketsOf, bucketsOf, listed_eq, listed_eq, number_outputs]

theorem statements_eq :
    ((slots.bucketsOf order).flatMap fun bucket => Slot.statements ((slots.number 0 order).membersOf bucket)) =
      graphOf (slots.entriesOf order) := by
  rw [graphOf_eq, buckets_eq, List.flatMap_map]
  refine List.flatMap_congr fun bucket _ => ?_
  have hmembers : (slots.number 0 order).membersOf bucket =
      (bucket.filterMap fun i => (slots.number 0 order)[i]?).map Slot.assigned := List.map_filterMap.symm
  rw [hmembers, Slot.statements_assigned, List.map_filterMap]

theorem rename_getElem? {i : Nat} {s : Slot} (hs : slots[i]? = some s) :
    (slots.rename order)[i]? = some (match lastIndex? i order with
      | some k => { s with names := s.output.names k }
      | none => s) := by
  rw [rename, List.getElem?_mapIdx, hs]
  cases lastIndex? i order <;> rfl

/-- All listed slots are labelled in the end, and have the names of their last places. -/
theorem label_bucketsOf : (slots.number 0 order).label (slots.bucketsOf order).flatten = slots.rename order := by
  refine List.ext_getElem? fun i => ?_
  cases hs : slots[i]? with
  | none => simp [label_getElem?, number_getElem?, rename, List.getElem?_mapIdx, hs]
  | some s =>
    have hlisted : i ∈ (slots.bucketsOf order).flatten ↔ i ∈ order := by
      rw [(bucketsOf_perm slots order).mem_iff, List.mem_map]
      constructor
      · rintro ⟨⟨j, o⟩, hmem, rfl⟩
        exact (mem_listed.1 hmem).1
      · exact fun hi => ⟨(i, s.output), mem_listed.2 ⟨hi, s, hs, rfl⟩, rfl⟩
    rw [label_getElem?, number_getElem?, rename_getElem? slots order hs, hs]
    simp only [Option.map_some, hlisted]
    by_cases hi : i ∈ order
    · obtain ⟨k, hk⟩ := lastIndex?_isSome hi
      simp [hi, hk, Slot.assigned]
    · simp [hi, lastIndex?_eq_none hi]

theorem write_of_violation {v : Violation} (h : violation? (slots.outputsOf order) = some v) :
    slots.write order = (.error (.ofViolation v), slots) := by
  rw [write, h]

theorem numbers_writable (o : Output) :
    o.numbers.all Text.isWritable =
      (([o.scale.width, o.scale.height].all Text.isWritable) && o.gridNumbers.all Text.isWritable) := by
  rw [Output.numbers, Output.gridNumbers, List.all_append]

theorem bucketsOf_outputs :
    ((slots.number 0 order).outputsOf (slots.bucketsOf order).flatten).Perm (slots.outputsOf order) := by
  have hlisted : slots.outputsOf ((slots.listed order).map Prod.fst) = slots.outputsOf order := by
    rw [← listed_outputs slots order, outputsOf, List.filterMap_map, ← List.filterMap_eq_map]
    refine List.filterMap_congr fun m hm => ?_
    obtain ⟨-, s, hs, hout⟩ := mem_listed.1 hm
    simp [hs, hout]
  rw [← hlisted, outputsOf_eq, number_outputs, ← outputsOf_eq]
  exact (bucketsOf_perm slots order).filterMap _

theorem grids_writable_iff :
    (∀ o ∈ (slots.number 0 order).outputsOf (slots.bucketsOf order).flatten, GridWritable o) ↔
      ∀ o ∈ slots.outputsOf order, GridWritable o := by
  simp only [(bucketsOf_outputs slots order).mem_iff]

/-- Outputs that break no rule compile and are written, if their numbers can be. -/
theorem write_of_writable (hv : violation? (slots.outputsOf order) = none)
    (hw : ∀ o ∈ slots.outputsOf order, o.numbers.all Text.isWritable = true) :
    slots.write order = (.ok (graphOf (slots.entriesOf order)).text, slots.rename order) := by
  simp only [numbers_writable, Bool.and_eq_true] at hw
  have hgrids := (grids_writable_iff slots order).2 fun o ho => (hw o ho).2
  rw [write, hv]
  simp only [number_bucketsOf]
  rw [build_of_writable _ _ hgrids, statements_eq, label_bucketsOf]
  simp only
  rw [if_pos (List.all_eq_true.2 fun o ho => (hw o ho).1)]

theorem write_of_unwritable (hv : violation? (slots.outputsOf order) = none)
    (hw : ¬ ∀ o ∈ slots.outputsOf order, o.numbers.all Text.isWritable = true) :
    (slots.write order).1 = .error .unwritable := by
  simp only [numbers_writable, Bool.and_eq_true] at hw
  rw [write, hv]
  simp only [number_bucketsOf]
  by_cases hgrids : ∀ o ∈ slots.outputsOf order, GridWritable o
  · rw [build_of_writable _ _ ((grids_writable_iff slots order).2 hgrids)]
    simp only
    rw [if_neg]
    intro hall
    exact hw fun o ho => ⟨List.all_eq_true.1 hall o ho, hgrids o ho⟩
  · rw [← grids_writable_iff] at hgrids
    have hnone := build_of_unwritable _ _ hgrids
    split
    · rfl
    · simp_all

theorem write_of_ok {text : String} (h : (slots.write order).1 = .ok text) :
    slots.write order = (.ok (graphOf (slots.entriesOf order)).text, slots.rename order) := by
  cases hv : violation? (slots.outputsOf order) with
  | some v =>
    rw [write_of_violation slots order hv] at h
    cases h
  | none =>
    by_cases hw : ∀ o ∈ slots.outputsOf order, o.numbers.all Text.isWritable = true
    · exact write_of_writable slots order hv hw
    · rw [write_of_unwritable slots order hv hw] at h
      cases h

end Write

theorem compile_eq_ok {slots after : Slots} {order : List Nat} {g : Graph} (h : slots.compile order = (.ok g, after)) :
    violation? (slots.outputsOf order) = none ∧ g = graphOf (slots.entriesOf order) := by
  unfold compile at h
  split at h
  next => cases h
  next hv =>
    obtain ⟨hg, -⟩ := Prod.mk.inj h
    exact ⟨hv, (Except.ok.inj hg).symm⟩

/-- What is written of a list that compiles to a graph: the text of the graph, with the same names, unless a number has
too many digits. -/
structure WrittenAs (slots : Slots) (order : List Nat) (g : Graph) (after : Slots) : Prop where
  writable : (∀ o ∈ slots.outputsOf order, o.numbers.all Text.isWritable = true) →
    slots.write order = (.ok g.text, after)
  unwritable : (¬ ∀ o ∈ slots.outputsOf order, o.numbers.all Text.isWritable = true) →
    (slots.write order).1 = .error .unwritable

theorem compile_writtenAs {slots after : Slots} {order : List Nat} {g : Graph}
    (h : slots.compile order = (.ok g, after)) : slots.WrittenAs order g after := by
  obtain ⟨hv, rfl⟩ := compile_eq_ok h
  obtain rfl : slots.rename order = after := by
    rw [compile, hv] at h
    exact (Prod.mk.inj h).2
  exact ⟨write_of_writable slots order hv, write_of_unwritable slots order hv⟩

end Slots

end Thumbnailer
