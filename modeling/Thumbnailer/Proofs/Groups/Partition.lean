import Mathlib.Data.List.Nodup
import Mathlib.Data.List.Pairwise
import Thumbnailer.Proofs.Groups

/-!
# Groups are the classes of a list

The groups of a list by a key are the classes of items with one key, and those of outputs by interval and scale the
classes of outputs that share their filters. `groupsOf_stable` says that groups, buckets and members all stand in
the order of the list.
-/

namespace Thumbnailer

/-! ## Groups by one key -/

section Keys
variable {κ α : Type} [BEq κ] [LawfulBEq κ] (key : α → κ)

theorem mem_itemsOf {items : List α} {k : κ} {a : α} : a ∈ itemsOf key items k ↔ a ∈ items ∧ key a = k := by
  simp [itemsOf]

theorem mem_groupBy {items : List α} {g : κ × List α} :
    g ∈ groupBy key items ↔ (∃ a ∈ items, key a = g.1) ∧ g.2 = itemsOf key items g.1 := by
  obtain ⟨k, members⟩ := g
  rw [groupBy_eq, List.mem_map]
  constructor
  · rintro ⟨k', hk', heq⟩
    obtain ⟨rfl, rfl⟩ := Prod.mk.inj heq
    exact ⟨List.mem_map.1 (List.mem_eraseDups.1 hk'), rfl⟩
  · rintro ⟨hk, hmembers⟩
    exact ⟨k, List.mem_eraseDups.2 (List.mem_map.2 hk), congrArg (Prod.mk k) hmembers.symm⟩

theorem nodup_groupBy_keys (items : List α) : ((groupBy key items).map (·.1)).Nodup := by
  rw [groupBy_eq, List.map_map]
  simpa [Function.comp_def] using nodup_eraseDups (items.map key)

theorem groupBy_cons (a : α) (items : List α) :
    groupBy key (a :: items) =
      (key a, a :: itemsOf key items (key a)) :: groupBy key (items.filter fun b => !(key b == key a)) := by
  have hkeys : (items.filter fun b => !(key b == key a)).map key = (items.map key).filter fun k => !(k == key a) := by
    rw [List.filter_map]
    rfl
  rw [groupBy_eq, groupBy_eq, hkeys, List.map_cons, List.eraseDups_cons, List.map_cons]
  refine congr (congrArg List.cons (by simp [itemsOf])) (List.map_congr_left fun k hk => ?_)
  -- The first item has another key, and so have all that were taken out with it.
  have hne : k ≠ key a := by simpa using (List.mem_filter.1 (List.mem_eraseDups.1 hk)).2
  rw [itemsOf, itemsOf, List.filter_cons_of_neg (by simpa using Ne.symm hne), List.filter_filter]
  refine congrArg (Prod.mk k) (List.filter_congr fun b _ => ?_)
  by_cases hb : key b = k <;> simp_all

/-- Groups stand in the order of their first members: the first of one stands before all of any later one. -/
theorem groupBy_pairwise {r : α → α → Prop} {items : List α} (h : items.Pairwise r) :
    (groupBy key items).Pairwise fun g g' => ∃ a ∈ g.2, ∀ b ∈ g'.2, r a b := by
  induction hn : items.length using Nat.strongRecOn generalizing items with
  | _ n ih =>
    cases items with
    | nil => exact .nil
    | cons a items =>
      obtain ⟨hhead, htail⟩ := List.pairwise_cons.1 h
      have hshorter : (items.filter fun b => !(key b == key a)).length < n := by
        have := List.length_filter_le (fun b => !(key b == key a)) items
        rw [List.length_cons] at hn
        omega
      rw [groupBy_cons, List.pairwise_cons]
      refine ⟨fun g hg => ⟨a, by simp, fun b hb => hhead b ?_⟩, ih _ hshorter (htail.filter _) rfl⟩
      rw [((mem_groupBy key).1 hg).2] at hb
      exact (List.mem_filter.1 (List.mem_filter.1 hb).1).1

theorem groupBy_map {β : Type} (f : β → α) (items : List β) :
    groupBy key (items.map f) = (groupBy (key ∘ f) items).map fun g => (g.1, g.2.map f) := by
  rw [groupBy_eq, groupBy_eq, List.map_map, List.map_map]
  refine List.map_congr_left fun k _ => ?_
  simp [itemsOf, List.filter_map, Function.comp_def]

end Keys

/-! ## Groups of outputs -/

section Outputs
variable {α : Type} (output : α → Output)

abbrev Buckets (α : Type) := List ((Int × Int × Int) × List α)

theorem mem_groupOutputs {items : List α} {g : Int × Buckets α} :
    g ∈ groupOutputs output items ↔
      (∃ a ∈ items, (output a).interval = g.1) ∧
        g.2 = groupBy (fun a => (output a).scale.key) (itemsOf (fun a => (output a).interval) items g.1) := by
  obtain ⟨interval, byScale⟩ := g
  rw [groupOutputs, List.mem_map]
  constructor
  · rintro ⟨⟨k, members⟩, hg, heq⟩
    obtain ⟨rfl, rfl⟩ := Prod.mk.inj heq
    obtain ⟨hmet, hmembers⟩ := (mem_groupBy _).1 hg
    exact ⟨hmet, by rw [hmembers]⟩
  · rintro ⟨hmet, hmembers⟩
    exact ⟨(interval, itemsOf (fun a => (output a).interval) items interval), (mem_groupBy _).2 ⟨hmet, rfl⟩,
      congrArg (Prod.mk interval) hmembers.symm⟩

theorem bucket_eq {items : List α} {g : Int × Buckets α} (hg : g ∈ groupOutputs output items)
    {b : (Int × Int × Int) × List α} (hb : b ∈ g.2) :
    b.2 = itemsOf (fun a => (output a).scale.key) (itemsOf (fun a => (output a).interval) items g.1) b.1 := by
  rw [((mem_groupOutputs output).1 hg).2] at hb
  exact ((mem_groupBy _).1 hb).2

theorem mem_bucket {items : List α} {g : Int × Buckets α} (hg : g ∈ groupOutputs output items)
    {b : (Int × Int × Int) × List α} (hb : b ∈ g.2) {a : α} :
    a ∈ b.2 ↔ a ∈ items ∧ (output a).interval = g.1 ∧ (output a).scale.key = b.1 := by
  rw [bucket_eq output hg hb, mem_itemsOf, mem_itemsOf, and_assoc]

theorem exists_bucket {items : List α} {a : α} (ha : a ∈ items) :
    ∃ g ∈ groupOutputs output items, ∃ b ∈ g.2, (output a).interval = g.1 ∧ (output a).scale.key = b.1 := by
  have hitem : a ∈ itemsOf (fun a => (output a).interval) items (output a).interval := (mem_itemsOf _).2 ⟨ha, rfl⟩
  refine ⟨(_, groupBy _ _), (mem_groupOutputs output).2 ⟨⟨a, ha, rfl⟩, rfl⟩, (_, itemsOf _ _ _),
    (mem_groupBy _).2 ⟨⟨a, hitem, rfl⟩, rfl⟩, rfl, rfl⟩

theorem bucket_nonempty {items : List α} {g : Int × Buckets α}
    (hg : g ∈ groupOutputs output items) : g.2 ≠ [] ∧ ∀ b ∈ g.2, b.2 ≠ [] := by
  obtain ⟨⟨a, ha, hinterval⟩, hbuckets⟩ := (mem_groupOutputs output).1 hg
  have hitem : a ∈ itemsOf (fun a => (output a).interval) items g.1 := (mem_itemsOf _).2 ⟨ha, hinterval⟩
  rw [hbuckets]
  refine ⟨?_, fun b hb => group_ne_nil hb⟩
  exact List.ne_nil_of_mem (a := (_, itemsOf _ _ _)) ((mem_groupBy _).2 ⟨⟨a, hitem, rfl⟩, rfl⟩)

theorem flatMap_groupOutputs_perm (items : List α) :
    ((groupOutputs output items).flatMap fun g => g.2.flatMap (·.2)).Perm items := by
  rw [groupOutputs, List.flatMap_map]
  refine (List.Perm.flatMap_left _ fun g _ => flatMap_groupBy_perm _ g.2).trans ?_
  exact flatMap_groupBy_perm _ items

theorem groupOutputs_map {β : Type} (f : β → α) (items : List β) :
    groupOutputs output (items.map f) =
      (groupOutputs (output ∘ f) items).map fun g => (g.1, g.2.map fun b => (b.1, b.2.map f)) := by
  rw [groupOutputs, groupOutputs, groupBy_map, List.map_map, List.map_map]
  refine List.map_congr_left fun g _ => ?_
  simp only [Function.comp_apply, groupBy_map]
  rfl

/-- The interval and the scale of each bucket, in the order of the buckets. -/
def classesOf (items : List α) : List (Int × (Int × Int × Int)) :=
  (groupOutputs output items).flatMap fun g => g.2.map fun b => (g.1, b.1)

theorem mem_classesOf {items : List α} {c : Int × (Int × Int × Int)} :
    c ∈ classesOf output items ↔ ∃ a ∈ items, c = ((output a).interval, (output a).scale.key) := by
  simp only [classesOf, List.mem_flatMap, List.mem_map]
  constructor
  · rintro ⟨g, hg, b, hb, rfl⟩
    obtain ⟨a, ha⟩ := List.exists_mem_of_ne_nil _ ((bucket_nonempty output hg).2 b hb)
    obtain ⟨hitem, hinterval, hscale⟩ := (mem_bucket output hg hb).1 ha
    exact ⟨a, hitem, by rw [hinterval, hscale]⟩
  · rintro ⟨a, ha, rfl⟩
    obtain ⟨g, hg, b, hb, hinterval, hscale⟩ := exists_bucket output ha
    exact ⟨g, hg, b, hb, by rw [hinterval, hscale]⟩

theorem nodup_classesOf (items : List α) : (classesOf output items).Nodup := by
  rw [classesOf, List.nodup_flatMap]
  constructor
  · intro g hg
    rw [((mem_groupOutputs output).1 hg).2]
    exact .of_map Prod.snd (by simpa [List.map_map, Function.comp_def] using nodup_groupBy_keys _ _)
  · have hkeys := nodup_groupBy_keys (fun a => (output a).interval) items
    rw [groupOutputs, List.pairwise_map]
    refine (List.pairwise_map.1 hkeys).imp fun {g g'} hne c hc hc' => hne ?_
    obtain ⟨b, -, rfl⟩ := List.mem_map.1 hc
    obtain ⟨b', -, heq⟩ := List.mem_map.1 hc'
    exact (Prod.mk.inj heq).1.symm

theorem classesOf_map {β : Type} (f : β → α) (items : List β) :
    classesOf output (items.map f) = classesOf (output ∘ f) items := by
  rw [classesOf, groupOutputs_map, List.flatMap_map]
  refine List.flatMap_congr fun g _ => ?_
  rw [List.map_map]
  rfl

end Outputs

theorem Output.sameFilters_iff (a b : Output) :
    a.sameFilters b = true ↔ a.interval = b.interval ∧ a.scale.key = b.scale.key := by
  simp only [sameFilters, Framing.same, framing, sameScale, Scale.key, Prod.mk.injEq, Bool.and_eq_true,
    decide_eq_true_eq]
  constructor
  · rintro ⟨⟨⟨hwidth, hheight⟩, hbehavior⟩, hinterval⟩
    exact ⟨of_decide_eq_true hinterval, hbehavior, hwidth, hheight⟩
  · rintro ⟨hinterval, hbehavior, hwidth, hheight⟩
    exact ⟨⟨⟨hwidth, hheight⟩, hbehavior⟩, decide_eq_true hinterval⟩

/-! ## Positions in a list -/

section Positions
variable {outputs : List Output}

theorem pairwise_zipIdx (outputs : List Output) : outputs.zipIdx.Pairwise fun m n => m.2 < n.2 := by
  have h := List.pairwise_lt_range' (s := 0) (n := outputs.length)
  rwa [← List.zipIdx_map_snd, List.pairwise_map] at h

/-- The first position with one property is before the first with another, if some position with the one is before
all with the other. -/
theorem findIdx_lt {P Q : Output → Bool} {p : Nat} {o : Output} (ho : outputs[p]? = some o) (hP : P o = true)
    (hQ : ∃ o ∈ outputs, Q o = true) (h : ∀ q o, outputs[q]? = some o → Q o = true → p < q) :
    outputs.findIdx P < outputs.findIdx Q := by
  have hle : outputs.findIdx P ≤ p := by
    by_contra hlt
    obtain ⟨hp, rfl⟩ := List.getElem?_eq_some_iff.1 ho
    have hnot := List.not_of_lt_findIdx (Nat.lt_of_not_le hlt)
    rw [hP] at hnot
    cases hnot
  have hfound := List.findIdx_lt_length_of_exists hQ
  exact Nat.lt_of_le_of_lt hle (h _ _ (List.getElem?_eq_getElem hfound) (List.findIdx_getElem (w := hfound)))

/-- The groups of a list, each member with its position. -/
def groupsOf (outputs : List Output) : List (Int × Buckets (Output × Nat)) := groupOutputs Prod.fst outputs.zipIdx

theorem groupsOf_outputs (outputs : List Output) :
    groupOutputs id outputs = (groupsOf outputs).map fun g => (g.1, g.2.map fun b => (b.1, b.2.map Prod.fst)) := by
  have h := groupOutputs_map id Prod.fst outputs.zipIdx
  rwa [List.zipIdx_map_fst] at h

theorem mem_groupsOf_bucket {g : Int × Buckets (Output × Nat)} (hg : g ∈ groupsOf outputs)
    {b : (Int × Int × Int) × List (Output × Nat)} (hb : b ∈ g.2) {o : Output} {p : Nat} :
    (o, p) ∈ b.2 ↔ outputs[p]? = some o ∧ o.interval = g.1 ∧ o.scale.key = b.1 := by
  rw [mem_bucket Prod.fst hg hb, List.mem_zipIdx_iff_getElem?]

theorem groupsOf_intervals (outputs : List Output) :
    ((groupsOf outputs).map fun g => outputs.findIdx fun o => o.interval = g.1).Pairwise (· < ·) := by
  have hgroups := groupBy_pairwise (fun m : Output × Nat => m.1.interval) (pairwise_zipIdx outputs)
  rw [groupsOf, groupOutputs, List.map_map, List.pairwise_map]
  refine hgroups.imp_of_mem fun {g g'} hg hg' hfirst => ?_
  obtain ⟨⟨o, p⟩, hmem, hbefore⟩ := hfirst
  obtain ⟨⟨⟨o', p'⟩, hitem', hkey'⟩, hmembers'⟩ := (mem_groupBy _).1 hg'
  rw [((mem_groupBy _).1 hg).2, mem_itemsOf, List.mem_zipIdx_iff_getElem?] at hmem
  refine findIdx_lt hmem.1 (by simpa using hmem.2) ⟨o', List.fst_mem_of_mem_zipIdx hitem', by simpa using hkey'⟩ ?_
  intro q x hx hkey
  refine hbefore (x, q) ?_
  rw [hmembers', mem_itemsOf, List.mem_zipIdx_iff_getElem?]
  exact ⟨hx, by simpa using hkey⟩

theorem groupsOf_scales {g : Int × Buckets (Output × Nat)} (hg : g ∈ groupsOf outputs) :
    (g.2.map fun b => outputs.findIdx fun o => o.interval = g.1 ∧ o.scale.key = b.1).Pairwise (· < ·) := by
  have hbuckets := groupBy_pairwise (fun m : Output × Nat => m.1.scale.key)
    ((pairwise_zipIdx outputs).filter fun m => m.1.interval == g.1)
  have heq := ((mem_groupOutputs Prod.fst).1 hg).2
  rw [List.pairwise_map]
  rw [← itemsOf, ← heq] at hbuckets
  refine hbuckets.imp_of_mem fun {b b'} hb hb' hfirst => ?_
  obtain ⟨⟨o, p⟩, hmem, hbefore⟩ := hfirst
  obtain ⟨⟨o', p'⟩, hmem'⟩ := List.exists_mem_of_ne_nil _ ((bucket_nonempty Prod.fst hg).2 b' hb')
  rw [mem_groupsOf_bucket hg hb] at hmem
  rw [mem_groupsOf_bucket hg hb'] at hmem'
  refine findIdx_lt hmem.1 (by simpa using hmem.2) ⟨o', List.mem_of_getElem? hmem'.1, by simpa using hmem'.2⟩ ?_
  intro q x hx hkey
  exact hbefore (x, q) ((mem_groupsOf_bucket hg hb').2 ⟨hx, by simpa using hkey⟩)

/-- The groups of a list are its classes by shared filters, and stand in the order of the list. -/
structure StablePartition (outputs : List Output) (groups : List (Int × Buckets (Output × Nat))) : Prop where
  /-- A member is an output of the list with its position, and has the interval and the scale of its bucket. -/
  keyed : ∀ g ∈ groups, ∀ b ∈ g.2, ∀ m ∈ b.2,
    outputs[m.2]? = some m.1 ∧ m.1.interval = g.1 ∧ m.1.scale.key = b.1
  /-- Two positions are in one bucket exactly if their outputs can share their filters. -/
  shared : ∀ p q a b, outputs[p]? = some a → outputs[q]? = some b →
    ((∃ g ∈ groups, ∃ c ∈ g.2, (a, p) ∈ c.2 ∧ (b, q) ∈ c.2) ↔ a.sameFilters b = true)
  /-- Every position is in one bucket, once. -/
  each_once : (groups.flatMap fun g => g.2.flatMap fun b => b.2.map Prod.snd).Perm (List.range outputs.length)
  nonempty : ∀ g ∈ groups, g.2 ≠ [] ∧ ∀ b ∈ g.2, b.2 ≠ []
  members : ∀ g ∈ groups, ∀ b ∈ g.2, (b.2.map Prod.snd).Pairwise (· < ·)
  /-- Groups are ordered by the first position that has their interval. -/
  intervals : (groups.map fun g => outputs.findIdx fun o => o.interval = g.1).Pairwise (· < ·)
  /-- Buckets of a group are ordered by the first position of its interval that has their scale. -/
  scales : ∀ g ∈ groups,
    (g.2.map fun b => outputs.findIdx fun o => o.interval = g.1 ∧ o.scale.key = b.1).Pairwise (· < ·)

theorem groupsOf_stable (outputs : List Output) : StablePartition outputs (groupsOf outputs) where
  keyed g hg b hb m hm := (mem_groupsOf_bucket hg hb).1 hm
  shared p q a b ha hb := by
    rw [Output.sameFilters_iff]
    constructor
    · rintro ⟨g, hg, c, hc, hp, hq⟩
      rw [mem_groupsOf_bucket hg hc] at hp hq
      exact ⟨hp.2.1.trans hq.2.1.symm, hp.2.2.trans hq.2.2.symm⟩
    · rintro ⟨hinterval, hscale⟩
      obtain ⟨g, hg, c, hc, hgroup, hbucket⟩ := exists_bucket Prod.fst (List.mem_zipIdx_iff_getElem?.2 ha : (a, p) ∈ _)
      exact ⟨g, hg, c, hc, (mem_groupsOf_bucket hg hc).2 ⟨ha, hgroup, hbucket⟩,
        (mem_groupsOf_bucket hg hc).2 ⟨hb, hinterval ▸ hgroup, hscale ▸ hbucket⟩⟩
  each_once := by
    have h := (flatMap_groupOutputs_perm Prod.fst outputs.zipIdx).map Prod.snd
    rw [List.zipIdx_map_snd, ← List.range_eq_range'] at h
    simpa [groupsOf, List.map_flatMap] using h
  nonempty g hg := bucket_nonempty Prod.fst hg
  members g hg b hb := by
    rw [bucket_eq Prod.fst hg hb, List.pairwise_map]
    exact ((pairwise_zipIdx outputs).filter _).filter _
  intervals := groupsOf_intervals outputs
  scales g hg := groupsOf_scales hg

end Positions

end Thumbnailer
