import Mathlib.Data.List.Induction
import Mathlib.Data.List.Perm.Basic
import Thumbnailer.Graph

/-!
# What grouping gives

`groupBy` has one group for each key, in the order in which keys are met, and a group holds the items of its
key in their order. A graph is made from the buckets of its entries: groups that share interval and scale.
-/

namespace Thumbnailer

/-! ## Keys in order -/

theorem eraseDups_append_one {κ : Type} [BEq κ] [LawfulBEq κ] (ks : List κ) (k : κ) :
    (ks ++ [k]).eraseDups = if ks.contains k then ks.eraseDups else ks.eraseDups ++ [k] := by
  rw [List.eraseDups_append]
  split
  · rename_i h
    simp_all [List.removeAll]
  · rename_i h
    simp_all [List.removeAll, List.eraseDups_cons]

theorem nodup_eraseDups {κ : Type} [BEq κ] [LawfulBEq κ] (ks : List κ) : ks.eraseDups.Nodup := by
  induction ks using List.reverseRecOn with
  | nil => simp
  | append_singleton ks k ih =>
    rw [eraseDups_append_one]
    split
    · exact ih
    · rename_i h
      refine List.nodup_append.2 ⟨ih, by simp, ?_⟩
      intro a ha b hb
      obtain rfl : b = k := by simpa using hb
      rintro rfl
      exact h (by simpa using List.mem_eraseDups.1 ha)

/-! ## Groups -/

section Grouping
variable {κ α : Type} [BEq κ] (key : α → κ)

/-- The items with a key, in their order. -/
def itemsOf (items : List α) (k : κ) : List α := items.filter fun a => key a == k

theorem itemsOf_append_one (items : List α) (a : α) (k : κ) :
    itemsOf key (items ++ [a]) k = itemsOf key items k ++ if key a == k then [a] else [] := by
  unfold itemsOf
  rw [List.filter_append]
  by_cases h : key a == k <;> simp [h]

theorem groupBy_append_one (items : List α) (a : α) :
    groupBy key (items ++ [a]) = addToGroup (key a) a (groupBy key items) := by
  simp [groupBy]

theorem flatMap_addToGroup (k : κ) (a : α) (groups : List (κ × List α)) :
    ((addToGroup k a groups).flatMap (·.2)).Perm (groups.flatMap (·.2) ++ [a]) := by
  induction groups with
  | nil => simp [addToGroup]
  | cons g groups ih =>
    obtain ⟨k', as⟩ := g
    rw [addToGroup]
    split
    · simp only [List.flatMap_cons, List.append_assoc]
      exact List.perm_append_comm.append_left as
    · simpa using ih.append_left as

/-- Every item is in exactly one group. -/
theorem flatMap_groupBy_perm (items : List α) : ((groupBy key items).flatMap (·.2)).Perm items := by
  induction items using List.reverseRecOn with
  | nil => rfl
  | append_singleton items a ih =>
    rw [groupBy_append_one]
    exact (flatMap_addToGroup _ _ _).trans (ih.append_right [a])

variable [LawfulBEq κ]

theorem addToGroup_map (ks : List κ) (items : List α) (a : α) (hks : ks.Nodup)
    (hnew : key a ∉ ks → itemsOf key items (key a) = []) :
    addToGroup (key a) a (ks.map fun k => (k, itemsOf key items k)) =
      (if ks.contains (key a) then ks else ks ++ [key a]).map fun k => (k, itemsOf key (items ++ [a]) k) := by
  induction ks with
  | nil => simp [addToGroup, itemsOf_append_one, hnew]
  | cons k ks ih =>
    obtain ⟨hk, hks⟩ := List.nodup_cons.1 hks
    rw [List.map_cons, addToGroup]
    by_cases h : k = key a
    · subst h
      -- No later group has this key, so all later groups stay.
      have hrest : ∀ k' ∈ ks, itemsOf key items k' = itemsOf key (items ++ [a]) k' := by
        intro k' hk'
        have hne : (key a == k') = false := by
          rw [beq_eq_false_iff_ne]
          rintro rfl
          exact hk hk'
        simp [itemsOf_append_one, hne]
      simpa [itemsOf_append_one] using hrest
    · have hne : (key a == k) = false := by simpa using Ne.symm h
      have hne' : (k == key a) = false := by simpa using h
      have hstep := ih hks fun hnot => hnew (by simp [hnot, Ne.symm h])
      rw [hne', if_neg (by simp), hstep, List.contains_cons, hne, Bool.false_or]
      split <;> simp [itemsOf_append_one, hne]

/-- The groups of a list: one for each key, in the order in which keys are met. -/
theorem groupBy_eq (items : List α) :
    groupBy key items = (items.map key).eraseDups.map fun k => (k, itemsOf key items k) := by
  induction items using List.reverseRecOn with
  | nil => rfl
  | append_singleton items a ih =>
    have hmet : (items.map key).eraseDups.contains (key a) = (items.map key).contains (key a) := by
      rw [Bool.eq_iff_iff, List.contains_iff_mem, List.contains_iff_mem, List.mem_eraseDups]
    rw [groupBy_append_one, ih, addToGroup_map key _ _ _ (nodup_eraseDups _), List.map_append, List.map_cons,
      List.map_nil, eraseDups_append_one, hmet]
    · intro h
      rw [itemsOf, List.filter_eq_nil_iff]
      intro b hb heq
      exact h (List.mem_eraseDups.2 (List.mem_map.2 ⟨b, hb, by simpa using heq⟩))

variable {key}

theorem key_of_mem_group {items : List α} {g : κ × List α} (hg : g ∈ groupBy key items) {a : α}
    (ha : a ∈ g.2) : key a = g.1 := by
  rw [groupBy_eq] at hg
  obtain ⟨k, -, rfl⟩ := List.mem_map.1 hg
  simpa [itemsOf] using (List.mem_filter.1 ha).2

theorem group_ne_nil {items : List α} {g : κ × List α} (hg : g ∈ groupBy key items) : g.2 ≠ [] := by
  rw [groupBy_eq] at hg
  obtain ⟨k, hk, rfl⟩ := List.mem_map.1 hg
  obtain ⟨a, ha, rfl⟩ := List.mem_map.1 (List.mem_eraseDups.1 hk)
  exact List.ne_nil_of_mem (List.mem_filter.2 ⟨ha, by simp⟩)

end Grouping

/-! ## Buckets -/

/-- The groups of entries that share their frames. -/
def buckets (entries : List Entry) : List (List Entry) :=
  (groupOutputs Entry.output entries).flatMap fun byInterval => byInterval.2.map (·.2)

theorem graphOf_eq (entries : List Entry) : graphOf entries = (buckets entries).flatMap groupStatements := by
  simp [graphOf, buckets, List.flatMap_assoc, List.flatMap_map]

theorem mem_buckets {entries members : List Entry} (h : members ∈ buckets entries) :
    ∃ g ∈ groupBy (fun e : Entry => e.output.interval) entries,
      ∃ b ∈ groupBy (fun e : Entry => e.output.scale.key) g.2, b.2 = members := by
  simpa [buckets, groupOutputs] using h

theorem bucket_ne_nil {entries members : List Entry} (h : members ∈ buckets entries) : members ≠ [] := by
  obtain ⟨g, -, b, hb, rfl⟩ := mem_buckets h
  exact group_ne_nil hb

theorem Scale.key_inj {s t : Scale} (h : s.key = t.key) : s = t := by
  obtain ⟨w, h, b⟩ := s
  obtain ⟨w', h', b'⟩ := t
  simp_all [Scale.key]

theorem bucket_shares {entries members : List Entry} (h : members ∈ buckets entries) {e f : Entry}
    (he : e ∈ members) (hf : f ∈ members) :
    e.output.interval = f.output.interval ∧ e.output.scale = f.output.scale := by
  obtain ⟨g, hg, b, hb, rfl⟩ := mem_buckets h
  have hin : ∀ {x}, x ∈ b.2 → x ∈ g.2 := fun {x} hx =>
    (flatMap_groupBy_perm _ g.2).subset (List.mem_flatMap.2 ⟨b, hb, hx⟩)
  refine ⟨(key_of_mem_group hg (hin he)).trans (key_of_mem_group hg (hin hf)).symm, ?_⟩
  exact Scale.key_inj ((key_of_mem_group hb he).trans (key_of_mem_group hb hf).symm)

theorem buckets_perm (entries : List Entry) : (buckets entries).flatten.Perm entries := by
  have hsplit : (buckets entries).flatten =
      (groupBy (fun e : Entry => e.output.interval) entries).flatMap fun g =>
        (groupBy (fun e : Entry => e.output.scale.key) g.2).flatMap (·.2) := by
    simp [buckets, groupOutputs, List.flatMap_map, List.flatten_eq_flatMap, List.flatMap_assoc]
  rw [hsplit]
  refine (List.Perm.flatMap_left _ fun g _ => flatMap_groupBy_perm _ g.2).trans ?_
  exact flatMap_groupBy_perm _ entries

end Thumbnailer
