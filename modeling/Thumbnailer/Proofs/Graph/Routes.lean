import Mathlib.Data.List.Nodup
import Thumbnailer.Output.Slots
import Thumbnailer.Proofs.Graph.Links
import Thumbnailer.Proofs.Violations

/-!
# What an output receives

The way back from a label to the source of a graph: within a statement to the filter before, and over a label to
the filter that emits it. The filters on the way are the ones an output asks for, whatever it shares with others.
-/

namespace Thumbnailer

/-! ## Ways through a graph -/

def Filter.bare (f : Filter) : Filter := { f with inputs := [], outputs := [] }

namespace Graph

structure Site where
  statement : Nat
  position : Nat
deriving DecidableEq, Repr

def filterAt? (g : Graph) (p : Site) : Option Filter := g[p.statement]?.bind fun chain => chain[p.position]?

/-- The filter at the first place feeds the one at the second. -/
inductive Feeds (g : Graph) : Site → Site → Prop where
  | within (s k : Nat) : Feeds g ⟨s, k⟩ ⟨s, k + 1⟩
  | across {p q : Site} {f f' : Filter} {label : String} (hf : g.filterAt? p = some f)
      (hf' : g.filterAt? q = some f') (out : label ∈ f.outputs) (into : label ∈ f'.inputs) : Feeds g p q

/-- The filters from the source down to a place, in order. -/
inductive Route (g : Graph) : Site → List Filter → Prop where
  | source {p : Site} {f : Filter} (hf : g.filterAt? p = some f) (hs : sourceLabel ∈ f.inputs) : Route g p [f]
  | behind {p q : Site} {f : Filter} {fs : List Filter} (hf : g.filterAt? q = some f)
      (hs : sourceLabel ∉ f.inputs) (hfeeds : Feeds g p q) (hroute : Route g p fs) : Route g q (fs ++ [f])

/-- Frames come to a label through these filters, not counting splits, and labels apart. -/
def Receives (g : Graph) (label : String) (stages : List Filter) : Prop :=
  ∃ p f fs, g.filterAt? p = some f ∧ label ∈ f.outputs ∧ Route g p fs ∧
    stages = (fs.filter fun x => x.name ≠ "split").map Filter.bare

end Graph

/-- What an output asks for: frames at its interval, at its size, and tiled if it is sprites. -/
def Output.stages (o : Output) : List Filter :=
  (selectFilter o.interval).bare :: scaleChain o.scale ++ if o.isSprites then [tileFilter o] else []

/-! ## There is one way -/

theorem index_unique {α β : Type} {l : List α} {f : α → List β} (h : (l.flatMap f).Nodup) {i j : Nat} {x y : α}
    (hi : l[i]? = some x) (hj : l[j]? = some y) {b : β} (hx : b ∈ f x) (hy : b ∈ f y) : i = j := by
  obtain ⟨li, rfl⟩ := List.getElem?_eq_some_iff.1 hi
  obtain ⟨lj, rfl⟩ := List.getElem?_eq_some_iff.1 hj
  have hdisjoint := List.pairwise_iff_getElem.1 (List.nodup_flatMap.1 h).2
  rcases Nat.lt_trichotomy i j with hlt | heq | hlt
  · exact absurd hy (hdisjoint i j li lj hlt hx)
  · exact heq
  · exact absurd hx (hdisjoint j i lj li hlt hy)

namespace Graph

theorem filterAt?_eq_some {g : Graph} {p : Site} {f : Filter} (h : g.filterAt? p = some f) :
    ∃ chain, g[p.statement]? = some chain ∧ chain[p.position]? = some f := by
  simpa [filterAt?, Option.bind_eq_some_iff] using h

/-- Where a label is emitted once, it comes from one place. -/
theorem site_unique {g : Graph} (h : (Graph.emitted g).Nodup) {p q : Site} {f f' : Filter}
    (hp : g.filterAt? p = some f) (hq : g.filterAt? q = some f') {label : String} (hf : label ∈ f.outputs)
    (hf' : label ∈ f'.outputs) : p = q := by
  obtain ⟨c, hc, hcf⟩ := filterAt?_eq_some hp
  obtain ⟨d, hd, hdf⟩ := filterAt?_eq_some hq
  have hmem : ∀ {chain : Chain} {k : Nat} {f : Filter}, chain[k]? = some f → label ∈ f.outputs →
      label ∈ Chain.emitted chain :=
    fun hk hl => List.mem_flatMap.2 ⟨_, List.mem_of_getElem? hk, hl⟩
  have hs : p.statement = q.statement := index_unique h hc hd (hmem hcf hf) (hmem hdf hf')
  rw [hs, hd, Option.some.injEq] at hc
  subst hc
  have hnodup := (List.nodup_flatMap.1 h).1 d (List.mem_of_getElem? hd)
  have hk : p.position = q.position := index_unique hnodup hcf hdf hf hf'
  cases p
  cases q
  simp_all

theorem Straight.inputs {g : Graph} (h : Straight g) {p : Site} {f : Filter} (hp : g.filterAt? p = some f) :
    (p.position = 0 ∧ ∃ label, f.inputs = [label]) ∨ (p.position ≠ 0 ∧ f.inputs = []) := by
  obtain ⟨c, hc, hcf⟩ := filterAt?_eq_some hp
  obtain ⟨label, hlabel⟩ := h c (List.mem_of_getElem? hc)
  cases c with
  | nil => exact hlabel.elim
  | cons x rest =>
    cases hk : p.position with
    | zero =>
      obtain rfl : x = f := by simpa [hk] using hcf
      exact Or.inl ⟨rfl, label, hlabel.1⟩
    | succ k =>
      have hf : rest[k]? = some f := by simpa [hk] using hcf
      exact Or.inr ⟨by simp, hlabel.2 f (List.mem_of_getElem? hf)⟩

theorem feeds_unique {g : Graph} (hs : Straight g) (he : (Graph.emitted g).Nodup) {p p' q : Site} {f : Filter}
    (hq : g.filterAt? q = some f) (h : Feeds g p q) (h' : Feeds g p' q) : p = p' := by
  -- A filter takes a label only if it is the first of its statement, where no filter stands before it.
  have hone : ∀ {s k : Nat} {f : Filter}, g.filterAt? ⟨s, k + 1⟩ = some f → f.inputs = [] := by
    intro s k f hf
    rcases hs.inputs hf with ⟨h0, -⟩ | ⟨-, h0⟩
    · exact absurd h0 (by simp)
    · exact h0
  cases h with
  | within s k =>
    cases h' with
    | within => rfl
    | across _ hf' _ hin =>
      rw [hone hf'] at hin
      exact absurd hin (by simp)
  | across hf hf' hout hin =>
    cases h' with
    | within =>
      rw [hone hf'] at hin
      exact absurd hin (by simp)
    | across hd hd' hout' hin' =>
      rw [hf', Option.some.injEq] at hd'
      subst hd'
      rcases hs.inputs hf' with ⟨-, label, hlabel⟩ | ⟨-, hnone⟩
      · rw [hlabel, List.mem_singleton] at hin hin'
        subst hin hin'
        exact site_unique he hf hd hout hout'
      · rw [hnone] at hin
        exact absurd hin (by simp)

theorem route_unique {g : Graph} (hs : Straight g) (he : (Graph.emitted g).Nodup) {p : Site} {fs fs' : List Filter}
    (h : Route g p fs) (h' : Route g p fs') : fs = fs' := by
  induction h generalizing fs' with
  | source hf hin =>
    cases h' with
    | source hf' => rw [hf, Option.some.injEq] at hf'; rw [hf']
    | behind hf' hnot =>
      rw [hf, Option.some.injEq] at hf'
      exact absurd (hf' ▸ hin) hnot
  | behind hf hnot hfeeds _ ih =>
    cases h' with
    | source hf' hin =>
      rw [hf, Option.some.injEq] at hf'
      exact absurd (hf' ▸ hin) hnot
    | behind hf' _ hfeeds' hroute' =>
      obtain rfl := feeds_unique hs he hf hfeeds hfeeds'
      rw [hf, Option.some.injEq] at hf'
      rw [ih hroute', hf']

theorem route_of_source {g : Graph} {s : Nat} {chain : Chain} (hc : g[s]? = some chain)
    (hsource : Chain.Straight sourceLabel chain) {k : Nat} (hk : k < chain.length) :
    Route g ⟨s, k⟩ (chain.take (k + 1)) := by
  have hat : ∀ k (hk : k < chain.length), g.filterAt? ⟨s, k⟩ = some chain[k] := by
    intro k hk
    simp [filterAt?, hc, hk]
  cases chain with
  | nil => exact hsource.elim
  | cons f rest =>
    induction k with
    | zero => exact .source (hat 0 hk) (by simp [hsource.1])
    | succ k ih =>
      have hnone : (f :: rest)[k + 1].inputs = [] := hsource.2 _ (by simp)
      have hnot : sourceLabel ∉ (f :: rest)[k + 1].inputs := by
        rw [hnone]
        simp
      rw [List.take_succ_eq_append_getElem hk]
      exact .behind (hat (k + 1) hk) hnot (.within s k) (ih (by omega))

theorem receives_unique {g : Graph} (hs : Straight g) (he : (Graph.emitted g).Nodup) {label : String}
    {stages stages' : List Filter} (h : Receives g label stages) (h' : Receives g label stages') :
    stages = stages' := by
  obtain ⟨p, f, fs, hp, hl, hroute, rfl⟩ := h
  obtain ⟨q, f', fs', hq, hl', hroute', rfl⟩ := h'
  obtain rfl := site_unique he hp hq hl hl'
  rw [route_unique hs he hroute hroute']

end Graph

/-! ## The way to an output -/

theorem bare_of_unlabelled {f : Filter} (h : f.inputs = [] ∧ f.outputs = []) : f.bare = f := by
  obtain ⟨name, args, params, inputs, outputs⟩ := f
  simp_all [Filter.bare]

theorem sharedChain_bare (e : Entry) :
    e.sharedChain.map Filter.bare = (selectFilter e.output.interval).bare :: scaleChain e.output.scale := by
  rw [Entry.sharedChain, List.map_cons]
  congr 1
  conv => rhs; rw [← List.map_id (scaleChain e.output.scale)]
  exact List.map_congr_left fun f hf => bare_of_unlabelled (scaleChain_unlabelled _ f hf)

theorem ownChain_bare (e : Entry) : e.ownChain.map Filter.bare = e.output.stages := by
  rw [Entry.ownChain, List.map_append, sharedChain_bare, Output.stages]
  split <;> rfl

theorem sharedChain_congr {entries members : List Entry} (h : members ∈ buckets entries) {e f : Entry}
    (he : e ∈ members) (hf : f ∈ members) : e.sharedChain = f.sharedChain := by
  obtain ⟨hinterval, hscale⟩ := bucket_shares h he hf
  rw [Entry.sharedChain, Entry.sharedChain, hinterval, hscale]

theorem filter_not_split {c : Chain} (h : ∀ f ∈ c, f.name ≠ "split") :
    (c.filter fun x => x.name ≠ "split") = c := List.filter_eq_self.2 (by simpa using h)

theorem receives_of_one {g : Graph} {e : Entry} (h : Chain.addOutput e.ownChain e.names.output ∈ g) :
    Graph.Receives g e.names.output e.output.stages := by
  obtain ⟨s, hs⟩ := List.mem_iff_getElem?.1 h
  obtain ⟨d, f, hd⟩ := (List.eq_nil_or_concat e.ownChain).resolve_left (ownChain_ne_nil e)
  have hchain : Chain.addOutput e.ownChain e.names.output = d ++ [f.addOutput e.names.output] := by
    rw [hd, List.concat_eq_append, Chain.addOutput_append_one]
  have hroute := Graph.route_of_source hs ((ownChain_straight e).addOutput _) (k := d.length) (by simp [hchain])
  refine ⟨⟨s, d.length⟩, f.addOutput e.names.output, _, by simp [Graph.filterAt?, hs, hchain],
    by simp [Filter.addOutput], hroute, ?_⟩
  have hname := Chain.map_addOutput (p := Filter.name) (fun _ _ => rfl) (ownChain_ne_nil e) e.names.output
  have hbare := Chain.map_addOutput (p := Filter.bare) (fun _ _ => rfl) (ownChain_ne_nil e) e.names.output
  rw [List.take_of_length_le (by simp [hchain]), filter_not_split, hbare, ownChain_bare]
  intro f' hf'
  have hin : f'.name ∈ e.ownChain.map Filter.name := hname ▸ List.mem_map_of_mem hf'
  obtain ⟨x, hx, heq⟩ := List.mem_map.1 hin
  exact heq ▸ ownChain_not_split e x hx

theorem route_of_split {g : Graph} {c : Chain} {f : Filter} {s : Nat} (hs : g[s]? = some (c ++ [f]))
    (hc : Chain.Straight sourceLabel (c ++ [f])) : Graph.Route g ⟨s, c.length⟩ (c ++ [f]) := by
  have hroute := Graph.route_of_source hs hc (k := c.length) (by simp)
  rwa [List.take_of_length_le (by simp)] at hroute

theorem sharedChain_stages (e : Entry) :
    (e.sharedChain.filter fun x => x.name ≠ "split").map Filter.bare =
      (selectFilter e.output.interval).bare :: scaleChain e.output.scale := by
  rw [filter_not_split (sharedChain_not_split e), sharedChain_bare]

theorem receives_of_many {g : Graph} {e e' : Entry} {rest : List Entry}
    (hg : ∀ c ∈ groupStatements (e :: e' :: rest), c ∈ g) {m : Entry} (hm : m ∈ e :: e' :: rest)
    (hshared : e.sharedChain = m.sharedChain) : Graph.Receives g m.names.output m.output.stages := by
  rw [groupStatements_many] at hg
  obtain ⟨s, hs⟩ := List.mem_iff_getElem?.1 (hg _ List.mem_cons_self)
  have hroute := route_of_split hs ((sharedChain_straight e).append (by simp [splitFilter]))
  have hsplit : g.filterAt? ⟨s, e.sharedChain.length⟩ = some (splitFilter (e :: e' :: rest)) := by
    simp [Graph.filterAt?, hs]
  have hlabel : m.splitLabel ∈ (splitFilter (e :: e' :: rest)).outputs := List.mem_map_of_mem hm
  -- The split labels the frames of thumbnails at once, and those of sprites go through their tiles.
  cases h : m.output.isSprites with
  | false =>
    rw [Entry.splitLabel, h, if_neg (by simp)] at hlabel
    refine ⟨_, _, _, hsplit, hlabel, hroute, ?_⟩
    rw [hshared, List.filter_append, List.map_append, sharedChain_stages]
    simp [Output.stages, h, splitFilter]
  | true =>
    rw [Entry.splitLabel, h, if_pos rfl] at hlabel
    have htile : m.tileStatement ∈ g :=
      hg _ (List.mem_cons_of_mem _ (List.mem_map_of_mem (List.mem_filter.2 ⟨hm, h⟩)))
    obtain ⟨t, ht⟩ := List.mem_iff_getElem?.1 htile
    have hat : g.filterAt? ⟨t, 0⟩ =
        some { tileFilter m.output with inputs := [m.names.input], outputs := [m.names.output] } := by
      simp [Graph.filterAt?, ht, Entry.tileStatement]
    have hnot : sourceLabel ∉ [m.names.input] := by
      rw [List.mem_singleton]
      exact (Output.names_input_ne_source h m.index).symm
    refine ⟨⟨t, 0⟩, _, _, hat, by simp, .behind hat hnot (.across hsplit hat hlabel (by simp)) hroute, ?_⟩
    rw [hshared, List.filter_append, List.filter_append, List.map_append, List.map_append, sharedChain_stages]
    simp [Output.stages, h, splitFilter, tileFilter, Filter.bare]

theorem receives_of_entry {entries : List Entry} {e : Entry} (he : e ∈ entries) :
    Graph.Receives (graphOf entries) e.names.output e.output.stages := by
  obtain ⟨ms, hms, hin⟩ := List.mem_flatten.1 ((buckets_perm entries).mem_iff.2 he)
  have hg : ∀ c ∈ groupStatements ms, c ∈ graphOf entries := by
    intro c hc
    rw [graphOf_eq]
    exact List.mem_flatMap.2 ⟨ms, hms, hc⟩
  match ms, bucket_ne_nil hms with
  | [x], _ =>
    obtain rfl : e = x := by simpa using hin
    exact receives_of_one (hg _ (by simp [groupStatements_one]))
  | x :: y :: rest, _ =>
    exact receives_of_many hg hin (sharedChain_congr hms (by simp) hin)

/-- An entry receives what its output asks for, and nothing else. -/
theorem graphOf_receives {entries : List Entry} (hd : (entries.map Entry.index).Nodup) {e : Entry}
    (he : e ∈ entries) (stages : List Filter) :
    Graph.Receives (graphOf entries) e.names.output stages ↔ stages = e.output.stages := by
  have hown := receives_of_entry he
  constructor
  · exact fun h => Graph.receives_unique (graphOf_straight entries) (nodup_emitted hd) h hown
  · rintro rfl
    exact hown

theorem scaleChain_of_not_fixed {s : Scale} (h : s.isFixed = false) :
    scaleChain s = [{ name := "scale", args := [.integer s.width, .integer s.height] }] := by
  simp [scaleChain, h]

theorem stages_fixed {o : Output} {f : Filter} (hf : f ∈ o.stages) (hname : f.name = "pad" ∨ f.name = "crop") :
    0 < o.scale.width ∧ 0 < o.scale.height := by
  have hfixed : o.scale.isFixed = true := by
    by_contra hnot
    rw [Output.stages, scaleChain_of_not_fixed (by simpa using hnot)] at hf
    have : f.name = "select" ∨ f.name = "scale" ∨ f.name = "tile" := by
      split at hf <;> simp at hf <;> rcases hf with rfl | rfl | rfl <;>
        simp [selectFilter, Filter.bare, tileFilter]
    rcases this with h | h | h <;> rcases hname with h' | h' <;> rw [h] at h' <;> exact absurd h' (by decide)
  simpa [Scale.isFixed] using hfixed

/-! ## Compiled slots -/

theorem getElem?_of_lastIndex? {i k : Nat} {order : List Nat} (h : lastIndex? i order = some k) :
    order[k]? = some i := by
  induction order generalizing k with
  | nil => simp [lastIndex?] at h
  | cons j rest ih =>
    rw [lastIndex?] at h
    cases hrest : lastIndex? i rest with
    | some l =>
      rw [hrest] at h
      obtain rfl : l + 1 = k := by simpa using h
      simpa using ih hrest
    | none =>
      rw [hrest] at h
      simp only at h
      split at h
      · rename_i hj
        obtain rfl : 0 = k := by simpa using h
        simp [hj]
      · simp at h

theorem lastIndex?_isSome {i : Nat} {order : List Nat} (h : i ∈ order) : ∃ k, lastIndex? i order = some k := by
  induction order with
  | nil => simp at h
  | cons j rest ih =>
    rw [lastIndex?]
    cases hrest : lastIndex? i rest with
    | some k => exact ⟨k + 1, rfl⟩
    | none =>
      rcases List.mem_cons.1 h with rfl | h
      · exact ⟨0, by simp⟩
      · obtain ⟨k, hk⟩ := ih h
        simp [hrest] at hk

namespace Slots

theorem entry_eq_some (slots : Slots) (order : List Nat) (i : Nat) (e : Entry) :
    (match slots[i]?, lastIndex? i order with
      | some s, some k => some ⟨k, s.output⟩
      | _, _ => none) = some e ↔
      ∃ s k, slots[i]? = some s ∧ lastIndex? i order = some k ∧ e = ⟨(k : Nat), s.output⟩ := by
  cases slots[i]? <;> cases lastIndex? i order <;> simp [eq_comm]

theorem entriesOf_index_nodup (slots : Slots) {order : List Nat} (hd : order.Nodup) :
    ((slots.entriesOf order).map Entry.index).Nodup := by
  rw [List.Nodup, List.pairwise_map, entriesOf, List.pairwise_filterMap]
  refine hd.imp fun {i j} hij e he e' he' heq => hij ?_
  obtain ⟨s, k, -, hk, rfl⟩ := (entry_eq_some slots order i e).1 he
  obtain ⟨s', k', -, hk', rfl⟩ := (entry_eq_some slots order j e').1 he'
  obtain rfl : k = k' := Int.ofNat.inj heq
  exact Option.some.inj ((getElem?_of_lastIndex? hk).symm.trans (getElem?_of_lastIndex? hk'))

end Slots

end Thumbnailer
