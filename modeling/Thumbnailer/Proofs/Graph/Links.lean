import Mathlib.Data.List.Perm.Basic
import Mathlib.Data.List.Nodup
import Thumbnailer.Proofs.Groups
import Thumbnailer.Proofs.Graph.Labels

/-!
# The labels of a graph

Which labels the filters of a compiled graph emit and take. `graphOf_linked` says how they fit together: each
label is emitted once, taken at most once and only by a later statement, and the ones that are left open are
the labels that outputs are mapped by.
-/

namespace Thumbnailer

/-! ## Labels of statements -/

def Chain.emitted (c : Chain) : List String := c.flatMap Filter.outputs

def Chain.taken (c : Chain) : List String := c.flatMap Filter.inputs

def Graph.emitted (g : Graph) : List String := g.flatMap Chain.emitted

def Graph.taken (g : Graph) : List String := g.flatMap Chain.taken

theorem Chain.emitted_append (c d : Chain) : Chain.emitted (c ++ d) = Chain.emitted c ++ Chain.emitted d :=
  List.flatMap_append

theorem Graph.emitted_append (g h : Graph) : Graph.emitted (g ++ h) = Graph.emitted g ++ Graph.emitted h :=
  List.flatMap_append

/-- A statement reads from one label, in its first filter. -/
def Chain.Straight (label : String) : Chain → Prop
  | [] => False
  | f :: rest => f.inputs = [label] ∧ ∀ x ∈ rest, x.inputs = []

theorem Chain.Straight.append {label : String} {c d : Chain} (hc : Chain.Straight label c)
    (hd : ∀ f ∈ d, f.inputs = []) : Chain.Straight label (c ++ d) := by
  cases c with
  | nil => exact hc.elim
  | cons f rest =>
    refine ⟨hc.1, fun x hx => ?_⟩
    rcases List.mem_append.1 hx with hx | hx
    · exact hc.2 x hx
    · exact hd x hx

theorem Chain.Straight.taken {label : String} {c : Chain} (hc : Chain.Straight label c) :
    Chain.taken c = [label] := by
  cases c with
  | nil => exact hc.elim
  | cons f rest =>
    have hrest : rest.flatMap Filter.inputs = [] := List.flatMap_eq_nil_iff.2 hc.2
    rw [Chain.taken, List.flatMap_cons, hrest, hc.1]
    rfl

/-! ## One more label at the end -/

theorem Chain.addOutput_append_one (c : Chain) (f : Filter) (label : String) :
    Chain.addOutput (c ++ [f]) label = c ++ [f.addOutput label] := by
  induction c with
  | nil => rfl
  | cons x c ih =>
    have hne : c ++ [f] ≠ [] := by simp
    rw [List.cons_append, Chain.addOutput, ih]
    · rfl
    · exact hne

theorem Chain.emitted_addOutput {c : Chain} (h : c ≠ []) (label : String) :
    Chain.emitted (Chain.addOutput c label) = Chain.emitted c ++ [label] := by
  obtain ⟨d, f, rfl⟩ := (List.eq_nil_or_concat c).resolve_left h
  rw [List.concat_eq_append, addOutput_append_one, emitted_append, emitted_append]
  simp [emitted, Filter.addOutput]

theorem Chain.map_addOutput {β : Type} {p : Filter → β} (hp : ∀ f label, p (f.addOutput label) = p f)
    {c : Chain} (h : c ≠ []) (label : String) : (Chain.addOutput c label).map p = c.map p := by
  obtain ⟨d, f, rfl⟩ := (List.eq_nil_or_concat c).resolve_left h
  rw [List.concat_eq_append, addOutput_append_one]
  simp [hp]

theorem Chain.Straight.addOutput {label : String} {c : Chain} (hc : Chain.Straight label c) (l : String) :
    Chain.Straight label (Chain.addOutput c l) := by
  cases c with
  | nil => exact hc.elim
  | cons f rest =>
    have hmap := Chain.map_addOutput (p := Filter.inputs) (fun _ _ => rfl) (List.cons_ne_nil f rest) l
    cases hd : Chain.addOutput (f :: rest) l with
    | nil => simp [hd] at hmap
    | cons f' rest' =>
      rw [hd, List.map_cons, List.map_cons, List.cons.injEq] at hmap
      refine ⟨hmap.1.trans hc.1, fun x hx => ?_⟩
      have hmem : x.inputs ∈ rest.map Filter.inputs := hmap.2 ▸ List.mem_map_of_mem hx
      obtain ⟨y, hy, heq⟩ := List.mem_map.1 hmem
      rw [← heq, hc.2 y hy]

/-! ## The statements of a group -/

/-- The filters that a bucket shares: they take frames and scale them. -/
def Entry.sharedChain (e : Entry) : Chain := selectFilter e.output.interval :: scaleChain e.output.scale

def splitFilter (members : List Entry) : Filter :=
  { name := "split", args := [.integer members.length], outputs := members.map Entry.splitLabel }

def spritesOf (members : List Entry) : List Entry := members.filter fun m => m.output.isSprites

theorem scaleChain_unlabelled (s : Scale) : ∀ f ∈ scaleChain s, f.inputs = [] ∧ f.outputs = [] := by
  unfold scaleChain
  simp only
  split <;> simp

theorem scaleChain_names (s : Scale) : ∀ f ∈ scaleChain s, f.name ∈ ["scale", "pad", "crop"] := by
  unfold scaleChain
  simp only
  split <;> simp

theorem sharedChain_straight (e : Entry) : Chain.Straight sourceLabel e.sharedChain :=
  ⟨rfl, fun f hf => (scaleChain_unlabelled _ f hf).1⟩

theorem sharedChain_emitted (e : Entry) : Chain.emitted e.sharedChain = [] := by
  rw [Chain.emitted, List.flatMap_eq_nil_iff]
  intro f hf
  rcases List.mem_cons.1 hf with rfl | hf
  · rfl
  · exact (scaleChain_unlabelled _ f hf).2

theorem sharedChain_not_split (e : Entry) : ∀ f ∈ e.sharedChain, f.name ≠ "split" := by
  intro f hf h
  rcases List.mem_cons.1 hf with rfl | hf
  · have hname : (selectFilter e.output.interval).name = "select" := rfl
    rw [hname] at h
    exact absurd h (by decide)
  · have hname := scaleChain_names _ f hf
    rw [h] at hname
    exact absurd hname (by decide)

/-- A bucket of one output ends in its tiles, if it has any, and in its label. -/
def Entry.ownChain (e : Entry) : Chain :=
  e.sharedChain ++ if e.output.isSprites then [tileFilter e.output] else []

theorem groupStatements_one (e : Entry) :
    groupStatements [e] = [Chain.addOutput e.ownChain e.names.output] := by
  cases h : e.output.isSprites <;> simp [groupStatements, Entry.ownChain, Entry.sharedChain, h]

theorem groupStatements_many (e f : Entry) (rest : List Entry) :
    groupStatements (e :: f :: rest) =
      (e.sharedChain ++ [splitFilter (e :: f :: rest)]) ::
        (spritesOf (e :: f :: rest)).map Entry.tileStatement := rfl

theorem ownChain_not_split (e : Entry) : ∀ f ∈ e.ownChain, f.name ≠ "split" := by
  intro f hf
  rcases List.mem_append.1 hf with hf | hf
  · exact sharedChain_not_split e f hf
  · split at hf <;> simp_all [tileFilter]

theorem ownChain_straight (e : Entry) : Chain.Straight sourceLabel e.ownChain := by
  refine (sharedChain_straight e).append fun f hf => ?_
  split at hf <;> simp_all [tileFilter]

theorem ownChain_ne_nil (e : Entry) : e.ownChain ≠ [] := by simp [Entry.ownChain, Entry.sharedChain]

theorem ownChain_emitted (e : Entry) : Chain.emitted e.ownChain = [] := by
  rw [Entry.ownChain, Chain.emitted_append, sharedChain_emitted]
  split <;> simp [Chain.emitted, tileFilter]

/-- Every statement of a graph reads from one label. -/
def Graph.Straight (g : Graph) : Prop := ∀ c ∈ g, ∃ label, Chain.Straight label c

theorem graphOf_straight (entries : List Entry) : Graph.Straight (graphOf entries) := by
  intro c hc
  rw [graphOf_eq] at hc
  obtain ⟨ms, hms, hc⟩ := List.mem_flatMap.1 hc
  match ms, bucket_ne_nil hms with
  | [e], _ =>
    rw [groupStatements_one, List.mem_singleton] at hc
    exact ⟨sourceLabel, hc ▸ (ownChain_straight e).addOutput _⟩
  | e :: f :: rest, _ =>
    rw [groupStatements_many] at hc
    rcases List.mem_cons.1 hc with rfl | hc
    · exact ⟨sourceLabel, (sharedChain_straight e).append (by simp [splitFilter])⟩
    · obtain ⟨m, -, rfl⟩ := List.mem_map.1 hc
      exact ⟨m.names.input, rfl, by simp⟩

/-- The labels over which a bucket feeds its tiles. -/
def linksOf : List Entry → List String
  | [] | [_] => []
  | e :: f :: rest => (spritesOf (e :: f :: rest)).map fun m => m.names.input

theorem splitLabels_perm (members : List Entry) :
    (members.map Entry.splitLabel ++ (spritesOf members).map fun m => m.names.output).Perm
      ((members.map fun m => m.names.output) ++ (spritesOf members).map fun m => m.names.input) := by
  induction members with
  | nil => rfl
  | cons e rest ih =>
    cases h : e.output.isSprites
    · simpa [spritesOf, Entry.splitLabel, h] using ih
    · simp only [spritesOf, List.filter_cons, h, if_true, List.map_cons, Entry.splitLabel, List.cons_append]
      refine ((List.perm_middle.trans (ih.cons _)).cons _).trans ?_
      exact (List.Perm.swap _ _ _).trans (List.perm_middle.symm.cons _)

theorem tileStatements_emitted (members : List Entry) :
    Graph.emitted (members.map Entry.tileStatement) = members.map fun m => m.names.output := by
  induction members with
  | nil => rfl
  | cons e rest ih =>
    rw [List.map_cons, Graph.emitted, List.flatMap_cons]
    exact congrArg (e.names.output :: ·) ih

theorem tileStatements_taken (members : List Entry) :
    Graph.taken (members.map Entry.tileStatement) = members.map fun m => m.names.input := by
  induction members with
  | nil => rfl
  | cons e rest ih =>
    rw [List.map_cons, Graph.taken, List.flatMap_cons]
    exact congrArg (e.names.input :: ·) ih

theorem groupStatements_emitted {members : List Entry} (h : members ≠ []) :
    (Graph.emitted (groupStatements members)).Perm ((members.map fun m => m.names.output) ++ linksOf members) := by
  match members, h with
  | [e], _ =>
    rw [groupStatements_one]
    simp [Graph.emitted, Chain.emitted_addOutput (ownChain_ne_nil e), ownChain_emitted, linksOf]
  | e :: f :: rest, _ =>
    rw [groupStatements_many, Graph.emitted, List.flatMap_cons, Chain.emitted_append, sharedChain_emitted,
      List.nil_append, ← Graph.emitted, tileStatements_emitted]
    simpa [Chain.emitted, splitFilter, linksOf] using splitLabels_perm (e :: f :: rest)

theorem groupStatements_taken {members : List Entry} (h : members ≠ []) :
    Graph.taken (groupStatements members) = sourceLabel :: linksOf members := by
  match members, h with
  | [e], _ =>
    rw [groupStatements_one, Graph.taken, List.flatMap_cons, ((ownChain_straight e).addOutput _).taken]
    rfl
  | e :: f :: rest, _ =>
    have hstraight : Chain.Straight sourceLabel (e.sharedChain ++ [splitFilter (e :: f :: rest)]) :=
      (sharedChain_straight e).append (by simp [splitFilter])
    rw [groupStatements_many, Graph.taken, List.flatMap_cons, hstraight.taken, ← Graph.taken,
      tileStatements_taken]
    rfl

/-! ## The labels of all buckets -/

theorem graphOf_emitted (entries : List Entry) :
    (Graph.emitted (graphOf entries)).Perm
      ((entries.map fun e => e.names.output) ++ (buckets entries).flatMap linksOf) := by
  have hgroups : (Graph.emitted (graphOf entries)).Perm
      ((buckets entries).flatMap fun ms => (ms.map fun m => m.names.output) ++ linksOf ms) := by
    rw [graphOf_eq, Graph.emitted, List.flatMap_assoc]
    exact List.Perm.flatMap_left _ fun ms hms => groupStatements_emitted (bucket_ne_nil hms)
  have hall : ((buckets entries).flatMap fun ms => ms.map fun m => m.names.output).Perm
      (entries.map fun e => e.names.output) := by
    rw [List.flatMap_def, ← List.map_flatten]
    exact (buckets_perm entries).map _
  exact hgroups.trans ((List.flatMap_append_perm _ _ _).symm.trans (hall.append_right _))

theorem graphOf_ne_nil {entries : List Entry} (h : entries ≠ []) : graphOf entries ≠ [] := by
  obtain ⟨e, he⟩ := List.exists_mem_of_ne_nil _ h
  have hmem : e.names.output ∈ Graph.emitted (graphOf entries) :=
    (graphOf_emitted entries).mem_iff.2 (List.mem_append_left _ (List.mem_map.2 ⟨e, he, rfl⟩))
  intro hnil
  simp [hnil, Graph.emitted] at hmem

theorem graphOf_taken (entries : List Entry) :
    Graph.taken (graphOf entries) = (buckets entries).flatMap fun ms => sourceLabel :: linksOf ms := by
  rw [graphOf_eq, Graph.taken, List.flatMap_assoc]
  exact List.flatMap_congr fun ms hms => groupStatements_taken (bucket_ne_nil hms)

theorem linksOf_sublist (members : List Entry) :
    (linksOf members).Sublist ((spritesOf members).map fun m => m.names.input) := by
  match members with
  | [] => exact List.nil_sublist _
  | [e] => exact List.nil_sublist _
  | e :: f :: rest => exact List.Sublist.refl _

theorem flatMap_linksOf_sublist (groups : List (List Entry)) :
    (groups.flatMap linksOf).Sublist ((spritesOf groups.flatten).map fun m => m.names.input) := by
  induction groups with
  | nil => exact List.nil_sublist _
  | cons ms groups ih =>
    rw [List.flatMap_cons, List.flatten_cons, spritesOf, List.filter_append, List.map_append]
    exact (linksOf_sublist ms).append ih

theorem mem_links {entries : List Entry} {label : String} (h : label ∈ (buckets entries).flatMap linksOf) :
    ∃ e ∈ entries, e.output.isSprites = true ∧ e.names.input = label := by
  obtain ⟨e, he, rfl⟩ := List.mem_map.1 ((flatMap_linksOf_sublist _).subset h)
  obtain ⟨hmem, hs⟩ := List.mem_filter.1 he
  exact ⟨e, (buckets_perm entries).subset hmem, hs, rfl⟩

/-! ## Labels of distinct outputs -/

theorem nodup_labels {entries : List Entry} (h : (entries.map Entry.index).Nodup) {label : Entry → String}
    (hlabel : ∀ e ∈ entries, ∀ f ∈ entries, label e = label f → e.index = f.index) :
    (entries.map label).Nodup := by
  rw [List.Nodup, List.pairwise_map] at h ⊢
  exact h.imp_of_mem fun he hf hne heq => hne (hlabel _ he _ hf heq)

section Distinct
variable {entries : List Entry} (hd : (entries.map Entry.index).Nodup)
include hd

theorem nodup_outputs : (entries.map fun e => e.names.output).Nodup :=
  nodup_labels hd fun _ _ _ _ h => Output.names_output_inj h

theorem nodup_links : ((buckets entries).flatMap linksOf).Nodup := by
  refine (flatMap_linksOf_sublist _).nodup ?_
  have hperm : ((spritesOf (buckets entries).flatten).map fun m => m.names.input).Perm
      ((spritesOf entries).map fun m => m.names.input) := ((buckets_perm entries).filter _).map _
  refine hperm.nodup_iff.2 (nodup_labels ((List.filter_sublist.map _).nodup hd) ?_)
  intro e he f hf
  exact Output.names_input_inj (List.mem_filter.1 he).2 (List.mem_filter.1 hf).2

theorem nodup_emitted : (Graph.emitted (graphOf entries)).Nodup := by
  refine (graphOf_emitted entries).nodup_iff.2 (List.nodup_append.2 ⟨nodup_outputs hd, nodup_links hd, ?_⟩)
  rintro _ ha _ hb rfl
  obtain ⟨e, -, heq⟩ := List.mem_map.1 ha
  obtain ⟨f, -, hf, heq'⟩ := mem_links hb
  exact Output.names_input_ne_output hf _ _ _ (heq'.trans heq.symm)

end Distinct

/-! ## How labels fit together -/

/-- What a statement takes was emitted before it, or is the label of the source. -/
def Graph.TakenAfter (g : Graph) : Prop :=
  ∀ before c after, g = before ++ c :: after →
    ∀ label ∈ Chain.taken c, label ≠ sourceLabel → label ∈ Graph.emitted before

/-- The labels of a graph fit together and leave these labels open, for the outputs to be mapped by. -/
structure Graph.Linked (g : Graph) (openLabels : List String) : Prop where
  emitted_once : (Graph.emitted g).Nodup
  taken_once : ∀ label ∈ Graph.taken g, label ≠ sourceLabel → (Graph.taken g).count label = 1
  taken_after : Graph.TakenAfter g
  /-- A split says how many labels it has, at least two. -/
  split_count : ∀ c ∈ g, ∀ f ∈ c, f.name = "split" →
    f.args = [.integer f.outputs.length] ∧ f.params = [] ∧ 2 ≤ f.outputs.length
  open_nodup : openLabels.Nodup
  mem_open : ∀ label, label ∈ openLabels ↔ label ∈ Graph.emitted g ∧ label ∉ Graph.taken g

/-- A label other than the source's is taken as often as it links the statements of a bucket. -/
theorem count_taken (entries : List Entry) {label : String} (h : label ≠ sourceLabel) :
    (Graph.taken (graphOf entries)).count label = ((buckets entries).flatMap linksOf).count label := by
  rw [graphOf_taken, List.count_flatMap, List.count_flatMap]
  refine congrArg List.sum (List.map_congr_left fun ms _ => ?_)
  simp [Ne.symm h]

theorem Graph.TakenAfter.append {g h : Graph} (hg : Graph.TakenAfter g) (hh : Graph.TakenAfter h) :
    Graph.TakenAfter (g ++ h) := by
  intro before c after heq label hl hne
  rcases List.append_eq_append_iff.1 heq with ⟨d, rfl, hd⟩ | ⟨d, rfl, hd⟩
  · have := hh d c after hd label hl hne
    rw [Graph.emitted_append]
    exact List.mem_append_right _ this
  · cases d with
    | nil =>
      have := hh [] c after (by simpa using hd.symm) label hl hne
      exact absurd this (by simp [Graph.emitted])
    | cons c' d =>
      obtain ⟨rfl, -⟩ : c = c' ∧ _ := by simpa using hd
      exact hg before c d rfl label hl hne

theorem groupStatements_takenAfter {members : List Entry} (h : members ≠ []) :
    Graph.TakenAfter (groupStatements members) := by
  intro before c after heq label hl hne
  match members, h with
  | [e], _ =>
    rw [groupStatements_one] at heq
    obtain ⟨rfl, rfl, rfl⟩ : before = [] ∧ c = Chain.addOutput e.ownChain e.names.output ∧ after = [] := by
      cases before <;> simp_all
    rw [((ownChain_straight e).addOutput _).taken] at hl
    exact absurd (by simpa using hl) hne
  | e :: f :: rest, _ =>
    have hstraight : Chain.Straight sourceLabel (e.sharedChain ++ [splitFilter (e :: f :: rest)]) :=
      (sharedChain_straight e).append (by simp [splitFilter])
    rw [groupStatements_many] at heq
    cases before with
    | nil =>
      obtain ⟨rfl, -⟩ := List.cons.inj heq
      rw [hstraight.taken] at hl
      exact absurd (by simpa using hl) hne
    | cons d before =>
      obtain ⟨rfl, htiles⟩ := List.cons.inj heq
      -- The statement is one of the tiles, which the split feeds.
      have hc : c ∈ (spritesOf (e :: f :: rest)).map Entry.tileStatement := by simp [htiles]
      obtain ⟨m, hm, rfl⟩ := List.mem_map.1 hc
      obtain rfl : label = m.names.input := by simpa [Chain.taken, Entry.tileStatement] using hl
      obtain ⟨hmem, hs⟩ := List.mem_filter.1 hm
      rw [Graph.emitted, List.flatMap_cons, Chain.emitted_append]
      refine List.mem_append_left _ (List.mem_append_right _ ?_)
      have : m.splitLabel ∈ (e :: f :: rest).map Entry.splitLabel := List.mem_map_of_mem hmem
      simpa [Chain.emitted, splitFilter, Entry.splitLabel, hs] using this

theorem flatMap_takenAfter (groups : List (List Entry)) (h : ∀ ms ∈ groups, ms ≠ []) :
    Graph.TakenAfter (groups.flatMap groupStatements) := by
  induction groups with
  | nil =>
    intro before c after heq
    simp at heq
  | cons ms groups ih =>
    rw [List.flatMap_cons]
    exact (groupStatements_takenAfter (h ms (by simp))).append (ih fun x hx => h x (by simp [hx]))

theorem split_of_mem {members : List Entry} (h : members ≠ []) {c : Chain} (hc : c ∈ groupStatements members)
    {f : Filter} (hf : f ∈ c) (hname : f.name = "split") :
    f = splitFilter members ∧ 2 ≤ members.length := by
  match members, h with
  | [e], _ =>
    rw [groupStatements_one, List.mem_singleton] at hc
    subst hc
    have hmap := Chain.map_addOutput (p := Filter.name) (fun _ _ => rfl) (ownChain_ne_nil e) e.names.output
    have hin : f.name ∈ e.ownChain.map Filter.name := hmap ▸ List.mem_map_of_mem hf
    obtain ⟨f', hf', heq⟩ := List.mem_map.1 hin
    exact absurd (heq.trans hname) (ownChain_not_split e f' hf')
  | e :: e' :: rest, _ =>
    rw [groupStatements_many] at hc
    rcases List.mem_cons.1 hc with rfl | hc
    · rcases List.mem_append.1 hf with hf | hf
      · exact absurd hname (sharedChain_not_split e f hf)
      · exact ⟨by simpa using hf, by simp⟩
    · obtain ⟨m, -, rfl⟩ := List.mem_map.1 hc
      obtain rfl : f = _ := by simpa [Entry.tileStatement] using hf
      exact absurd (show "tile" = "split" from hname) (by decide)

theorem mem_taken {entries : List Entry} {label : String} (h : label ∈ Graph.taken (graphOf entries)) :
    label = sourceLabel ∨ label ∈ (buckets entries).flatMap linksOf := by
  by_cases hs : label = sourceLabel
  · exact Or.inl hs
  · have hpos := List.count_pos_iff.2 h
    rw [count_taken entries hs] at hpos
    exact Or.inr (List.count_pos_iff.1 hpos)

theorem links_taken {entries : List Entry} {label : String} (h : label ∈ (buckets entries).flatMap linksOf) :
    label ∈ Graph.taken (graphOf entries) := by
  obtain ⟨e, -, hs, rfl⟩ := mem_links h
  have hne : e.names.input ≠ sourceLabel := Output.names_input_ne_source hs _
  rw [← List.count_pos_iff, count_taken entries hne]
  exact List.count_pos_iff.2 h

theorem output_not_taken (entries : List Entry) (e : Entry) : e.names.output ∉ Graph.taken (graphOf entries) := by
  intro h
  rcases mem_taken h with hs | hl
  · exact Output.names_output_ne_source _ _ hs
  · obtain ⟨f, -, hf, heq⟩ := mem_links hl
    exact Output.names_input_ne_output hf _ _ _ heq

/-- The labels of a compiled graph fit together, and the open ones are those that outputs are mapped by. -/
theorem graphOf_linked {entries : List Entry} (hd : (entries.map Entry.index).Nodup) :
    Graph.Linked (graphOf entries) (entries.map fun e => e.names.output) where
  emitted_once := nodup_emitted hd
  taken_once label hl hne := by
    rw [count_taken entries hne]
    exact List.count_eq_one_of_mem (nodup_links hd) ((mem_taken hl).resolve_left hne)
  taken_after := by
    rw [graphOf_eq]
    exact flatMap_takenAfter _ fun _ => bucket_ne_nil
  split_count c hc f hf hname := by
    rw [graphOf_eq] at hc
    obtain ⟨ms, hms, hc⟩ := List.mem_flatMap.1 hc
    obtain ⟨rfl, hlen⟩ := split_of_mem (bucket_ne_nil hms) hc hf hname
    simpa [splitFilter] using hlen
  open_nodup := nodup_outputs hd
  mem_open label := by
    rw [(graphOf_emitted entries).mem_iff, List.mem_append]
    -- Inner labels are all taken: each links two statements of a bucket. No output label is.
    constructor
    · intro h
      obtain ⟨e, -, rfl⟩ := List.mem_map.1 h
      exact ⟨Or.inl h, output_not_taken entries e⟩
    · rintro ⟨h | h, hnot⟩
      · exact h
      · exact absurd (links_taken h) hnot

end Thumbnailer
