import Mathlib.Data.Finset.Card
import Thumbnailer.Proofs.Slots.Named

/-!
# The stages of a graph

The filters of a compiled graph that take and scale frames: one of the one and one chain of the others for each class
of outputs that can share them. `outputs_grouped` says so, and that no way to share has fewer.
-/

namespace Thumbnailer

/-- The filter takes or scales frames: it neither hands them on nor tiles them. -/
def Filter.isStage (f : Filter) : Bool := f.name ≠ "split" && f.name ≠ "tile"

/-- The filters that take and scale frames, without labels. -/
def Graph.stages (g : Graph) : List Filter := (g.flatten.filter Filter.isStage).map Filter.bare

/-- What a class of outputs shares. -/
def stagesOf (interval : Int) (scale : Scale) : List Filter := (selectFilter interval).bare :: scaleChain scale

theorem stagesOf_isStage (interval : Int) (scale : Scale) : ∀ f ∈ stagesOf interval scale, f.isStage = true := by
  intro f hf
  rcases List.mem_cons.1 hf with rfl | hf
  · rfl
  · have hnames : ∀ name ∈ ["scale", "pad", "crop"], (name ≠ "split" && name ≠ "tile") = true := by decide
    exact hnames f.name (scaleChain_names scale f hf)

theorem Graph.stages_eq_filter (g : Graph) : g.stages = (g.flatten.map Filter.bare).filter Filter.isStage := by
  rw [stages, List.filter_map]
  rfl

theorem Graph.stages_append (g h : Graph) : (g ++ h).stages = g.stages ++ h.stages := by
  simp [stages]

theorem Graph.stages_flatMap {α : Type} (l : List α) (f : α → Graph) :
    Graph.stages (l.flatMap f) = l.flatMap fun a => (f a).stages := by
  induction l with
  | nil => rfl
  | cons a l ih => rw [List.flatMap_cons, stages_append, ih, List.flatMap_cons]

theorem stages_statement (c : Chain) : Graph.stages [c] = (c.map Filter.bare).filter Filter.isStage := by
  rw [Graph.stages_eq_filter]
  simp

theorem stages_tiles (members : List Entry) : Graph.stages (members.map Entry.tileStatement) = [] := by
  simp [Graph.stages, Entry.tileStatement, tileFilter, Filter.isStage]

theorem groupStatements_stages {e : Entry} (rest : List Entry) :
    Graph.stages (groupStatements (e :: rest)) = stagesOf e.output.interval e.output.scale := by
  have hall : (stagesOf e.output.interval e.output.scale).filter Filter.isStage =
      stagesOf e.output.interval e.output.scale := List.filter_eq_self.2 (stagesOf_isStage _ _)
  cases rest with
  | nil =>
    rw [groupStatements_one, stages_statement, Chain.map_addOutput (fun _ _ => rfl) (ownChain_ne_nil e), ownChain_bare]
    change List.filter Filter.isStage (stagesOf e.output.interval e.output.scale ++ _) = _
    rw [List.filter_append, hall]
    split <;> simp [tileFilter, Filter.isStage]
  | cons f rest =>
    rw [groupStatements_many, ← List.singleton_append, Graph.stages_append, stages_tiles, List.append_nil,
      stages_statement, List.map_append, sharedChain_bare, List.filter_append]
    change List.filter Filter.isStage (stagesOf e.output.interval e.output.scale) ++ _ = _
    rw [hall]
    simp [splitFilter, Filter.bare, Filter.isStage]

def Scale.ofKey (key : Int × Int × Int) : Scale := ⟨key.2.1, key.2.2, key.1⟩

theorem Scale.ofKey_key (s : Scale) : ofKey s.key = s := rfl

theorem graphOf_stages (entries : List Entry) :
    (graphOf entries).stages = (classesOf Entry.output entries).flatMap fun c => stagesOf c.1 (.ofKey c.2) := by
  rw [graphOf, Graph.stages_flatMap, classesOf, List.flatMap_assoc]
  refine List.flatMap_congr fun g hg => ?_
  rw [Graph.stages_flatMap, List.flatMap_map]
  refine List.flatMap_congr fun b hb => ?_
  obtain ⟨e, rest, hmembers⟩ := List.exists_cons_of_ne_nil ((bucket_nonempty Entry.output hg).2 b hb)
  obtain ⟨-, hinterval, hscale⟩ := (mem_bucket Entry.output hg hb).1 (hmembers ▸ List.mem_cons_self : e ∈ b.2)
  rw [hmembers, groupStatements_stages, ← hinterval, ← hscale, Scale.ofKey_key]

/-! ## How many stages there are -/

theorem countP_stages (g : Graph) {name : String} (h : (name ≠ "split" && name ≠ "tile") = true) :
    g.flatten.countP (fun f => f.name = name) = g.stages.countP fun f => f.name = name := by
  rw [Graph.stages, List.countP_map, List.countP_filter]
  refine List.countP_congr fun f _ => ?_
  by_cases hf : f.name = name <;> simp_all [Filter.bare, Filter.isStage]

theorem countP_flatMap_one {α : Type} {l : List α} {f : α → List Filter} {p : Filter → Bool}
    (h : ∀ a ∈ l, (f a).countP p = 1) : (l.flatMap f).countP p = l.length := by
  have hones : l.map (List.countP p ∘ f) = l.map fun _ => 1 := List.map_congr_left h
  rw [List.countP_flatMap, hones]
  simp

theorem stagesOf_select (interval : Int) (scale : Scale) :
    (stagesOf interval scale).countP (fun f => f.name = "select") = 1 := by
  have hnone : (scaleChain scale).countP (fun f => f.name = "select") = 0 := by
    rw [List.countP_eq_zero]
    intro f hf heq
    have hname := scaleChain_names scale f hf
    simp_all
  rw [stagesOf, List.countP_cons, hnone]
  rfl

theorem stagesOf_scale (interval : Int) (scale : Scale) :
    (stagesOf interval scale).countP (fun f => f.name = "scale") = 1 := by
  unfold stagesOf scaleChain
  simp only
  split <;> rfl

/-- Stages that serve only outputs which can share them are no fewer than the classes. -/
theorem classes_le_shares {β : Type} [DecidableEq β] {outputs : List Output} {share : Nat → β}
    (h : ∀ p q a b, outputs[p]? = some a → outputs[q]? = some b → share p = share q → a.sameFilters b = true) :
    (classesOf Prod.fst outputs.zipIdx).length ≤ ((List.range outputs.length).toFinset.image share).card := by
  -- Each class has a first position, and first positions of two classes do not share.
  let first (c : Int × (Int × Int × Int)) : Nat := outputs.findIdx fun o => (o.interval, o.scale.key) = c
  have hfirst : ∀ c ∈ classesOf Prod.fst outputs.zipIdx,
      ∃ o, outputs[first c]? = some o ∧ (o.interval, o.scale.key) = c := by
    intro c hc
    obtain ⟨⟨o, p⟩, hmem, rfl⟩ := (mem_classesOf Prod.fst).1 hc
    have hfound := List.findIdx_lt_length_of_exists
      (p := fun x : Output => (x.interval, x.scale.key) = (o.interval, o.scale.key))
      ⟨o, List.fst_mem_of_mem_zipIdx hmem, by simp⟩
    exact ⟨_, List.getElem?_eq_getElem hfound, by simpa using List.findIdx_getElem (w := hfound)⟩
  have hnodup : ((classesOf Prod.fst outputs.zipIdx).map fun c => share (first c)).Nodup := by
    refine (nodup_classesOf Prod.fst outputs.zipIdx).map_on fun c hc d hd heq => ?_
    obtain ⟨a, ha, rfl⟩ := hfirst c hc
    obtain ⟨b, hb, rfl⟩ := hfirst d hd
    obtain ⟨hinterval, hscale⟩ := (Output.sameFilters_iff a b).1 (h _ _ a b ha hb heq)
    rw [hinterval, hscale]
  rw [← List.length_map fun c => share (first c), ← List.toFinset_card_of_nodup hnodup]
  refine Finset.card_le_card fun x hx => ?_
  obtain ⟨c, hc, rfl⟩ := List.mem_map.1 (List.mem_toFinset.1 hx)
  obtain ⟨o, ho, -⟩ := hfirst c hc
  exact Finset.mem_image_of_mem share (List.mem_toFinset.2 (List.mem_range.2 (List.getElem?_eq_some_iff.1 ho).1))

namespace Slots

theorem entriesOf_outputs (slots : Slots) (order : List Nat) :
    (slots.entriesOf order).map Entry.output = slots.outputsOf order := by
  rw [entriesOf, outputsOf, List.map_filterMap]
  refine List.filterMap_congr fun i hi => ?_
  obtain ⟨k, hk⟩ := lastIndex?_isSome hi
  cases slots[i]? <;> simp [hk]

/-- **Outputs are grouped by what they can share.** The groups of a list are the classes of outputs that can share
their filters, in the order of the list. A list without a violation compiles to a graph with the stages of each class,
once, and no way to share only what can be shared has fewer. -/
theorem outputs_grouped (outputs : List Output) :
    groupOutputs id outputs = (groupsOf outputs).map (fun g => (g.1, g.2.map fun b => (b.1, b.2.map Prod.fst))) ∧
      StablePartition outputs (groupsOf outputs) ∧
      ∀ (slots : Slots) (order : List Nat), slots.outputsOf order = outputs → violation? outputs = none →
        ∃ g after, slots.compile order = (.ok g, after) ∧ slots.WrittenAs order g after ∧
          g.stages = (groupsOf outputs).flatMap (fun byInterval =>
            byInterval.2.flatMap fun byScale => stagesOf byInterval.1 (.ofKey byScale.1)) ∧
          ∀ (β : Type) [DecidableEq β] (share : Nat → β),
            (∀ p q a b, outputs[p]? = some a → outputs[q]? = some b → share p = share q → a.sameFilters b = true) →
            ∀ name ∈ ["select", "scale"], g.flatten.countP (fun f => f.name = name) ≤
              ((List.range outputs.length).toFinset.image share).card := by
  refine ⟨groupsOf_outputs outputs, groupsOf_stable outputs, fun slots order houtputs hv => ?_⟩
  have hclasses : classesOf Entry.output (slots.entriesOf order) = classesOf Prod.fst outputs.zipIdx := by
    have hentries := classesOf_map id Entry.output (slots.entriesOf order)
    have hpositions := classesOf_map id Prod.fst outputs.zipIdx
    rw [entriesOf_outputs, houtputs] at hentries
    rw [List.zipIdx_map_fst] at hpositions
    exact hentries.symm.trans hpositions
  have hstages := graphOf_stages (slots.entriesOf order)
  rw [hclasses] at hstages
  have hcompile : slots.compile order = (.ok (graphOf (slots.entriesOf order)), slots.rename order) := by
    simp [compile, houtputs, hv]
  refine ⟨_, _, hcompile, compile_writtenAs hcompile, ?_, ?_⟩
  · rw [hstages, classesOf, List.flatMap_assoc, groupsOf]
    simp only [List.flatMap_map]
  · intro β _ share hshare name hname
    have hcount : (graphOf (slots.entriesOf order)).flatten.countP (fun f => f.name = name) =
        (classesOf Prod.fst outputs.zipIdx).length := by
      rcases List.mem_cons.1 hname with rfl | hname
      · rw [countP_stages _ rfl, hstages]
        exact countP_flatMap_one fun c _ => stagesOf_select _ _
      · obtain rfl := List.mem_singleton.1 hname
        rw [countP_stages _ rfl, hstages]
        exact countP_flatMap_one fun c _ => stagesOf_scale _ _
    rw [hcount]
    exact classes_le_shares hshare

/-- Of four outputs, two that differ only in their kind share their stages, and the others have their own. -/
theorem outputs_grouped_four :
    let outputs : List Output := [
      { scale := { width := 320 } }, { kind := 1, scale := { width := 320 }, columns := 2 },
      { interval := 2000000, scale := { width := 320 } }, { scale := { width := 640 } }]
    (Slots.outputsOf (outputs.map fun o => { output := o }) [0, 1, 2, 3] = outputs ∧ violation? outputs = none) ∧
      ∃ g after, Slots.compile (outputs.map fun o => { output := o }) [0, 1, 2, 3] = (.ok g, after) ∧
        g.stages = [
          { name := "select", args := [.text "bitor(gte(t-prev_selected_t\\,1)\\,isnan(prev_selected_t))"] },
          { name := "scale", args := [.integer 320, .integer (-1)] },
          { name := "select", args := [.text "bitor(gte(t-prev_selected_t\\,1)\\,isnan(prev_selected_t))"] },
          { name := "scale", args := [.integer 640, .integer (-1)] },
          { name := "select", args := [.text "bitor(gte(t-prev_selected_t\\,2)\\,isnan(prev_selected_t))"] },
          { name := "scale", args := [.integer 320, .integer (-1)] }] ∧
        ∀ name ∈ ["select", "scale"], g.flatten.countP (fun f => f.name = name) ≤ 3 := by
  intro outputs
  have hvalid : violation? outputs = none := by decide
  obtain ⟨g, after, hcompile, -, hstages, hfewest⟩ :=
    (outputs_grouped outputs).2.2 (outputs.map fun o => { output := o }) [0, 1, 2, 3] rfl hvalid
  refine ⟨⟨rfl, hvalid⟩, g, after, hcompile, ?_, ?_⟩
  · rw [hstages]
    decide +kernel
  · refine hfewest _ (fun p => outputs[p]?.map fun o => (o.interval, o.scale.key)) fun p q a b ha hb heq => ?_
    rw [ha, hb] at heq
    exact (Output.sameFilters_iff a b).2 (by simpa using heq)

end Slots

end Thumbnailer
