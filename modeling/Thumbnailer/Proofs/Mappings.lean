import Thumbnailer.Plan
import Thumbnailer.Proofs.Graph.Decoding

/-!
# What a command maps

The argument list of a plan in full. `args_map_open_labels` says that it maps the labels that the plan's graph
leaves open, each of them once, to the places that outputs go to.
-/

namespace Thumbnailer

/-! ## Entries of a list -/

theorem entriesOf_index_nodup (outputs : List Output) : ((entriesOf outputs).map Entry.index).Nodup := by
  have hindex : (entriesOf outputs).map Entry.index = (List.range outputs.length).map Int.ofNat := by
    rw [entriesOf, List.map_map, List.range_eq_range', ← List.zipIdx_map_snd 0 outputs, List.map_map]
    rfl
  rw [hindex]
  exact List.nodup_range.map fun _ _ => Int.ofNat.inj

def mappedLabels (outputs : List Output) : List String := outputs.zipIdx.map fun p => (p.1.names p.2).output

/-- The graph of a list of outputs. -/
def graphOfOutputs (outputs : List Output) : Graph := graphOf (entriesOf outputs)

theorem compile_of_valid {outputs : List Output} (h : violation? outputs = none) :
    compile outputs = .ok (graphOfOutputs outputs) := by
  simp [compile, h, graphOfOutputs]

theorem graphOfOutputs_linked (outputs : List Output) :
    Graph.Linked (graphOfOutputs outputs) (mappedLabels outputs) := by
  have hlinked := graphOf_linked (entriesOf_index_nodup outputs)
  rwa [entriesOf, List.map_map] at hlinked

theorem Graph.text_ne_empty {entries : List Entry} (h : entries ≠ []) : Graph.text (graphOf entries) ≠ "" := by
  intro hempty
  exact (graphOf_readable h).text.1 (by simp [hempty])

/-! ## The arguments of a plan -/

theorem foldl_add_outputs {α : Type} (label destination : α → String) (quality : α → Int) (items : List α)
    (c : Command) :
    (items.map fun a => Part.output (label a) (destination a) (quality a)).foldl Command.add c =
      { c with outputs := c.outputs ++ items.map fun a => .withQuality (label a) (destination a) (quality a) } := by
  induction items generalizing c with
  | nil => simp
  | cons a items ih =>
    rw [List.map_cons, List.foldl_cons, ih]
    simp [Command.add]

def openingArgs (program : String) (headers : Headers) (media graph : String) : List String :=
  program :: ["-y", "-loglevel", "error"] ++ (if headers.isEmpty then [] else ["-headers", headers.text]) ++
    ["-i", media, "-filter_complex", graph, "-vsync", "0"]

/-- The arguments that map an output with an index: its label, its quality if it has one, and its place. -/
def mapArgs (destinations : OrderedMap Int String) (o : Output) (i : Nat) : List String :=
  ["-map", "[" ++ (o.names i).output ++ "]"] ++ (if 0 < o.quality then ["-q:v", toString o.quality] else []) ++
    [(destinations.get? i).getD (if o.destination = "" then defaultDestination else o.destination)]

theorem foldl_add_opening (p : Plan) (media : String) :
    [Part.options ["-y"], .logLevel "error", .headers p.headers, .input media, .graph p.graph.text,
        .keepTimestamps].foldl Command.add { program := p.program } =
      { program := p.program
        options := ["-y", "-loglevel", "error"] ++
          if p.headers.isEmpty then [] else ["-headers", p.headers.text]
        inputs := [media]
        graph := p.graph.text
        graphOptions := ["-vsync", "0"] } := by
  cases h : p.headers.isEmpty <;> simp [Command.add, h]

theorem Plan.args_eq {p : Plan} (htext : p.graph.text ≠ "") (media : String) (destinations : OrderedMap Int String) :
    p.args media destinations = openingArgs p.program p.headers media p.graph.text ++
      (p.entries.flatMap fun e => (Mapping.withQuality e.names.output (destination destinations e)
        e.output.quality).args) ++
      if p.reportsProgress then ["-progress", defaultProgressAddress] else [] := by
  have haddress : defaultProgressAddress.isEmpty = false := by decide
  rw [args, command, Command.ofParts, parts, List.foldl_append, List.foldl_append, foldl_add_opening,
    foldl_add_outputs]
  cases h : p.reportsProgress <;>
    simp [Command.add, Command.args, Command.optional, openingArgs, htext, haddress, List.flatMap_map]

/-! ## Destinations that are filled in -/

theorem names_withDestination (o : Output) (i : Int) : o.withDestination.names i = o.names i := by
  unfold Output.withDestination
  split <;> rfl

theorem quality_withDestination (o : Output) : o.withDestination.quality = o.quality := by
  unfold Output.withDestination
  split <;> rfl

theorem destination_withDestination (o : Output) :
    o.withDestination.destination = if o.destination = "" then defaultDestination else o.destination := by
  unfold Output.withDestination
  by_cases h : o.destination = "" <;> simp [h]

theorem mappedLabels_withDestination (outputs : List Output) :
    mappedLabels (outputs.map Output.withDestination) = mappedLabels outputs := by
  simp [mappedLabels, List.zipIdx_map, names_withDestination]

theorem numbers_withDestination (o : Output) : o.withDestination.numbers = o.numbers := by
  unfold Output.withDestination
  split <;> rfl

theorem mapping_args (destinations : OrderedMap Int String) (o : Output) (i : Nat) :
    (Mapping.withQuality (o.withDestination.names i).output
      (Plan.destination destinations ⟨i, o.withDestination⟩) o.withDestination.quality).args =
      mapArgs destinations o i := by
  rw [names_withDestination, quality_withDestination, Plan.destination, destination_withDestination]
  rfl

theorem mapArgs_congr {outputs : List Output} {destinations others : OrderedMap Int String}
    (h : ∀ i : Nat, i < outputs.length → others.get? i = destinations.get? i) :
    (outputs.zipIdx.flatMap fun q => mapArgs others q.1 q.2) =
      outputs.zipIdx.flatMap fun q => mapArgs destinations q.1 q.2 := by
  refine List.flatMap_congr fun q hq => ?_
  rw [mapArgs, mapArgs, h q.2 (by simpa using List.snd_lt_add_of_mem_zipIdx hq)]

/-! ## Plans of configurations -/

/-- The plan that a configuration would have if its numbers can be written. -/
def planOf (program : String) (c : Config) : Plan where
  program := program
  graph := graphOfOutputs (c.outputs.map Output.withDestination)
  outputs := c.outputs.map Output.withDestination
  headers := c.headers
  reportsProgress := !c.silent
  channel := c.channel
  callback := c.callback

theorem Plan.ofConfig_eq {c : Config} (h : violation? c.outputs = none) (program : String) :
    Plan.ofConfig program c =
      if (c.outputs.flatMap Output.numbers).all Text.isWritable then .ok (planOf program c)
      else .error .unwritable := by
  have hcompile := compile_of_valid ((violation?_map_withDestination c.outputs).2 h)
  rw [ofConfig, hcompile]
  simp [planOf, List.flatMap_map, numbers_withDestination]

theorem planOf_args {c : Config} (h : violation? c.outputs = none) (program media : String)
    (destinations : OrderedMap Int String) :
    (planOf program c).args media destinations =
      openingArgs program c.headers media (planOf program c).graph.text ++
        (c.outputs.zipIdx.flatMap fun q => mapArgs destinations q.1 q.2) ++
        if c.silent then [] else ["-progress", "pipe:1"] := by
  have hne : entriesOf (c.outputs.map Output.withDestination) ≠ [] := by
    simpa [entriesOf] using ((violation?_eq_none _).1 h).1
  have hmaps : ((planOf program c).entries.flatMap fun e => (Mapping.withQuality e.names.output
      (Plan.destination destinations e) e.output.quality).args) =
      c.outputs.zipIdx.flatMap fun q => mapArgs destinations q.1 q.2 := by
    rw [Plan.entries, planOf, entriesOf, List.zipIdx_map, List.map_map, List.flatMap_map]
    exact List.flatMap_congr fun q _ => mapping_args destinations q.1 q.2
  rw [Plan.args_eq (Graph.text_ne_empty hne), hmaps]
  cases h : c.silent <;> simp [planOf, h, defaultProgressAddress]

/-! ## Copies -/

namespace Slots

/-- A copy of the output at each place of a list, with a destination: no two places share one. -/
def copies (slots : Slots) (order : List Nat) : Slots :=
  order.filterMap fun i => slots[i]?.map fun s => { s with output := s.output.withDestination }

theorem copies_outputs (slots : Slots) (order : List Nat) :
    (slots.copies order).map Slot.output = (slots.outputsOf order).map Output.withDestination := by
  rw [copies, outputsOf, List.map_filterMap, List.map_filterMap]
  simp only [Option.map_map]
  rfl

theorem lastIndex?_range {i n : Nat} (h : i < n) : lastIndex? i (List.range n) = some i := by
  obtain ⟨k, hk⟩ := lastIndex?_isSome (List.mem_range.2 h)
  obtain ⟨hlt, hget⟩ := List.getElem?_eq_some_iff.1 (getElem?_of_lastIndex? hk)
  rw [hk, ← hget, List.getElem_range]

/-- Each slot, in order. -/
theorem filterMap_range (slots : Slots) {β : Type} {f : Nat → Option β} {g : Slot → Nat → β}
    (h : ∀ i s, slots[i]? = some s → f i = some (g s i)) :
    (List.range slots.length).filterMap f = slots.zipIdx.map fun p => g p.1 p.2 := by
  rw [List.range_eq_range', ← List.zipIdx_map_snd 0 slots, List.filterMap_map, ← List.filterMap_eq_map]
  refine List.filterMap_congr fun p hp => ?_
  exact h p.2 p.1 (List.mem_zipIdx_iff_getElem?.1 hp)

theorem outputsOf_range (slots : Slots) : slots.outputsOf (List.range slots.length) = slots.map Slot.output := by
  rw [outputsOf, filterMap_range (g := fun s _ => s.output) slots fun i s hs => by rw [hs]; rfl]
  conv_rhs => rw [← List.zipIdx_map_fst 0 slots, List.map_map]
  rfl

theorem entriesOf_range (slots : Slots) :
    slots.entriesOf (List.range slots.length) = Thumbnailer.entriesOf (slots.map Slot.output) := by
  rw [entriesOf, filterMap_range (g := fun s i => ⟨i, s.output⟩) slots fun i s hs => ?_]
  · rw [Thumbnailer.entriesOf, List.zipIdx_map, List.map_map]
    rfl
  · rw [hs, lastIndex?_range (List.getElem?_eq_some_iff.1 hs).1]

theorem rename_range (slots : Slots) : (slots.rename (List.range slots.length)).map (fun s => s.names.output) =
    mappedLabels (slots.map Slot.output) := by
  refine List.ext_getElem? fun i => ?_
  rw [rename, mappedLabels]
  cases hs : slots[i]? with
  | none => simp [List.getElem?_mapIdx, hs]
  | some s => simp [List.getElem?_mapIdx, hs, lastIndex?_range (List.getElem?_eq_some_iff.1 hs).1]

/-- What becomes of the copies of a list of slots: they compile to this graph, with the labels that are mapped. -/
structure Copied (slots : Slots) (order : List Nat) (g : Graph) (labels : List String) : Prop where
  outputs : (slots.copies order).map Slot.output = (slots.outputsOf order).map Output.withDestination
  compiled : ∃ after, (slots.copies order).compile (List.range (slots.outputsOf order).length) = (.ok g, after) ∧
    (slots.copies order).WrittenAs (List.range (slots.outputsOf order).length) g after ∧
    after.map (fun s => s.names.output) = labels

theorem copies_copied (slots : Slots) {order : List Nat} (hv : violation? (slots.outputsOf order) = none) :
    slots.Copied order (graphOfOutputs ((slots.outputsOf order).map Output.withDestination))
      (mappedLabels (slots.outputsOf order)) where
  outputs := copies_outputs slots order
  compiled := by
    have houtputs := copies_outputs slots order
    have hlength : (slots.outputsOf order).length = (slots.copies order).length := by
      simpa using (congrArg List.length houtputs).symm
    rw [hlength]
    have hcompile : (slots.copies order).compile (List.range (slots.copies order).length) =
        (.ok (graphOfOutputs ((slots.outputsOf order).map Output.withDestination)),
          (slots.copies order).rename (List.range (slots.copies order).length)) := by
      rw [compile, outputsOf_range, houtputs, (violation?_map_withDestination _).2 hv, entriesOf_range, houtputs]
      rfl
    refine ⟨_, hcompile, compile_writtenAs hcompile, ?_⟩
    rw [rename_range, houtputs, mappedLabels_withDestination]

end Slots

/-- **A command maps what its graph leaves open.** The outputs of a configuration that break no rule compile into a
graph whose labels fit together. They are copied for it, so that an output that stands at several places has an index
and a label at each of them. If the numbers can be written there is a plan with this graph, whose arguments map the open
labels in order, each to the place given for its index or else to its own; other indices do not matter. -/
theorem args_map_open_labels (c : Config) (hv : violation? c.outputs = none) :
    ∃ g, compile (c.outputs.map Output.withDestination) = .ok g ∧ Graph.Linked g (mappedLabels c.outputs) ∧
      (∀ (slots : Slots) (order : List Nat), slots.outputsOf order = c.outputs →
        slots.Copied order g (mappedLabels c.outputs)) ∧
      ∀ program, ((c.outputs.flatMap Output.numbers).all Text.isWritable = true →
          ∃ p, Plan.ofConfig program c = .ok p) ∧
        ∀ p, Plan.ofConfig program c = .ok p → p.graph = g ∧ ∀ media destinations,
          p.args media destinations = openingArgs program c.headers media g.text ++
            (c.outputs.zipIdx.flatMap fun q => mapArgs destinations q.1 q.2) ++
            (if c.silent then [] else ["-progress", "pipe:1"]) ∧
          ∀ others : OrderedMap Int String,
            (∀ i : Nat, i < c.outputs.length → others.get? i = destinations.get? i) →
            p.args media others = p.args media destinations := by
  have hv' := (violation?_map_withDestination c.outputs).2 hv
  have hlinked := graphOfOutputs_linked (c.outputs.map Output.withDestination)
  rw [mappedLabels_withDestination] at hlinked
  refine ⟨_, compile_of_valid hv', hlinked, fun slots order houtputs => ?_,
    fun program => ⟨fun hwritable => ?_, fun p hp => ?_⟩⟩
  · rw [← houtputs] at hv ⊢
    exact Slots.copies_copied slots hv
  · exact ⟨planOf program c, by rw [Plan.ofConfig_eq hv, if_pos hwritable]⟩
  · obtain rfl : planOf program c = p := by
      rw [Plan.ofConfig_eq hv] at hp
      split at hp
      · exact Except.ok.inj hp
      · exact absurd hp (by simp)
    refine ⟨rfl, fun media destinations => ⟨planOf_args hv program media destinations, fun others h => ?_⟩⟩
    rw [planOf_args hv, planOf_args hv, mapArgs_congr h]

/-- Two outputs of one size, the second one without a place of its own. -/
def twoOutputs : Config :=
  { outputs := [{ kind := 1, scale := ⟨320, -1, 0⟩, quality := 3 }, { scale := ⟨320, -1, 0⟩, destination := "" }] }

/-- The two outputs with the first one in both places, and its label from a list where it was fifth. -/
def sharedOutput : Slots := [⟨{ kind := 1, scale := ⟨320, -1, 0⟩, quality := 3 }, ⟨4, "sprites-4", "sprites-4-out"⟩⟩]

theorem args_map_open_labels_two :
    (violation? twoOutputs.outputs = none ∧
      ∃ g, compile (twoOutputs.outputs.map Output.withDestination) = .ok g ∧
        Graph.Linked g ["sprites-0-out", "thumbs-1-out"] ∧
        ∃ p, Plan.ofConfig "ffmpeg" twoOutputs = .ok p ∧
          p.args "a.mp4" [(0, "s.jpg"), (7, "x.jpg")] =
            openingArgs "ffmpeg" [] "a.mp4" g.text ++
              ["-map", "[sprites-0-out]", "-q:v", "3", "s.jpg", "-map", "[thumbs-1-out]", "%04d.jpg"] ++
              ["-progress", "pipe:1"]) ∧
      violation? (sharedOutput.outputsOf [0, 0]) = none ∧
        ∃ g, Graph.Linked g ["sprites-0-out", "sprites-1-out"] ∧
          sharedOutput.Copied [0, 0] g ["sprites-0-out", "sprites-1-out"] := by
  constructor
  · obtain ⟨g, hg, hlinked, -, hplan⟩ := args_map_open_labels twoOutputs (by decide)
    obtain ⟨p, hp⟩ := (hplan "ffmpeg").1 (by decide +kernel)
    obtain ⟨-, hargs⟩ := (hplan "ffmpeg").2 p hp
    have hmapped : mappedLabels twoOutputs.outputs = ["sprites-0-out", "thumbs-1-out"] := by decide
    refine ⟨by decide, g, hg, hmapped ▸ hlinked, p, hp, ?_⟩
    rw [(hargs _ _).1]
    rfl
  · have hvalid : violation? (sharedOutput.outputsOf [0, 0]) = none := by decide
    obtain ⟨g, -, hlinked, hcopied, -⟩ := args_map_open_labels { outputs := sharedOutput.outputsOf [0, 0] } hvalid
    have hmapped : mappedLabels (sharedOutput.outputsOf [0, 0]) = ["sprites-0-out", "sprites-1-out"] := by decide
    exact ⟨hvalid, g, hmapped ▸ hlinked, hmapped ▸ hcopied sharedOutput [0, 0] rfl⟩

end Thumbnailer
