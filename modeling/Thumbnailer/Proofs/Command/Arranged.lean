import Thumbnailer.Proofs.Mappings
import Thumbnailer.Proofs.Slots.Judged

/-!
# The order of arguments

Parts of a command fall into groups, and the arguments of each group stand together. `args_arranged` says what the
arguments are for any list of parts, and so that only the order of parts within their groups matters.
-/

namespace Thumbnailer

/-- The groups of parts, in the order in which their arguments stand. -/
inductive Part.Group where
  | options
  | inputs
  | graph
  | timestamps
  | outputs
  | progress
deriving DecidableEq, Repr

namespace Part

def Group.order : List Group := [.options, .inputs, .graph, .timestamps, .outputs, .progress]

def group : Part → Group
  | .options _ => .options
  | .logLevel _ => .options
  | .headers _ => .options
  | .input _ => .inputs
  | .graph _ => .graph
  | .keepTimestamps => .timestamps
  | .output .. => .outputs
  | .progress _ => .progress

/-- Of several graphs or addresses only the last one counts. -/
def Group.lastCounts (g : Group) : Bool := g = .graph || g = .progress

def args : Part → List String
  | .options list => list
  | .logLevel level => ["-loglevel", level]
  | .headers hs => if hs = [] then [] else ["-headers", hs.text]
  | .input path => ["-i", path]
  | .graph text => if text = "" then [] else ["-filter_complex", text]
  | .keepTimestamps => ["-vsync", "0"]
  | .output label destination quality =>
    ["-map", "[" ++ label ++ "]"] ++ (if 0 < quality then ["-q:v", toString quality] else []) ++ [destination]
  | .progress address => if address = "" then [] else ["-progress", address]

end Part

open Thumbnailer.Part (Group)

def partsOf (g : Group) (parts : List Part) : List Part := parts.filter fun p => p.group = g

def groupArgs (g : Group) (parts : List Part) : List String :=
  if g.lastCounts then ((partsOf g parts).getLast?.map Part.args).getD [] else (partsOf g parts).flatMap Part.args

/-- The program, and the arguments of its groups one after the other. -/
def arrangement (program : String) (parts : List Part) : List String :=
  program :: Group.order.flatMap (groupArgs · parts)

theorem groupArgs_append_one (g : Group) (parts : List Part) (p : Part) :
    groupArgs g (parts ++ [p]) =
      if p.group = g then (if g.lastCounts then p.args else groupArgs g parts ++ p.args) else groupArgs g parts := by
  unfold groupArgs partsOf
  rw [List.filter_append]
  by_cases hp : p.group = g
  · cases hlast : g.lastCounts <;> simp [hp]
  · simp [hp]

/-! ## Commands by their groups -/

namespace Command

def argsOf (c : Command) : Group → List String
  | .options => c.options
  | .inputs => c.inputs.flatMap (["-i", ·])
  | .graph => optional "-filter_complex" c.graph
  | .timestamps => c.graphOptions
  | .outputs => c.outputs.flatMap Mapping.args
  | .progress => optional "-progress" c.progress

theorem args_eq (c : Command) : c.args = c.program :: Group.order.flatMap c.argsOf := by
  simp [args, Group.order, argsOf]

theorem argsOf_add (c : Command) (p : Part) (g : Group) :
    (c.add p).argsOf g =
      if p.group = g then (if g.lastCounts then p.args else c.argsOf g ++ p.args) else c.argsOf g := by
  cases p with
  | headers hs =>
    cases hs <;> cases g <;> simp [add, argsOf, Part.group, Part.args, Group.lastCounts]
  | output label destination quality =>
    cases g <;> simp [add, argsOf, Part.group, Part.args, Group.lastCounts, Mapping.withQuality, Mapping.args]
  | _ => cases g <;> simp [add, argsOf, Part.group, Part.args, Group.lastCounts, optional]

theorem argsOf_ofParts (program : String) (parts : List Part) (g : Group) :
    (ofParts program parts).argsOf g = groupArgs g parts := by
  induction parts using List.reverseRecOn with
  | nil => cases g <;> rfl
  | append_singleton parts p ih =>
    rw [ofParts, List.foldl_append, List.foldl_cons, List.foldl_nil, ← ofParts, argsOf_add, ih, groupArgs_append_one]

theorem ofParts_args (program : String) (parts : List Part) :
    (ofParts program parts).args = arrangement program parts := by
  have hprogram : (ofParts program parts).program = program := foldl_add_program parts { program }
  rw [args_eq, hprogram, arrangement]
  congr 1
  exact List.flatMap_congr fun g _ => argsOf_ofParts program parts g

theorem ofGiven_eq (program : String) (parts : List Part) :
    ofGiven program parts = ofParts program (parts.filter Part.isWritable) := by
  unfold ofGiven ofParts
  generalize ({ program } : Command) = c
  induction parts generalizing c with
  | nil => rfl
  | cons p rest ih =>
    rw [List.foldl_cons, ih]
    by_cases hp : p.isWritable = true
    · simp [give, hp]
    · simp [give, hp]

end Command

/-! ## Other orders -/

theorem partsOf_filter (g : Group) (parts : List Part) (kept : Part → Bool) :
    partsOf g (parts.filter kept) = (partsOf g parts).filter kept := by
  simp [partsOf, List.filter_filter, Bool.and_comm]

theorem arrangement_congr {parts others : List Part} (h : ∀ g, partsOf g others = partsOf g parts)
    (program : String) : arrangement program others = arrangement program parts := by
  unfold arrangement groupArgs
  simp only [h]

theorem partsOf_swap {a b : Part} (h : a.group ≠ b.group) (before after : List Part) (g : Group) :
    partsOf g (before ++ b :: a :: after) = partsOf g (before ++ a :: b :: after) := by
  unfold partsOf
  rw [List.filter_append, List.filter_append]
  by_cases ha : a.group = g
  · have hb : b.group ≠ g := fun hb => h (ha.trans hb.symm)
    simp [ha, hb]
  · simp [List.filter_cons, ha]

/-- An output with a positive quality that has too many digits to be written. -/
inductive Part.Refused : Part → Prop
  | output {label destination : String} {quality : Int} : 0 < quality → Text.isWritable quality = false →
      Part.Refused (.output label destination quality)

theorem Part.isWritable_eq_false_iff (p : Part) : p.isWritable = false ↔ p.Refused := by
  constructor
  · intro h
    cases p with
    | output label destination quality =>
      rw [isWritable, Bool.or_eq_false_iff, decide_eq_false_iff_not] at h
      exact .output (by omega) h.2
    | _ => cases h
  · rintro ⟨hpositive, hlong⟩
    simp [isWritable, hpositive, hlong]

theorem Command.give_of_refused (c : Command) {p : Part} (h : p.Refused) :
    c.give p = (.error .tooLarge, c) := by
  rw [give, (Part.isWritable_eq_false_iff p).2 h]
  rfl

/-- What the arguments are for the parts that a command is given. -/
structure Arranged (program : String) (parts : List Part) : Prop where
  /-- A part that is refused fails and leaves the command as it was. -/
  refused : ∀ before p after, parts = before ++ p :: after → p.Refused →
    (Command.ofGiven program before).give p = (.error .tooLarge, Command.ofGiven program before)
  writable : ∀ p ∈ parts, p.isWritable = false ↔ p.Refused
  args : (Command.ofGiven program parts).args = arrangement program (parts.filter Part.isWritable)
  whole : (∀ p ∈ parts, p.isWritable = true) → (Command.ofGiven program parts).args = arrangement program parts
  shuffled : ∀ others, (∀ g, partsOf g others = partsOf g parts) →
    (Command.ofGiven program others).args = (Command.ofGiven program parts).args
  swapped : ∀ before a b after, parts = before ++ a :: b :: after → a.group ≠ b.group →
    (Command.ofGiven program (before ++ b :: a :: after)).args = (Command.ofGiven program parts).args

theorem ofGiven_arranged (program : String) (parts : List Part) : Arranged program parts := by
  have hargs (list : List Part) :
      (Command.ofGiven program list).args = arrangement program (list.filter Part.isWritable) := by
    rw [Command.ofGiven_eq, Command.ofParts_args]
  have hshuffled (others : List Part) (h : ∀ g, partsOf g others = partsOf g parts) :
      (Command.ofGiven program others).args = (Command.ofGiven program parts).args := by
    rw [hargs, hargs]
    apply arrangement_congr
    intro g
    rw [partsOf_filter, partsOf_filter, h]
  exact {
    refused := fun before p after _ h => Command.give_of_refused _ h
    writable := fun p _ => Part.isWritable_eq_false_iff p
    args := hargs parts
    whole := fun h => by rw [hargs, List.filter_eq_self.2 h]
    shuffled := hshuffled
    swapped := by
      rintro before a b after rfl hgroup
      exact hshuffled _ (partsOf_swap hgroup before after) }

/-! ## Plans -/

theorem Output.Valid.isWritable {o : Output} (h : o.Valid) (label destination : String) :
    (Part.output label destination o.quality).isWritable = true := by
  have hquality := h.quality
  have hlimit : 10 ^ 2 ≤ 10 ^ Text.digitLimit := Nat.pow_le_pow_right (by decide) (by decide)
  simp only [Part.isWritable, Text.isWritable, Nat.pow_eq, Bool.or_eq_true, decide_eq_true_eq]
  right
  omega

theorem Plan.eq_planOf {program : String} {c : Config} {p : Plan} (h : Plan.ofConfig program c = .ok p) :
    violation? c.outputs = none ∧ planOf program c = p := by
  cases hv : violation? c.outputs with
  | none =>
    rw [Plan.ofConfig_eq hv] at h
    split at h
    · exact ⟨rfl, Except.ok.inj h⟩
    · cases h
  | some v =>
    have hv' : violation? (c.outputs.map Output.withDestination) ≠ none := by
      rw [ne_eq, violation?_map_withDestination, hv]
      simp
    obtain ⟨v', hv'⟩ := Option.ne_none_iff_exists'.1 hv'
    simp [Plan.ofConfig, compile, hv'] at h

/-- No part of a plan is refused: qualities that break no rule are small. -/
theorem planOf_parts_isWritable {c : Config} (hv : violation? c.outputs = none) (program media : String)
    (destinations : OrderedMap Int String) :
    ∀ part ∈ (planOf program c).parts media destinations, part.isWritable = true := by
  intro part hpart
  unfold Plan.parts at hpart
  rw [List.mem_append, List.mem_append] at hpart
  obtain (hopening | houtput) | hprogress := hpart
  · simp only [List.mem_cons, List.not_mem_nil, or_false] at hopening
    obtain rfl | rfl | rfl | rfl | rfl | rfl := hopening <;> rfl
  · obtain ⟨e, he, rfl⟩ := List.mem_map.1 houtput
    have hvalid := (violation?_eq_none_iff_valid _).1 ((violation?_map_withDestination c.outputs).2 hv)
    apply Output.Valid.isWritable
    apply hvalid.2
    simp only [Plan.entries, planOf, entriesOf, List.mem_map] at he
    obtain ⟨q, hq, rfl⟩ := he
    exact List.fst_mem_of_mem_zipIdx hq
  · split at hprogress
    · obtain rfl := List.mem_singleton.1 hprogress
      rfl
    · cases hprogress

/-- **The order of arguments.** Whatever parts a command is given, its arguments stand group by group. Those of a plan
are all given: the headers before the medium, the graph and the timestamps before the outputs, the address for progress
reports at the end. -/
theorem args_arranged (program : String) : (∀ parts, Arranged program parts) ∧
    ∀ c p, Plan.ofConfig program c = .ok p → ∀ media destinations,
      (∀ part ∈ p.parts media destinations, part.isWritable = true) ∧
      p.args media destinations = arrangement program (p.parts media destinations) ∧ p.graph.text ≠ "" ∧
      p.args media destinations = openingArgs program c.headers media p.graph.text ++
        (c.outputs.zipIdx.flatMap fun q => mapArgs destinations q.1 q.2) ++
        if c.silent then [] else ["-progress", "pipe:1"] := by
  refine ⟨ofGiven_arranged program, ?_⟩
  intro c p hp media destinations
  obtain ⟨hv, rfl⟩ := Plan.eq_planOf hp
  have hne : entriesOf (c.outputs.map Output.withDestination) ≠ [] := by
    simpa [entriesOf] using ((violation?_eq_none _).1 hv).1
  exact ⟨planOf_parts_isWritable hv program media destinations, Command.ofParts_args _ _, Graph.text_ne_empty hne,
    planOf_args hv program media destinations⟩

/-- Parts of all groups in no order, with a graph that is replaced and an address that is taken back. -/
def mixedParts : List Part :=
  [.progress "pipe:1", .output "a" "a.jpg" 3, .graph "x", .input "a.mp4", .keepTimestamps, .headers [("A", "b")],
    .graph "y", .input "b.mp4", .output "b" "b.jpg" (-1), .headers [], .options ["-y"], .progress ""]

theorem args_arranged_mixed :
    (Command.ofGiven "ffmpeg" mixedParts).args =
      ["ffmpeg", "-headers", "A: b\r\n", "-y", "-i", "a.mp4", "-i", "b.mp4", "-filter_complex", "y", "-vsync", "0",
        "-map", "[a]", "-q:v", "3", "a.jpg", "-map", "[b]", "b.jpg"] ∧
    ∃ p, Plan.ofConfig "ffmpeg" twoOutputs = .ok p ∧ p.args "a.mp4" [] =
      openingArgs "ffmpeg" [] "a.mp4" p.graph.text ++
        ["-map", "[sprites-0-out]", "-q:v", "3", "%04d.jpg", "-map", "[thumbs-1-out]", "%04d.jpg"] ++
        ["-progress", "pipe:1"] := by
  obtain ⟨harranged, hplan⟩ := args_arranged "ffmpeg"
  constructor
  · rw [(harranged mixedParts).whole (by decide +kernel)]
    decide +kernel
  · have hp : Plan.ofConfig "ffmpeg" twoOutputs = .ok (planOf "ffmpeg" twoOutputs) := by
      rw [Plan.ofConfig_eq (by decide), if_pos (by decide +kernel)]
    refine ⟨_, hp, ?_⟩
    rw [(hplan _ _ hp "a.mp4" []).2.2.2]
    rfl

end Thumbnailer
