import Mathlib.Algebra.GroupWithZero.Nat
import Thumbnailer.Proofs.Graph.Reading
import Thumbnailer.Proofs.Slots.Named

/-!
# Compiled graphs can be read back

Whatever sizes and intervals the outputs have, the filters of a compiled graph are made of words, and the name of a
filter says whether its arguments are numbers. `Slots.compile_decodes` says what the text of a graph tells.
-/

namespace Thumbnailer

/-! ## Texts of a graph are the texts of one graph -/

theorem map_injOn {α β : Type} {P : α → Prop} {f : α → β} (hf : ∀ a b, P a → P b → f a = f b → a = b) {l l' : List α}
    (hl : ∀ a ∈ l, P a) (hl' : ∀ a ∈ l', P a) (h : l.map f = l'.map f) : l = l' := by
  induction l generalizing l' with
  | nil => simpa using h.symm
  | cons a l ih =>
    cases l' with
    | nil => cases h
    | cons b l' =>
      obtain ⟨ha, hl⟩ := List.forall_mem_cons.1 hl
      obtain ⟨hb, hl'⟩ := List.forall_mem_cons.1 hl'
      obtain ⟨hab, hrest⟩ := List.cons.inj h
      rw [hf a b ha hb hab, ih hl hl' hrest]

/-- The filters whose arguments are texts. -/
def textual : List String := ["select", "tile"]

/-- The name of the filter says what its arguments are. -/
structure Filter.Typed (f : Filter) : Prop where
  texts : f.name ∈ textual → ∀ a ∈ f.args, ∃ s, a = .text s
  integers : f.name ∉ textual → ∀ a ∈ f.args, ∃ n, a = .integer n
  params : ∀ p ∈ f.params, ∃ s, p.2 = .text s

theorem asText_text_inj {a b : Argument} (ha : ∃ s, a = .text s) (hb : ∃ s, b = .text s) (h : a.asText = b.asText) :
    a = b := by
  obtain ⟨s, rfl⟩ := ha
  obtain ⟨t, rfl⟩ := hb
  exact h

theorem asText_integer_inj {a b : Argument} (ha : ∃ n, a = .integer n) (hb : ∃ n, b = .integer n)
    (h : a.asText = b.asText) : a = b := by
  obtain ⟨n, rfl⟩ := ha
  obtain ⟨m, rfl⟩ := hb
  rw [toString_int_inj (Argument.text.inj h)]

theorem Filter.asText_inj {f g : Filter} (hf : f.Typed) (hg : g.Typed) (h : f.asText = g.asText) : f = g := by
  obtain ⟨name, args, params, inputs, outputs⟩ := f
  obtain ⟨name', args', params', inputs', outputs'⟩ := g
  obtain ⟨rfl, hargs, hparams, rfl, rfl⟩ := Filter.mk.inj h
  obtain rfl : params = params' := by
    refine map_injOn (fun p q hp hq hpq => ?_) hf.params hg.params hparams
    obtain ⟨hkey, hvalue⟩ := Prod.mk.inj hpq
    exact Prod.ext hkey (asText_text_inj hp hq hvalue)
  obtain rfl : args = args' := by
    by_cases hname : name ∈ textual
    · exact map_injOn (fun _ _ => asText_text_inj) (hf.texts hname) (hg.texts hname) hargs
    · exact map_injOn (fun _ _ => asText_integer_inj) (hf.integers hname) (hg.integers hname) hargs
  rfl

theorem Graph.asText_inj {g h : Graph} (hg : ∀ c ∈ g, ∀ f ∈ c, f.Typed) (hh : ∀ c ∈ h, ∀ f ∈ c, f.Typed)
    (heq : Graph.asText g = Graph.asText h) : g = h :=
  map_injOn (fun _ _ hc hd => map_injOn (fun _ _ => Filter.asText_inj) hc hd) hg hh heq

/-! ## The filters that are compiled -/

structure Filter.Decodes (f : Filter) : Prop where
  readable : f.Readable
  typed : f.Typed

theorem Filter.Decodes.addOutput {f : Filter} (h : f.Decodes) {label : String} (hl : Label label.toList) :
    (f.addOutput label).Decodes where
  readable := ⟨h.readable.name, h.readable.args, h.readable.params, h.readable.inputs,
    List.forall_mem_append.2 ⟨h.readable.outputs, by simpa using hl⟩⟩
  typed := ⟨h.typed.texts, h.typed.integers, h.typed.params⟩

theorem plain_numbered {s : String} (h : Plain s.toList) (n : Int) : Plain (s ++ toString n).toList := by
  rw [String.toList_append]
  exact h.append (plain_toString_int n).all

theorem plain_out {s : String} (h : Plain s.toList) : Plain (s ++ "-out").toList := by
  rw [String.toList_append]
  exact h.append (by decide)

theorem label_output (e : Entry) : Label e.names.output.toList := by
  unfold Entry.names
  cases hs : e.output.isSprites with
  | true =>
    rw [Output.names_of_isSprites hs]
    exact (plain_out (plain_numbered ⟨by decide, by decide⟩ _)).label
  | false =>
    rw [Output.names_of_not_isSprites hs]
    exact (plain_out (plain_numbered ⟨by decide, by decide⟩ _)).label

theorem label_input {e : Entry} (hs : e.output.isSprites = true) : Label e.names.input.toList := by
  rw [Entry.names, Output.names_of_isSprites hs]
  exact (plain_numbered ⟨by decide, by decide⟩ _).label

theorem label_splitLabel (e : Entry) : Label e.splitLabel.toList := by
  unfold Entry.splitLabel
  split
  next hs => exact label_input hs
  next => exact label_output e

theorem word_select (interval : Int) :
    Word (s!"bitor(gte(t-prev_selected_t\\,{Interval.text interval})\\,isnan(prev_selected_t))").toList := by
  have hparts : (s!"bitor(gte(t-prev_selected_t\\,{Interval.text interval})\\,isnan(prev_selected_t))").toList =
      "bitor(gte(t-prev_selected_t".toList ++ '\\' :: ',' ::
        ((Interval.text interval).toList ++ [')'] ++ '\\' :: ',' :: "isnan(prev_selected_t))".toList) := by
    simp [toString]
  have hinterval : Plain ((Interval.text interval).toList ++ [')']) := (plain_interval interval).append (by decide)
  have hstart : Plain "bitor(gte(t-prev_selected_t".toList := ⟨by decide, by decide⟩
  have hend : Plain "isnan(prev_selected_t))".toList := ⟨by decide, by decide⟩
  rw [hparts]
  exact hstart.word.comma (hinterval.word.comma hend.word)

section Builders
variable {f : Filter} (hname : Plain f.name.toList) (hinputs : ∀ l ∈ f.inputs, Label l.toList)
  (houtputs : ∀ l ∈ f.outputs, Label l.toList)
include hname hinputs houtputs

theorem decodes_of_texts (htextual : f.name ∈ textual) (hargs : ∀ a ∈ f.args, ∃ s, a = .text s ∧ Word s.toList)
    (hparams : f.params = []) : f.Decodes where
  readable :=
    { name := hname.word
      args := by
        intro a ha
        obtain ⟨s, rfl, hs⟩ := hargs a ha
        exact hs
      params := by simp [hparams]
      inputs := hinputs
      outputs := houtputs }
  typed :=
    { texts := fun _ a ha => (hargs a ha).imp fun _ hs => hs.1
      integers := fun hnot => absurd htextual hnot
      params := by simp [hparams] }

theorem decodes_of_integers (htextual : f.name ∉ textual) (hargs : ∀ a ∈ f.args, ∃ n, a = .integer n)
    (hparams : ∀ p ∈ f.params, Plain p.1.toList ∧ ∃ s, p.2 = .text s ∧ Plain s.toList) : f.Decodes where
  readable :=
    { name := hname.word
      args := by
        intro a ha
        obtain ⟨n, rfl⟩ := hargs a ha
        exact (plain_toString_int n).word
      params := by
        intro p hp
        obtain ⟨hkey, s, hs, hvalue⟩ := hparams p hp
        rw [hs]
        exact ⟨hkey.word, hvalue.word⟩
      inputs := hinputs
      outputs := houtputs }
  typed :=
    { texts := fun hin => absurd hin htextual
      integers := fun _ => hargs
      params := fun p hp => (hparams p hp).2.imp fun _ hs => hs.1 }

end Builders

theorem selectFilter_decodes (interval : Int) : (selectFilter interval).Decodes := by
  have hname : Plain "select".toList := ⟨by decide, by decide⟩
  have hsource : Label sourceLabel.toList :=
    ⟨by decide, ⟨by simp [sourceLabel, delimiters], by simp [sourceLabel, delimiters], by decide⟩,
      by simp [sourceLabel]⟩
  refine decodes_of_texts hname (by simpa [selectFilter] using hsource) (by simp [selectFilter])
    (by simp [selectFilter, textual]) ?_ rfl
  intro a ha
  exact ⟨_, List.mem_singleton.1 ha, word_select interval⟩

theorem scaleChain_integers (s : Scale) : ∀ f ∈ scaleChain s, ∀ a ∈ f.args, ∃ n, a = .integer n := by
  unfold scaleChain
  simp only
  split <;> simp

theorem scaleChain_params (s : Scale) : ∀ f ∈ scaleChain s, ∀ p ∈ f.params,
    p ∈ [("force_original_aspect_ratio", .text "decrease"), ("force_original_aspect_ratio", .text "increase"),
      ("color", .text "black")] := by
  unfold scaleChain
  simp only
  split <;> simp

theorem scaleChain_decodes (s : Scale) : ∀ f ∈ scaleChain s, f.Decodes := by
  intro f hf
  have hnames : ∀ name ∈ ["scale", "pad", "crop"],
      (name.toList ≠ [] ∧ name.toList.all isPlain = true) ∧ name ∉ textual := by decide
  obtain ⟨⟨hne, hall⟩, htextual⟩ := hnames f.name (scaleChain_names s f hf)
  obtain ⟨hinputs, houtputs⟩ := scaleChain_unlabelled s f hf
  refine decodes_of_integers ⟨hne, hall⟩ (by simp [hinputs]) (by simp [houtputs]) htextual
    (scaleChain_integers s f hf) ?_
  intro p hp
  have hparam := scaleChain_params s f hf p hp
  simp only [List.mem_cons, List.not_mem_nil, or_false] at hparam
  rcases hparam with rfl | rfl | rfl <;> exact ⟨⟨by decide, by decide⟩, _, rfl, by decide, by decide⟩

theorem splitFilter_decodes (members : List Entry) : (splitFilter members).Decodes := by
  have hname : Plain "split".toList := ⟨by decide, by decide⟩
  refine decodes_of_integers hname (by simp [splitFilter]) ?_ (by simp [splitFilter, textual]) (by simp [splitFilter])
    (by simp [splitFilter])
  exact List.forall_mem_map.2 fun m _ => label_splitLabel m

theorem plain_size (o : Output) : Plain (s!"{o.columns}x{o.rows}").toList := by
  have hparts : (s!"{o.columns}x{o.rows}").toList = (toString o.columns).toList ++ 'x' :: (toString o.rows).toList := by
    simp [toString]
  rw [hparts]
  exact (plain_toString_int _).append ((plain_toString_int _).cons (by decide)).all

theorem tileFilter_decodes (o : Output) (inputs outputs : List String) (hinputs : ∀ l ∈ inputs, Label l.toList)
    (houtputs : ∀ l ∈ outputs, Label l.toList) : Filter.Decodes { tileFilter o with inputs, outputs } := by
  have hname : Plain "tile".toList := ⟨by decide, by decide⟩
  refine decodes_of_texts hname hinputs houtputs (by simp [tileFilter, textual]) ?_ rfl
  intro a ha
  exact ⟨_, List.mem_singleton.1 ha, (plain_size o).word⟩

/-! ## The statements that are compiled -/

/-- The statement is not empty and is given back by its text. -/
structure Chain.Decodes (c : Chain) : Prop where
  ne_nil : c ≠ []
  filters : ∀ f ∈ c, f.Decodes

theorem Chain.Decodes.addOutput {c : Chain} (h : Chain.Decodes c) {label : String} (hl : Label label.toList) :
    Chain.Decodes (Chain.addOutput c label) := by
  obtain ⟨d, f, rfl⟩ := (List.eq_nil_or_concat c).resolve_left h.ne_nil
  obtain ⟨hd, hf⟩ := List.forall_mem_append.1 (List.concat_eq_append ▸ h.filters)
  rw [List.concat_eq_append, addOutput_append_one]
  refine ⟨by simp, List.forall_mem_append.2 ⟨hd, ?_⟩⟩
  simpa using (hf f (by simp)).addOutput hl

theorem sharedChain_decodes (e : Entry) : Chain.Decodes e.sharedChain :=
  ⟨by simp [Entry.sharedChain], List.forall_mem_cons.2 ⟨selectFilter_decodes _, scaleChain_decodes _⟩⟩

theorem Chain.Decodes.append {c d : Chain} (hc : Chain.Decodes c) (hd : ∀ f ∈ d, f.Decodes) : Chain.Decodes (c ++ d) :=
  ⟨by simp [hc.ne_nil], List.forall_mem_append.2 ⟨hc.filters, hd⟩⟩

theorem ownChain_decodes (e : Entry) : Chain.Decodes e.ownChain := by
  refine (sharedChain_decodes e).append ?_
  split
  next =>
    intro f hf
    obtain rfl := List.mem_singleton.1 hf
    exact tileFilter_decodes e.output [] [] (by simp) (by simp)
  next => simp

theorem tileStatement_decodes {e : Entry} (hs : e.output.isSprites = true) : Chain.Decodes e.tileStatement := by
  refine ⟨by simp [Entry.tileStatement], ?_⟩
  simpa [Entry.tileStatement] using
    tileFilter_decodes e.output [_] [_] (by simpa using label_input hs) (by simpa using label_output e)

theorem groupStatements_decodes {members : List Entry} (h : members ≠ []) :
    ∀ c ∈ groupStatements members, Chain.Decodes c := by
  match members, h with
  | [e], _ =>
    rw [groupStatements_one]
    simpa using (ownChain_decodes e).addOutput (label_output e)
  | e :: f :: rest, _ =>
    rw [groupStatements_many]
    refine List.forall_mem_cons.2 ⟨(sharedChain_decodes e).append ?_, List.forall_mem_map.2 fun m hm => ?_⟩
    · simpa using splitFilter_decodes _
    · exact tileStatement_decodes (List.mem_filter.1 hm).2

theorem graphOf_decodes (entries : List Entry) : ∀ c ∈ graphOf entries, Chain.Decodes c := by
  rw [graphOf_eq]
  intro c hc
  obtain ⟨ms, hms, hc⟩ := List.mem_flatMap.1 hc
  exact groupStatements_decodes (bucket_ne_nil hms) c hc

theorem groupStatements_length {members : List Entry} (h : members ≠ []) :
    (groupStatements members).length = if members.length = 1 then 1 else 1 + (spritesOf members).length := by
  match members, h with
  | [e], _ => rfl
  | e :: f :: rest, _ =>
    rw [groupStatements_many]
    simp [Nat.add_comm]

theorem graphOf_length (entries : List Entry) : (graphOf entries).length =
    ((buckets entries).map fun ms => if ms.length = 1 then 1 else 1 + (spritesOf ms).length).sum := by
  rw [graphOf_eq, List.length_flatMap]
  exact congrArg List.sum (List.map_congr_left fun ms hms => groupStatements_length (bucket_ne_nil hms))

/-! ## What the text of a graph tells -/

theorem Chain.Decodes.readable {c : Chain} (h : Chain.Decodes c) : Chain.Readable c :=
  ⟨h.ne_nil, fun f hf => (h.filters f hf).readable⟩

theorem graphOf_readable {entries : List Entry} (h : entries ≠ []) : Graph.Readable (graphOf entries) :=
  ⟨graphOf_ne_nil h, fun c hc => (graphOf_decodes entries c hc).readable⟩

theorem graphOf_text_inj {entries entries' : List Entry} (h : entries ≠ []) (h' : entries' ≠ [])
    (heq : Graph.text (graphOf entries) = Graph.text (graphOf entries')) : graphOf entries = graphOf entries' := by
  -- The reader makes one graph of the text, and the names of its filters say which arguments were numbers.
  have hread := Graph.read_text (graphOf_readable h)
  rw [heq, Graph.read_text (graphOf_readable h')] at hread
  exact Graph.asText_inj (fun c hc f hf => ((graphOf_decodes entries c hc).filters f hf).typed)
    (fun c hc f hf => ((graphOf_decodes entries' c hc).filters f hf).typed) (Option.some.inj hread).symm

namespace Slots

theorem entriesOf_ne_nil {slots : Slots} {order : List Nat} (h : violation? (slots.outputsOf order) = none) :
    slots.entriesOf order ≠ [] := by
  obtain ⟨o, ho⟩ := List.exists_mem_of_ne_nil _ ((violation?_eq_none _).1 h).1
  obtain ⟨i, hi, hs⟩ := List.mem_filterMap.1 ho
  obtain ⟨s, hs, -⟩ := Option.map_eq_some_iff.1 hs
  obtain ⟨k, hk⟩ := lastIndex?_isSome hi
  exact List.ne_nil_of_mem (List.mem_filterMap.2 ⟨i, hi, (entry_eq_some slots order i _).2 ⟨s, k, hs, hk, rfl⟩⟩)

/-- **The text of a graph tells the graph.** -/
theorem compile_decodes (slots : Slots) (order : List Nat) (hv : violation? (slots.outputsOf order) = none) :
    ∃ g after, slots.compile order = (.ok g, after) ∧ slots.WrittenAs order g after ∧
      Graph.read (Graph.text g) = some (Graph.asText g) ∧
      g.length = ((buckets (slots.entriesOf order)).map fun ms =>
        if ms.length = 1 then 1 else 1 + (spritesOf ms).length).sum ∧
      (∀ s ∈ (Graph.text g).toList.splitOn ';', s ≠ [] ∧ ∀ f ∈ splitCommas s, f ≠ []) ∧
      Tidy (Graph.text g).toList ∧
      ∀ (slots' : Slots) (order' : List Nat),
        (∀ g' after', slots'.compile order' = (.ok g', after') → Graph.text g' = Graph.text g → g' = g) ∧
        ((slots'.write order').1 = .ok (Graph.text g) → (slots'.compile order').1 = .ok g) := by
  have hne := entriesOf_ne_nil hv
  have hreadable := graphOf_readable hne
  have hcompile : slots.compile order = (.ok (graphOf (slots.entriesOf order)), slots.rename order) := by
    simp [compile, hv]
  refine ⟨_, _, hcompile, compile_writtenAs hcompile, Graph.read_text hreadable, graphOf_length _, ?_,
    hreadable.text.2, fun slots' order' => ⟨?_, fun hwrite => ?_⟩⟩
  · rw [splitOn_text hreadable]
    refine List.forall_mem_map.2 fun c hc => ⟨(hreadable.2 c hc).text.1, ?_⟩
    rw [splitCommas_text (hreadable.2 c hc)]
    exact List.forall_mem_map.2 fun f hf => ((hreadable.2 c hc).2 f hf).text.1
  · intro g' after' hcompile' htext
    obtain ⟨hv', rfl⟩ := compile_eq_ok hcompile'
    exact graphOf_text_inj (entriesOf_ne_nil hv') hne htext
  · have htext := write_of_ok slots' order' hwrite
    rw [htext, Except.ok.injEq] at hwrite
    cases hv' : violation? (slots'.outputsOf order') with
    | some v =>
      rw [write_of_violation slots' order' hv'] at htext
      cases htext
    | none =>
      rw [← graphOf_text_inj (entriesOf_ne_nil hv') hne hwrite]
      simp [compile, hv']

/-- Sprites and thumbnails that are padded to one size, and thumbnails of the same video at another pace. -/
def padded : Slots :=
  [⟨{ kind := 1, interval := 2500000, scale := ⟨320, 180, 1⟩, columns := 4, rows := 3 }, {}⟩,
    ⟨{ interval := 2500000, scale := ⟨320, 180, 1⟩ }, {}⟩, ⟨{ scale := ⟨640, -1, 0⟩ }, {}⟩]

theorem compile_decodes_padded :
    violation? (padded.outputsOf [0, 2, 1]) = none ∧
      ∃ g after, padded.compile [0, 2, 1] = (.ok g, after) ∧ g.length = 3 ∧ Graph.text g =
          "[0:v]select=bitor(gte(t-prev_selected_t\\,2.5)\\,isnan(prev_selected_t))," ++
          "scale=320:180:force_original_aspect_ratio=decrease,pad=320:180:-1:-1:color=black," ++
          "split=2[sprites-0][thumbs-2-out];[sprites-0]tile=4x3[sprites-0-out];" ++
          "[0:v]select=bitor(gte(t-prev_selected_t\\,1)\\,isnan(prev_selected_t)),scale=640:-1[thumbs-1-out]" ∧
        Graph.read (Graph.text g) = some (Graph.asText g) := by
  obtain ⟨g, after, hcompile, -, hread, hlength, -⟩ := compile_decodes padded [0, 2, 1] (by decide)
  obtain ⟨-, rfl⟩ := compile_eq_ok hcompile
  exact ⟨by decide, _, after, hcompile, hlength, by decide +kernel, hread⟩

end Slots

end Thumbnailer
