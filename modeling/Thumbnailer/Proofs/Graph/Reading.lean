import Thumbnailer.Proofs.Graph.Words

/-!
# Reading graphs

A reader for the graph language: statements between semicolons, filters between commas that no backslash stands
before, labels in brackets on both sides of a filter, and a name with arguments between colons, of which those that
hold `=` are named. `Graph.read_text` says that it gives a graph back that is made of words.
-/

namespace Thumbnailer

/-! ## Graphs of texts -/

def Argument.asText (a : Argument) : Argument := .text a.written

/-- The filter with its arguments as they are written. -/
def Filter.asText (f : Filter) : Filter :=
  { f with args := f.args.map Argument.asText, params := f.params.map fun p => (p.1, p.2.asText) }

def Chain.asText (c : Chain) : Chain := c.map Filter.asText

def Graph.asText (g : Graph) : Graph := g.map Chain.asText

/-! ## The reader -/

/-- Splits at commas that no backslash stands before. -/
def splitCommas : List Char → List (List Char)
  | [] => [[]]
  | '\\' :: ',' :: rest => (splitCommas rest).modifyHead fun w => '\\' :: ',' :: w
  | ',' :: rest => [] :: splitCommas rest
  | c :: rest => (splitCommas rest).modifyHead (c :: ·)

/-- Reads labels as far as they go. A label that has been opened is given as far as it has been read. -/
def readLabels : Option (List Char) → List Char → Option (List String × List Char)
  | none, '[' :: rest => readLabels (some []) rest
  | none, rest => some ([], rest)
  | some [], ']' :: _ => none
  | some label, ']' :: rest => (readLabels none rest).map fun r => (String.ofList label :: r.1, r.2)
  | some _, '[' :: _ => none
  | some label, c :: rest => readLabels (some (label ++ [c])) rest
  | some _, [] => none

/-- Reads arguments. Those with a key stand behind all others, and neither keys nor values are empty. -/
def readValues : List (List Char) → Option (List Argument × OrderedMap String Argument)
  | [] => some ([], [])
  | v :: rest =>
    match v.takeWhile (· != '='), v.dropWhile (· != '='), readValues rest with
    | c :: w, [], some (args, params) => some (.text (String.ofList (c :: w)) :: args, params)
    | c :: key, _ :: d :: value, some ([], params) =>
      some ([], (String.ofList (c :: key), .text (String.ofList (d :: value))) :: params)
    | _, _, _ => none

def readBody (s : List Char) : Option Filter :=
  match s.takeWhile (· != '='), s.dropWhile (· != '=') with
  | c :: name, [] => some { name := String.ofList (c :: name) }
  | c :: name, _ :: values =>
    (readValues (values.splitOn ':')).map fun v =>
      { name := String.ofList (c :: name), args := v.1, params := v.2 }
  | [], _ => none

def readFilter (s : List Char) : Option Filter :=
  (readLabels none s).bind fun (inputs, rest) =>
    (readBody (rest.takeWhile (· != '['))).bind fun f =>
      match readLabels none (rest.dropWhile (· != '[')) with
      | some (outputs, []) => some { f with inputs, outputs }
      | _ => none

def readChain (s : List Char) : Option Chain := (splitCommas s).mapM readFilter

/-- The graph that a text stands for, with its arguments as they are written. -/
def Graph.read (s : String) : Option Graph := (s.toList.splitOn ';').mapM readChain

/-! ## Texts that can be read back -/

/-- Names, arguments and keys are words. -/
structure Filter.Readable (f : Filter) : Prop where
  name : Word f.name.toList
  args : ∀ a ∈ f.args, Word a.written.toList
  params : ∀ p ∈ f.params, Word p.1.toList ∧ Word p.2.written.toList
  inputs : ∀ l ∈ f.inputs, Label l.toList
  outputs : ∀ l ∈ f.outputs, Label l.toList

def Chain.Readable (c : Chain) : Prop := c ≠ [] ∧ ∀ f ∈ c, f.Readable

def Graph.Readable (g : Graph) : Prop := g ≠ [] ∧ ∀ c ∈ g, Chain.Readable c

section Cutting
variable {v w r : List Char} {d : Char}

theorem takeWhile_cut (hw : d ∉ w) (hr : ∀ c ∈ r.head?, c = d) : (w ++ r).takeWhile (· != d) = w := by
  rw [List.takeWhile_append_of_pos fun c hc => by simpa using fun heq : c = d => hw (heq ▸ hc)]
  cases r with
  | nil => simp
  | cons c r => simp [hr c rfl]

theorem dropWhile_cut (hw : d ∉ w) (hr : ∀ c ∈ r.head?, c = d) : (w ++ r).dropWhile (· != d) = r := by
  rw [List.dropWhile_append_of_pos fun c hc => by simpa using fun heq : c = d => hw (heq ▸ hc)]
  cases r with
  | nil => simp
  | cons c r => simp [hr c rfl]

/-! ## Commas -/

theorem splitCommas_append (hw : isSealed w = true) :
    splitCommas (w ++ r) = (splitCommas r).modifyHead (w ++ ·) := by
  fun_induction isSealed w with
  | case1 => cases h : splitCommas r <;> simp [h]
  | case2 w ih => simp [splitCommas, ih hw, Function.comp_def]
  | case3 c w hnot ih =>
    simp only [Bool.and_eq_true, bne_iff_ne] at hw
    obtain ⟨⟨hcomma, hslash⟩, hw⟩ := hw
    rw [List.cons_append, splitCommas, ih hw]
    · simp [Function.comp_def]
    · exact fun _ heq => absurd heq hslash
    · exact hcomma

theorem splitCommas_intercalate {ws : List (List Char)} (hne : ws ≠ []) (h : ∀ w ∈ ws, isSealed w = true) :
    splitCommas ([','].intercalate ws) = ws := by
  induction ws with
  | nil => exact absurd rfl hne
  | cons w ws ih =>
    obtain ⟨hw, hr⟩ := List.forall_mem_cons.1 h
    cases ws with
    | nil => simpa [splitCommas] using splitCommas_append (r := []) hw
    | cons w' ws =>
      rw [List.intercalate_cons_cons, List.append_assoc, List.singleton_append, splitCommas_append hw, splitCommas,
        ih (by simp) hr]
      simp

/-! ## Labels -/

theorem readLabels_opened (hopen : '[' ∉ w) (hclose : ']' ∉ w) (hne : v ++ w ≠ []) :
    readLabels (some v) (w ++ ']' :: r) =
      (readLabels none r).map fun x => (String.ofList (v ++ w) :: x.1, x.2) := by
  induction w generalizing v with
  | nil =>
    obtain ⟨c, v, rfl⟩ := List.exists_cons_of_ne_nil (by simpa using hne)
    simp [readLabels]
  | cons c w ih =>
    simp only [List.mem_cons, not_or] at hopen hclose
    have hread := ih (v := v ++ [c]) hopen.2 hclose.2 (by simp)
    rw [List.append_assoc, List.singleton_append] at hread
    rw [List.cons_append, ← hread, readLabels]
    · exact fun _ heq => hclose.1 heq.symm
    · exact fun heq => hclose.1 heq.symm
    · exact fun heq => hopen.1 heq.symm

theorem toList_labels (ls : List String) : (labels ls).toList = ls.flatMap fun l => '[' :: (l.toList ++ [']']) := by
  simp [labels, List.flatMap_map]

theorem readLabels_labels {ls : List String} (h : ∀ l ∈ ls, Label l.toList) (hr : r.head? ≠ some '[') :
    readLabels none ((labels ls).toList ++ r) = some (ls, r) := by
  rw [toList_labels]
  induction ls with
  | nil =>
    cases r with
    | nil => rfl
    | cons c r =>
      rw [List.flatMap_nil, List.nil_append, readLabels]
      exact fun _ heq => hr (by simp [List.cons.inj heq])
  | cons l ls ih =>
    obtain ⟨hl, hls⟩ := List.forall_mem_cons.1 h
    have hopened := readLabels_opened (v := []) (r := ls.flatMap (fun l => '[' :: (l.toList ++ [']'])) ++ r)
      (hl.inert '[' (by decide)) (hl.inert ']' (by decide)) hl.ne_nil
    simpa [readLabels, ih hls] using hopened

/-! ## Names and arguments -/

theorem readValues_params {ps : OrderedMap String Argument}
    (h : ∀ p ∈ ps, Word p.1.toList ∧ Word p.2.written.toList) :
    readValues (ps.map fun p => p.1.toList ++ '=' :: p.2.written.toList) =
      some ([], ps.map fun p => (p.1, p.2.asText)) := by
  induction ps with
  | nil => rfl
  | cons p ps ih =>
    obtain ⟨⟨hkey, hvalue⟩, hps⟩ := List.forall_mem_cons.1 h
    obtain ⟨c, key, hc⟩ := List.exists_cons_of_ne_nil hkey.ne_nil
    obtain ⟨d, value, hd⟩ := List.exists_cons_of_ne_nil hvalue.ne_nil
    have hsplit : '=' ∉ p.1.toList := hkey.inert '=' (by decide)
    rw [List.map_cons, readValues, takeWhile_cut hsplit (by simp), dropWhile_cut hsplit (by simp), ih hps, hc, hd]
    simp [← hc, ← hd, Argument.asText]

theorem readValues_args {args : List Argument} {ps : OrderedMap String Argument}
    (hargs : ∀ a ∈ args, Word a.written.toList) (hps : ∀ p ∈ ps, Word p.1.toList ∧ Word p.2.written.toList) :
    readValues (args.map (fun a => a.written.toList) ++ ps.map fun p => p.1.toList ++ '=' :: p.2.written.toList) =
      some (args.map Argument.asText, ps.map fun p => (p.1, p.2.asText)) := by
  induction args with
  | nil => exact readValues_params hps
  | cons a args ih =>
    obtain ⟨ha, hargs⟩ := List.forall_mem_cons.1 hargs
    obtain ⟨c, w, hc⟩ := List.exists_cons_of_ne_nil ha.ne_nil
    have hsplit : '=' ∉ a.written.toList := ha.inert '=' (by decide)
    have htake := takeWhile_cut (r := []) hsplit (by simp)
    have hdrop := dropWhile_cut (r := []) hsplit (by simp)
    rw [List.append_nil] at htake hdrop
    rw [List.map_cons, List.cons_append, readValues, htake, hdrop, ih hargs, hc]
    simp [← hc, Argument.asText]

end Cutting

theorem toList_values (f : Filter) : f.values.map String.toList =
    f.args.map (fun a => a.written.toList) ++ f.params.map fun p => p.1.toList ++ '=' :: p.2.written.toList := by
  simp [Filter.values, Function.comp_def]

theorem toList_body (f : Filter) : f.body.toList =
    if f.values = [] then f.name.toList
    else f.name.toList ++ '=' :: [':'].intercalate (f.values.map String.toList) := by
  unfold Filter.body
  split <;> simp_all

theorem mapM_map_eq_some {α β γ : Type} {l : List α} {read : β → Option γ} {text : α → β} {result : α → γ}
    (h : ∀ a ∈ l, read (text a) = some (result a)) : (l.map text).mapM read = some (l.map result) := by
  induction l with
  | nil => rfl
  | cons a l ih =>
    obtain ⟨ha, hl⟩ := List.forall_mem_cons.1 h
    rw [List.map_cons, List.mapM_cons, ha, ih hl]
    rfl

theorem segment_labels {ls : List String} (h : ∀ l ∈ ls, Label l.toList) : Segment (labels ls).toList := by
  rw [toList_labels]
  induction ls with
  | nil => exact ⟨tidy_of_no_delimiter (by simp), rfl, by simp⟩
  | cons l ls ih =>
    obtain ⟨hl, hls⟩ := List.forall_mem_cons.1 h
    exact hl.segment.append (ih hls)

theorem toList_chain (c : Chain) : (Chain.text c).toList = [','].intercalate (c.map fun f => f.text.toList) := by
  rw [Chain.text, String.toList_intercalate, List.map_map]
  rfl

section Readable
variable {f : Filter} (h : f.Readable)
include h

theorem Filter.Readable.values : ∀ v ∈ f.values.map String.toList, v ≠ [] ∧ Segment v ∧ ':' ∉ v ∧ '[' ∉ v := by
  rw [toList_values, List.forall_mem_append, List.forall_mem_map, List.forall_mem_map]
  constructor
  · intro a ha
    have hword := h.args a ha
    exact ⟨hword.ne_nil, hword.segment, hword.inert ':' (by decide), hword.inert '[' (by decide)⟩
  · intro p hp
    obtain ⟨hkey, hvalue⟩ := h.params p hp
    refine ⟨by simp, hkey.segment.join hkey.ne_nil hvalue.segment hvalue.ne_nil (by decide), ?_, ?_⟩
    · simp [hkey.inert ':' (by decide), hvalue.inert ':' (by decide)]
    · simp [hkey.inert '[' (by decide), hvalue.inert '[' (by decide)]

theorem readBody_body : readBody f.body.toList = some { f.asText with inputs := [], outputs := [] } := by
  obtain ⟨c, name, hc⟩ := List.exists_cons_of_ne_nil h.name.ne_nil
  have hsplit : '=' ∉ f.name.toList := h.name.inert '=' (by decide)
  rw [toList_body]
  split
  next hnone =>
    have htake := takeWhile_cut (r := []) hsplit (by simp)
    have hdrop := dropWhile_cut (r := []) hsplit (by simp)
    rw [List.append_nil] at htake hdrop
    have hempty : f.args = [] ∧ f.params = [] := by simpa [Filter.values] using hnone
    rw [readBody, htake, hdrop, hc]
    simp [← hc, Filter.asText, hempty]
  next hsome =>
    have hvalues := List.splitOn_intercalate ':' (fun v hv => (h.values v hv).2.2.1) (by simpa using hsome)
    rw [readBody, takeWhile_cut hsplit (by simp), dropWhile_cut hsplit (by simp), hc]
    simp only
    rw [hvalues, toList_values, readValues_args h.args h.params]
    simp [← hc, Filter.asText]

theorem Filter.Readable.body : f.body.toList ≠ [] ∧ Segment f.body.toList ∧ '[' ∉ f.body.toList := by
  have hbracket : '[' ∉ f.name.toList := h.name.inert '[' (by decide)
  rw [toList_body]
  split
  next => exact ⟨h.name.ne_nil, h.name.segment, hbracket⟩
  next hsome =>
    have hvalues := intercalate_of_join (P := fun v => v ≠ [] ∧ Segment v ∧ '[' ∉ v) (d := ':') ?_
      (by simpa using hsome) fun v hv => ⟨(h.values v hv).1, (h.values v hv).2.1, (h.values v hv).2.2.2⟩
    · obtain ⟨hne, hsegment, hopen⟩ := hvalues
      refine ⟨by simp, h.name.segment.join h.name.ne_nil hsegment hne (by decide), ?_⟩
      simp [hbracket, hopen]
    · rintro v w ⟨hv, hvsegment, hvopen⟩ ⟨hw, hwsegment, hwopen⟩
      refine ⟨by simp, hvsegment.join hv hwsegment hw (by decide), ?_⟩
      simp [hvopen, hwopen]

theorem readFilter_text : readFilter f.text.toList = some f.asText := by
  -- The labels before the body end where it starts, and it ends at the first bracket behind it.
  obtain ⟨hne, -, hopen⟩ := h.body
  have hlabels : ∀ c ∈ (labels f.outputs).toList.head?, c = '[' := by
    rw [toList_labels]
    cases f.outputs <;> simp
  have hhead : (f.body.toList ++ (labels f.outputs).toList).head? ≠ some '[' := by
    obtain ⟨c, body, hc⟩ := List.exists_cons_of_ne_nil hne
    rw [hc] at hopen ⊢
    simpa using fun heq : c = '[' => hopen (by simp [heq])
  have houtputs := readLabels_labels (r := []) h.outputs (by simp)
  rw [List.append_nil] at houtputs
  rw [Filter.text, String.toList_append, String.toList_append, List.append_assoc, readFilter,
    readLabels_labels h.inputs hhead]
  simp only [Option.bind_some]
  rw [takeWhile_cut hopen hlabels, dropWhile_cut hopen hlabels, readBody_body h, houtputs]
  rfl

theorem Filter.Readable.text : f.text.toList ≠ [] ∧ Segment f.text.toList := by
  obtain ⟨hne, hbody, -⟩ := h.body
  rw [Filter.text, String.toList_append, String.toList_append]
  exact ⟨by simp [hne], ((segment_labels h.inputs).append hbody).append (segment_labels h.outputs)⟩

end Readable

/-! ## Chains and graphs -/

section Statements
variable {c : Chain} (h : Chain.Readable c)
include h

theorem splitCommas_text : splitCommas (Chain.text c).toList = c.map fun f => f.text.toList := by
  rw [toList_chain]
  refine splitCommas_intercalate (by simpa using h.1) (List.forall_mem_map.2 fun f hf => ?_)
  exact (h.2 f hf).text.2.closed

theorem readChain_text : readChain (Chain.text c).toList = some (Chain.asText c) := by
  rw [readChain, splitCommas_text h]
  exact mapM_map_eq_some fun f hf => readFilter_text (h.2 f hf)

theorem Chain.Readable.text :
    (Chain.text c).toList ≠ [] ∧ Tidy (Chain.text c).toList ∧ ';' ∉ (Chain.text c).toList := by
  rw [toList_chain]
  refine intercalate_of_join (P := fun w => w ≠ [] ∧ Tidy w ∧ ';' ∉ w) ?_ (by simpa using h.1)
    (List.forall_mem_map.2 fun f hf => ?_)
  · rintro v w ⟨hv, hvtidy, hvinert⟩ ⟨hw, hwtidy, hwinert⟩
    exact ⟨by simp, hvtidy.join hv hwtidy hw ',', by simp [hvinert, hwinert]⟩
  · obtain ⟨hne, hsegment⟩ := (h.2 f hf).text
    exact ⟨hne, hsegment.tidy, hsegment.inert⟩

end Statements

section Graphs
variable {g : Graph} (h : Graph.Readable g)
include h

theorem toList_graph : (Graph.text g).toList = [';'].intercalate (g.map fun c => (Chain.text c).toList) := by
  have hall : g.filter (fun c => !c.isEmpty) = g :=
    List.filter_eq_self.2 fun c hc => by simpa using (h.2 c hc).1
  rw [Graph.text, hall, String.toList_intercalate, List.map_map]
  rfl

theorem splitOn_text : (Graph.text g).toList.splitOn ';' = g.map fun c => (Chain.text c).toList := by
  rw [toList_graph h]
  exact List.splitOn_intercalate ';' (List.forall_mem_map.2 fun c hc => (h.2 c hc).text.2.2) (by simpa using h.1)

theorem Graph.Readable.text : (Graph.text g).toList ≠ [] ∧ Tidy (Graph.text g).toList := by
  rw [toList_graph h]
  refine intercalate_of_join (P := fun w => w ≠ [] ∧ Tidy w) ?_ (by simpa using h.1)
    (List.forall_mem_map.2 fun c hc => ⟨(h.2 c hc).text.1, (h.2 c hc).text.2.1⟩)
  rintro v w ⟨hv, hvtidy⟩ ⟨hw, hwtidy⟩
  exact ⟨by simp, hvtidy.join hv hwtidy hw ';'⟩

/-- A graph that is made of words is given back by its text. -/
theorem Graph.read_text : Graph.read (Graph.text g) = some (Graph.asText g) := by
  rw [Graph.read, splitOn_text h]
  exact mapM_map_eq_some fun c hc => readChain_text (h.2 c hc)

end Graphs

example : Graph.read "[0:v]select=a\\,b,scale=2:-1:how=in[x][y];[x]tile[z]" =
    some [[{ name := "select", args := [.text "a\\,b"], inputs := ["0:v"] },
        { name := "scale", args := [.text "2", .text "-1"], params := [("how", .text "in")], outputs := ["x", "y"] }],
      [{ name := "tile", inputs := ["x"], outputs := ["z"] }]] := by decide

end Thumbnailer
