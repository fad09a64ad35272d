import Thumbnailer.Proofs.Yaml.Composed
import Thumbnailer.Yaml.Value

/-!
# Faults of values

Making the values of a document fails for a rule of form, or at a scalar that has not the value that its tag announces.
-/

namespace Thumbnailer.Yaml

/-! ## Scalars without a value -/

/-- A text has no value under a tag, and this is the fault. -/
inductive Scalar.Unfit (text : String) : Tag → Fault → Prop
  | bool (h : boolWords.lookup (Text.lower text) = none) : Unfit text .bool (.badBoolean (Text.lower text))
  | emptyInteger : Unfit text .int .emptyNumber
  | badInteger {base : Nat} {part : String} {reason : Text.IntegerError}
      (h : Text.readIntegerIn base part = .error reason) : Unfit text .int (.badInteger reason)
  | emptyFloat : Unfit text .float .emptyNumber
  | badFloat {part : String} (h : Double.read? part = none) : Unfit text .float (.badFloat part)
  | tooManyPlaces : Unfit text .float .tooManyPlaces
  | noMoment (h : Moment.read? text = none) : Unfit text .timestamp .badTimestamp
  | badMoment {m : Moment} {reason : MomentError} (h : Moment.read? text = some m) (he : m.error? = some reason) :
      Unfit text .timestamp (.badMoment reason)

/-- What can be wrong with the text of an integer. -/
def IntegerFault (f : Fault) : Prop :=
  f = .emptyNumber ∨ ∃ base part reason, Text.readIntegerIn base part = .error reason ∧ f = .badInteger reason

def FloatFault (f : Fault) : Prop :=
  f = .emptyNumber ∨ (∃ part, Double.read? part = none ∧ f = .badFloat part) ∨ f = .tooManyPlaces

section
variable {ε α β : Type} {P : ε → Prop}

theorem failsWith_mapM {f : α → Except ε β} (hf : ∀ a, FailsWith P (f a)) (as : List α) : FailsWith P (as.mapM f) := by
  induction as with
  | nil => simp
  | cons a as ih =>
    rw [List.mapM_cons]
    exact (hf a).bind fun b => ih.bind fun bs => by simp

theorem Ends.foldlM {I : β → Prop} {f : β → α → Except ε β} (hf : ∀ b a, I b → Ends P I (f b a)) {b : β} (hb : I b)
    (as : List α) : Ends P I (as.foldlM f b) := by
  induction as generalizing b with
  | nil => exact .ok hb
  | cons a as ih =>
    rw [List.foldlM_cons]
    exact (hf b a hb).bind fun b' hb' => ih hb'

end

theorem splitSign_fails {P : Fault → Prop} (hempty : P .emptyNumber) (s : List Char) : FailsWith P (splitSign s) := by
  unfold splitSign
  split <;> simp [hempty]

theorem integerIn_fails (base : Nat) (s : List Char) : FailsWith IntegerFault (integerIn base s) := by
  unfold integerIn
  split
  · simp
  · next reason h => exact (failsWith_error _).2 (.inr ⟨_, _, reason, h, rfl⟩)

theorem unsignedInteger_fails (s : List Char) : FailsWith IntegerFault (unsignedInteger s) := by
  have hempty : IntegerFault .emptyNumber := .inl rfl
  unfold unsignedInteger
  split
  · simpa using hempty
  · simp
  · exact integerIn_fails 2 _
  · exact integerIn_fails 16 _
  · exact integerIn_fails 8 _
  · split
    · exact (failsWith_mapM (integerIn_fails 10) _).bind fun parts => by simp
    · exact integerIn_fails 10 _

theorem integerValue_fails (text : String) : FailsWith IntegerFault (integerValue text) := by
  unfold integerValue
  refine (splitSign_fails (.inl rfl) _).bind fun ⟨negative, s⟩ => ?_
  exact (unsignedInteger_fails s).bind fun n => by simp

theorem floatOf_fails (s : List Char) : FailsWith FloatFault (floatOf s) := by
  unfold floatOf
  split
  · simp
  · next h => exact (failsWith_error _).2 (.inr (.inl ⟨_, h, rfl⟩))

theorem sumPlaces_fails (base : Nat) (sum : Double) (xs : List Double) :
    FailsWith FloatFault (sumPlaces base sum xs) := by
  induction xs generalizing base sum with
  | nil => simp [sumPlaces]
  | cons place rest ih =>
    unfold sumPlaces
    split
    · exact (failsWith_error _).2 (.inr (.inr rfl))
    · exact ih _ _

theorem unsignedFloat_fails (s : List Char) : FailsWith FloatFault (unsignedFloat s) := by
  unfold unsignedFloat
  split
  · simp
  · split
    · simp
    · split
      · exact (failsWith_mapM floatOf_fails _).bind fun parts => sumPlaces_fails _ _ _
      · exact floatOf_fails s

theorem floatValue_fails (text : String) : FailsWith FloatFault (floatValue text) := by
  unfold floatValue
  refine (splitSign_fails (.inl rfl) _).bind fun ⟨negative, s⟩ => ?_
  exact (unsignedFloat_fails s).bind fun x => by simp

theorem bytesValue_fails (text : String) : FailsWith (· = .malformed) (bytesValue text) := by
  unfold bytesValue
  split
  · split <;> simp
  · simp

theorem Scalar.unfit_of_error {tag : Tag} {text : String} {f : Fault} (h : Scalar.ofText? tag text = some (.error f))
    (hf : f ≠ .malformed) : Scalar.Unfit text tag f := by
  have hmap {α : Type} {x : Except Fault α} {g : α → Scalar} (h : some (x.map g) = some (.error f)) : x = .error f := by
    cases x with
    | error e => simpa [Except.map] using h
    | ok a => simp [Except.map] at h
  -- Only under these tags a text can lack its value; base 64 has no fault but one of form.
  cases tag with
  | bool =>
    have herror : boolValue text = .error f := hmap h
    unfold boolValue at herror
    dsimp only at herror
    split at herror
    · cases herror
    · next hword =>
      cases herror
      exact .bool hword
  | int =>
    obtain rfl | ⟨base, part, reason, hreason, rfl⟩ := (integerValue_fails text).of_error (hmap h)
    · exact .emptyInteger
    · exact .badInteger hreason
  | float =>
    obtain rfl | ⟨part, hpart, rfl⟩ | rfl := (floatValue_fails text).of_error (hmap h)
    · exact .emptyFloat
    · exact .badFloat hpart
    · exact .tooManyPlaces
  | binary => exact absurd ((bytesValue_fails text).of_error (hmap h)) hf
  | timestamp =>
    have herror : momentValue text = .error f := hmap h
    unfold momentValue at herror
    split at herror
    · next hread =>
      cases herror
      exact .noMoment hread
    · next m hread =>
      split at herror
      · cases herror
      · next reason hreason =>
        cases herror
        exact .badMoment hread hreason
  | _ => simp [ofText?] at h

/-! ## Nodes that merging leaves -/

namespace Nodes

def IsText (ns : Nodes) (n : Nat) (text : String) : Prop := ∃ tag, ns.node? n = some (.scalar tag text)

/-- Merging takes no text in, and changes no tag but to the one of texts. -/
structure Derived (given ns : Nodes) : Prop where
  tag : ∀ n, ns.tag n = given.tag n ∨ ns.tag n = .text
  text : ∀ n text, ns.IsText n text → given.IsText n text

variable {given ns : Nodes}

theorem Derived.refl (ns : Nodes) : Derived ns ns := ⟨fun _ => .inl rfl, fun _ _ h => h⟩

theorem node?_setIfInBounds (ns : Nodes) (n m : Nat) (node : Node) : node? (ns.setIfInBounds n node) m =
    if n = m ∧ n < ns.size then some node else ns.node? m := by
  unfold node?
  rw [Array.getElem?_setIfInBounds]
  by_cases hm : n = m
  · subst hm
    by_cases hn : n < ns.size
    · simp [hn]
    · simp [hn]
  · simp [hm]

def tagOf : Node → Tag
  | .scalar tag _ | .sequence tag _ | .mapping tag _ => tag

theorem tag_eq (ns : Nodes) (n : Nat) : ns.tag n = ((ns.node? n).map tagOf).getD .other := by
  unfold tag
  cases ns.node? n with
  | none => rfl
  | some node => cases node <;> rfl

theorem Derived.set (h : Derived given ns) {n : Nat} {node : Node} (htag : tagOf node = ns.tag n ∨ tagOf node = .text)
    (htext : ∀ tag text, node = .scalar tag text → ns.IsText n text) : Derived given (ns.setIfInBounds n node) where
  tag m := by
    rw [tag_eq, node?_setIfInBounds]
    split
    · next hm =>
      obtain ⟨rfl, -⟩ := hm
      obtain hsame | hplain := htag
      · simpa [hsame] using h.tag n
      · exact .inr (by simpa using hplain)
    · rw [← tag_eq]
      exact h.tag m
  text m text := by
    rintro ⟨tag, hnode⟩
    rw [node?_setIfInBounds] at hnode
    split at hnode
    · next hm =>
      obtain ⟨rfl, -⟩ := hm
      exact h.text n text (htext tag text (Option.some.inj hnode))
    · exact h.text m text ⟨tag, hnode⟩

theorem Derived.setEntries (h : Derived given ns) (n : Nat) (entries : List (Nat × Nat)) :
    Derived given (ns.setEntries n entries) :=
  h.set (.inl rfl) (by simp)

theorem Derived.plainKey (h : Derived given ns) (n : Nat) : Derived given (ns.plainKey n) := by
  unfold Nodes.plainKey
  split
  · next text hnode =>
    refine h.set (.inr rfl) ?_
    rintro tag text' heq
    cases heq
    exact ⟨_, hnode⟩
  · exact h.set (.inr rfl) (by simp)
  · exact h.set (.inr rfl) (by simp)
  · exact h

theorem Derived.plainKeys (h : Derived given ns) (entries : List (Nat × Nat)) :
    Derived given (entries.foldl (fun ns e => ns.plainKey e.1) ns) := by
  induction entries generalizing ns with
  | nil => exact h
  | cons e rest ih => exact ih (h.plainKey e.1)

theorem flattenWithin_ends (fuel : Nat) (merged : List (Nat × Nat)) (n : Nat) (h : Derived given ns) :
    Ends (· = .malformed) (Derived given) (flattenWithin fuel merged n ns) := by
  induction fuel generalizing merged n ns with
  | zero => exact .error rfl
  | succ fuel ih =>
    unfold flattenWithin
    dsimp only
    split
    · exact .ok ((h.setEntries _ _).plainKeys _)
    · split
      · exact (ih _ _ (h.setEntries _ _)).bind fun ns hns => ih _ _ hns
      · refine Ends.bind (Ends.foldlM (I := fun s => Derived given s.1) ?_ (h.setEntries _ _) _) fun s hs => ih _ _ hs
        rintro ⟨ns, before⟩ item hns
        dsimp only
        split
        · exact (ih _ _ hns).bind fun ns hns => .ok hns
        · exact .error rfl
      · exact .error rfl

/-- A document announces a value where a text has none under the tag of a node. -/
def Announces (ns : Nodes) (f : Fault) : Prop := ∃ n m text, ns.IsText m text ∧ Scalar.Unfit text (ns.tag n) f

/-- The fault is one of form, or a scalar has not the value that is announced for it. -/
def Breaks (ns : Nodes) (f : Fault) : Prop := f = .malformed ∨ ns.Announces f

theorem Derived.breaks (h : Derived given ns) {n m : Nat} {text : String} (htext : ns.IsText m text) {f : Fault}
    (hf : Scalar.ofText? (ns.tag n) text = some (.error f)) : given.Breaks f := by
  by_cases hform : f = .malformed
  · exact .inl hform
  · have hunfit := Scalar.unfit_of_error hf hform
    obtain hsame | hplain := h.tag n
    · exact .inr ⟨n, m, text, h.text m text htext, hsame ▸ hunfit⟩
    · rw [hplain] at hunfit
      cases hunfit

end Nodes

/-! ## Making values -/

namespace Building

variable {given : Nodes} {b : Building}

theorem textOf_ends (fuel n : Nat) :
    Ends (· = .malformed) (fun text => ∃ m, b.nodes.IsText m text) (b.textOf fuel n) := by
  induction fuel generalizing n with
  | zero => exact .error rfl
  | succ fuel ih =>
    unfold textOf
    split
    · next tag text hnode => exact .ok ⟨n, tag, hnode⟩
    · split
      · exact ih _
      · exact .error rfl
    · exact .error rfl

/-- A building of a document whose nodes came of those that were given. -/
abbrev Of (given : Nodes) (b : Building) : Prop := given.Derived b.nodes

theorem read_ends (h : Of given b) (n : Nat) {m : Nat} {text : String} (htext : b.nodes.IsText m text) :
    FailsWith given.Breaks ((Scalar.ofText? (b.nodes.tag n) text).getD (.error .malformed)) := by
  cases hread : Scalar.ofText? (b.nodes.tag n) text with
  | none => exact .error (.inl rfl)
  | some x =>
    cases x with
    | error f => exact .error (h.breaks htext hread)
    | ok s => exact .ok trivial

theorem visit_ends (h : Of given b) (n : Nat) : Ends given.Breaks (fun r => Of given r.2) (b.visit n) := by
  unfold visit
  split
  · exact .ok h
  · dsimp only
    split
    · exact .ok h
    · split
      · next tag text hnode => exact Ends.bind (read_ends h n ⟨tag, hnode⟩) fun s _ => .ok h
      · refine Ends.bind ((textOf_ends _ n).mono (fun f hf => .inl hf) fun _ ht => ht) fun text ht => ?_
        obtain ⟨m, hm⟩ := ht
        exact Ends.bind (read_ends h n hm) fun s _ => .ok h

theorem visitKey_ends (h : Of given b) (n : Nat) : Ends given.Breaks (fun r => Of given r.2) (b.visitKey n) := by
  unfold visitKey
  refine (visit_ends h n).bind fun ⟨v, b⟩ hb => ?_
  cases v with
  | scalar s => exact .ok hb
  | _ => exact .error (.inl rfl)

theorem visitEntries_ends (h : Of given b) (made : List (Scalar × Nat)) (entries : List (Nat × Nat)) :
    Ends given.Breaks (fun r => Of given r.2) (b.visitEntries made entries) := by
  induction entries generalizing b made with
  | nil => exact .ok h
  | cons e rest ih =>
    obtain ⟨key, value⟩ := e
    unfold visitEntries
    refine (visitKey_ends h key).bind fun ⟨k, b⟩ hb => ?_
    exact (visit_ends hb value).bind fun ⟨v, b⟩ hb => ih hb _

theorem visitPairs_ends (h : Of given b) (made : List (Nat × Nat)) (items : List Nat) :
    Ends given.Breaks (fun r => Of given r.2) (b.visitPairs made items) := by
  induction items generalizing b made with
  | nil => exact .ok h
  | cons item rest ih =>
    unfold visitPairs
    split
    · next key value _ =>
      refine (visit_ends h key).bind fun ⟨k, b⟩ hb => ?_
      exact (visit_ends hb value).bind fun ⟨v, b⟩ hb => ih hb _
    · exact .error (.inl rfl)

theorem flattened_ends (h : Of given b) (n : Nat) : Ends given.Breaks (fun r => Of given r.2) (b.flattened n) := by
  unfold flattened
  split
  · have hflatten : Ends given.Breaks given.Derived (b.nodes.flattenWithin (b.nodes.mergeCount + 1) [] n) :=
      (Nodes.flattenWithin_ends (b.nodes.mergeCount + 1) [] n h).mono (fun f hf => .inl hf) fun ns hns => hns
    exact hflatten.bind fun ns hns => visitEntries_ends hns [] _
  · exact .error (.inl rfl)

theorem fill_ends (h : Of given b) (n : Nat) : Ends given.Breaks (Of given) (b.fill n) := by
  unfold fill
  split
  · split
    · refine Ends.bind (Ends.foldlM (I := Of given) ?_ h _) fun b hb => .ok hb
      exact fun b item hb => (visit_ends hb item).bind fun r hr => .ok hr
    · exact .error (.inl rfl)
  · split
    · exact (visitPairs_ends h [] _).bind fun r hr => .ok hr
    · exact .error (.inl rfl)
  · exact (flattened_ends h n).bind fun r hr => .ok hr
  · exact (flattened_ends h n).bind fun r hr => .ok hr
  · exact .ok h

theorem fillAll_ends (fuel : Nat) (h : Of given b) : Ends given.Breaks (Of given) (b.fillAll fuel) := by
  induction fuel generalizing b with
  | zero => exact .ok h
  | succ fuel ih =>
    unfold fillAll
    split
    · exact .ok h
    · next n rest _ =>
      have hrest : Of given { b with pending := rest } := h
      exact (fill_ends hrest n).bind fun b hb => ih hb

end Building

theorem Values.ofDocument_fails (d : Document) : FailsWith (Nodes.Breaks d.nodes) (Values.ofDocument d) := by
  unfold ofDocument
  have hstart : Building.Of d.nodes { nodes := d.nodes, values := Array.replicate d.nodes.size none } := .refl d.nodes
  refine (Building.visit_ends hstart _).bind fun ⟨v, b⟩ hb => ?_
  exact (Building.fillAll_ends _ hb).bind fun b hb => .ok trivial

/-! ## Texts -/

/-- Where a fault comes from that is none of form: an escape or a version, or a scalar in the document. -/
inductive Origin (text : List Char) (f : Fault) : Prop
  | token (h : (Tokens.ofText text).fault = some f) (hform : f.OfForm)
  | scalar {d : Document} (hd : Document.ofTokens (Tokens.ofText text) = .ok (some d)) (h : Nodes.Announces d.nodes f)

/-- A text without values breaks a rule of form, or its fault has an origin in it. -/
theorem Values.read_fails (text : List Char) :
    FailsWith (fun f => f = .malformed ∨ Origin (Text.unifyNewlines text) f) (Values.read text) := by
  unfold read
  dsimp only
  split
  · exact .error (.inl rfl)
  · cases hd : Document.ofTokens (Tokens.ofText (Text.unifyNewlines text)) with
    | error f =>
      obtain hform | htoken := Document.ofTokens_error hd
      · exact .error (.inl hform)
      · exact .error (.inr (.token htoken (Tokens.fault_ofText htoken)))
    | ok d? =>
      cases d? with
      | none => exact .ok trivial
      | some d =>
        refine (Values.ofDocument_fails d).mono (fun f hf => ?_) fun _ h => h
        obtain hform | hscalar := hf
        · exact .inl hform
        · exact .inr (.scalar hd hscalar)

end Thumbnailer.Yaml
