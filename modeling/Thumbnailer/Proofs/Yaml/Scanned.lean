import Thumbnailer.Proofs.Text.Integers
import Thumbnailer.Yaml.Tokens

/-!
# Faults of tokens

Cutting a text into tokens fails where a rule of form is broken, at an escape with a code that no character has, and at
a version with too long a number.
-/

namespace Thumbnailer.Yaml

section
variable {ε α β : Type} {P : ε → Prop} {Q : α → Prop} {R : β → Prop}

/-- A computation ends with an error that has one property, or with a result that has another one. -/
inductive Ends (P : ε → Prop) (Q : α → Prop) : Except ε α → Prop
  | error {e : ε} (h : P e) : Ends P Q (.error e)
  | ok {a : α} (h : Q a) : Ends P Q (.ok a)

theorem Ends.of_error {x : Except ε α} (h : Ends P Q x) {e : ε} (hx : x = .error e) : P e := by
  cases h with
  | error he => exact Except.error.inj hx ▸ he
  | ok _ => cases hx

theorem Ends.mono {P' : ε → Prop} {Q' : α → Prop} {x : Except ε α} (h : Ends P Q x) (hP : ∀ e, P e → P' e)
    (hQ : ∀ a, Q a → Q' a) : Ends P' Q' x := by
  cases h with
  | error he => exact .error (hP _ he)
  | ok ha => exact .ok (hQ _ ha)

theorem Ends.bind {x : Except ε α} {f : α → Except ε β} (hx : Ends P Q x) (hf : ∀ a, Q a → Ends P R (f a)) :
    Ends P R (x >>= f) := by
  cases hx with
  | error he => exact .error he
  | ok ha => exact hf _ ha

/-- Every error that a computation ends with has a property. -/
abbrev FailsWith (P : ε → Prop) (x : Except ε α) : Prop := Ends P (fun _ => True) x

@[simp]
theorem failsWith_ok (a : α) : FailsWith P (.ok a : Except ε α) := .ok trivial

@[simp]
theorem failsWith_pure (a : α) : FailsWith P (pure a : Except ε α) := .ok trivial

@[simp]
theorem failsWith_error (e : ε) : FailsWith P (.error e : Except ε α) ↔ P e :=
  ⟨fun h => h.of_error rfl, .error⟩

@[simp]
theorem failsWith_throw (e : ε) : FailsWith P (throw e : Except ε α) ↔ P e := failsWith_error e

@[simp]
theorem failsWith_throw_bind (e : ε) (f : α → Except ε β) : FailsWith P (throw e >>= f) ↔ P e := failsWith_error e

@[simp]
theorem failsWith_map (g : α → β) (x : Except ε α) : FailsWith P (x.map g) ↔ FailsWith P x := by
  cases x <;> simp [Except.map]

@[simp]
theorem failsWith_functor_map (g : α → β) (x : Except ε α) : FailsWith P (g <$> x) ↔ FailsWith P x :=
  failsWith_map g x

@[simp]
theorem failsWith_ite (c : Prop) [Decidable c] (x y : Except ε α) :
    FailsWith P (if c then x else y) ↔ (c → FailsWith P x) ∧ (¬c → FailsWith P y) := by
  split <;> simp_all

theorem FailsWith.bind {x : Except ε α} {f : α → Except ε β} (hx : FailsWith P x) (hf : ∀ a, FailsWith P (f a)) :
    FailsWith P (x >>= f) :=
  Ends.bind hx fun a _ => hf a

end

/-- The faults that a text can have before its scalars are looked at. -/
inductive Fault.OfForm : Fault → Prop
  | malformed : OfForm .malformed
  | badCode {code : Nat} (h : 0x110000 ≤ code) : OfForm (.badCode code)
  | longVersion {count : Nat} (h : Text.digitLimit < count) : OfForm (.badInteger (.tooManyDigits count))

attribute [simp] Fault.OfForm.malformed

/-- The computation fails only with faults of form. -/
abbrev Formal {α : Type} (x : Except Fault α) : Prop := FailsWith Fault.OfForm x

variable (c : Cursor)

theorem formal_finishLine : Formal c.finishLine := by
  unfold Cursor.finishLine
  simp

theorem formal_readName : Formal (readName c) := by
  unfold readName
  simp

theorem formal_readAnchor : Formal (readAnchor c) := by
  unfold readAnchor
  refine (formal_readName _).bind fun ⟨name, c⟩ => ?_
  simp

/-! ## Tags and directives -/

theorem formal_escapedBytes (fuel : Nat) : Formal (escapedBytes fuel c) := by
  induction fuel generalizing c with
  | zero => simp [escapedBytes]
  | succ fuel ih =>
    unfold escapedBytes
    split
    · simp
    · split
      · simp
      · simpa using ih _

theorem formal_tagTail (fuel : Nat) : Formal (tagTail fuel c) := by
  induction fuel generalizing c with
  | zero => simp [tagTail]
  | succ fuel ih =>
    unfold tagTail
    dsimp only
    split
    · simp
    · refine (formal_escapedBytes _ _).bind fun ⟨bytes, c⟩ => ?_
      dsimp only
      split
      · simp
      · exact (ih _).bind fun ⟨more, c⟩ => by simp

theorem formal_readTagText : Formal (readTagText c) := by
  unfold readTagText
  simp [formal_tagTail]

theorem formal_readHandle : Formal (readHandle c) := by
  unfold readHandle
  simp

theorem formal_readTag : Formal (readTag c) := by
  unfold readTag
  dsimp only
  split
  · refine (formal_readTagText _).bind fun ⟨text, c⟩ => ?_
    simp
  · split
    · simp
    · split
      · refine (formal_readHandle c).bind fun ⟨handle, c⟩ => ?_
        refine (formal_readTagText c).bind fun ⟨text, c⟩ => ?_
        simp
      · refine (formal_readTagText c.next).bind fun ⟨text, c⟩ => ?_
        simp

theorem formal_readVersionPart : Formal (readVersionPart c) := by
  unfold readVersionPart
  dsimp only
  split
  · simp
  · next hne =>
    have hdigits : ∀ d ∈ (c.span Char.isDigit).1, d.isDigit = true := fun d hd => List.mem_takeWhile_imp hd
    rw [Text.readInteger_of_isDigit (by simpa using hne) hdigits]
    split
    · next n heq => simp
    · next reason heq =>
      split at heq
      · next hlong =>
        cases heq
        simpa using Fault.OfForm.longVersion hlong
      · cases heq

theorem formal_readVersion : Formal (readVersion c) := by
  unfold readVersion
  refine (formal_readVersionPart _).bind fun ⟨major, c⟩ => ?_
  dsimp only
  split
  · simp
  · refine (formal_readVersionPart _).bind fun ⟨minor, c⟩ => ?_
    simp

theorem formal_readHandleMeaning : Formal (readHandleMeaning c) := by
  unfold readHandleMeaning
  refine (formal_readHandle _).bind fun ⟨name, c⟩ => ?_
  dsimp only
  split
  · simp
  · refine (formal_readTagText _).bind fun ⟨text, c⟩ => ?_
    simp

theorem formal_readDirective : Formal (readDirective c) := by
  unfold readDirective
  refine (formal_readName _).bind fun ⟨name, c⟩ => ?_
  have hfinish (d : Directive) (c : Cursor) : Formal (do return (d, ← c.finishLine)) :=
    (formal_finishLine c).bind fun c => by simp
  dsimp only
  split
  · simp
  · split
    · exact (formal_readVersion c).bind fun ⟨d, c⟩ => hfinish d c
    · split
      · exact (formal_readHandleMeaning c).bind fun ⟨d, c⟩ => hfinish d c
      · simpa using hfinish .other c.skipLine

/-! ## Scalars -/

theorem formal_indentationDigit : Formal (indentationDigit c) := by
  unfold indentationDigit
  simp

theorem formal_blockHeader : Formal (blockHeader c) := by
  unfold blockHeader
  dsimp only
  refine (formal_indentationDigit _).bind fun ⟨increment, c⟩ => ?_
  simp [formal_finishLine]

theorem formal_readBlock (indent : Int) : Formal (readBlock indent c) := by
  unfold readBlock
  refine (formal_blockHeader _).bind fun ⟨header, c⟩ => ?_
  simp

theorem formal_foldedBreaks (fuel : Nat) : Formal (foldedBreaks fuel c) := by
  induction fuel generalizing c with
  | zero => simp [foldedBreaks]
  | succ fuel ih =>
    unfold foldedBreaks
    simp [ih]

theorem formal_quotedBlanks : Formal (quotedBlanks c) := by
  unfold quotedBlanks
  simp [formal_foldedBreaks]

theorem formal_escape : Formal (escape c) := by
  unfold escape
  split
  · simp
  · split
    · simp
    · next code _ =>
      split
      · simp
      · next hcode => simpa using Fault.OfForm.badCode (Nat.le_of_not_lt hcode)
  · simp [formal_foldedBreaks]

theorem formal_quotedRun (double : Bool) (fuel : Nat) : Formal (quotedRun double fuel c) := by
  induction fuel generalizing c with
  | zero => simp [quotedRun]
  | succ fuel ih =>
    have hescape := formal_escape c.next
    unfold quotedRun
    simp only [failsWith_ite, failsWith_ok, failsWith_map, ih, implies_true, true_and, and_true]
    split
    · next e he =>
      have hform : e.OfForm := hescape.of_error he
      simp [hform]
    · simp [ih]

theorem formal_quotedBody (double : Bool) (fuel : Nat) : Formal (quotedBody double fuel c) := by
  induction fuel generalizing c with
  | zero => simp [quotedBody]
  | succ fuel ih =>
    unfold quotedBody
    refine (formal_quotedRun _ _ _).bind fun ⟨run, c⟩ => ?_
    rw [failsWith_ite]
    refine ⟨fun _ => by simp, fun _ => ?_⟩
    refine (formal_quotedBlanks c).bind fun ⟨blanks, c⟩ => ?_
    simp [ih]

theorem formal_readQuoted : Formal (readQuoted c) := by
  unfold readQuoted
  simp [formal_quotedBody]

/-! ## Taking tokens -/

namespace Reader

variable (r : Reader)

theorem formal_dropKey : Formal r.dropKey := by
  unfold dropKey
  simp

theorem formal_dropStale : Formal r.dropStale := by
  unfold dropStale
  simp

theorem formal_noteKey : Formal r.noteKey := by
  unfold noteKey
  simp [formal_dropKey]

theorem formal_outside (mayStartKey : Bool) : Formal (r.outside mayStartKey) := by
  unfold outside
  simp [formal_dropKey]

theorem formal_takeDirective : Formal r.takeDirective := by
  unfold takeDirective
  refine (formal_outside _ _).bind fun r => ?_
  simp [formal_readDirective]

theorem formal_beginBlock (t : Token) : Formal (r.beginBlock t) := by
  unfold beginBlock
  simp

theorem formal_takeItem : Formal r.takeItem := by
  unfold takeItem
  refine (formal_beginBlock _ _).bind fun r => ?_
  simp [formal_dropKey]

theorem formal_takeKey : Formal r.takeKey := by
  unfold takeKey
  refine (formal_beginBlock _ _).bind fun r => ?_
  simp [formal_dropKey]

theorem formal_takeValue : Formal r.takeValue := by
  unfold takeValue
  split
  · simp
  · refine (formal_beginBlock _ _).bind fun r => ?_
    simp [formal_dropKey]

theorem formal_takeNode {α : Type} {read : Cursor → Except Fault (α × Cursor)} (hread : ∀ c, Formal (read c))
    (token : α → Token) : Formal (r.takeNode read token) := by
  unfold takeNode
  refine (formal_noteKey _).bind fun r => ?_
  simp [hread]

theorem formal_takeBlockScalar : Formal r.takeBlockScalar := by
  unfold takeBlockScalar
  refine (formal_dropKey _).bind fun r => ?_
  simp [formal_readBlock]

theorem formal_next : Formal r.next := by
  unfold next
  refine (formal_dropStale _).bind fun r => ?_
  simp [takeEnd, takeSeparator, takeOpening, takeClosing, takeComma, takePlain, formal_outside, formal_dropKey,
    formal_noteKey, formal_takeDirective, formal_takeItem, formal_takeKey, formal_takeValue, formal_takeBlockScalar,
    formal_takeNode, formal_readAnchor, formal_readTag, formal_readQuoted]

/-- A text is cut up to its end, or to a fault of form. -/
theorem finish_fault {f : Fault} (fuel : Nat) (h : (finish fuel r).fault = some f) : f.OfForm := by
  induction fuel generalizing r with
  | zero =>
    cases h
    exact .malformed
  | succ fuel ih =>
    rw [finish] at h
    split at h
    · cases h
    · split at h
      · exact ih _ h
      · next he =>
        cases h
        exact r.formal_next.of_error he

end Reader

theorem Tokens.fault_ofText {text : List Char} {f : Fault} (h : (Tokens.ofText text).fault = some f) : f.OfForm :=
  Reader.finish_fault _ _ h

end Thumbnailer.Yaml
