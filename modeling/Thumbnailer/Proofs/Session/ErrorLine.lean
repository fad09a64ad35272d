import Thumbnailer.Proofs.Text.Phrases
import Thumbnailer.Proofs.Text.Pieces
import Thumbnailer.Session.ErrorLine

/-!
# The line that names the error

The line that is shown is the last one with a phrase that errors are known by, whichever phrase that is, or else the
last one that is not blank. That the whole text is trimmed before it is cut into lines changes nothing about this.
-/

namespace Thumbnailer

/-! ## Phrases -/

theorem errorPhrases_solid : ∀ phrase ∈ errorPhrases,
    Text.IsSolid phrase.toList ∧ phrase.toList.all Text.isPhraseChar = true := by
  have hall : ∀ phrase ∈ errorPhrases, phrase.toList.head?.map Text.isBlank = some false ∧
      phrase.toList.getLast?.map Text.isBlank = some false ∧ phrase.toList.all Text.isPhraseChar = true := by decide
  intro phrase hphrase
  obtain ⟨hstart, hstop, hsmall⟩ := hall phrase hphrase
  exact ⟨⟨hstart, hstop⟩, hsmall⟩

/-- The line holds a phrase that errors are known by. -/
def NamesError (line : List Char) : Prop :=
  ∃ phrase ∈ ["error", "invalid", "no such file", "not found", "permission denied", "discarding"],
    Text.HoldsPhrase phrase.toList line

theorem namesError_iff {line : List Char} : namesError line = true ↔ NamesError line := by
  rw [namesError, List.any_eq_true]
  change _ ↔ ∃ phrase ∈ errorPhrases, _
  exact exists_congr fun phrase => and_congr_right fun h => Text.holdsLike_iff (errorPhrases_solid phrase h).2

def IsBlankLine (line : List Char) : Prop := ∀ c ∈ line, Text.isBlank c = true

theorem isBlankLine_iff {line : List Char} : (!(Text.trimChars line).isEmpty) = true ↔ ¬IsBlankLine line := by
  rw [Bool.not_eq_true', Bool.eq_false_iff, ne_eq, List.isEmpty_iff, Text.trimChars_eq_nil, IsBlankLine]

theorem NamesError.not_isBlankLine {line : List Char} (h : NamesError line) : ¬IsBlankLine line := by
  obtain ⟨phrase, hphrase, hholds⟩ := List.any_eq_true.1 (namesError_iff.2 h)
  obtain ⟨c, hc, hfull⟩ := Text.exists_not_isBlank_of_holdsLike (errorPhrases_solid phrase hphrase).1 hholds
  intro hblank
  simp [hblank c hc] at hfull

/-! ## The last line with a property -/

def IsLast (P : List Char → Prop) (lines : List (List Char)) (line : List Char) : Prop :=
  P line ∧ ∃ earlier later, lines = earlier ++ line :: later ∧ ∀ l ∈ later, ¬P l

section
variable {p : List Char → Bool} {line : List Char} {lines : List (List Char)}

theorem findLast?_eq_some_iff : findLast? p lines = some line ↔ IsLast (fun l => p l = true) lines line := by
  rw [findLast?, List.find?_eq_some_iff_append, IsLast]
  refine and_congr_right fun _ => ⟨?_, ?_⟩
  · rintro ⟨later, earlier, hlines, hlater⟩
    refine ⟨earlier.reverse, later.reverse, ?_, fun l hl => by simpa using hlater l (List.mem_reverse.1 hl)⟩
    simpa using congrArg List.reverse hlines
  · rintro ⟨earlier, later, rfl, hlater⟩
    exact ⟨later.reverse, earlier.reverse, by simp, fun l hl => by simpa using hlater l (List.mem_reverse.1 hl)⟩

theorem findLast?_eq_none_iff : findLast? p lines = none ↔ ∀ l ∈ lines, ¬p l = true := by
  simp [findLast?]

theorem findLast?_cons : findLast? p (line :: lines) = (findLast? p lines).or (if p line then some line else none) := by
  rw [findLast?, List.reverse_cons, List.find?_append, List.find?_singleton, findLast?]

theorem findLast?_concat : findLast? p (lines ++ [line]) = if p line then some line else findLast? p lines := by
  rw [findLast?, List.reverse_append, List.reverse_singleton, List.singleton_append, List.find?_cons, findLast?]
  cases p line <;> rfl

end

/-- Blanks at the ends of a line do not matter for the property. -/
structure Unpadded (p : List Char → Bool) : Prop where
  nil : p [] = false
  cons : ∀ c line, Text.isBlank c = true → p (c :: line) = p line
  concat : ∀ line c, Text.isBlank c = true → p (line ++ [c]) = p line

/-- The last line of a text that has a property, trimmed. -/
def lastTrimmed (p : List Char → Bool) (text : List Char) : Option (List Char) :=
  (findLast? p (Text.splitLines text)).map Text.trimChars

section
variable {p : List Char → Bool} (hp : Unpadded p)
include hp

theorem lastTrimmed_cons (c : Char) (text : List Char) (hc : Text.isBlank c = true) :
    lastTrimmed p (c :: text) = lastTrimmed p text := by
  by_cases hline : c = '\n'
  · subst hline
    rw [lastTrimmed, Text.splitLines, Text.splitOn_cons_separator, findLast?_cons, hp.nil]
    simp [lastTrimmed, Text.splitLines]
  · obtain ⟨first, others, htext, hsplit⟩ := Text.splitOn_cons hline text
    rw [lastTrimmed, lastTrimmed, Text.splitLines, Text.splitLines, htext, hsplit, findLast?_cons, findLast?_cons,
      hp.cons c first hc]
    cases findLast? p others <;> cases p first <;> simp [Text.trimChars_cons hc]

theorem lastTrimmed_concat (text : List Char) (c : Char) (hc : Text.isBlank c = true) :
    lastTrimmed p (text ++ [c]) = lastTrimmed p text := by
  by_cases hline : c = '\n'
  · subst hline
    rw [lastTrimmed, Text.splitLines, Text.splitOn_concat_separator, findLast?_concat, hp.nil]
    simp [lastTrimmed, Text.splitLines]
  · obtain ⟨others, last, htext, hsplit⟩ := Text.splitOn_concat hline text
    rw [lastTrimmed, lastTrimmed, Text.splitLines, Text.splitLines, htext, hsplit, findLast?_concat, findLast?_concat,
      hp.concat last c hc]
    cases p last <;> simp [Text.trimChars_concat hc]

theorem lastTrimmed_trimChars (text : List Char) : lastTrimmed p (Text.trimChars text) = lastTrimmed p text :=
  Text.eq_trimChars (lastTrimmed_cons hp) (lastTrimmed_concat hp) text

end

theorem namesError_congr {line line' : List Char}
    (h : ∀ phrase ∈ errorPhrases, Text.holdsLike phrase.toList line = Text.holdsLike phrase.toList line') :
    namesError line = namesError line' := by
  refine Bool.eq_iff_iff.2 ?_
  simp only [namesError, List.any_eq_true]
  exact exists_congr fun phrase => and_congr_right fun hphrase => by rw [h phrase hphrase]

theorem unpadded_namesError : Unpadded namesError where
  nil := by decide
  cons c line hc := namesError_congr fun phrase h => Text.holdsLike_cons (errorPhrases_solid phrase h).1 hc line
  concat line c hc := namesError_congr fun phrase h => Text.holdsLike_concat (errorPhrases_solid phrase h).1 hc line

theorem unpadded_not_blank : Unpadded fun line => !(Text.trimChars line).isEmpty where
  nil := rfl
  cons c line hc := by rw [Text.trimChars_cons hc]
  concat line c hc := by rw [Text.trimChars_concat hc]

/-! ## The line that is shown -/

/-- What is shown of some lines: the last one that names an error, or else the last one that is not blank, or else
that the error is unknown. -/
inductive Shown (lines : List (List Char)) : String → Prop
  | named {line : List Char} : IsLast NamesError lines line → Shown lines (String.ofList (Text.trimChars line))
  | unnamed {line : List Char} : (∀ l ∈ lines, ¬NamesError l) → IsLast (fun l => ¬IsBlankLine l) lines line →
      Shown lines (String.ofList (Text.trimChars line))
  | nothing : (∀ l ∈ lines, IsBlankLine l) → Shown lines "Unknown error"

/-- The line of a text that is shown, whether the text was trimmed before or not. -/
def shownOf (text : List Char) : String :=
  (((lastTrimmed namesError text).or (lastTrimmed (fun line => !(Text.trimChars line).isEmpty) text)).map
    String.ofList).getD "Unknown error"

theorem errorLine_eq (stderr : String) : errorLine stderr = shownOf stderr.toList := by
  rw [shownOf, ← lastTrimmed_trimChars unpadded_namesError, ← lastTrimmed_trimChars unpadded_not_blank, lastTrimmed,
    lastTrimmed]
  unfold errorLine
  dsimp only
  split
  · next line h => simp [h]
  · next h =>
    rw [h]
    split
    · next line h => simp [h]
    · next h => simp [h]

theorem errorLine_shown (stderr : String) : Shown (Text.splitLines stderr.toList) (errorLine stderr) := by
  rw [errorLine_eq, shownOf, lastTrimmed, lastTrimmed]
  cases hnamed : findLast? namesError (Text.splitLines stderr.toList) with
  | some line =>
    have hlast := findLast?_eq_some_iff.1 hnamed
    simp only [namesError_iff] at hlast
    exact .named hlast
  | none =>
    have hnone := findLast?_eq_none_iff.1 hnamed
    simp only [namesError_iff] at hnone
    cases hfull : findLast? (fun line => !(Text.trimChars line).isEmpty) (Text.splitLines stderr.toList) with
    | some line =>
      have hlast := findLast?_eq_some_iff.1 hfull
      simp only [isBlankLine_iff] at hlast
      exact .unnamed hnone hlast
    | none =>
      have hblank := findLast?_eq_none_iff.1 hfull
      simp only [isBlankLine_iff, not_not] at hblank
      exact .nothing hblank

/-- A text that can stand in one line of a message. -/
structure IsMessage (shown : String) : Prop where
  ne_empty : shown ≠ ""
  no_newline : '\n' ∉ shown.toList
  trimmed : Text.Trimmed shown.toList

theorem isMessage_trimChars {line : List Char} (h : ¬IsBlankLine line) (hline : '\n' ∉ line) :
    IsMessage (String.ofList (Text.trimChars line)) where
  ne_empty := by
    intro hempty
    exact h (Text.trimChars_eq_nil.1 (by simpa using hempty))
  no_newline := by
    rw [String.toList_ofList]
    exact fun hmem => hline (Text.mem_of_mem_trimChars hmem)
  trimmed := by
    rw [String.toList_ofList]
    exact Text.trimmed_trimChars line

theorem IsLast.mem {P : List Char → Prop} {lines : List (List Char)} {line : List Char} (h : IsLast P lines line) :
    line ∈ lines := by
  obtain ⟨-, earlier, later, rfl, -⟩ := h
  simp

theorem Shown.isMessage {lines : List (List Char)} {shown : String} (h : Shown lines shown)
    (hlines : ∀ line ∈ lines, '\n' ∉ line) : IsMessage shown := by
  cases h with
  | named hlast => exact isMessage_trimChars hlast.1.not_isBlankLine (hlines _ hlast.mem)
  | unnamed _ hlast => exact isMessage_trimChars hlast.1 (hlines _ hlast.mem)
  | nothing _ => exact ⟨by decide, by decide, Text.trimmed_of_trimChars_eq (by decide)⟩

theorem errorLine_isMessage (stderr : String) : IsMessage (errorLine stderr) :=
  (errorLine_shown stderr).isMessage (Text.not_mem_of_mem_splitOn '\n' stderr.toList)

theorem errorLine_ne_empty (stderr : String) : errorLine stderr ≠ "" := (errorLine_isMessage stderr).ne_empty

theorem Shown.eq_of_isBlankLine {lines : List (List Char)} {shown : String} (h : Shown lines shown)
    (hblank : ∀ line ∈ lines, IsBlankLine line) : shown = "Unknown error" := by
  cases h with
  | named hlast => exact absurd (hblank _ hlast.mem) hlast.1.not_isBlankLine
  | unnamed _ hlast => exact absurd (hblank _ hlast.mem) hlast.1
  | nothing _ => rfl

/-- What is shown of an error output. -/
structure ShowsLastError (stderr shown : String) : Prop where
  selected : Shown (Text.splitLines stderr.toList) shown
  message : IsMessage shown
  /-- There is no line to show exactly if there are only blanks. -/
  no_line : (∀ line ∈ Text.splitLines stderr.toList, IsBlankLine line) ↔ ∀ c ∈ stderr.toList, Text.isBlank c = true
  unknown : (∀ c ∈ stderr.toList, Text.isBlank c = true) → shown = "Unknown error"

/-- **The last line with an error is shown.** Of whatever a program wrote one line is shown without blanks around it,
and the error is unknown for want of a line exactly if there are only blanks. -/
theorem errorLine_showsLastError (stderr : String) : ShowsLastError stderr (errorLine stderr) :=
  have hlines := Text.forall_mem_splitOn (P := fun c => Text.isBlank c = true) (by decide) stderr.toList
  { selected := errorLine_shown stderr
    message := errorLine_isMessage stderr
    no_line := hlines
    unknown := fun h => (errorLine_shown stderr).eq_of_isBlankLine (hlines.2 h) }

/-- A later line is shown even if an earlier one holds a phrase that comes first, and letters have many forms. -/
example : errorLine "Error opening input\n \u2028PERMİSSION DENıED: a.mp4\x0c\nConversion done\n\n" =
    "PERMİSSION DENıED: a.mp4" := by decide +kernel

end Thumbnailer
