import Mathlib.Data.List.Induction
import Thumbnailer.Proofs.Text.Searching
import Thumbnailer.Proofs.Text.Trimming
import Thumbnailer.Session.Progress

/-!
# Reports of progress

Lines are fed one after the other. A line that holds a state makes a report of it, together with the time and the
speed of the last lines that had any; what was reported before stays as it is.
-/

namespace Thumbnailer.Progress

/-! ## One line -/

section
variable {mark : String} {line : List Char} {v : String}

theorem stateIn?_eq_some_iff : stateIn? line = some v ↔ Text.FirstRun "progress=" isStateChar line v.toList := by
  rw [stateIn?, Option.map_eq_some_iff, ← Text.findAfter?_eq_some_iff]
  constructor
  · rintro ⟨run, hrun, rfl⟩
    rw [hrun, String.toList_ofList]
  · exact fun h => ⟨_, h, String.ofList_toList⟩

theorem stateIn?_isSome_iff : (stateIn? line).isSome ↔ Text.HoldsRun "progress=" isStateChar line := by
  rw [stateIn?, Option.isSome_map, Text.findAfter?_isSome_iff]

theorem valueIn?_eq_some_iff : valueIn? mark line = some v ↔
    ∃ run, Text.FirstRun mark (· != ' ') line run ∧ String.ofList (Text.trimChars run) = v := by
  rw [valueIn?, Option.map_eq_some_iff]
  simp only [Text.findAfter?_eq_some_iff]

theorem valueIn?_eq_none_iff : valueIn? mark line = none ↔ ¬Text.HoldsRun mark (· != ' ') line := by
  rw [valueIn?, Option.map_eq_none_iff, Text.findAfter?_eq_none_iff]

end

theorem feed_eq (p : Progress) (line : List Char) :
    p.feed line = (if (stateIn? line).isSome then some (p.update line) else none, p.update line) := rfl

theorem feed_of_not_holdsRun (p : Progress) {line : List Char} (hstate : ¬Text.HoldsRun "progress=" isStateChar line)
    (htime : ¬Text.HoldsRun "out_time=" (· != ' ') line) (hspeed : ¬Text.HoldsRun "speed=" (· != ' ') line) :
    p.feed line = (none, p) := by
  rw [← stateIn?_isSome_iff, Option.not_isSome_iff_eq_none] at hstate
  rw [feed_eq, update, hstate, valueIn?_eq_none_iff.2 htime, valueIn?_eq_none_iff.2 hspeed]
  rfl

/-! ## Many lines -/

def after (p : Progress) (lines : List (List Char)) : Progress := lines.foldl update p

def answers (p : Progress) : List (List Char) → List (Option Progress)
  | [] => []
  | line :: rest => (p.feed line).1 :: (p.feed line).2.answers rest

section
variable (p : Progress)

theorem after_concat (lines : List (List Char)) (line : List Char) :
    p.after (lines ++ [line]) = (p.after lines).update line := List.foldl_concat ..

theorem length_answers (lines : List (List Char)) : (p.answers lines).length = lines.length := by
  induction lines generalizing p with
  | nil => rfl
  | cons line rest ih => rw [answers, List.length_cons, ih, List.length_cons]

theorem answers_append (lines more : List (List Char)) :
    p.answers (lines ++ more) = p.answers lines ++ (p.after lines).answers more := by
  induction lines generalizing p with
  | nil => rfl
  | cons line rest ih => rw [List.cons_append, answers, answers, ih, List.cons_append]; rfl

theorem answers_getElem? (lines : List (List Char)) (k : Nat) :
    (p.answers lines)[k]? = lines[k]?.map fun line => ((p.after (lines.take k)).feed line).1 := by
  induction lines generalizing p k with
  | nil => rfl
  | cons line rest ih =>
    cases k with
    | zero => rfl
    | succ k => rw [answers, List.getElem?_cons_succ, ih]; rfl

theorem answers_getElem?_eq_some {lines : List (List Char)} {k : Nat} {q : Progress} :
    (p.answers lines)[k]? = some (some q) ↔
      ∃ line, lines[k]? = some line ∧ (stateIn? line).isSome ∧ p.after (lines.take (k + 1)) = q := by
  rw [answers_getElem?, Option.map_eq_some_iff]
  refine exists_congr fun line => and_congr_right fun hline => ?_
  have hafter : p.after (lines.take (k + 1)) = (p.after (lines.take k)).update line := by
    rw [List.take_add_one, hline]
    exact p.after_concat _ line
  rw [hafter, feed_eq]
  cases (stateIn? line).isSome <;> simp

end

/-! ## The last line that had a value -/

/-- The value that was seen last behind a mark: that of the last line that has one, or none at all. -/
inductive Latest (mark : String) (lines : List (List Char)) : String → Prop
  | never : (∀ line ∈ lines, ¬Text.HoldsRun mark (· != ' ') line) → Latest mark lines ""
  | seen {earlier later : List (List Char)} {line run : List Char} : lines = earlier ++ line :: later →
      Text.FirstRun mark (· != ' ') line run → (∀ l ∈ later, ¬Text.HoldsRun mark (· != ' ') l) →
      Latest mark lines (String.ofList (Text.trimChars run))

/-- A value as it is reported: without spaces, and without other blanks at its ends. -/
structure IsValue (v : String) : Prop where
  no_space : ' ' ∉ v.toList
  trimmed : Text.Trimmed v.toList

section
variable {mark : String} {lines : List (List Char)} {v : String}

theorem Latest.isValue (h : Latest mark lines v) : IsValue v := by
  cases h with
  | never _ => exact ⟨by decide, Text.trimmed_of_trimChars_eq (by decide)⟩
  | seen _ hrun _ =>
    refine ⟨fun hmem => ?_, by rw [String.toList_ofList]; exact Text.trimmed_trimChars _⟩
    rw [String.toList_ofList] at hmem
    exact absurd (hrun.inClass ' ' (Text.mem_of_mem_trimChars hmem)) (by decide)

theorem Latest.concat (h : Latest mark lines v) (line : List Char) :
    Latest mark (lines ++ [line]) ((valueIn? mark line).getD v) := by
  cases hvalue : valueIn? mark line with
  | some w =>
    obtain ⟨run, hrun, rfl⟩ := valueIn?_eq_some_iff.1 hvalue
    exact .seen rfl hrun (by simp)
  | none =>
    have hnone := valueIn?_eq_none_iff.1 hvalue
    cases h with
    | never hlines => exact .never (by simpa [or_imp, forall_and] using ⟨hlines, hnone⟩)
    | @seen earlier later found run hlines hrun hlater =>
      have hmore : lines ++ [line] = earlier ++ found :: (later ++ [line]) := by simp [hlines]
      exact .seen hmore hrun (by simpa [or_imp, forall_and] using ⟨hlater, hnone⟩)

end

theorem latest_after (lines : List (List Char)) :
    Latest "out_time=" lines (after {} lines).time ∧ Latest "speed=" lines (after {} lines).speed := by
  induction lines using List.reverseRecOn with
  | nil => exact ⟨.never (by simp), .never (by simp)⟩
  | append_singleton lines line ih =>
    rw [after_concat]
    exact ⟨ih.1.concat line, ih.2.concat line⟩

/-- What is reported of some lines that are fed from the start. -/
structure ReportsLatest (lines : List (List Char)) (reports : List (Option Progress)) : Prop where
  length : reports.length = lines.length
  /-- A line makes a report exactly if it holds a state. -/
  report : ∀ (k : Nat) line, lines[k]? = some line →
    ((∃ p, reports[k]? = some (some p)) ↔ Text.HoldsRun "progress=" isStateChar line)
  /-- The state is that of the line itself. -/
  state : ∀ (k : Nat) p, reports[k]? = some (some p) →
    ∃ line, lines[k]? = some line ∧ Text.FirstRun "progress=" isStateChar line p.state.toList
  /-- Time and speed are the latest ones. -/
  time : ∀ (k : Nat) p, reports[k]? = some (some p) → Latest "out_time=" (lines.take (k + 1)) p.time
  speed : ∀ (k : Nat) p, reports[k]? = some (some p) → Latest "speed=" (lines.take (k + 1)) p.speed
  values : ∀ p, some p ∈ reports → p.state ≠ "" ∧ IsValue p.time ∧ IsValue p.speed
  /-- What was reported stays as it is when more lines are fed. -/
  kept : ∀ more, reports <+: answers {} (lines ++ more)
  unmarked : ∀ line, ¬Text.HoldsRun "progress=" isStateChar line → ¬Text.HoldsRun "out_time=" (· != ' ') line →
    ¬Text.HoldsRun "speed=" (· != ' ') line → (after {} lines).feed line = (none, after {} lines)

theorem state_of_answers {lines : List (List Char)} {k : Nat} {p : Progress}
    (h : (answers {} lines)[k]? = some (some p)) :
    ∃ line, lines[k]? = some line ∧ Text.FirstRun "progress=" isStateChar line p.state.toList := by
  obtain ⟨line, hline, hstate, rfl⟩ := (answers_getElem?_eq_some {}).1 h
  obtain ⟨v, hv⟩ := Option.isSome_iff_exists.1 hstate
  refine ⟨line, hline, stateIn?_eq_some_iff.1 ?_⟩
  rw [List.take_add_one, hline, Option.toList_some, after_concat, update, hv, Option.getD_some]

theorem latest_of_answers {lines : List (List Char)} {k : Nat} {p : Progress}
    (h : (answers {} lines)[k]? = some (some p)) :
    Latest "out_time=" (lines.take (k + 1)) p.time ∧ Latest "speed=" (lines.take (k + 1)) p.speed := by
  obtain ⟨line, -, -, rfl⟩ := (answers_getElem?_eq_some {}).1 h
  exact latest_after _

/-- **Reports carry the latest values.** For all lines that are fed to a new parser. -/
theorem answers_reportsLatest (lines : List (List Char)) : ReportsLatest lines (answers {} lines) where
  length := length_answers {} lines
  report k line hline := by
    simp only [answers_getElem?_eq_some, hline, Option.some.injEq, ← stateIn?_isSome_iff]
    constructor
    · rintro ⟨p, _, rfl, hstate, -⟩
      exact hstate
    · exact fun hstate => ⟨_, line, rfl, hstate, rfl⟩
  state _ _ := state_of_answers
  time _ _ h := (latest_of_answers h).1
  speed _ _ h := (latest_of_answers h).2
  values p hp := by
    obtain ⟨k, h⟩ := List.mem_iff_getElem?.1 hp
    obtain ⟨line, -, hrun⟩ := state_of_answers h
    exact ⟨fun hempty => hrun.ne_nil (by rw [hempty]; rfl), (latest_of_answers h).1.isValue,
      (latest_of_answers h).2.isValue⟩
  kept more := ⟨_, (answers_append {} lines more).symm⟩
  unmarked _ := feed_of_not_holdsRun _

/-- Marks inside of values count, and a mark without a value does not hide the next one. -/
example : answers {} (["out_time= out_time=speed=2x", "speed=",
      "xprogress==progress=..é-progress=end"].map String.toList) =
    [none, none, some { state := "..é", time := "speed=2x", speed := "2x" }] := by decide +kernel

end Thumbnailer.Progress
