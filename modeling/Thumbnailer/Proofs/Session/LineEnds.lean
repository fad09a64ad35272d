import Thumbnailer.Proofs.Session.Reports

/-!
# The newline at the end of a line

The lines of a program end with a newline, which is no part of a state and is trimmed off a time or a speed. Only a
mark at the very end of a line takes the newline for its value, and forgets the one that was seen before.
-/

namespace Thumbnailer

namespace Text

section
variable {mark : List Char} {inRun : Char → Bool} {c : Char}

theorem isPrefixOf?_concat (hmark : c ∉ mark) (t : List Char) :
    mark.isPrefixOf? (t ++ [c]) = (mark.isPrefixOf? t).map (· ++ [c]) := by
  refine Option.ext fun rest => ?_
  simp only [Option.map_eq_some_iff, List.isPrefixOf?_eq_some_iff_append_eq]
  constructor
  · intro h
    obtain rfl | ⟨rest', d, rfl⟩ := List.eq_nil_or_concat rest
    · rw [List.append_nil] at h
      exact absurd (by simp [h]) hmark
    · rw [List.concat_eq_append, ← List.append_assoc] at h
      obtain ⟨ht, hc⟩ := List.append_inj' h rfl
      exact ⟨rest', ht, by rw [List.concat_eq_append, hc]⟩
  · rintro ⟨rest', rfl, rfl⟩
    rw [List.append_assoc]

theorem takeWhile_concat_of_not (hc : inRun c = false) (rest : List Char) :
    (rest ++ [c]).takeWhile inRun = rest.takeWhile inRun := by
  obtain ⟨after, hrest, hrun, hafter⟩ := takeWhile_eq_iff.1 (rfl : rest.takeWhile inRun = _)
  refine takeWhile_eq_iff.2 ⟨after ++ [c], ?_, hrun, ?_⟩
  · rw [← List.append_assoc, ← hrest]
  · cases after with
    | nil => simpa using hc
    | cons d after => exact hafter

variable (inRun) in
theorem trimChars_takeWhile_concat (hblank : isBlank c = true) (rest : List Char) :
    trimChars ((rest ++ [c]).takeWhile inRun) = trimChars (rest.takeWhile inRun) := by
  cases hc : inRun c with
  | false => rw [takeWhile_concat_of_not hc]
  | true =>
    rw [List.takeWhile_append]
    split
    · next hall =>
      rw [List.takeWhile_cons_of_pos hc, List.takeWhile_nil, trimChars_concat hblank,
        (List.takeWhile_prefix inRun).eq_of_length hall]
    · rfl

theorem runAfter?_concat_of_not (hmark : c ∉ mark) (hc : inRun c = false) (t : List Char) :
    runAfter? mark inRun (t ++ [c]) = runAfter? mark inRun t := by
  rw [runAfter?, runAfter?, isPrefixOf?_concat hmark, Option.bind_map]
  simp only [Function.comp_def, takeWhile_concat_of_not hc]

theorem runAfter?_concat_of_isBlank (hmark : c ∉ mark) (hc : inRun c = true) (hblank : isBlank c = true)
    (t : List Char) : (runAfter? mark inRun (t ++ [c])).map trimChars =
      if t = mark then some [] else (runAfter? mark inRun t).map trimChars := by
  rw [runAfter?, runAfter?, isPrefixOf?_concat hmark]
  cases hrest : mark.isPrefixOf? t with
  | none =>
    have hne : t ≠ mark := by
      rintro rfl
      have := List.isPrefixOf?_eq_some_iff_append_eq.2 (List.append_nil t)
      simp [this] at hrest
    simp [hne]
  | some rest =>
    obtain rfl := List.isPrefixOf?_eq_some_iff_append_eq.1 hrest
    -- The blank ends a run that has begun, or it is all that follows the mark.
    cases rest with
    | nil => simp [hc, trimChars_eq_nil, hblank]
    | cons d rest =>
      have htrim := trimChars_takeWhile_concat inRun hblank (d :: rest)
      cases hd : inRun d with
      | false => simp [hd]
      | true => simp_all

/-- The mark can stand alone at the end of the text only, and nothing shorter has anything to read. -/
theorem leftmost_ite {α : Type} {read : List Char → Option α} {a : α}
    (hshort : ∀ t : List Char, t.length ≤ mark.length → read t = none) (s : List Char) :
    leftmost (fun t => if t = mark then some a else read t) s =
      (leftmost read s).or (if mark <:+ s then some a else none) := by
  induction s with
  | nil =>
    rw [leftmost, leftmost, hshort [] (by simp)]
    simp [eq_comm]
  | cons d rest ih =>
    rw [leftmost, leftmost, ih]
    by_cases hmark : d :: rest = mark
    · have hnone : leftmost read rest = none := by
        refine leftmost_eq_none_iff.2 fun before after hrest => hshort after ?_
        simp only [← hmark, hrest, List.length_cons, List.length_append]
        omega
      subst hmark
      simp [hshort, hnone]
    · simp only [hmark, if_false, List.suffix_cons_iff, Ne.symm hmark, false_or]
      cases read (d :: rest) <;> simp

end

theorem runAfter?_of_length_le {mark : String} {inRun : Char → Bool} {t : List Char}
    (h : t.length ≤ mark.toList.length) : runAfter? mark.toList inRun t = none := by
  rw [runAfter?_eq_none_iff]
  rintro ⟨c, rest, rfl, -⟩
  rw [List.length_append, List.length_cons] at h
  omega

/-- Behind the whole text a blank of the class makes a value of its own, and else it is trimmed off. -/
theorem findAfter?_concat_of_isBlank {mark : String} {inRun : Char → Bool} {c : Char} (hmark : c ∉ mark.toList)
    (hc : inRun c = true) (hblank : isBlank c = true) (s : List Char) :
    (findAfter? mark inRun (s ++ [c])).map trimChars =
      ((findAfter? mark inRun s).map trimChars).or (if mark.toList <:+ s then some [] else none) := by
  have hshort (t : List Char) (ht : t.length ≤ mark.toList.length) :
      (runAfter? mark.toList inRun t).map trimChars = none := by
    rw [runAfter?_of_length_le ht, Option.map_none]
  rw [findAfter?, findAfter?, ← leftmost_map, ← leftmost_map, leftmost_concat, hshort [] (Nat.zero_le _),
    Option.or_none]
  simp only [runAfter?_concat_of_isBlank hmark hc hblank]
  exact leftmost_ite hshort s

theorem findAfter?_concat_of_not {mark : String} {inRun : Char → Bool} {c : Char} (hmark : c ∉ mark.toList)
    (hc : inRun c = false) (s : List Char) : findAfter? mark inRun (s ++ [c]) = findAfter? mark inRun s := by
  rw [findAfter?, findAfter?, leftmost_concat, runAfter?_of_length_le (Nat.zero_le _), Option.or_none]
  simp only [runAfter?_concat_of_not hmark hc]

end Text

namespace Progress

/-- A mark stands at the very end of the line, and nowhere in the line does a value follow it. -/
def Dangling (mark : String) (line : List Char) : Prop :=
  mark.toList <:+ line ∧ ¬Text.HoldsRun mark (· != ' ') line

theorem stateIn?_newline (line : List Char) : stateIn? (line ++ ['\n']) = stateIn? line := by
  rw [stateIn?, stateIn?, Text.findAfter?_concat_of_not (by decide) (by decide)]

theorem valueIn?_newline {mark : String} (hmark : '\n' ∉ mark.toList) (line : List Char) :
    valueIn? mark (line ++ ['\n']) = (valueIn? mark line).or (if mark.toList <:+ line then some "" else none) := by
  have htrimmed : (Text.findAfter? mark (· != ' ') (line ++ ['\n'])).map Text.trimChars = _ :=
    Text.findAfter?_concat_of_isBlank hmark (by decide) (by decide) line
  have hmap (s : List Char) :
      valueIn? mark s = ((Text.findAfter? mark (· != ' ') s).map Text.trimChars).map String.ofList := by
    rw [valueIn?, Option.map_map]
    rfl
  rw [hmap, hmap, htrimmed, Option.map_or]
  split <;> rfl

section
variable {mark : String} {line : List Char}

theorem valueIn?_newline_of_not_dangling (hmark : '\n' ∉ mark.toList) (h : ¬Dangling mark line) :
    valueIn? mark (line ++ ['\n']) = valueIn? mark line := by
  rw [valueIn?_newline hmark]
  cases hvalue : valueIn? mark line with
  | some v => rfl
  | none =>
    have hend : ¬mark.toList <:+ line := fun hend => h ⟨hend, valueIn?_eq_none_iff.1 hvalue⟩
    simp [hend]

theorem valueIn?_newline_of_dangling (hmark : '\n' ∉ mark.toList) (h : Dangling mark line) :
    valueIn? mark (line ++ ['\n']) = some "" ∧ valueIn? mark line = none := by
  have hvalue := valueIn?_eq_none_iff.2 h.2
  exact ⟨by rw [valueIn?_newline hmark, hvalue, if_pos h.1, Option.none_or], hvalue⟩

theorem getD_valueIn?_newline_eq_iff (hmark : '\n' ∉ mark.toList) (old : String) :
    (valueIn? mark (line ++ ['\n'])).getD old = (valueIn? mark line).getD old ↔ (Dangling mark line → old = "") := by
  by_cases h : Dangling mark line
  · obtain ⟨hnewline, hnone⟩ := valueIn?_newline_of_dangling hmark h
    rw [hnewline, hnone, Option.getD_some, Option.getD_none, eq_comm]
    simp [h]
  · rw [valueIn?_newline_of_not_dangling hmark h]
    simp [h]

theorem getD_valueIn?_eq_empty_iff {old : String} (hold : old ≠ "") : (valueIn? mark line).getD old = "" ↔
    ∃ run, Text.FirstRun mark (· != ' ') line run ∧ ∀ c ∈ run, Text.isBlank c = true := by
  simp only [← Text.trimChars_eq_nil]
  cases hvalue : valueIn? mark line with
  | none =>
    have hnone := valueIn?_eq_none_iff.1 hvalue
    simp only [Option.getD_none, hold, false_iff, not_exists, not_and]
    intro run hrun
    have := valueIn?_eq_some_iff.2 ⟨run, hrun, rfl⟩
    rw [hvalue] at this
    cases this
  | some v =>
    obtain ⟨run, hrun, rfl⟩ := valueIn?_eq_some_iff.1 hvalue
    rw [Option.getD_some, String.ofList_eq_empty_iff]
    constructor
    · exact fun h => ⟨run, hrun, h⟩
    · rintro ⟨run', hrun', h⟩
      have := Text.findAfter?_eq_some_iff.2 hrun'
      rw [Text.findAfter?_eq_some_iff.2 hrun] at this
      exact Option.some.inj this ▸ h

end

/-- What the newline at the end of a line does to what is remembered and reported. -/
structure NewlineSeen (p : Progress) (line : List Char) : Prop where
  report : (p.feed (line ++ ['\n'])).1.isSome = (p.feed line).1.isSome
  state : (p.feed (line ++ ['\n'])).2.state = (p.feed line).2.state
  time : ¬Dangling "out_time=" line → (p.feed (line ++ ['\n'])).2.time = (p.feed line).2.time
  /-- A mark at the end of the line is ignored without the newline, and with it makes the value empty. -/
  time_dangling : Dangling "out_time=" line → (p.feed (line ++ ['\n'])).2.time = "" ∧ (p.feed line).2.time = p.time
  speed : ¬Dangling "speed=" line → (p.feed (line ++ ['\n'])).2.speed = (p.feed line).2.speed
  speed_dangling : Dangling "speed=" line → (p.feed (line ++ ['\n'])).2.speed = "" ∧ (p.feed line).2.speed = p.speed
  /-- So the newline does not matter exactly if there is no such value to be forgotten. -/
  same : p.feed (line ++ ['\n']) = p.feed line ↔
    (Dangling "out_time=" line → p.time = "") ∧ (Dangling "speed=" line → p.speed = "")
  /-- Whether a newline is there or not, values are forgotten for blanks only. -/
  time_forgotten : p.time ≠ "" → ((p.feed line).2.time = "" ↔
    ∃ run, Text.FirstRun "out_time=" (· != ' ') line run ∧ ∀ c ∈ run, Text.isBlank c = true)
  speed_forgotten : p.speed ≠ "" → ((p.feed line).2.speed = "" ↔
    ∃ run, Text.FirstRun "speed=" (· != ' ') line run ∧ ∀ c ∈ run, Text.isBlank c = true)

theorem update_newline_eq_iff (p : Progress) (line : List Char) : p.update (line ++ ['\n']) = p.update line ↔
    (Dangling "out_time=" line → p.time = "") ∧ (Dangling "speed=" line → p.speed = "") := by
  rw [update, update, mk.injEq, stateIn?_newline, getD_valueIn?_newline_eq_iff (by decide),
    getD_valueIn?_newline_eq_iff (by decide)]
  simp only [true_and]

theorem feed_newline_eq_iff (p : Progress) (line : List Char) : p.feed (line ++ ['\n']) = p.feed line ↔
    (Dangling "out_time=" line → p.time = "") ∧ (Dangling "speed=" line → p.speed = "") := by
  rw [← update_newline_eq_iff, feed_eq, feed_eq, stateIn?_newline, Prod.mk.injEq]
  constructor
  · exact And.right
  · intro h
    rw [h]
    exact ⟨rfl, rfl⟩

/-- **The newline at the end of a line** matters to marks at the very end of the line and to nothing else. -/
theorem feed_newlineSeen (p : Progress) (line : List Char) : NewlineSeen p line where
  report := by rw [feed_eq, feed_eq, stateIn?_newline]; split <;> rfl
  state := by rw [feed_eq, feed_eq, update, update, stateIn?_newline]
  time h := congrArg (Option.getD · p.time) (valueIn?_newline_of_not_dangling (by decide) h)
  time_dangling h := by
    obtain ⟨hnewline, hnone⟩ := valueIn?_newline_of_dangling (by decide) h
    exact ⟨congrArg (Option.getD · p.time) hnewline, congrArg (Option.getD · p.time) hnone⟩
  speed h := congrArg (Option.getD · p.speed) (valueIn?_newline_of_not_dangling (by decide) h)
  speed_dangling h := by
    obtain ⟨hnewline, hnone⟩ := valueIn?_newline_of_dangling (by decide) h
    exact ⟨congrArg (Option.getD · p.speed) hnewline, congrArg (Option.getD · p.speed) hnone⟩
  same := feed_newline_eq_iff p line
  time_forgotten := getD_valueIn?_eq_empty_iff
  speed_forgotten := getD_valueIn?_eq_empty_iff

/-- A time without a value in a line that ends with a newline: the time that was seen is forgotten. -/
theorem newline_forgets_time :
    let p := (({} : Progress).feed "out_time=00:00:01\n".toList).2
    p = { time := "00:00:01" } ∧ p.feed "out_time=".toList = (none, p) ∧
      p.feed ("out_time=".toList ++ ['\n']) = (none, {}) := by
  decide +kernel

end Progress

end Thumbnailer
