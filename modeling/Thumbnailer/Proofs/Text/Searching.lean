import Mathlib.Data.List.Basic
import Mathlib.Data.List.TakeWhile
import Thumbnailer.Text.Search

/-!
# What a search finds

A search reads at the leftmost place where there is something to read. Behind a mark it finds the longest run of a
class of characters, at the first mark that has one.
-/

namespace Thumbnailer.Text

section Leftmost
variable {α β : Type} {read : List Char → Option α} {s : List Char} {a : α}

theorem leftmost_eq_none_iff :
    leftmost read s = none ↔ ∀ before after, s = before ++ after → read after = none := by
  induction s with
  | nil => simp [leftmost, eq_comm (a := ([] : List Char))]
  | cons c rest ih =>
    rw [leftmost]
    constructor
    · intro h before after hs
      split at h
      · cases h
      · next hread =>
        cases before with
        | nil =>
          obtain rfl : c :: rest = after := hs
          exact hread
        | cons b before => exact ih.1 h before after (List.cons.inj hs).2
    · intro h
      rw [h [] (c :: rest) rfl]
      exact ih.2 fun before after hs => h (c :: before) after (by rw [hs, List.cons_append])

/-- Something is read after some beginning of the text, and nothing after a shorter one. -/
theorem leftmost_eq_some_iff :
    leftmost read s = some a ↔ ∃ before after, s = before ++ after ∧ read after = some a ∧
      ∀ earlier later, s = earlier ++ later → earlier.length < before.length → read later = none := by
  induction s with
  | nil =>
    constructor
    · exact fun h => ⟨[], [], rfl, h, by simp⟩
    · rintro ⟨before, after, hs, hread, -⟩
      obtain ⟨rfl, rfl⟩ := List.append_eq_nil_iff.1 hs.symm
      exact hread
  | cons c rest ih =>
    rw [leftmost]
    cases hhere : read (c :: rest) with
    | some b =>
      dsimp only
      constructor
      · rintro ⟨⟩
        exact ⟨[], c :: rest, rfl, hhere, by simp⟩
      · rintro ⟨before, after, hs, hread, hfirst⟩
        cases before with
        | nil =>
          obtain rfl : c :: rest = after := hs
          rw [← hhere, hread]
        | cons d before => simp [hfirst [] (c :: rest) rfl (by simp)] at hhere
    | none =>
      -- Nothing is read here, so beginnings of the rest are those of the text without the first character.
      refine ih.trans ⟨?_, ?_⟩
      · rintro ⟨before, after, hs, hread, hfirst⟩
        refine ⟨c :: before, after, by rw [hs, List.cons_append], hread, fun earlier later hlater hshort => ?_⟩
        cases earlier with
        | nil =>
          obtain rfl : c :: rest = later := hlater
          exact hhere
        | cons d earlier => exact hfirst earlier later (List.cons.inj hlater).2 (by simpa using hshort)
      · rintro ⟨before, after, hs, hread, hfirst⟩
        cases before with
        | nil =>
          obtain rfl : c :: rest = after := hs
          rw [hhere] at hread
          cases hread
        | cons d before =>
          exact ⟨before, after, (List.cons.inj hs).2, hread, fun earlier later hlater hshort =>
            hfirst (c :: earlier) later (by rw [hlater, List.cons_append]) (by simpa using hshort)⟩

theorem leftmost_map (f : α → β) : leftmost (fun t => (read t).map f) s = (leftmost read s).map f := by
  induction s with
  | nil => rfl
  | cons c rest ih =>
    rw [leftmost, leftmost, ih]
    cases read (c :: rest) <;> rfl

theorem leftmost_concat (c : Char) :
    leftmost read (s ++ [c]) = (leftmost (fun t => read (t ++ [c])) s).or (read []) := by
  induction s with
  | nil => cases h : read [c] <;> simp [leftmost, h]
  | cons d rest ih =>
    rw [List.cons_append, leftmost, leftmost, ih]
    cases h : read (d :: (rest ++ [c])) <;> simp [h]

end Leftmost

/-! ## Runs behind marks -/

section Runs
variable {mark : String} {inRun : Char → Bool} {s t run : List Char}

/-- The text starts with the mark, and a character of the class follows it. -/
def Marked (mark : String) (inRun : Char → Bool) (t : List Char) : Prop :=
  ∃ c rest, t = mark.toList ++ c :: rest ∧ inRun c = true

/-- Somewhere in the text the mark stands, and a character of the class follows it. -/
def HoldsRun (mark : String) (inRun : Char → Bool) (s : List Char) : Prop :=
  ∃ before after, s = before ++ after ∧ Marked mark inRun after

/-- The run behind the leftmost mark that a character of the class follows, up to the end of the text or a
character that is not of the class. -/
structure FirstRun (mark : String) (inRun : Char → Bool) (s run : List Char) : Prop where
  ne_nil : run ≠ []
  inClass : ∀ c ∈ run, inRun c = true
  place : ∃ before after, s = before ++ (mark.toList ++ (run ++ after)) ∧ (∀ c ∈ after.head?, inRun c = false) ∧
    ∀ earlier later, s = earlier ++ later → earlier.length < before.length → ¬Marked mark inRun later

theorem takeWhile_eq_iff {p : Char → Bool} : s.takeWhile p = run ↔
    ∃ after, s = run ++ after ∧ (∀ c ∈ run, p c = true) ∧ ∀ c ∈ after.head?, p c = false := by
  constructor
  · rintro rfl
    refine ⟨s.dropWhile p, List.takeWhile_append_dropWhile.symm, fun c => List.mem_takeWhile_imp, fun c hc => ?_⟩
    have := List.head?_dropWhile_not p s
    rwa [Option.mem_def.1 hc] at this
  · rintro ⟨after, rfl, hrun, hafter⟩
    rw [List.takeWhile_append_of_pos hrun]
    cases after with
    | nil => simp
    | cons c rest => rw [List.takeWhile_cons_of_neg (by simp [hafter c rfl]), List.append_nil]

theorem runAfter?_eq_some_iff : runAfter? mark.toList inRun t = some run ↔ run ≠ [] ∧ (∀ c ∈ run, inRun c = true) ∧
    ∃ after, t = mark.toList ++ (run ++ after) ∧ ∀ c ∈ after.head?, inRun c = false := by
  simp only [runAfter?, Option.bind_eq_some_iff, List.isPrefixOf?_eq_some_iff_append_eq]
  constructor
  · rintro ⟨rest, rfl, h⟩
    split at h
    · cases h
    · next hne =>
      obtain ⟨after, hrest, hrun, hafter⟩ := takeWhile_eq_iff.1 (Option.some.inj h)
      exact ⟨Option.some.inj h ▸ by simpa using hne, hrun, after, by rw [← hrest], hafter⟩
  · rintro ⟨hne, hrun, after, rfl, hafter⟩
    refine ⟨run ++ after, rfl, ?_⟩
    rw [takeWhile_eq_iff.2 ⟨after, rfl, hrun, hafter⟩]
    simp [hne]

theorem runAfter?_eq_none_iff : runAfter? mark.toList inRun t = none ↔ ¬Marked mark inRun t := by
  rw [Option.eq_none_iff_forall_ne_some, ← not_iff_not, not_forall, not_not]
  simp only [ne_eq, not_not, runAfter?_eq_some_iff]
  constructor
  · rintro ⟨run, hne, hrun, after, rfl, -⟩
    obtain ⟨c, rest, rfl⟩ := List.exists_cons_of_ne_nil hne
    exact ⟨c, rest ++ after, by simp, hrun c (by simp)⟩
  · rintro ⟨c, rest, rfl, hc⟩
    refine ⟨(c :: rest).takeWhile inRun, by simp [hc], ?_⟩
    obtain ⟨after, hrest, hrun, hafter⟩ := takeWhile_eq_iff.1 (rfl : (c :: rest).takeWhile inRun = _)
    exact ⟨hrun, after, by rw [← hrest], hafter⟩

theorem findAfter?_eq_some_iff : findAfter? mark inRun s = some run ↔ FirstRun mark inRun s run := by
  simp only [findAfter?, leftmost_eq_some_iff, runAfter?_eq_some_iff, runAfter?_eq_none_iff]
  constructor
  · rintro ⟨before, _, hs, ⟨hne, hrun, after, rfl, hafter⟩, hfirst⟩
    exact ⟨hne, hrun, before, after, hs, hafter, hfirst⟩
  · rintro ⟨hne, hrun, before, after, hs, hafter, hfirst⟩
    exact ⟨before, _, hs, ⟨hne, hrun, after, rfl, hafter⟩, hfirst⟩

theorem findAfter?_eq_none_iff : findAfter? mark inRun s = none ↔ ¬HoldsRun mark inRun s := by
  simp only [findAfter?, leftmost_eq_none_iff, runAfter?_eq_none_iff, HoldsRun, not_exists, not_and]

theorem findAfter?_isSome_iff : (findAfter? mark inRun s).isSome ↔ HoldsRun mark inRun s := by
  rw [Option.isSome_iff_ne_none, ne_eq, findAfter?_eq_none_iff, not_not]

end Runs

end Thumbnailer.Text
