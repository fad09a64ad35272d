import Thumbnailer.Proofs.Rules
import Thumbnailer.Proofs.Slots.Named

/-!
# What becomes of a list

A list of slots is written if it has outputs, all of them are valid, and their numbers can be written. If an output
is not valid, the first such output is reported with the first rule that it breaks, and no slot changes.
-/

namespace Thumbnailer

theorem Output.valid_of_violation?_eq_none {o : Output} (h : o.violation? 0 = none) : o.Valid := by
  rw [violation?_eq, Option.map_eq_none_iff, Rule.firstBroken?_eq_none] at h
  exact o.valid_iff.2 h

theorem violation?_eq_none_iff_valid (outputs : List Output) :
    violation? outputs = none ↔ outputs ≠ [] ∧ ∀ o ∈ outputs, o.Valid := by
  constructor
  · intro h
    obtain ⟨hne, hall⟩ := (violation?_eq_none outputs).1 h
    exact ⟨hne, fun o ho => Output.valid_of_violation?_eq_none (hall o ho)⟩
  · exact fun ⟨hne, hall⟩ => violation?_of_valid hne hall

namespace Slots

/-- An output is valid and its numbers can be written. -/
def Accepted (o : Output) : Prop := o.Valid ∧ ∀ n ∈ o.numbers, Text.isWritable n = true

instance (o : Output) : Decidable (Accepted o) := inferInstanceAs (Decidable (_ ∧ _))

theorem write_ok_iff (slots : Slots) (order : List Nat) :
    (∃ text, (slots.write order).1 = .ok text) ↔
      slots.outputsOf order ≠ [] ∧ ∀ o ∈ slots.outputsOf order, Accepted o := by
  have hnumbers : (∀ o ∈ slots.outputsOf order, Accepted o) ↔ (∀ o ∈ slots.outputsOf order, o.Valid) ∧
      ∀ o ∈ slots.outputsOf order, o.numbers.all Text.isWritable = true := by
    simp only [Accepted, List.all_eq_true, forall_and]
  rw [hnumbers, ← and_assoc, ← violation?_eq_none_iff_valid]
  cases hv : violation? (slots.outputsOf order) with
  | some v => simp [write_of_violation slots order hv]
  | none =>
    by_cases hw : ∀ o ∈ slots.outputsOf order, o.numbers.all Text.isWritable = true
    · rw [write_of_writable slots order hv hw]
      simpa using hw
    · rw [write_of_unwritable slots order hv hw]
      simpa using hw

/-- **Lists are accepted or blamed for their first fault.** A list is written exactly if it has outputs, each of them
is valid, and their numbers can be written. Otherwise an empty list is reported, or the first output that is not
valid with the first rule it breaks, and no slot changes; what is reported cannot be written either if it shows such
a number. -/
theorem write_judged (slots : Slots) (order : List Nat) :
    ((∃ text, (slots.write order).1 = .ok text) ↔
      slots.outputsOf order ≠ [] ∧ ∀ o ∈ slots.outputsOf order, Accepted o) ∧
    (slots.outputsOf order = [] → slots.write order = (.error (.violation .noOutputs), slots)) ∧
    ((∃ o ∈ slots.outputsOf order, ¬ o.Valid) → ∃ position o r, FirstBroken (slots.outputsOf order) position o r ∧
      slots.write order = (.error (.ofViolation (r.violation position o)), slots)) ∧
    ((slots.outputsOf order ≠ [] ∧ ∀ o ∈ slots.outputsOf order, o.Valid) →
      (∃ o ∈ slots.outputsOf order, ¬ Accepted o) → (slots.write order).1 = .error .unwritable) := by
  refine ⟨write_ok_iff slots order, fun hnil => ?_, fun hinvalid => ?_, fun hvalid ⟨o, ho, hnot⟩ => ?_⟩
  · exact write_of_violation slots order (by rw [hnil]; rfl)
  · obtain ⟨position, o, r, hfirst, hreport⟩ := violation?_of_invalid hinvalid
    exact ⟨position, o, r, hfirst, write_of_violation slots order hreport⟩
  · refine write_of_unwritable slots order ((violation?_eq_none_iff_valid _).2 hvalid) fun hw => hnot ?_
    exact ⟨hvalid.2 o ho, List.all_eq_true.1 (hw o ho)⟩

/-- Two outputs break several rules each: the first is reported, with the first of its own. -/
theorem write_judged_several :
    let good : Output := { scale := ⟨320, 180, 0⟩ }
    let bad : Output := { kind := 1, scale := ⟨-1, -1, 3⟩, rows := 0 }
    let slots : Slots := [⟨good, ⟨4, "", "thumbs-4-out"⟩⟩, ⟨bad, {}⟩, ⟨{ quality := 40 }, {}⟩]
    (∃ o ∈ slots.outputsOf [0, 1, 0, 2], ¬ o.Valid) ∧
      slots.write [0, 1, 0, 2] = (.error (.violation (.bothNegative 1)), slots) := by
  intro good bad slots
  have hinvalid : ∃ o ∈ slots.outputsOf [0, 1, 0, 2], ¬ o.Valid :=
    ⟨bad, by decide, fun h => absurd h.size (by decide)⟩
  refine ⟨hinvalid, ?_⟩
  obtain ⟨position, o, r, hfirst, hwrite⟩ := (write_judged slots [0, 1, 0, 2]).2.2.1 hinvalid
  have hthis : FirstBroken (slots.outputsOf [0, 1, 0, 2]) 1 bad .bothNegative := ⟨rfl, by decide, by decide⟩
  obtain ⟨rfl, rfl, rfl⟩ := hfirst.unique hthis
  exact hwrite

/-- A quality with more digits than a message can show: the rule is broken, and not reported. -/
theorem quality_not_reported :
    let o : Output := { quality := (Nat.pow 2 14400 : Nat) }
    FirstBroken [o] 0 o .quality ∧ Slots.write [⟨o, {}⟩] [0] = (.error .unwritable, [⟨o, {}⟩]) := by
  intro o
  exact ⟨⟨rfl, by simp, by decide +kernel⟩, by decide +kernel⟩

end Slots

end Thumbnailer
