import Mathlib.Logic.Basic
import Thumbnailer.Proofs.Violations

/-!
# The rules that outputs are checked by

Each rule is a condition of its own, and `Rule.order` says which one is reported if several are broken.
`violation?_of_invalid` tells which position and rule are reported of a list.
-/

namespace Thumbnailer

/-! ## Valid outputs -/

/-- An output that breaks no rule. -/
structure Output.Valid (o : Output) : Prop where
  quality : 0 ≤ o.quality ∧ o.quality ≤ 31
  interval : 1000 ≤ o.interval
  size : ¬ (o.scale.width < 0 ∧ o.scale.height < 0)
  width : o.scale.width ≠ 0
  height : o.scale.height ≠ 0
  kind : o.kind = 0 ∨ o.kind = 1
  grid : o.kind = 1 → 1 ≤ o.rows ∧ 1 ≤ o.columns
  behavior : 0 ≤ o.scale.behavior ∧ o.scale.behavior ≤ 2

/-- What an output is checked for. -/
inductive Rule where
  | quality
  | interval
  | bothNegative
  | zeroWidth
  | zeroHeight
  | rows
  | columns
  | kind
  | behavior
deriving DecidableEq, Repr

namespace Rule

/-- The order in which rules are checked. -/
def order : List Rule :=
  [quality, interval, bothNegative, zeroWidth, zeroHeight, rows, columns, kind, behavior]

def Broken (o : Output) : Rule → Prop
  | quality => o.quality < 0 ∨ 31 < o.quality
  | interval => o.interval < 1000
  | bothNegative => o.scale.width < 0 ∧ o.scale.height < 0
  | zeroWidth => o.scale.width = 0
  | zeroHeight => o.scale.height = 0
  | rows => o.kind = 1 ∧ o.rows < 1
  | columns => o.kind = 1 ∧ o.columns < 1
  | kind => o.kind ≠ 0 ∧ o.kind ≠ 1
  | behavior => o.scale.behavior < 0 ∨ 2 < o.scale.behavior

instance (o : Output) : DecidablePred (Broken o) := fun r =>
  match r with
  | quality => inferInstanceAs (Decidable (_ ∨ _))
  | interval => inferInstanceAs (Decidable (_ < _))
  | bothNegative => inferInstanceAs (Decidable (_ ∧ _))
  | zeroWidth => inferInstanceAs (Decidable (_ = _))
  | zeroHeight => inferInstanceAs (Decidable (_ = _))
  | rows => inferInstanceAs (Decidable (_ ∧ _))
  | columns => inferInstanceAs (Decidable (_ ∧ _))
  | kind => inferInstanceAs (Decidable (_ ∧ _))
  | behavior => inferInstanceAs (Decidable (_ ∨ _))

/-- What is reported if the output at a position breaks the rule. -/
def violation (position : Nat) (o : Output) : Rule → Violation
  | quality => .quality position o.quality
  | interval => .shortInterval position
  | bothNegative => .bothNegative position
  | zeroWidth => .zeroWidth position
  | zeroHeight => .zeroHeight position
  | rows => .fewRows position
  | columns => .fewColumns position
  | kind => .unknownKind position o.kind
  | behavior => .unknownBehavior position o.scale.behavior

/-- The first rule that an output breaks. -/
def firstBroken? (o : Output) : Option Rule := order.find? fun r => Broken o r

theorem mem_order (r : Rule) : r ∈ order := by cases r <;> decide

theorem firstBroken?_eq_none (o : Output) : firstBroken? o = none ↔ ∀ r, ¬ Broken o r := by
  simp [firstBroken?, mem_order]

end Rule

theorem Output.valid_iff (o : Output) : o.Valid ↔ ∀ r, ¬ Rule.Broken o r := by
  constructor
  · rintro ⟨hquality, hinterval, hsize, hwidth, hheight, hkind, hgrid, hbehavior⟩ r
    cases r <;> simp only [Rule.Broken] <;> omega
  · intro h
    have hquality := h .quality
    have hinterval := h .interval
    have hrows := h .rows
    have hcolumns := h .columns
    have hkind := h .kind
    have hbehavior := h .behavior
    simp only [Rule.Broken] at hquality hinterval hrows hcolumns hkind hbehavior
    exact ⟨by omega, by omega, h .bothNegative, h .zeroWidth, h .zeroHeight, by omega, by omega, by omega⟩

instance (o : Output) : Decidable o.Valid :=
  decidable_of_iff (Rule.firstBroken? o = none) ((Rule.firstBroken?_eq_none o).trans o.valid_iff.symm)

/-! ## What is reported -/

theorem Kind.ofCode?_cases (code : Int) :
    (code = 0 ∧ ofCode? code = some .thumbs) ∨ (code = 1 ∧ ofCode? code = some .sprites) ∨
      (code ≠ 0 ∧ code ≠ 1 ∧ ofCode? code = Option.none) := by
  by_cases hzero : code = 0 <;> by_cases hone : code = 1 <;> simp_all [ofCode?]

theorem Behavior.ofCode?_eq_none (code : Int) : ofCode? code = Option.none ↔ code < 0 ∨ 2 < code := by
  unfold ofCode?
  split
  · simp_all
  · split
    · simp_all
    · split
      · simp_all
      · simp only [true_iff]
        omega

theorem Output.kindViolation?_eq (o : Output) (position : Nat) :
    o.kindViolation? position =
      if Rule.Broken o .rows then some (Rule.violation position o .rows)
      else if Rule.Broken o .columns then some (Rule.violation position o .columns)
      else if Rule.Broken o .kind then some (Rule.violation position o .kind)
      else none := by
  unfold kindViolation?
  obtain ⟨hkind, hcode⟩ | ⟨hkind, hcode⟩ | ⟨hzero, hone, hcode⟩ := Kind.ofCode?_cases o.kind <;> rw [hcode]
  · simp [Rule.Broken, hkind]
  · simp [Rule.Broken, hkind, Rule.violation]
  · simp [Rule.Broken, hzero, hone, Rule.violation]

theorem find?_broken_cons (o : Output) (position : Nat) (r : Rule) (rules : List Rule) :
    ((r :: rules).find? fun r => Rule.Broken o r).map (Rule.violation position o) =
      if Rule.Broken o r then some (r.violation position o)
      else (rules.find? fun r => Rule.Broken o r).map (Rule.violation position o) := by
  by_cases h : Rule.Broken o r <;> simp [h]

/-- An output is reported with the first rule that it breaks. -/
theorem Output.violation?_eq (o : Output) (position : Nat) :
    o.violation? position = (Rule.firstBroken? o).map (Rule.violation position o) := by
  have hquality : (o.quality ≠ 0 && !(1 ≤ o.quality && o.quality ≤ 31)) = true ↔ Rule.Broken o .quality := by
    simp [Rule.Broken]
    omega
  have hsize : (o.scale.width < 0 && o.scale.height < 0) = true ↔ Rule.Broken o .bothNegative := by
    simp [Rule.Broken]
  have hbehavior : (Behavior.ofCode? o.scale.behavior).isNone = true ↔ Rule.Broken o .behavior := by
    rw [Option.isNone_iff_eq_none, Behavior.ofCode?_eq_none]
    rfl
  rw [Rule.firstBroken?, Rule.order]
  simp only [find?_broken_cons, List.find?_nil, Option.map_none]
  -- The checks of the rules that come before those on the kind, one test each.
  refine if_congr hquality rfl (if_congr Iff.rfl rfl (if_congr hsize rfl (if_congr Iff.rfl rfl
    (if_congr Iff.rfl rfl ?_))))
  rw [kindViolation?_eq, ← if_congr hbehavior rfl rfl]
  by_cases hrows : Rule.Broken o .rows
  · simp [hrows]
  by_cases hcolumns : Rule.Broken o .columns
  · simp [hrows, hcolumns]
  by_cases hkind : Rule.Broken o .kind <;> simp [hrows, hcolumns, hkind, Rule.violation]

/-- The output at a position is the first of a list that breaks a rule, and the rule the first that it breaks. -/
structure FirstBroken (outputs : List Output) (position : Nat) (o : Output) (r : Rule) : Prop where
  output : outputs[position]? = some o
  before : ∀ p ∈ outputs.take position, p.Valid
  rule : Rule.firstBroken? o = some r

theorem Output.violation?_of_valid {o : Output} (h : o.Valid) (position : Nat) : o.violation? position = none := by
  rw [violation?_eq, (Rule.firstBroken?_eq_none o).2 (o.valid_iff.1 h)]
  rfl

theorem FirstBroken.invalid {outputs : List Output} {position : Nat} {o : Output} {r : Rule}
    (h : FirstBroken outputs position o r) : ¬ o.Valid := by
  intro hvalid
  have hnone := (Rule.firstBroken?_eq_none o).2 (o.valid_iff.1 hvalid)
  rw [h.rule] at hnone
  cases hnone

theorem FirstBroken.unique {outputs : List Output} {p p' : Nat} {o o' : Output} {r r' : Rule}
    (h : FirstBroken outputs p o r) (h' : FirstBroken outputs p' o' r') : p = p' ∧ o = o' ∧ r = r' := by
  have hle : ∀ {p p' o o' r r'}, FirstBroken outputs p o r → FirstBroken outputs p' o' r' → p' ≤ p := by
    intro p p' o o' r r' h h'
    refine Nat.le_of_not_lt fun hlt => h.invalid (h'.before o (List.mem_of_getElem? (i := p) ?_))
    rw [List.getElem?_take_of_lt hlt]
    exact h.output
  obtain rfl : p = p' := Nat.le_antisymm (hle h' h) (hle h h')
  obtain rfl : o = o' := Option.some.inj (h.output.symm.trans h'.output)
  exact ⟨rfl, rfl, Option.some.inj (h.rule.symm.trans h'.rule)⟩

/-- The first output of a list to break a rule is reported, with the first rule that it breaks. -/
theorem firstViolation?_of_invalid {outputs : List Output} (h : ∃ o ∈ outputs, ¬ o.Valid) (start : Nat) :
    ∃ position o r, FirstBroken outputs position o r ∧
      firstViolation? start outputs = some (r.violation (start + position) o) := by
  induction outputs generalizing start with
  | nil => simp at h
  | cons o rest ih =>
    rw [firstViolation?]
    by_cases ho : o.Valid
    · obtain ⟨position, p, r, hfirst, hreport⟩ := ih (by simpa [ho] using h) (start + 1)
      rw [Output.violation?_of_valid ho, hreport]
      refine ⟨position + 1, p, r, ⟨by simpa using hfirst.output, ?_, hfirst.rule⟩, by simp; congr 1; omega⟩
      simpa [ho] using hfirst.before
    · obtain ⟨r, hr⟩ : ∃ r, Rule.firstBroken? o = some r := by
        rw [← Option.ne_none_iff_exists', Ne, Rule.firstBroken?_eq_none, ← o.valid_iff]
        exact ho
      refine ⟨0, o, r, ⟨rfl, by simp, hr⟩, ?_⟩
      rw [Output.violation?_eq, hr]
      rfl

theorem violation?_of_valid {outputs : List Output} (hne : outputs ≠ []) (h : ∀ o ∈ outputs, o.Valid) :
    violation? outputs = none :=
  (violation?_eq_none outputs).2 ⟨hne, fun o ho => Output.violation?_of_valid (h o ho) 0⟩

theorem violation?_of_invalid {outputs : List Output} (h : ∃ o ∈ outputs, ¬ o.Valid) :
    ∃ position o r, FirstBroken outputs position o r ∧ violation? outputs = some (r.violation position o) := by
  obtain ⟨position, o, r, hfirst, hreport⟩ := firstViolation?_of_invalid h 0
  refine ⟨position, o, r, hfirst, ?_⟩
  obtain ⟨p, hp, -⟩ := h
  rw [violation?, if_neg (by simpa using List.ne_nil_of_mem hp), hreport, Nat.zero_add]

end Thumbnailer
