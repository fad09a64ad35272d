import Thumbnailer.Proofs.Pool.Steps

/-!
# Slots of a pool

What an action does to the task that it is about, and that the count of running tasks is the number of slots
that are taken.
-/

namespace Thumbnailer

theorem modify_eq_set_of_getElem? {α : Type} {l : List α} {i : Nat} {a : α} (h : l[i]? = some a) (f : α → α) :
    l.modify i f = l.set i (f a) := by
  apply List.ext_getElem?
  intro j
  rw [List.getElem?_modify, List.getElem?_set]
  obtain ⟨hi, rfl⟩ := List.getElem?_eq_some_iff.1 h
  by_cases hj : i = j
  · subst hj
    simp [hi]
  · simp [hj]

theorem countP_set_add {α : Type} {P : α → Bool} {l : List α} {i : Nat} {a : α} (h : l[i]? = some a) (b : α) :
    (l.set i b).countP P + (P a).toNat = l.countP P + (P b).toNat := by
  obtain ⟨hi, rfl⟩ := List.getElem?_eq_some_iff.1 h
  have hpos : P l[i] = true → 0 < l.countP P := fun hp =>
    List.countP_pos_iff.2 ⟨l[i], List.getElem_mem hi, hp⟩
  rw [List.countP_set hi]
  cases ha : P l[i] <;> cases hb : P b <;> simp_all

namespace Pool

/-! ## Phases -/

theorem phase?_eq_some {p : Pool} {i : Nat} {phase : Phase} :
    p.phase? i = some phase ↔ ∃ t, p.tasks[i]? = some t ∧ t.phase = phase := by
  simp [phase?]

theorem phase?_setPhase_self {p : Pool} {i : Nat} {old : Phase} (h : p.phase? i = some old) (new : Phase) :
    (p.setPhase i new).phase? i = some new := by
  obtain ⟨t, ht, -⟩ := phase?_eq_some.1 h
  simp [phase?, setPhase, ht]

theorem phase?_setPhase_of_ne {i j : Nat} (h : j ≠ i) (p : Pool) (new : Phase) :
    (p.setPhase i new).phase? j = p.phase? j := by
  simp only [phase?, setPhase]
  rw [List.getElem?_modify_ne _ _ h.symm]

theorem phase?_submit (p : Pool) (t : Task) (j : Nat) :
    ({ p with tasks := p.tasks ++ [t] } : Pool).phase? j =
      if j = p.tasks.length then some t.phase else p.phase? j := by
  simp only [phase?, List.getElem?_append]
  split
  next hlt => rw [if_neg (by omega)]
  next hge =>
    by_cases hj : j = p.tasks.length
    · simp [hj]
    · rw [if_neg hj, List.getElem?_eq_none (by simp; omega), List.getElem?_eq_none (by omega)]

/-! ## Slots -/

def slots (p : Pool) : Nat := p.tasks.countP fun t => t.phase.holdsSlot

/-- The count of running tasks is right. -/
def Counted (p : Pool) : Prop := p.running = p.slots

theorem slots_setPhase {p : Pool} {i : Nat} {old : Phase} (h : p.phase? i = some old) (new : Phase) :
    (p.setPhase i new).slots + old.holdsSlot.toNat = p.slots + new.holdsSlot.toNat := by
  obtain ⟨t, ht, rfl⟩ := phase?_eq_some.1 h
  rw [slots, slots, setPhase, modify_eq_set_of_getElem? ht]
  exact countP_set_add ht { t with phase := new }

/-! ## Moves -/

/-- One task has gone from a phase to another, and nothing is known to have changed besides. -/
structure Moved (p q : Pool) (i : Nat) (old new : Phase) : Prop where
  before : p.phase? i = some old
  after : q.phase? i = some new
  others : ∀ j, j ≠ i → q.phase? j = p.phase? j
  length : q.tasks.length = p.tasks.length
  counted : p.Counted → q.Counted

theorem Moved.trans {p q r : Pool} {i : Nat} {a b c : Phase} (h : Moved p q i a b) (h' : Moved q r i b c) :
    Moved p r i a c where
  before := h.before
  after := h'.after
  others j hj := (h'.others j hj).trans (h.others j hj)
  length := h'.length.trans h.length
  counted := h'.counted ∘ h.counted

theorem moved_of_setPhase {p q : Pool} {i : Nat} {old new : Phase} (h : p.phase? i = some old)
    (htasks : q.tasks = (p.setPhase i new).tasks)
    (hrunning : q.running + old.holdsSlot.toNat = p.running + new.holdsSlot.toNat) : Moved p q i old new := by
  have hphase : ∀ j, q.phase? j = (p.setPhase i new).phase? j := by
    intro j
    rw [phase?, htasks, phase?]
  constructor
  · exact h
  · rw [hphase, phase?_setPhase_self h]
  · intro j hj
    rw [hphase, phase?_setPhase_of_ne hj]
  · simp [htasks, setPhase]
  · intro hp
    have hslots := slots_setPhase h new
    have hq : q.slots = (p.setPhase i new).slots := by rw [slots, htasks, slots]
    unfold Counted at hp ⊢
    omega

/-! ## The life of a task -/

/-- The submitter of the task has not come past the pool yet. -/
def Phase.blocked : Phase → Bool
  | .arriving | .waiting => true
  | _ => false

def Action.task? : Action → Option Nat
  | .enter i | .start i _ | .finish i | .release i => some i
  | _ => none

/-- How a task goes on by an action of its own. -/
inductive Turn (i : Nat) : Action → Phase → Phase → Prop
  | wait (old : Phase) (hold : old.blocked = true) : Turn i (.enter i) old .waiting
  | accept (old : Phase) (n : Nat) (hold : old.blocked = true) : Turn i (.enter i) old (.admitted n)
  | reject (old : Phase) (hold : old.blocked = true) : Turn i (.enter i) old (.refused .closed)
  | start (n : Nat) (possible : Bool) :
      Turn i (.start i possible) (.admitted n) (if possible then .running n else .stuck n)
  | finish (n : Nat) : Turn i (.finish i) (.running n) (.ended n)
  | release (n : Nat) : Turn i (.release i) (.ended n) (.done n)
  | giveUp (n : Nat) : Turn i (.release i) (.stuck n) (.refused .noThread)

theorem MayEnter.phase? {p : Pool} {i : Nat} {old : Phase} (h : p.MayEnter i old) : p.phase? i = some old := by
  cases h <;> assumption

theorem MayEnter.blocked {p : Pool} {i : Nat} {old : Phase} (h : p.MayEnter i old) : old.blocked = true := by
  cases h <;> rfl

theorem not_holdsSlot_of_blocked {phase : Phase} (h : phase.blocked = true) : phase.holdsSlot = false := by
  cases phase <;> simp_all [Phase.blocked, Phase.holdsSlot]

/-- A task moves by its own actions only, and each of them is a turn. -/
theorem Step.turn {p q : Pool} {a : Action} {i : Nat} (h : Step p a q) (ha : a.task? = some i) :
    ∃ old new, Turn i a old new ∧ Moved p q i old new := by
  -- Each step sets one phase, and changes the count as that phase asks for.
  cases h with
  | reject j old h hclosed =>
    obtain rfl := Option.some.inj ha
    exact ⟨_, _, .reject old h.blocked, moved_of_setPhase h.phase? rfl
      (by rw [not_holdsSlot_of_blocked h.blocked]; rfl)⟩
  | accept j old h hopen hroom =>
    obtain rfl := Option.some.inj ha
    exact ⟨_, _, .accept old _ h.blocked, moved_of_setPhase h.phase? rfl
      (by rw [not_holdsSlot_of_blocked h.blocked]; simp [Phase.holdsSlot])⟩
  | park j old h hopen hfull =>
    obtain rfl := Option.some.inj ha
    exact ⟨_, _, .wait old h.blocked, moved_of_setPhase h.phase? rfl
      (by rw [not_holdsSlot_of_blocked h.blocked]; rfl)⟩
  | start j n possible h =>
    obtain rfl := Option.some.inj ha
    exact ⟨_, _, .start n possible, moved_of_setPhase h rfl
      (by cases possible <;> simp [setPhase, Phase.holdsSlot])⟩
  | finish j n h =>
    obtain rfl := Option.some.inj ha
    exact ⟨_, _, .finish n, moved_of_setPhase h rfl (by simp [setPhase, Phase.holdsSlot])⟩
  | release j n h =>
    obtain rfl := Option.some.inj ha
    exact ⟨_, _, .release n, moved_of_setPhase h rfl (by simp [giveBack, Phase.holdsSlot])⟩
  | giveUp j n h =>
    obtain rfl := Option.some.inj ha
    exact ⟨_, _, .giveUp n, moved_of_setPhase h rfl (by simp [giveBack, Phase.holdsSlot])⟩
  | _ => cases ha

theorem enter_moved {p q : Pool} {i : Nat} (h : p.step? (.enter i) = some q) :
    ∃ old new, Moved p q i old new ∧ (old = .arriving ∨ old = .waiting) ∧
      (new = .waiting ∨ (∃ n, new = .admitted n) ∨ new = .refused .closed) := by
  obtain ⟨old, new, hturn, hmoved⟩ := (step?_eq_some.1 h).turn rfl
  have hblocked : old.blocked = true → old = .arriving ∨ old = .waiting := by
    cases old <;> simp [Phase.blocked]
  cases hturn with
  | wait old hold => exact ⟨old, _, hmoved, hblocked hold, .inl rfl⟩
  | accept old n hold => exact ⟨old, _, hmoved, hblocked hold, .inr (.inl ⟨n, rfl⟩)⟩
  | reject old hold => exact ⟨old, _, hmoved, hblocked hold, .inr (.inr rfl)⟩

theorem start_moved {p q : Pool} {i : Nat} {possible : Bool} (h : p.step? (.start i possible) = some q) :
    ∃ n, Moved p q i (.admitted n) (if possible then .running n else .stuck n) := by
  obtain ⟨old, new, hturn, hmoved⟩ := (step?_eq_some.1 h).turn rfl
  cases hturn with
  | start n possible => exact ⟨n, hmoved⟩

theorem finish_moved {p q : Pool} {i : Nat} (h : p.step? (.finish i) = some q) :
    ∃ n, Moved p q i (.running n) (.ended n) := by
  obtain ⟨old, new, hturn, hmoved⟩ := (step?_eq_some.1 h).turn rfl
  cases hturn with
  | finish n => exact ⟨n, hmoved⟩

theorem release_moved {p q : Pool} {i : Nat} (h : p.step? (.release i) = some q) :
    (∃ n, Moved p q i (.ended n) (.done n)) ∨ (∃ n, Moved p q i (.stuck n) (.refused .noThread)) := by
  obtain ⟨old, new, hturn, hmoved⟩ := (step?_eq_some.1 h).turn rfl
  cases hturn with
  | release n => exact .inl ⟨n, hmoved⟩
  | giveUp n => exact .inr ⟨n, hmoved⟩

theorem Step.counted {p q : Pool} {a : Action} (h : Step p a q) (hp : p.Counted) : q.Counted := by
  cases htask : a.task? with
  | some i =>
    obtain ⟨old, new, -, hmoved⟩ := h.turn htask
    exact hmoved.counted hp
  | none =>
    cases h with
    | submit error => simpa [Counted, slots, Phase.holdsSlot] using hp
    | tune | close | join | pass | rest => exact hp
    | _ => cases htask

/-! ## One task only -/

def Action.joins : Action → Bool
  | .join | .look _ => true
  | _ => false

/-- Submitters and workers may have brought the pool to this. -/
inductive Leads (p : Pool) : Pool → Prop
  | refl : Leads p p
  | step {q r : Pool} {a : Action} (h : Leads p q) (hstep : Step q a r) (ha : a.joins = false) : Leads p r

theorem leads_of_step? {p q : Pool} {a : Action} (h : p.step? a = some q) (ha : a.joins = false) : Leads p q :=
  .step .refl (step?_eq_some.1 h) ha

theorem Leads.trans {p q r : Pool} (h : Leads p q) (h' : Leads q r) : Leads p r := by
  induction h' with
  | refl => exact h
  | step h' hstep ha ih => exact .step ih hstep ha

theorem Leads.counted {p q : Pool} (h : Leads p q) (hp : p.Counted) : q.Counted := by
  induction h with
  | refl => exact hp
  | step h hstep ha ih => exact hstep.counted ih

/-- Nothing of the tasks has changed but the one with the number `after`, which is the one with the number
`before` or a new one. -/
structure Only (p q : Pool) (before after : Option Nat) : Prop where
  task : after = before ∨ after = some p.tasks.length ∧ q.tasks.length = p.tasks.length + 1
  grows : p.tasks.length ≤ q.tasks.length
  others : ∀ j, after ≠ some j → q.phase? j = p.phase? j
  leads : Leads p q

theorem Only.refl (p : Pool) (task : Option Nat) : Only p p task task :=
  ⟨.inl rfl, Nat.le_refl _, fun _ _ => rfl, .refl⟩

theorem Moved.only {p q : Pool} {i : Nat} {old new : Phase} (h : Moved p q i old new) (hleads : Leads p q) :
    Only p q (some i) (some i) where
  task := .inl rfl
  grows := Nat.le_of_eq h.length.symm
  others j hj := h.others j fun hji => hj (hji ▸ rfl)
  leads := hleads

theorem submit_only (p : Pool) (error : Option String) (before : Option Nat) :
    Only p { p with tasks := p.tasks ++ [{ error }] } before (some p.tasks.length) where
  task := .inr ⟨rfl, by simp⟩
  grows := by simp
  others j hj := by
    rw [phase?_submit, if_neg]
    rintro rfl
    exact hj rfl
  leads := .step .refl (.submit error) rfl

theorem tune_phase? {p q : Pool} {n : Int} (h : p.step? (.tune n) = some q) :
    q.phase? = p.phase? ∧ q.tasks.length = p.tasks.length ∧ Leads p q := by
  have hleads := leads_of_step? h rfl
  obtain rfl := Option.some.inj h
  exact ⟨rfl, rfl, hleads⟩

theorem close_phase? {p q : Pool} (h : p.step? .close = some q) :
    q.phase? = p.phase? ∧ q.tasks.length = p.tasks.length ∧ Leads p q := by
  have hleads := leads_of_step? h rfl
  obtain rfl := Option.some.inj h
  exact ⟨rfl, rfl, hleads⟩

theorem new_counted (capacity : Int) (name : String) : (new capacity name).Counted := rfl

/-! ## What can happen -/

theorem enter_isSome {p : Pool} {i : Nat} (h : p.phase? i = some .arriving) : (p.step? (.enter i)).isSome := by
  simp [step?, h]

theorem start_isSome {p : Pool} {i n : Nat} (h : p.phase? i = some (.admitted n)) (possible : Bool) :
    (p.step? (.start i possible)).isSome := by
  simp [step?, h]

theorem release_isSome {p : Pool} {i n : Nat} (h : p.phase? i = some (.stuck n)) :
    (p.step? (.release i)).isSome := by
  simp [step?, h]

theorem finish_release_isSome {p : Pool} {i n : Nat} (h : p.phase? i = some (.running n)) :
    ((p.step? (.finish i)).bind fun q => q.step? (.release i)).isSome := by
  simp [step?, h, phase?_setPhase_self h]

end Pool

end Thumbnailer
