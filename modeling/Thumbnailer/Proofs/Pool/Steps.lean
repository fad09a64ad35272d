import Thumbnailer.Pool

/-!
# What an action does to a pool

`step?_eq_some` lists the actions that can happen, each with what it needs and the pool that it leaves. Whatever
is proved about pools goes by these cases.
-/

namespace Thumbnailer.Pool

/-- The submitter of a task may look at the pool: it has just come with the task, or it was woken. -/
inductive MayEnter (p : Pool) (i : Nat) : Phase → Prop
  | arriving (h : p.phase? i = some .arriving) : MayEnter p i .arriving
  | woken (h : p.phase? i = some .waiting) (hwoken : .submitter i ∈ p.woken) : MayEnter p i .waiting

inductive MayLook (p : Pool) (j : Nat) : JoinPhase → Prop
  | arriving (h : p.joins[j]? = some .arriving) : MayLook p j .arriving
  | woken (h : p.joins[j]? = some .waiting) (hwoken : .joiner j ∈ p.woken) : MayLook p j .waiting

/-- Somebody who was woken looks again. -/
def unwake (p : Pool) (w : Waiter) : Pool := { p with woken := p.woken.erase w }

/-- An action that can happen, and the pool after it. -/
inductive Step (p : Pool) : Action → Pool → Prop
  | submit (error : Option String) : Step p (.submit error) { p with tasks := p.tasks ++ [{ error }] }
  | reject (i : Nat) (old : Phase) (h : p.MayEnter i old) (hclosed : p.closed = true) :
      Step p (.enter i) ((p.unwake (.submitter i)).setPhase i (.refused .closed))
  | accept (i : Nat) (old : Phase) (h : p.MayEnter i old) (hopen : p.closed = false)
      (hroom : p.running < p.capacity) :
      Step p (.enter i) { (p.unwake (.submitter i)).setPhase i (.admitted (p.spawned + 1)) with
        running := p.running + 1, spawned := p.spawned + 1 }
  | park (i : Nat) (old : Phase) (h : p.MayEnter i old) (hopen : p.closed = false)
      (hfull : p.capacity ≤ p.running) :
      Step p (.enter i) { (p.unwake (.submitter i)).setPhase i .waiting with
        parked := p.parked ++ [.submitter i] }
  | start (i n : Nat) (possible : Bool) (h : p.phase? i = some (.admitted n)) :
      Step p (.start i possible) (p.setPhase i (if possible then .running n else .stuck n))
  | finish (i n : Nat) (h : p.phase? i = some (.running n)) : Step p (.finish i) (p.setPhase i (.ended n))
  | release (i n : Nat) (h : p.phase? i = some (.ended n)) : Step p (.release i) (p.giveBack i (.done n))
  | giveUp (i n : Nat) (h : p.phase? i = some (.stuck n)) :
      Step p (.release i) (p.giveBack i (.refused .noThread))
  | tune (n : Int) : Step p (.tune n) { p.notifyAll with capacity := capacityOf n }
  | close : Step p .close { p.notifyAll with closed := true }
  | join : Step p .join { p with joins := p.joins ++ [.arriving] }
  | pass (j : Nat) (old : JoinPhase) (h : p.MayLook j old) (hidle : p.running = 0) :
      Step p (.look j) { p.unwake (.joiner j) with joins := p.joins.set j .returned }
  | rest (j : Nat) (old : JoinPhase) (h : p.MayLook j old) (hbusy : p.running ≠ 0) :
      Step p (.look j) { p.unwake (.joiner j) with
        parked := p.parked ++ [.joiner j], joins := p.joins.set j .waiting }

variable {p q : Pool} {a : Action} {i j : Nat}

theorem step_look {old : Phase} (h : p.MayEnter i old) : Step p (.enter i) (p.look i) := by
  unfold look
  simp only
  split
  next hclosed => exact .reject i old h hclosed
  next hopen =>
    split
    next hroom => exact .accept i old h (by simpa using hopen) hroom
    next hfull => exact .park i old h (by simpa using hopen) (by simpa using hfull)

theorem step_lookJoin {old : JoinPhase} (h : p.MayLook j old) : Step p (.look j) (p.lookJoin j) := by
  unfold lookJoin
  simp only
  split
  next hidle => exact .pass j old h hidle
  next hbusy => exact .rest j old h hbusy

theorem step_of_step? (h : p.step? a = some q) : Step p a q := by
  cases a with
  | submit error =>
    obtain rfl := Option.some.inj h
    exact .submit error
  | enter i =>
    simp only [step?] at h
    split at h
    next hphase =>
      obtain rfl := Option.some.inj h
      exact step_look (.arriving hphase)
    next hphase =>
      split at h
      next hwoken =>
        obtain rfl := Option.some.inj h
        exact step_look (.woken hphase (by simpa using hwoken))
      next => cases h
    next => cases h
  | start i possible =>
    simp only [step?] at h
    split at h
    next n hphase =>
      obtain rfl := Option.some.inj h
      exact .start i n possible hphase
    next => cases h
  | finish i =>
    simp only [step?] at h
    split at h
    next n hphase =>
      obtain rfl := Option.some.inj h
      exact .finish i n hphase
    next => cases h
  | release i =>
    simp only [step?] at h
    split at h
    next n hphase =>
      obtain rfl := Option.some.inj h
      exact .release i n hphase
    next n hphase =>
      obtain rfl := Option.some.inj h
      exact .giveUp i n hphase
    next => cases h
  | tune n =>
    obtain rfl := Option.some.inj h
    exact .tune n
  | close =>
    obtain rfl := Option.some.inj h
    exact .close
  | join =>
    obtain rfl := Option.some.inj h
    exact .join
  | look j =>
    simp only [step?] at h
    split at h
    next hphase =>
      obtain rfl := Option.some.inj h
      exact step_lookJoin (.arriving hphase)
    next hphase =>
      split at h
      next hwoken =>
        obtain rfl := Option.some.inj h
        exact step_lookJoin (.woken hphase (by simpa using hwoken))
      next => cases h
    next => cases h

theorem MayEnter.step? {old : Phase} (h : p.MayEnter i old) : p.step? (.enter i) = some (p.look i) := by
  cases h with
  | arriving h => simp [Pool.step?, h]
  | woken h hwoken => simp [Pool.step?, h, hwoken]

theorem MayLook.step? {old : JoinPhase} (h : p.MayLook j old) : p.step? (.look j) = some (p.lookJoin j) := by
  cases h with
  | arriving h => simp [Pool.step?, h]
  | woken h hwoken => simp [Pool.step?, h, hwoken]

theorem Step.step? (h : Step p a q) : p.step? a = some q := by
  cases h with
  | reject i old h hclosed => simp [h.step?, look, hclosed, unwake]
  | accept i old h hopen hroom => simp [h.step?, look, hopen, hroom, unwake, setPhase]
  | park i old h hopen hfull => simp [h.step?, look, hopen, Int.not_lt.2 hfull, unwake, setPhase]
  | start i n possible h => simp [Pool.step?, h]
  | finish i n h => simp [Pool.step?, h]
  | release i n h => simp [Pool.step?, h]
  | giveUp i n h => simp [Pool.step?, h]
  | pass j old h hidle => simp [h.step?, lookJoin, hidle, unwake]
  | rest j old h hbusy => simp [h.step?, lookJoin, hbusy, unwake]
  | _ => rfl

theorem step?_eq_some : p.step? a = some q ↔ Step p a q := ⟨step_of_step?, Step.step?⟩

end Thumbnailer.Pool
