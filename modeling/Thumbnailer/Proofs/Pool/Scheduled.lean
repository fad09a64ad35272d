import Thumbnailer.Proofs.Pool.Wakeups

/-!
# Schedules as runs

The actions that a schedule consists of make a run, so that whatever holds of runs holds of schedules. In each state of
such a run the scheduler lets the next action happen.
-/

namespace Thumbnailer.Pool

variable {p q : Pool} {a : Action} {as bs : List Action} {i j n : Nat} {threads : Bool}

/-! ## Schedules as runs -/

/-- The actions by which a pool settles, as far as the fuel goes. -/
def settlingWithin (fuel : Nat) (p : Pool) (threads : Bool) : List Action :=
  match fuel with
  | 0 => []
  | fuel + 1 =>
    match p.next? threads with
    | none => []
    | some a =>
      match p.step? a with
      | none => []
      | some q => a :: settlingWithin fuel q threads

def settling (p : Pool) (threads : Bool) : List Action := settlingWithin p.settleFuel p threads

/-- The action that is asked for, if it can happen, and all that follows from it. -/
def performing (p : Pool) (demand : Demand) (threads : Bool) : List Action :=
  match p.step? demand.action with
  | none => p.settling threads
  | some q => demand.action :: q.settling threads

def serve (p : Pool) : List (Demand × Bool) → Pool
  | [] => p
  | (demand, threads) :: rest => (p.perform demand threads).1.serve rest

def serving (p : Pool) : List (Demand × Bool) → List Action
  | [] => []
  | (demand, threads) :: rest => p.performing demand threads ++ (p.perform demand threads).1.serving rest

theorem run?_settlingWithin (fuel : Nat) (p : Pool) (threads : Bool) :
    p.run? (settlingWithin fuel p threads) = some (settleWithin fuel p threads).1 := by
  induction fuel generalizing p with
  | zero => rfl
  | succ fuel ih =>
    rw [settlingWithin, settleWithin]
    cases p.next? threads with
    | none => rfl
    | some a =>
      simp only
      cases hstep : p.step? a with
      | none => rfl
      | some q =>
        simp only
        rw [run?_cons hstep, ih]

theorem run?_performing (p : Pool) (demand : Demand) (threads : Bool) :
    p.run? (p.performing demand threads) = some (p.perform demand threads).1 := by
  unfold performing perform
  cases hstep : p.step? demand.action with
  | none => exact run?_settlingWithin p.settleFuel p threads
  | some q =>
    simp only
    rw [run?_cons hstep]
    exact run?_settlingWithin q.settleFuel q threads

theorem run?_serving (p : Pool) (demands : List (Demand × Bool)) :
    p.run? (p.serving demands) = some (p.serve demands) := by
  induction demands generalizing p with
  | nil => rfl
  | cons d rest ih =>
    obtain ⟨demand, threads⟩ := d
    rw [serving, run?_append, run?_performing, Option.bind_some, ih, serve]

/-! ## What the scheduler lets happen -/

/-- The task goes on by itself at once. -/
def Phase.moving : Phase → Bool
  | .arriving | .admitted _ | .stuck _ | .ended _ => true
  | _ => false

def Idle (p : Pool) : Prop := ∀ i phase, p.phase? i = some phase → phase.moving = false

/-- The scheduler lets an action happen: a task that is under way goes on, or if there is none, somebody who
comes to join or the first who was woken; and when nobody is left, what is asked of the pool. -/
inductive Scheduled (p : Pool) : Action → Prop
  | task (i : Nat) (phase : Phase) (threads : Bool) (b : Action) (hphase : p.phase? i = some phase)
      (hb : taskAction? threads i phase = some b) : Scheduled p b
  | join (j : Nat) (hidle : p.Idle)
      (hj : p.joins[j]? = some .arriving) : Scheduled p (.look j)
  | wake (w : Waiter) (rest : List Waiter) (hidle : p.Idle)
      (hwoken : p.woken = w :: rest) : Scheduled p (wokenAction w)
  | demand (d : Demand) (hsettled : p.Settled) : Scheduled p d.action

theorem moving_of_taskAction? {phase : Phase} (h : taskAction? threads i phase = none) : phase.moving = false := by
  cases phase <;> first | rfl | cases h

theorem next?_scheduled (h : p.next? threads = some a) : Scheduled p a := by
  unfold next? at h
  split at h
  next b hb =>
    obtain rfl := Option.some.inj h
    obtain ⟨⟨t, i⟩, hmem, hact⟩ := List.exists_of_findSome?_eq_some hb
    exact .task i t.phase threads b (phase?_eq_some.2 ⟨t, List.mem_zipIdx_iff_getElem?.1 hmem, rfl⟩) hact
  next hnone =>
    -- With no next action for any task, none is under way.
    have hidle : p.Idle := by
      intro i phase hphase
      obtain ⟨t, ht, rfl⟩ := phase?_eq_some.1 hphase
      exact moving_of_taskAction?
        (List.findSome?_eq_none_iff.1 hnone (t, i) (List.mem_zipIdx_iff_getElem?.2 ht))
    split at h
    next b hb =>
      obtain rfl := Option.some.inj h
      obtain ⟨⟨phase, j⟩, hmem, hact⟩ := List.exists_of_findSome?_eq_some hb
      cases phase <;> cases hact
      exact .join j hidle (List.mem_zipIdx_iff_getElem?.1 hmem)
    next =>
      obtain ⟨w, hw, rfl⟩ := Option.map_eq_some_iff.1 h
      obtain ⟨rest, hwoken⟩ := List.head?_eq_some_iff.1 hw
      exact .wake w rest hidle hwoken

/-- In each state of the run the scheduler lets the next action happen. -/
def Orderly (p : Pool) (as : List Action) : Prop :=
  ∀ before a after q, as = before ++ a :: after → p.run? before = some q → Scheduled q a

theorem orderly_nil (p : Pool) : Orderly p [] := by
  intro before a after q h
  simp at h

theorem orderly_cons (hstep : p.step? a = some q) (ha : Scheduled p a) (has : Orderly q as) :
    Orderly p (a :: as) := by
  intro before b after r h hrun
  cases before with
  | nil =>
    obtain ⟨rfl, rfl⟩ := List.cons.inj h
    obtain rfl := Option.some.inj hrun
    exact ha
  | cons c before =>
    obtain ⟨rfl, rfl⟩ := List.cons.inj h
    rw [run?_cons hstep] at hrun
    exact has before b after r rfl hrun

theorem orderly_append (hrun : p.run? as = some q) (has : Orderly p as) (hbs : Orderly q bs) :
    Orderly p (as ++ bs) := by
  induction as generalizing p with
  | nil =>
    obtain rfl := Option.some.inj hrun
    exact hbs
  | cons a rest ih =>
    obtain ⟨r, hr, hq⟩ := Option.bind_eq_some_iff.1 hrun
    refine orderly_cons hr (has [] a rest p rfl rfl) (ih hq fun before b after s h hs => ?_)
    refine has (a :: before) b after s (by rw [h, List.cons_append]) ?_
    rw [run?_cons hr, hs]

theorem Orderly.of_append (h : Orderly p (as ++ bs)) : Orderly p as := by
  intro before a after q hsplit hrun
  refine h before a (after ++ bs) q ?_ hrun
  rw [hsplit, List.append_assoc, List.cons_append]

theorem settlingWithin_orderly (fuel : Nat) (p : Pool) (threads : Bool) :
    Orderly p (settlingWithin fuel p threads) := by
  induction fuel generalizing p with
  | zero => exact orderly_nil p
  | succ fuel ih =>
    rw [settlingWithin]
    cases ha : p.next? threads with
    | none => exact orderly_nil p
    | some a =>
      simp only
      cases hstep : p.step? a with
      | none => exact orderly_nil p
      | some q => exact orderly_cons hstep (next?_scheduled ha) (ih q)

theorem performing_orderly (hsettled : p.Settled) (demand : Demand) (threads : Bool) :
    Orderly p (p.performing demand threads) := by
  unfold performing
  cases hstep : p.step? demand.action with
  | none => exact settlingWithin_orderly p.settleFuel p threads
  | some q =>
    exact orderly_cons hstep (.demand demand hsettled) (settlingWithin_orderly q.settleFuel q threads)

theorem perform_settled (hp : Waited p) (hcounted : p.Counted) (demand : Demand) (threads : Bool) :
    (p.perform demand threads).1.Settled := by
  unfold perform
  cases hstep : p.step? demand.action with
  | none => exact (settle_settled hp hcounted threads).1
  | some q =>
    have hone : p.run? [demand.action] = some q := by rw [run?_one, hstep]
    exact (settle_settled (run_waited hone hp hcounted) (run_counted hone hcounted) threads).1

theorem serving_orderly (hp : Waited p) (hcounted : p.Counted) (hsettled : p.Settled)
    (demands : List (Demand × Bool)) : Orderly p (p.serving demands) := by
  induction demands generalizing p with
  | nil => exact orderly_nil p
  | cons d rest ih =>
    obtain ⟨demand, threads⟩ := d
    have hrun := run?_performing p demand threads
    rw [serving]
    refine orderly_append hrun (performing_orderly hsettled demand threads) ?_
    exact ih (run_waited hrun hp hcounted) (run_counted hrun hcounted) (perform_settled hp hcounted demand threads)

theorem new_settled (capacity : Int) (name : String) : (new capacity name).Settled := by
  intro a ha
  cases a <;> first | rfl | cases ha

end Thumbnailer.Pool
