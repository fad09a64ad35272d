import Thumbnailer.Proofs.Generator.Filed

/-!
# Demands that are met

A call, or waiting for all calls to end, is a run that lets everything happen that happens by itself.
-/

namespace Thumbnailer.Generator

variable {g g' : Generator} {a : Action} {as : List Action} {c fuel : Nat} {k : Call} {r : Request}

theorem length_of_run (has : ∀ a ∈ as, a.spontaneous = true) (h : g.run? as = some g') :
    g'.calls.length = g.calls.length := by
  induction as generalizing g with
  | nil =>
    obtain rfl := Option.some.inj h
    rfl
  | cons a rest ih =>
    obtain ⟨g₁, hfirst, hrest⟩ := Option.bind_eq_some_iff.1 h
    obtain ⟨ha, has⟩ := List.forall_mem_cons.1 has
    rw [ih has hrest, length_of_spontaneous ha hfirst]

/-! ## Pooled calls -/

theorem Working.settle (hg : Working g) : ∃ as, (∀ a ∈ as, a.calm = true) ∧ g.run? as = some (g.settle true).1 ∧
    g.seen as = (g.settle true).2 ∧ Working (g.settle true).1 ∧ (g.settle true).1.next? true = none :=
  settleWithin_gone hg hg.backed.rank_le_settleFuel

theorem perform_pooled (g : Generator) (q : Request) (threads : Bool) :
    g.perform (.call q .pooled) threads = (g.submitted q).settle threads := by
  simp [perform, Demand.actions, act, step?, events, Action.call?, submitted]

theorem Working.submitted {q : Request} (hg : Working g) (hq : q.child.held = false) : Working (g.submitted q) where
  backed := run_inv step?_backed hg.backed (run?_submit g q)
  unwaited := ⟨hg.unwaited.waits, hg.unwaited.parked, hg.unwaited.woken⟩
  unheld := List.forall_mem_append.2 ⟨hg.unheld, by simpa using hq⟩

/-! ## Direct calls -/

def called (g : Generator) (q : Request) : Generator :=
  { g with requests := g.requests ++ [q], calls := g.calls ++ [{ request := g.requests.length, mode := .direct }] }

theorem run?_called (g : Generator) (q : Request) :
    g.run? [.request q, .call g.requests.length .direct] = some (g.called q) := by
  simp [run?, runFrom?, step?, called]

theorem perform_direct (g : Generator) (q : Request) (threads : Bool) :
    g.perform (.call q .direct) threads = (g.called q).settle threads := by
  simp [perform, Demand.actions, act, step?, events, Action.call?, called]

theorem requests_of_calm (has : ∀ a ∈ as, a.calm = true) (h : g.run? as = some g') : g'.requests = g.requests := by
  induction as generalizing g with
  | nil =>
    obtain rfl := Option.some.inj h
    rfl
  | cons a rest ih =>
    obtain ⟨g₁, hfirst, hrest⟩ := Option.bind_eq_some_iff.1 h
    obtain ⟨ha, has⟩ := List.forall_mem_cons.1 has
    rw [ih has hrest, requests_of_own (Bool.and_eq_true_iff.1 ha).1 hfirst]

theorem tickets_of_calm (has : ∀ a ∈ as, a.calm = true) (h : g.run? as = some g') : g'.tickets = g.tickets := by
  have hlength := length_of_run (fun a ha => spontaneous_of_calm (has a ha)) h
  exact ((run_tickets h).eq_of_length (by simp [tickets, hlength])).symm

theorem Gone.finished (h : g.Gone k) (hs : Sound g) (hk : g.calls[c]? = some k) (hm : k.mode = .direct) :
    ∃ o, k.work = .left o ∧ k.caller = .finished o.error? := by
  obtain ⟨r, hr, hv⟩ := hs.tied.view? hk
  cases h.call with
  | finished o hdirect hc hw => exact ⟨o, hw, hc⟩
  | returned id o hpooled => cases hm.symm.trans hpooled
  | refused why hc =>
    have hstage := hs.stage c _ hv
    generalize hview : g.viewOf c k r = v at hstage
    have hc' : v.call.caller = .refused why := by rw [← hview]; exact hc
    have hm' : v.call.mode = .direct := by rw [← hview]; exact hm
    cases hstage <;> simp_all

/-- The only call that is made directly returns the result of its request. -/
theorem perform_finished (plan : Plan) (concurrency : Int) (clock : Double) (hheld : r.child.held = false)
    (hr : r.cancelled = false) :
    ((new plan concurrency clock).perform (.call r .direct) true).1.calls.getLast?.map Call.caller =
      some (.finished (plan.result r)) := by
  rw [perform_direct]
  have hcalled := run?_called (new plan concurrency clock) r
  have hworking : Working ((new plan concurrency clock).called r) :=
    ⟨run_inv step?_backed (new_backed plan concurrency clock) hcalled, ⟨rfl, rfl, rfl⟩, by simpa [Unheld, called, new]⟩
  obtain ⟨as, hcalm, hrun, -, hworking', hnone⟩ := hworking.settle
  generalize (((new plan concurrency clock).called r).settle true).1 = g at *
  have htickets : g.tickets = [⟨0, .direct, 0⟩] := tickets_of_calm hcalm hrun
  obtain ⟨k, hk, hticket⟩ := List.map_eq_singleton_iff.1 htickets
  have hfirst : g.calls[0]? = some k := by rw [hk]; rfl
  have hquiet : ∀ a ∈ [.request r, .call 0 .direct] ++ as, a.quiet = true :=
    List.forall_mem_append.2 ⟨by simp [Action.quiet, hr], fun a ha => (Bool.and_eq_true_iff.1 (hcalm a ha)).2⟩
  have hall : (new plan concurrency clock).run? ([.request r, .call 0 .direct] ++ as) = some g := by
    rw [run?_append]
    exact (congrArg (Option.bind · (run? · as)) hcalled).trans hrun
  -- The call is over, and what it has come to depends on its own request alone.
  obtain ⟨hgone, -⟩ := next?_none hworking'.backed hworking'.unwaited hworking'.unheld hnone
  have hmode : k.mode = .direct := congrArg Ticket.mode hticket
  obtain ⟨o, hw, hc⟩ := (hgone k (List.mem_of_getElem? hfirst)).finished hworking'.backed.sound hfirst hmode
  have hrequest : g.requestOf? k = some r := by
    rw [requestOf?, show k.request = 0 from congrArg Ticket.request hticket, requests_of_calm hcalm hrun]
    rfl
  have hfinished : k.work.finished = true := by rw [hw]; rfl
  obtain ⟨o', ho', hresult⟩ := (run_calm hquiet hall).left (view?_eq hfirst hrequest) hfinished
  obtain rfl : o = o' := Work.left.inj (hw.symm.trans ho')
  rw [run_plan hall] at hresult
  rw [hk, List.getLast?_singleton, Option.map_some, hc, hresult]
  exact congrArg (fun e => some (Caller.finished e)) (result_asked plan r)

/-! ## Waiting -/

theorem settleWithin_none (h : g.next? true = none) (fuel : Nat) : g.settleWithin fuel true = (g, []) := by
  cases fuel with
  | zero => rfl
  | succ fuel => rw [settleWithin, h]

theorem settleWithin_some (h : g.next? true = some a) (hstep : g.step? a = some g') (fuel : Nat) :
    g.settleWithin (fuel + 1) true =
      ((g'.settleWithin fuel true).1, g.events a ++ (g'.settleWithin fuel true).2) := by
  rw [settleWithin, h]
  simp only [hstep]

/-- All calls are gone, and nobody waits at the pool. -/
structure Quit (g : Generator) : Prop where
  gone : ∀ k ∈ g.calls, g.Gone k
  parked : g.pool.parked = []
  woken : g.pool.woken = []

theorem Gone.not_waiting (h : g.Gone k) (hs : Sound g) (hk : g.calls[c]? = some k) :
    g.phaseOf? k ≠ some .waiting := by
  intro hp
  obtain ⟨r, hr, hv⟩ := hs.tied.view? hk
  have hc : k.caller = .inside := ((hs.stage c _ hv).of_blocked (.inr hp)).2.1
  cases h.call with
  | refused why hc' | finished o hm hc' | returned id o hm hc' => cases hc.symm.trans hc'

theorem Working.quit (hg : Working g) (hnone : g.next? true = none) : Quit g := by
  obtain ⟨hgone, hwoken⟩ := next?_none hg.backed hg.unwaited hg.unheld hnone
  refine ⟨hgone, List.eq_nil_iff_forall_not_mem.2 fun w hw => ?_, hwoken⟩
  have hwaits := (hg.backed.pool.waited.queued.known w).2 (.inl hw)
  cases w with
  | joiner j => simp [Pool.Waits, hg.backed.pool.joins] at hwaits
  | submitter i =>
    obtain ⟨t, ht, -⟩ := Pool.phase?_eq_some.1 hwaits
    obtain ⟨c, k, hk, htask⟩ := hg.backed.owned i (List.getElem?_eq_some_iff.1 ht).1
    exact (hgone k (List.mem_of_getElem? hk)).not_waiting hg.backed.sound hk ((phaseOf?_eq htask).trans hwaits)

theorem Quit.next? (hg : Quit g) (hunwoken : g.woken = []) :
    g.next? true = g.waits.zipIdx.findSome? fun w => waitAction? w.2 w.1 := by
  have hcalls : (g.calls.zipIdx.findSome? fun k => g.callAction? true k.2 k.1) = none := by
    refine List.findSome?_eq_none_iff.2 fun e he => ?_
    exact (hg.gone e.1 (List.fst_mem_of_mem_zipIdx he)).callAction?_none true e.2
  unfold Generator.next?
  rw [hcalls, hg.woken, hunwoken]
  cases g.waits.zipIdx.findSome? fun w => waitAction? w.2 w.1 <;> rfl

theorem Quit.congr (hg : Quit g) (hcalls : g'.calls = g.calls) (htasks : g'.pool.tasks = g.pool.tasks)
    (hparked : g'.pool.parked = []) (hwoken : g'.pool.woken = []) : Quit g' where
  gone k hk := by
    have hgone := hg.gone k (hcalls ▸ hk)
    refine ⟨hgone.call, fun phase hphase => hgone.slot phase ?_⟩
    rw [← hphase, phaseOf?, phaseOf?]
    congr 1
    funext i
    rw [Pool.phase?, Pool.phase?, htasks]
  parked := hparked
  woken := hwoken

/-- The generator after all calls have ended, and the only one who waited has closed the pool. -/
def awaited (g : Generator) : Generator :=
  { g with waits := [⟨true, .returned⟩], pool := { g.pool.notifyAll with closed := true } }

theorem perform_await (hg : Working g) (hnone : g.next? true = none) :
    ∃ g₁, g.step? (.await true) = some g₁ ∧ g₁.run? [.look 0, .shut 0] = some g.awaited ∧
      g₁.seen [.look 0, .shut 0] = [] ∧ g.perform (.await true) true = (g.awaited, []) := by
  have hquit := hg.quit hnone
  obtain ⟨hwaits, hparked, hwoken⟩ := hg.unwaited
  have hzero := hg.backed.idle_of_gone hquit.gone
  let g₁ : Generator := { g with waits := [⟨true, .arriving⟩] }
  let g₂ : Generator := { g with waits := [⟨true, .closing⟩] }
  have hfirst : g.step? (.await true) = some g₁ := by simp [step?, hwaits, g₁]
  have hlook : g₁.step? (.look 0) = some g₂ := by simp [step?, lookAt, hzero, hwoken, g₁, g₂]
  have hshut : g₂.step? (.shut 0) = some g.awaited := by simp [step?, Pool.step?, awaited, g₂]
  refine ⟨g₁, hfirst, by simp [run?, runFrom?, hlook, hshut], by rw [seen_cons hlook, seen_cons hshut]; rfl, ?_⟩
  -- The schedule is asked three times: he looks, he closes the pool, and nothing more happens.
  have hquit₁ : Quit g₁ := hquit.congr rfl rfl hquit.parked hquit.woken
  have hquit₂ : Quit g₂ := hquit.congr rfl rfl hquit.parked hquit.woken
  have hquit₃ : Quit g.awaited :=
    hquit.congr rfl rfl rfl (by simp [awaited, Pool.notifyAll, hquit.parked, hquit.woken])
  have hnext₁ : g₁.next? true = some (.look 0) := by rw [hquit₁.next? hwoken]; rfl
  have hnext₂ : g₂.next? true = some (.shut 0) := by rw [hquit₂.next? hwoken]; rfl
  have hnext₃ : g.awaited.next? true = none := by rw [hquit₃.next? hwoken]; rfl
  have hfuel : ∃ fuel, g₁.settleFuel = fuel + 2 := ⟨g₁.settleFuel - 2, by
    have : 16 * 2 * 2 ≤ g₁.settleFuel := Nat.mul_le_mul (Nat.mul_le_mul_left _ (by omega)) (by omega)
    omega⟩
  obtain ⟨fuel, hfuel⟩ := hfuel
  have hsettle : g₁.settle true = (g.awaited, []) := by
    rw [settle, hfuel, settleWithin_some hnext₁ hlook, settleWithin_some hnext₂ hshut, settleWithin_none hnext₃]
    rfl
  simp [perform, Demand.actions, act, hfirst, hsettle, events, Action.call?]

end Thumbnailer.Generator
