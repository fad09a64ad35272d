import Thumbnailer.Proofs.Generator.Moves
import Thumbnailer.Proofs.Pool.Runs

/-!
# Runs of a generator

A run is any sequence of actions that can happen one after the other. To each call it is a path, and an admitted
call can go on by itself until it has come to its end.
-/

namespace Thumbnailer.Generator

variable {g g' : Generator} {a : Action} {as : List Action} {c : Nat}

/-- The generator after some actions, if they can happen one after the other. -/
def run? (g : Generator) (as : List Action) : Option Generator := runFrom? Generator.step? g as

def actionsOf (c : Nat) (as : List Action) : List Action := as.filter fun a => a.own? = some c

theorem run?_eq_foldlM (g : Generator) (as : List Action) : g.run? as = as.foldlM Generator.step? g :=
  runFrom?_eq_foldlM Generator.step? g as

theorem run?_append (g : Generator) (as bs : List Action) :
    g.run? (as ++ bs) = (g.run? as).bind fun g' => g'.run? bs := runFrom?_append Generator.step? g as bs

theorem run_inv {P : Generator → Prop} (hstep : ∀ {g : Generator} {a : Action} {g' : Generator},
    P g → g.step? a = some g' → P g') (hg : P g) (h : g.run? as = some g') : P g' :=
  runFrom?_induction Generator.step? (P := fun _ => P) hg (fun _ _ _ _ _ hu hlast => hstep hu hlast) h

theorem run_tied (ht : Tied g) (h : g.run? as = some g') : Tied g' :=
  run_inv (fun ht h => (step?_moves h).tied ht) ht h

theorem step?_plan (h : g.step? a = some g') : g'.plan = g.plan := by
  cases step?_moves h with
  | own c k k' r ds ha hk hr htouched hturn => exact htouched.plan
  | cut request ha hcuts hsevered => exact hsevered.plan
  | aside ha haside => exact haside.plan

theorem run_plan (h : g.run? as = some g') : g'.plan = g.plan :=
  run_inv (P := fun g' => g'.plan = g.plan) (fun hp h => (step?_plan h).trans hp) rfl h

theorem step?_leads (h : g.step? a = some g') : Pool.Leads g.pool g'.pool := by
  cases step?_moves h with
  | own c k k' r ds ha hk hr htouched hturn => exact htouched.pool.leads
  | cut request ha hcuts hsevered => exact hsevered.pool ▸ .refl
  | aside ha haside => exact haside.leads

theorem run_leads (h : g.run? as = some g') : Pool.Leads g.pool g'.pool :=
  run_inv (P := fun g' => Pool.Leads g.pool g'.pool) (fun hleads h => hleads.trans (step?_leads h)) .refl h

/-! ## Paths of calls -/

theorem Path.trans {plan : Plan} {u v w : View} {as bs : List Action} (h : Path plan c u as v)
    (h' : Path plan c v bs w) : Path plan c u (as ++ bs) w := by
  induction h' with
  | nil => simpa using h
  | turn h' ht ih =>
    rw [← List.append_assoc]
    exact .turn ih ht
  | cut h' hc ih => exact .cut ih hc

theorem step_path {v : View} (ht : Tied g) (h : g.step? a = some g') (hv : g.view? c = some v) :
    ∃ v', g'.view? c = some v' ∧ Path g.plan c v (actionsOf c [a]) v' := by
  rcases step?_view ht h hv with ⟨ha, v', hv', hturn⟩ | ⟨ha, work, hv', hcut, -⟩
  · refine ⟨v', hv', ?_⟩
    rw [actionsOf, List.filter_cons_of_pos (by simpa using ha)]
    exact .turn .nil hturn
  · refine ⟨_, hv', ?_⟩
    rw [actionsOf, List.filter_cons_of_neg (by simpa using ha)]
    exact .cut .nil hcut

theorem run_path {v : View} (ht : Tied g) (h : g.run? as = some g') (hv : g.view? c = some v) :
    ∃ v', g'.view? c = some v' ∧ Path g.plan c v (actionsOf c as) v' := by
  induction as generalizing g v with
  | nil =>
    obtain rfl := Option.some.inj h
    exact ⟨v, hv, .nil⟩
  | cons a rest ih =>
    obtain ⟨g₁, hfirst, hrest⟩ := Option.bind_eq_some_iff.1 h
    obtain ⟨v₁, hv₁, hpath⟩ := step_path ht hfirst hv
    obtain ⟨v', hv', hpath'⟩ := ih ((step?_moves hfirst).tied ht) hrest hv₁
    rw [step?_plan hfirst] at hpath'
    refine ⟨v', hv', ?_⟩
    have happend : actionsOf c (a :: rest) = actionsOf c [a] ++ actionsOf c rest := by
      rw [actionsOf, actionsOf, actionsOf, ← List.filter_append, List.singleton_append]
    rw [happend]
    exact hpath.trans hpath'

theorem run_path_fresh {v' : View} (ht : Tied g) (h : g.run? as = some g') (hnone : g.view? c = none)
    (hv' : g'.view? c = some v') : ∃ v, v.Fresh ∧ Path g.plan c v (actionsOf c as) v' := by
  induction as generalizing g with
  | nil =>
    obtain rfl := Option.some.inj h
    simp [hnone] at hv'
  | cons a rest ih =>
    obtain ⟨g₁, hfirst, hrest⟩ := Option.bind_eq_some_iff.1 h
    have ht₁ := (step?_moves hfirst).tied ht
    have hskip (ha : a.own? ≠ some c) : actionsOf c (a :: rest) = actionsOf c rest :=
      List.filter_cons_of_neg (by simpa using ha)
    -- The path begins where the call is made; until then no action is one of its own.
    cases hv₁ : g₁.view? c with
    | none =>
      have ha : a.own? ≠ some c := by
        intro ha
        obtain ⟨k, r, hk, hr, -⟩ := step?_acted hfirst ha
        simp [view?_eq hk hr] at hnone
      obtain ⟨v, hfresh, hpath⟩ := ih ht₁ hrest hv₁
      rw [step?_plan hfirst] at hpath
      rw [hskip ha]
      exact ⟨v, hfresh, hpath⟩
    | some v =>
      obtain ⟨hfresh, ha⟩ := step?_fresh ht hfirst hnone hv₁
      obtain ⟨u, hu, hpath⟩ := run_path ht₁ hrest hv₁
      obtain rfl := Option.some.inj (hu.symm.trans hv')
      rw [step?_plan hfirst] at hpath
      rw [hskip (by simp [ha])]
      exact ⟨v, hfresh, hpath⟩

/-- What holds of a call wherever a run from the beginning has come to. -/
theorem run_view_inv {plan : Plan} {concurrency : Int} {clock : Double} {v : View}
    (h : (new plan concurrency clock).run? as = some g) (hv : g.view? c = some v) :
    v.Inv plan c (actionsOf c as) := by
  obtain ⟨u, hfresh, hpath⟩ := run_path_fresh (new_tied plan concurrency clock) h rfl hv
  have hplan : (new plan concurrency clock).plan = plan := rfl
  rw [hplan] at hpath
  simpa using hpath.inv (hfresh.inv plan c)

/-! ## Going on -/

theorem phase?_of_phaseOf? {k : Call} {phase : Pool.Phase} (h : g.phaseOf? k = some phase) :
    ∃ i, k.task = some i ∧ g.pool.phase? i = some phase := by
  rwa [phaseOf?, Option.bind_eq_some_iff] at h

theorem view?_phase {v : View} (hv : g.view? c = some v) :
    ∃ r, g.calls[c]? = some v.call ∧ g.requestOf? v.call = some r ∧ g.phaseOf? v.call = v.phase := by
  obtain ⟨r, hk, hr, hview⟩ := view?_eq_some hv
  refine ⟨r, hk, hr, ?_⟩
  rw [hview]
  rfl

theorem goes_on_of_callStep? {k : Call} {r : Request} (hk : g.calls[c]? = some k) (hr : g.requestOf? k = some r)
    (h : ∃ a, a.own? = some c ∧ (g.callStep? c k r a).isSome) : ∃ a, a.own? = some c ∧ (g.step? a).isSome := by
  obtain ⟨a, ha, hstep⟩ := h
  exact ⟨a, ha, by rwa [step?_eq_callStep? (call?_of_own? ha), hk, Option.bind_some, hr, Option.bind_some]⟩

theorem work_goes_on {k : Call} (c : Nat) (r : Request) (hrun : g.mayRun k = true)
    (hleft : ∀ o, k.work ≠ .left o) :
    ∃ a, a.own? = some c ∧ (g.callStep? c k r a).isSome := by
  match hw : k.work with
  | .idle => exact ⟨.arm c, rfl, by simp [callStep?, hrun, hw]⟩
  | .armed since expired => exact ⟨.launch c, rfl, by simp [callStep?, hw]⟩
  | .alive since opened id stdout => exact ⟨.exit c, rfl, by simp [callStep?, hw]⟩
  | .over since o => exact ⟨.deliver c, rfl, by simp only [callStep?, hw]; split <;> rfl⟩
  | .delivered o => exact ⟨.leave c, rfl, by simp only [callStep?, hw]; split <;> rfl⟩
  | .left o => exact absurd hw (hleft o)

theorem worker_goes_on {k : Call} {n : Nat} (c : Nat) (r : Request) (hm : k.mode = .pooled)
    (hp : g.phaseOf? k = some (.running n)) : ∃ a, a.own? = some c ∧ (g.callStep? c k r a).isSome := by
  cases hw : k.work with
  | left o =>
    obtain ⟨i, hi, hpool⟩ := phase?_of_phaseOf? hp
    obtain ⟨q, hq⟩ := Option.isSome_iff_exists.1 (Pool.finish_release_isSome hpool)
    obtain ⟨p, hp, hq⟩ := Option.bind_eq_some_iff.1 hq
    exact ⟨.release c, rfl, by simp [callStep?, hw, onPool?, hi, hp, hq]⟩
  | _ => exact work_goes_on c r (by simp [mayRun, hm, hp]) (by simp [hw])

/-- An admitted call that has actions of its own ahead can go on by one of them. -/
theorem goes_on {v : View} (hv : g.view? c = some v) (hs : v.Stage) (ha : v.admitted = true)
    (hahead : v.ahead ≠ 0) : ∃ a, a.own? = some c ∧ (g.step? a).isSome := by
  obtain ⟨r, hk, hr, hphase⟩ := view?_phase hv
  apply goes_on_of_callStep? hk hr
  -- The stage names the next action: the worker is started or goes on, or the caller is answered.
  cases hs with
  | calling hc hp | direct hm hc hp | finished o hm hc hp => simp [View.admitted, hp] at ha
  | blocked hm hc hp => rcases hp with hp | hp <;> simp [View.admitted, hp] at ha
  | admitted n hm hc hp =>
    obtain ⟨i, hi, hpool⟩ := phase?_of_phaseOf? (hphase.trans hp)
    exact ⟨.start c true, rfl, by simpa [callStep?, onPool?, hi] using Pool.start_isSome hpool true⟩
  | stuck n hm hc hp =>
    obtain ⟨i, hi, hpool⟩ := phase?_of_phaseOf? (hphase.trans hp)
    exact ⟨.giveBack c, rfl, by
      simpa [callStep?, onPool?, hphase, hp, hi] using Pool.release_isSome hpool⟩
  | leaving why hm hc => exact ⟨.abandon c, rfl, by simp [callStep?, hc]⟩
  | refused why hm hc hp => simp [View.ahead, Caller.ahead, hp, hc] at hahead
  | running n hm hc hp => exact worker_goes_on c r hm (hphase.trans hp)
  | done n o hm hc hp =>
    rcases hc with hc | ⟨id, hc⟩
    · exact ⟨.answer c, rfl, by simp [callStep?, hc, hphase, hp, Pool.Phase.worker?]⟩
    · simp [View.ahead, Caller.ahead, hp, hc] at hahead

/-- A call that is counted can go on, unless it waits for the pool. -/
theorem counted_goes_on {v : View} (hv : g.view? c = some v) (hs : v.Stage) (hbegun : v.call.begun = true)
    (hended : v.call.ended = false) :
    v.phase = some .waiting ∨ ∃ a, a.own? = some c ∧ (g.step? a).isSome := by
  obtain ⟨r, hk, hr, hphase⟩ := view?_phase hv
  have hgoes := goes_on hv hs
  cases hs with
  | calling hc => simp [Call.begun, hc] at hbegun
  | direct hm hc hp hw =>
    exact .inr (goes_on_of_callStep? hk hr (work_goes_on c r (by simp [mayRun, hm, hc]) hw))
  | finished o hm hc hp hw => simp [Call.ended, Work.finished, hw] at hended
  -- A submitter that waits looks again only when the pool wakes it.
  | blocked hm hc hp =>
    rcases hp with hp | hp
    · obtain ⟨i, hi, hpool⟩ := phase?_of_phaseOf? (hphase.trans hp)
      refine .inr (goes_on_of_callStep? hk hr ⟨.enter c, rfl, ?_⟩)
      simpa [callStep?, onPool?, hi] using Pool.enter_isSome hpool
    · exact .inl hp
  | admitted n hm hc hp => exact .inr (hgoes (by simp [View.admitted, hp]) (by simp [View.ahead, hp]))
  | stuck n hm hc hp => exact .inr (hgoes (by simp [View.admitted, hp]) (by simp [View.ahead, hp]))
  | leaving why hm hc => exact .inr (goes_on_of_callStep? hk hr ⟨.abandon c, rfl, by simp [callStep?, hc]⟩)
  | refused why hm hc => simp [Call.ended, Caller.rejected, hc] at hended
  | running n hm hc hp => exact .inr (goes_on_of_callStep? hk hr (worker_goes_on c r hm (hphase.trans hp)))
  | done n o hm hc hp hw => simp [Call.ended, Work.finished, hw] at hended

end Thumbnailer.Generator
