import Thumbnailer.Proofs.Generator.Delivery

/-!
# The count of calls under way

`outstanding_accounted` says what the count is in every state that a run can come to, and what it tells those who
wait for it to come down to zero.
-/

namespace Thumbnailer.Generator

variable {g g' : Generator} {a : Action} {plan : Plan} {as : List Action} {c : Nat} {v : View}

/-! ## Counted calls -/

def Call.counted (k : Call) : Bool := k.begun && !k.ended

theorem View.Stage.begun_of_ended (h : v.Stage) (hended : v.call.ended = true) : v.call.begun = true := by
  cases h with
  | running n hm hc | done n o hm hc => rcases hc with hc | ⟨id, hc⟩ <;> simp [Call.begun, hc]
  | calling hc hp hw => simp [Call.ended, Caller.rejected, Work.finished, hc, hw] at hended
  | _ => simp_all [Call.begun]

theorem View.Stage.counted_toNat (h : v.Stage) :
    v.call.counted.toNat + v.call.ended.toNat = v.call.begun.toNat := by
  have hbegun := h.begun_of_ended
  unfold Call.counted
  cases hb : v.call.begun <;> cases he : v.call.ended <;> simp_all

theorem View.Stage.counted_split (h : v.Stage) : v.call.counted.toNat =
    (v.call.mode = .direct && v.call.caller = .inside : Bool).toNat +
      (v.call.mode = .pooled &&
        (v.call.begun && !(v.call.caller.rejected || v.call.work.finished)) : Bool).toNat := by
  unfold Call.counted Call.ended
  cases hmode : v.call.mode with
  | pooled => simp
  | direct =>
    cases h with
    | calling hc hp hw => simp [Call.begun, hc]
    | direct hm hc hp hw =>
      have hfinished : v.call.work.finished = false := by
        cases hwork : v.call.work with
        | left o => exact absurd hwork (hw o)
        | _ => rfl
      simp [Call.begun, Caller.rejected, hc, hfinished]
    | finished o hm hc hp hw => simp [Call.begun, Work.finished, hc, hw]
    | _ => simp_all

theorem step?_outstanding (h : g.step? a = some g') :
    g'.outstanding = g.outstanding + a.begins.toNat - a.ends.toNat := by
  have hnone (ha : a.own? = none) : a.begins = false ∧ a.ends = false := by
    cases a <;> first | exact ⟨rfl, rfl⟩ | cases ha
  cases step?_moves h with
  | own c k k' r ds ha hk hr htouched hturn => exact htouched.outstanding
  | cut request ha hcuts hsevered => simp [hsevered.outstanding, hnone ha]
  | aside ha haside => simp [haside.outstanding, hnone ha]

theorem Severed.countP_counted {request : Nat} (h : Severed g request g') :
    g'.calls.countP Call.counted = g.calls.countP Call.counted := by
  have hmap : g'.calls.map Call.counted = g.calls.map Call.counted :=
    h.map_calls fun k work asked hcut => by simp [Call.counted, Call.begun, Call.ended, hcut.finished]
  have hcount := congrArg (List.countP id) hmap
  rwa [List.countP_map, List.countP_map] at hcount

theorem counted_step (hs : ∀ c v, g.view? c = some v → v.Stage)
    (hg : g.outstanding = g.calls.countP Call.counted) (h : g.step? a = some g') :
    g'.outstanding = g'.calls.countP Call.counted := by
  have hmoves := step?_moves h
  have houtstanding := step?_outstanding h
  cases hmoves with
  | own c k k' r ds ha hk hr htouched hturn =>
    have hstage := hs c _ (view?_eq hk hr)
    have hbefore := hstage.counted_toNat
    have hafter := (hturn.stage hstage).counted_toNat
    have hbegun := hturn.begun hstage
    have hended := hturn.ended hstage
    have hset := countP_set_add (P := Call.counted) hk k'
    rw [← htouched.calls] at hset
    simp only [viewOf] at hbefore hafter hbegun hended
    -- One more begins or one more ends, and the count follows both.
    omega
  | cut request ha hcuts hsevered => rw [hsevered.countP_counted, hsevered.outstanding, hg]
  | aside ha haside =>
    rw [haside.outstanding, hg]
    rcases haside.calls with hcalls | ⟨k, hcalls, hcaller, -⟩
    · rw [hcalls]
    · simp [hcalls, Call.counted, Call.begun, hcaller]

/-! ## Those who wait -/

/-- What an action is to those who wait. -/
inductive Waits (g : Generator) (a : Action) (g' : Generator) : Prop
  | still (hwaits : g'.waits = g.waits) (hparked : g'.parked = g.parked) (hwoken : g'.woken = g.woken)
      (hends : a.ends = true → g'.outstanding ≠ 0)
  | wake (hwaits : g'.waits = g.waits) (hparked : g'.parked = []) (hwoken : g'.woken = g.woken ++ g.parked)
  | come (closes : Bool) (ha : a.ends = false) (hwaits : g'.waits = g.waits ++ [{ closes := closes }])
      (hparked : g'.parked = g.parked) (hwoken : g'.woken = g.woken)
  | pass (w : Nat) (wait : Wait) (ha : a.ends = false) (hw : g.waits[w]? = some wait)
      (hzero : g.outstanding = 0)
      (hwaits : g'.waits = g.waits.set w { wait with phase := if wait.closes then .closing else .returned })
      (hparked : g'.parked = g.parked) (hwoken : g'.woken = g.woken.erase w)
  | park (w : Nat) (wait : Wait) (ha : a.ends = false) (hw : g.waits[w]? = some wait)
      (hpositive : g.outstanding ≠ 0) (hwaits : g'.waits = g.waits.set w { wait with phase := .waiting })
      (hparked : g'.parked = g.parked ++ [w]) (hwoken : g'.woken = g.woken.erase w)
  | shut (w : Nat) (closes : Bool) (ha : a.ends = false) (hw : g.waits[w]? = some ⟨closes, .closing⟩)
      (hwaits : g'.waits = g.waits.set w ⟨closes, .returned⟩) (hparked : g'.parked = g.parked)
      (hwoken : g'.woken = g.woken)

theorem Severed.still {request : Nat} (h : Severed g request g') (ha : a.ends = false) : Waits g a g' :=
  .still h.waits h.parked h.woken (by simp [ha])

theorem step?_waits (h : g.step? a = some g') : Waits g a g' := by
  cases step?_happens h with
  | acted c k k' r ds ha hk hr htouched =>
    rcases htouched.woken with ⟨hparked, hwoken, hends⟩ | ⟨hparked, hwoken⟩
    · exact .still htouched.waits hparked hwoken hends
    · exact .wake htouched.waits hparked hwoken
  | expired c k r ha hk hr hstep =>
    subst ha
    exact (expire_severed hk hr hstep).still rfl
  | apart hcall hapart =>
    cases hapart with
    | request | callDirect | callPooled | tune | close => exact .still rfl rfl rfl nofun
    | cancel m q hq => exact (cancelRequest_severed g m).still rfl
    | await closes => exact .come closes rfl rfl rfl rfl
    | look w wait hw =>
      unfold lookAt
      simp only
      split
      next hzero => exact .pass w wait rfl hw hzero rfl rfl rfl
      next hne => exact .park w wait rfl hw hne rfl rfl rfl
    | shut w closes pool hw hpool => exact .shut w closes rfl hw rfl rfl rfl

/-- Nobody waits without a reason: whoever waits is parked or about to look again, and there is somebody parked
only while calls are under way. -/
structure Waited (g : Generator) : Prop where
  known : ∀ (w : Nat) (wait : Wait), g.waits[w]? = some wait → wait.phase = .waiting → w ∈ g.parked ∨ w ∈ g.woken
  busy : g.parked ≠ [] → 0 < g.outstanding

theorem getElem?_set_cases {w u : Nat} {wait new : Wait} {waits : List Wait}
    (h : (waits.set w new)[u]? = some wait) : wait = new ∨ (u ≠ w ∧ waits[u]? = some wait) := by
  rw [List.getElem?_set] at h
  by_cases hu : w = u
  · rw [if_pos hu] at h
    split at h
    · exact .inl (Option.some.inj h).symm
    · cases h
  · rw [if_neg hu] at h
    exact .inr ⟨Ne.symm hu, h⟩

theorem Waited.known_of_erase {w u : Nat} {wait : Wait} (hg : Waited g) (hu : u ≠ w)
    (hwait : g.waits[u]? = some wait) (hphase : wait.phase = .waiting) : u ∈ g.parked ∨ u ∈ g.woken.erase w :=
  (hg.known u wait hwait hphase).imp_right (List.mem_erase_of_ne hu).2

theorem Waits.known (h : Waits g a g') (hg : Waited g) {u : Nat} {wait : Wait} (hu : g'.waits[u]? = some wait)
    (hphase : wait.phase = .waiting) : u ∈ g'.parked ∨ u ∈ g'.woken := by
  cases h with
  | still hwaits hparked hwoken hends => exact hparked ▸ hwoken ▸ hg.known u wait (hwaits ▸ hu) hphase
  | wake hwaits hparked hwoken =>
    rw [hwoken, List.mem_append]
    exact .inr (hg.known u wait (hwaits ▸ hu) hphase).symm
  | come closes ha hwaits hparked hwoken =>
    rw [hparked, hwoken]
    rw [hwaits, List.getElem?_append] at hu
    split at hu
    · exact hg.known u wait hu hphase
    · obtain rfl := List.mem_singleton.1 (List.mem_of_getElem? hu)
      cases hphase
  | pass w waiting ha hw hzero hwaits hparked hwoken =>
    rw [hparked, hwoken]
    rw [hwaits] at hu
    rcases getElem?_set_cases hu with rfl | ⟨hne, hu⟩
    · cases hcloses : waiting.closes <;> simp [hcloses] at hphase
    · exact hg.known_of_erase hne hu hphase
  | park w waiting ha hw hpositive hwaits hparked hwoken =>
    -- Whoever looks in vain goes from the woken to the parked.
    rw [hparked, hwoken, List.mem_append]
    by_cases hne : u = w
    · exact .inl (.inr (by simp [hne]))
    · rw [hwaits, List.getElem?_set_ne (Ne.symm hne)] at hu
      exact (hg.known_of_erase hne hu hphase).imp_left .inl
  | shut w closes ha hw hwaits hparked hwoken =>
    rw [hparked, hwoken]
    rw [hwaits] at hu
    rcases getElem?_set_cases hu with rfl | ⟨-, hu⟩
    · cases hphase
    · exact hg.known u wait hu hphase

theorem Waits.busy (h : Waits g a g') (hg : Waited g)
    (houtstanding : g'.outstanding = g.outstanding + a.begins.toNat - a.ends.toNat) (hbefore : 0 ≤ g.outstanding)
    (hafter : 0 ≤ g'.outstanding) (hne : g'.parked ≠ []) : 0 < g'.outstanding := by
  have hgrows (ha : a.ends = false) : g.outstanding ≤ g'.outstanding := by
    rw [ha] at houtstanding
    simp only [Bool.toNat_false] at houtstanding
    omega
  cases h with
  | still hwaits hparked hwoken hends =>
    -- The last call to end wakes all, so this action is no such end.
    have hpositive := hg.busy (hparked ▸ hne)
    cases ha : a.ends with
    | true =>
      have := hends ha
      omega
    | false =>
      have := hgrows ha
      omega
  | wake hwaits hparked => exact absurd hparked hne
  | come closes ha hwaits hparked | shut w closes ha hw hwaits hparked =>
    have := hg.busy (hparked ▸ hne)
    have := hgrows ha
    omega
  | pass w wait ha hw hzero hwaits hparked =>
    have := hg.busy (hparked ▸ hne)
    omega
  | park w wait ha hw hpositive =>
    have := hgrows ha
    omega

theorem Waits.waited (h : Waits g a g') (hg : Waited g)
    (houtstanding : g'.outstanding = g.outstanding + a.begins.toNat - a.ends.toNat) (hbefore : 0 ≤ g.outstanding)
    (hafter : 0 ≤ g'.outstanding) : Waited g' where
  known _ _ := h.known hg
  busy := h.busy hg houtstanding hbefore hafter

/-- Somebody comes to the end of waiting only when no call is counted. -/
theorem Waits.zero {w : Nat} {wait wait' : Wait} (h : Waits g a g') (hw : g.waits[w]? = some wait)
    (hw' : g'.waits[w]? = some wait') (hbefore : wait.phase = .arriving ∨ wait.phase = .waiting)
    (hafter : wait'.phase = .closing ∨ wait'.phase = .returned) : g.outstanding = 0 := by
  have hlt := (List.getElem?_eq_some_iff.1 hw).1
  -- Whoever is still where he was has not come to the end of waiting.
  have hsame (h : g.waits[w]? = some wait') : g.outstanding = 0 := by
    obtain rfl := Option.some.inj (hw.symm.trans h)
    rcases hbefore with hb | hb <;> simp [hb] at hafter
  cases h with
  | still hwaits => exact hsame (hwaits ▸ hw')
  | wake hwaits => exact hsame (hwaits ▸ hw')
  | come closes ha hwaits => exact hsame (by rwa [hwaits, List.getElem?_append_left hlt] at hw')
  | pass u waiting ha hu hzero => exact hzero
  | park u waiting ha hu hpositive hwaits =>
    rw [hwaits] at hw'
    rcases getElem?_set_cases hw' with rfl | ⟨-, hw'⟩
    · simp at hafter
    · exact hsame hw'
  | shut u closes ha hu hwaits =>
    rw [hwaits, List.getElem?_set] at hw'
    split at hw'
    next heq =>
      subst heq
      obtain rfl := Option.some.inj (hw.symm.trans hu)
      rcases hbefore with hb | hb <;> cases hb
    next => exact hsame hw'

theorem look_passes {w : Nat} {wait : Wait} (hw : g.waits[w]? = some wait) (hphase : wait.phase = .waiting)
    (hwoken : w ∈ g.woken) (hzero : g.outstanding = 0) :
    ∃ g' wait', g.step? (.look w) = some g' ∧ g'.waits[w]? = some wait' ∧
      (wait'.phase = .closing ∨ wait'.phase = .returned) := by
  have hlt := (List.getElem?_eq_some_iff.1 hw).1
  refine ⟨g.lookAt w wait, { wait with phase := if wait.closes then .closing else .returned }, ?_, ?_, ?_⟩
  · simp [step?, hw, hphase, hwoken]
  · simp [lookAt, hzero, hlt]
  · cases wait.closes <;> simp

/-! ## Whole runs -/

theorem run_outstanding (h : g.run? as = some g') :
    g'.outstanding = g.outstanding + as.countP Action.begins - as.countP Action.ends := by
  induction as generalizing g with
  | nil =>
    obtain rfl := Option.some.inj h
    simp
  | cons a rest ih =>
    obtain ⟨g₁, hfirst, hrest⟩ := Option.bind_eq_some_iff.1 h
    rw [ih hrest, step?_outstanding hfirst, List.countP_cons, List.countP_cons]
    cases a.begins <;> cases a.ends <;> simp <;> omega

/-- The count in every state of a run. -/
structure Sound (g : Generator) : Prop where
  tied : Tied g
  stage : ∀ c v, g.view? c = some v → v.Stage
  counted : g.outstanding = g.calls.countP Call.counted
  waited : Waited g

theorem new_sound (plan : Plan) (concurrency : Int) (clock : Double) : Sound (new plan concurrency clock) where
  tied := new_tied plan concurrency clock
  stage c v hv := by simp [view?, new] at hv
  counted := rfl
  waited := ⟨by simp [new], by simp [new]⟩

theorem step?_sound (hg : Sound g) (h : g.step? a = some g') : Sound g' where
  tied := (step?_moves h).tied hg.tied
  stage c v' hv' := by
    cases hv : g.view? c with
    | none => exact (step?_fresh hg.tied h hv hv').1.stage
    | some v =>
      have hs := hg.stage c v hv
      rcases step?_view hg.tied h hv with ⟨-, w, hw, hturn⟩ | ⟨-, work, hw, hcut, -⟩
      · obtain rfl := Option.some.inj (hw.symm.trans hv')
        exact hturn.stage hs
      · obtain rfl := Option.some.inj (hw.symm.trans hv')
        exact hcut.stage hs
  counted := counted_step hg.stage hg.counted h
  waited := by
    have hbefore := hg.counted
    have hafter := counted_step hg.stage hg.counted h
    exact (step?_waits h).waited hg.waited (step?_outstanding h) (by omega) (by omega)

theorem run_sound {concurrency : Int} {clock : Double} (h : (new plan concurrency clock).run? as = some g) :
    Sound g :=
  run_inv step?_sound (new_sound plan concurrency clock) h

theorem Sound.all_ended (hg : Sound g) (hzero : g.outstanding = 0) (hv : g.view? c = some v)
    (hbegun : v.call.begun = true) : v.call.ended = true := by
  obtain ⟨r, hk, -⟩ := view?_eq_some hv
  have hcount : g.calls.countP Call.counted = 0 := by
    have := hg.counted
    omega
  have := List.countP_eq_zero.1 hcount v.call (List.mem_of_getElem? hk)
  simpa [Call.counted, hbegun] using this

theorem Sound.zero (hg : Sound g) (hended : ∀ k ∈ g.calls, k.begun = true → k.ended = true) :
    g.outstanding = 0 := by
  rw [hg.counted, List.countP_eq_zero.2]
  · rfl
  · intro k hk
    cases hb : k.begun <;> simp_all [Call.counted]

theorem countP_add {α : Type} {p q r : α → Bool} {l : List α}
    (h : ∀ a ∈ l, (p a).toNat = (q a).toNat + (r a).toNat) : l.countP p = l.countP q + l.countP r := by
  induction l with
  | nil => rfl
  | cons a rest ih =>
    have ha := h a (by simp)
    rw [List.countP_cons, List.countP_cons, List.countP_cons, ih fun b hb => h b (List.mem_cons_of_mem a hb)]
    cases hp : p a <;> cases hq : q a <;> cases hr : r a <;> simp_all <;> omega

/-- What the count of calls under way is, and what it tells those who wait. -/
structure Accounted (g : Generator) (as : List Action) : Prop where
  /-- It is the number of direct calls in progress and of pooled calls that are neither rejected nor finished. -/
  outstanding : g.outstanding = g.calls.countP (fun k => k.mode = .direct && k.caller = .inside) +
    g.calls.countP fun k => k.mode = .pooled && (k.begun && !(k.caller.rejected || k.work.finished))
  nonneg : 0 ≤ g.outstanding
  changes : g.outstanding = as.countP Action.begins - as.countP Action.ends
  seen : ∀ (c : Nat) (k : Call), g.calls[c]? = some k → ∃ v, g.view? c = some v ∧ v.call = k
  /-- A call is counted once when it begins, and taken off the count once when it ends, -/
  once : ∀ c v, g.view? c = some v → (actionsOf c as).countP Action.begins = v.call.begun.toNat ∧
    (actionsOf c as).countP Action.ends = v.call.ended.toNat ∧ (v.call.ended = true → v.call.begun = true)
  /-- and it does not stop before that, unless it waits for the pool. -/
  through : ∀ c v, g.view? c = some v → v.call.begun = true → (∀ a, a.own? = some c → g.step? a = none) →
    v.call.ended = true ∨ v.phase = some .waiting
  /-- Waiting ends only when all calls that have begun have ended and their results are on the queue. -/
  wait : ∀ (a : Action) (g' : Generator) (w : Nat) (wait wait' : Wait), g.step? a = some g' →
    g.waits[w]? = some wait → g'.waits[w]? = some wait' →
    (wait.phase = .arriving ∨ wait.phase = .waiting) → (wait'.phase = .closing ∨ wait'.phase = .returned) →
      ∀ c v, g.view? c = some v → v.call.begun = true → v.call.ended = true ∧
        (v.call.mode = .pooled → v.asked.queued = true → v.call.caller.rejected = false → v.Served g.plan c)
  /-- Nobody is parked for nothing. -/
  parked : ∀ (w : Nat) (wait : Wait), g.waits[w]? = some wait → wait.phase = .waiting → w ∉ g.woken →
    0 < g.outstanding
  /-- When all calls have ended, whoever still waits is about to come to the end of waiting. -/
  free : (∀ k ∈ g.calls, k.begun = true → k.ended = true) → ∀ (w : Nat) (wait : Wait), g.waits[w]? = some wait →
    wait.phase = .waiting → ∃ g' wait', g.step? (.look w) = some g' ∧ g'.waits[w]? = some wait' ∧
      (wait'.phase = .closing ∨ wait'.phase = .returned)

/-- **Calls are accounted for.** The callback of a plan is an observer, which returns or fails: with one that ends with
more than an error a worker dies without counting its call down, and whoever waits goes on waiting. -/
theorem outstanding_accounted {plan : Plan} {concurrency : Int} {clock : Double} {as : List Action} {g : Generator}
    (h : (new plan concurrency clock).run? as = some g) : Accounted g as := by
  have hg := run_sound h
  have hplan : g.plan = plan := run_plan h
  constructor
  · rw [hg.counted, ← Int.natCast_add, countP_add]
    intro k hk
    obtain ⟨c, hc⟩ := List.getElem?_of_mem hk
    obtain ⟨r, -, hv⟩ := hg.tied.view? hc
    exact (hg.stage c _ hv).counted_split
  · rw [hg.counted]
    omega
  · simpa [new] using run_outstanding h
  · intro c k hk
    obtain ⟨r, -, hv⟩ := hg.tied.view? hk
    exact ⟨_, hv, rfl⟩
  · intro c v hv
    have hinv := run_view_inv h hv
    exact ⟨hinv.begun, hinv.ended, hinv.stage.begun_of_ended⟩
  · intro c v hv hbegun hnone
    cases hended : v.call.ended with
    | true => exact .inl rfl
    | false =>
      refine .inr ((counted_goes_on hv (hg.stage c v hv) hbegun hended).resolve_right ?_)
      rintro ⟨a, hown, hsome⟩
      simp [hnone a hown] at hsome
  · intro a g' w wait wait' hstep hw hw' hbefore hafter c v hv hbegun
    have hzero := (step?_waits hstep).zero hw hw' hbefore hafter
    have hended := hg.all_ended hzero hv hbegun
    refine ⟨hended, fun hm hq hrejected => ?_⟩
    exact hplan ▸ (run_view_inv h hv).served_of_ended hm hq hended hrejected
  · intro w wait hw hphase hwoken
    have hparked := (hg.waited.known w wait hw hphase).resolve_right hwoken
    exact hg.waited.busy (List.ne_nil_of_mem hparked)
  · intro hended w wait hw hphase
    have hzero := hg.zero hended
    have hwoken : w ∈ g.woken := by
      rcases hg.waited.known w wait hw hphase with hparked | hwoken
      · have := hg.waited.busy (List.ne_nil_of_mem hparked)
        omega
      · exact hwoken
    exact look_passes hw hphase hwoken hzero

/-- Somebody waits for a direct call, is parked meanwhile and looks again when it has ended. -/
def awaitedCall : List Action :=
  [.request { media := "in.mp4" }, .call 0 .direct, .count 0, .await false, .look 0, .arm 0, .launch 0, .exit 0,
    .deliver 0, .leave 0, .look 0]

theorem outstanding_accounted_awaited : ∃ g, (new barePlan 1).run? awaitedCall = some g ∧ g.outstanding = 0 ∧
    g.waits = [⟨false, .returned⟩] ∧ Accounted g awaitedCall := by
  have hseen : ((new barePlan 1).run? awaitedCall).map (fun g => (g.outstanding, g.waits)) =
      some (0, [⟨false, .returned⟩]) := by decide +kernel
  obtain ⟨g, hg, hfields⟩ := Option.map_eq_some_iff.1 hseen
  obtain ⟨hzero, hwaits⟩ := Prod.mk.inj hfields
  exact ⟨g, hg, hzero, hwaits, outstanding_accounted hg⟩

end Thumbnailer.Generator
