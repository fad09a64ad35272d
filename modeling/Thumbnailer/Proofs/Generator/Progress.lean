import Thumbnailer.Proofs.Generator.Counter
import Thumbnailer.Proofs.Pool.Wakeups

/-!
# Calls come to their end

Calls that go on by themselves lower the rank of the generator, and as long as a call is under way some call can go
on. So every call ends when nothing is asked of the generator any more: `run_rank` and `Backed.all_ended`.
-/

namespace Thumbnailer

namespace Pool

variable {p q : Pool} {a : Action}

/-! ## Pools without joiners -/

/-- Only submitters wait at the pool, and none of them without a reason. -/
structure Sound (p : Pool) : Prop where
  waited : Waited p
  counted : p.Counted
  joins : p.joins = []
  capacity : 0 < p.capacity

theorem new_sound (capacity : Int) (name : String) : Sound (new capacity name) :=
  ⟨new_waited capacity name, new_counted capacity name, rfl, capacityOf_pos capacity⟩

theorem Step.sound (h : Step p a q) (ha : a.joins = false) (hp : Sound p) : Sound q where
  waited := h.waited hp.waited hp.counted
  counted := h.counted hp.counted
  joins := by
    cases h with
    | join | pass | rest => cases ha
    | _ => exact hp.joins
  capacity := by
    cases h with
    | tune n => exact capacityOf_pos n
    | _ => exact hp.capacity

theorem Leads.sound (h : Leads p q) (hp : Sound p) : Sound q := by
  induction h with
  | refl => exact hp
  | step h hstep ha ih => exact hstep.sound ha ih

theorem Sound.woken_le (hp : Sound p) : p.woken.length ≤ p.tasks.length := by
  have hle := hp.waited.woken_le
  rwa [seats, hp.joins] at hle

theorem Sound.slot_taken (hp : Sound p) {i : Nat} (hi : .submitter i ∈ p.parked) :
    ∃ j phase, p.phase? j = some phase ∧ phase.holdsSlot = true := by
  have hfull := (hp.waited.full i hi).2
  have hpositive := hp.capacity
  have hcounted := hp.counted
  rw [Counted] at hcounted
  obtain ⟨t, ht, hslot⟩ := List.countP_pos_iff.1 (show 0 < p.slots by omega)
  obtain ⟨j, hj⟩ := List.getElem?_of_mem ht
  exact ⟨j, t.phase, phase?_eq_some.2 ⟨t, hj, rfl⟩, hslot⟩

end Pool

namespace Generator

variable {g g' : Generator} {a : Action} {as : List Action} {c : Nat} {k : Call} {plan : Plan}

/-! ## What is ahead of all calls -/

/-- How many actions of its own bring a call to its end at most, not counting looks by which it goes on waiting. -/
def Call.toGo (k : Call) (phase : Option Pool.Phase) : Nat :=
  match k.caller, phase with
  | .calling, _ => 11
  | _, some .arriving => 10
  | _, some .waiting => 9
  | _, some (.admitted _) => 8
  | _, some (.stuck _) => 2
  | _, some (.running _) => k.caller.ahead + k.work.ahead
  | _, some _ => k.caller.ahead
  | _, none => k.work.ahead

def View.toGo (v : View) : Nat := v.call.toGo v.phase

theorem View.Stage.toGo_of_admitted {v : View} (hs : v.Stage) (ha : v.admitted = true) : v.toGo = v.ahead := by
  unfold View.toGo Call.toGo View.ahead
  cases hs with
  | calling hc hp | direct hm hc hp | finished o hm hc hp => simp [View.admitted, hp] at ha
  | blocked hm hc hp => rcases hp with hp | hp <;> simp [View.admitted, hp] at ha
  | running n hm hc hp | done n o hm hc hp => rcases hc with hc | ⟨id, hc⟩ <;> simp [hc, hp]
  | _ => simp_all

theorem View.Runs.toGo_lt {v w : View} (h : v.Runs) (ha : v.admitted = false) (hphase : w.phase = v.phase)
    (hcaller : w.call.caller ≠ .calling) (hwork : w.call.work.ahead < v.call.work.ahead) : w.toGo < v.toGo := by
  rcases h with ⟨-, hc, hp⟩ | ⟨-, -, n, hp⟩
  · have hv : v.toGo = v.call.work.ahead := by simp [View.toGo, Call.toGo, hc, hp]
    have hw : w.toGo = w.call.work.ahead := by
      unfold View.toGo Call.toGo
      rw [hphase.trans hp]
      cases hc' : w.call.caller <;> simp_all
    omega
  · simp [View.admitted, hp] at ha

theorem Turn.toGo {v v' : View} (h : Turn plan c v a v') (hs : v.Stage) :
    v'.toGo < v.toGo ∨ (a = .enter c ∧ v.phase = some .waiting ∧ v'.toGo = v.toGo) := by
  have hs' := h.stage hs
  -- What an admitted call has ahead was counted before; what is left are direct calls and submitters.
  cases hadmitted : v.admitted with
  | true =>
    obtain ⟨hadmitted', hless⟩ := h.ahead hs hadmitted
    rw [hs.toGo_of_admitted hadmitted, hs'.toGo_of_admitted hadmitted']
    exact .inl hless
  | false =>
    cases h with
    | countDirect hc hm =>
      obtain ⟨hp, hw⟩ := hs.of_calling hc
      simp [View.toGo, Call.toGo, hc, hp, hw, Work.ahead]
    | countPooled i hc hm => simp [View.toGo, Call.toGo, hc]
    | park hp =>
      have hc := (hs.of_blocked hp).2.1
      rcases hp with hp | hp <;> simp [View.toGo, Call.toGo, hc, hp]
    | enter n hp | refuse hp =>
      have hc := (hs.of_blocked hp).2.1
      rcases hp with hp | hp <;> simp [View.toGo, Call.toGo, Caller.ahead, hc, hp]
    | start n hp | stick n hp | giveBack n hp | release n o hw hp => simp [View.admitted, hp] at hadmitted
    | answer id n hc hp => rcases hp with hp | hp | hp <;> simp [View.admitted, hp] at hadmitted
    | abandon why hc => simp [View.toGo, Call.toGo, Caller.ahead, hc, hs.of_leaving hc]
    | arm since hr hw =>
      have hruns := hs.of_mayRun hr
      refine .inl (hruns.toGo_lt hadmitted rfl ?_ (by simp [hw, Work.ahead]))
      rcases hruns with ⟨-, hc, -⟩ | ⟨-, hc | ⟨id, hc⟩, -⟩ <;> simp [hc]
    | skip since expired id hw | fail since expired id o hw | launch since opened expired id stdout hw
    | exit since opened duration id stdout hw | deliver since duration o hw | keep since o hw
    | leavePooled o hw =>
      have hruns := hs.of_work (by simp [hw]) (by simp [hw])
      refine .inl (hruns.toGo_lt hadmitted rfl ?_ (by simp [hw, Work.ahead]))
      rcases hruns with ⟨-, hc, -⟩ | ⟨-, hc | ⟨id, hc⟩, -⟩ <;> simp [hc]
    | leaveDirect o hw hm =>
      exact .inl ((hs.of_work (by simp [hw]) (by simp [hw])).toGo_lt hadmitted rfl (by simp) (by simp [hw, Work.ahead]))

theorem Work.Cut.toGo {v : View} {asked : Request} {work : Work} (h : Work.Cut plan asked v.call.work work) :
    (v.setWork work).toGo ≤ v.toGo := by
  have hwork := h.ahead_le
  unfold View.toGo Call.toGo View.setWork
  split <;> simp_all

def toGoes (g : Generator) : List Nat := g.calls.map fun k => k.toGo (g.phaseOf? k)

/-- What is ahead of all calls counts more than all who may be woken by it. -/
def rank (g : Generator) : Nat := g.toGoes.sum * (g.calls.length + 1) + g.pool.woken.length

theorem Touched.toGoes {k' : Call} {ds : List Delivery} (h : Touched g a c k k' ds g') (hk : g.calls[c]? = some k)
    (ht : Tied g) : g'.toGoes = g.toGoes.set c (k'.toGo (g'.phaseOf? k')) := by
  have hlt := (List.getElem?_eq_some_iff.1 hk).1
  apply List.ext_getElem?
  intro d
  rw [Generator.toGoes, List.getElem?_map, List.getElem?_set]
  by_cases hd : d = c
  · subst hd
    rw [if_pos rfl, Generator.toGoes, List.length_map, if_pos hlt, h.self hk, Option.map_some]
  · rw [if_neg (Ne.symm hd), h.other hd, Generator.toGoes, List.getElem?_map]
    cases hl : g.calls[d]? with
    | none => rfl
    | some l => rw [Option.map_some, Option.map_some, h.phaseOf?_other hk ht hd hl]

theorem Touched.sum_toGoes {k' : Call} {ds : List Delivery} (h : Touched g a c k k' ds g')
    (hk : g.calls[c]? = some k) (ht : Tied g) :
    g'.toGoes.sum + k.toGo (g.phaseOf? k) = g.toGoes.sum + k'.toGo (g'.phaseOf? k') := by
  have hc : g.toGoes[c]? = some (k.toGo (g.phaseOf? k)) := by
    rw [Generator.toGoes, List.getElem?_map, hk, Option.map_some]
  have hset := sum_map_set_add id hc (k'.toGo (g'.phaseOf? k'))
  rwa [← h.toGoes hk ht, List.map_id, List.map_id] at hset

/-! ## The pool of a generator -/

/-- Every task of the pool is one of a call. -/
structure Backed (g : Generator) : Prop where
  sound : Sound g
  pool : g.pool.Sound
  owned : ∀ i, i < g.pool.tasks.length → ∃ (c : Nat) (k : Call), g.calls[c]? = some k ∧ k.task = some i

theorem new_backed (plan : Plan) (concurrency : Int) (clock : Double) : Backed (new plan concurrency clock) where
  sound := new_sound plan concurrency clock
  pool := Pool.new_sound concurrency "ffthumbs"
  owned i hi := absurd hi (Nat.not_lt_zero i)

theorem Turn.task {v v' : View} (h : Turn plan c v a v') :
    v'.call.task = v.call.task ∨ v.call.caller = .calling := by
  cases h with
  | countPooled i hc => exact .inr hc
  | _ => exact .inl rfl

theorem Backed.no_task (hg : Backed g) (hk : g.calls[c]? = some k) (hc : k.caller = .calling) : k.task = none := by
  obtain ⟨r, hr, hv⟩ := hg.sound.tied.view? hk
  have hphase : g.phaseOf? k = none := ((hg.sound.stage c _ hv).of_calling hc).1
  cases htask : k.task with
  | none => rfl
  | some i =>
    rw [phaseOf?_eq htask, Pool.phase?, List.getElem?_eq_getElem (hg.sound.tied.task c k i hk htask)] at hphase
    cases hphase

theorem Touched.owned {k' : Call} {ds : List Delivery} (h : Touched g a c k k' ds g') (hg : Backed g)
    (hk : g.calls[c]? = some k) (htask : k'.task = k.task ∨ k.caller = .calling) (i : Nat)
    (hi : i < g'.pool.tasks.length) : ∃ (d : Nat) (l : Call), g'.calls[d]? = some l ∧ l.task = some i := by
  by_cases hself : k'.task = some i
  · exact ⟨c, k', h.self hk, hself⟩
  · -- A task that is not the one of the call was there before.
    have hphase := h.pool.others i hself
    rw [Pool.phase?, List.getElem?_eq_getElem hi] at hphase
    obtain ⟨t, ht, -⟩ := Pool.phase?_eq_some.1 hphase.symm
    obtain ⟨d, l, hl, hli⟩ := hg.owned i (List.getElem?_eq_some_iff.1 ht).1
    by_cases hd : d = c
    · subst hd
      obtain rfl : k = l := Option.some.inj (hk.symm.trans hl)
      rcases htask with hsame | hc
      · exact absurd (hsame.trans hli) hself
      · simp [hg.no_task hk hc] at hli
    · exact ⟨d, l, (h.other hd).trans hl, hli⟩

theorem step?_backed (hg : Backed g) (h : g.step? a = some g') : Backed g' where
  sound := step?_sound hg.sound h
  pool := (step?_leads h).sound hg.pool
  owned i hi := by
    cases step?_moves h with
    | own c k k' r ds ha hk hr htouched hturn => exact htouched.owned hg hk hturn.task i hi
    | cut request ha hcuts hsevered =>
      obtain ⟨c, k, hk, htask⟩ := hg.owned i (hsevered.pool ▸ hi)
      obtain ⟨work, hk', -⟩ := hsevered.calls c k hk
      exact ⟨c, _, hk', htask⟩
    | aside ha haside =>
      obtain ⟨c, k, hk, htask⟩ := hg.owned i (haside.length ▸ hi)
      refine ⟨c, k, ?_, htask⟩
      rcases haside.calls with hcalls | ⟨l, hcalls, -⟩
      · rwa [hcalls]
      · rwa [hcalls, List.getElem?_append_left (List.getElem?_eq_some_iff.1 hk).1]

theorem run_backed {concurrency : Int} {clock : Double} (h : (new plan concurrency clock).run? as = some g) :
    Backed g :=
  run_inv step?_backed (new_backed plan concurrency clock) h

theorem Backed.tasks_le (hg : Backed g) : g.pool.tasks.length ≤ g.calls.length := by
  have hsubset : List.range g.pool.tasks.length ⊆ g.calls.filterMap Call.task := by
    intro i hi
    obtain ⟨c, k, hk, htask⟩ := hg.owned i (List.mem_range.1 hi)
    exact List.mem_filterMap.2 ⟨k, List.mem_of_getElem? hk, htask⟩
  have hle := List.nodup_range.length_le_of_subset hsubset
  rw [List.length_range] at hle
  exact Nat.le_trans hle (List.length_filterMap_le _ _)

/-! ## The rank goes down -/

theorem enter_pool (h : g.step? (.enter c) = some g') (hk : g.calls[c]? = some k) :
    ∃ i, k.task = some i ∧ g.pool.step? (.enter i) = some g'.pool := by
  obtain ⟨l, r, hl, hr, hstep⟩ := callStep?_of_step? h (c := c) rfl
  obtain rfl : k = l := Option.some.inj (hk.symm.trans hl)
  simp only [callStep?, Option.map_eq_some_iff] at hstep
  obtain ⟨g₁, h₁, rfl⟩ := hstep
  obtain ⟨i, p, hi, hp, rfl⟩ := onPool?_eq_some h₁
  refine ⟨i, hi, ?_⟩
  split <;> exact hp

theorem step?_rank (hg : Backed g) (h : g.step? a = some g') (ha : a.own?.isSome) : g'.rank < g.rank := by
  have hg' := step?_backed hg h
  have hwoken : g'.pool.woken.length ≤ g'.calls.length := Nat.le_trans hg'.pool.woken_le hg'.tasks_le
  cases step?_moves h with
  | cut request hnone => simp [hnone] at ha
  | aside hnone => simp [hnone] at ha
  | own c k k' r ds hown hk hr htouched hturn =>
    have hsum := htouched.sum_toGoes hk hg.sound.tied
    have hlength : g'.calls.length = g.calls.length := by rw [htouched.calls, List.length_set]
    rw [hlength] at hwoken
    rw [rank, rank, hlength]
    have hturn := hturn.toGo (hg.sound.stage c _ (view?_eq hk hr))
    simp only [View.toGo, viewOf] at hturn
    rcases hturn with hless | ⟨rfl, hphase, hsame⟩
    · -- One action less ahead outweighs all who may have been woken by it.
      have hmul : (g'.toGoes.sum + 1) * (g.calls.length + 1) ≤ g.toGoes.sum * (g.calls.length + 1) :=
        Nat.mul_le_mul_right _ (by omega)
      rw [Nat.add_mul] at hmul
      omega
    · obtain ⟨i, hi, hpool⟩ := enter_pool h hk
      have hless := (Pool.step?_eq_some.1 hpool).woken_lt ((phaseOf?_eq hi).symm.trans hphase)
      have hsums : g'.toGoes.sum = g.toGoes.sum := by omega
      rw [hsums]
      omega

theorem run_rank (hg : Backed g) (h : g.run? as = some g') (has : ∀ a ∈ as, a.own?.isSome) :
    as.length + g'.rank ≤ g.rank := by
  induction as generalizing g with
  | nil =>
    obtain rfl := Option.some.inj h
    simp
  | cons a rest ih =>
    obtain ⟨g₁, hfirst, hrest⟩ := Option.bind_eq_some_iff.1 h
    have hless := step?_rank hg hfirst (has a (by simp))
    have hle := ih (step?_backed hg hfirst) hrest fun b hb => has b (List.mem_cons_of_mem a hb)
    rw [List.length_cons]
    omega

/-! ## Nobody is stuck -/

theorem count_isSome {r : Request} (hk : g.calls[c]? = some k) (hr : g.requestOf? k = some r)
    (hc : k.caller = .calling) : (g.step? (.count c)).isSome := by
  rw [step?_eq_callStep? (c := c) rfl, hk, Option.bind_some, hr, Option.bind_some]
  simp only [callStep?, if_pos hc]
  split <;> rfl

/-- A call that waits at the pool was woken, or another call holds a slot. -/
theorem Backed.waiting (hg : Backed g) {v : View} (hv : g.view? c = some v) (hp : v.phase = some .waiting) :
    (g.step? (.enter c)).isSome ∨
      ∃ d w phase, g.view? d = some w ∧ w.phase = some phase ∧ phase.holdsSlot = true := by
  obtain ⟨r, hk, hr, hphase⟩ := view?_phase hv
  obtain ⟨i, hi, hpool⟩ := phase?_of_phaseOf? (hphase.trans hp)
  by_cases hwoken : .submitter i ∈ g.pool.woken
  · refine .inl ?_
    rw [step?_eq_callStep? (c := c) rfl, hk, Option.bind_some, hr, Option.bind_some]
    simp [callStep?, onPool?, hi, (Pool.MayEnter.woken hpool hwoken).step?]
  · obtain ⟨j, phase, hj, hslot⟩ := hg.pool.slot_taken (hg.pool.waited.parked (w := .submitter i) hpool hwoken)
    obtain ⟨t, ht, -⟩ := Pool.phase?_eq_some.1 hj
    obtain ⟨d, l, hl, hlj⟩ := hg.owned j (List.getElem?_eq_some_iff.1 ht).1
    obtain ⟨q, -, hw⟩ := hg.sound.tied.view? hl
    exact .inr ⟨d, _, phase, hw, (phaseOf?_eq hlj).trans hj, hslot⟩

theorem Backed.holder_goes_on (hg : Backed g) {v : View} {phase : Pool.Phase} (hv : g.view? c = some v)
    (hp : v.phase = some phase) (hslot : phase.holdsSlot = true) : ∃ a, a.own? = some c ∧ (g.step? a).isSome := by
  have hs := hg.sound.stage c v hv
  cases phase with
  | admitted n => exact goes_on hv hs (by simp [View.admitted, hp]) (by simp [View.ahead, hp])
  | stuck n => exact goes_on hv hs (by simp [View.admitted, hp]) (by simp [View.ahead, hp])
  | running n =>
    exact goes_on hv hs (by simp [View.admitted, hp]) (by simp [View.ahead, hp, v.call.work.ahead_ne_zero])
  | ended n => cases hs <;> simp_all
  | _ => cases hslot

/-- Where no call can go on all calls have ended. -/
theorem Backed.all_ended (hg : Backed g) (hrest : ∀ a, a.own?.isSome → g.step? a = none)
    (hk : g.calls[c]? = some k) : k.ended = true := by
  have hnot (d : Nat) : ¬ ∃ a, a.own? = some d ∧ (g.step? a).isSome := by
    rintro ⟨a, hown, hsome⟩
    simp [hrest a (by simp [hown])] at hsome
  obtain ⟨r, hr, hv⟩ := hg.sound.tied.view? hk
  have hs := hg.sound.stage c _ hv
  have hbegun : k.begun = true := by
    rw [Call.begun, decide_eq_true_eq]
    exact fun hc => hnot c ⟨.count c, rfl, count_isSome hk hr hc⟩
  cases hended : k.ended with
  | true => rfl
  | false =>
    rcases counted_goes_on hv hs hbegun hended with hp | hgoes
    · rcases hg.waiting hv hp with hsome | ⟨d, w, phase, hw, hphase, hslot⟩
      · exact absurd ⟨.enter c, rfl, hsome⟩ (hnot c)
      · exact absurd (hg.holder_goes_on hw hphase hslot) (hnot d)
    · exact absurd hgoes (hnot c)

end Generator

end Thumbnailer
