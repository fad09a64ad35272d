import Thumbnailer.Proofs.Generator.Calls

/-!
# Lives of calls

What holds of a call on every path that it can take: whose outcome it has, where its result is, how often it was
counted, and how much is ahead of it.
-/

namespace Thumbnailer.Generator

variable {plan : Plan} {c : Nat} {v v' : View} {a : Action} {as : List Action} {work : Work}

/-! ## What runs come to -/

/-- A result of the session that runs a request, but for the time it took. -/
def Ran (plan : Plan) (asked : Request) (o : Result) : Prop :=
  ∃ id cancel duration,
    o = ((plan.session { asked with id }).run asked.child cancel).result.map fun o => { o with duration }

theorem ran_cancelledBefore (plan : Plan) (asked : Request) (id : Nat) :
    Ran plan asked (.ok (plan.session { asked with id }).cancelledBefore) :=
  ⟨id, .beforeStart, .zero false, rfl⟩

theorem ran_failed {plan : Plan} {asked : Request} {id : Nat} {o : Result}
    (h : Result.ofStart? ((plan.session { asked with id }).start asked.child).result = some o) :
    Ran plan asked o := by
  cases o with
  | ok o => exact ⟨id, .never, o.duration, by rw [run_of_ofStart? (by simp) h]; rfl⟩
  | error reason => exact ⟨id, .never, .zero false, by rw [run_of_ofStart? (by simp) h]; rfl⟩

theorem ran_ended {plan : Plan} {asked : Request} {id : Nat} {stdout : List Char}
    (h : ((plan.session { asked with id }).start asked.child).result = .ok (.running stdout)) (ending : Ending)
    (duration : Double) :
    Ran plan asked (.ok ((plan.session { asked with id }).outcome asked.child stdout ending duration)) := by
  obtain ⟨cancel, hcancel, rfl⟩ : ∃ cancel : Cancel, cancel ≠ .beforeStart ∧ cancel.ending = ending := by
    cases ending with
    | exited => exact ⟨.never, by decide, rfl⟩
    | killed => exact ⟨.whileRunning, by decide, rfl⟩
  refine ⟨id, cancel, duration, ?_⟩
  rw [Session.run_of_running hcancel h, Session.finish_eq (plan.session_free _)]
  rfl

/-- An encoder that runs was started by the session, and one that has ended has a result of the session. -/
def Work.Valid (plan : Plan) (asked : Request) : Work → Prop
  | .idle | .armed .. => True
  | .alive _ _ id stdout => ((plan.session { asked with id }).start asked.child).result = .ok (.running stdout)
  | .over _ o | .delivered o | .left o => Ran plan asked o

theorem Turn.work_valid (h : Turn plan c v a v') (hv : v.call.work.Valid plan v.asked) :
    v'.call.work.Valid plan v'.asked := by
  cases h with
  | arm => trivial
  | skip since expired id => exact ran_cancelledBefore plan v.asked id
  | fail since expired id o hw ho => exact ran_failed ho
  | launch since opened expired id stdout hw ho => exact ho
  | exit since opened duration id stdout hw =>
    rw [hw] at hv
    exact ran_ended hv .exited duration
  | deliver since duration o hw | keep since o hw | leaveDirect o hw | leavePooled o hw =>
    rw [hw] at hv
    exact hv
  | _ => exact hv

theorem Work.Cut.valid {asked : Request} {old : Work} (h : Work.Cut plan asked old work)
    (hv : old.Valid plan asked) : work.Valid plan asked := by
  cases h with
  | same => exact hv
  | expire => trivial
  | kill since opened duration id stdout => exact ran_ended hv .killed duration

/-! ## Results -/

/-- The result of a run, once it is delivered. -/
def Work.delivered? : Work → Option Result
  | .delivered o | .left o => some o
  | _ => none

/-- Once the result is delivered it is on the queue, exactly once, and before that it is not there. -/
structure View.Receipt (c : Nat) (v : View) : Prop where
  delivered : ∀ o, v.call.work.delivered? = some o → v.receives = true →
    ∃ duration, v.results = [⟨c, v.call.request, o.error?, duration⟩]
  pending : v.call.work.delivered? = none → v.results = []
  unqueued : v.receives = false → v.results = []

theorem View.Receipt.congr (h : v.Receipt c) (hresults : v'.results = v.results)
    (hrequest : v'.call.request = v.call.request) (hreceives : v'.receives = v.receives)
    (hw : v'.call.work.delivered? = v.call.work.delivered?) : v'.Receipt c := by
  obtain ⟨hdelivered, hpending, hunqueued⟩ := h
  constructor
  · rwa [hw, hreceives, hresults, hrequest]
  · rwa [hw, hresults]
  · rwa [hreceives, hresults]

theorem Turn.receipt (h : Turn plan c v a v') (hv : v.Receipt c) : v'.Receipt c := by
  cases h with
  | arm since hr hw | skip since expired id hw | fail since expired id o hw
  | launch since opened expired id stdout hw | exit since opened duration id stdout hw
  | leaveDirect o hw | leavePooled o hw => exact hv.congr rfl rfl rfl (by rw [hw]; rfl)
  | deliver since duration o hw hr =>
    have hnone : v.results = [] := hv.pending (by rw [hw]; rfl)
    constructor
    · intro o' ho' _
      obtain rfl : o = o' := by simpa [Work.delivered?] using ho'
      exact ⟨duration, by simp [hnone]⟩
    · intro ho
      simp [Work.delivered?] at ho
    · intro (hr' : v.receives = false)
      simp [hr'] at hr
  | keep since o hw hr =>
    constructor
    · intro _ _ (hr' : v.receives = true)
      simp [hr'] at hr
    · intro _
      exact hv.unqueued hr
    · intro _
      exact hv.unqueued hr
  | _ => exact hv.congr rfl rfl rfl rfl

theorem Work.Cut.receipt {asked : Request} (h : Work.Cut plan asked v.call.work work) (hv : v.Receipt c) :
    (v.setWork work).Receipt c := by
  refine hv.congr rfl rfl rfl ?_
  show work.delivered? = v.call.work.delivered?
  generalize v.call.work = old at h
  cases h <;> rfl

/-! ## What a call has done -/

def Work.launched : Work → Bool
  | .idle | .armed .. => false
  | _ => true

theorem Turn.launched (h : Turn plan c v a v') (hl : v.call.work.launched = true ∨ a = .launch c) :
    v'.call.work.launched = true := by
  cases h with
  | arm since hr hw => simp [hw, Work.launched] at hl
  | skip | fail | launch | exit | deliver | keep | leaveDirect | leavePooled => rfl
  | _ => exact hl.resolve_right (by simp)

theorem Work.Cut.launched {asked : Request} {old : Work} (h : Work.Cut plan asked old work)
    (hl : old.launched = true) : work.launched = true := by
  cases h with
  | same => exact hl
  | expire => cases hl
  | kill => rfl

def Action.begins : Action → Bool
  | .count _ => true
  | _ => false

def Action.ends : Action → Bool
  | .abandon _ | .leave _ => true
  | _ => false

def Call.begun (k : Call) : Bool := k.caller ≠ .calling

def Caller.rejected : Caller → Bool
  | .refused _ => true
  | _ => false

/-- The run has come to its end, and its result is where it belongs. -/
def Work.finished : Work → Bool
  | .left _ => true
  | _ => false

def Call.ended (k : Call) : Bool := k.caller.rejected || k.work.finished

theorem Turn.begun (h : Turn plan c v a v') (hs : v.Stage) :
    v'.call.begun.toNat = v.call.begun.toNat + a.begins.toNat := by
  cases h with
  | countDirect hc => simp [Call.begun, Action.begins, hc]
  | countPooled i hc => simp [Call.begun, Action.begins, hc]
  | refuse hp => simp [Call.begun, Action.begins, hs.of_blocked hp]
  | giveBack n hp => simp [Call.begun, Action.begins, hs.of_stuck hp]
  | abandon why hc => simp [Call.begun, Action.begins, hc]
  | answer id n hc => simp [Call.begun, Action.begins, hc]
  | leaveDirect o hw hm =>
    rcases hs.of_work (by simp [hw]) (by simp [hw]) with ⟨-, hc, -⟩ | ⟨hp, -⟩
    · simp [Call.begun, Action.begins, hc]
    · simp [hm] at hp
  | _ => rfl

theorem Turn.ended (h : Turn plan c v a v') (hs : v.Stage) :
    v'.call.ended.toNat = v.call.ended.toNat + a.ends.toNat := by
  unfold Call.ended
  cases h with
  | countDirect hc | countPooled i hc | answer id n hc => simp [Caller.rejected, Action.ends, hc]
  | refuse hp => simp [Caller.rejected, Action.ends, hs.of_blocked hp]
  | giveBack n hp => simp [Caller.rejected, Action.ends, hs.of_stuck hp]
  | abandon why hc => simp [Caller.rejected, Work.finished, Action.ends, hc, hs.of_leaving hc]
  | leaveDirect o hw hm =>
    rcases hs.of_work (by simp [hw]) (by simp [hw]) with ⟨-, hc, -⟩ | ⟨hp, -⟩
    · simp [Caller.rejected, Work.finished, Action.ends, hc, hw]
    · simp [hm] at hp
  | leavePooled o hw hm =>
    rcases hs.of_work (by simp [hw]) (by simp [hw]) with ⟨hp, -⟩ | ⟨-, hc | ⟨id, hc⟩, -⟩
    · simp [hm] at hp
    · simp [Caller.rejected, Work.finished, Action.ends, hc, hw]
    · simp [Caller.rejected, Work.finished, Action.ends, hc, hw]
  | arm since hr hw | skip since expired id hw | fail since expired id o hw
  | launch since opened expired id stdout hw | exit since opened duration id stdout hw
  | deliver since duration o hw | keep since o hw => simp [Work.finished, Action.ends, hw]
  | _ => rfl

theorem Work.Cut.finished {asked : Request} {old : Work} (h : Work.Cut plan asked old work) :
    work.finished = old.finished := by
  cases h <;> rfl

/-! ## Whole paths -/

/-- What holds of a call after the actions of its own in a run. -/
structure View.Inv (plan : Plan) (c : Nat) (as : List Action) (v : View) : Prop where
  stage : v.Stage
  valid : v.call.work.Valid plan v.asked
  receipt : v.Receipt c
  launched : .launch c ∈ as → v.call.work.launched = true
  begun : as.countP Action.begins = v.call.begun.toNat
  ended : as.countP Action.ends = v.call.ended.toNat

theorem View.Fresh.inv (h : v.Fresh) (plan : Plan) (c : Nat) : v.Inv plan c [] where
  stage := h.stage
  valid := by
    rw [h.work]
    trivial
  receipt := ⟨by simp [h.work, Work.delivered?], fun _ => h.results, fun _ => h.results⟩
  launched := by simp
  begun := by simp [Call.begun, h.caller]
  ended := by simp [Call.ended, Caller.rejected, Work.finished, h.caller, h.work]

theorem Turn.inv (h : Turn plan c v a v') (hv : v.Inv plan c as) : v'.Inv plan c (as ++ [a]) where
  stage := h.stage hv.stage
  valid := h.work_valid hv.valid
  receipt := h.receipt hv.receipt
  launched hmem := by
    apply h.launched
    rcases List.mem_append.1 hmem with hmem | hmem
    · exact .inl (hv.launched hmem)
    · exact .inr (List.mem_singleton.1 hmem).symm
  begun := by
    rw [h.begun hv.stage, List.countP_append, hv.begun]
    cases ha : a.begins <;> simp [ha]
  ended := by
    rw [h.ended hv.stage, List.countP_append, hv.ended]
    cases ha : a.ends <;> simp [ha]

theorem Work.Cut.inv (h : Work.Cut plan v.asked v.call.work work) (hv : v.Inv plan c as) :
    (v.setWork work).Inv plan c as where
  stage := h.stage hv.stage
  valid := h.valid hv.valid
  receipt := h.receipt hv.receipt
  launched hmem := h.launched (hv.launched hmem)
  begun := hv.begun
  ended := by
    rw [hv.ended, Call.ended, Call.ended]
    simp [h.finished]

theorem Path.inv (h : Path plan c v as v') {before : List Action} (hv : v.Inv plan c before) :
    v'.Inv plan c (before ++ as) := by
  induction h with
  | nil => simpa using hv
  | turn h ht ih =>
    rw [← List.append_assoc]
    exact ht.inv ih
  | cut h hc ih => exact hc.inv ih

/-! ## What is ahead of a call -/

def View.admitted (v : View) : Bool :=
  match v.phase with
  | none | some .arriving | some .waiting | some (.refused .closed) => false
  | _ => true

/-- How many actions of its own bring a run to its end. -/
def Work.ahead : Work → Nat
  | .idle => 6
  | .armed .. => 5
  | .alive .. => 4
  | .over .. => 3
  | .delivered _ => 2
  | .left _ => 1

def Caller.ahead : Caller → Nat
  | .inside | .leaving _ => 1
  | _ => 0

/-- How many actions of its own an admitted call has ahead at most. -/
def View.ahead (v : View) : Nat :=
  match v.phase with
  | some (.admitted _) => 8
  | some (.stuck _) => 2
  | some (.running _) => v.call.caller.ahead + v.call.work.ahead
  | _ => v.call.caller.ahead

theorem Work.ahead_ne_zero (work : Work) : work.ahead ≠ 0 := by
  cases work <;> simp [Work.ahead]

theorem View.ahead_le (v : View) : v.ahead ≤ 8 := by
  have hcaller : v.call.caller.ahead ≤ 1 := by
    cases v.call.caller <;> simp [Caller.ahead]
  have hwork : v.call.work.ahead ≤ 6 := by
    cases v.call.work <;> simp [Work.ahead]
  unfold View.ahead
  split <;> omega

theorem View.Runs.ahead_lt {w : View} (h : v.Runs) (ha : v.admitted = true) (hphase : w.phase = v.phase)
    (hcaller : w.call.caller = v.call.caller) (hwork : w.call.work.ahead < v.call.work.ahead) :
    w.admitted = true ∧ w.ahead < v.ahead := by
  rcases h with ⟨-, -, hp⟩ | ⟨-, -, n, hp⟩
  · simp [View.admitted, hp] at ha
  · simp only [View.admitted, View.ahead, hphase, hcaller, hp]
    exact ⟨trivial, by omega⟩

theorem Turn.ahead (h : Turn plan c v a v') (hs : v.Stage) (ha : v.admitted = true) :
    v'.admitted = true ∧ v'.ahead < v.ahead := by
  cases h with
  -- An admitted call has a task that holds a slot or held one, which excludes all actions before.
  | countDirect hc | countPooled i hc => simp [View.admitted, (hs.of_calling hc).1] at ha
  | park hp | enter n hp | refuse hp => rcases hp with hp | hp <;> simp [View.admitted, hp] at ha
  | start n hp => simp [View.admitted, View.ahead, hp, hs.of_admitted hp, Caller.ahead, Work.ahead]
  | stick n hp => simp [View.admitted, View.ahead, hp]
  | giveBack n hp => simp [View.admitted, View.ahead, Caller.ahead, hp]
  | abandon why hc =>
    obtain ⟨-, hp, -⟩ := hs.of_leaving hc
    simp_all [View.admitted, View.ahead, Caller.ahead]
  | answer id n hc hp => rcases hp with hp | hp | hp <;> simp [View.admitted, View.ahead, Caller.ahead, hp, hc]
  | arm since hr hw => exact (hs.of_mayRun hr).ahead_lt ha rfl rfl (by simp [hw, Work.ahead])
  | skip since expired id hw | fail since expired id o hw | launch since opened expired id stdout hw =>
    exact (hs.of_work (by simp [hw]) (by simp [hw])).ahead_lt ha rfl rfl (by simp [hw, Work.ahead])
  | exit since opened duration id stdout hw | deliver since duration o hw | keep since o hw
  | leavePooled o hw =>
    exact (hs.of_work (by simp [hw]) (by simp [hw])).ahead_lt ha rfl rfl (by simp [hw, Work.ahead])
  | leaveDirect o hw hm =>
    rcases hs.of_work (by simp [hw]) (by simp [hw]) with ⟨-, -, hp⟩ | ⟨hp, -⟩
    · simp [View.admitted, hp] at ha
    · simp [hm] at hp
  | release n o hw hp =>
    simp only [View.setPhase, View.admitted, View.ahead, hp, hw, Work.ahead]
    exact ⟨trivial, by omega⟩

theorem Work.Cut.ahead_le {asked : Request} {old : Work} (h : Work.Cut plan asked old work) :
    work.ahead ≤ old.ahead := by
  cases h <;> simp [Work.ahead]

theorem Work.Cut.ahead {asked : Request} (h : Work.Cut plan asked v.call.work work) :
    (v.setWork work).ahead ≤ v.ahead := by
  have hwork := h.ahead_le
  unfold View.ahead View.setWork
  split <;> simp_all

/-- An admitted call has only a few actions of its own ahead, whatever else happens. -/
theorem Path.ahead (h : Path plan c v as v') (hv : v.Stage) (ha : v.admitted = true) :
    v'.Stage ∧ v'.admitted = true ∧ v'.ahead + as.length ≤ v.ahead := by
  induction h with
  | nil => exact ⟨hv, ha, by simp⟩
  | turn h ht ih =>
    obtain ⟨hstage, hadmitted, hle⟩ := ih
    have hturn := ht.ahead hstage hadmitted
    exact ⟨ht.stage hstage, hturn.1, by simp only [List.length_append, List.length_singleton]; omega⟩
  | cut h hc ih =>
    obtain ⟨hstage, hadmitted, hle⟩ := ih
    have hcut := hc.ahead
    exact ⟨hc.stage hstage, hadmitted, by omega⟩

theorem Path.refused {why : Pool.Refusal} (h : Path plan c v as v') (hs : v.Stage)
    (hp : v.phase = some (.refused why)) :
    v'.Stage ∧ v'.phase = some (.refused why) := by
  induction h with
  | nil => exact ⟨hs, hp⟩
  | turn h ht ih =>
    obtain ⟨hstage, hphase⟩ := ih
    refine ⟨ht.stage hstage, ?_⟩
    cases ht with
    | countPooled i hc => simp [(hstage.of_calling hc).1] at hphase
    | park hp | enter n hp | refuse hp => rcases hp with hp | hp <;> simp [hphase] at hp
    | start n hp | stick n hp | giveBack n hp | release n o hw hp => simp [hphase] at hp
    | _ => exact hphase
  | cut h hc ih => exact ⟨hc.stage ih.1, ih.2⟩

theorem View.Stage.of_refused {why : Pool.Refusal} (h : v.Stage) (hp : v.phase = some (.refused why)) :
    (v.call.caller = .leaving why ∨ v.call.caller = .refused why) ∧ v.call.work = .idle := by
  cases h <;> simp_all

/-- A call that was admitted and has nothing ahead has run to its end, or there was no thread for it. -/
theorem View.Stage.of_ahead (h : v.Stage) (ha : v.admitted = true) (hahead : v.ahead = 0) :
    (∃ n o, v.phase = some (.done n) ∧ v.call.work = .left o) ∨ v.call.caller = .refused .noThread := by
  cases h with
  | calling hc hp | direct hm hc hp | finished o hm hc hp => simp [View.admitted, hp] at ha
  | blocked hm hc hp => rcases hp with hp | hp <;> simp [View.admitted, hp] at ha
  | admitted n hm hc hp => simp [View.ahead, hp] at hahead
  | stuck n hm hc hp => simp [View.ahead, hp] at hahead
  | leaving why hm hc hp => simp [View.ahead, Caller.ahead, hp, hc] at hahead
  | refused why hm hc hp =>
    cases why with
    | closed => simp [View.admitted, hp] at ha
    | noThread => exact .inr hc
  | running n hm hc hp =>
    simp [View.ahead, hp, v.call.work.ahead_ne_zero] at hahead
  | done n o hm hc hp hw => exact .inl ⟨n, o, hp, hw⟩

end Thumbnailer.Generator
