import Thumbnailer.Proofs.Generator.Sessions

/-!
# The life of a call

What the actions of its own make of one call, what others can make of it, and how far its caller, its task and its
run can be at the same time.
-/

namespace Thumbnailer

/-- A request as it was made, before it got a number or was cancelled. -/
def Request.asked (r : Request) : Request := { r with id := 0, cancelled := false }

namespace Generator

/-- What there is of a call: its request, how far its task has come, and its results on the queue. -/
structure View where
  call : Call
  asked : Request
  phase : Option Pool.Phase := none
  results : List Delivery := []
deriving DecidableEq, Repr

namespace View

@[simp]
def setCaller (v : View) (caller : Caller) : View := { v with call := { v.call with caller } }

@[simp]
def setWork (v : View) (work : Work) : View := { v with call := { v.call with work } }

@[simp]
def setPhase (v : View) (phase : Pool.Phase) : View := { v with phase := some phase }

def session (v : View) (plan : Plan) (id : Nat) : Session := plan.session { v.asked with id }

def receives (v : View) : Bool := v.call.mode = .pooled && v.asked.queued

/-- The run of the encoder may begin. -/
def MayRun (v : View) : Prop :=
  (v.call.mode = .direct ∧ v.call.caller = .inside) ∨
    (v.call.mode = .pooled ∧ ∃ n, v.phase = some (.running n))

/-- The call was only just made. -/
structure Fresh (v : View) : Prop where
  caller : v.call.caller = .calling
  work : v.call.work = .idle
  phase : v.phase = none
  results : v.results = []

end View

/-! ## Turns -/

/-- What an action of its own makes of a call. -/
inductive Turn (plan : Plan) (c : Nat) (v : View) : Action → View → Prop
  | countDirect (hc : v.call.caller = .calling) (hm : v.call.mode = .direct) :
      Turn plan c v (.count c) (v.setCaller .inside)
  | countPooled (i : Nat) (hc : v.call.caller = .calling) (hm : v.call.mode = .pooled) :
      Turn plan c v (.count c)
        { v with call := { v.call with caller := .inside, task := some i }, phase := some .arriving }
  | park (hp : v.phase = some .arriving ∨ v.phase = some .waiting) :
      Turn plan c v (.enter c) (v.setPhase .waiting)
  | enter (n : Nat) (hp : v.phase = some .arriving ∨ v.phase = some .waiting) :
      Turn plan c v (.enter c) (v.setPhase (.admitted n))
  | refuse (hp : v.phase = some .arriving ∨ v.phase = some .waiting) :
      Turn plan c v (.enter c) ((v.setPhase (.refused .closed)).setCaller (.leaving .closed))
  | start (n : Nat) (hp : v.phase = some (.admitted n)) :
      Turn plan c v (.start c true) (v.setPhase (.running n))
  | stick (n : Nat) (hp : v.phase = some (.admitted n)) :
      Turn plan c v (.start c false) (v.setPhase (.stuck n))
  | giveBack (n : Nat) (hp : v.phase = some (.stuck n)) :
      Turn plan c v (.giveBack c) ((v.setPhase (.refused .noThread)).setCaller (.leaving .noThread))
  | abandon (why : Pool.Refusal) (hc : v.call.caller = .leaving why) :
      Turn plan c v (.abandon c) (v.setCaller (.refused why))
  | answer (id n : Nat) (hc : v.call.caller = .inside)
      (hp : v.phase = some (.running n) ∨ v.phase = some (.ended n) ∨ v.phase = some (.done n)) :
      Turn plan c v (.answer c) (v.setCaller (.returned id))
  | arm (since : Double) (hr : v.MayRun) (hw : v.call.work = .idle) :
      Turn plan c v (.arm c) (v.setWork (.armed since false))
  | skip (since : Double) (expired : Bool) (id : Nat) (hw : v.call.work = .armed since expired) :
      Turn plan c v (.launch c) (v.setWork (.over since (.ok (v.session plan id).cancelledBefore)))
  | fail (since : Double) (expired : Bool) (id : Nat) (o : Result) (hw : v.call.work = .armed since expired)
      (ho : Result.ofStart? ((v.session plan id).start v.asked.child).result = some o) :
      Turn plan c v (.launch c) (v.setWork (.over since o))
  | launch (since opened : Double) (expired : Bool) (id : Nat) (stdout : List Char)
      (hw : v.call.work = .armed since expired)
      (ho : ((v.session plan id).start v.asked.child).result = .ok (.running stdout)) :
      Turn plan c v (.launch c) (v.setWork (.alive since opened id stdout))
  | exit (since opened duration : Double) (id : Nat) (stdout : List Char)
      (hw : v.call.work = .alive since opened id stdout) :
      Turn plan c v (.exit c)
        (v.setWork (.over since (.ok ((v.session plan id).outcome v.asked.child stdout .exited duration))))
  | deliver (since duration : Double) (o : Result) (hw : v.call.work = .over since o) (hr : v.receives = true) :
      Turn plan c v (.deliver c)
        { v.setWork (.delivered o) with
          results := v.results ++ [⟨c, v.call.request, o.error?, duration⟩] }
  | keep (since : Double) (o : Result) (hw : v.call.work = .over since o) (hr : v.receives = false) :
      Turn plan c v (.deliver c) (v.setWork (.delivered o))
  | leaveDirect (o : Result) (hw : v.call.work = .delivered o) (hm : v.call.mode = .direct) :
      Turn plan c v (.leave c) ((v.setWork (.left o)).setCaller (.finished o.error?))
  | leavePooled (o : Result) (hw : v.call.work = .delivered o) (hm : v.call.mode = .pooled) :
      Turn plan c v (.leave c) (v.setWork (.left o))
  | release (n : Nat) (o : Result) (hw : v.call.work = .left o) (hp : v.phase = some (.running n)) :
      Turn plan c v (.release c) (v.setPhase (.done n))

/-- What a cancelled request or an expired time limit makes of a run: one that has not begun will not begin, an
encoder is killed, and nothing else changes. -/
inductive Work.Cut (plan : Plan) (asked : Request) : Work → Work → Prop
  | same (work : Work) : Work.Cut plan asked work work
  | expire (since : Double) (expired : Bool) : Work.Cut plan asked (.armed since expired) (.armed since true)
  | kill (since opened duration : Double) (id : Nat) (stdout : List Char) :
      Work.Cut plan asked (.alive since opened id stdout)
        (.over since (.ok ((plan.session { asked with id }).outcome asked.child stdout .killed duration)))

theorem Work.Cut.trans {plan : Plan} {asked : Request} {a b d : Work} (h : Work.Cut plan asked a b)
    (h' : Work.Cut plan asked b d) : Work.Cut plan asked a d := by
  cases h with
  | same => exact h'
  | expire since expired =>
    cases h' with
    | same => exact .expire since expired
    | expire => exact .expire since expired
  | kill since opened duration id stdout =>
    cases h' with
    | same => exact .kill since opened duration id stdout

/-- A path of a call from one view to another, with the actions of its own on it. -/
inductive Path (plan : Plan) (c : Nat) (v : View) : List Action → View → Prop
  | nil : Path plan c v [] v
  | turn {as : List Action} {u w : View} {a : Action} (h : Path plan c v as u) (ht : Turn plan c u a w) :
      Path plan c v (as ++ [a]) w
  | cut {as : List Action} {u : View} {work : Work} (h : Path plan c v as u)
      (hc : Work.Cut plan u.asked u.call.work work) : Path plan c v as (u.setWork work)

/-! ## Stages -/

def View.Runs (v : View) : Prop :=
  (v.call.mode = .direct ∧ v.call.caller = .inside ∧ v.phase = none) ∨
    (v.call.mode = .pooled ∧ (v.call.caller = .inside ∨ ∃ id, v.call.caller = .returned id) ∧
      ∃ n, v.phase = some (.running n))

/-- How far caller, task and run of a call can be at the same time. -/
inductive View.Stage (v : View) : Prop
  | calling (hc : v.call.caller = .calling) (hp : v.phase = none) (hw : v.call.work = .idle)
  | direct (hm : v.call.mode = .direct) (hc : v.call.caller = .inside) (hp : v.phase = none)
      (hw : ∀ o, v.call.work ≠ .left o)
  | finished (o : Result) (hm : v.call.mode = .direct) (hc : v.call.caller = .finished o.error?)
      (hp : v.phase = none) (hw : v.call.work = .left o)
  | blocked (hm : v.call.mode = .pooled) (hc : v.call.caller = .inside)
      (hp : v.phase = some .arriving ∨ v.phase = some .waiting) (hw : v.call.work = .idle)
  | admitted (n : Nat) (hm : v.call.mode = .pooled) (hc : v.call.caller = .inside)
      (hp : v.phase = some (.admitted n)) (hw : v.call.work = .idle)
  | stuck (n : Nat) (hm : v.call.mode = .pooled) (hc : v.call.caller = .inside)
      (hp : v.phase = some (.stuck n)) (hw : v.call.work = .idle)
  | leaving (why : Pool.Refusal) (hm : v.call.mode = .pooled) (hc : v.call.caller = .leaving why)
      (hp : v.phase = some (.refused why)) (hw : v.call.work = .idle)
  | refused (why : Pool.Refusal) (hm : v.call.mode = .pooled) (hc : v.call.caller = .refused why)
      (hp : v.phase = some (.refused why)) (hw : v.call.work = .idle)
  | running (n : Nat) (hm : v.call.mode = .pooled)
      (hc : v.call.caller = .inside ∨ ∃ id, v.call.caller = .returned id) (hp : v.phase = some (.running n))
  | done (n : Nat) (o : Result) (hm : v.call.mode = .pooled)
      (hc : v.call.caller = .inside ∨ ∃ id, v.call.caller = .returned id) (hp : v.phase = some (.done n))
      (hw : v.call.work = .left o)

namespace View.Stage

variable {v : View}

theorem of_calling (h : v.Stage) (hc : v.call.caller = .calling) : v.phase = none ∧ v.call.work = .idle := by
  cases h <;> simp_all

theorem of_blocked (h : v.Stage) (hp : v.phase = some .arriving ∨ v.phase = some .waiting) :
    v.call.mode = .pooled ∧ v.call.caller = .inside ∧ v.call.work = .idle := by
  cases h <;> simp_all

theorem of_admitted (h : v.Stage) {n : Nat} (hp : v.phase = some (.admitted n)) :
    v.call.mode = .pooled ∧ v.call.caller = .inside ∧ v.call.work = .idle := by
  cases h <;> simp_all

theorem of_stuck (h : v.Stage) {n : Nat} (hp : v.phase = some (.stuck n)) :
    v.call.mode = .pooled ∧ v.call.caller = .inside ∧ v.call.work = .idle := by
  cases h <;> simp_all

theorem of_leaving (h : v.Stage) {why : Pool.Refusal} (hc : v.call.caller = .leaving why) :
    v.call.mode = .pooled ∧ v.phase = some (.refused why) ∧ v.call.work = .idle := by
  cases h <;> simp_all

theorem of_running (h : v.Stage) {n : Nat} (hp : v.phase = some (.running n)) :
    v.call.mode = .pooled ∧ (v.call.caller = .inside ∨ ∃ id, v.call.caller = .returned id) := by
  cases h <;> simp_all

theorem of_done (h : v.Stage) {n : Nat} (hp : v.phase = some (.done n)) :
    v.call.mode = .pooled ∧ (v.call.caller = .inside ∨ ∃ id, v.call.caller = .returned id) ∧
      ∃ o, v.call.work = .left o := by
  cases h <;> simp_all

theorem of_left (h : v.Stage) (hm : v.call.mode = .direct) {o : Result} (hw : v.call.work = .left o) :
    v.call.caller = .finished o.error? := by
  cases h <;> simp_all

theorem of_mayRun (h : v.Stage) (hr : v.MayRun) : v.Runs := by
  unfold View.Runs
  rcases hr with ⟨hm, hc⟩ | ⟨hm, n, hp⟩
  · cases h <;> simp_all
  · cases h <;> simp_all

theorem of_work (h : v.Stage) (hidle : v.call.work ≠ .idle) (hleft : ∀ o, v.call.work ≠ .left o) : v.Runs := by
  unfold View.Runs
  cases h <;> simp_all

end View.Stage

theorem View.Fresh.stage {v : View} (h : v.Fresh) : v.Stage := .calling h.caller h.phase h.work

theorem View.Runs.stage {v : View} {work : Work} (h : v.Runs) (hw : ∀ o, work ≠ .left o) :
    (v.setWork work).Stage := by
  rcases h with ⟨hm, hc, hp⟩ | ⟨hm, hc, n, hp⟩
  · exact .direct hm hc hp hw
  · exact .running n hm hc hp

variable {plan : Plan} {c : Nat} {v v' : View} {a : Action} {as : List Action} {work : Work}

theorem Turn.stage (h : Turn plan c v a v') (hs : v.Stage) : v'.Stage := by
  cases h with
  | countDirect hc hm =>
    obtain ⟨hp, hw⟩ := hs.of_calling hc
    exact .direct hm rfl hp (by simp [View.setCaller, hw])
  | countPooled i hc hm =>
    obtain ⟨-, hw⟩ := hs.of_calling hc
    exact .blocked hm rfl (.inl rfl) hw
  | park hp =>
    obtain ⟨hm, hc, hw⟩ := hs.of_blocked hp
    exact .blocked hm hc (.inr rfl) hw
  | enter n hp =>
    obtain ⟨hm, hc, hw⟩ := hs.of_blocked hp
    exact .admitted n hm hc rfl hw
  | refuse hp =>
    obtain ⟨hm, -, hw⟩ := hs.of_blocked hp
    exact .leaving .closed hm rfl rfl hw
  | start n hp =>
    obtain ⟨hm, hc, -⟩ := hs.of_admitted hp
    exact .running n hm (.inl hc) rfl
  | stick n hp =>
    obtain ⟨hm, hc, hw⟩ := hs.of_admitted hp
    exact .stuck n hm hc rfl hw
  | giveBack n hp =>
    obtain ⟨hm, -, hw⟩ := hs.of_stuck hp
    exact .leaving .noThread hm rfl rfl hw
  | abandon why hc =>
    obtain ⟨hm, hp, hw⟩ := hs.of_leaving hc
    exact .refused why hm rfl hp hw
  | answer id n hc hp =>
    rcases hp with hp | hp | hp
    · exact .running n (hs.of_running hp).1 (.inr ⟨id, rfl⟩) hp
    · -- A worker ends its task and gives the slot back at once, so no call is seen in between.
      cases hs <;> simp_all
    · obtain ⟨hm, -, o, hw⟩ := hs.of_done hp
      exact .done n o hm (.inr ⟨id, rfl⟩) hp hw
  | arm since hr hw => exact (hs.of_mayRun hr).stage (by simp)
  | skip since expired id hw | fail since expired id o hw | launch since opened expired id stdout hw
  | exit since opened duration id stdout hw | keep since o hw =>
    exact (hs.of_work (by simp [hw]) (by simp [hw])).stage (by simp)
  | deliver since duration o hw =>
    rcases hs.of_work (by simp [hw]) (by simp [hw]) with ⟨hm, hc, hp⟩ | ⟨hm, hc, n, hp⟩
    · exact .direct hm hc hp (by simp [View.setWork])
    · exact .running n hm hc hp
  | leaveDirect o hw hm =>
    rcases hs.of_work (by simp [hw]) (by simp [hw]) with ⟨-, -, hp⟩ | ⟨hpooled, -⟩
    · exact .finished o hm rfl hp rfl
    · simp [hm] at hpooled
  | leavePooled o hw hm =>
    rcases hs.of_work (by simp [hw]) (by simp [hw]) with ⟨hdirect, -⟩ | ⟨-, hc, n, hp⟩
    · simp [hm] at hdirect
    · exact .running n hm hc hp
  | release n o hw hp =>
    obtain ⟨hm, hc⟩ := hs.of_running hp
    exact .done n o hm hc rfl hw

theorem Work.Cut.stage (h : Work.Cut plan v.asked v.call.work work) (hs : v.Stage) : (v.setWork work).Stage := by
  generalize hold : v.call.work = old at h
  cases h with
  | same => rwa [← hold]
  | expire => exact (hs.of_work (by simp [hold]) (by simp [hold])).stage (by simp)
  | kill => exact (hs.of_work (by simp [hold]) (by simp [hold])).stage (by simp)

end Generator

end Thumbnailer
