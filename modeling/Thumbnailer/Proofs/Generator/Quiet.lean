import Thumbnailer.Proofs.Generator.Launches

/-!
# Quiet runs

A run is quiet if nothing is cancelled, no time limit expires and every worker can be started. Then each run of the
encoder ends as it would with its request alone: nothing that others do is read by it.
-/

namespace Thumbnailer

/-! ## What the encoder is started with -/

theorem Plan.session_args (p : Plan) (r : Request) : (p.session r).args = p.args r.media r.destinations := by
  have hprogram : (p.command r.media r.destinations).program = p.program := Command.foldl_add_program _ _
  simp only [Session.args, Plan.session, Plan.args, Command.args, hprogram]
  rfl

/-! ## The result of a request -/

/-- The error of a request whose encoder runs until it ends by itself, or none. -/
def Plan.result (p : Plan) (r : Request) : Option Generator.CallError :=
  Generator.Result.error? ((p.session r).run r.child .never).result

section Result
variable {plan : Plan} {asked : Request} {id : Nat} {stdout : List Char} {o : Generator.Result}

theorem result_of_failed
    (h : Generator.Result.ofStart? ((plan.session { asked with id }).start asked.child).result = some o) :
    o.error? = plan.result asked := by
  rw [Plan.result, plan.session_run asked asked.id, ← plan.session_run asked id,
    Generator.run_of_ofStart? (by decide) h]

theorem result_of_exited (h : ((plan.session { asked with id }).start asked.child).result = .ok (.running stdout))
    (text : List Char) (duration : Double) :
    Generator.Result.error? (.ok ((plan.session { asked with id }).outcome asked.child text .exited duration)) =
      plan.result asked := by
  rw [Plan.result, plan.session_run asked asked.id, ← plan.session_run asked id,
    Session.run_of_running (by decide) h, Session.finish_eq (plan.session_free _)]
  rfl

end Result

namespace Generator

variable {g g' : Generator} {a : Action} {as : List Action} {c : Nat} {k : Call} {r : Request} {plan : Plan}
  {v v' : View}

/-! ## Quiet runs -/

/-- Nothing is cancelled by the action, no time limit expires, and there is a thread for the worker. -/
def Action.quiet : Action → Bool
  | .request r => !r.cancelled
  | .cancel _ | .expire _ | .start _ false => false
  | _ => true

theorem Cuts.not_quiet {m : Nat} (h : Cuts g a m) : a.quiet = false := by
  obtain rfl | ⟨c, k, rfl, -⟩ := h <;> rfl

/-- The run has not been disturbed: it ends like the request alone. -/
def Work.Unhindered (plan : Plan) (asked : Request) : Work → Prop
  | .idle => True
  | .armed _ expired => expired = false
  | .alive _ _ id stdout => ((plan.session { asked with id }).start asked.child).result = .ok (.running stdout)
  | .over _ o | .delivered o | .left o => o.error? = plan.result asked

theorem launched_unhindered (hr : r.cancelled = false) (since : Double) :
    (g.launchedWork r since false).Unhindered g.plan r.asked := by
  unfold launchedWork
  rw [hr, if_neg (by simp)]
  split
  next stdout ho => exact ho
  next o ho => exact result_of_failed (congrArg Result.ofStart? ho)
  next reason ho => exact result_of_failed (congrArg Result.ofStart? ho)

theorem Turn.unhindered (h : Turn plan c v a v') (ha : a ≠ .launch c) (hw : v.call.work.Unhindered plan v.asked) :
    v'.call.work.Unhindered plan v'.asked := by
  cases h with
  | skip | fail | launch => exact absurd rfl ha
  | arm => exact rfl
  | exit since opened duration id stdout hold =>
    rw [hold] at hw
    exact result_of_exited hw stdout duration
  | deliver since duration o hold | keep since o hold | leaveDirect o hold | leavePooled o hold =>
    rw [hold] at hw
    exact hw
  | _ => exact hw

/-- No request is cancelled, and no run is disturbed. -/
structure Calm (g : Generator) : Prop where
  tied : Tied g
  requests : ∀ r ∈ g.requests, r.cancelled = false
  works : ∀ c v, g.view? c = some v → v.call.work.Unhindered g.plan v.asked

theorem new_calm (plan : Plan) (concurrency : Int) (clock : Double) : Calm (new plan concurrency clock) :=
  ⟨new_tied plan concurrency clock, by simp [new], by simp [view?, new]⟩

theorem Requests.calm (h : Requests g a g') (ha : a.quiet = true) (hg : ∀ r ∈ g.requests, r.cancelled = false) :
    ∀ r ∈ g'.requests, r.cancelled = false := by
  intro r hr
  cases h with
  | same hdraws hsame => exact hg r (hsame ▸ hr)
  | made q hq hmade =>
    subst hq
    rcases List.mem_append.1 (hmade ▸ hr) with hr | hr
    · exact hg r hr
    · rw [List.mem_singleton.1 hr]
      simpa [Action.quiet] using ha
  | drawn m q hcall hq hdrawn =>
    rcases List.mem_or_eq_of_mem_set (hdrawn ▸ hr) with hr | rfl
    · exact hg r hr
    · exact hg q (List.mem_of_getElem? hq)
  | cancelled m hcuts => simp [hcuts.not_quiet] at ha

theorem step?_calm (hg : Calm g) (ha : a.quiet = true) (h : g.step? a = some g') : Calm g' where
  tied := (step?_moves h).tied hg.tied
  requests := (step?_requests h).calm ha hg.requests
  works c v' hv' := by
    rw [step?_plan h]
    -- A call is new, it is launched, it takes another turn, or it is left alone: there are no cuts.
    cases hv : g.view? c with
    | none =>
      rw [(step?_fresh hg.tied h hv hv').1.work]
      trivial
    | some v =>
      have hw := hg.works c v hv
      by_cases hlaunch : a = .launch c
      · subst hlaunch
        obtain ⟨r, hk, hr, hview⟩ := view?_eq_some hv
        obtain ⟨since, expired, hold, rfl, -⟩ := step?_launch h hk hr
        rw [hold] at hw
        obtain rfl : expired = false := hw
        rw [view?_setWork hv] at hv'
        obtain rfl := Option.some.inj hv'
        rw [hview]
        exact launched_unhindered (hg.requests r (List.mem_of_getElem? hr)) since
      · rcases step?_view hg.tied h hv with ⟨-, w, hw', hturn⟩ | ⟨-, work, hw', -, hsame | hcuts⟩
        · obtain rfl := Option.some.inj (hw'.symm.trans hv')
          exact hturn.unhindered hlaunch hw
        · obtain rfl := Option.some.inj (hw'.symm.trans hv')
          exact hsame ▸ hw
        · simp [hcuts.not_quiet] at ha

theorem run_quiet {P : Generator → Prop} (hstep : ∀ {g : Generator} {a : Action} {g' : Generator},
    P g → a.quiet = true → g.step? a = some g' → P g') (hg : P g) (has : ∀ a ∈ as, a.quiet = true)
    (h : g.run? as = some g') : P g' := by
  induction as generalizing g with
  | nil =>
    obtain rfl := Option.some.inj h
    exact hg
  | cons a rest ih =>
    obtain ⟨g₁, hfirst, hrest⟩ := Option.bind_eq_some_iff.1 h
    exact ih (hstep hg (has a (by simp)) hfirst) (fun b hb => has b (List.mem_cons_of_mem a hb)) hrest

theorem run_calm {concurrency : Int} {clock : Double} (has : ∀ a ∈ as, a.quiet = true)
    (h : (new plan concurrency clock).run? as = some g) : Calm g :=
  run_quiet step?_calm (new_calm plan concurrency clock) has h

/-- A run that has ended has the result of its request. -/
theorem Calm.left (hg : Calm g) (hv : g.view? c = some v) (hfinished : v.call.work.finished = true) :
    ∃ o, v.call.work = .left o ∧ o.error? = g.plan.result v.asked := by
  have hw := hg.works c v hv
  cases hwork : v.call.work with
  | left o =>
    rw [hwork] at hw
    exact ⟨o, rfl, hw⟩
  | _ => simp [hwork, Work.finished] at hfinished

end Generator

end Thumbnailer
