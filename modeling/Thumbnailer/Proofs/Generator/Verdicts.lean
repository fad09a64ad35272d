import Thumbnailer.Proofs.Generator.Launches
import Thumbnailer.Proofs.Generator.Progress

/-!
# What decides a run

A run is stopped before its encoder is started, its encoder is killed, or its encoder ends by itself. `run_decided`
says of every call in every run that the first of these decides how it ends, and that it ends.
-/

namespace Thumbnailer

/-! ## Errors of sessions -/

namespace Session

variable (s : Session) (child : Child) (stdout : List Char) (duration : Double)

theorem cancelledBefore_runError? : s.cancelledBefore.runError? = some {
    cancelled := true, message := "Cancelled before start", returnCode := -1, stderr := "Cancelled before start",
    command := s.command } := by
  rfl

theorem killed_runError? : ∃ e, (s.outcome child stdout .killed duration).runError? = some e ∧
    e.cancelled = true ∧ e.returnCode = child.killCode := by
  simp [outcome, Outcome.runError?, Child.endCode]

variable {s}

theorem exited_success (h : s.killed = false) :
    (s.outcome child stdout .exited duration).success = true ↔ child.code = 0 := by
  simp [outcome_success, h]

theorem exited_runError? (h : s.killed = false) (hcode : child.code ≠ 0) :
    ∃ e, (s.outcome child stdout .exited duration).runError? = some e ∧
      e.cancelled = false ∧ e.returnCode = child.code := by
  simp [outcome, Outcome.runError?, Child.endCode, hcode, h]

end Session

namespace Generator

variable {g g' : Generator} {a : Action} {as : List Action} {c m : Nat} {k : Call} {r : Request} {plan : Plan}
  {v v' : View}

/-! ## Outcomes stay -/

def Work.result? : Work → Option Result
  | .over _ o | .delivered o | .left o => some o
  | _ => none

theorem Turn.result? {o : Result} (h : Turn plan c v a v') (ho : v.call.work.result? = some o) :
    v'.call.work.result? = some o := by
  cases h with
  | arm since hr hw => simp [hw, Work.result?] at ho
  | skip since expired id hw | fail since expired id o hw | launch since opened expired id stdout hw
  | exit since opened duration id stdout hw => simp [hw, Work.result?] at ho
  | deliver since duration o hw | keep since o hw | leaveDirect o hw | leavePooled o hw =>
    rw [hw] at ho
    exact ho
  | _ => exact ho

theorem Work.Cut.eq_of_result? {asked : Request} {old work : Work} {o : Result} (h : Work.Cut plan asked old work)
    (ho : old.result? = some o) : work = old := by
  cases h with
  | same => rfl
  | expire | kill => cases ho

theorem step?_result? {o : Result} (ht : Tied g) (hv : g.view? c = some v) (ho : v.call.work.result? = some o)
    (h : g.step? a = some g') : ∃ w, g'.view? c = some w ∧ w.call.work.result? = some o := by
  rcases step?_view ht h hv with ⟨-, w, hw, hturn⟩ | ⟨-, work, hw, hcut, -⟩
  · exact ⟨w, hw, hturn.result? ho⟩
  · obtain rfl := hcut.eq_of_result? ho
    exact ⟨_, hw, ho⟩

/-! ## Stopped before the start -/

/-- The encoder is not started yet, and it will not be: the request was cancelled or the time limit has expired. -/
def Stopped (g : Generator) (k : Call) : Prop :=
  k.work.launched = false ∧ ∃ r, g.requestOf? k = some r ∧ (r.cancelled || k.work.expired) = true

theorem Turn.unlaunched (h : Turn plan c v a v') (ha : a ≠ .launch c) (hl : v.call.work.launched = false) :
    v'.call.work.launched = false ∧ (v.call.work.expired = true → v'.call.work.expired = true) := by
  cases h with
  | arm since hr hw => exact ⟨rfl, by simp [hw, Work.expired]⟩
  | skip | fail | launch => exact absurd rfl ha
  | exit since opened duration id stdout hw | deliver since duration o hw | keep since o hw | leaveDirect o hw
  | leavePooled o hw => simp [hw, Work.launched] at hl
  | _ => exact ⟨hl, id⟩

theorem Work.Cut.unlaunched {asked : Request} {old work : Work} (h : Work.Cut plan asked old work)
    (hl : old.launched = false) : work.launched = false ∧ (old.expired = true → work.expired = true) := by
  cases h with
  | same => exact ⟨hl, id⟩
  | expire => exact ⟨rfl, fun _ => rfl⟩
  | kill => cases hl

theorem Turn.frame (h : Turn plan c v a v') : v'.call.request = v.call.request ∧ v'.asked = v.asked := by
  cases h <;> exact ⟨rfl, rfl⟩

theorem step?_frame (ht : Tied g) (hv : g.view? c = some v) (h : g.step? a = some g') :
    ∃ w, g'.view? c = some w ∧ w.call.request = v.call.request ∧ w.asked = v.asked := by
  rcases step?_view ht h hv with ⟨-, w, hw, hturn⟩ | ⟨-, work, hw, -⟩
  · exact ⟨w, hw, hturn.frame⟩
  · exact ⟨_, hw, rfl, rfl⟩

theorem step?_stopped (ht : Tied g) (hv : g.view? c = some v) (hs : g.Stopped v.call) (ha : a ≠ .launch c)
    (h : g.step? a = some g') : ∃ w, g'.view? c = some w ∧ g'.Stopped w.call := by
  obtain ⟨hl, r, hr, hstop⟩ := hs
  obtain ⟨r', hr', -, hcancelled, -⟩ := (step?_requests h).later hr
  have hstays {w : View} (hrequest : w.call.request = v.call.request) (hwl : w.call.work.launched = false)
      (hexpired : v.call.work.expired = true → w.call.work.expired = true) : g'.Stopped w.call := by
    refine ⟨hwl, r', by rw [requestOf?, hrequest]; exact hr', ?_⟩
    rw [Bool.or_eq_true] at hstop ⊢
    exact hstop.imp hcancelled hexpired
  rcases step?_view ht h hv with ⟨-, w, hw, hturn⟩ | ⟨-, work, hw, hcut, -⟩
  · obtain ⟨hwl, hexpired⟩ := hturn.unlaunched ha hl
    exact ⟨w, hw, hstays hturn.frame.1 hwl hexpired⟩
  · obtain ⟨hwl, hexpired⟩ := hcut.unlaunched hl
    exact ⟨_, hw, hstays rfl hwl hexpired⟩

theorem launch_stopped (hv : g.view? c = some v) (hs : g.Stopped v.call) (h : g.step? (.launch c) = some g') :
    g.events (.launch c) = [] ∧ ∃ since id, g'.view? c =
      some (v.setWork (.over since (.ok (v.session g.plan id).cancelledBefore))) := by
  obtain ⟨-, r, hr, hstop⟩ := hs
  obtain ⟨q, hk, hq, hview⟩ := view?_eq_some hv
  obtain rfl : r = q := Option.some.inj (hr.symm.trans hq)
  obtain ⟨since, expired, hw, rfl, hevents⟩ := step?_launch h hk hr
  rw [hw, Work.expired] at hstop
  refine ⟨by rw [hevents, launchEvents, if_pos hstop], since, r.id, ?_⟩
  rw [view?_setWork hv, launchedWork, if_pos hstop]
  rw [hview]
  rfl

/-- A call that was stopped comes to the outcome of one that was cancelled before its encoder was started. -/
def Halted (g : Generator) (v : View) : Prop :=
  g.Stopped v.call ∨ ∃ id, v.call.work.result? = some (.ok (v.session g.plan id).cancelledBefore)

theorem step?_halted (ht : Tied g) (hv : g.view? c = some v) (hs : g.Halted v) (h : g.step? a = some g') :
    (a = .launch c → g.events a = []) ∧ ∃ w, g'.view? c = some w ∧ w.asked = v.asked ∧ g'.Halted w := by
  obtain ⟨w, hw, -, hasked⟩ := step?_frame ht hv h
  -- The call is stopped and not launched yet, or its launch has given it the outcome already.
  rcases hs with hs | ⟨id, ho⟩
  · by_cases ha : a = .launch c
    · subst ha
      obtain ⟨hevents, since, id, hw'⟩ := launch_stopped hv hs h
      refine ⟨fun _ => hevents, _, hw', rfl, .inr ⟨id, ?_⟩⟩
      rw [step?_plan h]
      rfl
    · obtain ⟨w', hw', hs'⟩ := step?_stopped ht hv hs ha h
      obtain rfl := Option.some.inj (hw.symm.trans hw')
      exact ⟨fun h => absurd h ha, w, hw, hasked, .inl hs'⟩
  · obtain ⟨w', hw', ho'⟩ := step?_result? ht hv ho h
    obtain rfl := Option.some.inj (hw.symm.trans hw')
    refine ⟨?_, w, hw, hasked, .inr ⟨id, by rw [ho', View.session, View.session, hasked, step?_plan h]⟩⟩
    rintro rfl
    obtain ⟨r, hk, hr, -⟩ := view?_eq_some hv
    obtain ⟨since, expired, hwork, -⟩ := step?_launch h hk hr
    simp [hwork, Work.result?] at ho

theorem run_halted (ht : Tied g) (hv : g.view? c = some v) (hs : g.Halted v) (h : g.run? as = some g') :
    (∀ e ∈ g.trace as, e.1 = .launch c → e.2 = []) ∧
      ∃ w, g'.view? c = some w ∧ w.asked = v.asked ∧ g'.Halted w := by
  induction as generalizing g v with
  | nil =>
    obtain rfl := Option.some.inj h
    exact ⟨by simp [trace], v, hv, rfl, hs⟩
  | cons a rest ih =>
    obtain ⟨g₁, hfirst, hrest⟩ := Option.bind_eq_some_iff.1 h
    obtain ⟨hevents, u, hu, hasked, hs₁⟩ := step?_halted ht hv hs hfirst
    obtain ⟨htrace, w, hw, hasked', hs'⟩ := ih ((step?_moves hfirst).tied ht) hu hs₁ hrest
    rw [trace_cons hfirst]
    exact ⟨List.forall_mem_cons.2 ⟨hevents, htrace⟩, w, hw, hasked'.trans hasked, hs'⟩

/-! ## Stopping a call -/

def Work.isAlive : Work → Bool
  | .alive .. => true
  | _ => false

theorem Work.Cut.not_alive {asked : Request} {old work : Work} (h : Work.Cut plan asked old work)
    (hold : old.isAlive = false) : work.isAlive = false := by
  cases h with
  | same => exact hold
  | expire | kill => rfl

theorem Severed.not_alive {request : Nat} (h : Severed g request g') (hk : g.calls[c]? = some k)
    (hw : k.work.isAlive = false) : ∀ l, g'.calls[c]? = some l → l.work.isAlive = false := by
  intro l hl
  obtain ⟨work, hl', hwork⟩ := h.calls c k hk
  obtain rfl := Option.some.inj (hl'.symm.trans hl)
  rcases hwork with rfl | ⟨-, r, -, hcut⟩
  · exact hw
  · exact hcut.not_alive hw

theorem endRun_not_alive {ending : Ending} (hk : g.calls[c]? = some k) (hr : g.requestOf? k = some r) :
    ∀ l, (g.endRun c ending).calls[c]? = some l → l.work.isAlive = false := by
  intro l hl
  unfold endRun at hl
  rw [hk] at hl
  simp only [hr] at hl
  split at hl
  next since opened id stdout hw heq =>
    simp only [setWork, modifyCall, List.getElem?_modify_eq, hk] at hl
    rw [← Option.some.inj hl]
    rfl
  next hno =>
    obtain rfl := Option.some.inj (hk.symm.trans hl)
    cases hw : k.work with
    | alive since opened id stdout => exact absurd rfl (hno since opened id stdout r hw)
    | _ => rfl

theorem killAll_not_alive {numbers : List Nat} (hc : c ∈ numbers) (hk : g.calls[c]? = some k)
    (hr : g.requestOf? k = some r) (hrequest : ∀ d ∈ numbers, ∀ l : Call, g.calls[d]? = some l → l.request = m) :
    ∀ l, (g.killAll numbers).calls[c]? = some l → l.work.isAlive = false := by
  induction numbers generalizing g k with
  | nil => cases hc
  | cons d rest ih =>
    have hfirst : Severed g m (g.endRun d .killed) := endRun_severed (hrequest d (by simp))
    have hrest (e : Nat) (he : e ∈ rest) (l : Call) (hl : (g.endRun d .killed).calls[e]? = some l) :
        l.request = m := by
      obtain ⟨l₀, work, hl₀, rfl⟩ := hfirst.back hl
      exact hrequest e (List.mem_cons_of_mem d he) l₀ hl₀
    obtain ⟨work, hk', -⟩ := hfirst.calls c k hk
    by_cases hd : c = d
    · subst hd
      exact (killAll_severed hrest).not_alive hk' (endRun_not_alive hk hr _ hk')
    · refine ih ((List.mem_cons.1 hc).resolve_left hd) hk' ?_ hrest
      rw [requestOf?, (endRun_frame g d .killed).1]
      exact hr

theorem cancelRequest_stops (hk : g.calls[c]? = some k) (hr : g.requestOf? k = some r) :
    (g.cancelRequest k.request).requestOf? k = some { r with cancelled := true } ∧
      ∀ l, (g.cancelRequest k.request).calls[c]? = some l → l.work.isAlive = false := by
  constructor
  · rw [requestOf?, cancelRequest, (killAll_frame _ _).1]
    rw [requestOf?] at hr
    simp [hr]
  · unfold cancelRequest
    refine killAll_not_alive (m := k.request) (r := { r with cancelled := true }) ?_ hk ?_ ?_
    · simp only [callsWith, List.mem_filter, List.mem_range, decide_eq_true_eq]
      exact ⟨(List.getElem?_eq_some_iff.1 hk).1, by rw [hk]; rfl⟩
    · rw [requestOf?] at hr ⊢
      simp [hr]
    · intro d hd l hl
      simp only [callsWith, List.mem_filter, decide_eq_true_eq] at hd
      have hl : g.calls[d]? = some l := hl
      rw [hl] at hd
      exact Option.some.inj hd.2

/-- What a time limit that expires makes of a call. -/
theorem expire_cases (h : g.callStep? c k r (.expire c) = some g') :
    g' = g.cancelRequest k.request ∨ (∃ since expired, k.work = .armed since expired ∧
      g' = g.setWork c (.armed since true)) ∨ (k.work.isAlive = true ∧ g' = g.endRun c .killed) ∨
        (k.work.isAlive = false ∧ k.work.launched = true ∧ g' = g) := by
  simp only [callStep?] at h
  split at h
  next hticking =>
    split at h
    · exact .inl (Option.some.inj h).symm
    · split at h
      next since expired hw => exact .inr (.inl ⟨since, expired, hw, (Option.some.inj h).symm⟩)
      next hw => exact .inr (.inr (.inl ⟨by rw [hw]; rfl, (Option.some.inj h).symm⟩))
      next hnotArmed hnotAlive =>
        refine .inr (.inr (.inr ⟨?_, ?_, (Option.some.inj h).symm⟩))
        · cases hw : k.work with
          | alive => exact absurd hw (hnotAlive _ _ _ _)
          | _ => rfl
        · cases hw : k.work with
          | idle => simp [hw, Work.ticking] at hticking
          | armed => exact absurd hw (hnotArmed _ _)
          | _ => rfl
  next => cases h

/-- The action cancels the request of a call, or it is the end of the call's time limit. -/
def Strikes (c : Nat) (k : Call) (a : Action) : Prop := a = .cancel k.request ∨ a = .expire c

/-- The run has ended because it was cancelled, and this is its error. -/
def Work.CancelledBy (work : Work) (e : RunError) : Prop :=
  (∃ o, work.result? = some o ∧ o.error? = some (.failed e)) ∧ e.cancelled = true

/-- What is left of a call that is struck. -/
inductive Struck (g' : Generator) (v : View) : View → Prop
  | before (work : Work) (hl : v.call.work.launched = false) (hs : g'.Stopped { v.call with work }) :
      Struck g' v (v.setWork work)
  | killed (since : Double) (o : Result) (e : RunError) (hw : v.call.work.isAlive = true)
      (he : (Work.over since o).CancelledBy e) (hcode : e.returnCode = v.asked.child.killCode) :
      Struck g' v (v.setWork (.over since o))
  | after (o : Result) (ho : v.call.work.result? = some o) : Struck g' v v

theorem launched_of_isAlive {work : Work} (h : work.isAlive = true) : work.launched = true := by
  cases work <;> first | rfl | cases h

/-- The call of a cancelled request is stopped if its encoder is not started yet, and its encoder does not run. -/
theorem cancelRequest_effect {work : Work} (hv : g.view? c = some v) (hcut : Work.Cut plan v.asked v.call.work work)
    (hw : (g.cancelRequest v.call.request).calls[c]? = some { v.call with work }) :
    (v.call.work.launched = false → (g.cancelRequest v.call.request).Stopped { v.call with work }) ∧
      work.isAlive = false := by
  obtain ⟨r, hk, hr, -⟩ := view?_eq_some hv
  obtain ⟨hr', hdead⟩ := cancelRequest_stops hk hr
  exact ⟨fun hl => ⟨(hcut.unlaunched hl).1, _, hr', by simp⟩, hdead _ hw⟩

theorem strike_effect {work : Work} (hv : g.view? c = some v) (ha : Strikes c v.call a) (h : g.step? a = some g')
    (hcut : Work.Cut plan v.asked v.call.work work) (hw : g'.view? c = some (v.setWork work)) :
    (v.call.work.launched = false → g'.Stopped { v.call with work }) ∧ work.isAlive = false := by
  have hcall : g'.calls[c]? = some { v.call with work } := (view?_parts hw).1
  rcases ha with rfl | rfl
  · cases step?_apart h rfl with
    | cancel m q hq => exact cancelRequest_effect hv hcut hcall
  · obtain ⟨k, r, hk, hr, hstep⟩ := callStep?_of_step? h (c := c) rfl
    obtain rfl : v.call = k := Option.some.inj ((view?_parts hv).1.symm.trans hk)
    rcases expire_cases hstep with rfl | ⟨since, expired, hold, rfl⟩ | ⟨halive, rfl⟩ | ⟨hdead, hl, rfl⟩
    · exact cancelRequest_effect hv hcut hcall
    · have hsame := Option.some.inj ((view?_setWork hv).symm.trans hw)
      obtain rfl : Work.armed since true = work := congrArg (fun w : View => w.call.work) hsame
      exact ⟨fun _ => ⟨rfl, r, hr, by simp [Work.expired]⟩, rfl⟩
    · exact ⟨fun hl => by simp [launched_of_isAlive halive] at hl, endRun_not_alive hk hr _ hcall⟩
    · have hsame := Option.some.inj (hv.symm.trans hw)
      have hwork : v.call.work = work := congrArg (fun w : View => w.call.work) hsame
      exact ⟨fun h => by simp [hl] at h, hwork ▸ hdead⟩

theorem strike_severed (ha : Strikes c k a) (h : g.step? a = some g') : ∃ request, Severed g request g' := by
  rcases ha with rfl | rfl
  · exact ⟨_, cancel_severed h⟩
  · obtain ⟨k, r, hk, hr, hstep⟩ := callStep?_of_step? h (c := c) rfl
    exact ⟨_, expire_severed hk hr hstep⟩

theorem step?_struck (hv : g.view? c = some v) (ha : Strikes c v.call a) (h : g.step? a = some g') :
    ∃ w, g'.view? c = some w ∧ Struck g' v w ∧ g'.outstanding = g.outstanding ∧ g'.queue = g.queue := by
  obtain ⟨request, hsevered⟩ := strike_severed ha h
  obtain ⟨work, hw, hcut, -⟩ := hsevered.view? hv
  obtain ⟨hstopped, hdead⟩ := strike_effect hv ha h hcut hw
  refine ⟨v.setWork work, hw, ?_, hsevered.outstanding, hsevered.queue⟩
  -- Before the launch the run is stopped; after it an encoder is killed, or the run has ended already.
  cases hl : v.call.work.launched with
  | false => exact .before work hl (hstopped hl)
  | true =>
    generalize hold : v.call.work = old at hcut
    cases hcut with
    | kill since opened duration id stdout =>
      obtain ⟨e, he, hcancelled, hcode⟩ :=
        Session.killed_runError? (v.session g.plan id) v.asked.child stdout duration
      exact .killed since _ e (by rw [hold]; rfl) ⟨⟨_, rfl, congrArg (Option.map CallError.failed) he⟩, hcancelled⟩ hcode
    | expire => simp [hold, Work.launched] at hl
    | same =>
      cases work with
      | alive => cases hdead
      | idle | armed => simp [hold, Work.launched] at hl
      | _ =>
        have hafter : Struck g' v v := .after _ (by rw [hold]; rfl)
        rwa [View.setWork, ← hold]

/-! ## The end of a call -/

theorem Path.result? {o : Result} (h : Path plan c v as v') (ho : v.call.work.result? = some o) :
    v'.call.work.result? = some o := by
  induction h with
  | nil => exact ho
  | turn h ht ih => exact ht.result? ih
  | cut h hc ih =>
    obtain rfl := hc.eq_of_result? ih
    exact ih

/-- Each action of its own brings a call with an outcome closer to its end, and nothing throws it back. -/
theorem Path.toGo {o : Result} (h : Path plan c v as v') (hs : v.Stage) (ho : v.call.work.result? = some o) :
    v'.Stage ∧ v'.toGo + as.length ≤ v.toGo := by
  induction h with
  | nil => exact ⟨hs, by simp⟩
  | turn h ht ih =>
    obtain ⟨hstage, hle⟩ := ih
    refine ⟨ht.stage hstage, ?_⟩
    rw [List.length_append, List.length_singleton]
    rcases ht.toGo hstage with hless | ⟨-, hp, -⟩
    · omega
    · have hidle := (hstage.of_blocked (.inr hp)).2.2
      have ho' := h.result? ho
      simp [hidle, Work.result?] at ho'
  | cut h hc ih =>
    have hcut := hc.toGo
    exact ⟨hc.stage ih.1, by omega⟩

theorem View.Stage.toGo_le {o : Result} (hs : v.Stage) (ho : v.call.work.result? = some o) : v.toGo ≤ 4 := by
  have hwork : v.call.work.ahead ≤ 3 := by
    cases hw : v.call.work <;> simp_all [Work.result?, Work.ahead]
  have hcaller : v.call.caller.ahead ≤ 1 := by
    cases v.call.caller <;> simp [Caller.ahead]
  unfold View.toGo Call.toGo
  cases hs with
  | running n hm hc hp | done n o hm hc hp hw => rcases hc with hc | ⟨id, hc⟩ <;> simp_all [Caller.ahead] <;> omega
  | _ => simp_all [Work.result?] <;> omega

theorem View.Stage.begun_of_result? {o : Result} (hs : v.Stage) (ho : v.call.work.result? = some o) :
    v.call.begun = true ∧ v.phase ≠ some .waiting := by
  cases hs with
  | running n hm hc hp | done n o hm hc hp hw => rcases hc with hc | ⟨id, hc⟩ <;> simp [Call.begun, hc, hp]
  | blocked hm hc hp hw => simp [hw, Work.result?] at ho
  | _ => simp_all [Call.begun, Work.result?]

/-- A call with an outcome goes on to its end, whatever happens meanwhile. -/
theorem run_through {o : Result} (hg : Sound g) (hv : g.view? c = some v) (ho : v.call.work.result? = some o)
    (h : g.run? as = some g') : ∃ w, g'.view? c = some w ∧ w.call.work.result? = some o ∧
      (actionsOf c as).length ≤ 4 ∧ (w.call.ended = true ∨ ∃ a, a.own? = some c ∧ (g'.step? a).isSome) := by
  obtain ⟨w, hw, hpath⟩ := run_path hg.tied h hv
  have hs := hg.stage c v hv
  have ho' := hpath.result? ho
  obtain ⟨hs', hle⟩ := hpath.toGo hs ho
  have hbound := hs.toGo_le ho
  refine ⟨w, hw, ho', by omega, ?_⟩
  cases hended : w.call.ended with
  | true => exact .inl rfl
  | false =>
    obtain ⟨hbegun, hwaiting⟩ := hs'.begun_of_result? ho'
    exact .inr ((counted_goes_on hw hs' hbegun hended).resolve_left hwaiting)

/-! ## What decides a run -/

theorem run_queue (h : g.run? as = some g') : g.queue <+: g'.queue := by
  refine run_inv (P := fun g' => g.queue <+: g'.queue) (fun hprefix h => hprefix.trans ?_) (List.prefix_refl _) h
  cases step?_moves h with
  | own c k k' r ds ha hk hr htouched hturn => exact htouched.queue ▸ List.prefix_append _ _
  | cut request ha hcuts hsevered => exact hsevered.queue ▸ List.prefix_refl _
  | aside ha haside => exact haside.queue ▸ List.prefix_refl _

/-- What decides how the run of a call ends. -/
structure Decided (g : Generator) (c : Nat) (v : View) : Prop where
  /-- A run that is struck before its encoder is started is stopped, an encoder that runs is killed, and a run that has
  ended stays as it is, like the count and all results that are delivered. -/
  strike : ∀ a g', Strikes c v.call a → g.step? a = some g' → ∃ w, g'.view? c = some w ∧ Struck g' v w ∧
    g'.outstanding = g.outstanding ∧ g'.queue = g.queue
  /-- A stopped run starts no encoder, and it has no outcome but this one. -/
  stopped : g.Stopped v.call → ∀ later g', g.run? later = some g' →
    (∀ e ∈ g.trace later, e.1 = .launch c → e.2 = []) ∧ ∃ w, g'.view? c = some w ∧
      (g'.Stopped w.call ∨ w.call.work.CancelledBy {
        cancelled := true, message := "Cancelled before start", returnCode := -1,
        stderr := "Cancelled before start", command := (v.session g.plan 0).command })
  /-- An encoder runs until it ends by itself or is killed. -/
  alive : v.call.work.isAlive = true → (g.step? (.exit c)).isSome ∧
    ∀ a g', g.step? a = some g' → a ≠ .exit c → ¬ Cuts g a v.call.request →
      ∃ w, g'.view? c = some w ∧ w.call.work = v.call.work
  /-- When it ends by itself its code decides. -/
  exit : ∀ g', g.step? (.exit c) = some g' → ∃ since o, g'.view? c = some (v.setWork (.over since (.ok o))) ∧
    (o.success = true ↔ v.asked.child.code = 0) ∧ (o.success = false → ∃ e, o.runError? = some e ∧
      e.cancelled = false ∧ e.returnCode = v.asked.child.code)
  /-- The outcome of a run is final, and the call goes on to its end whatever happens meanwhile. -/
  settled : ∀ o, v.call.work.result? = some o → ∀ later g', g.run? later = some g' →
    ∃ w, g'.view? c = some w ∧ w.call.work.result? = some o ∧ (actionsOf c later).length ≤ 4 ∧
      (w.call.ended = true ∨ ∃ a, a.own? = some c ∧ (g'.step? a).isSome)
  received : ∀ o, v.call.work.result? = some o → (∀ d ∈ v.results, d.error = o.error?) ∧
    ∀ error, v.call.caller = .finished error → error = o.error?
  delivered : ∀ later g', g.run? later = some g' → g.queue <+: g'.queue
  /-- Once nothing is asked of the generator any more, a call that was stopped or killed ends: it was refused, or it was
  cancelled. -/
  ends : (g.Stopped v.call ∨ ∃ e, v.call.work.CancelledBy e) → ∀ later g', g.run? later = some g' →
    (∀ a ∈ later, a.own?.isSome) → later.length ≤ g.rank ∧
      ((∀ a, a.own?.isSome → g'.step? a = none) → ∃ w, g'.view? c = some w ∧
        (w.call.caller.rejected = true ∨ w.call.work.finished = true ∧ ∃ e, w.call.work.CancelledBy e))

theorem Halted.cancelledBy (h : g.Halted v) : g.Stopped v.call ∨ v.call.work.CancelledBy {
    cancelled := true, message := "Cancelled before start", returnCode := -1, stderr := "Cancelled before start",
    command := (v.session g.plan 0).command } := by
  refine h.imp_right ?_
  rintro ⟨id, ho⟩
  exact ⟨⟨_, ho, congrArg (Option.map CallError.failed) (Session.cancelledBefore_runError? _)⟩, rfl⟩

theorem View.Inv.received {o : Result} (h : v.Inv plan c as) (ho : v.call.work.result? = some o) :
    (∀ d ∈ v.results, d.error = o.error?) ∧ ∀ error, v.call.caller = .finished error → error = o.error? := by
  constructor
  · intro d hd
    cases hdelivered : v.call.work.delivered? with
    | none => simp [h.receipt.pending hdelivered] at hd
    | some o' =>
      obtain rfl : o' = o := by
        cases hw : v.call.work <;> simp_all [Work.delivered?, Work.result?]
      cases hreceives : v.receives with
      | false => simp [h.receipt.unqueued hreceives] at hd
      | true =>
        obtain ⟨duration, hresults⟩ := h.receipt.delivered o' hdelivered hreceives
        rw [hresults, List.mem_singleton] at hd
        rw [hd]
  · intro error hc
    cases h.stage <;> simp_all [Work.result?]

theorem step?_alive (ht : Tied g) (hv : g.view? c = some v) (hw : v.call.work.isAlive = true)
    (h : g.step? a = some g') (ha : a ≠ .exit c) (hcuts : ¬ Cuts g a v.call.request) :
    ∃ w, g'.view? c = some w ∧ w.call.work = v.call.work := by
  rcases step?_view ht h hv with ⟨-, w, hw', hturn⟩ | ⟨-, work, hw', -, hsame⟩
  · refine ⟨w, hw', ?_⟩
    cases hturn with
    | exit => exact absurd rfl ha
    | arm since hr hold => simp [hold, Work.isAlive] at hw
    | skip since expired id hold | fail since expired id o hold | launch since opened expired id stdout hold
    | deliver since duration o hold | keep since o hold | leaveDirect o hold | leavePooled o hold =>
      simp [hold, Work.isAlive] at hw
    | _ => rfl
  · exact ⟨_, hw', hsame.resolve_right hcuts⟩

theorem exit_isSome (hv : g.view? c = some v) (hw : v.call.work.isAlive = true) : (g.step? (.exit c)).isSome := by
  obtain ⟨r, hk, hr, -⟩ := view?_eq_some hv
  rw [step?_eq_callStep? (c := c) rfl, hk, Option.bind_some, hr, Option.bind_some]
  cases hwork : v.call.work with
  | alive => simp [callStep?, hwork]
  | _ => simp [hwork, Work.isAlive] at hw

theorem exit_outcome (ht : Tied g) (hv : g.view? c = some v) (h : g.step? (.exit c) = some g') :
    ∃ since o, g'.view? c = some (v.setWork (.over since (.ok o))) ∧ (o.success = true ↔ v.asked.child.code = 0) ∧
      (o.success = false → ∃ e, o.runError? = some e ∧ e.cancelled = false ∧
        e.returnCode = v.asked.child.code) := by
  rcases step?_view ht h hv with ⟨-, w, hw, hturn⟩ | ⟨hown, -⟩
  · cases hturn with
    | exit since opened duration id stdout hold =>
      have hfresh : (v.session g.plan id).killed = false := rfl
      have hsuccess := Session.exited_success v.asked.child stdout duration hfresh
      refine ⟨since, _, hw, hsuccess, fun hfailed => Session.exited_runError? _ _ _ hfresh fun hcode => ?_⟩
      simp [hsuccess.2 hcode] at hfailed
  · exact absurd rfl hown

theorem run_cancelled {e : RunError} (hg : Sound g) (hv : g.view? c = some v) (he : v.call.work.CancelledBy e)
    (h : g.run? as = some g') : ∃ w, g'.view? c = some w ∧ w.call.work.CancelledBy e := by
  obtain ⟨⟨o, ho, hoe⟩, hcancelled⟩ := he
  obtain ⟨w, hw, ho', -⟩ := run_through hg hv ho h
  exact ⟨w, hw, ⟨o, ho', hoe⟩, hcancelled⟩

/-- A call that was stopped or killed ends in no other way. -/
theorem run_struck (hg : Backed g) (hv : g.view? c = some v)
    (hstruck : g.Stopped v.call ∨ ∃ e, v.call.work.CancelledBy e) (h : g.run? as = some g')
    (hended : ∀ k, g'.calls[c]? = some k → k.ended = true) : ∃ w, g'.view? c = some w ∧
      (w.call.caller.rejected = true ∨ w.call.work.finished = true ∧ ∃ e, w.call.work.CancelledBy e) := by
  have hhalf : ∃ w, g'.view? c = some w ∧ (g'.Stopped w.call ∨ ∃ e, w.call.work.CancelledBy e) := by
    rcases hstruck with hs | ⟨e, he⟩
    · obtain ⟨-, w, hw, -, hs'⟩ := run_halted hg.sound.tied hv (.inl hs) h
      exact ⟨w, hw, hs'.cancelledBy.imp_right fun he => ⟨_, he⟩⟩
    · obtain ⟨w, hw, he'⟩ := run_cancelled hg.sound hv he h
      exact ⟨w, hw, .inr ⟨e, he'⟩⟩
  obtain ⟨w, hw, hs⟩ := hhalf
  have hend := hended w.call (view?_parts hw).1
  rw [Call.ended, Bool.or_eq_true] at hend
  refine ⟨w, hw, ?_⟩
  rcases hs with ⟨hl, -⟩ | he
  · refine .inl (hend.resolve_right fun hfinished => ?_)
    cases hwork : w.call.work <;> simp_all [Work.launched, Work.finished]
  · exact hend.imp_right fun hfinished => ⟨hfinished, he⟩

/-- **What comes first decides.** That an encoder ends and that its end is noticed is one step here. A cancel between
the two would count as the first, with the code that the encoder has ended with. An encoder is also the only one
that holds its output: reading ends when the encoder does. -/
theorem run_decided {plan : Plan} {concurrency : Int} {clock : Double} {as : List Action} {g : Generator} {c : Nat}
    {k : Call} (h : (new plan concurrency clock).run? as = some g) (hk : g.calls[c]? = some k) :
    ∃ v, g.view? c = some v ∧ v.call = k ∧ Decided g c v := by
  have hg := run_backed h
  have ht := hg.sound.tied
  obtain ⟨r, hr, hv⟩ := ht.view? hk
  refine ⟨_, hv, rfl, ?_⟩
  constructor
  · exact fun a g' ha hstep => step?_struck hv ha hstep
  · intro hs later g' hlater
    obtain ⟨htrace, w, hw, hasked, hs'⟩ := run_halted ht hv (.inl hs) hlater
    have hcancelled := hs'.cancelledBy
    rw [View.session, hasked, run_plan hlater] at hcancelled
    exact ⟨htrace, w, hw, hcancelled⟩
  · exact fun halive => ⟨exit_isSome hv halive, fun a g' hstep ha hcuts => step?_alive ht hv halive hstep ha hcuts⟩
  · exact fun g' hstep => exit_outcome ht hv hstep
  · exact fun o ho later g' hlater => run_through hg.sound hv ho hlater
  · exact fun o ho => (run_view_inv h hv).received ho
  · exact fun later g' hlater => run_queue hlater
  · intro hstruck later g' hlater hown
    have hrank := run_rank hg hlater hown
    have hg' : Backed g' := run_inv step?_backed hg hlater
    exact ⟨by omega, fun hrest => run_struck hg hv hstruck hlater fun k hk => hg'.all_ended hrest hk⟩

/-- The request of a call is cancelled while its encoder runs, which then ends with code 0. Another call waits for the
slot meanwhile, and its request is cancelled, too. -/
def cancelledCalls : List Action :=
  [.request { media := "in.mp4", cancellable := true, queued := true, child := { killCode := 0 } },
    .request { media := "out.mp4", cancellable := true, queued := true }, .call 0 .pooled, .count 0, .enter 0,
    .start 0 true, .call 1 .pooled, .count 1, .enter 1, .cancel 1, .arm 0, .launch 0, .cancel 0, .deliver 0, .leave 0,
    .release 0, .enter 1, .start 1 true, .arm 1, .launch 1, .deliver 1]

/-- Whether the encoder was cancelled, and the code that it ended with. -/
def CallError.verdict? : CallError → Option (Bool × Int)
  | .failed e => some (e.cancelled, e.returnCode)
  | .broken _ => none

theorem run_decided_cancelled : ∃ g k v, (new barePlan 1).run? cancelledCalls = some g ∧ g.calls[1]? = some k ∧
    g.view? 1 = some v ∧ v.call = k ∧
    g.queue.map (fun d => d.error.bind CallError.verdict?) = [some (true, 0), some (true, -1)] ∧
    Decided g 1 v := by
  have hseen : ((new barePlan 1).run? cancelledCalls).map (fun g => (g.calls.length,
      g.queue.map fun d => d.error.bind CallError.verdict?)) =
      some (2, [some (true, 0), some (true, -1)]) := by decide +kernel
  obtain ⟨g, hg, hfields⟩ := Option.map_eq_some_iff.1 hseen
  obtain ⟨hlength, hqueue⟩ := Prod.mk.inj hfields
  have hk : g.calls[1]? = some g.calls[1] := List.getElem?_eq_getElem (by omega)
  obtain ⟨v, hv, hcall, hdecided⟩ := run_decided hg hk
  exact ⟨g, _, v, hg, hk, hv, hcall, hqueue, hdecided⟩

end Generator

end Thumbnailer
