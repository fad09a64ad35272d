import Thumbnailer.Proofs.Generator.Runs

/-!
# Results are delivered exactly once

`results_delivered_once` says of every pooled call in every run that its result is put on the queue exactly once if
the pool admits it, and never if the call is refused.
-/

namespace Thumbnailer.Generator

variable {g g' : Generator} {plan : Plan} {as : List Action} {c : Nat} {v : View}

/-- The call has exactly one result, and that is the one of its session, which has ended. -/
def View.Served (plan : Plan) (c : Nat) (v : View) : Prop :=
  ∃ d o, v.results = [d] ∧ d.call = c ∧ d.request = v.call.request ∧
    (v.call.work = .delivered o ∨ v.call.work = .left o) ∧ Ran plan v.asked o ∧
    d.error = o.error? ∧ (d.error = none ↔ o.succeeded = true)

/-- The call is over: it has given its slot back and its result is delivered, or it was refused for want of a
thread and has no result. -/
def View.Concluded (plan : Plan) (c : Nat) (v : View) : Prop :=
  (∃ n, v.phase = some (.done n) ∧ v.call.ended = true ∧ (v.asked.queued = true → v.Served plan c)) ∨
    (v.call.caller = .refused .noThread ∧ v.results = [])

/-- What becomes of a pooled call and its result. -/
structure DeliveredOnce (g : Generator) (as : List Action) (c : Nat) (v : View) : Prop where
  /-- As long as its encoder may still run there is no result. -/
  pending : v.call.work.delivered? = none → v.results = []
  served : v.asked.queued = true → v.call.work.delivered? ≠ none → v.Served g.plan c
  /-- The result is there before the call stops counting. -/
  counted : v.asked.queued = true → v.call.ended = true → v.call.caller.rejected = false → v.Served g.plan c
  refused : ∀ why, v.call.caller = .leaving why ∨ v.call.caller = .refused why →
    ∀ later h, g.run? later = some h → ∃ w, h.view? c = some w ∧ w.results = [] ∧
      (w.call.caller = .leaving why ∨ w.call.caller = .refused why) ∧ .launch c ∉ as ++ later
  /-- An admitted call comes to its end within a few actions of its own, whatever else happens meanwhile. -/
  admitted : v.admitted = true → ∀ later h, g.run? later = some h → ∃ w, h.view? c = some w ∧
    (actionsOf c later).length ≤ 8 ∧
      ((∀ a, a.own? = some c → h.step? a = none) → w.Concluded g.plan c)
  /-- Nothing that befalls another request touches its slot, its run or its results. -/
  alone : ∀ a g', g.step? a = some g' → a.own? ≠ some c → ∃ work, g'.view? c = some (v.setWork work) ∧
    Work.Cut g.plan v.asked v.call.work work ∧ (work = v.call.work ∨ Cuts g a v.call.request)
  slots : g.pool.running = g.pool.slots

theorem View.Inv.served (h : v.Inv plan c as) (hm : v.call.mode = .pooled) (hq : v.asked.queued = true)
    (hwork : v.call.work.delivered? ≠ none) : v.Served plan c := by
  obtain ⟨o, ho⟩ := Option.ne_none_iff_exists'.1 hwork
  obtain ⟨duration, hresults⟩ := h.receipt.delivered o ho (by simp [View.receives, hm, hq])
  have hvalid := h.valid
  refine ⟨_, o, hresults, rfl, rfl, ?_, ?_, rfl, error?_eq_none⟩
  · cases hw : v.call.work <;> simp_all [Work.delivered?]
  · cases hw : v.call.work <;> simp_all [Work.delivered?, Work.Valid]

theorem View.Inv.served_of_ended (h : v.Inv plan c as) (hm : v.call.mode = .pooled)
    (hq : v.asked.queued = true) (hended : v.call.ended = true) (hrejected : v.call.caller.rejected = false) :
    v.Served plan c := by
  apply h.served hm hq
  rw [Call.ended, hrejected, Bool.false_or] at hended
  cases hw : v.call.work <;> simp_all [Work.finished, Work.delivered?]

theorem View.Inv.concluded (h : v.Inv plan c as) (hm : v.call.mode = .pooled) (ha : v.admitted = true)
    (hahead : v.ahead = 0) : v.Concluded plan c := by
  rcases h.stage.of_ahead ha hahead with ⟨n, o, hp, hw⟩ | hc
  · refine .inl ⟨n, hp, by simp [Call.ended, Work.finished, hw], fun hq => ?_⟩
    exact h.served hm hq (by simp [hw, Work.delivered?])
  · have hwork : v.call.work = .idle := by
      cases h.stage <;> simp_all
    exact .inr ⟨hc, h.receipt.pending (by simp [hwork, Work.delivered?])⟩

theorem run_counted (h : g.run? as = some g') (hg : g.pool.Counted) : g'.pool.Counted :=
  (run_leads h).counted hg

theorem Path.mode {v' : View} (h : Path plan c v as v') : v'.call.mode = v.call.mode := by
  induction h with
  | nil => rfl
  | turn h ht ih =>
    rw [← ih]
    cases ht <;> rfl
  | cut h hc ih => exact ih

theorem View.Inv.refused {why : Pool.Refusal} {later : List Action} {w : View} (h : v.Inv plan c (actionsOf c as))
    (hpath : Path plan c v (actionsOf c later) w)
    (hc : v.call.caller = .leaving why ∨ v.call.caller = .refused why) :
    w.results = [] ∧ (w.call.caller = .leaving why ∨ w.call.caller = .refused why) ∧ .launch c ∉ as ++ later := by
  have hphase : v.phase = some (.refused why) := by
    rcases hc with hc | hc <;> cases h.stage <;> simp_all
  obtain ⟨hstage, hphase⟩ := hpath.refused h.stage hphase
  obtain ⟨hcaller, hwork⟩ := hstage.of_refused hphase
  have hw := hpath.inv h
  refine ⟨hw.receipt.pending (by rw [hwork]; rfl), hcaller, fun hmem => ?_⟩
  have hlaunched : w.call.work.launched = true := by
    apply hw.launched
    rw [actionsOf, actionsOf, ← List.filter_append]
    exact List.mem_filter.2 ⟨hmem, by simp [Action.own?, Action.call?]⟩
  rw [hwork] at hlaunched
  cases hlaunched

/-- **Results are delivered exactly once.** A plan has an observer for its callback and a request has free attributes:
a callback that ends with more than an error takes its worker down before there is a result, and an attribute with the
name of a record's own field breaks a run off while its encoder is still alive. -/
theorem results_delivered_once {plan : Plan} {concurrency : Int} {clock : Double} {as : List Action}
    {g : Generator} {c : Nat} {k : Call} (h : (new plan concurrency clock).run? as = some g)
    (hk : g.calls[c]? = some k) (hm : k.mode = .pooled) :
    ∃ v, g.view? c = some v ∧ v.call = k ∧ DeliveredOnce g as c v := by
  have ht := run_tied (new_tied plan concurrency clock) h
  have hplan : g.plan = plan := run_plan h
  obtain ⟨r, hr, hv⟩ := ht.view? hk
  have hinv := run_view_inv h hv
  refine ⟨_, hv, rfl, ?_⟩
  constructor
  · exact hinv.receipt.pending
  · intro hq hwork
    exact hplan ▸ hinv.served hm hq hwork
  · intro hq hended hrejected
    exact hplan ▸ hinv.served_of_ended hm hq hended hrejected
  · intro why hc later h' hlater
    obtain ⟨w, hw, hpath⟩ := run_path ht hlater hv
    exact ⟨w, hw, hinv.refused (hplan ▸ hpath) hc⟩
  · intro ha later h' hlater
    obtain ⟨w, hw, hpath⟩ := run_path ht hlater hv
    rw [hplan] at hpath ⊢
    obtain ⟨hstage, hadmitted, hle⟩ := hpath.ahead hinv.stage ha
    have hbound := (g.viewOf c k r).ahead_le
    refine ⟨w, hw, by omega, fun hnone => ?_⟩
    -- A call that cannot go on by itself has nothing ahead.
    have hahead : w.ahead = 0 := by
      by_cases hzero : w.ahead = 0
      · exact hzero
      · obtain ⟨a, hown, hsome⟩ := goes_on hw hstage hadmitted hzero
        simp [hnone a hown] at hsome
    exact (hpath.inv hinv).concluded (hpath.mode.trans hm) hadmitted hahead
  · intro a g' hstep ha
    rcases step?_view ht hstep hv with ⟨hown, -⟩ | ⟨-, hrest⟩
    · exact absurd hown ha
    · exact hrest
  · exact run_counted h (Pool.new_counted concurrency "ffthumbs")

/-- A plan without outputs, and all that happens in the life of a call whose encoder fails. -/
def barePlan : Plan := { program := "ffmpeg", graph := [], outputs := [] }

def failingCall : List Action :=
  [.request { media := "in.mp4", queued := true, child := { code := 1 } }, .call 0 .pooled, .count 0, .enter 0,
    .start 0 true, .answer 0, .arm 0, .launch 0, .exit 0, .deliver 0, .leave 0, .release 0]

theorem results_delivered_once_failed : ∃ g k v, (new barePlan 1).run? failingCall = some g ∧
    g.calls[0]? = some k ∧ k.mode = .pooled ∧ g.view? 0 = some v ∧ v.call = k ∧ v.results.length = 1 ∧
    DeliveredOnce g failingCall 0 v := by
  have hseen : ((new barePlan 1).run? failingCall).map
      (fun g => (g.calls.map Call.mode, (g.resultsOf 0).length)) = some ([.pooled], 1) := by decide +kernel
  obtain ⟨g, hg, hfields⟩ := Option.map_eq_some_iff.1 hseen
  obtain ⟨hmodes, hresults⟩ := Prod.mk.inj hfields
  obtain ⟨k, hcalls, hm⟩ := List.map_eq_singleton_iff.1 hmodes
  have hk : g.calls[0]? = some k := by
    rw [hcalls]
    rfl
  obtain ⟨v, hv, hcall, honce⟩ := results_delivered_once hg hk hm
  refine ⟨g, k, v, hg, hk, hm, hv, hcall, ?_, honce⟩
  obtain ⟨-, -, -, hsame⟩ := view?_parts hv
  rw [← hsame, hresults]

end Thumbnailer.Generator
