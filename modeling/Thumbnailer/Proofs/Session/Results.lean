import Thumbnailer.Proofs.Session.ErrorLine
import Thumbnailer.Proofs.Session.Terminal

/-!
# Results of sessions

A session comes to its result on one of three ways: it is cancelled before its start, its program cannot be
started, or the program runs to its end. On each of them the parts of the result agree. What can break a session
off before is the name of an attribute, a null character in an argument, or the callback.
-/

namespace Thumbnailer

/-! ## Outcomes whose parts agree -/

/-- The parts of an outcome agree: there is a text for the error exactly if there is an error. -/
structure Outcome.Consistent (o : Outcome) : Prop where
  cancelled : o.cancelled = true → o.success = false
  error_none : o.error = none ↔ o.success = true
  error_some : ∀ message, o.error = some message → message ≠ ""

theorem Outcome.Consistent.runError?_some {o : Outcome} (h : o.Consistent) {e : RunError}
    (he : o.runError? = some e) :
    e.cancelled = o.cancelled ∧ o.error = some e.message ∧ e.returnCode = o.returnCode ∧
      e.stderr = o.stderr ∧ e.command = o.command := by
  unfold Outcome.runError? at he
  split at he
  · cases he
  · next hfailed =>
    obtain ⟨message, hmessage⟩ := Option.ne_none_iff_exists'.1 (mt h.error_none.1 hfailed)
    obtain rfl := Option.some.inj he
    simp [hmessage, h.error_some message hmessage]

namespace Session

variable (s : Session) (child : Child) (cancel : Cancel)

theorem notStarted_consistent {message : String} (h : message ≠ "") (cancelled : Bool) :
    (s.notStarted message cancelled).Consistent where
  cancelled _ := rfl
  error_none := by simp [notStarted]
  error_some := by simpa [notStarted] using h

theorem outcome_success (stdout : List Char) (ending : Ending) (duration : Double) :
    (s.outcome child stdout ending duration).success = true ↔
      s.killed = false ∧ ending = .exited ∧ child.code = 0 := by
  cases ending <;> cases h : s.killed <;> simp [outcome, Child.endCode, h, -decide_eq_true_eq]
  exact decide_eq_true_iff

theorem outcome_cancelled (stdout : List Char) (ending : Ending) (duration : Double) :
    (s.outcome child stdout ending duration).cancelled = true ↔ s.killed = true ∨ ending = .killed := by
  cases ending <;> simp [outcome]

theorem outcome_consistent (stdout : List Char) (ending : Ending) (duration : Double) :
    (s.outcome child stdout ending duration).Consistent where
  cancelled := by cases ending <;> cases h : s.killed <;> simp [outcome, h]
  error_none := by cases ending <;> cases h : s.killed <;> simp [outcome, Child.endCode, h]
  error_some := by
    intro message h
    simp only [outcome] at h
    split at h
    · exact Option.some.inj h ▸ by simp [ToString.toString]
    · split at h
      · cases h
      · exact Option.some.inj h ▸ errorLine_ne_empty _

end Session

theorem SystemError.message_ne_empty (e : SystemError) (file : String) : e.message file ≠ "" := by
  simp [SystemError.message, ToString.toString]

namespace Cancel

theorem ending_eq_killed {cancel : Cancel} : cancel.ending = .killed ↔ cancel = .whileRunning := by
  cases cancel <;> simp [ending]

theorem ending_eq_exited {cancel : Cancel} : cancel.ending = .exited ↔ cancel ≠ .whileRunning := by
  cases cancel <;> simp [ending]

end Cancel

namespace Session

variable (s : Session) (child : Child) (cancel : Cancel)

/-! ## What breaks a session off -/

/-- The n-th report can be told about: its records can be made, and the callback does not break off. -/
structure Bears (n : Nat) (p : Progress) : Prop where
  logged : s.MayLog .info
  answered : ∀ callback ∈ s.callback, ∀ cause, callback n p ≠ .broke cause
  failed : ∀ callback ∈ s.callback, ∀ cause, callback n p = .failed cause → s.MayLog .error

theorem call_ok_iff {n : Nat} {p : Progress} {callback : Callback} : (s.call n p callback).result = .ok () ↔
    (∀ cause, callback n p ≠ .broke cause) ∧ ∀ cause, callback n p = .failed cause → s.MayLog .error := by
  rw [call, Course.bind_of_ok rfl]
  cases callback n p with
  | returned => simp
  | failed cause => simp [s.log_ok_iff]
  | broke cause => simp

theorem report_ok_iff {n : Nat} {p : Progress} : (s.report n p).result = .ok () ↔ s.Bears n p := by
  rw [report, Course.bind_unit_ok_iff, log_ok_iff]
  cases hc : s.callback with
  | none => exact ⟨fun h => ⟨h.1, by simp [hc], by simp [hc]⟩, fun h => ⟨h.logged, rfl⟩⟩
  | some callback =>
    refine (and_congr_right fun _ => s.call_ok_iff).trans ⟨fun ⟨hlog, hanswer, hfail⟩ => ⟨hlog, ?_, ?_⟩, fun h => ?_⟩
    · simpa [hc] using hanswer
    · simpa [hc] using hfail
    · exact ⟨h.logged, h.answered callback hc, h.failed callback hc⟩

theorem tell_ok_iff {n : Nat} {ps : List Progress} :
    (s.tell n ps).result = .ok () ↔ ∀ e ∈ ps.zipIdx n, s.Bears e.2 e.1 := by
  induction ps generalizing n with
  | nil => simp [tell]
  | cons p rest ih =>
    rw [tell, Course.bind_unit_ok_iff, report_ok_iff, ih, List.zipIdx_cons, List.forall_mem_cons]

/-- What a program that runs to its end comes to. -/
def ended : Outcome := s.outcome child (s.kept child) cancel.ending child.seconds

/-- Nothing breaks the session off once it is begun. -/
structure Undisturbed : Prop where
  launched : s.MayLog .debug
  accepted : child.refuses s.args = false
  failed : child.startError ≠ none → s.MayLog .error
  told : child.startError = none → ∀ e ∈ (s.reports child).zipIdx, s.Bears e.2 e.1
  closed : child.startError = none →
    s.MayLog (if s.killed = false ∧ cancel ≠ .whileRunning ∧ child.code = 0 then .info else .error)

/-- The program is started: the session is not cancelled before, and what comes before it is done. -/
structure Starts : Prop where
  begun : cancel ≠ .beforeStart
  launched : s.MayLog .debug
  accepted : child.refuses s.args = false
  possible : child.startError = none

instance : Decidable (s.Starts child cancel) :=
  decidable_of_iff (cancel ≠ .beforeStart ∧ s.MayLog .debug ∧ child.refuses s.args = false ∧ child.startError = none)
    ⟨fun h => ⟨h.1, h.2.1, h.2.2.1, h.2.2.2⟩, fun h => ⟨h.begun, h.launched, h.accepted, h.possible⟩⟩

/-- What explains that a session breaks off. -/
def Escaped : Escape → Prop
  | .reserved name => s.attributes.reserved? = some name
  | .nullCharacter => s.MayLog .debug ∧ child.refuses s.args = true
  | .callback cause => ∃ callback ∈ s.callback, ∃ e ∈ (s.reports child).zipIdx, callback e.2 e.1 = .broke cause

section
variable {s child cancel}

theorem starts_iff : s.Starts child cancel ↔ cancel ≠ .beforeStart ∧ (s.launch child).result = .ok none := by
  rw [launch_ok_iff]
  exact ⟨fun h => ⟨h.begun, h.launched, h.accepted, h.possible⟩, fun h => ⟨h.1, h.2.1, h.2.2.1, h.2.2.2⟩⟩

theorem finalLevel_ended : finalLevel (s.ended child cancel) =
    if s.killed = false ∧ cancel ≠ .whileRunning ∧ child.code = 0 then .info else .error := by
  have hsuccess := s.outcome_success child (s.kept child) cancel.ending child.seconds
  rw [Cancel.ending_eq_exited] at hsuccess
  exact if_congr hsuccess rfl rfl

theorem finish_ok_iff {stdout : List Char} {ending : Ending} {duration : Double} {o : Outcome} :
    (s.finish child stdout ending duration).result = .ok o ↔
      s.MayLog (finalLevel (s.outcome child stdout ending duration)) ∧ s.outcome child stdout ending duration = o := by
  rw [finish, Course.bind_unit_ok_iff, log_ok_iff, Course.pure_result, Except.ok.injEq]

/-- The three ways to a result. -/
inductive Came (s : Session) (child : Child) (cancel : Cancel) : Outcome → Prop
  | before : cancel = .beforeStart → Came s child cancel s.cancelledBefore
  | failed {e : SystemError} : cancel ≠ .beforeStart → child.startError = some e →
      Came s child cancel (s.notStarted (e.message s.program) false)
  | ended : s.Starts child cancel → Came s child cancel (s.ended child cancel)

theorem came_of_run {o : Outcome} (h : (s.run child cancel).result = .ok o) :
    s.Came child cancel o ∧ (cancel = .beforeStart ∨ s.Undisturbed child cancel) := by
  by_cases hbefore : cancel = .beforeStart
  · rw [run, if_pos hbefore] at h
    exact ⟨Except.ok.inj h ▸ .before hbefore, .inl hbefore⟩
  rw [run_eq _ _ hbefore, Course.bind_ok_iff] at h
  obtain ⟨failure, hlaunch, h⟩ := h
  obtain ⟨hmay, haccepted, hfailure⟩ := s.launch_ok_iff.1 hlaunch
  cases failure with
  | some e =>
    dsimp only at h
    rw [map_eq_pure_bind, Course.bind_unit_ok_iff, log_ok_iff] at h
    refine ⟨Except.ok.inj h.2 ▸ .failed hbefore hfailure, .inr ⟨hmay, haccepted, fun _ => h.1, ?_, ?_⟩⟩ <;>
      simp [hfailure]
  | none =>
    obtain ⟨htold, hfinish⟩ := Course.bind_unit_ok_iff.1 h
    obtain ⟨hclosed, rfl⟩ := finish_ok_iff.1 hfinish
    refine ⟨.ended ⟨hbefore, hmay, haccepted, hfailure⟩, .inr ⟨hmay, haccepted, ?_, fun _ => s.tell_ok_iff.1 htold,
      fun _ => finalLevel_ended ▸ hclosed⟩⟩
    simp [hfailure]

theorem exists_run (h : cancel = .beforeStart ∨ s.Undisturbed child cancel) :
    ∃ o, (s.run child cancel).result = .ok o := by
  by_cases hbefore : cancel = .beforeStart
  · exact ⟨_, by rw [run, if_pos hbefore]; rfl⟩
  have h := h.resolve_left hbefore
  have hlaunch := s.launch_ok_iff.2 ⟨h.launched, h.accepted, rfl⟩
  rw [run_eq _ _ hbefore, Course.bind_of_ok hlaunch]
  cases he : child.startError with
  | some e => exact ⟨_, by simp [s.log_of_mayLog (h.failed (by simp [he]))]; rfl⟩
  | none =>
    exact ⟨_, Course.bind_unit_ok_iff.2
      ⟨s.tell_ok_iff.2 (h.told he), finish_ok_iff.2 ⟨finalLevel_ended ▸ h.closed he, rfl⟩⟩⟩

/-! ## What explains that there is no result -/

theorem call_error {n : Nat} {p : Progress} {callback : Callback} {e : Escape}
    (h : (s.call n p callback).result = .error e) :
    (∃ name, s.attributes.reserved? = some name ∧ e = .reserved name) ∨
      ∃ cause, callback n p = .broke cause ∧ e = .callback cause := by
  rw [call, Course.bind_of_ok rfl] at h
  cases hanswer : callback n p with
  | returned => simp [hanswer] at h
  | failed cause =>
    simp only [hanswer] at h
    exact .inl (s.reserved_of_log_error h)
  | broke cause =>
    simp only [hanswer] at h
    exact .inr ⟨cause, rfl, (Except.error.inj h).symm⟩

theorem tell_error {n : Nat} {ps : List Progress} {e : Escape} (h : (s.tell n ps).result = .error e) :
    (∃ name, s.attributes.reserved? = some name ∧ e = .reserved name) ∨
      ∃ callback ∈ s.callback, ∃ q ∈ ps.zipIdx n, ∃ cause, callback q.2 q.1 = .broke cause ∧ e = .callback cause := by
  induction ps generalizing n with
  | nil => cases h
  | cons p rest ih =>
    obtain hreport | ⟨⟨⟩, -, hrest⟩ := Course.bind_error_iff.1 h
    · obtain hlog | ⟨⟨⟩, -, hcall⟩ := Course.bind_error_iff.1 hreport
      · exact .inl (s.reserved_of_log_error hlog)
      · cases hc : s.callback with
        | none => simp [hc] at hcall
        | some callback =>
          rw [hc] at hcall
          exact (s.call_error hcall).imp_right fun ⟨cause, hbroke, he⟩ =>
            ⟨callback, rfl, (p, n), List.mem_cons_self, cause, hbroke, he⟩
    · exact (ih hrest).imp_right fun ⟨callback, hc, q, hq, hbroke⟩ => ⟨callback, hc, q, List.mem_cons_of_mem _ hq, hbroke⟩

theorem launch_error {e : Escape} (h : (s.launch child).result = .error e) :
    (∃ name, s.attributes.reserved? = some name ∧ e = .reserved name) ∨
      s.MayLog .debug ∧ child.refuses s.args = true ∧ e = .nullCharacter := by
  by_cases hmay : s.MayLog .debug
  · rw [s.launch_of_mayLog child hmay] at h
    cases hrefuses : child.refuses s.args with
    | false => simp [hrefuses] at h
    | true => exact .inr ⟨hmay, rfl, by simpa [hrefuses] using h.symm⟩
  · obtain ⟨hl, name, hname⟩ := s.reserved_of_not_mayLog hmay
    rw [s.launch_of_reserved child hl hname] at h
    exact .inl ⟨name, hname, (Except.error.inj h).symm⟩

theorem escaped_of_run {e : Escape} (h : (s.run child cancel).result = .error e) :
    cancel ≠ .beforeStart ∧ s.Escaped child e := by
  have hbegun : cancel ≠ .beforeStart := by
    rintro rfl
    cases h
  refine ⟨hbegun, ?_⟩
  have hreserved {e : Escape} :
      (∃ name, s.attributes.reserved? = some name ∧ e = .reserved name) → s.Escaped child e := by
    rintro ⟨name, hname, rfl⟩
    exact hname
  rw [run_eq _ _ hbegun, Course.bind_error_iff] at h
  obtain hlaunch | ⟨failure, -, h⟩ := h
  · obtain hname | ⟨hmay, hrefuses, rfl⟩ := launch_error hlaunch
    · exact hreserved hname
    · exact ⟨hmay, hrefuses⟩
  cases failure with
  | some e' =>
    dsimp only at h
    rw [map_eq_pure_bind, Course.bind_error_iff] at h
    obtain hlog | ⟨⟨⟩, -, hpure⟩ := h
    · exact hreserved (s.reserved_of_log_error hlog)
    · cases hpure
  | none =>
    obtain htell | ⟨⟨⟩, -, hfinish⟩ := Course.bind_error_iff.1 h
    · obtain hname | ⟨callback, hc, q, hq, cause, hbroke, rfl⟩ := s.tell_error htell
      · exact hreserved hname
      · exact ⟨callback, hc, q, hq, hbroke⟩
    · obtain hlog | ⟨⟨⟩, -, hpure⟩ := Course.bind_error_iff.1 hfinish
      · exact hreserved (s.reserved_of_log_error hlog)
      · cases hpure

theorem refused_iff : (s.run child cancel).result = .error .nullCharacter ↔
    cancel ≠ .beforeStart ∧ s.MayLog .debug ∧ child.refuses s.args = true := by
  refine ⟨escaped_of_run, fun ⟨hbegun, hmay, hrefuses⟩ => ?_⟩
  rw [run_eq _ _ hbegun, s.launch_of_mayLog child hmay, hrefuses]
  rfl

/-! ## What is seen of a run -/

theorem finish_events {stdout : List Char} {ending : Ending} {duration : Double} :
    (s.finish child stdout ending duration).events =
      match (s.finish child stdout ending duration).result with
      | .ok o => s.recorded (finalLevel o) (s.finalMessage o)
      | .error _ => [] := by
  by_cases h : s.MayLog (finalLevel (s.outcome child stdout ending duration))
  · rw [finish, s.log_of_mayLog h, Course.bind_of_ok rfl]
    exact List.append_nil _
  · obtain ⟨hl, name, hname⟩ := s.reserved_of_not_mayLog h
    rw [finish, s.log_of_reserved hl hname]
    rfl

theorem run_filterMap {γ : Type} {f : Event → Option γ} (hbegun : cancel ≠ .beforeStart)
    (htold : (s.tell 0 (s.reports child)).All (f · = none))
    (hfailed : ∀ message : String, f (s.record .error s!"{s.name} start failed: {message}") = none) :
    (s.run child cancel).events.filterMap f = (s.launch child).events.filterMap f ++
      match (s.run child cancel).result with
      | .ok o =>
        if s.Starts child cancel then (s.recorded (finalLevel o) (s.finalMessage o)).filterMap f else []
      | .error _ => [] := by
  rw [run_eq _ _ hbegun, Course.bind_events, List.filterMap_append]
  congr 1
  cases hlaunch : (s.launch child).result with
  | error e => rw [Course.bind_of_error hlaunch]; rfl
  | ok failure =>
    rw [Course.bind_of_ok hlaunch]
    cases failure with
    | some e =>
      have hnot : ¬s.Starts child cancel := fun h => by simp [(starts_iff.1 h).2] at hlaunch
      simp only [(s.log_all (hfailed _)).map.filterMap, if_neg hnot]
      split <;> rfl
    | none =>
      simp only [if_pos (starts_iff.2 ⟨hbegun, hlaunch⟩), Course.bind_events, List.filterMap_append, htold.filterMap,
        List.nil_append]
      cases htell : (s.tell 0 (s.reports child)).result with
      | error e => rw [Course.bind_of_error htell]; rfl
      | ok =>
        simp only [Course.bind_of_ok htell, finish_events]
        cases (s.finish child (s.kept child) cancel.ending child.seconds).result <;> rfl

end

/-! ## The law of results -/

/-- How the parts of a result fit together. -/
structure Fits (o : Outcome) : Prop where
  success : o.success = true ↔
    s.Starts child cancel ∧ s.killed = false ∧ cancel ≠ .whileRunning ∧ child.code = 0
  /-- It is cancelled if the program was not started, or was killed, for that reason. -/
  cancelled : o.cancelled = true ↔
    cancel = .beforeStart ∨ s.Starts child cancel ∧ (s.killed = true ∨ cancel = .whileRunning)
  consistent : o.Consistent
  notStarted : ¬s.Starts child cancel → o.returnCode = -1 ∧ o.stdout = "" ∧ o.error = some o.stderr
  /-- An error is raised exactly without success, and it tells what is known. -/
  raises : o.runError? = none ↔ o.success = true
  raised : ∀ e, o.runError? = some e → e.cancelled = o.cancelled ∧ o.error = some e.message ∧
    e.returnCode = o.returnCode ∧ e.stderr = o.stderr ∧ e.command = o.command

/-- What a run comes to that is cancelled at some time. -/
structure Resulted (c : Course Outcome) : Prop where
  /-- The program is started once, or not at all if the session was cancelled or broke off before. -/
  attempts : c.events.filterMap Event.launch? = if cancel ≠ .beforeStart ∧ s.MayLog .debug then [s.args] else []
  /-- There is a result exactly if nothing breaks the session off. -/
  comes : (∃ o, c.result = .ok o) ↔ cancel = .beforeStart ∨ s.Undisturbed child cancel
  escaped : ∀ e, c.result = .error e → s.Escaped child e
  refused : c.result = .error .nullCharacter ↔
    cancel ≠ .beforeStart ∧ s.MayLog .debug ∧ child.refuses s.args = true
  fits : ∀ o, c.result = .ok o → s.Fits child cancel o
  /-- A session whose program is started logs one terminal record, if such records are made, and others log none. -/
  terminal : ∀ o, c.result = .ok o → c.events.filterMap s.terminal? =
    if s.Starts child cancel then [if o.success then .info else .error].filter s.isLogging else []
  silent : ∀ e, c.result = .error e → c.events.filterMap s.terminal? = []

section
variable {s child cancel}

theorem runError?_eq_none {o : Outcome} : o.runError? = none ↔ o.success = true := by
  unfold Outcome.runError?
  cases o.success <;> simp

theorem fits_of_came {o : Outcome} (h : s.Came child cancel o) : s.Fits child cancel o := by
  have hraises : o.runError? = none ↔ o.success = true := runError?_eq_none
  cases h with
  | before hbefore =>
    have hnot : ¬s.Starts child cancel := fun h => h.begun hbefore
    have hconsistent := s.notStarted_consistent (by decide : "Cancelled before start" ≠ "") true
    exact {
      success := by simp [cancelledBefore, notStarted, hnot]
      cancelled := by simp [cancelledBefore, notStarted, hbefore]
      consistent := hconsistent
      notStarted := fun _ => ⟨rfl, rfl, rfl⟩
      raises := hraises
      raised := fun _ => hconsistent.runError?_some }
  | failed hbegun he =>
    rename_i e
    have hnot : ¬s.Starts child cancel := fun h => by simp [h.possible] at he
    have hconsistent := s.notStarted_consistent (e.message_ne_empty s.program) false
    exact {
      success := by simp [Session.notStarted, hnot]
      cancelled := by simp [Session.notStarted, hnot, hbegun]
      consistent := hconsistent
      notStarted := fun _ => ⟨rfl, rfl, rfl⟩
      raises := hraises
      raised := fun _ => hconsistent.runError?_some }
  | ended hstarts =>
    have hconsistent := s.outcome_consistent child (s.kept child) cancel.ending child.seconds
    exact {
      success := by rw [ended, outcome_success, Cancel.ending_eq_exited]; simp [hstarts]
      cancelled := by rw [ended, outcome_cancelled, Cancel.ending_eq_killed]; simp [hstarts, hstarts.begun]
      consistent := hconsistent
      notStarted := fun hnot => absurd hstarts hnot
      raises := hraises
      raised := fun _ => hconsistent.runError?_some }

theorem resulted : s.Resulted child cancel (s.run child cancel) := by
  have hcomes : (∃ o, (s.run child cancel).result = .ok o) ↔ cancel = .beforeStart ∨ s.Undisturbed child cancel :=
    ⟨fun ⟨_, h⟩ => (came_of_run h).2, exists_run⟩
  have hfinal (o : Outcome) : (s.recorded (finalLevel o) (s.finalMessage o)).filterMap s.terminal? =
      [if o.success then .info else .error].filter s.isLogging := by
    show _ = [finalLevel o].filter s.isLogging
    unfold recorded
    split
    · next hl => rw [List.filterMap_cons_some (s.terminal?_final o), List.filter_cons_of_pos hl]; rfl
    · next hl => rw [List.filter_cons_of_neg hl]; rfl
  by_cases hbegun : cancel = .beforeStart
  · have hrun : s.run child cancel = pure s.cancelledBefore := if_pos hbegun
    have hnot : ¬s.Starts child cancel := fun h => h.begun hbegun
    exact {
      attempts := by rw [hrun, if_neg fun h => h.1 hbegun]; rfl
      comes := hcomes
      escaped := fun _ he => (escaped_of_run he).2
      refused := refused_iff
      fits := fun _ ho => fits_of_came (came_of_run ho).1
      terminal := fun _ _ => by simp [hrun, hnot]
      silent := fun _ _ => by simp [hrun] }
  · have hattempts := run_filterMap hbegun (s.tell_launch? 0 (s.reports child)) (f := Event.launch?) fun _ => rfl
    have hterminal := run_filterMap hbegun (s.tell_terminal? (s.reports_spaceless child) 0) fun message =>
      s.terminal?_record_eq_none fun _ hstart => Option.some.inj hstart ▸ s.not_prefix_start message
    have hlast (o : Outcome) : (s.recorded (finalLevel o) (s.finalMessage o)).filterMap Event.launch? = [] := by
      unfold recorded
      split <;> rfl
    rw [(s.launch_terminal? child).filterMap, List.nil_append] at hterminal
    exact {
      attempts := by
        rw [hattempts, launch_launch?, if_congr (and_iff_right hbegun) rfl rfl]
        cases (s.run child cancel).result <;> simp [hlast]
      comes := hcomes
      escaped := fun _ he => (escaped_of_run he).2
      refused := refused_iff
      fits := fun _ ho => fits_of_came (came_of_run ho).1
      terminal := fun o ho => by simp [hterminal, ho, hfinal]
      silent := fun e he => by simp [hterminal, he] }

/-! ## Further runs -/

theorem starts_killed_iff {killed : Bool} : ({ s with killed } : Session).Starts child cancel ↔ s.Starts child cancel :=
  ⟨fun h => ⟨h.begun, h.launched, h.accepted, h.possible⟩, fun h => ⟨h.begun, h.launched, h.accepted, h.possible⟩⟩

theorem after_eq : s.after child cancel =
    { s with killed := s.killed || decide (cancel = .whileRunning ∧ s.Starts child cancel) } := by
  by_cases h : cancel = .whileRunning ∧ s.Starts child cancel
  · obtain ⟨rfl, hstarts⟩ := h
    simp [after, (starts_iff.1 hstarts).2, hstarts]
  · have hafter : s.after child cancel = s := by
      unfold after
      split
      · next hlaunch => exact absurd ⟨rfl, starts_iff.2 ⟨by decide, hlaunch⟩⟩ h
      · rfl
    simp [hafter, h]

theorem afterAll_eq (s : Session) (runs : List (Child × Cancel)) : s.afterAll runs =
    { s with killed := s.killed || runs.any fun r => decide (r.2 = .whileRunning ∧ s.Starts r.1 r.2) } := by
  induction runs generalizing s with
  | nil => simp [afterAll]
  | cons r rest ih =>
    have hrest := ih (s.after r.1 r.2)
    rw [afterAll, List.foldl_cons, ← afterAll, hrest, after_eq]
    simp only [starts_killed_iff, List.any_cons, Bool.or_assoc]

end

/-- **Results of sessions.** For every session, whatever it ran before, every program, and whenever the session is
cancelled. That a program was killed in an earlier run counts in each later one. -/
theorem run_resulted (s : Session) (earlier : List (Child × Cancel)) (child : Child) (cancel : Cancel) :
    ∃ killed, s.afterAll earlier = { s with killed } ∧
      (killed = true ↔ s.killed = true ∨ ∃ r ∈ earlier, r.2 = .whileRunning ∧ s.Starts r.1 r.2) ∧
      ({ s with killed } : Session).Resulted child cancel (({ s with killed } : Session).run child cancel) :=
  ⟨_, s.afterAll_eq earlier, by simp, resulted⟩

/-- The name of an attribute, or a null character, leaves a session without a result, and a run after one that was
killed has no success although its program ends well. -/
theorem run_unresulted :
    ({ program := "ffmpeg", attributes := [("name", .text "x")] } : Session).run {} .never =
        ⟨.error (.reserved "name"), []⟩ ∧
      (({ program := "ffmpeg", arguments := ["a\x00"] } : Session).run {} .never).result = .error .nullCharacter ∧
      ((({ program := "ffmpeg" } : Session).afterAll [({}, .whileRunning)]).run {} .never).result.map Outcome.success =
        .ok false := by
  decide +kernel

end Session

end Thumbnailer
