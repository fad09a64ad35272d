import Thumbnailer.Proofs.Session.Results

/-!
# Observers of a session

A session tells about the progress of its program in its log and to a callback. Whether the callback returns or
fails, and whether the output is kept or not, the same is told, and the session comes to the same result. The
attributes of its records must leave their own fields alone, and a callback that ends with more than an error is no
observer.
-/

namespace Thumbnailer

namespace Event

def report? : Event → Option Progress
  | .report p => some p
  | _ => none

/-- The callback was called, or its error was logged. -/
def ofCallback : Event → Bool
  | .report _ => true
  | .log r => r.cause.isSome
  | .launch _ _ => false

end Event

namespace Session

variable (s : Session)

/-- The session with another callback, or with none. -/
def watchedBy (observer : Option Observer) : Session := { s with callback := observer.map Observer.callback }

/-- What the program writes to its standard output. -/
def written (child : Child) (cancel : Cancel) : List Char := if s.Starts child cancel then child.stdoutText else []

/-! ## What is told of reports -/

/-- The record of the error that a call of the observer ends with, if it ends with one. -/
def failure : Option String → List Event
  | none => []
  | some cause => s.recorded .error "Progress callback failed" (some cause)

/-- The n-th call of the observer, if there is one. -/
def callEvents (observer : Option Observer) (n : Nat) (p : Progress) : List Event :=
  match observer with
  | none => []
  | some o => .report p :: s.failure (o n p)

/-- What is told of reports from the n-th on: each is logged and then given to the observer. -/
def told (observer : Option Observer) (n : Nat) (reports : List Progress) : List Event :=
  (reports.zipIdx n).flatMap fun e => s.recorded .info (progressMessage e.1) ++ s.callEvents observer e.2 e.1

section
variable {s} (observer : Option Observer) (n : Nat)

theorem told_cons (p : Progress) (reports : List Progress) : s.told observer n (p :: reports) =
    s.recorded .info (progressMessage p) ++ s.callEvents observer n p ++ s.told observer (n + 1) reports := rfl

theorem report_eq (h : s.attributes.reserved? = none) (p : Progress) : (s.watchedBy observer).report n p =
    ⟨.ok (), s.recorded .info (progressMessage p) ++ s.callEvents observer n p⟩ := by
  rw [report, log_of_mayLog (s.watchedBy observer) (mayLog_of_free _ h _), Course.bind_of_ok rfl]
  cases observer with
  | none => rfl
  | some o =>
    have hcall : (s.watchedBy (some o)).call n p o.callback = ⟨.ok (), s.callEvents (some o) n p⟩ := by
      rw [call, Course.bind_of_ok rfl, Observer.callback, callEvents]
      cases o n p with
      | none => rfl
      | some cause => simp only [log_of_mayLog (s.watchedBy (some o)) (mayLog_of_free _ h _)]; rfl
    show Course.mk ((s.watchedBy (some o)).call n p o.callback).result
      (_ ++ ((s.watchedBy (some o)).call n p o.callback).events) = _
    rw [hcall]
    rfl

theorem tell_eq (h : s.attributes.reserved? = none) (ps : List Progress) :
    (s.watchedBy observer).tell n ps = ⟨.ok (), s.told observer n ps⟩ := by
  induction ps generalizing n with
  | nil => rfl
  | cons p rest ih => rw [tell, report_eq observer n h, ih, Course.bind_of_ok rfl, told_cons]

theorem recorded_report? {level : Level} {message : String} {cause : Option String} :
    (s.recorded level message cause).filterMap Event.report? = [] := by
  unfold recorded
  split <;> rfl

theorem callEvents_report? (p : Progress) :
    (s.callEvents observer n p).filterMap Event.report? = if observer.isSome then [p] else [] := by
  have hfailure (error : Option String) : (s.failure error).filterMap Event.report? = [] := by
    cases error with
    | none => rfl
    | some cause => exact recorded_report?
  cases observer with
  | none => rfl
  | some o => exact congrArg (p :: ·) (hfailure _)

theorem told_report? (reports : List Progress) :
    (s.told observer n reports).filterMap Event.report? = if observer.isSome then reports else [] := by
  induction reports generalizing n with
  | nil => cases observer <;> rfl
  | cons p rest ih =>
    rw [told_cons, List.filterMap_append, List.filterMap_append, recorded_report?, callEvents_report?, ih]
    split <;> rfl

theorem recorded_filter {level : Level} {message : String} :
    (s.recorded level message).filter (fun e => !e.ofCallback) = s.recorded level message := by
  unfold recorded
  split <;> rfl

theorem callEvents_filter (p : Progress) : (s.callEvents observer n p).filter (fun e => !e.ofCallback) = [] := by
  have hfailure (error : Option String) : (s.failure error).filter (fun e => !e.ofCallback) = [] := by
    cases error with
    | none => rfl
    | some cause =>
      rw [failure, recorded]
      split <;> rfl
  cases observer with
  | none => rfl
  | some o => exact hfailure _

theorem told_filter (reports : List Progress) : (s.told observer n reports).filter (fun e => !e.ofCallback) =
    reports.flatMap fun p => s.recorded .info (progressMessage p) := by
  induction reports generalizing n with
  | nil => rfl
  | cons p rest ih =>
    rw [told_cons, List.filter_append, List.filter_append, recorded_filter, callEvents_filter, ih, List.append_nil,
      List.flatMap_cons]

end

/-! ## What a session shows apart from reports -/

def opening (cancel : Cancel) : List Event :=
  if cancel = .beforeStart then []
  else s.recorded .debug s!"Launching {s.name}: {s.command}" ++ [.launch s.args s.piped]

/-- What a session comes to, with no word about the callback. -/
def result (child : Child) (cancel : Cancel) : Except Escape Outcome :=
  if cancel = .beforeStart then .ok s.cancelledBefore
  else if child.refuses s.args then .error .nullCharacter
  else match child.startError with
    | some e => .ok (s.notStarted (e.message s.program) false)
    | none => .ok (s.ended child cancel)

def closing (child : Child) (cancel : Cancel) : List Event :=
  if cancel = .beforeStart ∨ child.refuses s.args then []
  else match child.startError with
    | some e => s.recorded .error s!"{s.name} start failed: {e.message s.program}"
    | none => s.recorded (finalLevel (s.ended child cancel)) (s.finalMessage (s.ended child cancel))

section
variable {s} {child : Child} {cancel : Cancel}

/-- The reports that the program makes, if it is started and they are read. -/
def toldReports (s : Session) (child : Child) (cancel : Cancel) : List Progress :=
  if s.readsProgress then Progress.reports (s.written child cancel) else []

theorem toldReports_of_starts (h : s.Starts child cancel) : s.toldReports child cancel = s.reports child := by
  rw [toldReports, written, if_pos h, reports]

theorem toldReports_of_not_starts (h : ¬s.Starts child cancel) : s.toldReports child cancel = [] := by
  rw [toldReports, written, if_neg h]
  split <;> rfl

theorem run_of_free (h : s.attributes.reserved? = none) (observer : Option Observer) :
    (s.watchedBy observer).run child cancel = ⟨s.result child cancel,
      s.opening cancel ++ s.told observer 0 (s.toldReports child cancel) ++ s.closing child cancel⟩ := by
  have hmay : ∀ level, (s.watchedBy observer).MayLog level := mayLog_of_free _ h
  -- The session is cancelled before, its arguments are refused, the program cannot be started, or it runs to its end.
  by_cases hbefore : cancel = .beforeStart
  · rw [toldReports_of_not_starts fun hs => hs.begun hbefore, run, if_pos hbefore]
    simp only [result, opening, closing, hbefore, if_true, true_or]
    rfl
  have hlaunch : (s.watchedBy observer).launch child =
      ⟨if child.refuses s.args then .error .nullCharacter else .ok child.startError, s.opening cancel⟩ := by
    rw [opening, if_neg hbefore]
    exact launch_of_mayLog _ _ (hmay .debug)
  rw [run_eq _ _ hbefore, hlaunch, result, if_neg hbefore, closing]
  cases hrefuses : child.refuses s.args with
  | true =>
    rw [toldReports_of_not_starts fun hs => by simp [hs.accepted] at hrefuses]
    simp [Course.bind_of_error, told]
  | false =>
    cases hfailure : child.startError with
    | some e =>
      rw [toldReports_of_not_starts fun hs => by simp [hs.possible] at hfailure]
      simp only [Bool.false_eq_true, if_false, or_false, if_neg hbefore, Course.ok_bind, Course.map_result,
        Course.map_events, log_of_mayLog _ (hmay .error)]
      exact Course.ext rfl (congrArg (· ++ _) (List.append_nil _).symm)
    | none =>
      have hstarts : s.Starts child cancel := ⟨hbefore, mayLog_of_free s h _, hrefuses, hfailure⟩
      have hfinish : (s.watchedBy observer).finish child ((s.watchedBy observer).kept child) cancel.ending child.seconds =
          ⟨.ok (s.ended child cancel), s.recorded (finalLevel (s.ended child cancel))
            (s.finalMessage (s.ended child cancel))⟩ := by
        rw [finish, log_of_mayLog _ (hmay _), Course.bind_of_ok rfl]
        exact Course.ext rfl (List.append_nil _)
      rw [toldReports_of_starts hstarts]
      simp only [Bool.false_eq_true, if_false, or_false, if_neg hbefore, Course.ok_bind, tell_eq observer 0 h, hfinish]
      exact Course.ext rfl (List.append_assoc ..).symm

theorem result_ok_iff :
    (∃ o, s.result child cancel = .ok o) ↔ cancel = .beforeStart ∨ child.refuses s.args = false := by
  unfold result
  by_cases hbefore : cancel = .beforeStart
  · simp [hbefore]
  · cases child.refuses s.args <;> cases child.startError <;> simp [hbefore]

theorem result_stdout (h : s.attributes.reserved? = none) {o : Outcome} (ho : s.result child cancel = .ok o) :
    o.stdout.toList = if s.keepsStdout then s.written child cancel else [] := by
  unfold result at ho
  by_cases hbefore : cancel = .beforeStart
  · have hnot : ¬s.Starts child cancel := fun hs => hs.begun hbefore
    rw [if_pos hbefore] at ho
    simp [← Except.ok.inj ho, cancelledBefore, notStarted, written, hnot]
  rw [if_neg hbefore] at ho
  cases hrefuses : child.refuses s.args with
  | true => simp [hrefuses] at ho
  | false =>
    cases hfailure : child.startError with
    | some e =>
      have hnot : ¬s.Starts child cancel := fun hs => by simp [hs.possible] at hfailure
      simp only [hrefuses, hfailure, Bool.false_eq_true, if_false] at ho
      simp [← Except.ok.inj ho, notStarted, written, hnot]
    | none =>
      have hstarts : s.Starts child cancel := ⟨hbefore, mayLog_of_free s h _, hrefuses, hfailure⟩
      simp only [hrefuses, hfailure, Bool.false_eq_true, if_false] at ho
      simp [← Except.ok.inj ho, ended, outcome, kept, written, hstarts]

/-- The last record of a session is no record of a report: that one has four spaces, and they stand elsewhere. -/
theorem final_ne_progress (o : Outcome) {p : Progress} (h : p.Spaceless) :
    s.record (finalLevel o) (s.finalMessage o) ≠ s.record .info (progressMessage p) := by
  intro heq
  have hrecord := Event.log.inj heq
  have hlevel : finalLevel o = .info := congrArg Record.level hrecord
  have hmessage : s.finalMessage o = progressMessage p := congrArg Record.message hrecord
  have hsuccess : o.success = true := by
    unfold finalLevel at hlevel
    split at hlevel
    · assumption
    · cases hlevel
  have hprefix := s.finalMessage_of_success hsuccess
  rw [hmessage] at hprefix
  exact s.not_prefix_progress h hprefix

theorem mem_recorded {level : Level} {message : String} {cause : Option String} {e : Event}
    (h : e ∈ s.recorded level message cause) : e = s.record level message cause := by
  unfold recorded at h
  split at h
  · exact List.mem_singleton.1 h
  · cases h

theorem not_told {e : Event} (he : e ∈ s.opening cancel ++ s.closing child cancel) :
    e.ofCallback = false ∧ ∀ p : Progress, p.Spaceless → e ≠ s.record .info (progressMessage p) := by
  obtain hopening | hclosing := List.mem_append.1 he
  · unfold opening at hopening
    split at hopening
    · cases hopening
    · obtain hrecord | hlaunch := List.mem_append.1 hopening
      · obtain rfl := mem_recorded hrecord
        exact ⟨rfl, fun p _ => by simp [record]⟩
      · obtain rfl := List.mem_singleton.1 hlaunch
        exact ⟨rfl, fun p _ => by simp [record]⟩
  · unfold closing at hclosing
    split at hclosing
    · cases hclosing
    · split at hclosing
      · obtain rfl := mem_recorded hclosing
        exact ⟨rfl, fun p _ => by simp [record]⟩
      · obtain rfl := mem_recorded hclosing
        exact ⟨rfl, fun p hp => final_ne_progress _ hp⟩

theorem run_filter (h : s.attributes.reserved? = none) (observer : Option Observer) :
    ((s.watchedBy observer).run child cancel).events.filter (fun e => !e.ofCallback) =
      s.opening cancel ++
        (s.toldReports child cancel).flatMap (fun p => s.recorded .info (progressMessage p)) ++
        s.closing child cancel := by
  rw [run_of_free h, List.filter_append, List.filter_append, told_filter, List.filter_eq_self.2, List.filter_eq_self.2]
  · exact fun e he => by simp [(not_told (List.mem_append_right _ he)).1]
  · exact fun e he => by simp [(not_told (List.mem_append_left (s.closing child cancel) he)).1]

theorem run_report? (h : s.attributes.reserved? = none) (observer : Option Observer) :
    ((s.watchedBy observer).run child cancel).events.filterMap Event.report? =
      if s.readsProgress ∧ observer.isSome then Progress.reports (s.written child cancel) else [] := by
  have hnone {e : Event} (he : e.ofCallback = false) : e.report? = none := by
    cases e with
    | report p => cases he
    | launch | log => rfl
  rw [run_of_free h, List.filterMap_append, List.filterMap_append, told_report?,
    List.filterMap_eq_nil_iff.2 fun e he => hnone (not_told (List.mem_append_left (s.closing child cancel) he)).1,
    List.filterMap_eq_nil_iff.2 fun e he => hnone (not_told (List.mem_append_right _ he)).1, toldReports]
  cases s.readsProgress <;> cases observer.isSome <;> simp

end

/-- What an observer sees of a session, and what the session makes of it. -/
structure Observed (observer : Option Observer) (child : Child) (cancel : Cancel) (c : Course Outcome) : Prop where
  /-- Each report is logged and then given to the observer, in order, and nothing else looks like it. -/
  told : ∃ opening closing, c.events = opening ++ s.told observer 0 (s.toldReports child cancel) ++ closing ∧
    ∀ e ∈ opening ++ closing, e.ofCallback = false ∧
      ∀ p ∈ Progress.reports (s.written child cancel), e ≠ s.record .info (progressMessage p)
  called : c.events.filterMap Event.report? =
    if s.readsProgress ∧ observer.isSome then Progress.reports (s.written child cancel) else []
  comes : (∃ o, c.result = .ok o) ↔ cancel = .beforeStart ∨ child.refuses s.args = false
  /-- The output is kept without loss, or not at all. -/
  stdout : ∀ o, c.result = .ok o → o.stdout.toList = if s.keepsStdout then s.written child cancel else []
  /-- With another observer, or none, the result is the same, and all is seen that does not come from the observer. -/
  unmoved : ∀ other : Option Observer, ((s.watchedBy other).run child cancel).result = c.result ∧
    ((s.watchedBy other).run child cancel).events.filter (fun e => !e.ofCallback) =
      c.events.filter fun e => !e.ofCallback

/-- **Observers do not move a session.** For every program, and whenever the session is cancelled. -/
theorem run_observed (s : FreeSession) (observer : Option Observer) (child : Child) (cancel : Cancel) :
    s.val.Observed observer child cancel ((s.val.watchedBy observer).run child cancel) where
  told := by
    refine ⟨s.val.opening cancel, s.val.closing child cancel, congrArg Course.events (run_of_free s.property observer),
      fun e he => ?_⟩
    obtain ⟨hcallback, hrecord⟩ := not_told he
    exact ⟨hcallback, fun p hp => hrecord p (Progress.reports_spaceless hp)⟩
  called := run_report? s.property observer
  comes := by rw [run_of_free s.property, result_ok_iff]
  stdout o ho := result_stdout s.property (by rwa [run_of_free s.property] at ho)
  unmoved other := by
    rw [run_filter s.property, run_filter s.property, run_of_free s.property, run_of_free s.property]
    exact ⟨rfl, rfl⟩

/-- A session that reads two reports and keeps the output, with an observer that fails at the second of them. -/
theorem run_observed_failing :
    let s : Session := {
      program := "ffmpeg", readsProgress := true, keepsStdout := true, attributes := [("job", .text "nightly")] }
    let observer : Option Observer := some fun n _ => if n = 1 then some "no space left" else none
    let child : Child := { stdout := "progress=continue\nprogress=end\n".toUTF8.toList }
    s.Observed observer child .never ((s.watchedBy observer).run child .never) ∧
      Progress.reports (s.written child .never) = [{ state := "continue" }, { state := "end" }] :=
  ⟨run_observed ⟨_, by decide⟩ _ _ _, by decide +kernel⟩

end Session

end Thumbnailer
