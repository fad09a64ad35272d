import Mathlib.Logic.Basic
import Thumbnailer.Proofs.Session.Reports
import Thumbnailer.Session

/-!
# Courses of sessions

A session logs its launch, launches the program, tells about each report in turn and logs its end; it breaks off at
the first of these that cannot be done.
-/

namespace Thumbnailer

/-! ## Sequences -/

namespace Course

variable {α β : Type} {c : Course α} {f : α → Course β} {P : Event → Prop}

theorem bind_ok_iff {b : β} : (c >>= f).result = .ok b ↔ ∃ a, c.result = .ok a ∧ (f a).result = .ok b := by
  cases h : c.result with
  | error e => simp [bind_of_error h]
  | ok a => simp [bind_of_ok h]

theorem bind_unit_ok_iff {c : Course Unit} {f : Unit → Course β} {b : β} :
    (c >>= f).result = .ok b ↔ c.result = .ok () ∧ (f ()).result = .ok b :=
  bind_ok_iff.trans ⟨fun ⟨_, h⟩ => h, fun h => ⟨(), h⟩⟩

theorem bind_error_iff {e : Escape} : (c >>= f).result = .error e ↔
    c.result = .error e ∨ ∃ a, c.result = .ok a ∧ (f a).result = .error e := by
  cases h : c.result with
  | error e => simp [bind_of_error h]
  | ok a => simp [bind_of_ok h]

/-- Whatever is seen has a property. -/
def All (P : Event → Prop) (c : Course α) : Prop := ∀ e ∈ c.events, P e

theorem All.pure (a : α) : All P (Pure.pure a : Course α) := List.forall_mem_nil _

theorem All.broken (e : Escape) : All P (.broken e : Course α) := List.forall_mem_nil _

theorem All.seen {e : Event} (h : P e) : All P (.seen e) := List.forall_mem_singleton.2 h

theorem All.bind (hc : c.All P) (hf : ∀ a, (f a).All P) : (c >>= f).All P := by
  cases h : c.result with
  | error e => rwa [bind_of_error h]
  | ok a =>
    rw [bind_of_ok h]
    exact List.forall_mem_append.2 ⟨hc, hf a⟩

theorem All.map {g : α → β} (hc : c.All P) : (g <$> c).All P := by
  rw [map_eq_pure_bind]
  exact hc.bind fun a => .pure (g a)

theorem All.filterMap {γ : Type} {g : Event → Option γ} (h : c.All (g · = none)) : c.events.filterMap g = [] :=
  List.filterMap_eq_nil_iff.2 h

@[simp] theorem map_events (g : α → β) (c : Course α) : (g <$> c).events = c.events := by
  cases h : c.result with
  | error e => rw [map_eq_pure_bind, bind_of_error h]
  | ok a => rw [map_eq_pure_bind, bind_of_ok h, pure_events, List.append_nil]

@[simp] theorem map_result (g : α → β) (c : Course α) : (g <$> c).result = c.result.map g := by
  cases h : c.result with
  | error e => rw [map_eq_pure_bind, bind_of_error h]; rfl
  | ok a => rw [map_eq_pure_bind, bind_of_ok h]; rfl

theorem bind_events (c : Course α) (f : α → Course β) : (c >>= f).events =
    c.events ++ match c.result with
      | .ok a => (f a).events
      | .error _ => [] := by
  cases h : c.result with
  | error e => rw [bind_of_error h, List.append_nil]
  | ok a => rw [bind_of_ok h]

end Course

namespace Event

def launch? : Event → Option (List String)
  | .launch args _ => some args
  | _ => none

end Event

/-- The reports that a parser makes of a text from its start. -/
def Progress.reports (text : List Char) : List Progress := (answers {} (Text.lines text)).filterMap id

def Cancel.ending : Cancel → Ending
  | .whileRunning => .killed
  | _ => .exited

namespace Session

variable (s : Session)

/-! ## Log records -/

section
variable {level : Level} {message : String} {cause : Option String}

/-- A record of a level can be made, or none is to be made. -/
def MayLog (level : Level) : Prop := s.isLogging level → s.attributes.reserved? = none

instance : Decidable (s.MayLog level) := inferInstanceAs (Decidable (_ → _))

/-- What logging adds to what is seen, unless it breaks off. -/
def recorded (level : Level) (message : String) (cause : Option String := none) : List Event :=
  if s.isLogging level then [s.record level message cause] else []

theorem log_of_mayLog (h : s.MayLog level) : s.log level message cause = ⟨.ok (), s.recorded level message cause⟩ := by
  unfold log recorded
  cases hl : s.isLogging level with
  | false => rfl
  | true => simp only [h hl]; rfl

theorem log_of_reserved {name : String} (hl : s.isLogging level) (hname : s.attributes.reserved? = some name) :
    s.log level message cause = .broken (.reserved name) := by
  simp only [log, hl, hname]
  rfl

theorem reserved_of_not_mayLog (h : ¬s.MayLog level) :
    s.isLogging level ∧ ∃ name, s.attributes.reserved? = some name := by
  obtain ⟨hl, hname⟩ := Classical.not_imp.1 h
  exact ⟨hl, Option.ne_none_iff_exists'.1 hname⟩

theorem log_ok_iff : (s.log level message cause).result = .ok () ↔ s.MayLog level := by
  by_cases h : s.MayLog level
  · simp [s.log_of_mayLog h, h]
  · obtain ⟨hl, name, hname⟩ := s.reserved_of_not_mayLog h
    simp [s.log_of_reserved hl hname, h]

theorem reserved_of_log_error {e : Escape} (h : (s.log level message cause).result = .error e) :
    ∃ name, s.attributes.reserved? = some name ∧ e = .reserved name := by
  have hnot : ¬s.MayLog level := fun hmay => by simp [s.log_of_mayLog hmay] at h
  obtain ⟨hl, name, hname⟩ := s.reserved_of_not_mayLog hnot
  rw [s.log_of_reserved hl hname] at h
  exact ⟨name, hname, (Except.error.inj h).symm⟩

theorem log_all {P : Event → Prop} (h : P (s.record level message cause)) : (s.log level message cause).All P := by
  unfold log
  split
  · split
    · exact .broken _
    · exact .seen h
  · exact .pure ()

theorem mayLog_of_free (h : s.attributes.reserved? = none) (level : Level) : s.MayLog level := fun _ => h

end

/-! ## Reading the standard output -/

/-- Tells about reports, from the n-th on. -/
def tell (n : Nat) : List Progress → Course Unit
  | [] => pure ()
  | p :: rest => do
    s.report n p
    tell (n + 1) rest

/-- The reports that a program makes if its progress is read. -/
def reports (child : Child) : List Progress := if s.readsProgress then Progress.reports child.stdoutText else []

/-- What is kept of the standard output. -/
def kept (child : Child) : List Char := if s.keepsStdout then child.stdoutText else []

theorem readLine_eq (r : Reading) (line : List Char) : s.readLine r line =
    (fun _ => { progress := if s.readsProgress then r.progress.update line else r.progress
                calls := if s.readsProgress ∧ (Progress.stateIn? line).isSome then r.calls + 1 else r.calls
                text := r.text ++ if s.keepsStdout then line else [] : Reading }) <$>
      s.tell r.calls (if s.readsProgress then (r.progress.feed line).1.toList else []) := by
  cases hread : s.readsProgress <;> cases hkeep : s.keepsStdout <;> cases hstate : Progress.stateIn? line <;>
    simp [readLine, Progress.feed_eq, hread, hkeep, hstate, tell]

theorem foldlM_readLine (r : Reading) (lines : List (List Char)) :
    Reading.text <$> lines.foldlM s.readLine r =
      (fun _ => r.text ++ if s.keepsStdout then lines.flatten else []) <$>
        s.tell r.calls (if s.readsProgress then (r.progress.answers lines).filterMap id else []) := by
  induction lines generalizing r with
  | nil => cases s.keepsStdout <;> cases s.readsProgress <;> simp [Progress.answers, tell]
  | cons line rest ih =>
    rw [List.foldlM_cons, map_bind, readLine_eq, bind_map_left]
    simp only [ih]
    cases hread : s.readsProgress <;> cases hkeep : s.keepsStdout <;> cases hstate : Progress.stateIn? line <;>
      simp [Progress.answers, Progress.feed_eq, hstate, tell]

theorem readStdout_eq (child : Child) :
    Reading.text <$> s.readStdout child = (fun _ => s.kept child) <$> s.tell 0 (s.reports child) := by
  unfold readStdout reports kept
  cases hpiped : s.piped with
  | true =>
    rw [if_pos rfl, foldlM_readLine, Text.lines_flatten]
    rfl
  | false =>
    obtain ⟨hread, hkeep⟩ := Bool.or_eq_false_iff.1 hpiped
    simp [hread, hkeep, tell]

/-! ## Start and end -/

theorem start_eq (child : Child) : s.start child = s.launch child >>= fun failure =>
    match failure with
    | some e => (fun _ => .failed (s.notStarted (e.message s.program) false)) <$>
        s.log .error s!"{s.name} start failed: {e.message s.program}"
    | none => (fun _ => .running (s.kept child)) <$> s.tell 0 (s.reports child) := by
  unfold start
  refine bind_congr fun failure => ?_
  cases failure with
  | some e => simp
  | none =>
    have hread := congrArg (Started.running <$> ·) (s.readStdout_eq child)
    simpa using hread

theorem run_eq (child : Child) {cancel : Cancel} (h : cancel ≠ .beforeStart) :
    s.run child cancel = s.launch child >>= fun failure =>
      match failure with
      | some e => (fun _ => s.notStarted (e.message s.program) false) <$>
          s.log .error s!"{s.name} start failed: {e.message s.program}"
      | none => s.tell 0 (s.reports child) >>= fun _ =>
          s.finish child (s.kept child) cancel.ending child.seconds := by
  have hending : cancel.ending = if cancel = .whileRunning then .killed else .exited := by cases cancel <;> rfl
  rw [run, if_neg h, start_eq, bind_assoc, hending]
  refine bind_congr fun failure => ?_
  cases failure <;> simp

/-! ## Launches -/

theorem launch_of_mayLog (child : Child) (h : s.MayLog .debug) : s.launch child =
    ⟨if child.refuses s.args then .error .nullCharacter else .ok child.startError,
      s.recorded .debug s!"Launching {s.name}: {s.command}" ++ [.launch s.args s.piped]⟩ := by
  rw [launch, s.log_of_mayLog h, Course.bind_of_ok rfl, Course.bind_of_ok rfl]
  cases child.refuses s.args <;> rfl

theorem launch_of_reserved (child : Child) {name : String} (hl : s.isLogging .debug)
    (hname : s.attributes.reserved? = some name) : s.launch child = .broken (.reserved name) := by
  rw [launch, s.log_of_reserved hl hname, Course.broken_bind]

theorem launch_ok_iff {child : Child} {failure : Option SystemError} : (s.launch child).result = .ok failure ↔
    s.MayLog .debug ∧ child.refuses s.args = false ∧ child.startError = failure := by
  by_cases h : s.MayLog .debug
  · rw [s.launch_of_mayLog child h]
    cases child.refuses s.args <;> simp [h]
  · obtain ⟨hl, name, hname⟩ := s.reserved_of_not_mayLog h
    simp [s.launch_of_reserved child hl hname, h]

theorem launch_launch? (child : Child) :
    (s.launch child).events.filterMap Event.launch? = if s.MayLog .debug then [s.args] else [] := by
  by_cases h : s.MayLog .debug
  · have hrecord (message : String) : (s.recorded .debug message).filterMap Event.launch? = [] := by
      unfold recorded
      split <;> rfl
    rw [s.launch_of_mayLog child h, if_pos h, List.filterMap_append, hrecord]
    rfl
  · obtain ⟨hl, name, hname⟩ := s.reserved_of_not_mayLog h
    rw [s.launch_of_reserved child hl hname, if_neg h]
    rfl

theorem tell_all {P : Event → Prop} {ps : List Progress} (hreport : ∀ p ∈ ps, ∀ n, (s.report n p).All P) (n : Nat) :
    (s.tell n ps).All P := by
  induction ps generalizing n with
  | nil => exact .pure ()
  | cons p rest ih =>
    obtain ⟨hp, hrest⟩ := List.forall_mem_cons.1 hreport
    exact (hp n).bind fun _ => ih hrest (n + 1)

theorem report_all {P : Event → Prop} {p : Progress} (n : Nat)
    (hrecord : P (s.record .info (progressMessage p)))
    (hreport : P (.report p)) (hfailed : ∀ cause, P (s.record .error "Progress callback failed" cause)) :
    (s.report n p).All P := by
  have hcall (callback : Callback) : (s.call n p callback).All P := by
    refine .bind (.seen hreport) fun _ => ?_
    split
    · exact .pure ()
    · exact s.log_all (hfailed _)
    · exact .broken _
  refine .bind (s.log_all hrecord) fun _ => ?_
  cases s.callback with
  | none => exact .pure ()
  | some callback => exact hcall callback

theorem log_launch? {level : Level} {message : String} {cause : Option String} :
    (s.log level message cause).All (Event.launch? · = none) :=
  s.log_all rfl

theorem tell_launch? (n : Nat) (ps : List Progress) : (s.tell n ps).All (Event.launch? · = none) :=
  s.tell_all (fun _ _ n => s.report_all n rfl rfl fun _ => rfl) n

end Session

end Thumbnailer
