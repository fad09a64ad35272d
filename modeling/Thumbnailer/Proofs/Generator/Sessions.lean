import Thumbnailer.Generator
import Thumbnailer.Proofs.Session.Observers

/-!
# Sessions of requests

The attributes of a request leave the fields of a record alone and its callback returns or fails, so that its session
breaks off only where the system does not take the arguments of the encoder.
-/

namespace Thumbnailer

theorem Plan.session_free (p : Plan) (r : Request) : (p.session r).attributes.reserved? = none :=
  r.logAttributes_reserved?

namespace Session

variable {s : Session}

theorem start_launch? (h : s.attributes.reserved? = none) (child : Child) :
    (s.start child).events.filterMap Event.launch? = [s.args] := by
  rw [start_eq, Course.bind_events, List.filterMap_append, launch_launch?, if_pos (s.mayLog_of_free h _)]
  cases (s.launch child).result with
  | error e => rfl
  | ok failure =>
    cases failure with
    | some e => exact congrArg (s.args :: ·) s.log_launch?.map.filterMap
    | none => exact congrArg (s.args :: ·) (s.tell_launch? 0 _).map.filterMap

theorem finish_eq (h : s.attributes.reserved? = none) (child : Child) (stdout : List Char) (ending : Ending)
    (duration : Double) : s.finish child stdout ending duration =
      ⟨.ok (s.outcome child stdout ending duration), s.recorded (finalLevel (s.outcome child stdout ending duration))
        (s.finalMessage (s.outcome child stdout ending duration))⟩ := by
  rw [finish, s.log_of_mayLog (s.mayLog_of_free h _), Course.ok_bind]
  exact Course.ext rfl (List.append_nil _)

theorem finish_launch? (child : Child) (stdout : List Char) (ending : Ending) (duration : Double) :
    (s.finish child stdout ending duration).events.filterMap Event.launch? = [] :=
  (s.log_launch?.bind fun _ => .pure _).filterMap

section
variable {child : Child} {cancel : Cancel}

theorem run_of_running {stdout : List Char} (h : cancel ≠ .beforeStart)
    (hstart : (s.start child).result = .ok (.running stdout)) : (s.run child cancel).result =
      (s.finish child stdout cancel.ending child.seconds).result := by
  have hending : cancel.ending = if cancel = .whileRunning then .killed else .exited := by cases cancel <;> rfl
  rw [run, if_neg h, Course.bind_of_ok hstart, hending]

end

end Session

/-- What the session of a request comes to if it is not cancelled, whatever number the request has. -/
theorem Plan.session_run (p : Plan) (r : Request) (id : Nat) :
    ((p.session { r with id }).run r.child .never).result = (p.session r).result r.child .never :=
  congrArg Course.result (Session.run_of_free (p.session_free { r with id }) p.callback)

namespace Generator

/-- The result of a run whose encoder does not run after an attempt to start it. -/
def Result.ofStart? : Except Escape Session.Started → Option Result
  | .ok (.running _) => none
  | .ok (.failed o) => some (.ok o)
  | .error reason => some (.error reason)

/-- The encoder was started and had success. -/
def Result.succeeded : Result → Bool
  | .ok o => o.success
  | .error _ => false

theorem error?_eq_none {o : Result} : o.error? = none ↔ o.succeeded = true := by
  cases o with
  | ok o => exact Option.map_eq_none_iff.trans Session.runError?_eq_none
  | error reason => simp [Result.error?, Result.succeeded]

theorem run_of_ofStart? {s : Session} {child : Child} {cancel : Cancel} {o : Result} (h : cancel ≠ .beforeStart)
    (hstart : Result.ofStart? (s.start child).result = some o) : (s.run child cancel).result = o := by
  rw [Session.run, if_neg h]
  unfold Result.ofStart? at hstart
  split at hstart
  · cases hstart
  · next o' hfailed =>
    rw [Course.bind_of_ok hfailed]
    exact Option.some.inj hstart
  · next reason hbroken =>
    rw [Course.bind_of_error hbroken]
    exact Option.some.inj hstart

end Generator

end Thumbnailer
