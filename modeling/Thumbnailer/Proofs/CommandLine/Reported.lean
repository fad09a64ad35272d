import Thumbnailer.Proofs.CommandLine.Progress
import Thumbnailer.Proofs.Destinations.Apart

/-!
# Every input is reported once

What a batch has started and reported when it ends, and that it always comes on: `run_lawful`.
-/

namespace Thumbnailer.CommandLine

def report (number : Nat) (media : String) (error : Option Generator.CallError) (duration : Double) : Event :=
  match error with
  | some e => logged .error s!"Request {number} ({media}) failed after {seconds duration}s: {e.message}"
  | none => logged .info s!"Request {number} ({media}) processed in {seconds duration}s"

def summary (duration : Double) (failures count : Nat) : Event :=
  logged .info s!"Done in {seconds duration}s, {failures} of {count} failed"

namespace Batch

variable {b b' : Batch} {a : Action} {as : List Action} {inputs : List String} {p : Plan} {concurrency : Int}
  {clock : Double} {files : FileTree}

/-! ## What comes out -/

/-- The command has come to its end, or a directory could not be made. -/
def atEnd (b : Batch) : Bool :=
  match b.stage with
  | .failed _ | .ended _ => true
  | _ => false

theorem Waited.finished (hb : Waited b) (he : Engaged b) : ∀ k ∈ b.generator.calls, k.work.finished = true :=
  hb.answered.finished he.backed.sound hb.idle

section
variable (h : (new p concurrency clock files inputs).run? as = some b)
include h

theorem queue_perm (hb : Waited b) : ∃ durations : Nat → Double,
    b.generator.queue.Perm (b.requests.mapIdx fun i r => ⟨i, i, p.result r, durations i⟩) := by
  obtain ⟨gs, hgs, hquiet, -⟩ := run_generator h
  have he := (run_sound h).engaged
  exact he.filed.queue_perm hgs hquiet hb.all (hb.finished he)

theorem queue_length (hb : Waited b) : b.generator.queue.length = b.requests.length := by
  obtain ⟨durations, hperm⟩ := queue_perm h hb
  rw [hperm.length_eq, List.length_mapIdx]

theorem launches_perm (hb : Waited b) : (launchesIn ((new p concurrency clock files inputs).trace as)).Perm
    (b.requests.map fun r => p.args r.media r.destinations) := by
  obtain ⟨gs, hgs, hquiet, hlaunches⟩ := run_generator h
  have he := (run_sound h).engaged
  rw [← hlaunches]
  exact he.filed.launches_perm hgs hquiet hb.all (hb.finished he)

theorem launches_subperm : (launchesIn ((new p concurrency clock files inputs).trace as)).Subperm
    (b.requests.map fun r => p.args r.media r.destinations) := by
  obtain ⟨gs, hgs, hquiet, hlaunches⟩ := run_generator h
  rw [← hlaunches]
  exact (run_sound h).engaged.filed.launches_subperm hgs hquiet

theorem goes_on (hend : b.atEnd = false) : ∃ a b', Step b a b' := by
  have hb := run_sound h
  cases hb.standing with
  | preparing left hs =>
    cases left with
    | nil => exact ⟨_, _, .begin hs⟩
    | cons m left => exact ⟨_, _, step_of_prepareNext {} hs⟩
  | failed e hs => simp [atEnd, hs] at hend
  | calling hs hopen => exact goes_on_calling hb.engaged hs hopen
  | waiting phase hs hwaits => exact goes_on_waiting hb.engaged hs hwaits
  | collecting hs hwaited =>
    have hlength := queue_length h hwaited
    rcases Nat.lt_or_eq_of_le (hlength ▸ hwaited.taken) with hlt | heq
    · exact ⟨_, _, .collect _ hs hlt (List.getElem?_eq_getElem (by omega))⟩
    · exact ⟨_, _, .finish hs heq⟩
  | ended hs => simp [atEnd, hs] at hend

end

/-! ## What is ready -/

theorem mem_of_get? {m : OrderedMap Int String} {k : Int} {d : String} (h : m.get? k = some d) : d ∈ m.map (·.2) := by
  obtain ⟨e, he, rfl⟩ := Option.map_eq_some_iff.1 h
  exact List.mem_map.2 ⟨e, List.mem_of_find?_eq_some he, rfl⟩

theorem Prepared.places (hb : Prepared p inputs b) (h : 2 ≤ inputs.length) (hs : b.stage.left? = some []) :
    b.requests.map Request.media = inputs ∧
      ∀ i r, b.requests[i]? = some r → ∀ k, r.destinations.get? k = placeOf? p inputs i k :=
  places_of_aims h (by simpa using hb.covers [] hs)

theorem Prepared.holds (hb : Prepared p inputs b) (h : 2 ≤ inputs.length) (hs : b.stage.left? = some [])
    {i : Nat} {k : Int} {d : String} (hd : placeOf? p inputs i k = some d) : b.files.Holds (Path.directory d) := by
  obtain ⟨hmedia, hplaces⟩ := hb.places h hs
  have hname := directoryNames_of_placeOf? h hd
  have hlt : i < b.requests.length := by
    have hi := (List.getElem?_eq_some_iff.1 hname).1
    rwa [directoryNames_length, ← hmedia, List.length_map] at hi
  have hmem : d ∈ b.requests[i].destinations.map (·.2) :=
    mem_of_get? ((hplaces i _ (List.getElem?_eq_getElem hlt) k).trans hd)
  refine hb.ready [] hs _ (List.getElem_mem hlt) d hmem fun hempty => ?_
  rw [hempty] at hname
  exact (directoryNames_isName _ _ (List.mem_of_getElem? hname)).ne_empty (by decide)

/-! ## The law -/

/-- The sessions of the requests: what each encoder is started with. -/
def sessions (p : Plan) (b : Batch) : List (List String) := b.requests.map fun r => p.args r.media r.destinations

/-- What is true of a command with several inputs when it has ended with a code. -/
structure Ended (p : Plan) (b : Batch) (seen : List (Action × List Event)) (code : Nat) : Prop where
  /-- Nothing is left on the queue. -/
  empty : b.pending = []
  launched : (launchesIn seen).Perm (sessions p b)
  /-- Every input is reported once, as what its session has come to. -/
  reported : ∃ durations : Nat → Double, (reportsIn seen).Perm
    (b.requests.mapIdx fun i r => report (i + 1) r.media (p.result r) (durations i))
  failures : b.failures = b.requests.countP fun r => (p.result r).isSome
  told : ∃ duration, (Action.finish, [summary duration b.failures b.requests.length]) ∈ seen
  code : code = if b.failures = 0 then 0 else 1

/-- What is true of a command with several inputs wherever it has come to. -/
structure Lawful (p : Plan) (inputs : List String) (b : Batch) (seen : List (Action × List Event)) : Prop where
  /-- There is one request for each input, with the places of its own, once all of them are prepared. -/
  requested : b.stage.left? = some [] → b.requests.map Request.media = inputs ∧
    ∀ i r, b.requests[i]? = some r → ∀ k, r.destinations.get? k = placeOf? p inputs i k
  /-- An encoder is started only when the directories for the outputs of all inputs are there. -/
  launches : ∀ a b', b.step? a = some b' → (b.events a).filterMap Event.launch? ≠ [] →
    ∀ i k d, placeOf? p inputs i k = some d → b.files.Holds (Path.directory d)
  /-- No input gets more than one session. -/
  launched : (launchesIn seen).Subperm (sessions p b)
  /-- When the command has waited, every input has got its session, and its result is on the queue. -/
  left : ∀ b', b.step? .leave = some b' → (launchesIn seen).Perm (sessions p b) ∧ b'.pending.length = inputs.length
  /-- There is a result for everybody who is not reported yet. -/
  collects : b.stage = .collecting → b.taken + b.pending.length = inputs.length
  ended : ∀ code, b.stage = .ended code → Ended p b seen code
  /-- The command is never stuck. -/
  goes_on : b.atEnd = false → ∃ a b', b.step? a = some b'
  ends : b.Ends

/-! ## Runs keep it -/

theorem resultRecord_filed {g : Generator} {rs : List Request} (hrequests : g.requests = rs.mapIdx Generator.filed)
    {i : Nat} {r : Request} (hr : rs[i]? = some r) (error : Option Generator.CallError) (duration : Double) :
    resultRecord g ⟨i, i, error, duration⟩ = report (i + 1) r.media error duration := by
  have hfiled : g.requests[i]? = some (Generator.filed i r) := by rw [hrequests, List.getElem?_mapIdx, hr]; rfl
  unfold resultRecord report
  cases error <;> simp [hfiled, Generator.filed]

section
variable (rs : List Request) (errors : Request → Option Generator.CallError) (durations : Nat → Double)

theorem map_resultRecord {g : Generator} (hrequests : g.requests = rs.mapIdx Generator.filed) :
    (rs.mapIdx fun i r => (⟨i, i, errors r, durations i⟩ : Generator.Delivery)).map (resultRecord g) =
      rs.mapIdx fun i r => report (i + 1) r.media (errors r) (durations i) := by
  apply List.ext_getElem?
  intro i
  simp only [List.getElem?_map, List.getElem?_mapIdx, Option.map_map]
  exact Option.map_congr fun r hr => resultRecord_filed hrequests hr _ _

theorem countP_error : (rs.mapIdx fun i r => (⟨i, i, errors r, durations i⟩ : Generator.Delivery)).countP
    (fun d => d.error.isSome) = rs.countP fun r => (errors r).isSome := by
  have herrors : (rs.mapIdx fun i r => (⟨i, i, errors r, durations i⟩ : Generator.Delivery)).map
      Generator.Delivery.error = rs.map errors := by
    apply List.ext_getElem?
    intro i
    simp only [List.getElem?_map, List.getElem?_mapIdx, Option.map_map]
    rfl
  have hcount := congrArg (List.countP Option.isSome) herrors
  rwa [List.countP_map, List.countP_map] at hcount

end

/-- An encoder is started by a call that was made, so all inputs are prepared. -/
theorem left?_of_launch (hb : Sound p inputs b) (h : Step b a b')
    (hlaunch : (b.events a).filterMap Event.launch? ≠ []) : b.stage.left? = some [] := by
  rw [← h.launches] at hlaunch
  cases h with
  | work a g ha h =>
    -- Only a call launches an encoder, and calls are made when all inputs are prepared.
    have hcall : b.generator.calls ≠ [] := by
      intro hcalls
      have hnot : ∀ c, a ≠ .launch c := by
        rintro c rfl
        obtain ⟨k, r, hk, -⟩ := Generator.step?_acted h (c := c) rfl
        simp [hcalls] at hk
      rw [demands, Generator.launches_cons h, Generator.events_launch? hnot] at hlaunch
      exact hlaunch rfl
    cases hb.standing with
    | preparing left hs hopen hwaits hcalls => exact absurd hcalls hcall
    | failed e hs hcalls => exact absurd hcalls hcall
    | calling hs | waiting phase hs | collecting hs | ended hs => rw [hs]; rfl
  | submit r hs | await hs | leave hs | finish hs => rw [hs]; rfl
  | collect d hs => rw [hs]; rfl
  | _ => exact absurd rfl hlaunch

section
variable (h : (new p concurrency clock files inputs).run? as = some b)
include h

theorem run_told : ∀ code, b.stage = .ended code → ∃ duration,
    (Action.finish, [summary duration b.failures b.requests.length]) ∈
      (new p concurrency clock files inputs).trace as := by
  refine run_induction (P := fun as b => ∀ code, b.stage = .ended code → ∃ duration,
    (Action.finish, [summary duration b.failures b.requests.length]) ∈
      (new p concurrency clock files inputs).trace as) (fun code hs => by cases hs) ?_ h
  intro as a c d hrun hc hstep code hs
  rw [trace_append hrun, trace_one hstep.step?]
  cases hstep with
  | finish hs' ht => exact ⟨_, List.mem_append_right _ (List.mem_singleton.2 rfl)⟩
  | work a g ha h =>
    obtain ⟨duration, hmem⟩ := hc code hs
    exact ⟨duration, List.mem_append_left _ hmem⟩
  | collect e hs' hlt he => cases hs'.symm.trans hs
  | submit r hs' => cases hs'.symm.trans hs
  | _ => cases hs

theorem run_ended {code : Nat} (hs : b.stage = .ended code) :
    Ended p b ((new p concurrency clock files inputs).trace as) code := by
  have hb := run_sound h
  obtain ⟨hcode, hwaited, htaken⟩ := hb.standing.of_ended hs
  obtain ⟨durations, hperm⟩ := queue_perm h hwaited
  have hlength : b.taken = b.generator.queue.length := htaken.trans (queue_length h hwaited).symm
  have hall : b.generator.queue.take b.taken = b.generator.queue := by rw [hlength, List.take_length]
  have hrequests : b.generator.requests = b.requests.mapIdx Generator.filed := by
    rw [hb.engaged.filed.requests, hwaited.all, List.take_length]
  constructor
  · rw [pending, hlength, List.drop_length]
  · exact launches_perm h hwaited
  · refine ⟨durations, ?_⟩
    rw [run_reports h, Batch.reported, hall]
    exact (hperm.map _).trans (.of_eq (map_resultRecord _ _ _ hrequests))
  · rw [hwaited.failures, hall, hperm.countP_eq, countP_error]
  · exact run_told h code hs
  · exact hcode

theorem requests_length (hinputs : 2 ≤ inputs.length) (hs : b.stage.left? = some []) :
    b.requests.length = inputs.length := by
  have hmedia := ((run_sound h).prepared.places hinputs hs).1
  rw [← hmedia, List.length_map]

theorem run_collecting (hinputs : 2 ≤ inputs.length) (hs : b.stage = .collecting) :
    (launchesIn ((new p concurrency clock files inputs).trace as)).Perm (sessions p b) ∧
      b.taken + b.pending.length = inputs.length := by
  have hwaited := (run_sound h).standing.of_collecting hs
  refine ⟨launches_perm h hwaited, ?_⟩
  have hrequests := requests_length h hinputs (by rw [hs]; rfl)
  have hqueue := queue_length h hwaited
  have htaken := hwaited.taken
  rw [pending, List.length_drop]
  omega

theorem run_lawful (hinputs : 2 ≤ inputs.length) :
    Lawful p inputs b ((new p concurrency clock files inputs).trace as) where
  requested hs := (run_sound h).prepared.places hinputs hs
  launches a b' hstep hlaunch i k d hd :=
    (run_sound h).prepared.holds hinputs (left?_of_launch (run_sound h) (step?_eq_some.1 hstep) hlaunch) hd
  launched := launches_subperm h
  left b' hstep := by
    have hrun : (new p concurrency clock files inputs).run? (as ++ [.leave]) = some b' := by
      rw [run?_append, h, Option.bind_some, run?_one, hstep]
    cases step?_eq_some.1 hstep with
    | leave hs hw =>
      -- One action later the command collects, and it has taken nothing yet.
      obtain ⟨hlaunches, hlength⟩ := run_collecting hrun hinputs rfl
      obtain ⟨-, hnone⟩ := (run_sound h).standing.waited hs hw
      have hlaunches : (launchesIn _).Perm (sessions p b) := hlaunches
      have hlength : b.taken + b.pending.length = inputs.length := hlength
      rw [trace_append h, trace_one hstep] at hlaunches
      rw [hnone, Nat.zero_add] at hlength
      exact ⟨by simpa [launchesIn, events] using hlaunches, hlength⟩
  collects hs := (run_collecting h hinputs hs).2
  ended _ hs := run_ended h hs
  goes_on hend := by
    obtain ⟨a, b', hstep⟩ := goes_on h hend
    exact ⟨a, b', hstep.step?⟩
  ends := (run_sound h).ends

end

end Batch

end Thumbnailer.CommandLine
