import Thumbnailer.Proofs.CommandLine.Several
import Thumbnailer.Proofs.Session.Results

/-!
# Exit statuses

A command that can be read ends with 2 if it could not be set up, with 1 if it was set up and an encoder failed, and
with 0 otherwise, unless its configuration has an error that is not reported: `run_exits`.
-/

namespace Thumbnailer

/-- The process cannot be started, or exits with another code than 0. -/
def Child.fails (c : Child) : Bool := c.startError.isSome || c.code ≠ 0

namespace Plan

variable (p : Plan) (r : Request)

/-- The system does not take the arguments of the encoder. -/
def refused : Bool := r.child.refuses (p.args r.media r.destinations)

theorem result_of_refused (h : p.refused r = true) : p.result r = some (.broken .nullCharacter) := by
  have hargs : r.child.refuses (p.session r).args = true := (p.session_args r).symm ▸ h
  rw [Plan.result, p.session_run r r.id, Session.result, if_neg (by decide), if_pos hargs]
  rfl

theorem result_of_accepted (h : p.refused r = false) :
    ∃ o : Outcome, p.result r = o.runError?.map .failed ∧ o.success = !r.child.fails := by
  have hargs : r.child.refuses (p.session r).args = false := (p.session_args r).symm ▸ h
  rw [Plan.result, p.session_run r r.id, Session.result, if_neg (by decide), hargs, Child.fails]
  cases r.child.startError with
  | some e => exact ⟨(p.session r).notStarted (e.message (p.session r).program) false, rfl, rfl⟩
  | none =>
    refine ⟨(p.session r).ended r.child .never, rfl, Bool.eq_iff_iff.2 ?_⟩
    have hkilled : (p.session r).killed = false := rfl
    rw [Session.ended, Session.outcome_success, Cancel.ending_eq_exited]
    simp [hkilled]

theorem result_isSome : (p.result r).isSome = (p.refused r || r.child.fails) := by
  cases h : p.refused r with
  | true => rw [p.result_of_refused r h]; rfl
  | false =>
    obtain ⟨o, ho, hsuccess⟩ := p.result_of_accepted r h
    rw [ho, Option.isSome_map, Outcome.runError?, hsuccess]
    cases r.child.fails <;> rfl

end Plan

theorem Interval.ofSeconds_notANumber {x : Double} : Interval.ofSeconds x = .error .notANumber ↔ x = .nan := by
  cases x with
  | nan => simp [Interval.ofSeconds]
  | infinite => simp [Interval.ofSeconds]
  | finite s m e =>
    simp only [Interval.ofSeconds, Interval.checked]
    split
    · simp
    · split <;> simp

namespace CommandLine

variable {s : Surroundings} {a : Arguments} {c : Config} {p : Plan} {rs : List Request} {files files' : FileTree}
  {concurrency : Int} {clock : Double} {inputs : List String}

/-! ## Generating -/

/-- The code of a command that has been set up: 2 if the arguments of a single encoder are refused, 1 if an encoder
fails otherwise. -/
def codeFor (p : Plan) (rs : List Request) : Nat :=
  if rs.length = 1 ∧ ∃ r ∈ rs, p.refused r = true then 2
  else if ∃ r ∈ rs, p.refused r = true ∨ r.child.fails = true then 1
  else 0

theorem generateOne_code {r : Request} (hheld : r.child.held = false) (hr : r.cancelled = false) :
    (generateOne (.new p concurrency clock) r).1 = codeFor p [r] := by
  have hfinished := Generator.perform_finished p concurrency clock hheld hr
  unfold generateOne
  dsimp only
  rw [hfinished]
  cases hrefused : p.refused r with
  | true => simp [p.result_of_refused r hrefused, codeFor, hrefused]
  | false =>
    obtain ⟨o, ho, hsuccess⟩ := p.result_of_accepted r hrefused
    rw [ho, Outcome.runError?, hsuccess]
    cases hfails : r.child.fails <;> simp [codeFor, hrefused, hfails]

theorem generateAll_code (hprepared : prepare s p files (subdirectories inputs) = (.ok rs, files'))
    (hheld : ∀ r ∈ rs, r.child.held = false) (hmany : rs.length ≠ 1) :
    (generateAll (.new p concurrency clock) rs).1 = codeFor p rs := by
  obtain ⟨b, ⟨as, hrun, -⟩, hs, -, rfl⟩ := Batch.reaches_generateAll concurrency clock hprepared hheld
  have hended := Batch.run_ended hrun hs
  have hone : ¬(b.requests.length = 1 ∧ ∃ r ∈ b.requests, p.refused r = true) := fun h => hmany h.1
  rw [hended.code, hended.failures, codeFor, if_neg hone]
  have hnone : (b.requests.countP fun r => (p.result r).isSome) = 0 ↔
      ¬∃ r ∈ b.requests, p.refused r = true ∨ r.child.fails = true := by
    simp only [p.result_isSome, List.countP_eq_zero, Bool.or_eq_true, not_exists, not_and]
  by_cases hfails : ∃ r ∈ b.requests, p.refused r = true ∨ r.child.fails = true
  · rw [if_pos hfails, if_neg fun h => hnone.1 h hfails]
  · rw [if_neg hfails, if_pos (hnone.2 hfails)]

theorem generate_code (hprepared : prepare s p files (subdirectories inputs) = (.ok rs, files'))
    (hheld : ∀ r ∈ rs, r.child.held = false) : (generate (.new p concurrency clock) rs).1 = codeFor p rs := by
  by_cases hone : rs.length = 1
  · obtain ⟨r, rfl⟩ := List.length_eq_one_iff.1 hone
    refine generateOne_code (hheld r (by simp)) ?_
    obtain ⟨m, -, hm⟩ := List.mem_map.1 ((prepare_requests hprepared) ▸ List.mem_singleton.2 rfl)
    rw [← hm]
    rfl
  · rw [generate_eq_generateAll _ hone]
    exact generateAll_code hprepared hheld hone

/-! ## Errors of configurations -/

/-- The command breaks off with the error. -/
inductive ConfigurationError.Escapes : ConfigurationError → Prop
  | infinite : Escapes (.interval .infinite)
  | tooManyDays (days : Int) : Escapes (.interval (.tooManyDays days))
  | outOfRange : Escapes (.interval .outOfRange)
  | stray (kind : ErrorKind) (message : String) (h : kind ≠ .value) : Escapes (.settings (.stray kind message))

theorem ConfigurationError.escapes_iff {e : ConfigurationError} : e.Escapes ↔ e.isReported = false := by
  constructor
  · intro h
    cases h with
    | stray kind message h => exact decide_eq_false h
    | _ => rfl
  · intro h
    cases e with
    | header reason => cases h
    | interval reason =>
      cases reason with
      | notANumber => cases h
      | infinite => exact .infinite
      | tooManyDays days => exact .tooManyDays days
      | outOfRange => exact .outOfRange
    | settings reason =>
      cases reason with
      | stray kind message => exact .stray kind message (of_decide_eq_false h)
      | _ => cases h

/-! ## How commands end -/

theorem Arguments.adjust_error {e : ConfigurationError} (h : a.adjust c = .error e) : ¬e.Escapes := by
  unfold adjust at h
  split at h
  next reason => exact Except.error.inj h ▸ nofun
  next => cases h

/-- Without a settings file only the interval gives an error that is not reported. -/
theorem escapes_iff_interval (hnone : a.settings = none) (read : String → Except SettingsError (Settings × Record)) :
    (∃ e, (a.configuration read).1 = .error e ∧ e.Escapes) ↔
      a.interval ≠ .nan ∧ ∀ n, Interval.ofSeconds a.interval ≠ .ok n := by
  have hown : (a.configuration read).1 = a.ownConfiguration.bind a.adjust := by
    simp only [Arguments.configuration, hnone]
  rw [hown, Arguments.ownConfiguration, Arguments.output, Ne, ← Interval.ofSeconds_notANumber]
  cases hinterval : Interval.ofSeconds a.interval with
  | ok n => simpa [Except.map, Except.bind] using fun e => Arguments.adjust_error
  | error reason =>
    cases reason with
    | notANumber => simpa [Except.map, Except.bind] using nofun
    | infinite => simpa [Except.map, Except.bind] using ConfigurationError.Escapes.infinite
    | tooManyDays days => simpa [Except.map, Except.bind] using ConfigurationError.Escapes.tooManyDays days
    | outOfRange => simpa [Except.map, Except.bind] using ConfigurationError.Escapes.outOfRange

def configured (s : Surroundings) (a : Arguments) : Except ConfigurationError Config :=
  (a.configuration (Settings.read s.format s.machine.files)).1

def planned (s : Surroundings) (c : Config) : Except PlanError Plan := (Plan.make s.machine (some c) s.version).1

def requested (s : Surroundings) (a : Arguments) (p : Plan) : Except PathError (List Request) :=
  (prepare s p s.machine.files (subdirectories a.inputs)).1

/-- All is there that is needed to run the encoder for the inputs, and these are the requests for them. -/
inductive SetUp (s : Surroundings) (a : Arguments) (p : Plan) (rs : List Request) : Prop
  | mk (c : Config) (hc : configured s a = .ok c) (hp : planned s c = .ok p) (hrs : requested s a p = .ok rs)

/-- Something of it is not there, for a reason that the command reports. -/
inductive SetUpFails (s : Surroundings) (a : Arguments) : Prop
  | configuration (e : ConfigurationError) (h : configured s a = .error e) (he : ¬e.Escapes)
  | plan (c : Config) (e : PlanError) (hc : configured s a = .ok c) (h : planned s c = .error e)
  | directories (c : Config) (p : Plan) (e : PathError) (hc : configured s a = .ok c) (hp : planned s c = .ok p)
      (h : requested s a p = .error e)

/-- The ways in which a command can end. -/
inductive Ends (s : Surroundings) (a : Arguments) : Finish → Prop
  | broken (e : ConfigurationError) (h : configured s a = .error e) (he : e.Escapes) : Ends s a (.broken e)
  | reported (h : SetUpFails s a) : Ends s a (.code 2)
  | generated (p : Plan) (rs : List Request) (h : SetUp s a p rs) : Ends s a (.code (codeFor p rs))

theorem carryOut_ends (hheld : ∀ m ∈ a.inputs, (s.childFor m).held = false) : Ends s a (carryOut s a).1 := by
  -- The command ends with the first of configuration, plan and directories that cannot be had.
  cases hc : configured s a with
  | error e =>
    have hc' : (a.configuration (Settings.read s.format s.machine.files)).1 = .error e := hc
    cases hreported : e.isReported with
    | false =>
      simp only [carryOut, hc', hreported, Bool.false_eq_true, if_false]
      exact .broken e hc (ConfigurationError.escapes_iff.2 hreported)
    | true =>
      simp only [carryOut, hc', hreported, if_true]
      exact .reported (.configuration e hc (by simp [ConfigurationError.escapes_iff, hreported]))
  | ok c =>
    have hc' : (a.configuration (Settings.read s.format s.machine.files)).1 = .ok c := hc
    cases hp : planned s c with
    | error e =>
      have hp' : (Plan.make s.machine (some c) s.version).1 = .error e := hp
      simp only [carryOut, hc', hp']
      exact .reported (.plan c e hc hp)
    | ok p =>
      have hp' : (Plan.make s.machine (some c) s.version).1 = .ok p := hp
      cases hprepared : prepare s p s.machine.files (subdirectories a.inputs) with
      | mk made files =>
        have hrs : requested s a p = made := congrArg Prod.fst hprepared
        cases made with
        | error e =>
          simp only [carryOut, hc', hp', hprepared]
          exact .reported (.directories c p e hc hp hrs)
        | ok rs =>
          rw [carryOut_prepared hc' hp' hprepared, generate_code hprepared (unheld_of_prepared hheld hprepared)]
          exact .generated p rs ⟨c, hc, hp, hrs⟩

theorem SetUp.unique {p' : Plan} {rs' : List Request} (h : SetUp s a p rs) (h' : SetUp s a p' rs') :
    p' = p ∧ rs' = rs := by
  obtain ⟨c, hc, hp, hrs⟩ := h
  obtain ⟨c', hc', hp', hrs'⟩ := h'
  obtain rfl := Except.ok.inj (hc.symm.trans hc')
  obtain rfl := Except.ok.inj (hp.symm.trans hp')
  exact ⟨rfl, (Except.ok.inj (hrs.symm.trans hrs')).symm⟩

theorem SetUpFails.not_setUp (h : SetUpFails s a) : ¬SetUp s a p rs := by
  rintro ⟨c, hc, hp, hrs⟩
  cases h with
  | configuration e h => cases h.symm.trans hc
  | plan c' e hc' h =>
    obtain rfl := Except.ok.inj (hc'.symm.trans hc)
    cases h.symm.trans hp
  | directories c' p' e hc' hp' h =>
    obtain rfl := Except.ok.inj (hc'.symm.trans hc)
    obtain rfl := Except.ok.inj (hp'.symm.trans hp)
    cases h.symm.trans hrs

theorem SetUp.configured_ne (h : SetUp s a p rs) (e : ConfigurationError) : configured s a ≠ .error e := by
  obtain ⟨c, hc⟩ := h
  simp [hc]

theorem SetUpFails.not_escapes (h : SetUpFails s a) {e : ConfigurationError} (he : configured s a = .error e) :
    ¬e.Escapes := by
  cases h with
  | configuration e' h hescapes =>
    obtain rfl := Except.error.inj (he.symm.trans h)
    exact hescapes
  | plan c e' hc | directories c p e' hc => cases he.symm.trans hc

/-- How a command ends that can be read. -/
structure ExitStatus (s : Surroundings) (a : Arguments) (f : Finish) : Prop where
  /-- It ends with one of three codes, or it breaks off. -/
  ends : f = .code 0 ∨ f = .code 1 ∨ f = .code 2 ∨ ∃ e, f = .broken e
  zero : f = .code 0 ↔ ∃ p rs, SetUp s a p rs ∧ ∀ r ∈ rs, p.refused r = false ∧ r.child.fails = false
  one : f = .code 1 ↔ ∃ p rs, SetUp s a p rs ∧ ((∃ r ∈ rs, p.refused r = true ∨ r.child.fails = true) ∧
    ¬∃ r, rs = [r] ∧ p.refused r = true)
  /-- The arguments of a single encoder can be refused after all has been set up. -/
  two : f = .code 2 ↔ SetUpFails s a ∨ ∃ p r, SetUp s a p [r] ∧ p.refused r = true
  broken : ∀ e, f = .broken e ↔ configured s a = .error e ∧ e.Escapes
  /-- Without a settings file it breaks off exactly if the interval is infinite or too long. -/
  interval : a.settings = none →
    ((∃ e, f = .broken e) ↔ a.interval ≠ .nan ∧ ∀ n, Interval.ofSeconds a.interval ≠ .ok n)

theorem Ends.broken_iff {f : Finish} (h : Ends s a f) (e : ConfigurationError) :
    f = .broken e ↔ configured s a = .error e ∧ e.Escapes := by
  cases h with
  | broken e' h he =>
    constructor
    · intro heq
      obtain rfl := Finish.broken.inj heq
      exact ⟨h, he⟩
    · rintro ⟨h', -⟩
      rw [Except.error.inj (h.symm.trans h')]
  | reported h => simpa using fun he => h.not_escapes he
  | generated p rs h => simpa using fun he => absurd he (h.configured_ne e)

theorem Ends.code_iff {f : Finish} (h : Ends s a f) (n : Nat) :
    f = .code n ↔ n = 2 ∧ SetUpFails s a ∨ ∃ p rs, SetUp s a p rs ∧ codeFor p rs = n := by
  cases h with
  | broken e h he =>
    have hfails : ¬SetUpFails s a := fun hfails => hfails.not_escapes h he
    have hsetUp : ¬∃ p rs, SetUp s a p rs ∧ codeFor p rs = n := fun ⟨_, _, hsetUp, _⟩ => hsetUp.configured_ne e h
    simp [hfails, hsetUp]
  | reported h =>
    have hsetUp : ¬∃ p rs, SetUp s a p rs ∧ codeFor p rs = n := fun ⟨_, _, hsetUp, _⟩ => h.not_setUp hsetUp
    simp only [hsetUp, h, and_true, or_false, Finish.code.injEq]
    exact eq_comm
  | generated p rs h =>
    have hfails : ¬SetUpFails s a := fun hfails => hfails.not_setUp h
    simp only [Finish.code.injEq, hfails, and_false, false_or]
    constructor
    · exact fun hn => ⟨p, rs, h, hn⟩
    · rintro ⟨p', rs', h', hn⟩
      obtain ⟨rfl, rfl⟩ := h.unique h'
      exact hn

/-! ## Codes -/

theorem codeFor_eq_zero : codeFor p rs = 0 ↔ ∀ r ∈ rs, p.refused r = false ∧ r.child.fails = false := by
  unfold codeFor
  split
  · next h =>
    obtain ⟨-, r, hr, hrefused⟩ := h
    exact ⟨nofun, fun hall => by simp [(hall r hr).1] at hrefused⟩
  · split
    · next h =>
      obtain ⟨r, hr, hfails⟩ := h
      exact ⟨nofun, fun hall => by simp [hall r hr] at hfails⟩
    · next h => simpa using h

theorem single_refused : (rs.length = 1 ∧ ∃ r ∈ rs, p.refused r = true) ↔ ∃ r, rs = [r] ∧ p.refused r = true := by
  constructor
  · rintro ⟨hone, r, hr, hrefused⟩
    obtain ⟨q, rfl⟩ := List.length_eq_one_iff.1 hone
    obtain rfl := List.mem_singleton.1 hr
    exact ⟨r, rfl, hrefused⟩
  · rintro ⟨r, rfl, hrefused⟩
    exact ⟨rfl, r, List.mem_singleton.2 rfl, hrefused⟩

theorem codeFor_eq_two : codeFor p rs = 2 ↔ ∃ r, rs = [r] ∧ p.refused r = true := by
  rw [← single_refused, codeFor]
  split
  · next h => simpa using h
  · next h => split <;> simpa using h

theorem codeFor_eq_one : codeFor p rs = 1 ↔ (∃ r ∈ rs, p.refused r = true ∨ r.child.fails = true) ∧
    ¬∃ r, rs = [r] ∧ p.refused r = true := by
  rw [← single_refused, codeFor]
  split
  · next h => simp [h]
  · next h => split <;> simp_all

theorem codeFor_le (p : Plan) (rs : List Request) : codeFor p rs = 0 ∨ codeFor p rs = 1 ∨ codeFor p rs = 2 := by
  unfold codeFor
  split
  · exact .inr (.inr rfl)
  · split
    · exact .inr (.inl rfl)
    · exact .inl rfl

theorem Ends.exitStatus {f : Finish} (h : Ends s a f) : ExitStatus s a f where
  ends := by
    cases h with
    | broken e => exact .inr (.inr (.inr ⟨e, rfl⟩))
    | reported => exact .inr (.inr (.inl rfl))
    | generated p rs =>
      simp only [Finish.code.injEq]
      exact (codeFor_le p rs).imp_right (.imp_right .inl)
  zero := by simp [h.code_iff, codeFor_eq_zero]
  one := by simp [h.code_iff, codeFor_eq_one]
  two := by
    rw [h.code_iff]
    simp only [codeFor_eq_two, true_and]
    refine or_congr_right ⟨?_, ?_⟩
    · rintro ⟨p, rs, hsetUp, r, rfl, hrefused⟩
      exact ⟨p, r, hsetUp, hrefused⟩
    · rintro ⟨p, r, hsetUp, hrefused⟩
      exact ⟨p, [r], hsetUp, r, rfl, hrefused⟩
  broken := h.broken_iff
  interval hnone := by
    rw [← escapes_iff_interval hnone (Settings.read s.format s.machine.files)]
    exact exists_congr h.broken_iff

/-- **Exit statuses.** For every command that can be read, on every machine whose encoders exit. -/
theorem run_exits (s : Surroundings) (words : List String) (a : Arguments) (ha : parse words = .ok a)
    (hheld : ∀ m ∈ a.inputs, (s.childFor m).held = false) : ExitStatus s a (run s words).finish := by
  have hfinish : (run s words).finish = (carryOut s a).1 := by simp only [run, ha]
  rw [hfinish]
  exact (carryOut_ends hheld).exitStatus

def twoClipsWords : List String := ["-i", "a.mp4", "-i", "b.mp4", "--ffmpeg", "/opt/ffmpeg"]

theorem run_exits_failing :
    parse twoClipsWords = .ok twoClips ∧ (∀ m ∈ twoClips.inputs, (failingClip.childFor m).held = false) ∧
      ExitStatus failingClip twoClips (run failingClip twoClipsWords).finish ∧
      (run failingClip twoClipsWords).finish = .code 1 := by
  have hwords : parse twoClipsWords = .ok twoClips := by decide +kernel
  have hheld : ∀ m ∈ twoClips.inputs, (failingClip.childFor m).held = false := by decide
  exact ⟨hwords, hheld, run_exits failingClip twoClipsWords twoClips hwords hheld, by decide +kernel⟩

/-- A command whose interval is infinite. -/
def endless : List String := ["-i", "a.mp4", "--interval", "inf"]

/-- The command can be read, and its configuration cannot be built; yet it ends with no code. -/
theorem endless_breaks_off :
    parse endless = .ok { inputs := ["a.mp4"], interval := .infinite false } ∧
      (configured failingClip { inputs := ["a.mp4"], interval := .infinite false }) =
        .error (.interval .infinite) ∧
      (run failingClip endless).finish = .broken (.interval .infinite) ∧
      ¬∃ n, (run failingClip endless).finish = .code n := by
  have hbroken : (run failingClip endless).finish = .broken (.interval .infinite) := by decide +kernel
  exact ⟨by decide +kernel, by rfl, hbroken, by simp [hbroken]⟩

end CommandLine

end Thumbnailer
