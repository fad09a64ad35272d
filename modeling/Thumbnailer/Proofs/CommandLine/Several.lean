import Thumbnailer.Proofs.CommandLine.Scheduled

/-!
# Commands with several inputs

Whatever the encoders do, and in whatever order things happen: every input of a command is processed and reported
once, and the command ends: `several_processed`.
-/

namespace Thumbnailer.CommandLine

variable {s : Surroundings} {a : Arguments} {c : Config} {p : Plan} {rs : List Request} {files : FileTree}

def before (s : Surroundings) (a : Arguments) (c : Config) : List Event :=
  (a.configuration (Settings.read s.format s.machine.files)).2.map Event.log ++ (Plan.make s.machine (some c) s.version).2

theorem carryOut_prepared (hc : (a.configuration (Settings.read s.format s.machine.files)).1 = .ok c)
    (hp : (Plan.make s.machine (some c) s.version).1 = .ok p)
    (hprepared : prepare s p s.machine.files (subdirectories a.inputs) = (.ok rs, files)) :
    carryOut s a = (.code (generate (.new p c.concurrency s.version.seconds) rs).1, files,
      before s a c ++ (generate (.new p c.concurrency s.version.seconds) rs).2) := by
  simp only [carryOut, hc, hp, hprepared, before]

theorem subdirectories_length (inputs : List String) : (subdirectories inputs).length = inputs.length := by
  unfold subdirectories
  split
  · rfl
  · rw [List.length_zip, directoryNames_length, Nat.min_self]

theorem mem_subdirectories {inputs : List String} {m : String × String} (h : m ∈ subdirectories inputs) :
    m.1 ∈ inputs := by
  unfold subdirectories at h
  split at h
  · simp_all
  · exact (List.of_mem_zip h).1

theorem unheld_of_prepared (hheld : ∀ m ∈ a.inputs, (s.childFor m).held = false)
    (hprepared : prepare s p s.machine.files (subdirectories a.inputs) = (.ok rs, files)) :
    ∀ r ∈ rs, r.child.held = false := by
  obtain rfl := prepare_requests hprepared
  intro r hr
  obtain ⟨m, hm, rfl⟩ := List.mem_map.1 hr
  exact hheld m.1 (mem_subdirectories hm)

theorem generate_eq_generateAll (g : Generator) (h : rs.length ≠ 1) : generate g rs = generateAll g rs := by
  unfold generate
  split
  · exact absurd rfl h
  · rfl

def batch (s : Surroundings) (a : Arguments) (c : Config) (p : Plan) : Batch :=
  .new p c.concurrency s.version.seconds s.machine.files a.inputs

/-- What is true of a command with several inputs when its plan has been made. -/
structure Processed (s : Surroundings) (a : Arguments) (c : Config) (p : Plan) : Prop where
  /-- In whatever order the command, its calls and their encoders go on. -/
  lawful : ∀ as b, (batch s a c p).run? as = some b → b.Lawful p a.inputs ((batch s a c p).trace as)
  /-- When the directories can be made and every encoder exits, the command goes on in one of these orders until
  it has reported all inputs. -/
  carried : ∀ rs files, prepare s p s.machine.files (subdirectories a.inputs) = (.ok rs, files) →
    (∀ m ∈ a.inputs, (s.childFor m).held = false) →
    ∃ as b code, (batch s a c p).run? as = some b ∧ b.stage = .ended code ∧ b.files = files ∧ b.requests = rs ∧
      carryOut s a = (.code code, files, before s a c ++ ((batch s a c p).trace as).flatMap Prod.snd)

/-- Several inputs are processed and reported once each. -/
theorem several_processed (s : Surroundings) (a : Arguments) (c : Config) (p : Plan)
    (hc : (a.configuration (Settings.read s.format s.machine.files)).1 = .ok c)
    (hp : (Plan.make s.machine (some c) s.version).1 = .ok p) (hinputs : 2 ≤ a.inputs.length) :
    Processed s a c p where
  lawful _ _ h := Batch.run_lawful h hinputs
  carried rs files hprepared hheld := by
    have hlength : rs.length = a.inputs.length := by
      rw [prepare_requests hprepared, List.length_map, subdirectories_length]
    obtain ⟨b, ⟨as, hrun, hseen⟩, hs, hfiles, hrequests⟩ := Batch.reaches_generateAll
      c.concurrency s.version.seconds hprepared (unheld_of_prepared hheld hprepared)
    refine ⟨as, b, _, hrun, hs, hfiles, hrequests, ?_⟩
    rw [carryOut_prepared hc hp hprepared, generate_eq_generateAll _ (by omega), batch, hseen]

/-- A machine with an encoder that fails for one input. -/
def failingClip : Surroundings where
  machine := { files := .ofFiles [] }
  version := { stdout := "ffmpeg version 6.1".toList.map fun c => c.toNat.toUInt8 }
  childFor media := if media = "b.mp4" then { code := 1 } else {}

/-- Two inputs, of which the second one fails there. -/
def twoClips : Arguments := { inputs := ["a.mp4", "b.mp4"], program := some "/opt/ffmpeg" }

theorem several_processed_failing :
    ∃ c p, (twoClips.configuration (Settings.read failingClip.format failingClip.machine.files)).1 = .ok c ∧
      (Plan.make failingClip.machine (some c) failingClip.version).1 = .ok p ∧ 2 ≤ twoClips.inputs.length ∧
      Processed failingClip twoClips c p ∧ (carryOut failingClip twoClips).1 = .code 1 := by
  have hplan : (((twoClips.configuration
      (Settings.read failingClip.format failingClip.machine.files)).1.toOption.bind fun c =>
        (Plan.make failingClip.machine (some c) failingClip.version).1.toOption).isSome) = true := by decide +kernel
  obtain ⟨p, hplan⟩ := Option.isSome_iff_exists.1 hplan
  obtain ⟨c, hc, hp⟩ := Option.bind_eq_some_iff.1 hplan
  cases hconfiguration : (twoClips.configuration (Settings.read failingClip.format failingClip.machine.files)).1 with
  | error e => simp [hconfiguration, Except.toOption] at hc
  | ok c' =>
    cases hmake : (Plan.make failingClip.machine (some c) failingClip.version).1 with
    | error e => simp [hmake, Except.toOption] at hp
    | ok p' =>
      simp only [hconfiguration, hmake, Except.toOption, Option.some.injEq] at hc hp
      subst hc hp
      exact ⟨_, _, rfl, hmake, by decide, several_processed _ _ _ _ hconfiguration hmake (by decide),
        by decide +kernel⟩

end Thumbnailer.CommandLine
