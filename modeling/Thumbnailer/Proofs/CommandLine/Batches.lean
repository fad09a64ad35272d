import Mathlib.Data.List.Induction
import Thumbnailer.CommandLine.Batch
import Thumbnailer.Proofs.CommandLine.Prepared
import Thumbnailer.Proofs.Generator.Filed

/-!
# Runs of batches

What each action makes of a batch, and what holds in every state that a batch can come to.
-/

namespace Thumbnailer.CommandLine.Batch

open Generator (Backed Calm Filed Open Answered)

variable {b b' : Batch} {a : Action} {as : List Action} {inputs : List String}

/-! ## One action -/

/-- The places that the outputs go to in a directory of their own. -/
def destinations (b : Batch) (subdirectory : String) : OrderedMap Int String :=
  destinationsIn b.generator.plan subdirectory

/-- An action that can happen, and the batch after it. -/
inductive Step (b : Batch) : Action → Batch → Prop
  | prepare (media subdirectory : String) (left : List (String × String)) (child : Child) (files : FileTree)
      (hs : b.stage = .preparing ((media, subdirectory) :: left))
      (hmade : makeDirectoriesFor b.files ((b.destinations subdirectory).map (·.2)) = (.ok (), files)) :
      Step b (.prepare child) { b with
        files
        requests := b.requests ++ [{ media, destinations := b.destinations subdirectory, child }]
        stage := .preparing left }
  | fail (media subdirectory : String) (left : List (String × String)) (child : Child) (files : FileTree)
      (e : PathError) (hs : b.stage = .preparing ((media, subdirectory) :: left))
      (hmade : makeDirectoriesFor b.files ((b.destinations subdirectory).map (·.2)) = (.error e, files)) :
      Step b (.prepare child) { b with files, stage := .failed e }
  | begin (hs : b.stage = .preparing []) : Step b .begin { b with began := b.generator.clock, stage := .calling }
  | submit (r : Request) (hs : b.stage = .calling) (ha : b.answered = true) (hr : b.next? = some r) :
      Step b .submit { b with generator := b.generator.submitted { r with queued := true } }
  | await (hs : b.stage = .calling) (ha : b.answered = true) (hr : b.next? = none) :
      Step b .await { b with
        generator := { b.generator with waits := b.generator.waits ++ [{ closes := true }] }
        stage := .waiting }
  | work (a : Generator.Action) (g : Generator) (ha : a.spontaneous = true) (h : b.generator.step? a = some g) :
      Step b (.work a) { b with generator := g }
  | leave (hs : b.stage = .waiting) (hw : ∀ w ∈ b.generator.waits, w.phase = .returned) :
      Step b .leave { b with stage := .collecting }
  | collect (d : Generator.Delivery) (hs : b.stage = .collecting) (hlt : b.taken < b.requests.length)
      (hd : b.generator.queue[b.taken]? = some d) :
      Step b .collect { b with taken := b.taken + 1, failures := b.failures + d.error.isSome.toNat }
  | finish (hs : b.stage = .collecting) (ht : b.taken = b.requests.length) :
      Step b .finish { b with stage := .ended (if b.failures = 0 then 0 else 1) }

theorem run?_demands (h : b.step? a = some b') : b.generator.run? (b.demands a) = some b'.generator := by
  obtain ⟨c, -, h⟩ := Option.bind_eq_some_iff.1 h
  obtain ⟨g, hg, rfl⟩ := Option.map_eq_some_iff.1 h
  rwa [← Generator.run?_eq_foldlM] at hg

theorem pending_head? (b : Batch) : b.pending.head? = b.generator.queue[b.taken]? := by
  rw [pending, List.head?_drop]

theorem step_of_prepareNext {media subdirectory : String} {left : List (String × String)} (child : Child)
    (hs : b.stage = .preparing ((media, subdirectory) :: left)) :
    Step b (.prepare child) (b.prepareNext media subdirectory left child) := by
  cases hmade : makeDirectoriesFor b.files ((b.destinations subdirectory).map (·.2)) with
  | mk made files =>
    have hnext := hmade
    rw [destinations] at hnext
    cases made with
    | ok =>
      simp only [prepareNext, hnext]
      exact .prepare media subdirectory left child files hs hmade
    | error e =>
      simp only [prepareNext, hnext]
      exact .fail media subdirectory left child files e hs hmade

theorem step_of_step? (h : b.step? a = some b') : Step b a b' := by
  unfold step? at h
  obtain ⟨c, hc, h⟩ := Option.bind_eq_some_iff.1 h
  obtain ⟨g, hg, rfl⟩ := Option.map_eq_some_iff.1 h
  -- The guard gives the side conditions of a step, and what is asked of the generator gives its generator.
  cases a with
  | prepare child =>
    obtain rfl := Option.some.inj hg
    simp only [command?] at hc
    split at hc
    next media subdirectory left hs =>
      obtain rfl := Option.some.inj hc
      have hsame : (b.prepareNext media subdirectory left child).generator = b.generator := by
        unfold prepareNext
        dsimp only
        split <;> rfl
      rw [← hsame]
      exact step_of_prepareNext child hs
    next => cases hc
  | begin =>
    obtain rfl := Option.some.inj hg
    obtain ⟨hs, hc⟩ := Option.ite_none_right_eq_some.1 hc
    obtain rfl := Option.some.inj hc
    exact .begin hs
  | submit =>
    obtain ⟨hguard, hc⟩ := Option.ite_none_right_eq_some.1 hc
    obtain rfl := Option.some.inj hc
    simp only [Bool.and_eq_true, decide_eq_true_eq, Option.isSome_iff_exists] at hguard
    obtain ⟨⟨hs, ha⟩, r, hr⟩ := hguard
    rw [← Generator.run?_eq_foldlM, demands, hr, Option.toList_some, List.flatMap_singleton, Generator.run?_submit] at hg
    obtain rfl := Option.some.inj hg
    exact .submit r hs ha hr
  | await =>
    obtain ⟨hguard, hc⟩ := Option.ite_none_right_eq_some.1 hc
    obtain rfl := Option.some.inj hc
    simp only [Bool.and_eq_true, decide_eq_true_eq, Option.isNone_iff_eq_none] at hguard
    obtain ⟨⟨hs, ha⟩, hr⟩ := hguard
    obtain rfl := Option.some.inj hg
    exact .await hs ha hr
  | work a =>
    obtain ⟨ha, hc⟩ := Option.ite_none_right_eq_some.1 hc
    obtain rfl := Option.some.inj hc
    exact .work a g ha (by simpa [demands] using hg)
  | leave =>
    obtain rfl := Option.some.inj hg
    obtain ⟨hguard, hc⟩ := Option.ite_none_right_eq_some.1 hc
    obtain rfl := Option.some.inj hc
    simp only [Bool.and_eq_true, decide_eq_true_eq, List.all_eq_true] at hguard
    exact .leave hguard.1 hguard.2
  | collect =>
    obtain rfl := Option.some.inj hg
    obtain ⟨hguard, hc⟩ := Option.ite_none_right_eq_some.1 hc
    obtain ⟨d, hd, rfl⟩ := Option.map_eq_some_iff.1 hc
    simp only [Bool.and_eq_true, decide_eq_true_eq] at hguard
    exact .collect d hguard.1 hguard.2 (b.pending_head? ▸ hd)
  | finish =>
    obtain rfl := Option.some.inj hg
    obtain ⟨hguard, hc⟩ := Option.ite_none_right_eq_some.1 hc
    obtain rfl := Option.some.inj hc
    simp only [Bool.and_eq_true, decide_eq_true_eq] at hguard
    exact .finish hguard.1 hguard.2

theorem Step.step? (h : Step b a b') : b.step? a = some b' := by
  cases h with
  | prepare media subdirectory left child files hs hmade =>
    rw [destinations] at hmade
    simp [Batch.step?, command?, demands, prepareNext, hs, hmade, destinations]
  | fail media subdirectory left child files e hs hmade =>
    rw [destinations] at hmade
    simp [Batch.step?, command?, demands, prepareNext, hs, hmade]
  | begin hs => simp [Batch.step?, command?, demands, hs]
  | submit r hs ha hr =>
    rw [Batch.step?, ← Generator.run?_eq_foldlM, demands, hr, Option.toList_some, List.flatMap_singleton,
      Generator.run?_submit]
    simp [command?, hs, ha, hr]
  | await hs ha hr => simp [Batch.step?, command?, demands, hs, ha, hr, Generator.step?]
  | work a g ha h => simp [Batch.step?, command?, demands, ha, h]
  | leave hs hw =>
    have hall : b.generator.waits.all (·.phase = .returned) = true := by simpa using hw
    simp [Batch.step?, command?, demands, hs, hall]
  | collect d hs hlt hd => simp [Batch.step?, command?, demands, hs, hlt, pending_head?, hd]
  | finish hs ht => simp [Batch.step?, command?, demands, hs, ht]

theorem step?_eq_some : b.step? a = some b' ↔ Step b a b' := ⟨step_of_step?, Step.step?⟩

/-! ## What is prepared -/

/-- The inputs that are left to prepare, unless that has failed. -/
def Stage.left? : Stage → Option (List (String × String))
  | .preparing left => some left
  | .failed _ => none
  | _ => some []

/-- There are requests for the inputs that are prepared, and the directories that their outputs go to. -/
structure Prepared (p : Plan) (inputs : List String) (b : Batch) : Prop where
  plan : b.generator.plan = p
  fresh : ∀ r ∈ b.requests, r.cancelled = false
  ready : ∀ left, b.stage.left? = some left → ∀ r ∈ b.requests, Ready b.files (r.destinations.map (·.2))
  covers : ∀ left, b.stage.left? = some left →
    b.requests.map aim ++ left.map (aimFor p) = (subdirectories inputs).map (aimFor p)

theorem new_prepared (p : Plan) (concurrency : Int) (clock : Double) (files : FileTree) (inputs : List String) :
    Prepared p inputs (new p concurrency clock files inputs) where
  plan := rfl
  fresh := by simp [new]
  ready := by simp [new]
  covers left h := by
    obtain rfl := Option.some.inj h
    rfl

theorem demands_plan (h : b.step? a = some b') : b'.generator.plan = b.generator.plan :=
  Generator.run_plan (run?_demands h)

theorem Step.prepared {p : Plan} (h : Step b a b') (hb : Prepared p inputs b) : Prepared p inputs b' := by
  have hplan := (demands_plan h.step?).trans hb.plan
  cases h with
  | prepare media subdirectory left child files hs hmade =>
    -- Making more directories only extends the tree, so those of earlier inputs are still there.
    obtain ⟨hextends, hready⟩ := makeDirectoriesFor_ready hmade
    refine ⟨hplan, List.forall_mem_append.2 ⟨hb.fresh, by simp⟩, fun rest hrest => ?_, fun rest hrest => ?_⟩
    · have hbefore := hb.ready _ (by rw [hs]; rfl)
      exact List.forall_mem_append.2 ⟨fun r hr => (hbefore r hr).extends hextends, by simpa using hready⟩
    · obtain rfl := Option.some.inj hrest
      have hcovers := hb.covers _ (by rw [hs]; rfl)
      rw [← hcovers, ← hb.plan]
      simp [aim, aimFor, destinations]
  | fail => exact ⟨hplan, hb.fresh, by simp [Stage.left?], by simp [Stage.left?]⟩
  | begin hs | await hs | leave hs | finish hs =>
    have hsame (left : List (String × String)) (hleft : some [] = some left) : b.stage.left? = some left := by
      rw [hs]
      exact hleft
    exact ⟨hplan, hb.fresh, fun left hleft => hb.ready left (hsame left hleft),
      fun left hleft => hb.covers left (hsame left hleft)⟩
  | submit | work | collect => exact ⟨hplan, hb.fresh, hb.ready, hb.covers⟩

/-! ## The generator -/

theorem demands_quiet {p : Plan} (hb : Prepared p inputs b) (h : Step b a b') :
    ∀ d ∈ b.demands a, d.quiet = true := by
  cases h with
  | submit r hs ha hr =>
    have hfresh := hb.fresh r (List.mem_of_getElem? hr)
    simp [demands, hr, Generator.Action.quiet, hfresh]
  | await => simp [demands, Generator.Action.quiet]
  | work a g ha => simpa [demands] using Generator.quiet_of_spontaneous ha
  | _ => simp [demands]

/-- The generator goes on undisturbed, with one call for each of the first requests. -/
structure Engaged (b : Batch) : Prop where
  backed : Backed b.generator
  calm : Calm b.generator
  filed : Filed b.generator b.requests

theorem new_engaged (p : Plan) (concurrency : Int) (clock : Double) (files : FileTree) (inputs : List String) :
    Engaged (new p concurrency clock files inputs) :=
  ⟨Generator.new_backed p concurrency clock, Generator.new_calm p concurrency clock,
    Generator.new_filed p concurrency clock _⟩

theorem Step.engaged {p : Plan} (h : Step b a b') (hp : Prepared p inputs b) (hb : Engaged b) : Engaged b' where
  backed := Generator.run_inv Generator.step?_backed hb.backed (run?_demands h.step?)
  calm := Generator.run_quiet Generator.step?_calm hb.calm (demands_quiet hp h) (run?_demands h.step?)
  filed := by
    have hfiled := hb.filed
    cases h with
    | prepare => exact hfiled.append _
    | submit r hs ha hr => exact hfiled.submitted hr
    | await => exact ⟨hfiled.le, hfiled.requests, hfiled.tickets, hfiled.nextId⟩
    | work a g ha h =>
      exact Generator.step?_filed hfiled (Generator.quiet_of_spontaneous ha) (by rintro q rfl; cases ha)
        (by rintro m mode rfl; cases ha) h
    | _ => exact hfiled

/-! ## Where a batch stands -/

/-- The callers have got their numbers, and all calls have ended; some of the results were taken from the queue. -/
structure Waited (b : Batch) : Prop where
  answered : Answered b.generator
  all : b.generator.calls.length = b.requests.length
  idle : b.generator.outstanding = 0
  taken : b.taken ≤ b.generator.queue.length
  failures : b.failures = (b.generator.queue.take b.taken).countP fun d => d.error.isSome

/-- How far the generator and the command have come at the same time. -/
inductive Standing (b : Batch) : Prop
  | preparing (left : List (String × String)) (hs : b.stage = .preparing left) (hopen : Open b.generator)
      (hwaits : b.generator.waits = []) (hcalls : b.generator.calls = []) (hnone : b.taken = 0 ∧ b.failures = 0)
  | failed (e : PathError) (hs : b.stage = .failed e) (hcalls : b.generator.calls = [])
      (hnone : b.taken = 0 ∧ b.failures = 0)
  | calling (hs : b.stage = .calling) (hopen : Open b.generator) (hwaits : b.generator.waits = [])
      (hnone : b.taken = 0 ∧ b.failures = 0)
  | waiting (phase : Generator.WaitPhase) (hs : b.stage = .waiting)
      (hwaits : b.generator.waits = [⟨true, phase⟩]) (hanswered : Answered b.generator)
      (hall : b.generator.calls.length = b.requests.length)
      (hidle : phase = .closing ∨ phase = .returned → b.generator.outstanding = 0)
      (hnone : b.taken = 0 ∧ b.failures = 0)
  | collecting (hs : b.stage = .collecting) (hwaited : Waited b)
  | ended (hs : b.stage = .ended (if b.failures = 0 then 0 else 1)) (hwaited : Waited b)
      (htaken : b.taken = b.requests.length)

theorem new_standing (p : Plan) (concurrency : Int) (clock : Double) (files : FileTree) (inputs : List String) :
    Standing (new p concurrency clock files inputs) :=
  .preparing _ rfl ⟨rfl, by simp [new, Generator.view?, Generator.new]⟩ rfl rfl ⟨rfl, rfl⟩

section
variable (hb : Standing b)
include hb

theorem Standing.of_preparing {left : List (String × String)} (hs : b.stage = .preparing left) :
    Open b.generator ∧ b.generator.waits = [] ∧ b.generator.calls = [] ∧ b.taken = 0 ∧ b.failures = 0 := by
  cases hb with
  | preparing left' hs' hopen hwaits hcalls hnone => exact ⟨hopen, hwaits, hcalls, hnone⟩
  | failed e hs' | calling hs' | waiting phase hs' | collecting hs' | ended hs' => cases hs'.symm.trans hs

theorem Standing.of_calling (hs : b.stage = .calling) :
    Open b.generator ∧ b.generator.waits = [] ∧ b.taken = 0 ∧ b.failures = 0 := by
  cases hb with
  | calling hs' hopen hwaits hnone => exact ⟨hopen, hwaits, hnone⟩
  | preparing left hs' | failed e hs' | waiting phase hs' | collecting hs' | ended hs' => cases hs'.symm.trans hs

theorem Standing.of_collecting (hs : b.stage = .collecting) : Waited b := by
  cases hb with
  | collecting hs' hwaited => exact hwaited
  | preparing left hs' | failed e hs' | calling hs' | waiting phase hs' | ended hs' => cases hs'.symm.trans hs

theorem Standing.of_ended {code : Nat} (hs : b.stage = .ended code) :
    code = (if b.failures = 0 then 0 else 1) ∧ Waited b ∧ b.taken = b.requests.length := by
  cases hb with
  | ended hs' hwaited htaken => exact ⟨Stage.ended.inj (hs.symm.trans hs'), hwaited, htaken⟩
  | preparing left hs' | failed e hs' | calling hs' | waiting phase hs' | collecting hs' => cases hs'.symm.trans hs

theorem Standing.waited (hs : b.stage = .waiting) (hw : ∀ w ∈ b.generator.waits, w.phase = .returned) :
    Waited b ∧ b.taken = 0 := by
  cases hb with
  | waiting phase hs' hwaits hanswered hall hidle hnone =>
    have hphase : phase = .returned := hw ⟨true, phase⟩ (by simp [hwaits])
    exact ⟨⟨hanswered, hall, hidle (.inr hphase), by simp [hnone.1], by simp [hnone.1, hnone.2]⟩, hnone.1⟩
  | preparing left hs' | failed e hs' | calling hs' | collecting hs' | ended hs' => cases hs'.symm.trans hs

end

theorem answered_of_all (hb : Engaged b) (h : b.answered = true) : Answered b.generator := by
  intro k hk
  obtain ⟨c, hc⟩ := List.getElem?_of_mem hk
  exact ⟨(hb.filed.call hc).2.1, List.all_eq_true.1 h k hk⟩

theorem length_of_next? (hb : Engaged b) (h : b.next? = none) : b.generator.calls.length = b.requests.length :=
  Nat.le_antisymm hb.filed.le (List.getElem?_eq_none_iff.1 h)

theorem Waited.steady {g : Generator} (hb : Waited b) (h : b.generator.Steady g) :
    Waited { b with generator := g } where
  answered := h.answered
  all := h.length.trans hb.all
  idle := h.idle hb.idle
  taken := Nat.le_trans hb.taken h.queue.length_le
  failures := by
    obtain ⟨more, hmore⟩ := h.queue
    show b.failures = (g.queue.take b.taken).countP fun d => d.error.isSome
    rw [← hmore, List.take_append_of_le_length hb.taken, hb.failures]

theorem Standing.taken_le (hb : Standing b) : b.taken ≤ b.generator.queue.length := by
  cases hb with
  | preparing left hs hopen hwaits hcalls hnone => simp [hnone.1]
  | failed e hs hcalls hnone => simp [hnone.1]
  | calling hs hopen hwaits hnone => simp [hnone.1]
  | waiting phase hs hwaits hanswered hall hidle hnone => simp [hnone.1]
  | collecting hs hwaited | ended hs hwaited => exact hwaited.taken

theorem Waited.collect {d : Generator.Delivery} (hb : Waited b) (hd : b.generator.queue[b.taken]? = some d) :
    Waited { b with taken := b.taken + 1, failures := b.failures + d.error.isSome.toNat } where
  answered := hb.answered
  all := hb.all
  idle := hb.idle
  taken := (List.getElem?_eq_some_iff.1 hd).1
  failures := by
    show b.failures + d.error.isSome.toNat = (b.generator.queue.take (b.taken + 1)).countP fun d => d.error.isSome
    rw [List.take_add_one, hd, List.countP_append, hb.failures]
    cases hd : d.error <;> simp [hd]

theorem standing_work {a : Generator.Action} {g : Generator} (he : Engaged b) (hb : Standing b)
    (ha : a.spontaneous = true) (h : b.generator.step? a = some g) : Standing { b with generator := g } := by
  have hsound := he.backed.sound
  have hlength := Generator.length_of_spontaneous ha h
  cases hb with
  | preparing left hs hopen hwaits hcalls hnone =>
    obtain ⟨hown, hwaits'⟩ := Generator.own_of_unwaited hwaits ha h
    have hopen' := Generator.step?_open hopen hsound.tied hown (Generator.quiet_of_spontaneous ha) h
    exact .preparing left hs hopen' hwaits' (List.length_eq_zero_iff.1 (by rw [hlength, hcalls]; rfl)) hnone
  | failed e hs hcalls hnone => exact .failed e hs (List.length_eq_zero_iff.1 (by rw [hlength, hcalls]; rfl)) hnone
  | calling hs hopen hwaits hnone =>
    obtain ⟨hown, hwaits'⟩ := Generator.own_of_unwaited hwaits ha h
    exact .calling hs
      (Generator.step?_open hopen hsound.tied hown (Generator.quiet_of_spontaneous ha) h) hwaits' hnone
  | waiting phase hs hwaits hanswered hall hidle hnone =>
    -- Every caller has got a number by now, and nothing that happens by itself takes one back.
    have hsteady := Generator.step?_steady hanswered hsound ha h
    obtain ⟨phase', hwaits', hidle'⟩ := Generator.step?_waiting hwaits ha h hidle
    exact .waiting phase' hs hwaits' hsteady.answered (hsteady.length.trans hall)
      (fun hphase => hsteady.idle (hidle' hphase)) hnone
  | collecting hs hwaited => exact .collecting hs (hwaited.steady (Generator.step?_steady hwaited.answered hsound ha h))
  | ended hs hwaited htaken =>
    exact .ended hs (hwaited.steady (Generator.step?_steady hwaited.answered hsound ha h)) htaken

theorem Waited.staged (hb : Waited b) (stage : Stage) : Waited { b with stage } :=
  ⟨hb.answered, hb.all, hb.idle, hb.taken, hb.failures⟩

theorem Step.standing {p : Plan} (h : Step b a b') (hp : Prepared p inputs b) (he : Engaged b) (hb : Standing b) :
    Standing b' := by
  cases h with
  | work a g ha h => exact standing_work he hb ha h
  | fail media subdirectory left child files e hs hmade =>
    obtain ⟨-, -, hcalls, hnone⟩ := hb.of_preparing hs
    exact .failed e rfl hcalls hnone
  | prepare media subdirectory left child files hs hmade =>
    obtain ⟨hopen, hwaits, hcalls, hnone⟩ := hb.of_preparing hs
    exact .preparing left rfl hopen hwaits hcalls hnone
  | begin hs =>
    obtain ⟨hopen, hwaits, -, hnone⟩ := hb.of_preparing hs
    exact .calling rfl hopen hwaits hnone
  | submit r hs ha hr =>
    obtain ⟨hopen, hwaits, hnone⟩ := hb.of_calling hs
    have hfresh := hp.fresh r (List.mem_of_getElem? hr)
    exact .calling hs (hopen.submitted he.backed.sound.tied hfresh) hwaits hnone
  | await hs ha hr =>
    obtain ⟨-, hwaits, hnone⟩ := hb.of_calling hs
    have hanswered := answered_of_all he ha
    have hall := length_of_next? he hr
    exact .waiting .arriving rfl (by rw [hwaits]; rfl) hanswered hall (by simp) hnone
  | leave hs hw => exact .collecting rfl ((hb.waited hs hw).1.staged .collecting)
  | collect d hs hlt hd => exact .collecting hs ((hb.of_collecting hs).collect hd)
  | finish hs ht => exact .ended rfl ((hb.of_collecting hs).staged _) ht

/-! ## Whole runs -/

/-- The batch after some actions, if they can happen one after the other. -/
def run? (b : Batch) (as : List Action) : Option Batch := runFrom? Batch.step? b as

/-- What is seen of each action of a run. -/
def trace (b : Batch) : List Action → List (Action × List Event)
  | [] => []
  | a :: rest => (a, b.events a) ::
    match b.step? a with
    | none => []
    | some b' => b'.trace rest

def launchesIn (seen : List (Action × List Event)) : List (List String) :=
  seen.flatMap fun e => e.2.filterMap Event.launch?

def reportsIn (seen : List (Action × List Event)) : List Event :=
  seen.flatMap fun e => if e.1 = .collect then e.2 else []

theorem run?_append (b : Batch) (as bs : List Action) :
    b.run? (as ++ bs) = (b.run? as).bind fun b' => b'.run? bs := runFrom?_append Batch.step? b as bs

theorem run?_one (b : Batch) (a : Action) : b.run? [a] = b.step? a := runFrom?_one Batch.step? b a

theorem trace_append {bs : List Action} (h : b.run? as = some b') :
    b.trace (as ++ bs) = b.trace as ++ b'.trace bs := by
  induction as generalizing b with
  | nil =>
    obtain rfl := Option.some.inj h
    rfl
  | cons a rest ih =>
    obtain ⟨b₁, hfirst, hrest⟩ := Option.bind_eq_some_iff.1 h
    rw [List.cons_append, trace, trace, hfirst]
    simp only [List.cons_append]
    rw [ih hrest]

theorem trace_one (h : b.step? a = some b') : b.trace [a] = [(a, b.events a)] := by
  rw [trace, h]
  rfl

theorem resultRecord_launch? (g : Generator) (d : Generator.Delivery) : (resultRecord g d).launch? = none := by
  unfold resultRecord
  dsimp only
  split <;> rfl

/-- The command starts no encoder but through its generator. -/
theorem Step.launches (h : Step b a b') :
    b.generator.launches (b.demands a) = (b.events a).filterMap Event.launch? := by
  cases h with
  | submit r hs ha hr =>
    simp [demands, hr, events, Generator.launches, Generator.trace, Generator.events, Generator.step?,
      Generator.Action.call?]
  | work a g ha h => rw [demands, Generator.launches_cons h, events, Generator.launches, Generator.trace]; simp
  | collect d hs hlt hd =>
    simp [demands, events, pending_head?, hd, resultRecord_launch?, Generator.launches, Generator.trace]
  | _ => rfl

theorem run_induction {P : List Action → Batch → Prop} (hnil : P [] b)
    (hstep : ∀ as a c d, b.run? as = some c → P as c → Step c a d → P (as ++ [a]) d)
    (h : b.run? as = some b') : P as b' :=
  runFrom?_induction Batch.step? hnil (fun as a c d hrun hc hlast => hstep as a c d hrun hc (step?_eq_some.1 hlast)) h

/-- What holds of a batch wherever it has come to. -/
structure Sound (p : Plan) (inputs : List String) (b : Batch) : Prop where
  prepared : Prepared p inputs b
  engaged : Engaged b
  standing : Standing b

theorem new_sound (p : Plan) (concurrency : Int) (clock : Double) (files : FileTree) (inputs : List String) :
    Sound p inputs (new p concurrency clock files inputs) :=
  ⟨new_prepared p concurrency clock files inputs, new_engaged p concurrency clock files inputs,
    new_standing p concurrency clock files inputs⟩

theorem Step.sound {p : Plan} (h : Step b a b') (hb : Sound p inputs b) : Sound p inputs b' :=
  ⟨h.prepared hb.prepared, h.engaged hb.prepared hb.engaged, h.standing hb.prepared hb.engaged hb.standing⟩

/-- The records about the results that were taken from the queue. -/
def reported (b : Batch) : List Event := (b.generator.queue.take b.taken).map (resultRecord b.generator)

theorem resultRecord_congr {g g' : Generator} (h : g'.requests = g.requests) : resultRecord g' = resultRecord g := by
  funext d
  rw [resultRecord, resultRecord, h]

theorem Step.reported {p : Plan} (h : Step b a b') (hb : Sound p inputs b) :
    b'.reported = b.reported ++ if a = .collect then b.events a else [] := by
  unfold Batch.reported
  cases h with
  | work a g ha h =>
    -- The queue only grows at its end, and the requests that its entries are for stay the same.
    have hfiled : Filed g b.requests := ((Step.work a g ha h).engaged hb.prepared hb.engaged).filed
    have hrequests : g.requests = b.generator.requests := by
      rw [hfiled.requests, Generator.length_of_spontaneous ha h, hb.engaged.filed.requests]
    obtain ⟨more, hmore⟩ : b.generator.queue <+: g.queue :=
      Generator.run_queue ((runFrom?_one Generator.step? b.generator a).trans h)
    rw [if_neg (by simp), List.append_nil, resultRecord_congr hrequests, ← hmore,
      List.take_append_of_le_length hb.standing.taken_le]
  | submit r hs =>
    obtain ⟨-, -, hnone, -⟩ := hb.standing.of_calling hs
    simp [hnone]
  | collect d hs hlt hd =>
    rw [if_pos rfl, List.take_add_one, hd, List.map_append]
    simp [events, pending_head?, hd]
  | await =>
    rw [if_neg (by simp), List.append_nil]
    rfl
  | _ => simp

section
variable {p : Plan} {concurrency : Int} {clock : Double} {files : FileTree}
  (h : (new p concurrency clock files inputs).run? as = some b)
include h

theorem run_sound : Sound p inputs b :=
  run_induction (P := fun _ b => Sound p inputs b) (new_sound p concurrency clock files inputs)
    (fun _ _ _ _ _ hb hstep => hstep.sound hb) h

/-- The generator of a batch comes to where it is undisturbed, and nothing else starts an encoder. -/
theorem run_generator : ∃ gs : List Generator.Action, (Generator.new p concurrency clock).run? gs = some b.generator ∧
    (∀ g ∈ gs, g.quiet = true) ∧
      (Generator.new p concurrency clock).launches gs =
        launchesIn ((new p concurrency clock files inputs).trace as) := by
  refine run_induction (P := fun as b => ∃ gs : List Generator.Action,
    (Generator.new p concurrency clock).run? gs = some b.generator ∧ (∀ g ∈ gs, g.quiet = true) ∧
      (Generator.new p concurrency clock).launches gs =
        launchesIn ((new p concurrency clock files inputs).trace as)) ⟨[], rfl, by simp, rfl⟩ ?_ h
  rintro as a c d hrun ⟨gs, hgs, hquiet, hlaunches⟩ hstep
  have hc := run_sound hrun
  refine ⟨gs ++ c.demands a, ?_, ?_, ?_⟩
  · rw [Generator.run?_append, hgs]
    exact run?_demands hstep.step?
  · exact List.forall_mem_append.2 ⟨hquiet, demands_quiet hc.prepared hstep⟩
  · rw [Generator.launches_append hgs, hlaunches, trace_append hrun, hstep.launches, trace_one hstep.step?]
    simp [launchesIn]

theorem run_reports : reportsIn ((new p concurrency clock files inputs).trace as) = b.reported := by
  refine run_induction (P := fun as b => reportsIn ((new p concurrency clock files inputs).trace as) = b.reported)
    rfl ?_ h
  rintro as a c d hrun hreports hstep
  rw [trace_append hrun, trace_one hstep.step?, hstep.reported (run_sound hrun), ← hreports]
  simp [reportsIn]

end

end Thumbnailer.CommandLine.Batch
