import Thumbnailer.Proofs.CommandLine.Batches
import Thumbnailer.Proofs.Generator.Course

/-!
# Batches come to their end

As long as calls are under way or the command waits something can happen, and nothing goes on forever: each action
of the command leaves it less to do, and between them the generator comes to an end.
-/

namespace Thumbnailer.CommandLine.Batch

open Generator (Open)

variable {b b' : Batch} {a : Action} {inputs : List String} {p : Plan}

/-! ## Nobody is stuck -/

/-- The generator goes on by itself, or all its calls are gone. -/
theorem works_or_gone (hb : Engaged b) :
    (∃ a b', Step b a b') ∨ ∀ k ∈ b.generator.calls, b.generator.Gone k := by
  by_cases hrest : ∀ a : Generator.Action, a.calm = true → b.generator.step? a = none
  · refine .inr fun k hk => ?_
    obtain ⟨c, hc⟩ := List.getElem?_of_mem hk
    exact hb.backed.gone_of_rest hrest hc
  · obtain ⟨a, ha⟩ := not_forall.1 hrest
    obtain ⟨hcalm, hsome⟩ := Classical.not_imp.1 ha
    obtain ⟨g, hg⟩ := Option.ne_none_iff_exists'.1 hsome
    exact .inl ⟨_, _, .work a g (Generator.spontaneous_of_calm hcalm) hg⟩

theorem answered_of_gone (hb : Engaged b) (hopen : Open b.generator)
    (hgone : ∀ k ∈ b.generator.calls, b.generator.Gone k) : b.answered = true := by
  refine List.all_eq_true.2 fun k hk => ?_
  obtain ⟨c, hc⟩ := List.getElem?_of_mem hk
  exact (hopen.answered hb.backed.sound hc (hb.filed.call hc).2.1 (hgone k hk).call).1

theorem goes_on_calling (hb : Engaged b) (hs : b.stage = .calling) (hopen : Open b.generator) :
    ∃ a b', Step b a b' := by
  rcases works_or_gone hb with hworks | hgone
  · exact hworks
  · have hanswered := answered_of_gone hb hopen hgone
    cases hr : b.next? with
    | none => exact ⟨_, _, .await hs hanswered hr⟩
    | some r => exact ⟨_, _, .submit r hs hanswered hr⟩

theorem goes_on_waiting {phase : Generator.WaitPhase} (hb : Engaged b) (hs : b.stage = .waiting)
    (hwaits : b.generator.waits = [⟨true, phase⟩]) : ∃ a b', Step b a b' := by
  have hw : b.generator.waits[0]? = some ⟨true, phase⟩ := by rw [hwaits]; rfl
  have hworks (a : Generator.Action) (ha : a.spontaneous = true) (hsome : (b.generator.step? a).isSome) :
      ∃ a b', Step b a b' := by
    obtain ⟨g, hg⟩ := Option.isSome_iff_exists.1 hsome
    exact ⟨_, _, .work a g ha hg⟩
  cases phase with
  | arriving => exact hworks (.look 0) rfl (by simp [Generator.step?, hw])
  | closing => exact hworks (.shut 0) rfl (by simp [Generator.step?, hw, Pool.step?])
  | returned => exact ⟨_, _, .leave hs (by simp [hwaits])⟩
  | waiting =>
    rcases hb.backed.sound.waited.known 0 _ hw rfl with hparked | hwoken
    · rcases works_or_gone hb with hworks | hgone
      · exact hworks
      · -- Nobody is parked once all calls are gone.
        have hbusy := hb.backed.sound.waited.busy (List.ne_nil_of_mem hparked)
        have hzero := hb.backed.idle_of_gone hgone
        omega
    · exact hworks (.look 0) rfl (by simp [Generator.step?, hw, hwoken])

/-! ## Nothing goes on forever -/

/-- How many actions the command itself has before it. Each input is prepared, called for and collected. -/
def toDo (b : Batch) : Nat :=
  match b.stage with
  | .preparing left => 3 * left.length + 2 * b.requests.length + 4
  | .failed _ => 0
  | .calling => (b.requests.length - b.generator.calls.length) + b.requests.length + 3
  | .waiting => b.requests.length + 2
  | .collecting => (b.requests.length - b.taken) + 1
  | .ended _ => 0

/-- What the command has before it, and then what its generator has before it. -/
def course (b : Batch) : ℕ ×ₗ ℕ ×ₗ ℕ ×ₗ ℕ := toLex (b.toDo, b.generator.course)

theorem Step.course (h : Step b a b') (hb : Engaged b) : b'.course < b.course := by
  refine Prod.Lex.toLex_lt_toLex.2 ?_
  cases h with
  | work a g ha h =>
    refine .inr ⟨?_, Generator.step?_course hb.backed ha h⟩
    simp only [toDo, Generator.length_of_spontaneous ha h]
  | submit r hs ha hr =>
    have hlt : b.generator.calls.length < b.requests.length := (List.getElem?_eq_some_iff.1 hr).1
    left
    simp only [toDo, hs, Generator.submitted_length]
    omega
  | prepare _ _ _ _ _ hs | fail _ _ _ _ _ _ hs | begin hs | await hs | leave hs | collect _ hs | finish hs =>
    left
    simp only [toDo, hs, List.length_append, List.length_cons, List.length_nil]
    omega

/-- No run goes on forever from a batch. -/
def Ends (b : Batch) : Prop := Acc (fun later now => ∃ a, now.step? a = some later) b

theorem Sound.ends (hb : Sound p inputs b) : b.Ends := by
  induction hcourse : b.course using WellFoundedLT.induction generalizing b with
  | ind course ih =>
    subst hcourse
    refine .intro b fun b' ⟨a, hstep⟩ => ?_
    have hstep := step?_eq_some.1 hstep
    exact ih b'.course (hstep.course hb.engaged) (hstep.sound hb) rfl

end Thumbnailer.CommandLine.Batch
