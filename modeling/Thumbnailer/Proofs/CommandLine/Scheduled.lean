import Thumbnailer.Proofs.CommandLine.Reported
import Thumbnailer.Proofs.Generator.Performed

/-!
# Carrying out a batch

A command with several inputs is carried out as one of the runs of its batch.
-/

namespace Thumbnailer.CommandLine

namespace Batch

open Generator (Working Quit)

variable {b b' b'' : Batch} {a : Action} {es es' : List Event} {inputs : List String} {p : Plan}

/-! ## Runs with what is seen of them -/

/-- The batch can come to another one, and this is seen of it. -/
def Reaches (b : Batch) (es : List Event) (b' : Batch) : Prop :=
  ∃ as, b.run? as = some b' ∧ (b.trace as).flatMap Prod.snd = es

theorem Reaches.refl (b : Batch) : Reaches b [] b := ⟨[], rfl, rfl⟩

theorem Reaches.trans (h : Reaches b es b') (h' : Reaches b' es' b'') : Reaches b (es ++ es') b'' := by
  obtain ⟨as, hrun, rfl⟩ := h
  obtain ⟨as', hrun', rfl⟩ := h'
  refine ⟨as ++ as', ?_, ?_⟩
  · rw [run?_append, hrun, Option.bind_some, hrun']
  · rw [trace_append hrun, List.flatMap_append]

theorem Step.reaches (h : Step b a b') : Reaches b (b.events a) b' :=
  ⟨[a], by rw [run?_one, h.step?], by simp [trace_one h.step?]⟩

theorem Reaches.sound (h : Reaches b es b') (hb : Sound p inputs b) : Sound p inputs b' := by
  obtain ⟨as, hrun, -⟩ := h
  exact run_induction (P := fun _ b => Sound p inputs b) hb (fun _ _ _ _ _ hc hstep => hstep.sound hc) hrun

theorem reaches_work {as : List Generator.Action} {g : Generator} (has : ∀ a ∈ as, a.spontaneous = true)
    (h : b.generator.run? as = some g) : Reaches b (b.generator.seen as) { b with generator := g } := by
  induction as generalizing b with
  | nil =>
    obtain rfl := Option.some.inj h
    exact .refl b
  | cons a rest ih =>
    obtain ⟨g₁, hfirst, hrest⟩ := Option.bind_eq_some_iff.1 h
    obtain ⟨ha, has⟩ := List.forall_mem_cons.1 has
    rw [Generator.seen_cons hfirst]
    exact (Step.work a g₁ ha hfirst).reaches.trans (ih (b := { b with generator := g₁ }) has hrest)

/-! ## Preparing -/

theorem reaches_prepared {s : Surroundings} {ms : List (String × String)} {rs : List Request} {files : FileTree}
    (hs : b.stage = .preparing ms) (hplan : b.generator.plan = p)
    (h : prepare s p b.files ms = (.ok rs, files)) :
    Reaches b [] { b with files, requests := b.requests ++ rs, stage := .preparing [] } := by
  induction ms generalizing b rs with
  | nil =>
    simp only [prepare, Prod.mk.injEq, Except.ok.injEq] at h
    obtain ⟨rfl, rfl⟩ := h
    rw [List.append_nil, ← hs]
    exact .refl b
  | cons m rest ih =>
    obtain ⟨between, later, hmade, hrest, rfl⟩ := prepare_cons_ok h
    subst hplan
    have hstep := Step.prepare m.1 m.2 rest (s.childFor m.1) between hs hmade
    have hrest := ih (b := { b with
      files := between
      requests := b.requests ++ [{ media := m.1, destinations := b.destinations m.2, child := s.childFor m.1 }]
      stage := .preparing rest }) rfl rfl hrest
    have hreaches := hstep.reaches.trans hrest
    simp only [List.append_assoc] at hreaches
    exact hreaches

/-! ## Calling -/

theorem answered_of_quit (hb : Sound p inputs b) (hs : b.stage = .calling) (hquit : Quit b.generator) :
    b.answered = true := by
  obtain ⟨hopen, -⟩ := hb.standing.of_calling hs
  exact answered_of_gone hb.engaged hopen hquit.gone

theorem reaches_called {rs : List Request} (hb : Sound p inputs b) (hs : b.stage = .calling)
    (hrs : b.requests.drop b.generator.calls.length = rs) (hworking : Working b.generator)
    (hnone : b.generator.next? true = none) (hheld : ∀ r ∈ rs, r.child.held = false) :
    Reaches b (callAll b.generator rs).2 { b with generator := (callAll b.generator rs).1 } ∧
      Working (callAll b.generator rs).1 ∧ (callAll b.generator rs).1.next? true = none ∧
      (callAll b.generator rs).1.calls.length = b.requests.length := by
  induction rs generalizing b with
  | nil =>
    refine ⟨.refl b, hworking, hnone, ?_⟩
    have hle := List.drop_eq_nil_iff.1 hrs
    exact Nat.le_antisymm hb.engaged.filed.le hle
  | cons r rest ih =>
    obtain ⟨hr, hrest⟩ := List.forall_mem_cons.1 hheld
    have hnext : b.next? = some r := by
      rw [next?, ← List.head?_drop, hrs, List.head?_cons]
    -- The call is made, and everything happens that happens by itself.
    have hsubmit := Step.submit r hs (answered_of_quit hb hs (hworking.quit hnone)) hnext
    have hsubmitted : Working (b.generator.submitted { r with queued := true }) := hworking.submitted hr
    obtain ⟨as, hcalm, hrun, hseen, hworking', hnone'⟩ := hsubmitted.settle
    have hspontaneous (a : Generator.Action) (ha : a ∈ as) := Generator.spontaneous_of_calm (hcalm a ha)
    have hlength := Generator.length_of_run hspontaneous hrun
    rw [callAll, Generator.perform_pooled]
    generalize ((b.generator.submitted { r with queued := true }).settle true) = settled at *
    have hreaches := hsubmit.reaches.trans (reaches_work hspontaneous hrun)
    have hdrop : b.requests.drop settled.1.calls.length = rest := by
      rw [hlength, Generator.submitted_length, ← List.tail_drop, hrs, List.tail_cons]
    obtain ⟨hlater, hdone⟩ := ih (b := { b with generator := settled.1 }) (hreaches.sound hb) hs hdrop hworking' hnone'
      hrest
    refine ⟨?_, hdone⟩
    have hreaches := hreaches.trans hlater
    rw [hseen] at hreaches
    exact hreaches

/-! ## Collecting -/

theorem reaches_collected {ds : List Generator.Delivery} (hs : b.stage = .collecting) (hds : b.pending = ds)
    (hlength : b.generator.queue.length = b.requests.length) (htaken : b.taken ≤ b.requests.length) :
    Reaches b (ds.map (resultRecord b.generator)) { b with
      taken := b.requests.length
      failures := b.failures + ds.countP fun d => d.error.isSome } := by
  induction ds generalizing b with
  | nil =>
    have hle := List.drop_eq_nil_iff.1 hds
    have hall : b.requests.length = b.taken := by omega
    rw [hall, List.countP_nil, Nat.add_zero]
    exact .refl b
  | cons d rest ih =>
    -- What is pending is the queue behind the results that were taken, so its head is the next one.
    have hd : b.generator.queue[b.taken]? = some d := by rw [← pending_head?, hds, List.head?_cons]
    have hlt := (List.getElem?_eq_some_iff.1 hd).1
    have hless : b.taken < b.requests.length := hlength ▸ hlt
    have hstep := Step.collect d hs hless hd
    have hrest : b.generator.queue.drop (b.taken + 1) = rest := by
      rw [← List.tail_drop, show b.generator.queue.drop b.taken = d :: rest from hds, List.tail_cons]
    have hreaches := hstep.reaches.trans (ih (b := { b with
      taken := b.taken + 1
      failures := b.failures + d.error.isSome.toNat }) hs hrest hlength hless)
    have hcount : (d :: rest).countP (fun d => d.error.isSome) =
        d.error.isSome.toNat + rest.countP fun d => d.error.isSome := by
      rw [List.countP_cons]
      cases d.error.isSome <;> simp [Nat.add_comm]
    rw [hcount, ← Nat.add_assoc]
    simpa [events, pending_head?, hd] using hreaches

/-! ## The whole command -/

def failed (g : Generator) : Nat := (g.queue.filter fun d => d.error.isSome).length

section
variable {concurrency : Int} {clock : Double} {files : FileTree}

/-- When all calls have been made and are gone the command waits, leaves and collects the results. -/
theorem reaches_ended (h : Reaches (new p concurrency clock files inputs) es b) (hs : b.stage = .calling)
    (hall : b.generator.calls.length = b.requests.length) (hworking : Working b.generator)
    (hnone : b.generator.next? true = none) :
    Reaches b
      (b.generator.queue.map (resultRecord b.generator.awaited) ++
        [summary (b.generator.clock.sub b.began) (failed b.generator) b.requests.length])
      { b with
        generator := b.generator.awaited
        taken := b.requests.length
        failures := failed b.generator
        stage := .ended (if failed b.generator = 0 then 0 else 1) } := by
  have hb := h.sound (new_sound _ _ _ _ _)
  obtain ⟨-, -, htaken, hfailures⟩ := hb.standing.of_calling hs
  have hanswered := answered_of_quit hb hs (hworking.quit hnone)
  obtain ⟨g₁, hawait, hwork, hunseen, -⟩ := Generator.perform_await hworking hnone
  obtain rfl := Option.some.inj hawait
  have hfirst := (Step.await hs hanswered (List.getElem?_eq_none_iff.2 (Nat.le_of_eq hall.symm))).reaches
  have hsecond := hfirst.trans (reaches_work (by simp [Generator.Action.spontaneous]) hwork)
  have hleft := hsecond.trans (Step.leave rfl (by simp [Generator.awaited])).reaches
  rw [hunseen] at hleft
  -- Everything that is still to come happens to what is on the queue now.
  obtain ⟨as, hrun, -⟩ := h.trans hleft
  have hlength := queue_length hrun ((run_sound hrun).standing.of_collecting rfl)
  have hcollected := hleft.trans (reaches_collected rfl rfl hlength (by simp [htaken]))
  have hfinished := hcollected.trans (Step.finish rfl rfl).reaches
  have hpending : b.generator.awaited.queue.drop b.taken = b.generator.queue := by rw [htaken, List.drop_zero]; rfl
  have hcount : b.failures + b.generator.queue.countP (fun d => d.error.isSome) = failed b.generator := by
    rw [hfailures, Nat.zero_add, List.countP_eq_length_filter]
    rfl
  simp only [pending, hpending, hcount] at hfinished
  exact hfinished

theorem new_working (p : Plan) (concurrency : Int) (clock : Double) : Working (.new p concurrency clock) :=
  ⟨Generator.new_backed p concurrency clock, ⟨rfl, rfl, rfl⟩, by simp [Generator.Unheld, Generator.new]⟩

theorem generateAll_eq {g h : Generator} {rs : List Request} (hcalled : (callAll g rs).1 = h) (hworking : Working h)
    (hnone : h.next? true = none) :
    generateAll g rs = (if failed h = 0 then 0 else 1, (callAll g rs).2 ++
      (h.queue.map (resultRecord h.awaited) ++ [summary (h.clock.sub g.clock) (failed h) rs.length])) := by
  obtain ⟨g₁, -, -, -, hperform⟩ := Generator.perform_await hworking hnone
  subst hcalled
  rw [generateAll]
  dsimp only
  rw [hperform, List.append_nil, List.append_assoc]
  rfl

/-- The outputs of several inputs are generated as by one of the runs of their batch. -/
theorem reaches_generateAll (concurrency : Int) (clock : Double) {s : Surroundings} {rs : List Request}
    {files' : FileTree}
    (hprepared : prepare s p files (subdirectories inputs) = (.ok rs, files'))
    (hheld : ∀ r ∈ rs, r.child.held = false) :
    ∃ b, Reaches (new p concurrency clock files inputs) (generateAll (.new p concurrency clock) rs).2 b ∧
      b.stage = .ended (generateAll (.new p concurrency clock) rs).1 ∧ b.files = files' ∧ b.requests = rs := by
  let b₀ : Batch :=
    { files := files', requests := rs, generator := .new p concurrency clock, began := clock, stage := .calling }
  have hbegun : Reaches (new p concurrency clock files inputs) [] b₀ :=
    (reaches_prepared (b := new p concurrency clock files inputs) rfl rfl hprepared).trans (Step.begin rfl).reaches
  have hb : Sound p inputs b₀ :=
    hbegun.sound (new_sound _ _ _ _ _)
  have hrs : b₀.requests.drop b₀.generator.calls.length = rs := rfl
  obtain ⟨hcalled, hworking, hnone, hall⟩ := reaches_called hb rfl hrs (new_working p concurrency clock) rfl hheld
  have hended := reaches_ended (hbegun.trans hcalled) rfl hall hworking hnone
  rw [generateAll_eq rfl hworking hnone]
  exact ⟨_, hbegun.trans (hcalled.trans hended), rfl, rfl, rfl⟩

end

end Batch

end Thumbnailer.CommandLine
