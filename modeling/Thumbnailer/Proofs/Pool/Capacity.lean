import Thumbnailer.Proofs.Pool.Runs

/-!
# The law of the capacity

`capacity_law` says how many tasks a pool runs: the count is right in every state, a task is admitted only where
there is room for it, and so the count never exceeds the largest capacity that the pool has had.
-/

namespace Thumbnailer.Pool

variable {p q r : Pool} {a : Action} {as : List Action} {i n : Nat}

/-! ## Admissions need room -/

theorem Step.admission?_of_phase (h : Step p a q) (hafter : q.phase? i = some (.admitted n))
    (hbefore : p.phase? i ≠ some (.admitted n)) : p.admission? a = some (i, n) := by
  by_cases ha : a.task? = some i
  · obtain ⟨old, new, hturn, hmoved⟩ := h.turn ha
    obtain rfl := Option.some.inj (hmoved.after.symm.trans hafter)
    rw [h.admission?_of_turn hturn hmoved, Phase.admission?]
  · have hstage : p.stage i = .admitted n := by
      rw [← h.stage_of_ne ha, stage, hafter, Option.getD_some]
    exact absurd (phase?_of_stage hstage (by simp)) hbefore

theorem Step.running_le (h : Step p a q) : q.running ≤ p.running ∨ q.running ≤ p.capacity := by
  cases h.booking with
  | admission i ha hadmission hopen hroom hrunning => exact .inr (by omega)
  | none hadmission hspawned hrunning => exact .inl (by omega)

theorem run_bounded (h : p.run? as = some q) (hp : p.running ≤ p.capacity) :
    ∃ c ∈ p.capacity :: tunings as, q.running ≤ c := by
  refine run_induction (P := fun as q => ∃ c ∈ p.capacity :: tunings as, q.running ≤ c)
    ⟨p.capacity, List.mem_cons_self, hp⟩ ?_ h
  rintro as a q r hrun ⟨c, hc, hle⟩ hstep
  have hgrows : p.capacity :: tunings as ⊆ p.capacity :: tunings (as ++ [a]) := by
    rw [tunings, tunings, List.filterMap_append]
    exact List.cons_subset_cons _ (List.subset_append_left _ _)
  rcases hstep.running_le with hless | hroom
  · exact ⟨c, hgrows hc, Int.le_trans hless hle⟩
  · refine ⟨q.capacity, hgrows ?_, hroom⟩
    rw [run_capacity hrun]
    exact List.getLastD_mem_cons

theorem run_room (h : p.run? as = some q) (hadmits : p.admissions as ≠ []) :
    ∃ pre rest r, as = pre ++ rest ∧ rest ≠ [] ∧ p.run? pre = some r ∧ p.admissions pre = [] ∧
      r.closed = false ∧ r.running < r.capacity := by
  revert hadmits
  refine run_induction (P := fun as _ => p.admissions as ≠ [] → ∃ pre rest r, as = pre ++ rest ∧ rest ≠ [] ∧
    p.run? pre = some r ∧ p.admissions pre = [] ∧ r.closed = false ∧ r.running < r.capacity)
    (fun hadmits => absurd rfl hadmits) ?_ h
  intro as a q r hrun ih hstep hadmits
  by_cases hnone : p.admissions as = []
  · cases hstep.booking with
    | admission i ha hadmission hopen hroom => exact ⟨as, [a], q, rfl, by simp, hrun, hnone, hopen, hroom⟩
    | none hadmission => simp [admissions_concat hrun, hnone, hadmission] at hadmits
  · obtain ⟨pre, rest, s, rfl, hrest, hs⟩ := ih hnone
    exact ⟨pre, rest ++ [a], s, by simp, by simp, hs⟩

/-! ## The law -/

/-- How many tasks run in a pool that a run from the beginning has come to. -/
structure WithinCapacity (capacity : Int) (name : String) (as : List Action) (p : Pool) : Prop where
  /-- The count is the number of tasks that hold a slot: -/
  running : p.running = p.slots
  nonneg : 0 ≤ p.running
  /-- as many as were admitted, less those that have given their slot back. -/
  balance : p.running = ((new capacity name).admissions as).length - as.countP Action.releases
  /-- A task is admitted once at most; it holds its slot from then on until it gives it back, once, -/
  once : ∀ i, (workersOf i ((new capacity name).admissions as)).length =
      as.count (.release i) + (p.stage i).holdsSlot.toNat ∧
    (workersOf i ((new capacity name).admissions as)).length ≤ 1
  /-- and this it does within a few actions of its own, whatever else happens meanwhile. -/
  through : ∀ i, (p.stage i).holdsSlot = true → ∀ later q, p.run? later = some q →
    (deeds i (as ++ later)).length ≤ 3 ∧
      ((∀ a, a.task? = some i → q.step? a = none) → (as ++ later).count (.release i) = 1)
  /-- A task is admitted only by an open pool with room for it, and does not overfill it. -/
  admits : ∀ a q i n, p.step? a = some q → q.phase? i = some (.admitted n) →
    p.phase? i ≠ some (.admitted n) → p.closed = false ∧ p.running < p.capacity ∧
      q.running = p.running + 1 ∧ q.capacity = p.capacity ∧ q.running ≤ q.capacity
  /-- From here on nobody is admitted before the count has come below the capacity that is then in force. -/
  room : ∀ later q, p.run? later = some q → p.admissions later ≠ [] →
    ∃ pre rest r, later = pre ++ rest ∧ rest ≠ [] ∧ p.run? pre = some r ∧ p.admissions pre = [] ∧
      r.closed = false ∧ r.running < r.capacity ∧ r.capacity = (tunings pre).getLastD p.capacity
  /-- The count is at most one of the capacities that have been in force. -/
  bounded : ∃ c ∈ capacityOf capacity :: tunings as, p.running ≤ c
  inForce : p.capacity = (tunings as).getLastD (capacityOf capacity)
  positive : 0 < p.capacity

theorem getLastD_tunings_pos {c : Nat} (hc : 0 < c) (as : List Action) : 0 < (tunings as).getLastD c := by
  have hmem : (tunings as).getLastD c ∈ c :: tunings as := List.getLastD_mem_cons
  rcases List.mem_cons.1 hmem with heq | hmem
  · rwa [heq]
  · obtain ⟨a, -, ha⟩ := List.mem_filterMap.1 hmem
    cases a with
    | tune n =>
      obtain heq := Option.some.inj ha
      rw [← heq]
      exact capacityOf_pos n
    | _ => cases ha

theorem capacity_law {capacity : Int} {name : String} {as : List Action} {p : Pool}
    (h : (new capacity name).run? as = some p) : WithinCapacity capacity name as p := by
  have hcounted : p.Counted := run_counted h (new_counted capacity name)
  have hcapacity : p.capacity = (tunings as).getLastD (capacityOf capacity) := run_capacity h
  constructor
  · exact hcounted
  · rw [hcounted]
    omega
  · simpa [new] using run_running h
  · intro i
    exact (run_past h i).length_workers
  · intro i hslot later q hlater
    have hpast := run_past (new_run?_append h hlater) i
    refine ⟨by rw [hpast.deeds]; exact Phase.length_deeds_le _ _, fun hstopped => ?_⟩
    rw [hpast.count_release, run_through h hslot hlater hstopped]
    rfl
  · intro a q i n hstep hafter hbefore
    have hstep := step?_eq_some.1 hstep
    have hadmission := hstep.admission?_of_phase hafter hbefore
    cases hstep.booking with
    | admission j ha hj hopen hroom hrunning =>
      have hsame : q.capacity = p.capacity := by rw [hstep.capacity, ha]; rfl
      exact ⟨hopen, hroom, hrunning, hsame, by omega⟩
    | none hnone => simp [hnone] at hadmission
  · intro later q hlater hadmits
    obtain ⟨pre, rest, r, hsplit, hrest, hr, hnone, hopen, hroom⟩ := run_room hlater hadmits
    exact ⟨pre, rest, r, hsplit, hrest, hr, hnone, hopen, hroom, run_capacity hr⟩
  · exact run_bounded h (by simp [new])
  · exact hcapacity
  · rw [hcapacity]
    exact getLastD_tunings_pos (capacityOf_pos capacity) as

/-- Two tasks run, one of which fails, when the capacity is lowered to one and a third task comes. It is admitted when
both slots have been given back. -/
def loweredCapacity : List Action :=
  [.submit none, .enter 0, .start 0 true, .submit (some "boom"), .enter 1, .start 1 true, .tune 1, .submit none,
    .enter 2, .finish 1, .release 1, .enter 2, .finish 0, .release 0, .enter 2]

theorem capacity_law_lowered : ∃ p, (new (-3) "pool").run? loweredCapacity = some p ∧ p.running = 1 ∧
    (new (-3) "pool").admissions loweredCapacity = [(0, 1), (1, 2), (2, 3)] ∧
    WithinCapacity (-3) "pool" loweredCapacity p := by
  have hseen : ((new (-3) "pool").run? loweredCapacity).map Pool.running = some 1 := by rfl
  obtain ⟨p, hp, hrunning⟩ := Option.map_eq_some_iff.1 hseen
  exact ⟨p, hp, hrunning, by rfl, capacity_law hp⟩

end Thumbnailer.Pool
