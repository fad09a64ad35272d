import Mathlib.Data.List.Nodup
import Thumbnailer.Proofs.Pool.Runs

/-!
# Those who wait at a pool

Submitters and joiners who wait are either parked or woken. `run_waited` says of every run that nobody is parked
without a reason: a submitter only at a pool that is open and full, a joiner only while tasks are running.
-/

namespace Thumbnailer.Pool

variable {p q : Pool} {a : Action} {as : List Action} {i j : Nat} {w : Waiter}

def Waits (p : Pool) : Waiter → Prop
  | .submitter i => p.phase? i = some .waiting
  | .joiner j => p.joins[j]? = some .waiting

/-! ## Parked and woken -/

section Queued
variable {waits waits' : Waiter → Prop} {parked woken : List Waiter}

/-- Everybody who waits is parked or woken, and stands on one of the two lists once. -/
structure Queued (waits : Waiter → Prop) (parked woken : List Waiter) : Prop where
  known : ∀ w, waits w ↔ w ∈ parked ∨ w ∈ woken
  nodup : (parked ++ woken).Nodup

theorem Queued.congr (h : Queued waits parked woken) (hwaits : ∀ w, waits' w ↔ waits w) :
    Queued waits' parked woken :=
  ⟨fun w => (hwaits w).trans (h.known w), h.nodup⟩

theorem Queued.notify (h : Queued waits parked woken) : Queued waits [] (woken ++ parked) where
  known w := by
    rw [h.known, List.mem_append, or_comm]
    simp
  nodup := by
    rw [List.nil_append]
    exact List.perm_append_comm.nodup_iff.1 h.nodup

theorem Queued.leave (h : Queued waits parked woken) (hw : ¬ waits w ∨ w ∈ woken) :
    Queued (fun v => v ≠ w ∧ waits v) parked (woken.erase w) := by
  have hwoken : woken.Nodup := h.nodup.of_append_right
  have hparked : w ∉ parked := by
    rcases hw with hw | hw
    · exact fun hmem => hw ((h.known w).2 (.inl hmem))
    · exact fun hmem => List.disjoint_of_nodup_append h.nodup hmem hw
  refine ⟨fun v => ?_, h.nodup.sublist (List.erase_sublist.append_left parked)⟩
  rw [hwoken.mem_erase_iff, h.known v]
  constructor
  · rintro ⟨hne, hv | hv⟩
    · exact .inl hv
    · exact .inr ⟨hne, hv⟩
  · rintro (hv | ⟨hne, hv⟩)
    · refine ⟨?_, .inl hv⟩
      rintro rfl
      exact hparked hv
    · exact ⟨hne, .inr hv⟩

theorem Queued.park (h : Queued waits parked woken) (hw : ¬ waits w) :
    Queued (fun v => v = w ∨ waits v) (parked ++ [w]) woken where
  known v := by
    rw [h.known v, List.mem_append, List.mem_singleton]
    tauto
  nodup := by
    have hnot : w ∉ parked ++ woken := fun hmem => hw ((h.known w).2 (List.mem_append.1 hmem))
    rw [List.append_assoc, List.singleton_append, List.perm_middle.nodup_iff]
    exact List.nodup_cons.2 ⟨hnot, h.nodup⟩

theorem Queued.again (h : Queued waits parked woken) (hw : ¬ waits w ∨ w ∈ woken) (hself : waits' w)
    (hothers : ∀ v, v ≠ w → (waits' v ↔ waits v)) : Queued waits' (parked ++ [w]) (woken.erase w) := by
  refine ((h.leave hw).park (w := w) fun hwaits => hwaits.1 rfl).congr fun v => ?_
  by_cases hv : v = w
  · simp [hv, hself]
  · simp [hv, hothers v hv]

theorem Queued.gone (h : Queued waits parked woken) (hw : ¬ waits w ∨ w ∈ woken) (hself : ¬ waits' w)
    (hothers : ∀ v, v ≠ w → (waits' v ↔ waits v)) : Queued waits' parked (woken.erase w) := by
  refine (h.leave hw).congr fun v => ?_
  by_cases hv : v = w
  · simp [hv, hself]
  · simp [hv, hothers v hv]

end Queued

/-! ## Who waits after an action -/

theorem waits_setPhase_of_ne (p : Pool) (i : Nat) (new : Phase) (h : w ≠ .submitter i) :
    (p.setPhase i new).Waits w ↔ p.Waits w := by
  cases w with
  | submitter k =>
    have hk : k ≠ i := fun heq => h (heq ▸ rfl)
    rw [Waits, Waits, phase?_setPhase_of_ne hk]
  | joiner j => rfl

theorem waits_setPhase_self {old : Phase} (h : p.phase? i = some old) (new : Phase) :
    (p.setPhase i new).Waits (.submitter i) ↔ new = .waiting := by
  rw [Waits, phase?_setPhase_self h, Option.some.injEq]

theorem waits_setPhase {old new : Phase} (h : p.phase? i = some old) (hold : old ≠ .waiting)
    (hnew : new ≠ .waiting) (w : Waiter) : (p.setPhase i new).Waits w ↔ p.Waits w := by
  by_cases hw : w = .submitter i
  · rw [hw, waits_setPhase_self h, Waits, h, Option.some.injEq]
    exact iff_of_false hnew hold
  · exact waits_setPhase_of_ne p i new hw

theorem waits_submit (p : Pool) (error : Option String) (w : Waiter) :
    ({ p with tasks := p.tasks ++ [{ error }] } : Pool).Waits w ↔ p.Waits w := by
  cases w with
  | submitter k =>
    rw [Waits, phase?_submit, Waits]
    split
    next heq => simp [heq, phase?]
    next => rfl
  | joiner j => rfl

theorem waits_join (p : Pool) (w : Waiter) :
    ({ p with joins := p.joins ++ [.arriving] } : Pool).Waits w ↔ p.Waits w := by
  cases w with
  | submitter k => rfl
  | joiner j =>
    simp only [Waits, List.getElem?_append]
    split
    next => rfl
    next hge =>
      rw [List.getElem?_eq_none (by omega : p.joins.length ≤ j)]
      cases hj : j - p.joins.length <;> simp

theorem waits_setJoin_of_ne (p : Pool) (j : Nat) (new : JoinPhase) (h : w ≠ .joiner j) :
    ({ p with joins := p.joins.set j new } : Pool).Waits w ↔ p.Waits w := by
  cases w with
  | submitter k => rfl
  | joiner k =>
    have hk : j ≠ k := fun heq => h (heq ▸ rfl)
    simp only [Waits]
    rw [List.getElem?_set_ne hk]

theorem MayEnter.free {old : Phase} (h : p.MayEnter i old) :
    ¬ p.Waits (.submitter i) ∨ .submitter i ∈ p.woken := by
  cases h with
  | arriving h => exact .inl (by simp [Waits, h])
  | woken h hwoken => exact .inr hwoken

theorem MayLook.free {old : JoinPhase} (h : p.MayLook j old) : ¬ p.Waits (.joiner j) ∨ .joiner j ∈ p.woken := by
  cases h with
  | arriving h => exact .inl (by simp [Waits, h])
  | woken h hwoken => exact .inr hwoken

theorem MayLook.getElem? {old : JoinPhase} (h : p.MayLook j old) : p.joins[j]? = some old := by
  cases h <;> assumption

theorem MayLook.lt {old : JoinPhase} (h : p.MayLook j old) : j < p.joins.length :=
  (List.getElem?_eq_some_iff.1 h.getElem?).1

theorem Step.queued (h : Step p a q) (hp : Queued p.Waits p.parked p.woken) :
    Queued q.Waits q.parked q.woken := by
  cases h with
  | submit error => exact hp.congr (waits_submit p error)
  | reject i old h hclosed | accept i old h hopen hroom =>
    refine hp.gone h.free ?_ fun v hv => waits_setPhase_of_ne p i _ hv
    exact fun hwaits => by simpa using (waits_setPhase_self h.phase? _).1 hwaits
  | park i old h hopen hfull =>
    exact hp.again h.free ((waits_setPhase_self h.phase? _).2 rfl) fun v hv => waits_setPhase_of_ne p i _ hv
  | start i n possible h => exact hp.congr (waits_setPhase h (by simp) (by cases possible <;> simp))
  | finish i n h => exact hp.congr (waits_setPhase h (by simp) (by simp))
  | release i n h | giveUp i n h => exact hp.notify.congr (waits_setPhase h (by simp) (by simp))
  | tune n | close => exact hp.notify
  | join => exact hp.congr (waits_join p)
  | pass j old h hidle =>
    refine hp.gone h.free ?_ fun v hv => waits_setJoin_of_ne p j _ hv
    simp [Waits, h.lt]
  | rest j old h hbusy =>
    refine hp.again h.free ?_ fun v hv => waits_setJoin_of_ne p j _ hv
    simp [Waits, h.lt]

/-! ## Nobody is parked without a reason -/

/-- Submitters are parked at an open pool that is full, and joiners at a pool with running tasks. -/
structure Waited (p : Pool) : Prop where
  queued : Queued p.Waits p.parked p.woken
  full : ∀ i, .submitter i ∈ p.parked → p.closed = false ∧ p.capacity ≤ p.running
  busy : ∀ j, .joiner j ∈ p.parked → 0 < p.running

theorem new_waited (capacity : Int) (name : String) : Waited (new capacity name) where
  queued := ⟨fun w => by cases w <;> simp [Waits, phase?, new], by simp [new]⟩
  full := nofun
  busy := nofun

theorem waited_of_notified (hqueued : Queued q.Waits q.parked q.woken) (hparked : q.parked = []) : Waited q where
  queued := hqueued
  full i hi := by simp [hparked] at hi
  busy j hj := by simp [hparked] at hj

theorem Waited.keep (hp : Waited p) (hqueued : Queued q.Waits q.parked q.woken) (hparked : q.parked = p.parked)
    (hclosed : q.closed = p.closed) (hcapacity : q.capacity = p.capacity) (hrunning : q.running = p.running) :
    Waited q where
  queued := hqueued
  full i hi := by
    rw [hclosed, hcapacity, hrunning]
    exact hp.full i (hparked ▸ hi)
  busy j hj := by
    rw [hrunning]
    exact hp.busy j (hparked ▸ hj)

theorem Step.waited (h : Step p a q) (hp : Waited p) (hcounted : p.Counted) : Waited q := by
  have hqueued := h.queued hp.queued
  have hnonneg : 0 ≤ p.running := by
    rw [hcounted]
    omega
  cases h with
  | release i n h | giveUp i n h | tune n | close => exact waited_of_notified hqueued rfl
  | accept i old h hopen hroom =>
    -- Where there is room no submitter is parked, and with one task more joiners wait for it, too.
    refine ⟨hqueued, fun k hk => ?_, fun j hj => ?_⟩
    · have := (hp.full k hk).2
      omega
    · have := hp.busy j hj
      change 0 < p.running + 1
      omega
  | park i old h hopen hfull =>
    refine ⟨hqueued, fun k hk => ⟨hopen, hfull⟩, fun j hj => ?_⟩
    rcases List.mem_append.1 hj with hj | hj
    · exact hp.busy j hj
    · simp at hj
  | rest j old h hbusy =>
    refine ⟨hqueued, fun k hk => ?_, fun k hk => ?_⟩
    · rcases List.mem_append.1 hk with hk | hk
      · exact hp.full k hk
      · simp at hk
    · change 0 < p.running
      omega
  | _ => exact hp.keep hqueued rfl rfl rfl rfl

theorem run_waited (h : p.run? as = some q) (hp : Waited p) (hcounted : p.Counted) : Waited q := by
  refine run_induction (P := fun _ q => Waited q) hp ?_ h
  intro as a q r hrun hq hstep
  exact hstep.waited hq (run_counted hrun hcounted)

theorem Waited.parked (hp : Waited p) (hw : p.Waits w) (hwoken : w ∉ p.woken) : w ∈ p.parked :=
  ((hp.queued.known w).1 hw).resolve_right hwoken

end Thumbnailer.Pool
