import Thumbnailer.Proofs.Generator.Turns

/-!
# Moves of a generator

Every action is one of three kinds: it is a turn of one call, it cuts the runs of one request, or it leaves all
calls as they are. So a run of the generator is a path for each of its calls.
-/

namespace Thumbnailer.Generator

variable {g g' : Generator} {a : Action} {c m : Nat} {k : Call} {r : Request}

/-! ## Actions apart from calls -/

/-- An action that no call takes, and the generator after it. -/
inductive Apart (g : Generator) : Action → Generator → Prop
  | request (q : Request) : Apart g (.request q) { g with requests := g.requests ++ [q] }
  | callDirect (m : Nat) (q : Request) (hq : g.requests[m]? = some q) :
      Apart g (.call m .direct) { g with calls := g.calls ++ [{ request := m, mode := .direct }] }
  | callPooled (m : Nat) (q : Request) (hq : g.requests[m]? = some q) :
      Apart g (.call m .pooled) { g with
        requests := g.requests.set m { q with id := g.nextId }
        calls := g.calls ++ [{ request := m, mode := .pooled, id := g.nextId }]
        nextId := g.nextId + 1 }
  | cancel (m : Nat) (q : Request) (hq : g.requests[m]? = some q) (hcancellable : q.cancellable = true) :
      Apart g (.cancel m) (g.cancelRequest m)
  | tune (n : Int) (pool : Pool) (h : g.pool.step? (.tune n) = some pool) : Apart g (.tune n) { g with pool }
  | close (pool : Pool) (h : g.pool.step? .close = some pool) : Apart g .close { g with pool }
  | await (closes : Bool) : Apart g (.await closes) { g with waits := g.waits ++ [{ closes }] }
  | look (w : Nat) (wait : Wait) (hw : g.waits[w]? = some wait) : Apart g (.look w) (g.lookAt w wait)
  | shut (w : Nat) (closes : Bool) (pool : Pool) (hw : g.waits[w]? = some ⟨closes, .closing⟩)
      (h : g.pool.step? .close = some pool) :
      Apart g (.shut w) { g with pool, waits := g.waits.set w ⟨closes, .returned⟩ }

theorem step?_apart (h : g.step? a = some g') (ha : a.call? = none) : Apart g a g' := by
  cases a with
  | request q =>
    obtain rfl := Option.some.inj h
    exact .request q
  | call m mode =>
    simp only [step?] at h
    split at h
    next q hq =>
      obtain rfl := Option.some.inj h
      exact .callDirect m q hq
    next q hq =>
      obtain rfl := Option.some.inj h
      exact .callPooled m q hq
    next => cases h
  | cancel m =>
    simp only [step?] at h
    split at h
    next q hq =>
      split at h
      next hcancellable =>
        obtain rfl := Option.some.inj h
        exact .cancel m q hq hcancellable
      next => cases h
    next => cases h
  | tune n =>
    simp only [step?] at h
    obtain ⟨pool, hpool, rfl⟩ := Option.map_eq_some_iff.1 h
    exact .tune n pool hpool
  | close =>
    simp only [step?] at h
    obtain ⟨pool, hpool, rfl⟩ := Option.map_eq_some_iff.1 h
    exact .close pool hpool
  | await closes =>
    obtain rfl := Option.some.inj h
    exact .await closes
  | look w =>
    simp only [step?] at h
    split at h
    next wait hw =>
      split at h
      · obtain rfl := Option.some.inj h
        exact .look w wait hw
      · cases h
    next => cases h
  | shut w =>
    simp only [step?] at h
    split at h
    next closes hw =>
      obtain ⟨pool, hpool, rfl⟩ := Option.map_eq_some_iff.1 h
      exact .shut w closes pool hw hpool
    next => cases h
  | _ => cases ha

/-! ## Cuts -/

/-- The runs with one request may have been cut, and nothing else has changed but the clock. -/
structure Severed (g : Generator) (request : Nat) (g' : Generator) : Prop where
  length : g'.calls.length = g.calls.length
  calls : ∀ (c : Nat) (k : Call), g.calls[c]? = some k → ∃ work, g'.calls[c]? = some { k with work } ∧
    (work = k.work ∨ k.request = request ∧ ∃ r, g.requestOf? k = some r ∧ Work.Cut g.plan r.asked k.work work)
  requests : g'.requests.map Request.asked = g.requests.map Request.asked
  plan : g'.plan = g.plan
  pool : g'.pool = g.pool
  queue : g'.queue = g.queue
  outstanding : g'.outstanding = g.outstanding
  waits : g'.waits = g.waits
  parked : g'.parked = g.parked
  woken : g'.woken = g.woken

theorem Severed.refl (g : Generator) (request : Nat) : Severed g request g :=
  ⟨rfl, fun _ k hk => ⟨k.work, hk, .inl rfl⟩, rfl, rfl, rfl, rfl, rfl, rfl, rfl, rfl⟩

theorem asked_of_requests (h : g'.requests.map Request.asked = g.requests.map Request.asked) {r' : Request}
    (hr' : g'.requestOf? k = some r') : ∃ r, g.requestOf? k = some r ∧ r.asked = r'.asked := by
  have hasked : (g'.requests.map Request.asked)[k.request]? = some r'.asked := by
    rw [List.getElem?_map, show g'.requests[k.request]? = some r' from hr']
    rfl
  rw [h, List.getElem?_map, Option.map_eq_some_iff] at hasked
  exact hasked

theorem Severed.trans {request : Nat} {h : Generator} (h₁ : Severed g request g') (h₂ : Severed g' request h) :
    Severed g request h where
  length := h₂.length.trans h₁.length
  calls c k hk := by
    obtain ⟨work, hk', hwork⟩ := h₁.calls c k hk
    obtain ⟨last, hk'', hlast⟩ := h₂.calls c _ hk'
    refine ⟨last, hk'', ?_⟩
    rcases hlast with rfl | ⟨hrequest, r', hr', hcut⟩
    · exact hwork
    · obtain ⟨r, hr, hasked⟩ := asked_of_requests h₁.requests (k := k) hr'
      rw [h₁.plan, ← hasked] at hcut
      -- Two cuts of a run are one: what the first has ended the second leaves alone.
      refine .inr ⟨hrequest, r, hr, ?_⟩
      rcases hwork with rfl | ⟨-, q, hq, hfirst⟩
      · exact hcut
      · obtain rfl : r = q := Option.some.inj (hr.symm.trans hq)
        exact hfirst.trans hcut
  requests := h₂.requests.trans h₁.requests
  plan := h₂.plan.trans h₁.plan
  pool := h₂.pool.trans h₁.pool
  queue := h₂.queue.trans h₁.queue
  outstanding := h₂.outstanding.trans h₁.outstanding
  waits := h₂.waits.trans h₁.waits
  parked := h₂.parked.trans h₁.parked
  woken := h₂.woken.trans h₁.woken

theorem Severed.map_calls {α : Type} {request : Nat} {f : Call → α} (h : Severed g request g')
    (hf : ∀ (k : Call) (work : Work) (asked : Request), Work.Cut g.plan asked k.work work →
      f { k with work } = f k) : g'.calls.map f = g.calls.map f := by
  apply List.ext_getElem?
  intro c
  rw [List.getElem?_map, List.getElem?_map]
  cases hk : g.calls[c]? with
  | none =>
    rw [List.getElem?_eq_none_iff] at hk
    rw [List.getElem?_eq_none (by rw [h.length]; exact hk)]
  | some k =>
    obtain ⟨work, hk', rfl | ⟨-, r, -, hcut⟩⟩ := h.calls c k hk
    · rw [hk']
    · rw [hk', Option.map_some, Option.map_some, hf k work r.asked hcut]

theorem severed_setWork {work : Work} (clock : Double) (hk : g.calls[c]? = some k) (hr : g.requestOf? k = some r)
    (hcut : Work.Cut g.plan r.asked k.work work) :
    Severed g k.request ({ g with clock }.setWork c work) where
  length := List.length_modify ..
  calls d l hl := by
    by_cases hd : c = d
    · subst hd
      obtain rfl : k = l := Option.some.inj (hk.symm.trans hl)
      refine ⟨work, ?_, .inr ⟨rfl, r, hr, hcut⟩⟩
      simp [setWork, modifyCall, hk]
    · refine ⟨l.work, ?_, .inl rfl⟩
      simpa [setWork, modifyCall, hd] using hl
  requests := rfl
  plan := rfl
  pool := rfl
  queue := rfl
  outstanding := rfl
  waits := rfl
  parked := rfl
  woken := rfl

theorem endRun_severed {request : Nat} (hc : ∀ k : Call, g.calls[c]? = some k → k.request = request) :
    Severed g request (g.endRun c .killed) := by
  unfold endRun
  split
  next k hk =>
    obtain rfl := hc k hk
    split
    next since opened id stdout r hw hr =>
      refine severed_setWork _ hk hr ?_
      rw [hw, sessionUnder, Session.finish_eq (g.plan.session_free _)]
      exact .kill since opened _ id stdout
    next => exact .refl g k.request
  next => exact .refl g request

theorem killAll_severed {request : Nat} {numbers : List Nat}
    (hnumbers : ∀ c ∈ numbers, ∀ k : Call, g.calls[c]? = some k → k.request = request) :
    Severed g request (g.killAll numbers) := by
  induction numbers generalizing g with
  | nil => exact .refl g request
  | cons c rest ih =>
    have hfirst : Severed g request (g.endRun c .killed) := endRun_severed (hnumbers c (by simp))
    refine hfirst.trans (ih fun d hd k hk => ?_)
    have hlt : d < g.calls.length := hfirst.length ▸ (List.getElem?_eq_some_iff.1 hk).1
    obtain ⟨l, hl⟩ : ∃ l, g.calls[d]? = some l := ⟨_, List.getElem?_eq_getElem hlt⟩
    obtain ⟨work, hk', -⟩ := hfirst.calls d l hl
    obtain rfl : { l with work } = k := Option.some.inj (hk'.symm.trans hk)
    exact hnumbers d (List.mem_cons_of_mem c hd) l hl

theorem cancelRequest_severed (g : Generator) (request : Nat) : Severed g request (g.cancelRequest request) := by
  unfold cancelRequest
  have hmark : Severed g request
      { g with requests := g.requests.modify request fun r => { r with cancelled := true } } := by
    refine ⟨rfl, fun _ k hk => ⟨k.work, hk, .inl rfl⟩, ?_, rfl, rfl, rfl, rfl, rfl, rfl, rfl⟩
    apply List.ext_getElem?
    intro i
    simp only [List.getElem?_map, List.getElem?_modify]
    split <;> cases g.requests[i]? <;> rfl
  refine hmark.trans (killAll_severed fun c hc k hk => ?_)
  have hk : g.calls[c]? = some k := hk
  simp only [callsWith, List.mem_filter, hk] at hc
  simpa using hc.2

theorem cancel_severed {request : Nat} (h : g.step? (.cancel request) = some g') : Severed g request g' := by
  cases step?_apart h rfl with
  | cancel m q hq hcancellable => exact cancelRequest_severed g request

theorem expire_severed (hk : g.calls[c]? = some k) (hr : g.requestOf? k = some r)
    (h : g.callStep? c k r (.expire c) = some g') : Severed g k.request g' := by
  simp only [callStep?] at h
  split at h
  · split at h
    · obtain rfl := Option.some.inj h
      exact cancelRequest_severed g k.request
    · split at h
      next since expired hw =>
        obtain rfl := Option.some.inj h
        exact severed_setWork g.clock hk hr (hw ▸ .expire since expired)
      next =>
        obtain rfl := Option.some.inj h
        refine endRun_severed fun l hl => ?_
        rw [Option.some.inj (hk.symm.trans hl)]
      next =>
        obtain rfl := Option.some.inj h
        exact .refl g k.request
  · cases h

/-! ## Actions that leave calls alone -/

/-- All calls are as they were; a request or a call may have come, and the pool goes on as it was. -/
structure Aside (g g' : Generator) : Prop where
  calls : g'.calls = g.calls ∨ ∃ k : Call, g'.calls = g.calls ++ [k] ∧
    k.caller = .calling ∧ k.task = none ∧ k.work = .idle ∧ k.request < g.requests.length
  requests : ∃ more, g'.requests.map Request.asked = g.requests.map Request.asked ++ more
  plan : g'.plan = g.plan
  phase : g'.pool.phase? = g.pool.phase?
  length : g'.pool.tasks.length = g.pool.tasks.length
  leads : Pool.Leads g.pool g'.pool
  queue : g'.queue = g.queue
  outstanding : g'.outstanding = g.outstanding

theorem aside_of_pool {pool : Pool} {waits : List Wait} {parked woken : List Nat}
    (hpool : pool.phase? = g.pool.phase? ∧ pool.tasks.length = g.pool.tasks.length ∧
      Pool.Leads g.pool pool) : Aside g { g with pool, waits, parked, woken } :=
  ⟨.inl rfl, ⟨[], (List.append_nil _).symm⟩, rfl, hpool.1, hpool.2.1, hpool.2.2, rfl, rfl⟩

theorem asked_set {q : Request} (hq : g.requests[m]? = some q) (hasked : r.asked = q.asked) :
    (g.requests.set m r).map Request.asked = g.requests.map Request.asked := by
  have hlt : m < g.requests.length := (List.getElem?_eq_some_iff.1 hq).1
  apply List.ext_getElem?
  intro i
  rw [List.getElem?_map, List.getElem?_map, List.getElem?_set]
  by_cases hi : m = i
  · subst hi
    rw [if_pos rfl, if_pos hlt, hq]
    exact congrArg some hasked
  · rw [if_neg hi]

theorem call_aside {requests : List Request} {nextId : Nat}
    (hrequests : requests.map Request.asked = g.requests.map Request.asked) (k : Call)
    (hk : k.caller = .calling ∧ k.task = none ∧ k.work = .idle ∧ k.request < g.requests.length) :
    Aside g { g with requests, calls := g.calls ++ [k], nextId } :=
  ⟨.inr ⟨k, rfl, hk⟩, ⟨[], by rw [hrequests, List.append_nil]⟩, rfl, rfl, rfl, .refl, rfl, rfl⟩

theorem Apart.aside (h : Apart g a g') (hcancel : ∀ request, a ≠ .cancel request) : Aside g g' := by
  cases h with
  | request q => exact ⟨.inl rfl, ⟨[q.asked], by simp⟩, rfl, rfl, rfl, .refl, rfl, rfl⟩
  | callDirect m q hq =>
    exact call_aside rfl { request := m, mode := .direct } ⟨rfl, rfl, rfl, (List.getElem?_eq_some_iff.1 hq).1⟩
  | callPooled m q hq =>
    exact call_aside (asked_set (r := { q with id := g.nextId }) hq rfl) { request := m, mode := .pooled, id := g.nextId }
      ⟨rfl, rfl, rfl, (List.getElem?_eq_some_iff.1 hq).1⟩
  | cancel m => exact absurd rfl (hcancel m)
  | tune n pool hpool => exact aside_of_pool (Pool.tune_phase? hpool)
  | close pool hpool => exact aside_of_pool (Pool.close_phase? hpool)
  | await closes => exact aside_of_pool ⟨rfl, rfl, .refl⟩
  | look w wait hw =>
    unfold lookAt
    simp only
    split <;> exact aside_of_pool ⟨rfl, rfl, .refl⟩
  | shut w closes pool hw hpool => exact aside_of_pool (Pool.close_phase? hpool)

/-! ## All actions -/

/-- The action cancels a request, or is the end of the time limit of a call with it. -/
def Cuts (g : Generator) (a : Action) (request : Nat) : Prop :=
  a = .cancel request ∨ ∃ (c : Nat) (k : Call), a = .expire c ∧ g.calls[c]? = some k ∧ k.request = request

/-- What an action is to the calls of a generator. -/
inductive Moves (g : Generator) (a : Action) (g' : Generator) : Prop
  | own (c : Nat) (k k' : Call) (r : Request) (ds : List Delivery) (ha : a.own? = some c)
      (hk : g.calls[c]? = some k) (hr : g.requestOf? k = some r) (htouched : Touched g a c k k' ds g')
      (hturn : Turn g.plan c (g.viewOf c k r) a (g'.viewOf c k' r))
  | cut (request : Nat) (ha : a.own? = none) (hcuts : Cuts g a request) (hsevered : Severed g request g')
  | aside (ha : a.own? = none) (haside : Aside g g')

theorem eq_expire (hcall : a.call? = some c) (hown : a.own? = none) : a = .expire c := by
  cases a <;> cases hcall <;> first | rfl | cases hown

/-- A call takes an action of its own, its time limit ends, or something happens that no call takes. -/
inductive Happens (g : Generator) (a : Action) (g' : Generator) : Prop
  | acted (c : Nat) (k k' : Call) (r : Request) (ds : List Delivery) (ha : a.own? = some c)
      (hk : g.calls[c]? = some k) (hr : g.requestOf? k = some r) (htouched : Touched g a c k k' ds g')
      (hturn : Turn g.plan c (g.viewOf c k r) a (g'.viewOf c k' r))
  | expired (c : Nat) (k : Call) (r : Request) (ha : a = .expire c) (hk : g.calls[c]? = some k)
      (hr : g.requestOf? k = some r) (hstep : g.callStep? c k r (.expire c) = some g')
  | apart (hcall : a.call? = none) (hapart : Apart g a g')

theorem step?_happens (h : g.step? a = some g') : Happens g a g' := by
  cases hcall : a.call? with
  | none => exact .apart hcall (step?_apart h hcall)
  | some c =>
    cases hown : a.own? with
    | some d =>
      obtain ⟨k, r, hk, hr, k', ds, htouched, hturn⟩ := step?_acted h hown
      exact .acted d k k' r ds hown hk hr htouched hturn
    | none =>
      obtain ⟨k, r, hk, hr, hstep⟩ := callStep?_of_step? h hcall
      obtain rfl := eq_expire hcall hown
      exact .expired c k r rfl hk hr hstep

theorem step?_moves (h : g.step? a = some g') : Moves g a g' := by
  cases step?_happens h with
  | acted c k k' r ds ha hk hr htouched hturn => exact .own c k k' r ds ha hk hr htouched hturn
  | expired c k r ha hk hr hstep =>
    subst ha
    exact .cut k.request rfl (.inr ⟨c, k, rfl, hk, rfl⟩) (expire_severed hk hr hstep)
  | apart hcall hapart =>
    have hown : a.own? = none := by
      cases a <;> first | rfl | cases hcall
    by_cases hcancel : ∃ request, a = .cancel request
    · obtain ⟨request, rfl⟩ := hcancel
      exact .cut request hown (.inl rfl) (cancel_severed h)
    · exact .aside hown (hapart.aside fun request ha => hcancel ⟨request, ha⟩)

/-! ## Calls, their requests and their tasks -/

/-- Every call has its request and its task, no two calls have one task, and all results are results of calls. -/
structure Tied (g : Generator) : Prop where
  asked : ∀ (c : Nat) (k : Call), g.calls[c]? = some k → k.request < g.requests.length
  task : ∀ (c : Nat) (k : Call) (i : Nat), g.calls[c]? = some k → k.task = some i → i < g.pool.tasks.length
  apart : ∀ (c d : Nat) (k l : Call) (i : Nat), g.calls[c]? = some k → g.calls[d]? = some l →
    k.task = some i → l.task = some i → c = d
  queue : ∀ d ∈ g.queue, d.call < g.calls.length

theorem new_tied (plan : Plan) (concurrency : Int) (clock : Double) : Tied (new plan concurrency clock) :=
  ⟨by simp [new], by simp [new], by simp [new], by simp [new]⟩

theorem Touched.self {k' : Call} {ds : List Delivery} (h : Touched g a c k k' ds g')
    (hk : g.calls[c]? = some k) : g'.calls[c]? = some k' := by
  rw [h.calls, List.getElem?_set_self (List.getElem?_eq_some_iff.1 hk).1]

theorem Touched.eq_of_self {k' l : Call} {ds : List Delivery} (h : Touched g a c k k' ds g')
    (hk : g.calls[c]? = some k) (hl : g'.calls[c]? = some l) : k' = l :=
  Option.some.inj ((h.self hk).symm.trans hl)

theorem Touched.other {k' : Call} {ds : List Delivery} {d : Nat} (h : Touched g a c k k' ds g') (hd : d ≠ c) :
    g'.calls[d]? = g.calls[d]? := by
  rw [h.calls, List.getElem?_set_ne hd.symm]

theorem Touched.task_apart {k' l : Call} {ds : List Delivery} {d i : Nat} (h : Touched g a c k k' ds g')
    (hk : g.calls[c]? = some k) (ht : Tied g) (hd : d ≠ c) (hl : g.calls[d]? = some l) (hi : k'.task = some i) :
    l.task ≠ some i := by
  intro hli
  rcases h.pool.task with hsame | ⟨hnew, -⟩
  · exact hd (ht.apart d c l k i hl hk hli (hsame ▸ hi))
  · obtain rfl : g.pool.tasks.length = i := Option.some.inj (hnew.symm.trans hi)
    exact Nat.lt_irrefl _ (ht.task d l _ hl hli)

theorem Touched.tied {k' : Call} {ds : List Delivery} (h : Touched g a c k k' ds g')
    (hk : g.calls[c]? = some k) (ht : Tied g) : Tied g' where
  asked d l hl := by
    rw [h.requests]
    by_cases hd : d = c
    · subst hd
      obtain rfl := h.eq_of_self hk hl
      rw [h.request]
      exact ht.asked d k hk
    · exact ht.asked d l (h.other hd ▸ hl)
  task d l i hl hi := by
    by_cases hd : d = c
    · subst hd
      obtain rfl := h.eq_of_self hk hl
      rcases h.pool.task with hsame | ⟨hnew, hlength⟩
      · exact Nat.lt_of_lt_of_le (ht.task d k i hk (hsame ▸ hi)) h.pool.grows
      · obtain rfl : g.pool.tasks.length = i := Option.some.inj (hnew.symm.trans hi)
        omega
    · exact Nat.lt_of_lt_of_le (ht.task d l i (h.other hd ▸ hl) hi) h.pool.grows
  apart d e l m i hl hm hli hmi := by
    -- The task of the touched call is its old one or new in the pool, so no other call has it.
    by_cases hd : d = c
    · subst hd
      obtain rfl := h.eq_of_self hk hl
      by_cases he : d = e
      · exact he
      · exact absurd hmi (h.task_apart hk ht (Ne.symm he) (h.other (Ne.symm he) ▸ hm) hli)
    · by_cases he : e = c
      · subst he
        obtain rfl := h.eq_of_self hk hm
        exact absurd hli (h.task_apart hk ht hd (h.other hd ▸ hl) hmi)
      · exact ht.apart d e l m i (h.other hd ▸ hl) (h.other he ▸ hm) hli hmi
  queue d hd := by
    rw [h.calls, List.length_set]
    rw [h.queue, List.mem_append] at hd
    rcases hd with hd | hd
    · exact ht.queue d hd
    · rw [h.own d hd]
      exact (List.getElem?_eq_some_iff.1 hk).1

theorem Severed.back {request : Nat} {k' : Call} (h : Severed g request g') (hk : g'.calls[c]? = some k') :
    ∃ (k : Call) (work : Work), g.calls[c]? = some k ∧ k' = { k with work } := by
  have hlt : c < g.calls.length := h.length ▸ (List.getElem?_eq_some_iff.1 hk).1
  obtain ⟨k, hk₁⟩ : ∃ k, g.calls[c]? = some k := ⟨_, List.getElem?_eq_getElem hlt⟩
  obtain ⟨work, hk₂, -⟩ := h.calls c k hk₁
  exact ⟨k, work, hk₁, Option.some.inj (hk.symm.trans hk₂)⟩

theorem Severed.tied {request : Nat} (h : Severed g request g') (ht : Tied g) : Tied g' where
  asked c k hk := by
    obtain ⟨l, work, hl, rfl⟩ := h.back hk
    have hrequests : g'.requests.length = g.requests.length := by
      simpa using congrArg List.length h.requests
    rw [hrequests]
    exact ht.asked c l hl
  task c k i hk hi := by
    obtain ⟨l, work, hl, rfl⟩ := h.back hk
    rw [h.pool]
    exact ht.task c l i hl hi
  apart c d k l i hk hl hki hli := by
    obtain ⟨k₀, work, hk₀, rfl⟩ := h.back hk
    obtain ⟨l₀, work', hl₀, rfl⟩ := h.back hl
    exact ht.apart c d k₀ l₀ i hk₀ hl₀ hki hli
  queue d hd := by
    rw [h.length]
    exact ht.queue d (h.queue ▸ hd)

theorem Aside.back {k' : Call} (h : Aside g g') (hk : g'.calls[c]? = some k') :
    g.calls[c]? = some k' ∨ k'.caller = .calling ∧ k'.task = none ∧ k'.work = .idle ∧
      k'.request < g.requests.length ∧ c = g.calls.length := by
  rcases h.calls with hcalls | ⟨k, hcalls, hcaller, htask, hwork, hrequest⟩
  · exact .inl (hcalls ▸ hk)
  · rw [hcalls] at hk
    by_cases hc : c < g.calls.length
    · exact .inl (by rwa [List.getElem?_append_left hc] at hk)
    · have hlt := (List.getElem?_eq_some_iff.1 hk).1
      obtain rfl : c = g.calls.length := by
        simp only [List.length_append, List.length_singleton] at hlt
        omega
      obtain rfl : k = k' := by simpa using hk
      exact .inr ⟨hcaller, htask, hwork, hrequest, rfl⟩

theorem Aside.tied (h : Aside g g') (ht : Tied g) : Tied g' where
  asked c k hk := by
    have hrequests : g.requests.length ≤ g'.requests.length := by
      obtain ⟨more, hmore⟩ := h.requests
      have := congrArg List.length hmore
      simp only [List.length_map, List.length_append] at this
      omega
    rcases h.back hk with hk | ⟨-, -, -, hlt, -⟩
    · exact Nat.lt_of_lt_of_le (ht.asked c k hk) hrequests
    · exact Nat.lt_of_lt_of_le hlt hrequests
  task c k i hk hi := by
    rw [h.length]
    rcases h.back hk with hk | ⟨-, htask, -⟩
    · exact ht.task c k i hk hi
    · simp [htask] at hi
  apart c d k l i hk hl hki hli := by
    -- A call that has just come has no task yet.
    rcases h.back hk with hk | ⟨-, htask, -⟩
    · rcases h.back hl with hl | ⟨-, htask, -⟩
      · exact ht.apart c d k l i hk hl hki hli
      · simp [htask] at hli
    · simp [htask] at hki
  queue d hd := by
    have hlt := ht.queue d (h.queue ▸ hd)
    rcases h.calls with hcalls | ⟨k, hcalls, -⟩
    · rwa [hcalls]
    · rw [hcalls, List.length_append]
      omega

theorem Moves.tied (h : Moves g a g') (ht : Tied g) : Tied g' := by
  cases h with
  | own c k k' r ds ha hk hr htouched hturn => exact htouched.tied hk ht
  | cut request ha hcuts hsevered => exact hsevered.tied ht
  | aside ha haside => exact haside.tied ht

/-! ## Looking at calls again -/

theorem view?_of_call {k' : Call} {v : View} (hk : g.calls[c]? = some k')
    (hasked : (g.requests.map Request.asked)[k'.request]? = some v.asked) (hphase : g.phaseOf? k' = v.phase)
    (hresults : g.resultsOf c = v.results) : g.view? c = some { v with call := k' } := by
  rw [List.getElem?_map, Option.map_eq_some_iff] at hasked
  obtain ⟨r, hr, hasked⟩ := hasked
  rw [view?_eq hk hr, viewOf, hphase, hresults, hasked]

theorem view?_parts {v : View} (h : g.view? c = some v) :
    g.calls[c]? = some v.call ∧ (g.requests.map Request.asked)[v.call.request]? = some v.asked ∧
      g.phaseOf? v.call = v.phase ∧ g.resultsOf c = v.results := by
  obtain ⟨r, hk, hr, hv⟩ := view?_eq_some h
  refine ⟨hk, ?_, by rw [hv]; rfl, by rw [hv]; rfl⟩
  rw [List.getElem?_map, show g.requests[v.call.request]? = some r from hr, hv]
  rfl

theorem Tied.view? (ht : Tied g) (hk : g.calls[c]? = some k) :
    ∃ r, g.requestOf? k = some r ∧ g.view? c = some (g.viewOf c k r) := by
  obtain ⟨r, hr⟩ : ∃ r, g.requestOf? k = some r := ⟨_, List.getElem?_eq_getElem (ht.asked c k hk)⟩
  exact ⟨r, hr, view?_eq hk hr⟩

theorem Touched.view?_self {k' : Call} {ds : List Delivery} (h : Touched g a c k k' ds g')
    (hk : g.calls[c]? = some k) (hr : g.requestOf? k = some r) : g'.view? c = some (g'.viewOf c k' r) := by
  refine view?_eq (h.self hk) ?_
  rw [requestOf?, h.requests, h.request]
  exact hr

theorem Touched.phaseOf?_other {k' l : Call} {ds : List Delivery} {d : Nat} (h : Touched g a c k k' ds g')
    (hk : g.calls[c]? = some k) (ht : Tied g) (hd : d ≠ c) (hl : g.calls[d]? = some l) :
    g'.phaseOf? l = g.phaseOf? l := by
  rw [phaseOf?, phaseOf?]
  cases htask : l.task with
  | none => rfl
  | some i => exact h.pool.others i fun hi => h.task_apart hk ht hd hl hi htask

theorem Touched.view?_other {k' : Call} {ds : List Delivery} {d : Nat} {v : View}
    (h : Touched g a c k k' ds g') (hk : g.calls[c]? = some k) (ht : Tied g) (hd : d ≠ c)
    (hv : g.view? d = some v) : g'.view? d = some v := by
  obtain ⟨hl, hasked, hphase, hresults⟩ := view?_parts hv
  refine view?_of_call ((h.other hd).trans hl) (h.requests ▸ hasked) ?_ ?_
  · rw [h.phaseOf?_other hk ht hd hl, hphase]
  · have hds : ds.filter (fun e => e.call = d) = [] := by
      rw [List.filter_eq_nil_iff]
      intro e he
      simpa [h.own e he] using hd.symm
    rw [← hresults, resultsOf, h.queue, List.filter_append, hds, List.append_nil, resultsOf]

theorem Severed.view? {request : Nat} {v : View} (h : Severed g request g') (hv : g.view? c = some v) :
    ∃ work, g'.view? c = some (v.setWork work) ∧ Work.Cut g.plan v.asked v.call.work work ∧
      (v.call.request ≠ request → work = v.call.work) := by
  obtain ⟨hk, hasked, hphase, hresults⟩ := view?_parts hv
  obtain ⟨work, hk', hwork⟩ := h.calls c v.call hk
  refine ⟨work, view?_of_call hk' (h.requests ▸ hasked) ?_ ?_, ?_, ?_⟩
  · rw [← hphase, phaseOf?, phaseOf?, h.pool]
  · rw [← hresults, resultsOf, h.queue, resultsOf]
  · rcases hwork with rfl | ⟨-, r, hr, hcut⟩
    · exact .same v.call.work
    · rw [List.getElem?_map, show g.requests[v.call.request]? = some r from hr] at hasked
      rwa [← Option.some.inj hasked]
  · intro hne
    rcases hwork with rfl | ⟨heq, -⟩
    · rfl
    · exact absurd heq hne

theorem Aside.view? {v : View} (h : Aside g g') (hv : g.view? c = some v) : g'.view? c = some v := by
  obtain ⟨hk, hasked, hphase, hresults⟩ := view?_parts hv
  refine view?_of_call ?_ ?_ ?_ ?_
  · rcases h.calls with hcalls | ⟨k, hcalls, -⟩
    · rwa [hcalls]
    · rwa [hcalls, List.getElem?_append_left (List.getElem?_eq_some_iff.1 hk).1]
  · obtain ⟨more, hmore⟩ := h.requests
    rwa [hmore, List.getElem?_append_left (List.getElem?_eq_some_iff.1 hasked).1]
  · rw [← hphase, phaseOf?, phaseOf?, h.phase]
  · rw [← hresults, resultsOf, h.queue, resultsOf]

/-- What an action makes of a call: a turn if it is one of the call's own, and at most a cut if it is not. -/
theorem step?_view {v : View} (ht : Tied g) (h : g.step? a = some g') (hv : g.view? c = some v) :
    (a.own? = some c ∧ ∃ v', g'.view? c = some v' ∧ Turn g.plan c v a v') ∨
      (a.own? ≠ some c ∧ ∃ work, g'.view? c = some (v.setWork work) ∧
        Work.Cut g.plan v.asked v.call.work work ∧ (work = v.call.work ∨ Cuts g a v.call.request)) := by
  cases step?_moves h with
  | own d k k' r ds ha hk hr htouched hturn =>
    by_cases hd : c = d
    · subst hd
      obtain rfl : g.viewOf c k r = v := Option.some.inj ((view?_eq hk hr).symm.trans hv)
      exact .inl ⟨ha, _, htouched.view?_self hk hr, hturn⟩
    · refine .inr ⟨?_, v.call.work, htouched.view?_other hk ht hd hv, .same v.call.work, .inl rfl⟩
      rw [ha]
      simpa using Ne.symm hd
  | cut request ha hcuts hsevered =>
    obtain ⟨work, hv', hcut, hsame⟩ := hsevered.view? hv
    refine .inr ⟨by simp [ha], work, hv', hcut, ?_⟩
    by_cases hrequest : v.call.request = request
    · exact .inr (hrequest ▸ hcuts)
    · exact .inl (hsame hrequest)
  | aside ha haside =>
    exact .inr ⟨by simp [ha], v.call.work, haside.view? hv, .same v.call.work, .inl rfl⟩

theorem step?_fresh {v : View} (ht : Tied g) (h : g.step? a = some g') (hv : g.view? c = none)
    (hv' : g'.view? c = some v) : v.Fresh ∧ a.own? = none := by
  obtain ⟨hk', -, hphase, hresults⟩ := view?_parts hv'
  have hnone : g.calls[c]? = none := by
    cases hk : g.calls[c]? with
    | none => rfl
    | some k =>
      obtain ⟨r, hr, hsome⟩ := ht.view? hk
      simp [hv] at hsome
  cases step?_moves h with
  | own d k k' r ds ha hk hr htouched hturn =>
    have hd : c ≠ d := by
      rintro rfl
      simp [hnone] at hk
    rw [htouched.other hd, hnone] at hk'
    cases hk'
  | cut request ha hcuts hsevered =>
    obtain ⟨k, work, hk, -⟩ := hsevered.back hk'
    rw [hnone] at hk
    cases hk
  | aside ha haside =>
    rcases haside.back hk' with hk | ⟨hcaller, htask, hwork, -, rfl⟩
    · rw [hnone] at hk
      cases hk
    · refine ⟨⟨hcaller, hwork, ?_, ?_⟩, ha⟩
      · rw [← hphase, phaseOf?, htask]
        rfl
      · rw [← hresults, resultsOf, haside.queue, List.filter_eq_nil_iff]
        intro d hd
        simpa using Nat.ne_of_lt (ht.queue d hd)

end Thumbnailer.Generator
