import Mathlib.Data.List.Pairwise
import Thumbnailer.Proofs.Generator.Requests
import Thumbnailer.Proofs.Generator.Counter

/-!
# Numbers of calls

Pooled calls draw the numbers 1, 2, 3, ... A call returns the number that its request has by then: `numbers_drawn`
says that this is the last number that was drawn with the request, so it is the call's own as long as nobody makes
another call with the same request. In `shared_request_returned_twice` somebody does.
-/

namespace Thumbnailer.Generator

variable {g g' : Generator} {a : Action} {as : List Action} {c m i : Nat} {k : Call} {r : Request}

/-! ## Tickets -/

/-- What is settled about a call when it is made. -/
structure Ticket where
  request : Nat
  mode : Mode
  id : Nat
deriving DecidableEq, Repr

def Ticket.number? (t : Ticket) : Option Nat := if t.mode = .pooled then some t.id else none

def Call.ticket (k : Call) : Ticket := ⟨k.request, k.mode, k.id⟩

def Action.ticket? (nextId : Nat) : Action → Option Ticket
  | .call m .direct => some ⟨m, .direct, 0⟩
  | .call m .pooled => some ⟨m, .pooled, nextId⟩
  | _ => none

def tickets (g : Generator) : List Ticket := g.calls.map Call.ticket

def numbers (g : Generator) : List Nat := g.tickets.filterMap Ticket.number?

def numbersOf (g : Generator) (m : Nat) : List Nat :=
  (g.tickets.filter fun t => t.request = m).filterMap Ticket.number?

theorem tickets_getElem? (hk : g.calls[c]? = some k) : g.tickets[c]? = some k.ticket := by
  rw [tickets, List.getElem?_map, hk, Option.map_some]

theorem Turn.ticket {plan : Plan} {v v' : View} (h : Turn plan c v a v') : v'.call.ticket = v.call.ticket := by
  cases h <;> rfl

theorem Touched.tickets {k' : Call} {ds : List Delivery} (h : Touched g a c k k' ds g') (hk : g.calls[c]? = some k)
    (hticket : k'.ticket = k.ticket) : g'.tickets = g.tickets := by
  have hself := tickets_getElem? hk
  obtain ⟨hlt, heq⟩ := List.getElem?_eq_some_iff.1 hself
  have hset := List.set_getElem_self hlt
  rwa [heq, ← hticket, Generator.tickets, ← List.map_set, ← h.calls] at hset

theorem Severed.tickets {request : Nat} (h : Severed g request g') : g'.tickets = g.tickets :=
  h.map_calls fun _ _ _ _ => rfl

theorem step?_tickets (h : g.step? a = some g') : g'.tickets = g.tickets ++ (a.ticket? g.nextId).toList := by
  cases step?_happens h with
  | acted c k k' r ds ha hk hr htouched hturn =>
    have hnone : a.ticket? g.nextId = none := by
      cases a <;> first | rfl | cases ha
    rw [hnone, Option.toList_none, List.append_nil]
    exact htouched.tickets hk hturn.ticket
  | expired c k r ha hk hr hstep =>
    subst ha
    rw [(expire_severed hk hr hstep).tickets]
    exact (List.append_nil _).symm
  | apart hcall hapart =>
    cases hapart with
    | callDirect m q hq | callPooled m q hq => simp [tickets, Action.ticket?, Call.ticket]
    | cancel m q hq =>
      rw [(cancelRequest_severed g m).tickets]
      exact (List.append_nil _).symm
    | look w wait hw =>
      unfold lookAt
      simp only
      split <;> exact (List.append_nil _).symm
    | request | tune | close | await | shut => exact (List.append_nil _).symm

theorem run_tickets (h : g.run? as = some g') : g.tickets <+: g'.tickets :=
  run_inv (P := fun g' => g.tickets <+: g'.tickets)
    (fun hprefix h => step?_tickets h ▸ hprefix.trans (List.prefix_append _ _)) (List.prefix_refl _) h

theorem step?_numbers (h : g.step? a = some g') :
    g'.numbers = g.numbers ++ (a.ticket? g.nextId).toList.filterMap Ticket.number? := by
  rw [numbers, numbers, step?_tickets h, List.filterMap_append]

theorem step?_numbersOf (h : g.step? a = some g') (m : Nat) : g'.numbersOf m = g.numbersOf m ++
    ((a.ticket? g.nextId).toList.filter fun t => t.request = m).filterMap Ticket.number? := by
  rw [numbersOf, numbersOf, step?_tickets h, List.filter_append, List.filterMap_append]

theorem ticket?_unnumbered (ha : a.draws = false) (nextId : Nat) :
    (a.ticket? nextId).toList.filterMap Ticket.number? = [] := by
  cases a with
  | call m mode =>
    cases mode with
    | direct => rfl
    | pooled => cases ha
  | _ => rfl

theorem ticket?_undrawn (ha : a.draws = false) (nextId : Nat) (p : Ticket → Bool) :
    ((a.ticket? nextId).toList.filter p).filterMap Ticket.number? = [] :=
  List.eq_nil_of_sublist_nil (ticket?_unnumbered ha nextId ▸ List.filter_sublist.filterMap _)

theorem numbersOf_sublist (g : Generator) (m : Nat) : (g.numbersOf m).Sublist g.numbers :=
  List.filter_sublist.filterMap _

theorem mem_numbersOf : i ∈ g.numbersOf m ↔ ⟨m, .pooled, i⟩ ∈ g.tickets := by
  simp only [numbersOf, List.mem_filterMap, List.mem_filter, decide_eq_true_eq]
  constructor
  · rintro ⟨⟨n, mode, id⟩, ⟨hmem, rfl⟩, hi⟩
    cases mode with
    | direct => cases hi
    | pooled =>
      obtain rfl : id = i := Option.some.inj hi
      exact hmem
  · intro hmem
    exact ⟨_, ⟨hmem, rfl⟩, rfl⟩

theorem numbersOf_eq_nil (ht : Tied g) (hm : g.requests.length ≤ m) : g.numbersOf m = [] := by
  rw [List.eq_nil_iff_forall_not_mem]
  intro i hi
  obtain ⟨k, hk, hticket⟩ := List.mem_map.1 (mem_numbersOf.1 hi)
  obtain ⟨c, hc⟩ := List.getElem?_of_mem hk
  have hlt := ht.asked c k hc
  have hrequest : k.request = m := congrArg Ticket.request hticket
  omega

/-! ## Drawn numbers -/

/-- The numbers that were drawn, the numbers of the requests and the returned numbers. -/
structure Numbered (g : Generator) : Prop where
  next : g.nextId = g.numbers.length + 1
  drawn : g.numbers = List.range' 1 g.numbers.length
  /-- A request has the last number that was drawn with it. -/
  latest : ∀ m r i, g.requests[m]? = some r → (g.numbersOf m).getLast? = some i → r.id = i
  returned : ∀ (c : Nat) (k : Call) (i : Nat), g.calls[c]? = some k → k.caller = .returned i →
    i ∈ g.numbersOf k.request ∧ k.id ≤ i

theorem new_numbered (plan : Plan) (concurrency : Int) (clock : Double) :
    Numbered (new plan concurrency clock) :=
  ⟨rfl, rfl, by simp [new], by simp [new]⟩

theorem Numbered.sorted (hg : Numbered g) (m : Nat) : (g.numbersOf m).Pairwise (· < ·) :=
  (hg.drawn ▸ List.pairwise_lt_range').sublist (numbersOf_sublist g m)

theorem Numbered.le_latest (hg : Numbered g) {j : Nat} (hi : (g.numbersOf m).getLast? = some i)
    (hj : j ∈ g.numbersOf m) : j ≤ i := by
  obtain ⟨front, hfront⟩ := List.getLast?_eq_some_iff.1 hi
  have hsorted := hg.sorted m
  rw [hfront] at hj hsorted
  rcases List.mem_append.1 hj with hj | hj
  · exact Nat.le_of_lt ((List.pairwise_append.1 hsorted).2.2 j hj i (by simp))
  · exact Nat.le_of_eq (List.mem_singleton.1 hj)

theorem Turn.answer_pooled {plan : Plan} {v v' : View} (h : Turn plan c v (.answer c) v') (hs : v.Stage) :
    v.call.mode = .pooled := by
  cases h with
  | answer id n hc hp => cases hs <;> simp_all

theorem answer_eq {k : Call} {r : Request} (h : g.callStep? c k r (.answer c) = some g') :
    g' = g.setCaller c (.returned r.id) := by
  simp only [callStep?] at h
  split at h
  · split at h
    · exact (Option.some.inj h).symm
    · cases h
  · cases h

/-- A pooled call returns the last number that was drawn with its request. -/
theorem answer_latest (hg : Numbered g) (hs : ∀ c v, g.view? c = some v → v.Stage)
    (h : g.step? (.answer c) = some g') (hk : g.calls[c]? = some k) :
    ∃ i, (g.numbersOf k.request).getLast? = some i ∧ k.id ≤ i ∧ g' = g.setCaller c (.returned i) := by
  obtain ⟨l, r, hl, hr, hstep⟩ := callStep?_of_step? h (c := c) rfl
  obtain rfl : k = l := Option.some.inj (hk.symm.trans hl)
  have hm : k.mode = .pooled := by
    obtain ⟨k', ds, -, hturn⟩ := answer_acted hk hstep
    exact hturn.answer_pooled (hs c _ (view?_eq hk hr))
  have hmem : k.id ∈ g.numbersOf k.request := by
    rw [mem_numbersOf, ← hm]
    exact List.mem_of_getElem? (tickets_getElem? hk)
  obtain ⟨i, hi⟩ : ∃ i, (g.numbersOf k.request).getLast? = some i :=
    Option.ne_none_iff_exists'.1 (by simpa using List.ne_nil_of_mem hmem)
  refine ⟨i, hi, hg.le_latest hi hmem, ?_⟩
  rw [← hg.latest _ r i hr hi]
  exact answer_eq hstep

theorem Turn.returned {plan : Plan} {v v' : View} (h : Turn plan c v a v') (hc : v'.call.caller = .returned i) :
    v.call.caller = .returned i ∨ a = .answer c := by
  cases h with
  | answer => exact .inr rfl
  | countDirect | countPooled | refuse | giveBack | abandon | leaveDirect => cases hc
  | _ => exact .inl hc

theorem step?_returned (hg : Numbered g) (hs : ∀ c v, g.view? c = some v → v.Stage) (h : g.step? a = some g')
    (hk : g'.calls[c]? = some k) (hc : k.caller = .returned i) : i ∈ g.numbersOf k.request ∧ k.id ≤ i := by
  cases step?_moves h with
  | own d l l' r ds ha hl hr htouched hturn =>
    by_cases hd : c = d
    · subst hd
      obtain rfl : l' = k := Option.some.inj ((htouched.self hl).symm.trans hk)
      have hticket := hturn.ticket
      have hrequest : l'.request = l.request := congrArg Ticket.request hticket
      have hid : l'.id = l.id := congrArg Ticket.id hticket
      rw [hrequest, hid]
      rcases hturn.returned hc with hc | rfl
      · exact hg.returned c l i hl hc
      · obtain ⟨j, hj, hle, rfl⟩ := answer_latest hg hs h hl
        have hself := htouched.self hl
        simp only [setCaller, modifyCall, List.getElem?_modify_eq, hl] at hself
        obtain rfl : j = i := by simpa [← Option.some.inj hself] using hc
        exact ⟨List.mem_of_getLast? hj, hle⟩
    · exact hg.returned c k i (htouched.other hd ▸ hk) hc
  | cut request ha hcuts hsevered =>
    obtain ⟨l, work, hl, rfl⟩ := hsevered.back hk
    exact hg.returned c l i hl hc
  | aside ha haside =>
    rcases haside.back hk with hk | ⟨hcaller, -⟩
    · exact hg.returned c k i hk hc
    · simp [hcaller] at hc

theorem step?_latest (ht : Tied g) (hg : Numbered g) (h : g.step? a = some g') (hr : g'.requests[m]? = some r)
    (hi : (g'.numbersOf m).getLast? = some i) : r.id = i := by
  rw [step?_numbersOf h] at hi
  cases hdraws : a.draws with
  | false =>
    rw [ticket?_undrawn hdraws, List.append_nil] at hi
    have hlt : m < g.requests.length := by
      rcases Nat.lt_or_ge m g.requests.length with hlt | hge
      · exact hlt
      · simp [numbersOf_eq_nil ht hge] at hi
    obtain ⟨q, hq, hid⟩ := (step?_undrawn h hdraws).2 m r hr hlt
    rw [← hid, hg.latest m q i hq hi]
  | true =>
    obtain ⟨n, q, rfl, hq, hrequests, -⟩ := step?_drawn h hdraws
    rw [hrequests, List.getElem?_set] at hr
    by_cases hn : n = m
    · subst hn
      rw [if_pos rfl, if_pos (List.getElem?_eq_some_iff.1 hq).1] at hr
      obtain rfl : g.nextId = i := by simpa [Action.ticket?, Ticket.number?] using hi
      rw [← Option.some.inj hr]
    · rw [if_neg hn] at hr
      exact hg.latest m r i hr (by simpa [Action.ticket?, hn] using hi)

theorem step?_numbered (hsound : Sound g) (hg : Numbered g) (h : g.step? a = some g') : Numbered g' := by
  have hnumbers := step?_numbers h
  have hdrawn : g'.nextId = g'.numbers.length + 1 ∧ g'.numbers = List.range' 1 g'.numbers.length := by
    cases hdraws : a.draws with
    | false =>
      rw [ticket?_unnumbered hdraws, List.append_nil] at hnumbers
      rw [hnumbers, (step?_undrawn h hdraws).1]
      exact ⟨hg.next, hg.drawn⟩
    | true =>
      obtain ⟨m, r, rfl, -, -, hnext⟩ := step?_drawn h hdraws
      have happend : g'.numbers = g.numbers ++ [g.nextId] := by simpa [Action.ticket?, Ticket.number?] using hnumbers
      rw [hnext, happend, List.length_append, List.length_singleton, List.range'_concat, ← hg.drawn, hg.next]
      exact ⟨rfl, by rw [Nat.one_mul, Nat.add_comm]⟩
  refine ⟨hdrawn.1, hdrawn.2, fun m r i hr hi => step?_latest hsound.tied hg h hr hi, fun c k i hk hc => ?_⟩
  obtain ⟨hmem, hle⟩ := step?_returned hg hsound.stage h hk hc
  rw [step?_numbersOf h]
  exact ⟨List.mem_append_left _ hmem, hle⟩

theorem run_numbered {plan : Plan} {concurrency : Int} {clock : Double}
    (h : (new plan concurrency clock).run? as = some g) : Sound g ∧ Numbered g :=
  run_inv (P := fun g => Sound g ∧ Numbered g)
    (fun hg h => ⟨step?_sound hg.1 h, step?_numbered hg.1 hg.2 h⟩)
    ⟨new_sound plan concurrency clock, new_numbered plan concurrency clock⟩ h

theorem run_numbers_length (h : g.run? as = some g') :
    g'.numbers.length = g.numbers.length + as.countP Action.draws := by
  induction as generalizing g with
  | nil =>
    obtain rfl := Option.some.inj h
    rfl
  | cons a rest ih =>
    obtain ⟨g₁, hfirst, hrest⟩ := Option.bind_eq_some_iff.1 h
    rw [ih hrest, step?_numbers hfirst, List.length_append, List.countP_cons]
    cases hdraws : a.draws with
    | false => simp [ticket?_unnumbered hdraws]
    | true =>
      obtain ⟨m, r, rfl, -⟩ := step?_drawn hfirst hdraws
      simp [Action.ticket?, Ticket.number?]
      omega

/-- What numbers the pooled calls of a run draw and return. -/
structure NumbersDrawn (g : Generator) (as : List Action) : Prop where
  /-- They draw 1, 2, 3, ... in the order in which they are made, those that are rejected too, -/
  drawn : g.numbers = List.range' 1 (as.countP Action.draws)
  /-- and keep their numbers. -/
  kept : ∀ later g', g.run? later = some g' → g.tickets <+: g'.tickets
  /-- A call returns the number that was drawn last with its request. -/
  answer : ∀ c k g', g.calls[c]? = some k → g.step? (.answer c) = some g' →
    ∃ i, (g.numbersOf k.request).getLast? = some i ∧ g' = g.setCaller c (.returned i)
  returned : ∀ (c : Nat) (k : Call) (i : Nat), g.calls[c]? = some k → k.caller = .returned i →
    k.mode = .pooled ∧ i ∈ g.numbersOf k.request ∧ k.id ≤ i
  /-- So it is the call's own number unless there is another call with the same request, -/
  own : ∀ (c : Nat) (k : Call) (i : Nat), g.calls[c]? = some k → k.caller = .returned i →
    (∀ d l, g.calls[d]? = some l → l.mode = .pooled → l.request = k.request → d = c) → i = k.id
  /-- and the number of a call is never returned by a call with another request. -/
  apart : ∀ (c d : Nat) (k l : Call) (i : Nat), g.calls[c]? = some k → g.calls[d]? = some l →
    k.caller = .returned i → l.mode = .pooled → l.id = i → l.request = k.request

theorem mem_numbersOf_call (h : i ∈ g.numbersOf m) :
    ∃ (c : Nat) (k : Call), g.calls[c]? = some k ∧ k.mode = .pooled ∧ k.request = m ∧ k.id = i := by
  obtain ⟨k, hk, hticket⟩ := List.mem_map.1 (mem_numbersOf.1 h)
  obtain ⟨c, hc⟩ := List.getElem?_of_mem hk
  exact ⟨c, k, hc, congrArg Ticket.mode hticket, congrArg Ticket.request hticket, congrArg Ticket.id hticket⟩

/-- No number is drawn with two requests. -/
theorem Numbered.request_eq (hg : Numbered g) {n : Nat} (hm : i ∈ g.numbersOf m) (hn : i ∈ g.numbersOf n) :
    m = n := by
  have hnodup : (g.tickets.filterMap Ticket.number?).Pairwise (· ≠ ·) := by
    rw [show g.tickets.filterMap Ticket.number? = g.numbers from rfl, hg.drawn]
    exact List.nodup_range'
  rw [List.pairwise_filterMap] at hnodup
  have hsymm : Std.Symm fun t u : Ticket => ∀ i, t.number? = some i → ∀ j, u.number? = some j → i ≠ j :=
    ⟨fun t u htu j hj i hi => (htu i hi j hj).symm⟩
  by_cases hticket : (⟨m, .pooled, i⟩ : Ticket) = ⟨n, .pooled, i⟩
  · exact congrArg Ticket.request hticket
  · exact absurd rfl (hnodup.forall (mem_numbersOf.1 hm) (mem_numbersOf.1 hn) hticket i rfl i rfl)

theorem numbers_drawn {plan : Plan} {concurrency : Int} {clock : Double} {as : List Action} {g : Generator}
    (h : (new plan concurrency clock).run? as = some g) : NumbersDrawn g as := by
  obtain ⟨hsound, hg⟩ := run_numbered h
  constructor
  · have hlength := run_numbers_length h
    rw [show (new plan concurrency clock).numbers = [] from rfl, List.length_nil, Nat.zero_add] at hlength
    rw [← hlength]
    exact hg.drawn
  · exact fun later g' hlater => run_tickets hlater
  · intro c k g' hk hstep
    obtain ⟨i, hi, -, hanswer⟩ := answer_latest hg hsound.stage hstep hk
    exact ⟨i, hi, hanswer⟩
  · intro c k i hk hc
    obtain ⟨r, -, hv⟩ := hsound.tied.view? hk
    refine ⟨?_, hg.returned c k i hk hc⟩
    have hstage := hsound.stage c _ hv
    cases hstage <;> simp_all [viewOf]
  · intro c k i hk hc halone
    obtain ⟨d, l, hl, hm, hrequest, hid⟩ := mem_numbersOf_call (hg.returned c k i hk hc).1
    obtain rfl := halone d l hl hm hrequest
    rw [← hid, Option.some.inj (hk.symm.trans hl)]
  · rintro c d k l i hk hl hc hm rfl
    refine hg.request_eq (i := l.id) ?_ (hg.returned c k l.id hk hc).1
    rw [mem_numbersOf, ← hm]
    exact List.mem_of_getElem? (tickets_getElem? hl)

/-- There is one slot. Two calls are made with one request, and both wait until an earlier call has ended. -/
def sharedRequest : List Action :=
  [.request { media := "in.mp4" }, .request { media := "out.mp4" }, .call 0 .pooled, .count 0, .enter 0,
    .start 0 true, .answer 0, .call 1 .pooled, .count 1, .enter 1, .call 1 .pooled, .count 2, .enter 2, .arm 0,
    .launch 0, .exit 0, .deliver 0, .leave 0, .release 0, .enter 1, .start 1 true, .answer 1, .enter 2, .arm 1,
    .launch 1, .exit 1, .deliver 1, .leave 1, .release 1, .enter 2, .start 2 true, .answer 2]

theorem numbers_drawn_shared : ∃ g, (new barePlan 1).run? sharedRequest = some g ∧ g.numbers = [1, 2, 3] ∧
    NumbersDrawn g sharedRequest := by
  have hseen : ((new barePlan 1).run? sharedRequest).map numbers = some [1, 2, 3] := by decide +kernel
  obtain ⟨g, hg, hnumbers⟩ := Option.map_eq_some_iff.1 hseen
  exact ⟨g, hg, hnumbers, numbers_drawn hg⟩

/-- The second call has drawn 2, and returns 3 like the third. -/
theorem shared_request_returned_twice : ∃ g, (new barePlan 1).run? sharedRequest = some g ∧
    g.calls.map (fun k => (k.id, k.caller)) = [(1, .returned 1), (2, .returned 3), (3, .returned 3)] := by
  have hseen : ((new barePlan 1).run? sharedRequest).map (fun g => g.calls.map fun k => (k.id, k.caller)) =
      some [(1, .returned 1), (2, .returned 3), (3, .returned 3)] := by decide +kernel
  exact Option.map_eq_some_iff.1 hseen

end Thumbnailer.Generator
