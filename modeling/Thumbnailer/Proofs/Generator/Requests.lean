import Thumbnailer.Proofs.Generator.Runs

/-!
# Requests of a generator

What an action makes of the requests: one is made, one gets the number of a new call, one is cancelled, or they all
stay as they are.
-/

namespace Thumbnailer.Generator

variable {g g' : Generator} {a : Action} {as : List Action} {c m : Nat} {k : Call} {r : Request}

/-! ## One action -/

def Action.draws : Action → Bool
  | .call _ .pooled => true
  | _ => false

/-- What an action makes of the requests and of the number of the next pooled call. -/
inductive Requests (g : Generator) (a : Action) (g' : Generator) : Prop
  | same (ha : a.draws = false) (h : g'.requests = g.requests) (hnext : g'.nextId = g.nextId)
  | made (q : Request) (ha : a = .request q) (h : g'.requests = g.requests ++ [q]) (hnext : g'.nextId = g.nextId)
  | drawn (m : Nat) (r : Request) (ha : a = .call m .pooled) (hr : g.requests[m]? = some r)
      (h : g'.requests = g.requests.set m { r with id := g.nextId }) (hnext : g'.nextId = g.nextId + 1)
  | cancelled (m : Nat) (ha : Cuts g a m)
      (h : g'.requests = g.requests.modify m fun r => { r with cancelled := true }) (hnext : g'.nextId = g.nextId)

theorem endRun_frame (g : Generator) (c : Nat) (ending : Ending) :
    (g.endRun c ending).requests = g.requests ∧ (g.endRun c ending).nextId = g.nextId := by
  unfold endRun
  split
  · split <;> exact ⟨rfl, rfl⟩
  · exact ⟨rfl, rfl⟩

theorem killAll_frame (g : Generator) (numbers : List Nat) :
    (g.killAll numbers).requests = g.requests ∧ (g.killAll numbers).nextId = g.nextId := by
  induction numbers generalizing g with
  | nil => exact ⟨rfl, rfl⟩
  | cons c rest ih =>
    obtain ⟨hrequests, hnext⟩ := endRun_frame g c .killed
    obtain ⟨hrequests', hnext'⟩ := ih (g.endRun c .killed)
    exact ⟨hrequests'.trans hrequests, hnext'.trans hnext⟩

theorem cancelRequest_requests (g : Generator) (a : Action) (ha : Cuts g a m) :
    Requests g a (g.cancelRequest m) :=
  .cancelled m ha (killAll_frame _ _).1 (killAll_frame _ _).2

theorem step?_requests (h : g.step? a = some g') : Requests g a g' := by
  cases step?_happens h with
  | acted c k k' r ds ha hk hr htouched =>
    have hdraws : a.draws = false := by
      cases a <;> first | rfl | cases ha
    exact .same hdraws htouched.requests htouched.nextId
  | expired c k r ha hk hr hstep =>
    subst ha
    simp only [callStep?] at hstep
    split at hstep
    · split at hstep
      · obtain rfl := Option.some.inj hstep
        exact cancelRequest_requests g _ (.inr ⟨c, k, rfl, hk, rfl⟩)
      · split at hstep <;> obtain rfl := Option.some.inj hstep
        · exact .same rfl rfl rfl
        · exact .same rfl (endRun_frame g c .killed).1 (endRun_frame g c .killed).2
        · exact .same rfl rfl rfl
    · cases hstep
  | apart hcall hapart =>
    cases hapart with
    | request q => exact .made q rfl rfl rfl
    | callPooled m q hq => exact .drawn m q rfl hq rfl rfl
    | cancel m q hq => exact cancelRequest_requests g _ (.inl rfl)
    | callDirect | tune | close | await | shut => exact .same rfl rfl rfl
    | look w wait hw =>
      unfold lookAt
      simp only
      split <;> exact .same rfl rfl rfl

theorem Cuts.draws (h : Cuts g a m) : a.draws = false := by
  obtain rfl | ⟨c, k, rfl, -⟩ := h <;> rfl

theorem step?_drawn (h : g.step? a = some g') (ha : a.draws = true) : ∃ m r, a = .call m .pooled ∧
    g.requests[m]? = some r ∧ g'.requests = g.requests.set m { r with id := g.nextId } ∧
      g'.nextId = g.nextId + 1 := by
  cases step?_requests h with
  | drawn m r ha hr hdrawn hnext => exact ⟨m, r, ha, hr, hdrawn, hnext⟩
  | same hdraws => simp [ha] at hdraws
  | made q hq => simp [hq, Action.draws] at ha
  | cancelled m hcuts => simp [hcuts.draws] at ha

theorem step?_undrawn (h : g.step? a = some g') (ha : a.draws = false) : g'.nextId = g.nextId ∧
    ∀ m r', g'.requests[m]? = some r' → m < g.requests.length → ∃ r, g.requests[m]? = some r ∧ r.id = r'.id := by
  cases step?_requests h with
  | drawn m r hcall => simp [hcall, Action.draws] at ha
  | same hdraws hsame hnext => exact ⟨hnext, fun m r' hr' _ => ⟨r', hsame ▸ hr', rfl⟩⟩
  | made q hq hmade hnext =>
    refine ⟨hnext, fun m r' hr' hlt => ⟨r', ?_, rfl⟩⟩
    rwa [hmade, List.getElem?_append_left hlt] at hr'
  | cancelled n hcuts hcancelled hnext =>
    refine ⟨hnext, fun m r' hr' _ => ?_⟩
    rw [hcancelled, List.getElem?_modify, Option.map_eq_map, Option.map_eq_some_iff] at hr'
    obtain ⟨r, hr, rfl⟩ := hr'
    exact ⟨r, hr, by split <;> rfl⟩

/-! ## Whole runs -/

theorem Requests.later (h : Requests g a g') (hr : g.requests[m]? = some r) :
    ∃ r', g'.requests[m]? = some r' ∧ r'.asked = r.asked ∧ (r.cancelled = true → r'.cancelled = true) ∧
      (r'.cancelled = true → r.cancelled = true ∨ Cuts g a m) := by
  have hlt : m < g.requests.length := (List.getElem?_eq_some_iff.1 hr).1
  cases h with
  | same ha hsame => exact ⟨r, hsame ▸ hr, rfl, id, .inl⟩
  | made q ha hmade =>
    exact ⟨r, by rwa [hmade, List.getElem?_append_left hlt], rfl, id, .inl⟩
  -- A drawn number is no part of what is asked for.
  | drawn n q ha hq hdrawn =>
    rw [hdrawn, List.getElem?_set]
    by_cases hn : n = m
    · subst hn
      obtain rfl : r = q := Option.some.inj (hr.symm.trans hq)
      exact ⟨{ r with id := g.nextId }, by rw [if_pos rfl, if_pos hlt], rfl, id, .inl⟩
    · exact ⟨r, by rwa [if_neg hn], rfl, id, .inl⟩
  | cancelled n ha hcancelled =>
    rw [hcancelled, List.getElem?_modify, hr]
    by_cases hn : n = m
    · subst hn
      exact ⟨{ r with cancelled := true }, by simp, rfl, fun _ => rfl, fun _ => .inr ha⟩
    · exact ⟨r, by simp [hn], rfl, id, .inl⟩

end Thumbnailer.Generator
