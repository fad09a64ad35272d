import Thumbnailer.CommandLine.Run
import Thumbnailer.Proofs.FileTree.Made

/-!
# What is prepared for the inputs

When a command has prepared all its inputs, there is one request for each of them, in order, with the places
that its outputs go to, and the directories of these places are there.
-/

namespace Thumbnailer.CommandLine

/-- The directories of some places are there. -/
def Ready (t : FileTree) (destinations : List String) : Prop :=
  ∀ d ∈ destinations, Path.directory d ≠ "" → t.Holds (Path.directory d)

theorem Ready.extends {t t' : FileTree} {destinations : List String} (h : Ready t destinations)
    (hextends : t.Extends t') : Ready t' destinations :=
  fun d hd hne => hextends.holds (h d hd hne)

theorem makeDirectoriesFor_ready {t t' : FileTree} {destinations : List String}
    (h : makeDirectoriesFor t destinations = (.ok (), t')) : t.Extends t' ∧ Ready t' destinations := by
  induction destinations generalizing t with
  | nil =>
    obtain rfl : t = t' := congrArg Prod.snd h
    exact ⟨.refl t, by simp [Ready]⟩
  | cons d rest ih =>
    rw [makeDirectoriesFor] at h
    split at h
    case isTrue hempty =>
      obtain ⟨hextends, hready⟩ := ih h
      refine ⟨hextends, List.forall_mem_cons.2 ⟨fun hne => absurd (by simpa using hempty) hne, hready⟩⟩
    case isFalse =>
      cases hmake : t.makeDirectories (Path.directory d) with
      | mk made between =>
        cases made with
        | error e => simp [hmake] at h
        | ok =>
          simp only [hmake] at h
          -- The directory that is made first outlasts the making of the others.
          obtain ⟨hfirst, hholds⟩ := FileTree.makeDirectories_made (Path.directory_trimmed d) hmake
          obtain ⟨hextends, hready⟩ := ih h
          exact ⟨hfirst.trans hextends, List.forall_mem_cons.2 ⟨fun _ => hextends.holds hholds, hready⟩⟩

def requestFor (s : Surroundings) (p : Plan) (m : String × String) : Request where
  media := m.1
  destinations := destinationsIn p m.2
  child := s.childFor m.1

/-- What a request is for, and where its outputs go. -/
def aim (r : Request) : String × OrderedMap Int String := (r.media, r.destinations)

def aimFor (p : Plan) (m : String × String) : String × OrderedMap Int String := (m.1, destinationsIn p m.2)

theorem prepare_cons_ok {s : Surroundings} {p : Plan} {t t' : FileTree} {m : String × String}
    {rest : List (String × String)} {rs : List Request} (h : prepare s p t (m :: rest) = (.ok rs, t')) :
    ∃ between later, makeDirectoriesFor t ((destinationsIn p m.2).map (·.2)) = (.ok (), between) ∧
      prepare s p between rest = (.ok later, t') ∧ rs = requestFor s p m :: later := by
  rw [prepare] at h
  cases hmake : makeDirectoriesFor t ((destinationsIn p m.2).map (·.2)) with
  | mk made between =>
    cases made with
    | error e => simp [hmake] at h
    | ok =>
      cases hrest : prepare s p between rest with
      | mk later last =>
        cases later with
        | error e => simp [hmake, hrest, Except.map] at h
        | ok later =>
          simp only [hmake, hrest, Except.map, Prod.mk.injEq, Except.ok.injEq] at h
          exact ⟨between, later, rfl, by rw [hrest, h.2], h.1.symm⟩

theorem prepare_requests {s : Surroundings} {p : Plan} {t t' : FileTree} {ms : List (String × String)}
    {rs : List Request} (h : prepare s p t ms = (.ok rs, t')) : rs = ms.map (requestFor s p) := by
  induction ms generalizing t rs with
  | nil =>
    simp only [prepare, Prod.mk.injEq, Except.ok.injEq] at h
    exact h.1.symm
  | cons m rest ih =>
    obtain ⟨between, later, -, hrest, rfl⟩ := prepare_cons_ok h
    rw [ih hrest, List.map_cons]

end Thumbnailer.CommandLine
