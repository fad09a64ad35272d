import Thumbnailer.Proofs.Slots.Named

/-!
# What slots receive

`compile_receives` says that each slot of a list receives the filters it asks for, and that this is no other than what
it receives alone.
-/

namespace Thumbnailer.Slots

/-- Compiling a list of distinct slots without a violation gives a graph, and each slot of the list a name for
what it asks for. -/
theorem compile_receives_of_valid (slots : Slots) {order : List Nat} (hd : order.Nodup)
    (hv : violation? (slots.outputsOf order) = none) :
    ∃ g after, slots.compile order = (.ok g, after) ∧ ∀ i ∈ order, ∀ s, slots[i]? = some s →
      ∃ names, after[i]? = some ⟨s.output, names⟩ ∧
        ∀ stages, Graph.Receives g names.output stages ↔ stages = s.output.stages := by
  refine ⟨graphOf (slots.entriesOf order), slots.rename order, by simp [compile, hv], ?_⟩
  intro i hi s hs
  obtain ⟨k, hk⟩ := lastIndex?_isSome hi
  have he : (⟨k, s.output⟩ : Entry) ∈ slots.entriesOf order :=
    List.mem_filterMap.2 ⟨i, hi, (entry_eq_some slots order i _).2 ⟨s, k, hs, hk, rfl⟩⟩
  refine ⟨s.output.names k, ?_, graphOf_receives (entriesOf_index_nodup slots hd) he⟩
  simp [rename, List.getElem?_mapIdx, hs, hk]

theorem outputsOf_one {slots : Slots} {i : Nat} {s : Slot} (hs : slots[i]? = some s) :
    slots.outputsOf [i] = [s.output] := by
  simp [outputsOf, hs]

theorem mem_outputsOf {slots : Slots} {order : List Nat} {i : Nat} (hi : i ∈ order) {s : Slot}
    (hs : slots[i]? = some s) : s.output ∈ slots.outputsOf order :=
  List.mem_filterMap.2 ⟨i, hi, by simp [hs]⟩

/-- **Sharing changes nothing.** Distinct slots compile, unless they break a rule, into one graph in which each
of them receives the filters it asks for, as it does in the graph it has alone. -/
theorem compile_receives (slots : Slots) (order : List Nat) (hd : order.Nodup)
    (hv : violation? (slots.outputsOf order) = none) :
    ∃ g after, slots.compile order = (.ok g, after) ∧ slots.WrittenAs order g after ∧
      ∀ i ∈ order, ∀ s, slots[i]? = some s → ∃ names, after[i]? = some ⟨s.output, names⟩ ∧
        (∀ stages, Graph.Receives g names.output stages ↔ stages = s.output.stages) ∧
        (∀ f ∈ s.output.stages, f.name = "pad" ∨ f.name = "crop" →
          0 < s.output.scale.width ∧ 0 < s.output.scale.height) ∧
        ∃ alone afterAlone namesAlone, slots.compile [i] = (.ok alone, afterAlone) ∧
          afterAlone[i]? = some ⟨s.output, namesAlone⟩ ∧
          ∀ stages, Graph.Receives alone namesAlone.output stages ↔ Graph.Receives g names.output stages := by
  obtain ⟨g, after, hcompile, hall⟩ := compile_receives_of_valid slots hd hv
  refine ⟨g, after, hcompile, compile_writtenAs hcompile, fun i hi s hs => ?_⟩
  obtain ⟨names, hafter, hstages⟩ := hall i hi s hs
  refine ⟨names, hafter, hstages, fun f hf hname => stages_fixed hf hname, ?_⟩
  have hone : violation? (slots.outputsOf [i]) = none :=
    outputsOf_one hs ▸ violation?_one hv (mem_outputsOf hi hs)
  obtain ⟨alone, afterAlone, hcompile', hall'⟩ := compile_receives_of_valid slots (List.nodup_singleton i) hone
  obtain ⟨namesAlone, hafter', hstages'⟩ := hall' i (by simp) s hs
  exact ⟨alone, afterAlone, namesAlone, hcompile', hafter', fun stages => (hstages' stages).trans (hstages stages).symm⟩

/-- Sprites and thumbnails of one size, and thumbnails that share nothing with them. -/
def mixed : Slots :=
  [⟨{ kind := 1, interval := 2000000, scale := ⟨320, 180, 2⟩, columns := 4, rows := 3 }, {}⟩,
    ⟨{ interval := 2000000, scale := ⟨320, 180, 2⟩, quality := 5 }, {}⟩, ⟨{ scale := ⟨640, -1, 2⟩ }, {}⟩]

theorem compile_receives_mixed :
    [2, 0, 1].Nodup ∧ violation? (mixed.outputsOf [2, 0, 1]) = none ∧
      ∃ g after, mixed.compile [2, 0, 1] = (.ok g, after) ∧ ∃ names o, after[0]? = some ⟨o, names⟩ ∧
        ∀ stages, Graph.Receives g names.output stages ↔
          stages = [{ name := "select", args := [.text "bitor(gte(t-prev_selected_t\\,2)\\,isnan(prev_selected_t))"] },
            { name := "scale", args := [.integer 320, .integer 180],
              params := [("force_original_aspect_ratio", .text "increase")] },
            { name := "crop", args := [.integer 320, .integer 180] }, { name := "tile", args := [.text "4x3"] }] := by
  obtain ⟨g, after, hcompile, -, hall⟩ := compile_receives mixed [2, 0, 1] (by decide) (by decide)
  obtain ⟨names, hafter, hstages, -⟩ := hall 0 (by decide) _ rfl
  have hasked : Output.stages { kind := 1, interval := 2000000, scale := ⟨320, 180, 2⟩, columns := 4, rows := 3 } =
      [{ name := "select", args := [.text "bitor(gte(t-prev_selected_t\\,2)\\,isnan(prev_selected_t))"] },
        { name := "scale", args := [.integer 320, .integer 180],
          params := [("force_original_aspect_ratio", .text "increase")] },
        { name := "crop", args := [.integer 320, .integer 180] }, { name := "tile", args := [.text "4x3"] }] := by
    decide +kernel
  rw [hasked] at hstages
  exact ⟨by decide, by decide, g, after, hcompile, names, _, hafter, hstages⟩

end Thumbnailer.Slots
