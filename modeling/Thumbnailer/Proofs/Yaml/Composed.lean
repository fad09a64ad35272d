import Thumbnailer.Proofs.Yaml.Scanned
import Thumbnailer.Yaml.Node

/-!
# Faults of documents

Putting a document together from tokens fails where the tokens are in no order, or where they end early; then for the
reason for which they do.
-/

namespace Thumbnailer.Yaml

namespace Composing

/-- What comes of a step: it fails for a rule of form or because no more tokens follow, or the reason for that stays. -/
def KeepsFrom {α : Type} (s : Composition) (x : Except Fault (α × Composition)) : Prop :=
  Ends (fun f => f = .malformed ∨ f = s.fault) (fun r => r.2.fault = s.fault) x

def Keeps {α : Type} (m : Composing α) : Prop := ∀ s, KeepsFrom s (m s)

section
variable {α β : Type}

theorem Keeps.pure (a : α) : Keeps (Pure.pure a : Composing α) := fun _ => .ok rfl

theorem Keeps.throw : Keeps (throw .malformed : Composing α) := fun _ => .error (.inl rfl)

theorem Keeps.bind {m : Composing α} {k : α → Composing β} (hm : Keeps m) (hk : ∀ a, Keeps (k a)) :
    Keeps (m >>= k) := by
  intro s
  refine Ends.bind (hm s) fun r hr => ?_
  have hsecond := hk r.1 r.2
  rw [KeepsFrom, hr] at hsecond
  exact hsecond

theorem Keeps.modify {g : Composition → Composition} (hg : ∀ s, (g s).fault = s.fault) :
    Keeps (modify g : Composing Unit) := fun s => .ok (hg s)

theorem Keeps.throw_bind (k : α → Composing β) : Keeps ((MonadExcept.throw .malformed : Composing α) >>= k) :=
  fun _ => .error (.inl rfl)

theorem Keeps.get_bind {k : Composition → Composing α} (hk : ∀ s, Keeps (k s)) : Keeps (get >>= k) := fun s => hk s s

theorem keepsFrom_get_bind {k : Composition → Composing α} {s : Composition} :
    KeepsFrom s ((get >>= k) s) ↔ KeepsFrom s (k s s) := Iff.rfl

theorem Keeps.ite {c : Prop} [Decidable c] {m n : Composing α} (hm : Keeps m) (hn : Keeps n) :
    Keeps (if c then m else n) := by
  split
  · exact hm
  · exact hn

end

theorem keeps_peek : Keeps peek := by
  intro s
  unfold peek
  rw [keepsFrom_get_bind]
  cases s.rest with
  | nil => exact .error (.inr rfl)
  | cons t rest => exact .ok rfl

theorem keeps_skip : Keeps skip := .modify fun _ => rfl

theorem keeps_at? (ts : List Token) : Keeps (at? ts) := keeps_peek.bind fun _ => .pure _

theorem keeps_fill (number : Nat) (n : Node) : Keeps (fill number n) :=
  .bind (.modify fun _ => rfl) fun _ => .pure number

theorem keeps_add (anchor : Option String) (n : Node) : Keeps (add anchor n) := by
  intro s
  cases anchor with
  | none => exact .ok rfl
  | some name =>
    unfold add
    rw [keepsFrom_get_bind]
    dsimp only
    split
    · exact .error (.inl rfl)
    · exact .ok rfl

theorem keeps_addNothing : Keeps addNothing := keeps_add none _

theorem keeps_tagName (written : WrittenTag) : Keeps (tagName written) := by
  unfold tagName
  split
  · exact .pure _
  · refine .get_bind fun s => ?_
    split
    · exact .pure _
    · exact .throw

theorem keeps_anchor? : Keeps anchor? := by
  unfold anchor?
  refine keeps_peek.bind fun t => ?_
  split
  · exact keeps_skip.bind fun _ => .pure _
  · exact .pure _

theorem keeps_tag? : Keeps tag? := by
  unfold tag?
  refine keeps_peek.bind fun t => ?_
  split
  · exact keeps_skip.bind fun _ => .pure _
  · exact .pure _

theorem keeps_properties : Keeps properties := by
  unfold properties
  refine keeps_anchor?.bind fun before => keeps_tag?.bind fun written => ?_
  dsimp only
  cases written with
  | none =>
    split
    · exact keeps_anchor?.bind fun _ => .pure _
    · exact (Keeps.pure _).bind fun _ => .pure _
  | some written =>
    split
    · exact keeps_anchor?.bind fun _ => (keeps_tagName _).bind fun _ => .pure _
    · exact (Keeps.pure _).bind fun _ => (keeps_tagName _).bind fun _ => .pure _

/-! ## Nodes -/

/-- All steps that read a node or a part of one, each with the same fuel. -/
structure KeepsNodes (fuel : Nat) : Prop where
  node : ∀ block flush, Keeps (node fuel block flush)
  nodeUnless : ∀ stops block flush, Keeps (nodeUnless fuel stops block flush)
  blockItems : Keeps (blockItems fuel)
  flushItems : Keeps (flushItems fuel)
  blockEntries : Keeps (blockEntries fuel)
  valueUnless : ∀ stops block, Keeps (valueUnless fuel stops block)
  flowItems : ∀ first, Keeps (flowItems fuel first)
  flowEntries : ∀ first, Keeps (flowEntries fuel first)

theorem keepsNodes_zero : KeepsNodes 0 where
  node _ _ := by unfold Composing.node; exact .throw
  nodeUnless _ _ _ := by unfold Composing.nodeUnless; exact .throw
  blockItems := by unfold Composing.blockItems; exact .throw
  flushItems := by unfold Composing.flushItems; exact .throw
  blockEntries := by unfold Composing.blockEntries; exact .throw
  valueUnless _ _ := by unfold Composing.valueUnless; exact .throw
  flowItems _ := by unfold Composing.flowItems; exact .throw
  flowEntries _ := by unfold Composing.flowEntries; exact .throw

section
variable {fuel : Nat} (h : KeepsNodes fuel)
include h

theorem KeepsNodes.node_succ (block flush : Bool) : Keeps (Composing.node (fuel + 1) block flush) := by
  have hsequence (anchor : Option String) (tag : Tag) {items : Composing (List Nat)} (hitems : Keeps items) :
      Keeps (do
        let number ← add anchor (.sequence tag [])
        fill number (.sequence tag (← items))) :=
    (keeps_add _ _).bind fun _ => hitems.bind fun _ => keeps_fill _ _
  have hmapping (anchor : Option String) (tag : Tag) {entries : Composing (List (Nat × Nat))} (hentries : Keeps entries) :
      Keeps (do
        let number ← add anchor (.mapping tag [])
        fill number (.mapping tag (← entries))) :=
    (keeps_add _ _).bind fun _ => hentries.bind fun _ => keeps_fill _ _
  unfold Composing.node
  refine keeps_peek.bind fun t => ?_
  dsimp only
  split
  · refine keeps_skip.bind fun _ => .get_bind fun s => ?_
    split
    · exact .pure _
    · exact .throw_bind _
  refine keeps_properties.bind fun ⟨anchor, tag⟩ => ?_
  dsimp only
  refine keeps_peek.bind fun t => ?_
  split
  · exact hsequence _ _ h.flushItems
  · exact keeps_skip.bind fun _ => keeps_add _ _
  · exact hsequence _ _ (keeps_skip.bind fun _ => h.flowItems true)
  · exact hmapping _ _ (keeps_skip.bind fun _ => h.flowEntries true)
  · exact hsequence _ _ (keeps_skip.bind fun _ => h.blockItems)
  · exact hmapping _ _ (keeps_skip.bind fun _ => h.blockEntries)
  · exact .ite (.throw_bind _) (keeps_add _ _)

theorem KeepsNodes.nodeUnless_succ (stops : List Token) (block flush : Bool) :
    Keeps (Composing.nodeUnless (fuel + 1) stops block flush) := by
  unfold Composing.nodeUnless
  exact (keeps_at? _).bind fun _ => .ite keeps_addNothing (h.node _ _)

theorem KeepsNodes.blockItems_succ : Keeps (Composing.blockItems (fuel + 1)) := by
  unfold Composing.blockItems
  refine keeps_peek.bind fun t => ?_
  split
  · exact keeps_skip.bind fun _ => (h.nodeUnless _ _ _).bind fun _ => h.blockItems.bind fun _ => .pure _
  · exact keeps_skip.bind fun _ => .pure _
  · exact .throw

theorem KeepsNodes.flushItems_succ : Keeps (Composing.flushItems (fuel + 1)) := by
  unfold Composing.flushItems
  refine keeps_peek.bind fun t => ?_
  split
  · exact keeps_skip.bind fun _ => (h.nodeUnless _ _ _).bind fun _ => h.flushItems.bind fun _ => .pure _
  · exact .pure _

theorem KeepsNodes.blockEntries_succ : Keeps (Composing.blockEntries (fuel + 1)) := by
  unfold Composing.blockEntries
  refine keeps_peek.bind fun t => ?_
  split
  · exact keeps_skip.bind fun _ => (h.nodeUnless _ _ _).bind fun _ => (h.valueUnless _ _).bind fun _ =>
      h.blockEntries.bind fun _ => .pure _
  · exact keeps_skip.bind fun _ => .pure _
  · exact .throw

theorem KeepsNodes.valueUnless_succ (stops : List Token) (block : Bool) :
    Keeps (Composing.valueUnless (fuel + 1) stops block) := by
  unfold Composing.valueUnless
  exact (keeps_at? _).bind fun _ => .ite (keeps_skip.bind fun _ => h.nodeUnless _ _ _) keeps_addNothing

theorem KeepsNodes.flowItems_succ (first : Bool) : Keeps (Composing.flowItems (fuel + 1) first) := by
  unfold Composing.flowItems
  refine (keeps_at? _).bind fun _ => .ite (keeps_skip.bind fun _ => .pure _) ?_
  dsimp only
  -- The first item and the items behind a comma are read in the same way.
  refine .ite ((keeps_at? _).bind fun _ => .ite (keeps_skip.bind fun _ => ?_) (.throw_bind _)) ?_
  all_goals
    refine keeps_peek.bind fun t => ?_
    split
    · refine (keeps_add _ _).bind fun _ => keeps_skip.bind fun _ => (h.nodeUnless _ _ _).bind fun _ => ?_
      exact (h.valueUnless _ _).bind fun _ => (keeps_fill _ _).bind fun _ => (h.flowItems _).bind fun _ => .pure _
    · exact keeps_skip.bind fun _ => .pure _
    · exact (h.node _ _).bind fun _ => (h.flowItems _).bind fun _ => .pure _

theorem KeepsNodes.flowEntries_succ (first : Bool) : Keeps (Composing.flowEntries (fuel + 1) first) := by
  unfold Composing.flowEntries
  refine (keeps_at? _).bind fun _ => .ite (keeps_skip.bind fun _ => .pure _) ?_
  dsimp only
  refine .ite ((keeps_at? _).bind fun _ => .ite (keeps_skip.bind fun _ => ?_) (.throw_bind _)) ?_
  all_goals
    refine keeps_peek.bind fun t => ?_
    split
    · refine keeps_skip.bind fun _ => (h.nodeUnless _ _ _).bind fun _ => (h.valueUnless _ _).bind fun _ => ?_
      exact (h.flowEntries _).bind fun _ => .pure _
    · exact keeps_skip.bind fun _ => .pure _
    · exact (h.node _ _).bind fun _ => keeps_addNothing.bind fun _ => (h.flowEntries _).bind fun _ => .pure _

end

theorem keepsNodes (fuel : Nat) : KeepsNodes fuel := by
  induction fuel with
  | zero => exact keepsNodes_zero
  | succ fuel ih =>
    exact ⟨ih.node_succ, ih.nodeUnless_succ, ih.blockItems_succ, ih.flushItems_succ, ih.blockEntries_succ,
      ih.valueUnless_succ, ih.flowItems_succ, ih.flowEntries_succ⟩

/-! ## Documents -/

theorem keeps_directives (fuel : Nat) (versioned : Bool) (handles : List (String × String)) :
    Keeps (directives fuel versioned handles) := by
  induction fuel generalizing versioned handles with
  | zero =>
    unfold directives
    exact .throw
  | succ fuel ih =>
    unfold directives
    refine keeps_peek.bind fun t => ?_
    split
    · refine keeps_skip.bind fun _ => ?_
      split
      · exact .ite (.throw_bind _) (ih _ _)
      · exact .ite (.throw_bind _) (ih _ _)
      · exact ih _ _
    · exact .pure _

theorem keeps_beginning (fuel : Nat) : Keeps (beginning fuel) := by
  unfold beginning
  refine (keeps_directives _ _ _).bind fun _ => (keeps_at? _).bind fun _ => .ite ?_ .throw
  exact keeps_skip.bind fun _ => .modify fun _ => rfl

theorem keeps_skipEnds (fuel : Nat) : Keeps (skipEnds fuel) := by
  induction fuel with
  | zero =>
    unfold skipEnds
    exact .throw
  | succ fuel ih =>
    unfold skipEnds
    exact (keeps_at? _).bind fun _ => .ite (keeps_skip.bind fun _ => ih) (.pure _)

theorem keeps_ending (fuel : Nat) : Keeps (ending fuel) := by
  unfold ending
  refine (keeps_skipEnds _).bind fun _ => (keeps_at? _).bind fun _ => .ite ?_ (.pure _)
  exact (keeps_beginning _).bind fun _ => .throw

theorem keeps_document (fuel : Nat) : Keeps (document fuel) := by
  have hend (root : Nat) : Keeps (do
      ending fuel
      return some root) := (keeps_ending _).bind fun _ => .pure _
  have hnode := (keepsNodes fuel).node true false
  unfold document
  refine keeps_peek.bind fun t => ?_
  dsimp only
  split
  case h_1 => exact .pure _
  case h_2 | h_3 =>
    refine (keeps_beginning _).bind fun _ => keeps_peek.bind fun t => ?_
    split
    case h_5 => exact hnode.bind hend
    all_goals exact keeps_addNothing.bind hend
  case h_4 =>
    refine Keeps.bind (.modify ?_) fun _ => hnode.bind hend
    intro s
    rfl

end Composing

/-- A document that is not put together from a text has a fault of its own form or of that of its tokens. -/
theorem Document.ofTokens_error {ts : Tokens} {f : Fault} (h : Document.ofTokens ts = .error f) :
    f = .malformed ∨ ts.fault = some f := by
  have hkeeps := Composing.keeps_document (3 * ts.list.length + 3) { rest := ts.list, fault := ts.fault.getD .malformed }
  unfold ofTokens StateT.run at h
  dsimp only at h
  split at h
  · cases h
  · cases h
  · next hrun =>
    cases h
    obtain hmalformed | hfault := hkeeps.of_error hrun
    · exact .inl hmalformed
    · cases hnone : ts.fault with
      | none => exact .inl (by simpa [hnone] using hfault)
      | some f => exact .inr (by simpa [hnone, eq_comm] using hfault)

end Thumbnailer.Yaml
