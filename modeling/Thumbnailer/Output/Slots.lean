import Thumbnailer.Graph

/-!
# Outputs that keep their names

Outputs live in numbered slots, each with the names it was last given. A list to compile names slots, and may
name one several times: it then has the index of its last place in the list.
-/

namespace Thumbnailer

/-- An output and the names it was last given. -/
structure Slot where
  output : Output
  names : Names := {}
deriving DecidableEq, Repr

abbrev Slots := List Slot

def lastIndex? (item : Nat) : List Nat → Option Nat
  | [] => none
  | i :: rest =>
    match lastIndex? item rest with
    | some k => some (k + 1)
    | none => if i = item then some 0 else none

namespace Slots

def outputsOf (slots : Slots) (order : List Nat) : List Output :=
  order.filterMap fun i => slots[i]?.map (·.output)

def entriesOf (slots : Slots) (order : List Nat) : List Entry :=
  order.filterMap fun i =>
    match slots[i]?, lastIndex? i order with
    | some s, some k => some ⟨k, s.output⟩
    | _, _ => none

/-- Gives the slots that a list names the names of their last places in it. -/
def rename (slots : Slots) (order : List Nat) : Slots :=
  slots.mapIdx fun i s =>
    match lastIndex? i order with
    | some k => { s with names := s.output.names k }
    | none => s

/-- Compiles the slots that a list names. If an output breaks a rule, nothing changes. -/
def compile (slots : Slots) (order : List Nat) : Except Violation Graph × Slots :=
  match violation? (slots.outputsOf order) with
  | some v => (.error v, slots)
  | none => (.ok (graphOf (slots.entriesOf order)), slots.rename order)

/-- Changes the output of a slot; its names stay. -/
def modifyOutput (slots : Slots) (i : Nat) (change : Output → Output) : Slots :=
  List.modify slots i fun s => { s with output := change s.output }

/-- Gives an output the names that belong to its index and its present kind. -/
def assignNames (slots : Slots) (i : Nat) : Slots :=
  List.modify slots i fun s => { s with names := s.output.names s.names.index }

end Slots

end Thumbnailer
