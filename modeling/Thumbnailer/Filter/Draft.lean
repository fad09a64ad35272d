import Thumbnailer.Filter

/-!
# Drafts of filter graphs

Filters and chains under construction. They are numbered in the order in which they are made and stand in
chains and graphs by their number, so a change to one shows wherever it stands.
-/

namespace Thumbnailer

structure Draft where
  /-- Every filter made so far. -/
  filters : List Filter := []
  /-- Every chain made so far, as the numbers of its filters. -/
  chains : List (List Nat) := []
  /-- The number of the chain that a name stands for. -/
  names : OrderedMap String Nat := []
  /-- The graphs, as the numbers of their chains. -/
  graphs : OrderedMap String (List Nat) := []

/-- A change to a draft; chains and graphs are given by name. -/
inductive Edit where
  /-- A new empty chain takes the name. -/
  | newChain (chain : String)
  /-- A new empty graph takes the name. -/
  | newGraph (graph : String)
  /-- A new filter goes to the end of the chain. -/
  | add (chain : String) (filter : Filter)
  /-- The last filter of another chain goes to the end of the chain. -/
  | addLast (chain source : String)
  /-- All filters of another chain go to the end of the chain. -/
  | extend (chain source : String)
  /-- The last filter of the chain gets a label behind it. -/
  | label (chain label : String)
  /-- The chain becomes the last statement of the graph. -/
  | addStatement (graph chain : String)

/-- Why a change is refused: an empty chain has no last filter. -/
inductive EditError where
  | noLastFilter
deriving DecidableEq, Repr

def EditError.message : EditError → String
  | .noLastFilter => "list index out of range"

namespace Draft

def members (d : Draft) (chain : Nat) : List Nat := d.chains[chain]?.getD []

def chain (d : Draft) (number : Nat) : Chain := (d.members number).filterMap (d.filters[·]?)

def membersOf (d : Draft) (name : String) : List Nat :=
  ((d.names.get? name).map d.members).getD []

def namedChains (d : Draft) : List (String × Chain) := d.names.map fun n => (n.1, d.chain n.2)

def namedGraphs (d : Draft) : List (String × Graph) := d.graphs.map fun g => (g.1, g.2.map d.chain)

def append (d : Draft) (name : String) (filters : List Nat) : Draft :=
  match d.names.get? name with
  | some i => { d with chains := d.chains.modify i (· ++ filters) }
  | none => d

def apply (d : Draft) : Edit → Except EditError Draft
  | .newChain name =>
    .ok { d with chains := d.chains ++ [[]], names := d.names.insert name d.chains.length }
  | .newGraph name => .ok { d with graphs := d.graphs.insert name [] }
  | .add name f => .ok ({ d with filters := d.filters ++ [f] }.append name [d.filters.length])
  | .addLast name source =>
    match (d.membersOf source).getLast? with
    | some i => .ok (d.append name [i])
    | none => .error .noLastFilter
  | .extend name source => .ok (d.append name (d.membersOf source))
  | .label name label =>
    match (d.membersOf name).getLast? with
    | some i => .ok { d with filters := d.filters.modify i (·.addOutput label) }
    | none => .error .noLastFilter
  | .addStatement graph name =>
    match d.names.get? name with
    | some i => .ok { d with graphs := d.graphs.insert graph ((d.graphs.get? graph).getD [] ++ [i]) }
    | none => .ok d

end Draft

end Thumbnailer
