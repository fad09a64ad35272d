import Thumbnailer.Output

/-!
# What is wrong with a list of outputs

The rules are checked output by output, and within an output in a fixed order; the first rule that is broken
is reported.
-/

namespace Thumbnailer

/-- A broken rule and the position of the output that breaks it. -/
inductive Violation where
  | noOutputs
  | quality (position : Nat) (value : Int)
  | shortInterval (position : Nat)
  | bothNegative (position : Nat)
  | zeroWidth (position : Nat)
  | zeroHeight (position : Nat)
  | fewRows (position : Nat)
  | fewColumns (position : Nat)
  | unknownKind (position : Nat) (code : Int)
  | unknownBehavior (position : Nat) (code : Int)
deriving DecidableEq, Repr

namespace Violation

def code : Violation → Nat
  | .noOutputs => 0
  | .quality .. => 1
  | .shortInterval .. => 2
  | .unknownKind .. => 3
  | .bothNegative .. => 4
  | .zeroWidth .. => 4
  | .zeroHeight .. => 4
  | .fewRows .. => 5
  | .fewColumns .. => 5
  | .unknownBehavior .. => 6

def message : Violation → String
  | .noOutputs => "at least one output should be provided"
  | .quality i q => s!"output {i} has wrong quality, valid values are 1-31, got {q}"
  | .shortInterval i => s!"output {i} snapshot interval is less than one millisecond"
  | .bothNegative i => s!"output {i} scale has both negative width and height"
  | .zeroWidth i => s!"output {i} scale width cannot be zero"
  | .zeroHeight i => s!"output {i} scale height cannot be zero"
  | .fewRows i => s!"output {i} sprite rows dimension is less than 1"
  | .fewColumns i => s!"output {i} sprite columns dimension is less than 1"
  | .unknownKind i k => s!"output {i} has unknown type: {k}"
  | .unknownBehavior i b => s!"output {i} has unknown scale behavior: {b}"

/-- The number of the user's that the message shows, if it shows one. -/
def number? : Violation → Option Int
  | .quality _ q => some q
  | .unknownKind _ k => some k
  | .unknownBehavior _ b => some b
  | _ => none

end Violation

def minInterval : Int := 1000

/-- The first rule on its kind that an output breaks. -/
def Output.kindViolation? (o : Output) (position : Nat) : Option Violation :=
  match Kind.ofCode? o.kind with
  | some .sprites =>
    if o.rows < 1 then some (.fewRows position)
    else if o.columns < 1 then some (.fewColumns position)
    else none
  | some .thumbs => none
  | none => some (.unknownKind position o.kind)

def Output.violation? (o : Output) (position : Nat) : Option Violation :=
  if o.quality ≠ 0 && !(1 ≤ o.quality && o.quality ≤ 31) then some (.quality position o.quality)
  else if o.interval < minInterval then some (.shortInterval position)
  else if o.scale.width < 0 && o.scale.height < 0 then some (.bothNegative position)
  else if o.scale.width = 0 then some (.zeroWidth position)
  else if o.scale.height = 0 then some (.zeroHeight position)
  else
    match o.kindViolation? position with
    | some v => some v
    | none =>
      if (Behavior.ofCode? o.scale.behavior).isNone then
        some (.unknownBehavior position o.scale.behavior)
      else none

/-- The first rule that outputs from a position on break. -/
def firstViolation? (position : Nat) : List Output → Option Violation
  | [] => none
  | o :: rest =>
    match o.violation? position with
    | some v => some v
    | none => firstViolation? (position + 1) rest

def violation? (outputs : List Output) : Option Violation :=
  if outputs.isEmpty then some .noOutputs else firstViolation? 0 outputs

end Thumbnailer
