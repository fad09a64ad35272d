/-!
# Outputs

An output is a stream of thumbnails or sprites: how often a frame is taken, how frames are scaled, and where
they go. Kinds and behaviors come as codes, which need not be known ones before the output is validated.
-/

namespace Thumbnailer

inductive Kind where
  /-- One image for each frame taken. -/
  | thumbs
  /-- The frames tiled into grid images. -/
  | sprites
deriving DecidableEq, Repr

namespace Kind

def code : Kind → Int
  | .thumbs => 0
  | .sprites => 1

def ofCode? (code : Int) : Option Kind :=
  if code = 0 then some .thumbs else if code = 1 then some .sprites else none

theorem ofCode?_code (k : Kind) : ofCode? k.code = some k := by cases k <;> rfl

end Kind

/-- How frames are fitted into a target size; it counts only when width and height are both positive. -/
inductive Behavior where
  /-- Scaled to the size, whatever the aspect ratio. -/
  | none
  /-- Shrunk to fit and padded with black. -/
  | fill
  /-- Grown to cover and cropped. -/
  | crop
deriving DecidableEq, Repr

namespace Behavior

def code : Behavior → Int
  | .none => 0
  | .fill => 1
  | .crop => 2

def ofCode? (code : Int) : Option Behavior :=
  if code = 0 then some .none else if code = 1 then some .fill
  else if code = 2 then some .crop else Option.none

theorem ofCode?_code (b : Behavior) : ofCode? b.code = some b := by cases b <;> rfl

end Behavior

/-- The size of an output's frames. A negative width or height follows from the other one. -/
structure Scale where
  width : Int := -1
  height : Int := -1
  behavior : Int := Behavior.none.code
deriving DecidableEq, Repr

namespace Scale

def isFixed (s : Scale) : Bool := 0 < s.width && 0 < s.height

/-- Outputs with the same key can share their scaling. -/
def key (s : Scale) : Int × Int × Int := (s.behavior, s.width, s.height)

end Scale

/-- The file name pattern of an output that has none of its own. -/
def defaultDestination : String := "%04d.jpg"

/-- An output as its user describes it. The interval is in microseconds; a quality of 0 is the encoder's own. -/
structure Output where
  kind : Int := Kind.thumbs.code
  interval : Int := 1000000
  scale : Scale := {}
  columns : Int := 1
  rows : Int := 1
  quality : Int := 0
  destination : String := defaultDestination
deriving DecidableEq, Repr

namespace Output

def isSprites (o : Output) : Bool := Kind.ofCode? o.kind = some .sprites

end Output

/-! ## Shared filters -/

/-- Two scales are equal; an output without a scale matches only another one without. -/
def sameScale : Option Scale → Option Scale → Bool
  | none, none => true
  | some a, some b => a.width = b.width && a.height = b.height && a.behavior = b.behavior
  | _, _ => false

/-- The part of an output that decides which frames it gets and how they are scaled. -/
structure Framing where
  scale : Option Scale
  interval : Int
deriving DecidableEq, Repr

/-- The frames can be taken and scaled once for both. -/
def Framing.same : Option Framing → Option Framing → Bool
  | none, none => true
  | some a, some b => sameScale a.scale b.scale && a.interval = b.interval
  | _, _ => false

def Output.framing (o : Output) : Framing := ⟨some o.scale, o.interval⟩

/-- Two outputs can share the filters that take and scale their frames. -/
def Output.sameFilters (a b : Output) : Bool := Framing.same (some a.framing) (some b.framing)

end Thumbnailer
