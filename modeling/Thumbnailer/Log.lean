import Thumbnailer.OrderedMap

/-!
# Log records
-/

namespace Thumbnailer

inductive Level where
  | debug
  | info
  | warning
  | error
deriving DecidableEq, Repr

/-- How much a level matters, by number. -/
def Level.rank : Level → Nat
  | .debug => 0
  | .info => 1
  | .warning => 2
  | .error => 3

inductive Channel where
  /-- The log of the library. -/
  | standard
  /-- The log that the caller brought along. -/
  | own
deriving DecidableEq, Repr

inductive Attribute where
  | text (s : String)
  | number (n : Int)
deriving DecidableEq, Repr

/-- What a caller wants to see with each record of a request. -/
abbrev Attributes := OrderedMap String Attribute

/-- The fields that each record has by itself. -/
def recordFields : List String :=
  ["message", "asctime", "name", "msg", "args", "levelname", "levelno", "pathname", "filename", "module",
    "exc_info", "exc_text", "stack_info", "lineno", "funcName", "created", "msecs", "relativeCreated", "thread",
    "threadName", "processName", "process"]

namespace Attributes

/-- The first attribute that would take the place of a field of the record. -/
def reserved? (a : Attributes) : Option String := (a.map (·.1)).find? recordFields.contains

theorem reserved?_eq_none_iff {a : Attributes} : a.reserved? = none ↔ ∀ e ∈ a, e.1 ∉ recordFields := by
  simp [reserved?]

theorem reserved?_insert {a : Attributes} {name : String} (ha : a.reserved? = none) (hname : name ∉ recordFields)
    (value : Attribute) : reserved? (OrderedMap.insert a name value) = none := by
  rw [reserved?_eq_none_iff] at ha ⊢
  induction a with
  | nil => simpa [OrderedMap.insert] using hname
  | cons e rest ih =>
    obtain ⟨he, hrest⟩ := List.forall_mem_cons.1 ha
    rw [OrderedMap.insert]
    split
    · exact List.forall_mem_cons.2 ⟨he, hrest⟩
    · exact List.forall_mem_cons.2 ⟨he, ih hrest⟩

end Attributes

/-- Attributes that leave the fields of a record alone. -/
abbrev FreeAttributes := { a : Attributes // a.reserved? = none }

def noAttributes : FreeAttributes := ⟨[], rfl⟩

/-- A record: its text, the attributes given with it, and the error that it reports, if any. -/
structure Record where
  level : Level
  message : String
  attributes : Attributes := []
  cause : Option String := none
  channel : Channel := .standard
deriving DecidableEq, Repr

end Thumbnailer
