import Thumbnailer.Text.Quoted

/-!
# Checked fields

Reading a record checks all its fields and lists everything that is wrong, each fault with its place in the
record.
-/

namespace Thumbnailer

/-- Why a value does not fit a field. -/
inductive Misfit where
  | notText
  /-- Bytes that are no text. -/
  | notUnicode
  | notInteger
  /-- A text that is no integer. -/
  | badInteger
  | hugeInteger
  /-- A number with a part behind the point. -/
  | fraction
  /-- An infinity or no number. -/
  | notFinite
  | notFloat
  | badFloat
  | notFlag
  | badFlag
  | notList
  | notMapping
  | notRecord
  /-- A name that is none of the known ones. -/
  | unknownName (what given : String) (known : List String)
deriving DecidableEq, Repr

/-- The code that tells the kind of a misfit. -/
def Misfit.code : Misfit → String
  | .notText => "string_type"
  | .notUnicode => "string_unicode"
  | .notInteger => "int_type"
  | .badInteger => "int_parsing"
  | .hugeInteger => "int_parsing_size"
  | .fraction => "int_from_float"
  | .notFinite => "finite_number"
  | .notFloat => "float_type"
  | .badFloat => "float_parsing"
  | .notFlag => "bool_type"
  | .badFlag => "bool_parsing"
  | .notList => "list_type"
  | .notMapping => "dict_type"
  | .notRecord => "model_type"
  | .unknownName .. => "value_error"

/-- The message of a misfit that has a value of its own in it. -/
def Misfit.message? : Misfit → Option String
  | .unknownName what given known =>
    let names := ", ".intercalate known
    some s!"Value error, unknown {what} {Text.quoted given}, expected one of: {names}"
  | _ => none

/-- A step on the way to a place in a record. -/
inductive Step where
  | name (s : String)
  | number (n : Int)
deriving DecidableEq, Repr

/-- What is wrong at a place. -/
structure FieldError where
  place : List Step
  misfit : Misfit
deriving DecidableEq, Repr

/-- A value that was checked, or everything that is wrong with it. -/
def Checked (α : Type) : Type := Except (List FieldError) α

namespace Checked

variable {α β : Type}

def ok (a : α) : Checked α := Except.ok a

def errors (es : List FieldError) : Checked α := Except.error es

def misfit (m : Misfit) : Checked α := errors [⟨[], m⟩]

/-- Both parts are checked, and what is wrong with either of them is listed. -/
def both (a : Checked (α → β)) (b : Checked α) : Checked β :=
  match a, b with
  | .ok f, .ok x => ok (f x)
  | .ok _, .error es => errors es
  | .error es, .ok _ => errors es
  | .error es, .error es' => errors (es ++ es')

instance : Applicative Checked where
  pure := ok
  seq a b := both a (b ())

/-- What is wrong with a part, seen from the whole. -/
def under (step : Step) (c : Checked α) : Checked α :=
  match c with
  | .ok a => ok a
  | .error es => errors (es.map fun e => { e with place := step :: e.place })

def all : List (Checked α) → Checked (List α)
  | [] => ok []
  | c :: rest => both (both (ok List.cons) c) (all rest)

end Checked

end Thumbnailer
