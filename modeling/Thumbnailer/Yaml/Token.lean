import Thumbnailer.Yaml.Fault

/-!
# Tokens

A YAML text is first cut into tokens. Some of them stand for no character: the beginnings and ends of blocks that
only the indentation shows, and the mark before a key that is known as a key by the colon behind it.
-/

namespace Thumbnailer.Yaml

/-- A tag as it is written: a handle, unless the tag is written out in full, and the rest. -/
structure WrittenTag where
  handle : Option String
  rest : String
deriving DecidableEq, Repr

inductive Directive where
  | version (major minor : Nat)
  /-- What a tag handle stands for. -/
  | handle (name text : String)
  | other
deriving DecidableEq, Repr

inductive Token where
  | directive (d : Directive)
  | documentStart
  | documentEnd
  | textEnd
  | blockSequence
  | blockMapping
  | blockEnd
  | flowSequence
  | flowSequenceEnd
  | flowMapping
  | flowMappingEnd
  /-- The dash before an item. -/
  | item
  /-- The comma inside brackets. -/
  | comma
  | key
  | value
  | alias (name : String)
  | anchor (name : String)
  | tag (written : WrittenTag)
  | scalar (text : String) (plain : Bool)
deriving DecidableEq, Repr

end Thumbnailer.Yaml
