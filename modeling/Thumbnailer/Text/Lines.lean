/-!
# Lines

Newlines are unified before anything else looks at a text; after that only the newline ends a line.
-/

namespace Thumbnailer.Text

/-- A carriage return, with or without a newline after it, becomes one newline. -/
def unifyNewlines : List Char → List Char
  | [] => []
  | '\r' :: '\n' :: rest => '\n' :: unifyNewlines rest
  | c :: rest => (if c = '\r' then '\n' else c) :: unifyNewlines rest

/-- The lines of a text, each with its newline; what follows the last newline is a line if it is not empty. -/
def lines : List Char → List (List Char)
  | [] => []
  | c :: rest =>
    if c = '\n' then [c] :: lines rest
    else
      match lines rest with
      | [] => [[c]]
      | l :: ls => (c :: l) :: ls

/-- No character is lost or added. -/
theorem lines_flatten (s : List Char) : (lines s).flatten = s := by
  induction s with
  | nil => rfl
  | cons c rest ih =>
    simp only [lines]
    split
    · simp [ih]
    · split
      · rename_i h; rw [h] at ih; simp at ih; simp [← ih]
      · rename_i l ls h; rw [h] at ih; simpa using ih

/-- The parts of a text between its newlines. -/
def splitLines (s : List Char) : List (List Char) := s.splitOn '\n'

end Thumbnailer.Text
