/-!
# Maps in order of first insertion

A list of keys with values. A key that is written again keeps its place and takes the new value.
-/

namespace Thumbnailer

/-- A map as the list of its entries, in order of first insertion. -/
abbrev OrderedMap (α β : Type) := List (α × β)

namespace OrderedMap

variable {α β : Type} [BEq α]

def insert (m : OrderedMap α β) (k : α) (v : β) : OrderedMap α β :=
  match m with
  | [] => [(k, v)]
  | (k', v') :: rest => if k' == k then (k', v) :: rest else (k', v') :: insert rest k v

def insertAll (m : OrderedMap α β) (entries : List (α × β)) : OrderedMap α β :=
  entries.foldl (fun m e => insert m e.1 e.2) m

/-- The map that writing these entries one after the other gives. -/
def ofList (entries : List (α × β)) : OrderedMap α β := insertAll [] entries

def get? (m : OrderedMap α β) (k : α) : Option β := (m.find? fun e => e.1 == k).map (·.2)

/-! ## What is read after writing -/

theorem get?_cons (m : OrderedMap α β) (k k' : α) (v : β) :
    get? ((k', v) :: m) k = if k' == k then some v else get? m k := by
  unfold get?
  rw [List.find?_cons]
  cases k' == k <;> rfl

theorem get?_insert_self [LawfulBEq α] (m : OrderedMap α β) (k : α) (v : β) :
    get? (insert m k v) k = some v := by
  induction m with
  | nil => simp [insert, get?_cons]
  | cons e rest ih =>
    obtain ⟨a, w⟩ := e
    simp only [insert]
    cases h : a == k with
    | true => simp [get?_cons, h]
    | false => simp [get?_cons, h, ih]

theorem get?_insert_of_ne [LawfulBEq α] (m : OrderedMap α β) {k k' : α} (v : β) (h : k ≠ k') :
    get? (insert m k v) k' = get? m k' := by
  have hk : (k == k') = false := by simpa using h
  induction m with
  | nil => simp [insert, get?_cons, hk]
  | cons e rest ih =>
    obtain ⟨a, w⟩ := e
    simp only [insert]
    cases ha : a == k with
    | true =>
      obtain rfl : a = k := by simpa using ha
      simp [get?_cons, hk]
    | false => simp [get?_cons, ih]

end OrderedMap

end Thumbnailer
