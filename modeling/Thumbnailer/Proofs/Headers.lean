import Thumbnailer.Headers
import Thumbnailer.Proofs.Groups
import Thumbnailer.Proofs.Text.Trimming

/-!
# Headers as lines

The text of headers is read back line by line: a carriage return with a newline behind it ends a line, and the first
colon of a line ends the name. `headers_carried` says what comes back. It is the headers themselves exactly if none of
them holds the end of a line.
-/

namespace Thumbnailer

/-! ## Maps that are written entry by entry -/

namespace OrderedMap

variable {α β : Type} [BEq α]

theorem ofList_append_one (entries : List (α × β)) (e : α × β) :
    ofList (entries ++ [e]) = insert (ofList entries) e.1 e.2 := by
  simp [ofList, insertAll]

variable [LawfulBEq α]

theorem keys_insert (m : OrderedMap α β) (k : α) (v : β) :
    (insert m k v).map Prod.fst = if (m.map Prod.fst).contains k then m.map Prod.fst else m.map Prod.fst ++ [k] := by
  induction m with
  | nil => simp [insert]
  | cons e rest ih =>
    obtain ⟨k', v'⟩ := e
    by_cases hk : k' = k
    · simp [insert, hk]
    · have hk' : k ≠ k' := fun h => hk h.symm
      simp only [insert, beq_iff_eq, hk, if_false, List.map_cons, ih, List.contains_cons]
      split <;> simp_all

theorem keys_ofList (entries : List (α × β)) : (ofList entries).map Prod.fst = (entries.map Prod.fst).eraseDups := by
  induction entries using List.reverseRecOn with
  | nil => rfl
  | append_singleton entries e ih =>
    rw [ofList_append_one, keys_insert, ih, List.map_append, List.map_cons, List.map_nil, eraseDups_append_one]
    simp only [List.contains_iff_mem, List.mem_eraseDups]

theorem get?_ofList [DecidableEq α] (entries : List (α × β)) (k : α) :
    get? (ofList entries) k = ((entries.filter fun e => e.1 = k).getLast?).map Prod.snd := by
  induction entries using List.reverseRecOn with
  | nil => rfl
  | append_singleton entries e ih =>
    rw [ofList_append_one, List.filter_append]
    by_cases hk : e.1 = k
    · rw [hk, get?_insert_self]
      simp [hk]
    · rw [get?_insert_of_ne _ _ hk, ih]
      simp [hk]

theorem eq_or_mem_of_mem_insert {m : OrderedMap α β} {k : α} {v : β} {e : α × β} (h : e ∈ insert m k v) :
    e = (k, v) ∨ e ∈ m := by
  induction m with
  | nil => simpa [insert] using h
  | cons e' rest ih =>
    rw [insert] at h
    split at h
    · next hk =>
      rw [eq_of_beq hk, List.mem_cons] at h
      exact h.imp_right (List.mem_cons_of_mem _)
    · rw [List.mem_cons] at h ⊢
      obtain rfl | h := h
      · exact .inr (.inl rfl)
      · exact (ih h).imp_right .inr

theorem mem_of_mem_ofList {entries : List (α × β)} {e : α × β} (h : e ∈ ofList entries) : e ∈ entries := by
  induction entries using List.reverseRecOn with
  | nil => cases h
  | append_singleton entries e' ih =>
    rw [ofList_append_one] at h
    rw [List.mem_append, List.mem_singleton]
    exact (eq_or_mem_of_mem_insert h).symm.imp_left ih

end OrderedMap

namespace Headers

/-! ## Lines -/

def lineEnd : List Char := ['\r', '\n']

/-- The pieces of a text between the ends of lines. -/
def pieces : List Char → List (List Char)
  | [] => [[]]
  | '\r' :: '\n' :: rest => [] :: pieces rest
  | c :: rest => (pieces rest).modifyHead (c :: ·)

/-- The lines of a text; behind the last end of a line there is one only if something stands there. -/
def lines (s : List Char) : List (List Char) := if (pieces s).getLast? = some [] then (pieces s).dropLast else pieces s

/-- A line as a header: the first colon stands behind the name, and blanks at the ends of both parts do not count. -/
def ofLine (line : List Char) : String × String :=
  (String.ofList (Text.trimChars (line.takeWhile (· != ':'))),
    String.ofList (Text.trimChars ((line.dropWhile (· != ':')).drop 1)))

/-- The headers that the lines of a text hold. -/
def decode (text : String) : List (String × String) := (lines text.toList).map ofLine

theorem pieces_cons {c : Char} {rest : List Char} (h : ¬lineEnd <+: c :: rest) :
    pieces (c :: rest) = (pieces rest).modifyHead (c :: ·) := by
  rw [pieces]
  rintro more rfl rfl
  exact h ⟨more, rfl⟩

theorem pieces_ne_nil (s : List Char) : pieces s ≠ [] := by
  induction s using pieces.induct with
  | case1 => simp [pieces]
  | case2 rest => simp [pieces]
  | case3 c rest h ih => rwa [pieces, ne_eq, List.modifyHead_eq_nil_iff]; exact h

theorem pieces_append (s rest : List Char) : pieces (s ++ lineEnd ++ rest) = pieces s ++ pieces rest := by
  induction s using pieces.induct with
  | case1 => rfl
  | case2 more ih => exact congrArg ([] :: ·) ih
  | case3 c more h ih =>
    have hmore : ¬lineEnd <+: c :: more := by
      rintro ⟨tail, htail⟩
      obtain ⟨hc, hnext⟩ := List.cons.inj htail
      exact h tail hc.symm hnext.symm
    have hall : ¬lineEnd <+: c :: (more ++ lineEnd ++ rest) := by
      rintro ⟨tail, htail⟩
      obtain ⟨hc, hnext⟩ := List.cons.inj htail
      cases more with
      | nil => cases hnext
      | cons d more => exact h more hc.symm (congrArg (· :: more) (List.cons.inj hnext).1.symm)
    rw [List.cons_append, List.cons_append, pieces_cons hall, pieces_cons hmore, ih]
    cases hpieces : pieces more with
    | nil => exact absurd hpieces (pieces_ne_nil more)
    | cons piece others => rfl

theorem pieces_of_not_infix {s : List Char} (h : ¬lineEnd <:+: s) : pieces s = [s] := by
  induction s with
  | nil => rfl
  | cons c rest ih =>
    rw [pieces_cons fun hstart => h hstart.isInfix, ih fun hrest => h (List.infix_cons hrest)]
    rfl

theorem two_le_pieces {s : List Char} (h : lineEnd <:+: s) : 2 ≤ (pieces s).length := by
  obtain ⟨before, after, rfl⟩ := h
  have hbefore := List.length_pos_iff.2 (pieces_ne_nil before)
  have hafter := List.length_pos_iff.2 (pieces_ne_nil after)
  rw [pieces_append, List.length_append]
  omega

/-! ## The text of headers -/

/-- A header as it is written, without the end of its line. -/
def written (h : String × String) : List Char := h.1.toList ++ ':' :: ' ' :: h.2.toList

theorem toList_text (hs : Headers) : hs.text.toList = hs.flatMap fun h => written h ++ lineEnd := by
  unfold text
  induction hs with
  | nil => rfl
  | cons h rest ih =>
    rw [List.map_cons, String.join_cons, String.toList_append, ih, List.flatMap_cons]
    simp [headerLine, written, lineEnd]

theorem lines_text (hs : Headers) : lines hs.text.toList = hs.flatMap fun h => pieces (written h) := by
  have hpieces : pieces hs.text.toList = (hs.flatMap fun h => pieces (written h)) ++ [[]] := by
    rw [toList_text]
    induction hs with
    | nil => rfl
    | cons h rest ih => rw [List.flatMap_cons, List.flatMap_cons, pieces_append, ih, List.append_assoc]
  rw [lines, hpieces, List.getLast?_concat, if_pos rfl, List.dropLast_concat]

/-- No colon stands in the name, and no blank at an end of the name or of the value. -/
structure Clean (h : String × String) : Prop where
  colon : ':' ∉ h.1.toList
  name : Text.trimChars h.1.toList = h.1.toList
  value : Text.trimChars h.2.toList = h.2.toList

theorem trimChars_trimChars (s : List Char) : Text.trimChars (Text.trimChars s) = Text.trimChars s :=
  Text.eq_trimChars (fun _ s hc => Text.trimChars_cons hc s) (fun s _ hc => Text.trimChars_concat hc s) s

theorem ofLine_clean (line : List Char) : Clean (ofLine line) where
  colon := by
    intro h
    rw [ofLine, String.toList_ofList] at h
    have hcolon := List.mem_takeWhile_imp (Text.mem_of_mem_trimChars h)
    simp at hcolon
  name := by simp only [ofLine, String.toList_ofList, trimChars_trimChars]
  value := by simp only [ofLine, String.toList_ofList, trimChars_trimChars]

theorem ofLine_written {h : String × String} (hclean : Clean h) : ofLine (written h) = h := by
  have hname : ∀ c ∈ h.1.toList, (c != ':') = true := by
    intro c hc
    simpa using fun heq : c = ':' => hclean.colon (heq ▸ hc)
  have hblank : Text.isBlank ' ' = true := by decide
  unfold ofLine written
  rw [List.takeWhile_append_of_pos hname, List.dropWhile_append_of_pos hname]
  simp [Text.trimChars_cons hblank, hclean.name, hclean.value]

/-- The end of a line stands in the header, so that it goes on in another line. -/
def Breaks (h : String × String) : Prop := lineEnd <:+: h.1.toList ∨ lineEnd <:+: h.2.toList

instance : DecidablePred Breaks := fun _ => inferInstanceAs (Decidable (_ ∨ _))

theorem infix_append_cons_iff {sep a b : List Char} {c : Char} (hc : c ∉ sep) :
    sep <:+: a ++ c :: b ↔ sep <:+: a ∨ sep <:+: b := by
  constructor
  · rintro ⟨before, after, h⟩
    obtain ⟨more, ha, -⟩ | ⟨more, hstart, hrest⟩ := List.append_eq_append_iff.1 h
    · exact .inl ⟨before, more, ha.symm⟩
    cases more with
    | nil => exact .inl ⟨before, [], by simpa using hstart⟩
    | cons d more =>
      obtain ⟨rfl, rfl⟩ := List.cons.inj hrest
      -- The text that is looked for would hold `c` if it began before it and ended behind.
      obtain ⟨front, -, hsep⟩ | ⟨front, -, hmore⟩ := List.append_eq_append_iff.1 hstart
      · exact absurd (by simp [hsep]) hc
      cases front with
      | nil =>
        rw [List.nil_append] at hmore
        exact absurd (hmore ▸ List.mem_cons_self) hc
      | cons e front =>
        obtain ⟨-, rfl⟩ := List.cons.inj hmore
        exact .inr ⟨front, after, rfl⟩
  · rintro (h | h)
    · exact h.trans (List.prefix_append a _).isInfix
    · exact (List.infix_cons h).trans (List.suffix_append a _).isInfix

theorem infix_written_iff (h : String × String) : lineEnd <:+: written h ↔ Breaks h := by
  rw [written, infix_append_cons_iff (by decide), ← List.nil_append (' ' :: h.2.toList),
    infix_append_cons_iff (by decide), Breaks]
  simp [lineEnd]

theorem pieces_written_of_not_breaks {h : String × String} (hbreaks : ¬Breaks h) : pieces (written h) = [written h] :=
  pieces_of_not_infix fun hinfix => hbreaks ((infix_written_iff h).1 hinfix)

theorem two_le_pieces_written {h : String × String} (hbreaks : Breaks h) : 2 ≤ (pieces (written h)).length :=
  two_le_pieces ((infix_written_iff h).2 hbreaks)

theorem decode_text (hs : Headers) : decode hs.text = hs.flatMap fun h => (pieces (written h)).map ofLine := by
  rw [decode, lines_text, List.map_flatMap]

theorem decode_text_of_not_breaks {hs : Headers} (hclean : ∀ h ∈ hs, Clean h) (hbreaks : ∀ h ∈ hs, ¬Breaks h) :
    decode hs.text = hs := by
  rw [decode_text]
  induction hs with
  | nil => rfl
  | cons h rest ih =>
    rw [List.flatMap_cons, pieces_written_of_not_breaks (hbreaks h List.mem_cons_self), List.map_singleton,
      ofLine_written (hclean h List.mem_cons_self), ih fun h' hh' => hclean h' (List.mem_cons_of_mem _ hh')]
    · rfl
    · exact fun h' hh' => hbreaks h' (List.mem_cons_of_mem _ hh')

theorem length_le_decode_text (hs : Headers) : hs.length ≤ (decode hs.text).length := by
  rw [decode_text]
  induction hs with
  | nil => exact Nat.le_refl _
  | cons h rest ih =>
    have hpos := List.length_pos_iff.2 (pieces_ne_nil (written h))
    rw [List.flatMap_cons, List.length_cons, List.length_append, List.length_map]
    omega

/-- A header that goes on in another line brings a header along that nobody gave. -/
theorem length_lt_decode_text {hs : Headers} (hbreaks : ∃ h ∈ hs, Breaks h) :
    hs.length < (decode hs.text).length := by
  obtain ⟨h, hmem, hh⟩ := hbreaks
  obtain ⟨before, after, rfl⟩ := List.append_of_mem hmem
  have hbefore := length_le_decode_text before
  have hafter := length_le_decode_text after
  have htwo := two_le_pieces_written hh
  rw [decode_text] at hbefore hafter ⊢
  simp only [List.flatMap_append, List.flatMap_cons, List.length_append, List.length_cons, List.length_map]
  omega

/-! ## Headers that are given -/

/-- The text has a colon, and a name before it. -/
def IsHeader (text : String) : Prop := ':' ∈ text.toList ∧ (ofLine text.toList).1 ≠ ""

theorem readHeader_eq_ok_iff {text : String} {h : String × String} :
    readHeader text = .ok h ↔ IsHeader text ∧ h = ofLine text.toList := by
  have hbehind : (text.toList.dropWhile (· != ':')).isEmpty = false ↔ ':' ∈ text.toList := by
    rw [List.isEmpty_eq_false_iff, ne_eq, List.dropWhile_eq_nil_iff]
    simp
  have hname : (Text.trimChars (text.toList.takeWhile (· != ':'))).isEmpty = false ↔ (ofLine text.toList).1 ≠ "" := by
    rw [List.isEmpty_eq_false_iff, ofLine, ne_eq, ne_eq, String.ofList_eq_empty_iff]
  unfold readHeader IsHeader
  dsimp only
  -- Both tests of the reader are read as statements about the colon and the name.
  split
  · next hbad =>
    rw [Bool.or_eq_true] at hbad
    constructor
    · intro h
      cases h
    · rintro ⟨⟨hcolon, hne⟩, -⟩
      rw [← hbehind] at hcolon
      rw [← hname] at hne
      simp [hcolon, hne] at hbad
  · next hgood =>
    rw [Bool.not_eq_true, Bool.or_eq_false_iff, hbehind, hname] at hgood
    rw [Except.ok.injEq, eq_comm]
    exact ⟨fun h => ⟨hgood, h⟩, And.right⟩

theorem readHeaders_eq_ok_iff {texts : List String} {entries : List (String × String)} :
    readHeaders texts = .ok entries ↔
      (∀ text ∈ texts, IsHeader text) ∧ entries = texts.map fun text => ofLine text.toList := by
  induction texts generalizing entries with
  | nil => simp [readHeaders, eq_comm]
  | cons text rest ih =>
    rw [readHeaders, List.forall_mem_cons]
    split
    · next e he =>
      constructor
      · intro h
        cases h
      · rintro ⟨⟨htext, -⟩, -⟩
        rw [readHeader_eq_ok_iff.2 ⟨htext, rfl⟩] at he
        cases he
    · next h hh =>
      obtain ⟨htext, rfl⟩ := readHeader_eq_ok_iff.1 hh
      cases hrest : readHeaders rest with
      | error e =>
        constructor
        · intro h
          cases h
        · rintro ⟨⟨-, hall⟩, -⟩
          rw [ih.2 ⟨hall, rfl⟩] at hrest
          cases hrest
      | ok later =>
        obtain ⟨hall, rfl⟩ := ih.1 hrest
        rw [Except.map, Except.ok.injEq, eq_comm]
        exact ⟨fun h => ⟨⟨htext, hall⟩, h⟩, And.right⟩

theorem parse_eq_ok_iff {texts : List String} {hs : Headers} : parse texts = .ok hs ↔
    (∀ text ∈ texts, IsHeader text) ∧ hs = OrderedMap.ofList (texts.map fun text => ofLine text.toList) := by
  unfold parse
  cases hread : readHeaders texts with
  | error e =>
    constructor
    · intro h
      cases h
    · rintro ⟨hall, -⟩
      rw [readHeaders_eq_ok_iff.2 ⟨hall, rfl⟩] at hread
      cases hread
  | ok entries =>
    obtain ⟨hall, rfl⟩ := readHeaders_eq_ok_iff.1 hread
    rw [Except.map, Except.ok.injEq, eq_comm]
    exact ⟨fun h => ⟨hall, h⟩, And.right⟩

/-- What headers that are given one by one come to, and what is read back from their text. -/
structure Carried (texts : List String) (hs : Headers) : Prop where
  given : ∀ text ∈ texts, IsHeader text
  /-- Each name that is given stands there once, in the order in which they are given first. -/
  names : hs.map Prod.fst = (texts.map fun text => (ofLine text.toList).1).eraseDups
  /-- The value of a name is the one that is given last. -/
  last : ∀ name, hs.get? name =
    ((texts.map fun text => ofLine text.toList).filter fun h => h.1 = name).getLast?.map Prod.snd
  /-- Each header gives the lines that its text is cut into. -/
  lines : decode hs.text = hs.flatMap fun h => (pieces (written h)).map ofLine
  exact : decode hs.text = hs ↔ ∀ h ∈ hs, ¬Breaks h
  injected : (∃ h ∈ hs, Breaks h) ↔ hs.length < (decode hs.text).length

/-- **Headers as lines.** For all headers that are read: their text holds each of them on a line of its own, unless the
end of a line stands in one of them; then it holds more lines than there are headers. -/
theorem headers_carried {texts : List String} {hs : Headers} (h : parse texts = .ok hs) : Carried texts hs := by
  obtain ⟨hall, hhs⟩ := parse_eq_ok_iff.1 h
  have hclean : ∀ h ∈ hs, Clean h := by
    intro h hmem
    rw [hhs] at hmem
    obtain ⟨text, -, rfl⟩ := List.mem_map.1 (OrderedMap.mem_of_mem_ofList hmem)
    exact ofLine_clean text.toList
  have hone : (∀ h ∈ hs, ¬Breaks h) → decode hs.text = hs := decode_text_of_not_breaks hclean
  exact {
    given := hall
    names := by rw [hhs, OrderedMap.keys_ofList, List.map_map]; rfl
    last := by
      intro name
      rw [hhs, OrderedMap.get?_ofList]
    lines := decode_text hs
    exact := by
      refine ⟨?_, hone⟩
      intro hdecode h hmem hbreaks
      have hlt := length_lt_decode_text ⟨h, hmem, hbreaks⟩
      rw [hdecode] at hlt
      exact Nat.lt_irrefl _ hlt
    injected := by
      refine ⟨length_lt_decode_text, ?_⟩
      intro hlt
      by_contra hnone
      rw [hone fun h hmem hbreaks => hnone ⟨h, hmem, hbreaks⟩] at hlt
      exact Nat.lt_irrefl _ hlt }

/-- Blanks, colons in a value, an empty value, a name that is given again, and ends of lines that are trimmed off. -/
theorem headers_carried_repeated :
    parse [" B : 1", "A: x:y\r\n", "B:\r2", "C:"] = .ok [("B", "2"), ("A", "x:y"), ("C", "")] ∧
      decode (Headers.text [("B", "2"), ("A", "x:y"), ("C", "")]) = [("B", "2"), ("A", "x:y"), ("C", "")] := by
  have hparse : parse [" B : 1", "A: x:y\r\n", "B:\r2", "C:"] = .ok [("B", "2"), ("A", "x:y"), ("C", "")] := by
    decide +kernel
  exact ⟨hparse, (headers_carried hparse).exact.2 (by decide +kernel)⟩

/-- The end of a line inside a value: one header is given, and two come back. -/
theorem lineEnd_injects : parse ["A: b\r\nC: d"] = .ok [("A", "b\r\nC: d")] ∧
    decode (Headers.text [("A", "b\r\nC: d")]) = [("A", "b"), ("C", "d")] := by
  decide +kernel

end Headers

end Thumbnailer
