import Mathlib.Data.List.Chain
import Mathlib.Data.List.Pairwise
import Thumbnailer.Graph

/-!
# Words of the graph language

What the texts in a graph are made of: a word holds nothing that delimits statements, filters or arguments, unless a
backslash stands before it. `plain_toString_int` and `plain_interval` say that all numbers are words.
-/

namespace Thumbnailer

variable {v w : List Char} {c d : Char}

/-! ## Plain texts -/

/-- The character means nothing in the graph language. -/
def isPlain (c : Char) : Bool := c.isAlphanum || ['-', '+', '.', '_', '(', ')'].contains c

/-- A text of plain characters. -/
structure Plain (w : List Char) : Prop where
  ne_nil : w ≠ []
  all : w.all isPlain = true

theorem Plain.append (hv : Plain v) (hw : w.all isPlain = true) : Plain (v ++ w) :=
  ⟨by simp [hv.ne_nil], by rw [List.all_append, hv.all, hw, Bool.and_self]⟩

theorem Plain.cons (hc : isPlain c = true) (hw : Plain w) : Plain (c :: w) :=
  ⟨by simp, by rw [List.all_cons, hc, hw.all, Bool.and_self]⟩

theorem Plain.apart (h : Plain w) {ds : List Char} (hds : ds.any isPlain = false) : ∀ d ∈ ds, d ∉ w := by
  intro d hd hmem
  exact List.any_eq_false.1 hds d hd (List.all_eq_true.1 h.all d hmem)

theorem all_isPlain_of_isDigit (h : ∀ c ∈ w, c.isDigit = true) : w.all isPlain = true :=
  List.all_eq_true.2 fun c hc => by simp [isPlain, Char.isAlphanum, h c hc]

theorem isDigit_toDigits (n : Nat) : ∀ c ∈ Nat.toDigits 10 n, c.isDigit = true := fun _ =>
  Nat.isDigit_of_mem_toDigits (by omega) (by omega)

theorem plain_toDigits (n : Nat) : Plain (Nat.toDigits 10 n) :=
  ⟨Nat.toDigits_ne_nil, all_isPlain_of_isDigit (isDigit_toDigits n)⟩

theorem plain_toString_int (n : Int) : Plain (toString n).toList := by
  change Plain (Int.repr n).toList
  cases n with
  | ofNat n =>
    rw [Int.repr, Nat.toList_repr]
    exact plain_toDigits n
  | negSucc n =>
    rw [Int.repr, String.toList_append, Nat.toList_repr]
    exact (plain_toDigits _).cons (by decide)

/-! ## Numbers -/

/-- A plain text that does not start with a point. -/
structure Numeral (w : List Char) : Prop where
  plain : Plain w
  head : w.head? ≠ some '.'

theorem Numeral.append (hv : Numeral v) (hw : w.all isPlain = true) : Numeral (v ++ w) where
  plain := hv.plain.append hw
  head := by
    obtain ⟨c, rest, rfl⟩ := List.exists_cons_of_ne_nil hv.plain.ne_nil
    exact hv.head

theorem numeral_of_digits (hne : w ≠ []) (h : ∀ c ∈ w, c.isDigit = true) : Numeral w where
  plain := ⟨hne, all_isPlain_of_isDigit h⟩
  head hhead := by
    have hdigit := h '.' (List.mem_of_head? hhead)
    exact absurd hdigit (by decide)

theorem all_isPlain_zeros (n : Nat) : (List.replicate n '0').all isPlain = true := by
  rw [List.all_replicate]
  split <;> decide

theorem numeral_placePoint (hne : w ≠ []) (h : ∀ c ∈ w, c.isDigit = true) (point : Int) :
    Numeral (placePoint w point) := by
  have hzero : Numeral ['0', '.'] := ⟨⟨by decide, by decide⟩, by decide⟩
  unfold placePoint
  split
  next => exact (hzero.append (all_isPlain_zeros _)).append (all_isPlain_of_isDigit h)
  next hpos =>
    simp only
    split
    next => exact ((numeral_of_digits hne h).append (all_isPlain_zeros _)).append (by decide)
    next hlong =>
      have htake : w.take point.toNat ≠ [] := by
        rw [Ne, List.take_eq_nil_iff]
        rintro (hzero | hnil)
        · omega
        · exact hne hnil
      have hdrop := all_isPlain_of_isDigit fun c hc => h c (List.mem_of_mem_drop (i := point.toNat) hc)
      refine (numeral_of_digits htake fun c hc => h c (List.mem_of_mem_take hc)).append ?_
      rw [List.all_cons, hdrop]
      decide

theorem numeral_placeExponent (layout : Layout) (hne : w ≠ []) (h : ∀ c ∈ w, c.isDigit = true) (point : Int) :
    Numeral (placeExponent layout w point) := by
  have hexponent : ('e' :: (if point - 1 < 0 then '-' else '+') ::
      padLeft layout.exponentDigits (Nat.toDigits 10 (point - 1).natAbs)).all isPlain = true := by
    rw [List.all_cons, List.all_cons, padLeft, List.all_append, all_isPlain_zeros, (plain_toDigits _).all]
    split <;> decide
  match w, hne with
  | [d], _ => exact (numeral_of_digits (by simp) h).append hexponent
  | d :: e :: rest, _ =>
    obtain ⟨hd, hrest⟩ := List.forall_mem_cons.1 h
    have hhead : Numeral [d] := numeral_of_digits (by simp) (by simpa using hd)
    refine (hhead.append ?_).append hexponent
    rw [List.all_cons, all_isPlain_of_isDigit hrest]
    decide

theorem numeral_layOut (layout : Layout) (x : Decimal) : Numeral (x.layOut layout) := by
  unfold Decimal.layOut
  simp only
  split
  · exact numeral_placePoint Nat.toDigits_ne_nil (isDigit_toDigits _) _
  · exact numeral_placeExponent layout Nat.toDigits_ne_nil (isDigit_toDigits _) _

theorem numeral_text (x : Double) : Numeral x.text.toList := by
  cases x with
  | nan => exact ⟨⟨by decide, by decide⟩, by decide⟩
  | infinite negative => cases negative <;> exact ⟨⟨by decide, by decide⟩, by decide⟩
  | finite negative mant exp =>
    have hbody : Numeral (if mant = 0 then ['0', '.', '0'] else (Double.shortest mant exp).layOut .plain) := by
      split
      · exact ⟨⟨by decide, by decide⟩, by decide⟩
      · exact numeral_layOut _ _
    simp only [Double.text, String.toList_ofList]
    cases negative with
    | true => exact ⟨hbody.plain.cons (by decide), by simp⟩
    | false => exact hbody

theorem Numeral.dropPointZero (h : Numeral w) : Plain (Interval.dropPointZero w) := by
  unfold Interval.dropPointZero
  split
  next rest heq =>
    have hw : w = rest.reverse ++ ['.', '0'] := by
      rw [← List.reverse_reverse w, heq]
      simp
    obtain ⟨⟨-, hall⟩, hhead⟩ := h
    rw [hw] at hall hhead
    -- If nothing were left, the text would start with the point.
    refine ⟨fun hnil => hhead (by rw [hnil]; rfl), ?_⟩
    rw [List.all_append, Bool.and_eq_true] at hall
    exact hall.1
  next => exact h.plain

theorem plain_interval (microseconds : Int) : Plain (Interval.text microseconds).toList := by
  rw [Interval.text, String.toList_ofList]
  exact (numeral_text _).dropPointZero

/-! ## Delimiters -/

/-- What delimits statements, filters, a name and its arguments, and arguments. -/
def delimiters : List Char := [';', ',', '=', ':']

/-- No delimiter leads, none trails, and no two stand side by side. -/
structure Tidy (w : List Char) : Prop where
  leading : ∀ c ∈ w.head?, c ∉ delimiters
  trailing : ∀ c ∈ w.getLast?, c ∉ delimiters
  doubled : w.IsChain fun c d => c ∉ delimiters ∨ d ∉ delimiters

theorem tidy_of_no_delimiter (h : ∀ d ∈ delimiters, d ∉ w) : Tidy w where
  leading c hc hd := h c hd (List.mem_of_head? hc)
  trailing c hc hd := h c hd (List.mem_of_getLast? hc)
  doubled := (List.pairwise_of_forall_mem_list fun c hc _ _ => .inl fun hd => h c hd hc).isChain

theorem Tidy.append (hv : Tidy v) (hw : Tidy w) : Tidy (v ++ w) := by
  cases v with
  | nil => exact hw
  | cons c v =>
    cases w with
    | nil => simpa using hv
    | cons d w =>
      refine ⟨hv.leading, fun e he => hw.trailing e ?_, List.isChain_append.2 ⟨hv.doubled, hw.doubled, ?_⟩⟩
      · rwa [List.getLast?_append_cons] at he
      · exact fun e he _ _ => .inl (hv.trailing e he)

theorem Tidy.join (hv : Tidy v) (hvne : v ≠ []) (hw : Tidy w) (hwne : w ≠ []) (d : Char) : Tidy (v ++ d :: w) := by
  obtain ⟨c, v, rfl⟩ := List.exists_cons_of_ne_nil hvne
  obtain ⟨e, w, rfl⟩ := List.exists_cons_of_ne_nil hwne
  have hright : List.IsChain (fun c d => c ∉ delimiters ∨ d ∉ delimiters) (d :: e :: w) :=
    List.isChain_cons_cons.2 ⟨.inr (hw.leading e rfl), hw.doubled⟩
  refine ⟨hv.leading, fun x hx => hw.trailing x ?_, List.isChain_append.2 ⟨hv.doubled, hright, ?_⟩⟩
  · rwa [List.getLast?_append_cons, List.getLast?_cons_cons] at hx
  · exact fun x hx _ _ => .inl (hv.trailing x hx)

theorem intercalate_of_join {P : List Char → Prop} (hjoin : ∀ v w, P v → P w → P (v ++ d :: w))
    {ws : List (List Char)} (hne : ws ≠ []) (h : ∀ w ∈ ws, P w) : P ([d].intercalate ws) := by
  induction ws with
  | nil => exact absurd rfl hne
  | cons w ws ih =>
    obtain ⟨hw, hrest⟩ := List.forall_mem_cons.1 h
    cases ws with
    | nil => simpa using hw
    | cons w' ws =>
      rw [List.intercalate_cons_cons, List.append_assoc]
      exact hjoin w _ hw (ih (by simp) hrest)

/-! ## Words -/

/-- A backslash stands before every comma, and nowhere else. -/
def isSealed : List Char → Bool
  | [] => true
  | '\\' :: ',' :: rest => isSealed rest
  | c :: rest => c != ',' && c != '\\' && isSealed rest

theorem isSealed_append (hv : isSealed v = true) : isSealed (v ++ w) = isSealed w := by
  fun_induction isSealed v with
  | case1 => rfl
  | case2 rest ih => exact ih hv
  | case3 c rest hnot ih =>
    simp only [Bool.and_eq_true, bne_iff_ne] at hv
    obtain ⟨⟨hcomma, hslash⟩, hrest⟩ := hv
    rw [List.cons_append, isSealed, ih hrest]
    · simp [hcomma, hslash]
    · exact fun _ heq => absurd heq hslash

theorem isSealed_of_not_mem (hcomma : ',' ∉ w) (hslash : '\\' ∉ w) : isSealed w = true := by
  induction w with
  | nil => rfl
  | cons c w ih =>
    simp only [List.mem_cons, not_or] at hcomma hslash
    rw [isSealed, ih hcomma.2 hslash.2]
    · simp [Ne.symm hcomma.1, Ne.symm hslash.1]
    · exact fun _ heq => absurd heq.symm hslash.1

/-- A name, an argument, or the key or value of one: it shows where it ends. -/
structure Word (w : List Char) : Prop where
  ne_nil : w ≠ []
  tidy : Tidy w
  closed : isSealed w = true
  inert : ∀ d ∈ [';', '=', ':', '[', ']'], d ∉ w

/-- A label, which may hold colons. -/
structure Label (w : List Char) : Prop where
  ne_nil : w ≠ []
  tidy : Tidy w
  inert : ∀ d ∈ [';', ',', '\\', '[', ']'], d ∉ w

theorem Plain.tidy (h : Plain w) : Tidy w := tidy_of_no_delimiter (h.apart (by decide))

theorem Plain.label (h : Plain w) : Label w where
  ne_nil := h.ne_nil
  tidy := h.tidy
  inert := h.apart (by decide)

theorem Plain.word (h : Plain w) : Word w where
  ne_nil := h.ne_nil
  tidy := h.tidy
  closed := isSealed_of_not_mem (h.label.inert ',' (by decide)) (h.label.inert '\\' (by decide))
  inert := h.apart (by decide)

theorem Word.comma (hv : Word v) (hw : Word w) : Word (v ++ '\\' :: ',' :: w) where
  ne_nil := by simp
  tidy := by
    have hleft : Tidy (v ++ ['\\']) := hv.tidy.append (tidy_of_no_delimiter (by simp [delimiters]))
    simpa using hleft.join (by simp) hw.tidy hw.ne_nil ','
  closed := by
    rw [isSealed_append hv.closed]
    exact hw.closed
  inert d hd := by
    have hslash : d ≠ '\\' := ne_of_mem_of_not_mem hd (by decide)
    have hcomma : d ≠ ',' := ne_of_mem_of_not_mem hd (by decide)
    simp [hv.inert d hd, hw.inert d hd, hslash, hcomma]

/-- A text that can stand between commas. -/
structure Segment (w : List Char) : Prop where
  tidy : Tidy w
  closed : isSealed w = true
  inert : ';' ∉ w

theorem Word.segment (h : Word w) : Segment w := ⟨h.tidy, h.closed, h.inert ';' (by decide)⟩

theorem Segment.append (hv : Segment v) (hw : Segment w) : Segment (v ++ w) where
  tidy := hv.tidy.append hw.tidy
  closed := by rw [isSealed_append hv.closed, hw.closed]
  inert := by simp [hv.inert, hw.inert]

theorem Segment.join (hv : Segment v) (hvne : v ≠ []) (hw : Segment w) (hwne : w ≠ [])
    (hd : d ∉ [';', ',', '\\']) : Segment (v ++ d :: w) where
  tidy := hv.tidy.join hvne hw.tidy hwne d
  closed := by
    simp only [List.mem_cons, List.not_mem_nil, or_false, not_or] at hd
    rw [isSealed_append hv.closed, isSealed, hw.closed]
    · simp [hd]
    · exact fun _ heq => absurd heq hd.2.2
  inert := by
    simp only [List.mem_cons, not_or] at hd
    simp [hv.inert, hw.inert, Ne.symm hd.1]

theorem Label.segment (h : Label w) : Segment ('[' :: (w ++ [']'])) := by
  have hlabel : Segment w :=
    ⟨h.tidy, isSealed_of_not_mem (h.inert ',' (by decide)) (h.inert '\\' (by decide)), h.inert ';' (by decide)⟩
  have hopen : Segment ['['] := ⟨tidy_of_no_delimiter (by simp [delimiters]), by decide, by decide⟩
  have hclose : Segment [']'] := ⟨tidy_of_no_delimiter (by simp [delimiters]), by decide, by decide⟩
  exact hopen.append (hlabel.append hclose)

end Thumbnailer
