import Mathlib.Data.List.TakeWhile
import Mathlib.Data.Nat.Digits.Defs
import Thumbnailer.Proofs.Number.Layout
import Thumbnailer.Text.Integer

/-!
# Texts of integers

Which texts stand for an integer, as a grammar: a row of digits of any script with an optional sign before it and blanks
around the whole. `readInteger_eq_ok_iff` says that reading accepts exactly these texts, and `integerText_toString` that
a written integer is among them.
-/

namespace Thumbnailer.Text

/-! ## Digits -/

section
variable {c : Char} {d : Nat}

theorem digitValue?_of_isDigit (h : c.isDigit = true) : digitValue? c = some (c.toNat - 48) := by
  have hbounds : 48 ≤ c.toNat ∧ c.toNat ≤ 57 := Char.isDigit_iff_toNat.1 h
  rw [digitValue?, if_pos (by omega), if_pos h]

theorem digitValue?_lt (h : digitValue? c = some d) : d < 10 := by
  unfold digitValue? at h
  split at h
  · split at h
    · next hdigit =>
      have hbounds : 48 ≤ c.toNat ∧ c.toNat ≤ 57 := Char.isDigit_iff_toNat.1 hdigit
      obtain rfl := Option.some.inj h
      omega
    · cases h
  · obtain ⟨z, hz, rfl⟩ := Option.map_eq_some_iff.1 h
    have hfound : z ≤ c.toNat ∧ c.toNat < z + 10 := by simpa using List.find?_some hz
    omega

theorem digitValue?_eq_none_of_lt (hsmall : c.toNat < 128) (h : ¬(48 ≤ c.toNat ∧ c.toNat ≤ 57)) :
    digitValue? c = none := by
  rw [digitValue?, if_pos hsmall, if_neg (mt Char.isDigit_iff_toNat.1 h)]

/-- Letters stand for ten and more, so they are no digits in base ten. -/
theorem digitInBase?_ten (c : Char) : digitInBase? 10 c = digitValue? c := by
  unfold digitInBase?
  dsimp only
  split
  · next hlower =>
    have hbounds : 97 ≤ c.toNat ∧ c.toNat ≤ 122 :=
      (Bool.and_eq_true_iff.1 hlower).imp of_decide_eq_true of_decide_eq_true
    rw [digitValue?_eq_none_of_lt (by omega) (by omega), Option.filter_some, if_neg (by simp; omega)]
  split
  · next hupper =>
    have hbounds : 65 ≤ c.toNat ∧ c.toNat ≤ 90 := of_decide_eq_true hupper
    rw [digitValue?_eq_none_of_lt (by omega) (by omega), Option.filter_some, if_neg (by simp; omega)]
  · cases hd : digitValue? c with
    | none => rfl
    | some d => rw [Option.filter_some, if_pos (by simpa using digitValue?_lt hd)]

/-- A blank is no digit in any script: the digits of none reach a blank. -/
theorem digitValue?_of_isBlank (h : isBlank c = true) : digitValue? c = none := by
  have hplace : c.toNat ≤ 32 ∨ c.toNat = 0x85 ∨ c.toNat = 0xa0 ∨ c.toNat = 0x1680 ∨
      (0x2000 ≤ c.toNat ∧ c.toNat ≤ 0x3000) := by
    simp only [isBlank, Bool.or_eq_true, Bool.and_eq_true, decide_eq_true_eq, beq_iff_eq] at h
    omega
  have hzeros : ∀ z ∈ zeros, 0xa0 < z ∧ (z + 10 ≤ 0x1680 ∨ 0x1680 < z) ∧ (z + 10 ≤ 0x2000 ∨ 0x3000 < z) := by decide
  by_cases hsmall : c.toNat < 128
  · exact digitValue?_eq_none_of_lt hsmall (by omega)
  · rw [digitValue?, if_neg hsmall, Option.map_eq_none_iff, List.find?_eq_none]
    intro z hz
    have := hzeros z hz
    simp only [Bool.and_eq_true, decide_eq_true_eq]
    omega

end

/-! ## Rows of digits -/

/-- A row of digits of any script, with their values. One underscore may stand between two digits. -/
inductive DigitRow : List Char → List Nat → Prop where
  | single {c d} : digitValue? c = some d → DigitRow [c] [d]
  | next {c d row digits} : digitValue? c = some d → DigitRow row digits → DigitRow (c :: row) (d :: digits)
  | underscore {c d row digits} :
    digitValue? c = some d → DigitRow row digits → DigitRow (c :: '_' :: row) (d :: digits)

/-- A row of digits ends where neither a digit nor an underscore follows. -/
def EndsRow (rest : List Char) : Prop := ∀ c ∈ rest.head?, digitValue? c = none ∧ c ≠ '_'

section
variable {row rest : List Char} {digits : List Nat}

theorem DigitRow.starts (h : DigitRow row digits) : ∃ c more d, row = c :: more ∧ digitValue? c = some d := by
  cases h with
  | single hc => exact ⟨_, _, _, rfl, hc⟩
  | next hc => exact ⟨_, _, _, rfl, hc⟩
  | underscore hc => exact ⟨_, _, _, rfl, hc⟩

theorem DigitRow.ne_nil (h : DigitRow row digits) : digits ≠ [] := by cases h <;> simp

theorem DigitRow.lt_ten (h : DigitRow row digits) : ∀ d ∈ digits, d < 10 := by
  induction h with
  | single hc => simpa using digitValue?_lt hc
  | next hc _ ih => exact List.forall_mem_cons.2 ⟨digitValue?_lt hc, ih⟩
  | underscore hc _ ih => exact List.forall_mem_cons.2 ⟨digitValue?_lt hc, ih⟩

theorem readDigits_nil (h : EndsRow rest) : readDigits 10 rest = some ([], rest) := by
  cases rest with
  | nil => simp [readDigits]
  | cons c rest => simp [readDigits, digitInBase?_ten, (h c rfl).1]

theorem readDigits_cons {c : Char} {d : Nat} (hc : digitValue? c = some d) (hrest : rest.head? ≠ some '_') :
    readDigits 10 (c :: rest) = (readDigits 10 rest).map fun r => (d :: r.1, r.2) := by
  rw [readDigits, digitInBase?_ten, hc]
  dsimp only
  split
  · simp at hrest
  · simp at hrest
  · rfl

theorem readDigits_underscore {c e : Char} {d : Nat} (hc : digitValue? c = some d) (he : digitValue? e ≠ none) :
    readDigits 10 (c :: '_' :: e :: rest) = (readDigits 10 (e :: rest)).map fun r => (d :: r.1, r.2) := by
  rw [readDigits, digitInBase?_ten, hc]
  have hsome : (digitInBase? 10 e).isSome = true := by
    rwa [digitInBase?_ten, Option.isSome_iff_ne_none]
  simp only [hsome, if_true]

theorem readDigits_row (h : DigitRow row digits) (hrest : EndsRow rest) :
    readDigits 10 (row ++ rest) = some (digits, rest) := by
  induction h with
  | single hc =>
    rw [List.singleton_append, readDigits_cons hc fun hunderscore => (hrest '_' hunderscore).2 rfl,
      readDigits_nil hrest, Option.map_some]
  | next hc hrow ih =>
    obtain ⟨e, more, d, rfl, he⟩ := hrow.starts
    have hunderscore : e ≠ '_' := by
      rintro rfl
      cases he
    rw [List.cons_append, readDigits_cons hc (by simpa using hunderscore), ih, Option.map_some]
  | underscore hc hrow ih =>
    obtain ⟨e, more, d, rfl, he⟩ := hrow.starts
    rw [List.cons_append, List.cons_append, List.cons_append, readDigits_underscore hc (by simp [he]),
      ← List.cons_append, ih, Option.map_some]

theorem ne_nil_of_readDigits {e : Char} {d : Nat} (he : digitValue? e = some d)
    (h : readDigits 10 (e :: row) = some (digits, rest)) : digits ≠ [] := by
  rintro rfl
  rw [readDigits, digitInBase?_ten, he] at h
  dsimp only at h
  split at h
  · split at h <;> simp at h
  · cases h
  · simp at h

theorem readDigits_cases {s : List Char} (h : readDigits 10 s = some (digits, rest)) :
    (digits = [] ∧ s = rest) ∨ ∃ row, s = row ++ rest ∧ DigitRow row digits := by
  -- The cases are the end, an underscore with a digit behind it or without, a digit, and other characters.
  fun_induction readDigits 10 s generalizing digits rest with
  | case1 => simp_all
  | case2 => simp_all
  | case3 c d hc e rest' he ih =>
    obtain ⟨⟨taken, left⟩, hread, heq⟩ := Option.map_eq_some_iff.1 h
    obtain ⟨rfl, rfl⟩ := Prod.mk.inj heq
    rw [digitInBase?_ten] at hc he
    obtain ⟨d', he'⟩ := Option.isSome_iff_exists.1 he
    obtain ⟨hnil, -⟩ | ⟨row, hrow, hdigits⟩ := ih hread
    · exact absurd hnil (ne_nil_of_readDigits he' hread)
    · exact .inr ⟨c :: '_' :: row, by rw [hrow]; rfl, .underscore hc hdigits⟩
  | case4 => cases h
  | case5 => cases h
  | case6 c d hc rest' _ _ ih =>
    obtain ⟨⟨taken, left⟩, hread, heq⟩ := Option.map_eq_some_iff.1 h
    obtain ⟨rfl, rfl⟩ := Prod.mk.inj heq
    rw [digitInBase?_ten] at hc
    right
    obtain ⟨rfl, rfl⟩ | ⟨row, hrow, hdigits⟩ := ih hread
    · exact ⟨[c], rfl, .single hc⟩
    · exact ⟨c :: row, by rw [hrow]; rfl, .next hc hdigits⟩

end

/-! ## Texts of integers -/

/-- A sign before a number, and whether it makes the number negative. -/
inductive Sign : List Char → Bool → Prop where
  | absent : Sign [] false
  | plus : Sign ['+'] false
  | minus : Sign ['-'] true

/-- The number that decimal digits stand for; the last one counts the ones. -/
def valueOf (digits : List Nat) : Nat := Nat.ofDigits 10 digits.reverse

/-- The text stands for the integer: a row of digits, no more of them than the limit, with an optional sign before it
and blanks around the whole. -/
def IntegerText (text : String) (n : Int) : Prop :=
  ∃ before sign row after negative digits, text.toList = before ++ (sign ++ (row ++ after)) ∧
    (∀ c ∈ before ++ after, isNumberBlank c = true) ∧ Sign sign negative ∧ DigitRow row digits ∧
    digits.length ≤ digitLimit ∧
    n = if negative then -(valueOf digits : Int) else valueOf digits

theorem ofDigits_ten (digits : List Nat) : ofDigits 10 digits = valueOf digits := by
  induction digits using List.reverseRecOn with
  | nil => rfl
  | append_singleton digits d ih =>
    rw [ofDigits] at ih
    rw [valueOf, List.reverse_concat, Nat.ofDigits_cons, ← valueOf, ← ih, ofDigits, List.foldl_concat]
    omega

theorem dropBaseMark_ten (s : List Char) : dropBaseMark 10 s = s := by
  simp only [dropBaseMark, Nat.reduceEqDiff, if_false, List.contains_nil, Bool.false_eq_true]
  split <;> rfl

section
variable {sign row : List Char} {negative : Bool} {c : Char} {d : Nat}

theorem splitSign_append (hsign : Sign sign negative) (hc : digitValue? c = some d) (rest : List Char) :
    splitSign (sign ++ c :: rest) = (negative, c :: rest) := by
  cases hsign with
  | plus => rfl
  | minus => rfl
  | absent =>
    rw [List.nil_append]
    unfold splitSign
    split
    · next heq =>
      obtain ⟨rfl, -⟩ := List.cons.inj heq
      cases hc
    · next heq =>
      obtain ⟨rfl, -⟩ := List.cons.inj heq
      cases hc
    · rfl

theorem splitSign_cases (s : List Char) : ∃ sign, Sign sign (splitSign s).1 ∧ s = sign ++ (splitSign s).2 := by
  unfold splitSign
  split
  · exact ⟨['-'], .minus, rfl⟩
  · exact ⟨['+'], .plus, rfl⟩
  · exact ⟨[], .absent, rfl⟩

theorem dropWhile_isNumberBlank_sign (hsign : Sign sign negative) (hc : digitValue? c = some d) (rest : List Char) :
    (sign ++ c :: rest).dropWhile isNumberBlank = sign ++ c :: rest := by
  have hdigit : isNumberBlank c = false := by
    rw [Bool.eq_false_iff]
    intro hblank
    rw [digitValue?_of_isBlank (Bool.and_eq_true_iff.1 hblank).1] at hc
    cases hc
  cases hsign with
  | plus => rfl
  | minus => rfl
  | absent => rw [List.nil_append, List.dropWhile_cons_of_neg (by simp [hdigit])]

end

theorem endsRow_of_blank {rest : List Char} (h : ∀ c ∈ rest, isNumberBlank c = true) : EndsRow rest := by
  intro c hc
  have hblank := h c (List.mem_of_mem_head? hc)
  refine ⟨digitValue?_of_isBlank (Bool.and_eq_true_iff.1 hblank).1, ?_⟩
  rintro rfl
  exact absurd hblank (by decide)

section
variable {text : String} {n : Int}

theorem integerText_of_readInteger (h : readInteger text = .ok n) : IntegerText text n := by
  obtain ⟨sign, hsign, hsplit⟩ := splitSign_cases (text.toList.dropWhile isNumberBlank)
  simp only [readInteger, readIntegerIn, dropBaseMark_ten, ofDigits_ten] at h
  split at h
  · cases h
  · cases h
  next digits after hne hread =>
  split at h
  · cases h
  split at h
  · next hlimit hblank =>
    obtain ⟨rfl, -⟩ | ⟨row, hunsigned, hrow⟩ := readDigits_cases hread
    · exact (hne rfl).elim
    refine ⟨text.toList.takeWhile isNumberBlank, sign, row, after, _, digits, ?_, ?_, hsign, hrow, ?_, ?_⟩
    · rw [← hunsigned, ← hsplit, List.takeWhile_append_dropWhile]
    · exact List.forall_mem_append.2 ⟨fun _ => List.mem_takeWhile_imp, List.all_eq_true.1 hblank⟩
    · simpa using hlimit
    · exact (Except.ok.inj h).symm
  · cases h

theorem readInteger_of_integerText (h : IntegerText text n) : readInteger text = .ok n := by
  obtain ⟨before, sign, row, after, negative, digits, htext, hblank, hsign, hrow, hlimit, rfl⟩ := h
  rw [List.forall_mem_append] at hblank
  obtain ⟨c, more, d, rfl, hc⟩ := hrow.starts
  have hdrop : text.toList.dropWhile isNumberBlank = sign ++ (c :: more ++ after) := by
    rw [htext, List.dropWhile_append_of_pos hblank.1]
    exact dropWhile_isNumberBlank_sign hsign hc _
  have hsplit : splitSign (sign ++ (c :: more ++ after)) = (negative, c :: more ++ after) :=
    splitSign_append hsign hc _
  have hread := readDigits_row hrow (endsRow_of_blank hblank.2)
  obtain ⟨e, others, rfl⟩ := List.exists_cons_of_ne_nil hrow.ne_nil
  simp only [readInteger, readIntegerIn, dropBaseMark_ten, ofDigits_ten, hdrop, hsplit, hread]
  rw [if_neg (by simpa using hlimit), if_pos (List.all_eq_true.2 hblank.2)]

/-- **Reading an integer.** Exactly the texts of the grammar are read, as the integers that they stand for. -/
theorem readInteger_eq_ok_iff : readInteger text = .ok n ↔ IntegerText text n :=
  ⟨integerText_of_readInteger, readInteger_of_integerText⟩

end

/-! ## Written integers -/

/-- An integer as it is written: digits without zeros in front of them, and a minus before them if it is negative. -/
inductive WrittenInteger : List Char → Prop where
  | natural {s} : Whole s → WrittenInteger s
  | negative {s} : Whole s → s ≠ ['0'] → WrittenInteger ('-' :: s)

theorem whole_toDigits_zero : Whole (Nat.toDigits 10 0) where
  digits := isDigit_toDigits 0
  ne_nil := Nat.toDigits_ne_nil
  leading _ := by rw [Nat.toDigits_zero]

theorem digitChar_sub {c : Char} (h : c.isDigit = true) : (c.toNat - 48).digitChar = c := by
  have hdigits : ∀ n < 58, 48 ≤ n → (n - 48).digitChar = Char.ofNat n := by decide
  have hbounds : 48 ≤ c.toNat ∧ c.toNat ≤ 57 := Char.isDigit_iff_toNat.1 h
  rw [hdigits c.toNat (by omega) hbounds.1, Char.ofNat_toNat]

/-- Digits without a zero in front of them are those of the number that they stand for. -/
theorem toDigits_ofDigitChars {s : List Char} (h : Whole s) : Nat.toDigits 10 (Nat.ofDigitChars 10 s 0) = s := by
  induction s using List.reverseRecOn with
  | nil => exact absurd rfl h.ne_nil
  | append_singleton s c ih =>
    have hc := h.digits c (by simp)
    have hbounds : 48 ≤ c.toNat ∧ c.toNat ≤ 57 := Char.isDigit_iff_toNat.1 hc
    have hvalue : Nat.ofDigitChars 10 (s ++ [c]) 0 = 10 * Nat.ofDigitChars 10 s 0 + (c.toNat - 48) := by
      rw [Nat.ofDigitChars_append, Nat.ofDigitChars_cons, Nat.ofDigitChars_nil]
      rfl
    have hlast : Nat.toDigits 10 (c.toNat - 48) = [c] := by
      rw [Nat.toDigits_of_lt_base (by omega), digitChar_sub hc]
    by_cases hs : s = []
    · subst hs
      rw [hvalue, Nat.ofDigitChars_nil, Nat.mul_zero, Nat.zero_add, hlast, List.nil_append]
    have hhead : s.head? ≠ some '0' := by
      intro hzero
      have := congrArg List.length (h.leading (by rw [List.head?_append_of_ne_nil _ hs, hzero]))
      simp at this
      exact hs this
    have hdigits := ih ⟨fun d hd => h.digits d (by simp [hd]), hs, fun hzero => absurd hzero hhead⟩
    -- The digits before the last are not all zero.
    have hpos : 0 < Nat.ofDigitChars 10 s 0 := by
      by_contra hzero
      rw [Nat.eq_zero_of_not_pos hzero, Nat.toDigits_zero] at hdigits
      exact hhead (hdigits ▸ rfl)
    rw [hvalue, ← Nat.toDigits_append_toDigits (by omega) hpos (by omega), hdigits, hlast]

theorem toList_toString_int (n : Int) :
    (toString n).toList = if n < 0 then '-' :: Nat.toDigits 10 n.natAbs else Nat.toDigits 10 n.natAbs := by
  change (Int.repr n).toList = _
  cases n with
  | ofNat n => simp [Int.repr, Nat.toList_repr]
  | negSucc n => simp [Int.repr, Nat.toList_repr, String.toList_append]

theorem writtenInteger_toString (n : Int) : WrittenInteger (toString n).toList := by
  rw [toList_toString_int]
  split
  · next hneg =>
    have hpos : 0 < n.natAbs := by omega
    refine .negative (whole_toDigits hpos) fun hzero => head_toDigits hpos ?_
    rw [hzero]
    rfl
  · rcases Nat.eq_zero_or_pos n.natAbs with hzero | hpos
    · exact .natural (hzero ▸ whole_toDigits_zero)
    · exact .natural (whole_toDigits hpos)

theorem exists_toString_of_writtenInteger {s : List Char} (h : WrittenInteger s) :
    ∃ n : Int, (toString n).toList = s := by
  cases h with
  | natural hwhole =>
    refine ⟨(Nat.ofDigitChars 10 s 0 : Nat), ?_⟩
    rw [toList_toString_int, if_neg (by omega), Int.natAbs_natCast, toDigits_ofDigitChars hwhole]
  | @negative s hwhole hzero =>
    refine ⟨-(Nat.ofDigitChars 10 s 0 : Nat), ?_⟩
    have hpos : 0 < Nat.ofDigitChars 10 s 0 := by
      by_contra hnot
      have hdigits := toDigits_ofDigitChars hwhole
      rw [Nat.eq_zero_of_not_pos hnot, Nat.toDigits_zero] at hdigits
      exact hzero hdigits.symm
    rw [toList_toString_int, if_pos (by omega), Int.natAbs_neg, Int.natAbs_natCast, toDigits_ofDigitChars hwhole]

/-! ## Reading what was written -/

theorem isWritable_iff {n : Int} : isWritable n = true ↔ (Nat.toDigits 10 n.natAbs).length ≤ digitLimit := by
  rw [Nat.length_toDigits_le_iff (by omega) (by decide), isWritable, decide_eq_true_iff, Nat.pow_eq]

theorem digitRow_of_isDigit {s : List Char} (hne : s ≠ []) (h : ∀ c ∈ s, c.isDigit = true) :
    DigitRow s (s.map fun c => c.toNat - 48) := by
  induction s with
  | nil => exact absurd rfl hne
  | cons c s ih =>
    obtain ⟨hc, hs⟩ := List.forall_mem_cons.1 h
    by_cases hnil : s = []
    · subst hnil
      exact .single (digitValue?_of_isDigit hc)
    · exact .next (digitValue?_of_isDigit hc) (ih hnil hs)

theorem valueOf_map (s : List Char) : valueOf (s.map fun c => c.toNat - 48) = Nat.ofDigitChars 10 s 0 := by
  rw [← ofDigits_ten, ofDigits, List.foldl_map, Nat.ofDigitChars_eq_foldl]
  congr 1
  funext n c
  rw [Nat.mul_comm]
  rfl

theorem integerText_toString {n : Int} (h : isWritable n = true) : IntegerText (toString n) n := by
  have hrow := digitRow_of_isDigit Nat.toDigits_ne_nil (isDigit_toDigits n.natAbs)
  have hvalue := valueOf_map (Nat.toDigits 10 n.natAbs)
  rw [Nat.ofDigitChars_ten_toDigits] at hvalue
  have hlimit := isWritable_iff.1 h
  rw [← List.length_map] at hlimit
  by_cases hneg : n < 0
  · refine ⟨[], ['-'], _, [], true, _, ?_, by simp, .minus, hrow, hlimit, ?_⟩
    · rw [toList_toString_int, if_pos hneg]
      simp
    · rw [hvalue, if_pos rfl]
      omega
  · refine ⟨[], [], _, [], false, _, ?_, by simp, .absent, hrow, hlimit, ?_⟩
    · rw [toList_toString_int, if_neg hneg]
      simp
    · rw [hvalue, if_neg (by simp)]
      omega

theorem readInteger_of_isDigit {s : List Char} (hne : s ≠ []) (h : ∀ c ∈ s, c.isDigit = true) :
    readInteger (String.ofList s) =
      if digitLimit < s.length then .error (.tooManyDigits s.length) else .ok (Nat.ofDigitChars 10 s 0 : Nat) := by
  have hrow := digitRow_of_isDigit hne h
  obtain ⟨c, more, d, rfl, hc⟩ := hrow.starts
  have hdrop : (c :: more).dropWhile isNumberBlank = c :: more := dropWhile_isNumberBlank_sign .absent hc more
  have hsplit : splitSign (c :: more) = (false, c :: more) := splitSign_append .absent hc more
  have hends : EndsRow [] := by simp [EndsRow]
  have hread := readDigits_row hrow hends
  have hvalue := valueOf_map (c :: more)
  rw [List.map_cons] at hread hvalue
  rw [List.append_nil] at hread
  simp only [readInteger, readIntegerIn, dropBaseMark_ten, ofDigits_ten, String.toList_ofList, hdrop, hsplit, hread,
    hvalue]
  simp

theorem valueOf_lt {row : List Char} {digits : List Nat} (h : DigitRow row digits) :
    valueOf digits < 10 ^ digits.length := by
  rw [valueOf, ← List.length_reverse]
  exact Nat.ofDigits_lt_base_pow_length (by omega) fun d hd => h.lt_ten d (List.mem_reverse.1 hd)

theorem isWritable_of_integerText {text : String} {n : Int} (h : IntegerText text n) : isWritable n = true := by
  obtain ⟨_, _, _, _, negative, digits, -, -, -, hrow, hlimit, rfl⟩ := h
  have hlt := (valueOf_lt hrow).trans_le (Nat.pow_le_pow_right (by omega) hlimit)
  have hvalue : (if negative then -(valueOf digits : Int) else valueOf digits).natAbs = valueOf digits := by
    cases negative <;> simp
  rwa [isWritable_iff, hvalue, Nat.length_toDigits_le_iff (by omega) (by decide)]

end Thumbnailer.Text
