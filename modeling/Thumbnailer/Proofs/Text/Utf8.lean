import Mathlib.Tactic.SplitIfs
import Thumbnailer.Text.Utf8

/-!
# Bytes that are a text

Bytes are read strictly as a text exactly if they are the UTF-8 form of this text.
-/

namespace Thumbnailer.Text

def encode (text : List Char) : List UInt8 := text.flatMap String.utf8EncodeChar

/-! ## The form of a character -/

/-- The bytes of a character as numbers; `v` is its code. -/
def Form (v : Nat) : List Nat → Prop
  | [a] => v ≤ 127 ∧ a = v
  | [a, b] => 128 ≤ v ∧ v ≤ 2047 ∧ a = v / 64 + 192 ∧ b = v % 64 + 128
  | [a, b, c] => 2048 ≤ v ∧ v ≤ 65535 ∧ a = v / 4096 + 224 ∧ b = v / 64 % 64 + 128 ∧ c = v % 64 + 128
  | [a, b, c, d] => 65536 ≤ v ∧ v < 0x110000 ∧ a = v / 262144 + 240 ∧ b = v / 4096 % 64 + 128 ∧
      c = v / 64 % 64 + 128 ∧ d = v % 64 + 128
  | _ => False

theorem valid_toNat (c : Char) : c.toNat < 0xd800 ∨ 0xdfff < c.toNat ∧ c.toNat < 0x110000 := c.valid

theorem toNat_ofNat_of_valid {v : Nat} (h : v.isValidChar) : (Char.ofNat v).toNat = v := by
  rw [Char.ofNat, dif_pos h]
  rfl

theorem form_utf8EncodeChar (c : Char) : Form c.toNat ((String.utf8EncodeChar c).map UInt8.toNat) := by
  have hvalid := valid_toNat c
  unfold String.utf8EncodeChar
  change Form c.toNat (List.map UInt8.toNat (if c.toNat ≤ 127 then [UInt8.ofNat c.toNat] else _))
  split_ifs
  all_goals
    simp only [Form, List.map_cons, List.map_nil, UInt8.toNat_ofNat', Char.toNat] at *
    omega

theorem Form.unique {v : Nat} {bytes bytes' : List Nat} (h : Form v bytes) (h' : Form v bytes') : bytes = bytes' := by
  unfold Form at h h'
  split at h <;> split at h' <;> first | omega | simp_all

theorem utf8EncodeChar_eq {c : Char} {bytes : List UInt8} (h : Form c.toNat (bytes.map UInt8.toNat)) :
    String.utf8EncodeChar c = bytes :=
  (List.map_inj_right fun _ _ => UInt8.toNat_inj.1).1 ((form_utf8EncodeChar c).unique h)

/-! ## Reading a character -/

theorem isContinuation_iff (b : UInt8) : isContinuation b = true ↔ 128 ≤ b.toNat ∧ b.toNat ≤ 191 := by
  simp [isContinuation, UInt8.le_iff_toNat_le]

/-- The second byte keeps the character from being too long a form, half a surrogate pair or beyond the last one. -/
theorem isSecond_iff (b c : UInt8) : isSecond b c = true ↔ 128 ≤ c.toNat ∧ c.toNat ≤ 191 ∧
    (b.toNat = 224 → 160 ≤ c.toNat) ∧ (b.toNat = 237 → c.toNat ≤ 159) ∧ (b.toNat = 240 → 144 ≤ c.toNat) ∧
      (b.toNat = 244 → c.toNat ≤ 143) := by
  have hnumber (n : UInt8) : b = n ↔ b.toNat = n.toNat := UInt8.toNat_inj.symm
  unfold isSecond
  simp only [beq_iff_eq, hnumber]
  split_ifs <;> simp_all [isContinuation_iff, UInt8.le_iff_toNat_le] <;> omega

theorem readChar_of_form {c : Char} {b : UInt8} {more : List UInt8} (h : Form c.toNat ((b :: more).map UInt8.toNat))
    (rest : List UInt8) : readChar b (more ++ rest) = (some c, more.length + 1) := by
  have hvalid := valid_toNat c
  have hchar {v : Nat} (hv : v = c.toNat) : Char.ofNat v = c := by rw [hv, Char.ofNat_toNat]
  unfold readChar
  simp only [UInt8.lt_iff_toNat_lt]
  -- The first byte tells how many follow, and fails the tests for fewer.
  match more, h with
  | [], h =>
    simp only [Form, List.map_cons, List.map_nil] at h
    rw [if_pos (by simp; omega), hchar (by omega)]
    rfl
  | [d], h =>
    simp only [Form, List.map_cons, List.map_nil] at h
    rw [if_neg (by simp; omega), if_neg (by simp; omega), if_pos (by simp; omega)]
    have hcont : isContinuation d = true := (isContinuation_iff d).2 (by omega)
    simp only [List.cons_append, hcont, if_true]
    rw [hchar (by unfold low; omega)]
    rfl
  | [d, e], h =>
    simp only [Form, List.map_cons, List.map_nil] at h
    rw [if_neg (by simp; omega), if_neg (by simp; omega), if_neg (by simp; omega), if_pos (by simp; omega)]
    have hsecond : isSecond b d = true := (isSecond_iff b d).2 (by omega)
    have hcont : isContinuation e = true := (isContinuation_iff e).2 (by omega)
    simp only [List.cons_append, hsecond, hcont, Bool.not_true, Bool.false_eq_true, if_false]
    rw [hchar (by unfold low; omega)]
    rfl
  | [d, e, f], h =>
    simp only [Form, List.map_cons, List.map_nil] at h
    rw [if_neg (by simp; omega), if_neg (by simp; omega), if_neg (by simp; omega), if_neg (by simp; omega),
      if_pos (by simp; omega)]
    have hsecond : isSecond b d = true := (isSecond_iff b d).2 (by omega)
    have hthird : isContinuation e = true := (isContinuation_iff e).2 (by omega)
    have hcont : isContinuation f = true := (isContinuation_iff f).2 (by omega)
    simp only [List.cons_append, hsecond, hthird, hcont, Bool.not_true, Bool.false_eq_true, if_false]
    rw [hchar (by unfold low; omega)]
    rfl

theorem form_of_readChar {c : Char} {b : UInt8} {rest : List UInt8} {n : Nat} (h : readChar b rest = (some c, n)) :
    ∃ more behind, rest = more ++ behind ∧ n = more.length + 1 ∧ Form c.toNat ((b :: more).map UInt8.toNat) := by
  -- What is read is a character only if its number is one, and then the bytes have the form of that number.
  have hread (v : Nat) (more behind : List UInt8) (h : (some (Char.ofNat v), more.length + 1) = (some c, n))
      (hv : v < 0xd800 ∨ 0xdfff < v ∧ v < 0x110000) (hform : Form v ((b :: more).map UInt8.toNat)) :
      ∃ more' behind', more ++ behind = more' ++ behind' ∧ n = more'.length + 1 ∧
        Form c.toNat ((b :: more').map UInt8.toNat) := by
    obtain ⟨hc, hn⟩ := Prod.mk.inj h
    refine ⟨more, behind, rfl, hn.symm, ?_⟩
    rwa [← Option.some.inj hc, toNat_ofNat_of_valid hv]
  unfold readChar at h
  simp only [UInt8.lt_iff_toNat_lt, UInt8.reduceToNat] at h
  split at h
  · exact hread _ [] rest h (by omega) (by simp [Form]; omega)
  split at h
  · simp at h
  split at h
  · -- Two bytes.
    split at h
    · next d behind =>
      split at h
      · next hcont =>
        rw [isContinuation_iff] at hcont
        unfold low at h
        exact hread _ [d] behind h (by omega) (by simp only [Form, List.map_cons, List.map_nil]; omega)
      · simp at h
    · simp at h
  split at h
  · -- Three bytes, of which the second may not be any continuation.
    split at h
    · next d e behind =>
      split at h
      · simp at h
      split at h
      · simp at h
      next hsecond hcont =>
      rw [Bool.not_eq_true, Bool.not_eq_false', isSecond_iff] at hsecond
      rw [Bool.not_eq_true, Bool.not_eq_false', isContinuation_iff] at hcont
      unfold low at h
      exact hread _ [d, e] behind h (by omega) (by simp only [Form, List.map_cons, List.map_nil]; omega)
    · simp at h
    · simp at h
  split at h
  · -- Four bytes.
    split at h
    · next d e f behind =>
      split at h
      · simp at h
      split at h
      · simp at h
      split at h
      · simp at h
      next hsecond hthird hcont =>
      rw [Bool.not_eq_true, Bool.not_eq_false', isSecond_iff] at hsecond
      rw [Bool.not_eq_true, Bool.not_eq_false', isContinuation_iff] at hthird hcont
      unfold low at h
      exact hread _ [d, e, f] behind h (by omega) (by simp only [Form, List.map_cons, List.map_nil]; omega)
    · simp at h
    · simp at h
    · simp at h
  · simp at h

theorem decodeUnits_encode (text : List Char) : decodeUnits (encode text) = text.map some := by
  induction text with
  | nil => rw [encode, List.flatMap_nil, decodeUnits, List.map_nil]
  | cons c text ih =>
    have hform := form_utf8EncodeChar c
    rw [encode, List.flatMap_cons]
    cases hbytes : String.utf8EncodeChar c with
    | nil =>
      rw [hbytes] at hform
      exact hform.elim
    | cons b more =>
      rw [hbytes] at hform
      rw [List.cons_append, decodeUnits, readChar_of_form hform, List.map_cons, Nat.add_sub_cancel, List.drop_left]
      exact congrArg _ ih

theorem encode_of_decodeUnits {bytes : List UInt8} {text : List Char} (h : decodeUnits bytes = text.map some) :
    bytes = encode text := by
  induction text generalizing bytes with
  | nil =>
    cases bytes with
    | nil => rfl
    | cons b rest =>
      rw [decodeUnits] at h
      simp at h
  | cons c text ih =>
    cases bytes with
    | nil =>
      rw [decodeUnits] at h
      simp at h
    | cons b rest =>
      rw [decodeUnits, List.map_cons] at h
      obtain ⟨hchar, hrest⟩ := List.cons.inj h
      -- The first character takes the bytes of its form, and the rest is read on its own.
      obtain ⟨more, behind, rfl, hlength, hform⟩ := form_of_readChar (c := c) (n := (readChar b rest).2) (Prod.ext hchar rfl)
      rw [hlength, Nat.add_sub_cancel, List.drop_left] at hrest
      rw [ih hrest, encode, encode, List.flatMap_cons, utf8EncodeChar_eq hform, List.cons_append]

theorem mapM_id_eq_some {units : List (Option Char)} {text : List Char} :
    units.mapM id = some text ↔ units = text.map some := by
  induction units generalizing text with
  | nil => cases text <;> simp
  | cons unit rest ih =>
    cases unit with
    | none => cases text <;> simp
    | some c =>
      rw [List.mapM_cons]
      cases text with
      | nil => cases List.mapM id rest <;> simp
      | cons d text =>
        rw [List.map_cons, List.cons.injEq, ← ih]
        cases List.mapM id rest <;> simp

/-- **Strict reading.** A text is read from its UTF-8 form, and from no other bytes. -/
theorem decodeStrict?_eq_some_iff {bytes : List UInt8} {text : List Char} :
    decodeStrict? bytes = some text ↔ bytes = encode text := by
  rw [decodeStrict?, mapM_id_eq_some]
  constructor
  · exact encode_of_decodeUnits
  · rintro rfl
    exact decodeUnits_encode text

end Thumbnailer.Text
