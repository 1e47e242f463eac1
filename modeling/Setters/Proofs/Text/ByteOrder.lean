import Mathlib.Data.String.Basic
import Mathlib.Tactic.SplitIfs

/-!
# The order of texts

Texts are ordered by their code points, `map_toNat_lt_iff`. `lt_iff_bytes_lt` says that this is
also the order of their UTF-8 bytes: a greater code point has a greater first byte, or the same
number of bytes and a greater one at the first place where they differ.

`lt_append` places a text before its extensions, which is where a mixin stands beside its setter.
-/

namespace Setters.Text

def bytes (text : String) : List UInt8 :=
  text.toByteArray.data.toList

theorem bytes_eq_flatMap (text : String) :
    bytes text = text.toList.flatMap String.utf8EncodeChar := by
  simp only [bytes, ← String.utf8Encode_toList, List.utf8Encode, List.data_toByteArray]

theorem mod_add_lt_byte {x m b : Nat} (hm : 0 < m) (h : m + b ≤ 256) :
    (x % m + b) % 256 = x % m + b := by
  have hx := Nat.mod_lt x hm
  exact Nat.mod_eq_of_lt (by omega)

/-- A number is less than another one when it is at the first place where their digits to the
base 64 differ. -/
theorem digits_lt {x y : Nat} (h : x < y) :
    x / 262144 < y / 262144 ∨ x / 262144 = y / 262144 ∧
      (x / 4096 % 64 < y / 4096 % 64 ∨ x / 4096 % 64 = y / 4096 % 64 ∧
        (x / 64 % 64 < y / 64 % 64 ∨ x / 64 % 64 = y / 64 % 64 ∧ x % 64 < y % 64)) := by
  have digits (n : Nat) :
      n = 262144 * (n / 262144) + 4096 * (n / 4096 % 64) + 64 * (n / 64 % 64) + n % 64 := by omega
  have hx := digits x
  have hy := digits y
  have hbound (n : Nat) : n % 64 < 64 := Nat.mod_lt n (by omega)
  have := hbound (x / 4096)
  have := hbound (x / 64)
  have := hbound x
  generalize x / 262144 = a at *
  generalize x / 4096 % 64 = b at *
  generalize x / 64 % 64 = c at *
  generalize x % 64 = d at *
  omega

/-- Whatever follows, the smaller code point has the smaller bytes: none is a prefix of the
other's. -/
theorem encodeChar_lt {c d : Char} (h : c < d) (cs ds : List UInt8) :
    String.utf8EncodeChar c ++ cs < String.utf8EncodeChar d ++ ds := by
  have hcd : c.toNat < d.toNat := h
  have hd : d.toNat < 0x110000 := by
    have hvalid := d.valid
    simp only [UInt32.isValidChar, Nat.isValidChar, Char.toNat_val] at hvalid
    omega
  have hdigits := digits_lt hcd
  have hc8 : c.toNat / 262144 % 8 = c.toNat / 262144 := Nat.mod_eq_of_lt (by omega)
  have hd8 : d.toNat / 262144 % 8 = d.toNat / 262144 := Nat.mod_eq_of_lt (by omega)
  simp only [String.utf8EncodeChar, Char.toNat_val]
  -- one case for each pair of byte counts; the first bytes decide when the counts differ
  split_ifs <;>
    simp [List.cons_lt_cons_iff, UInt8.lt_iff_toNat_lt, ← UInt8.toNat_inj, mod_add_lt_byte] <;>
    omega

theorem encodeChar_ne_nil (c : Char) : String.utf8EncodeChar c ≠ [] := by
  intro h
  have hlen := String.length_utf8EncodeChar c
  have hpos := c.utf8Size_pos
  rw [h, List.length_nil] at hlen
  omega

theorem nil_lt_encode (c : Char) (cs : List UInt8) : [] < String.utf8EncodeChar c ++ cs := by
  cases h : String.utf8EncodeChar c with
  | nil => exact absurd h (encodeChar_ne_nil c)
  | cons b bs => exact List.nil_lt_cons b (bs ++ cs)

theorem append_lt_append_iff (bs cs ds : List UInt8) : bs ++ cs < bs ++ ds ↔ cs < ds := by
  induction bs with
  | nil => rfl
  | cons b bs ih => simp only [List.cons_append, List.cons_lt_cons_iff, UInt8.lt_irrefl,
      true_and, false_or, ih]

theorem flatMap_encode_lt_iff (cs ds : List Char) :
    cs.flatMap String.utf8EncodeChar < ds.flatMap String.utf8EncodeChar ↔ cs < ds := by
  induction cs generalizing ds with
  | nil =>
    cases ds with
    | nil => simp
    | cons d ds => simp [nil_lt_encode]
  | cons c cs ih =>
    cases ds with
    | nil => simp
    | cons d ds =>
      simp only [List.flatMap_cons, List.cons_lt_cons_iff]
      rcases lt_trichotomy c d with hlt | rfl | hgt
      · simp [hlt, encodeChar_lt hlt]
      · rw [append_lt_append_iff, ih]
        simp
      · have hback := encodeChar_lt hgt (ds.flatMap String.utf8EncodeChar)
          (cs.flatMap String.utf8EncodeChar)
        simp [not_lt_of_gt hgt, ne_of_gt hgt, List.lt_asymm hback]

/-- The order of texts is the lexicographic order of their UTF-8 bytes. -/
theorem lt_iff_bytes_lt (s t : String) : s < t ↔ bytes s < bytes t := by
  rw [bytes_eq_flatMap, bytes_eq_flatMap, flatMap_encode_lt_iff]
  exact Iff.rfl

theorem le_iff_bytes_le (s t : String) : s ≤ t ↔ bytes s ≤ bytes t := by
  rw [← String.not_lt, ← List.not_lt, lt_iff_bytes_lt]

def codePoints (text : String) : List Nat :=
  text.toList.map Char.toNat

theorem map_toNat_lt_iff (cs ds : List Char) :
    cs.map Char.toNat < ds.map Char.toNat ↔ cs < ds := by
  induction cs generalizing ds with
  | nil =>
    cases ds with
    | nil => simp
    | cons d ds => simp
  | cons c cs ih =>
    cases ds with
    | nil => simp
    | cons d ds =>
      have hlt : c.toNat < d.toNat ↔ c < d := Iff.rfl
      have heq : c.toNat = d.toNat ↔ c = d := Char.toNat_inj
      simp only [List.map_cons, List.cons_lt_cons_iff, hlt, heq, ih]

/-- Bytes order texts as code points do. -/
theorem bytes_lt_iff_codePoints_lt (s t : String) :
    bytes s < bytes t ↔ codePoints s < codePoints t := by
  rw [← lt_iff_bytes_lt, codePoints, codePoints, map_toNat_lt_iff]
  exact Iff.rfl

theorem list_lt_append (cs : List Char) {ds : List Char} (h : ds ≠ []) : cs < cs ++ ds := by
  induction cs with
  | nil =>
    cases ds with
    | nil => exact absurd rfl h
    | cons d ds => exact List.nil_lt_cons d ds
  | cons c cs ih => exact List.cons_lt_cons_iff.mpr (.inr ⟨rfl, ih⟩)

/-- A text comes before what extends it. -/
theorem lt_append (s : String) {t : String} (h : t ≠ "") : s < s ++ t := by
  show s.toList < (s ++ t).toList
  rw [String.toList_append]
  exact list_lt_append s.toList fun hnil => h (String.toList_eq_nil_iff.mp hnil)

end Setters.Text
