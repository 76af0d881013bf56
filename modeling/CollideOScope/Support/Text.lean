import CollideOScope.Support.Words
import Mathlib.Data.List.Induction
import Mathlib.Tactic.IntervalCases

/-!
# Text and numerals as bytes

Strings are UTF-8 on the wire.  ASCII text has one byte a character, and a
decimal numeral is the digits of its number, possibly behind zeros.
-/

namespace CollideOScope

open List Nat

def utf8 (text : String) : Bytes := text.toByteArray.data.toList

def fromUtf8 (bytes : Bytes) : Option String := String.fromUTF8? ⟨bytes.toArray⟩

variable {text : String}

theorem fromUtf8_eq_some {bytes : Bytes} : fromUtf8 bytes = some text ↔ bytes = utf8 text := by
  constructor
  · intro h
    simp only [fromUtf8, String.fromUTF8?] at h
    split at h
    · have htext := Option.some.inj h
      subst htext
      rfl
    · cases h
  · rintro rfl
    have harray : (⟨(utf8 text).toArray⟩ : ByteArray) = text.toByteArray := by simp [utf8]
    rw [fromUtf8, harray, String.fromUTF8?, dif_pos text.isValidUTF8]
    rfl

theorem utf8_injective : Function.Injective utf8 := by
  intro a b h
  have ha : fromUtf8 (utf8 a) = some b := fromUtf8_eq_some.mpr h
  rw [fromUtf8_eq_some.mpr rfl] at ha
  exact Option.some.inj ha

theorem length_utf8 (text : String) : (utf8 text).length = text.utf8ByteSize := rfl

theorem utf8_ofList (text : List Char) :
    utf8 (.ofList text) = text.flatMap String.utf8EncodeChar := by
  simp [utf8, utf8Encode]

def isAscii (c : Char) : Bool := c.toNat < 128

variable {c : Char}

theorem utf8EncodeChar_of_isAscii (h : isAscii c) :
    String.utf8EncodeChar c = [UInt8.ofNat c.toNat] := by
  have hval : c.val ≤ 127 := by
    rw [UInt32.le_iff_toNat_le]
    simp only [isAscii, decide_eq_true_eq] at h
    exact Nat.lt_succ_iff.mp h
  rw [String.utf8EncodeChar_eq_singleton (Char.utf8Size_eq_one_iff.mpr hval)]
  rfl

theorem utf8_of_ascii (h : text.toList.all isAscii) :
    utf8 text = text.toList.map fun c => UInt8.ofNat c.toNat := by
  have hofList : utf8 text = text.toList.flatMap String.utf8EncodeChar := by
    rw [← utf8_ofList, String.ofList_toList]
  rw [hofList]
  rw [all_eq_true] at h
  generalize text.toList = cs at h
  induction cs with
  | nil => rfl
  | cons c cs ih =>
    rw [flatMap_cons, map_cons, utf8EncodeChar_of_isAscii (h c mem_cons_self),
      ih fun c' hc' => h c' (mem_cons_of_mem _ hc')]
    rfl

theorem utf8ByteSize_of_ascii (h : text.toList.all isAscii) :
    text.utf8ByteSize = text.toList.length := by
  rw [← length_utf8, utf8_of_ascii h, length_map]

theorem zero_notMem_utf8 (h : text.toList.all isAscii)
    (hnull : Char.ofNat 0 ∉ text.toList) : (0 : UInt8) ∉ utf8 text := by
  rw [utf8_of_ascii h, mem_map]
  rintro ⟨c, hc, hzero⟩
  have hascii := all_eq_true.mp h c hc
  simp only [isAscii, decide_eq_true_eq] at hascii
  have hnat : c.toNat = 0 := by
    have := congrArg UInt8.toNat hzero
    rw [UInt8.toNat_ofNat', mod_eq_of_lt (by omega)] at this
    exact this
  rw [← Char.ofNat_toNat c, hnat] at hc
  exact hnull hc

/-- A decimal numeral of `n`, possibly with leading zeros. -/
def IsNumeral (n : ℕ) (text : List Char) : Prop :=
  ∃ zeros, text = replicate zeros '0' ++ toDigits 10 n

theorem isNumeral_toDigits (n : ℕ) : IsNumeral n (toDigits 10 n) := ⟨0, rfl⟩

variable {text : List Char} {n : ℕ}

theorem IsNumeral.value (h : IsNumeral n text) : Nat.ofDigitChars 10 text 0 = n := by
  obtain ⟨zeros, rfl⟩ := h
  rw [ofDigitChars_append, ofDigitChars_replicate_zero, mul_zero, ofDigitChars_ten_toDigits]

theorem IsNumeral.isDigit (h : IsNumeral n text) : text.all Char.isDigit := by
  obtain ⟨zeros, rfl⟩ := h
  rw [all_eq_true]
  intro c hc
  rcases mem_append.mp hc with hc | hc
  · rw [(mem_replicate.mp hc).2]
    rfl
  · exact isDigit_of_mem_toDigits (by decide) (by decide) hc

theorem IsNumeral.ne_nil (h : IsNumeral n text) : text ≠ [] := by
  obtain ⟨zeros, rfl⟩ := h
  simp

theorem isDigit_bounds (h : c.isDigit) : 48 ≤ c.toNat ∧ c.toNat ≤ 57 := by
  simp only [Char.isDigit, Bool.and_eq_true, decide_eq_true_eq, UInt32.le_iff_toNat_le] at h
  exact h

theorem digitChar_sub (h : c.isDigit) : digitChar (c.toNat - 48) = c := by
  obtain ⟨hlow, hhigh⟩ := isDigit_bounds h
  rw [← Char.ofNat_toNat c]
  generalize c.toNat = n at hlow hhigh
  interval_cases n <;> rfl

theorem isNumeral_of_isDigit (hne : text ≠ []) (hdigits : text.all Char.isDigit)
    : IsNumeral (Nat.ofDigitChars 10 text 0) text := by
  induction text using reverseRecOn with
  | nil => exact absurd rfl hne
  | append_singleton text c ih =>
    rw [all_append, Bool.and_eq_true] at hdigits
    obtain ⟨htext, hc⟩ := hdigits
    have hc : c.isDigit := by simpa using hc
    obtain ⟨hlow, hhigh⟩ := isDigit_bounds hc
    have hdigit : c.toNat - 48 < 10 := by omega
    have hval : ofDigitChars 10 (text ++ [c]) 0 = 10 * ofDigitChars 10 text 0 + (c.toNat - 48) := by
      rw [ofDigitChars_append, ofDigitChars_cons, ofDigitChars_nil]
      rfl
    have hlast : toDigits 10 (c.toNat - 48) = [c] := by
      rw [toDigits_of_lt_base hdigit, digitChar_sub hc]
    rw [hval]
    by_cases hemp : text = []
    · subst hemp
      refine ⟨0, ?_⟩
      rw [ofDigitChars_nil, mul_zero, zero_add, hlast]
      rfl
    · obtain ⟨zeros, hzeros⟩ := ih hemp htext
      rcases Nat.eq_zero_or_pos (Nat.ofDigitChars 10 text 0) with hzero | hpos
      · refine ⟨zeros + 1, ?_⟩
        rw [hzero, toDigits_zero] at hzeros
        rw [hzero, mul_zero, zero_add, hlast, hzeros, replicate_succ']
      · refine ⟨zeros, ?_⟩
        rw [← toDigits_append_toDigits (by decide) hpos hdigit, hlast, ← append_assoc, ← hzeros]

theorem head?_toDigits (h : n ≠ 0) : (toDigits 10 n).head? ≠ some '0' := by
  intro hhead
  obtain ⟨rest, hrest⟩ := head?_eq_some_iff.mp hhead
  have hval : ofDigitChars 10 rest 0 = n := by
    have hthis := (isNumeral_toDigits n).value
    rw [hrest, ofDigitChars_cons] at hthis
    exact hthis
  have hdigits := (isNumeral_toDigits n).isDigit
  rw [hrest, all_cons, Bool.and_eq_true] at hdigits
  have hne : rest ≠ [] := by
    rintro rfl
    exact h hval.symm
  obtain ⟨zeros, hzeros⟩ := isNumeral_of_isDigit hne hdigits.2
  have hlen := congrArg length hrest
  rw [hval] at hzeros
  rw [hzeros, length_cons, length_append] at hlen
  omega

theorem isAscii_of_isDigit (h : c.isDigit) : isAscii c := by
  obtain ⟨-, hhigh⟩ := isDigit_bounds h
  simp only [isAscii, decide_eq_true_eq]
  omega

end CollideOScope
