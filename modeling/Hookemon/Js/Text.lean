import Hookemon.Core.Checked
import Hookemon.Core.Numerals

/-! # Texts of the JavaScript programs

A string is the list of its UTF-16 code units, as `length`, `<` and `sort` see it.
The patterns that the programs test their strings against are decidable predicates
here. Decimal numerals are the ones that `BigInt.prototype.toString` writes and
`BigInt` reads back.
-/

namespace Hookemon.Js

open Hookemon.Core

/-- A string: its UTF-16 code units. -/
abbrev Text := List UInt16

/-- A string literal of the source. The literals are ASCII. -/
def text (s : String) : Text := s.toList.map fun c => UInt16.ofNat c.toNat

instance instLinearOrderUnit : LinearOrder UInt16 where
  le_refl _ := UInt16.le_refl _
  le_trans _ _ _ := UInt16.le_trans
  le_antisymm _ _ := UInt16.le_antisymm
  le_total := UInt16.le_total
  lt_iff_le_not_ge _ _ := by
    rw [UInt16.not_le]
    exact ⟨fun h => ⟨UInt16.le_of_lt h, h⟩, fun h => h.2⟩
  toDecidableLE := inferInstance

/-- `===` of strings. -/
instance instLawfulBEqText : LawfulBEq Text := List.instLawfulBEq

/-- `if (c) throw new Error(message);`. -/
abbrev throwIf (c : Prop) [Decidable c] (message : String) : Except String Unit :=
  revertIf c message

theorem throwIf_of_not {c : Prop} [Decidable c] {message : String} (h : ¬ c) :
    throwIf c message = .ok () :=
  revertIf_of_not h

/-! ## Patterns -/

/-- `[0-9]`. -/
def isDigit (c : UInt16) : Bool := 48 ≤ c.toNat && c.toNat ≤ 57

/-- `[0-9a-f]`. -/
def isLowerHexDigit (c : UInt16) : Bool := isDigit c || (97 ≤ c.toNat && c.toNat ≤ 102)

/-- `[0-9a-fA-F]`. -/
def isHexDigit (c : UInt16) : Bool := isLowerHexDigit c || (65 ≤ c.toNat && c.toNat ≤ 70)

/-- `^<lead><digit>{n}$`. -/
def hasShape (lead : Text) (digit : UInt16 → Bool) (n : Nat) (s : Text) : Bool :=
  s.take lead.length == lead && (s.drop lead.length).length == n && (s.drop lead.length).all digit

/-- `[A-Za-z0-9]`. -/
def isAlphanumeric (c : UInt16) : Bool :=
  isDigit c || (65 ≤ c.toNat && c.toNat ≤ 90) || (97 ≤ c.toNat && c.toNat ≤ 122)

/-- `^[A-Za-z0-9][A-Za-z0-9:._-]{1,127}$`. -/
def isIdentifier (s : Text) : Bool :=
  match s with
  | [] => false
  | c :: cs =>
    isAlphanumeric c && 1 ≤ cs.length && cs.length ≤ 127 &&
      cs.all fun c => isAlphanumeric c || c = 58 || c = 46 || c = 95 || c = 45

/-- `toLowerCase` of an ASCII text. -/
def toLowerCase (s : Text) : Text :=
  s.map fun c => if 65 ≤ c.toNat ∧ c.toNat ≤ 90 then c + 32 else c

/-! ## Decimal numerals -/

def digitUnit (d : Nat) : UInt16 := UInt16.ofNat (48 + d)

def unitDigit (c : UInt16) : Nat := c.toNat - 48

/-- `^(?:0|[1-9][0-9]*)$`. -/
def isDecimal : Text → Bool
  | [] => false
  | c :: cs => if c.toNat = 48 then cs.isEmpty else isDigit c && cs.all isDigit

/-- `toString` of a natural number. -/
def natText (n : Nat) : Text := (numeral 10 n).map digitUnit

/-- `BigInt` of a decimal numeral. -/
def textNat (s : Text) : Nat := ofDigitsBE 10 (s.map unitDigit)

theorem digitUnit_toNat {d : Nat} (hd : d < 10) : (digitUnit d).toNat = 48 + d := by
  rw [digitUnit, UInt16.toNat_ofNat']
  exact Nat.mod_eq_of_lt (by omega)

theorem unitDigit_digitUnit {d : Nat} (hd : d < 10) : unitDigit (digitUnit d) = d := by
  rw [unitDigit, digitUnit_toNat hd]
  omega

theorem digitUnit_unitDigit {c : UInt16} (hc : isDigit c) : digitUnit (unitDigit c) = c := by
  have hrange : 48 ≤ c.toNat ∧ c.toNat ≤ 57 := by simpa [isDigit] using hc
  apply UInt16.toNat.inj
  rw [digitUnit_toNat (by unfold unitDigit; omega), unitDigit]
  omega

theorem unitDigit_lt {c : UInt16} (hc : isDigit c) : unitDigit c < 10 := by
  have hrange : 48 ≤ c.toNat ∧ c.toNat ≤ 57 := by simpa [isDigit] using hc
  unfold unitDigit
  omega

theorem isDigit_digitUnit {d : Nat} (hd : d < 10) : isDigit (digitUnit d) := by
  simp only [isDigit, digitUnit_toNat hd, Bool.and_eq_true, decide_eq_true_eq]
  omega

theorem isDecimal_digits {s : Text} (h : isDecimal s) : ∀ c ∈ s, isDigit c := by
  cases s with
  | nil => simp
  | cons c cs =>
    intro u hu
    by_cases h0 : c.toNat = 48
    · have hnil : cs = [] := by simpa [isDecimal, h0] using h
      have huc : u = c := by simpa [hnil] using hu
      simp [huc, isDigit, h0]
    · have hall : isDigit c = true ∧ ∀ x ∈ cs, isDigit x = true := by
        simpa [isDecimal, h0] using h
      rcases List.mem_cons.mp hu with rfl | hmem
      · exact hall.1
      · exact hall.2 u hmem

/-- The digits of a decimal numeral are a numeral in base ten. -/
theorem isDecimal_isNumeral {s : Text} (h : isDecimal s) : IsNumeral 10 (s.map unitDigit) := by
  have hdigits := isDecimal_digits h
  refine ⟨fun hnil => ?_, fun d hd => ?_, fun ds h0 => ?_⟩
  · simp [List.map_eq_nil_iff.mp hnil, isDecimal] at h
  · obtain ⟨c, hc, rfl⟩ := List.mem_map.mp hd
    exact unitDigit_lt (hdigits c hc)
  · cases s with
    | nil => simp at h0
    | cons c cs =>
      obtain ⟨hc, rfl⟩ := List.cons.inj h0
      have hrange : 48 ≤ c.toNat ∧ c.toNat ≤ 57 := by simpa [isDigit] using hdigits c (by simp)
      have h48 : c.toNat = 48 := by unfold unitDigit at hc; omega
      simpa [isDecimal, h48] using h

/-- `BigInt(String(n))` is `n`. -/
@[simp] theorem textNat_natText (n : Nat) : textNat (natText n) = n := by
  rw [textNat, natText, List.map_map, List.map_congr_left (g := id), List.map_id]
  · exact ofDigitsBE_numeral (by decide) n
  · intro d hd
    exact unitDigit_digitUnit (numeral_lt (by decide) hd)

/-- `String(BigInt(s))` is `s` for a decimal numeral. -/
theorem natText_textNat {s : Text} (h : isDecimal s) : natText (textNat s) = s := by
  rw [textNat, natText, numeral_ofDigitsBE (by decide) (isDecimal_isNumeral h), List.map_map,
    List.map_congr_left (g := id), List.map_id]
  intro c hc
  exact digitUnit_unitDigit (isDecimal_digits h c hc)

theorem isDecimal_natText (n : Nat) : isDecimal (natText n) := by
  have hnum := numeral_isNumeral (b := 10) (by decide) n
  obtain ⟨d, ds, hds⟩ := List.exists_cons_of_ne_nil hnum.ne_nil
  have hd : d < 10 := hnum.digit_lt d (by simp [hds])
  rw [natText, hds, List.map_cons]
  by_cases h0 : d = 0
  · subst h0
    simp [isDecimal, hnum.head_ne ds hds, digitUnit]
  · have hne : (digitUnit d).toNat ≠ 48 := by
      rw [digitUnit_toNat hd]
      omega
    simp only [isDecimal, hne, if_false, isDigit_digitUnit hd, Bool.true_and, List.all_map,
      List.all_eq_true, Function.comp_apply]
    intro e he
    exact isDigit_digitUnit (hnum.digit_lt e (by simp [hds, he]))

theorem natText_injective : Function.Injective natText :=
  Function.LeftInverse.injective textNat_natText

theorem textNat_inj {s t : Text} (hs : isDecimal s) (ht : isDecimal t)
    (h : textNat s = textNat t) : s = t := by
  rw [← natText_textNat hs, h, natText_textNat ht]

theorem natText_length (n : Nat) : (natText n).length = Nat.log 10 n + 1 := by
  rw [natText, List.length_map, numeral_length]

theorem natText_length_le {n k : Nat} (hk : 0 < k) (h : n < 10 ^ k) : (natText n).length ≤ k := by
  rw [natText_length]
  by_cases hzero : n = 0
  · rw [hzero, Nat.log_zero_right]
    exact hk
  · exact Nat.log_lt_of_lt_pow hzero h

/-- A decimal numeral is no longer than its value allows. -/
theorem isDecimal_length_le {s : Text} {k : Nat} (h : isDecimal s) (hk : 0 < k)
    (hvalue : textNat s < 10 ^ k) : s.length ≤ k := by
  have hlength := natText_length_le hk hvalue
  rwa [natText_textNat h] at hlength

end Hookemon.Js
