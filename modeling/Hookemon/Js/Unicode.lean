import Hookemon.Core.Words
import Hookemon.Js.Text

/-! # UTF-16 and UTF-8

A text is decoded into code points, a surrogate without its pair as the replacement
character, and the code points are encoded into bytes. Only texts whose surrogates are
all paired can be told apart by their bytes.
-/

namespace Hookemon.Js

open Hookemon.Core

def isLead (c : UInt16) : Bool := 0xD800 ≤ c.toNat && c.toNat ≤ 0xDBFF

def isTrail (c : UInt16) : Bool := 0xDC00 ≤ c.toNat && c.toNat ≤ 0xDFFF

/-- The code point of a unit on its own. -/
def unitChar (c : UInt16) : Char :=
  if isLead c || isTrail c then Char.ofNat 0xFFFD else Char.ofNat c.toNat

/-- The code point of a surrogate pair. -/
def pairChar (c d : UInt16) : Char :=
  Char.ofNat (0x10000 + (c.toNat - 0xD800) * 0x400 + (d.toNat - 0xDC00))

/-- The code points of a text. -/
def codePoints : Text → List Char
  | [] => []
  | [c] => [unitChar c]
  | c :: d :: rest =>
    if isLead c && isTrail d then pairChar c d :: codePoints rest
    else unitChar c :: codePoints (d :: rest)

/-- The bytes of a text, as `Buffer.from` and `update` take them. -/
def utf8 (s : Text) : Bytes := (codePoints s).flatMap String.utf8EncodeChar

/-- `Buffer.byteLength(s, 'utf8')`. -/
def byteLength (s : Text) : Nat := (utf8 s).length

theorem ofNat_valid {n : Nat} (h : n.isValidChar) : (Char.ofNat n).toNat = n := by
  rw [Char.ofNat, dif_pos h]
  rfl

/-! ## Texts of code points -/

/-- The units of a code point. -/
def utf16Char (ch : Char) : Text :=
  if ch.toNat < 0x10000 then [UInt16.ofNat ch.toNat]
  else [UInt16.ofNat (0xD800 + (ch.toNat - 0x10000) / 0x400),
    UInt16.ofNat (0xDC00 + (ch.toNat - 0x10000) % 0x400)]

/-- Every surrogate has its pair. -/
def WellFormed (s : Text) : Prop := ∃ cs : List Char, s = cs.flatMap utf16Char

namespace WellFormed

theorem nil : WellFormed [] := ⟨[], rfl⟩

theorem append {s t : Text} (hs : WellFormed s) (ht : WellFormed t) : WellFormed (s ++ t) := by
  obtain ⟨cs, rfl⟩ := hs
  obtain ⟨ds, rfl⟩ := ht
  exact ⟨cs ++ ds, by rw [List.flatMap_append]⟩

theorem single {c : UInt16} (hlead : isLead c = false) (htrail : isTrail c = false) :
    WellFormed [c] := by
  simp only [isLead, isTrail, Bool.and_eq_false_iff, decide_eq_false_iff_not] at hlead htrail
  have hlt := c.toNat_lt
  have hvalid : c.toNat.isValidChar := by
    unfold Nat.isValidChar
    omega
  have hvalue : (Char.ofNat c.toNat).toNat = c.toNat := ofNat_valid hvalid
  refine ⟨[Char.ofNat c.toNat], ?_⟩
  rw [List.flatMap_singleton, utf16Char, hvalue, if_pos hlt, UInt16.ofNat_toNat]

theorem ascii {c : UInt16} (h : c.toNat < 128) : WellFormed [c] := by
  refine single ?_ ?_
  · simp only [isLead, Bool.and_eq_false_iff, decide_eq_false_iff_not]
    omega
  · simp only [isTrail, Bool.and_eq_false_iff, decide_eq_false_iff_not]
    omega

theorem pair {c d : UInt16} (hlead : isLead c) (htrail : isTrail d) : WellFormed [c, d] := by
  simp only [isLead, isTrail, Bool.and_eq_true, decide_eq_true_eq] at hlead htrail
  have hvalid : (0x10000 + (c.toNat - 0xD800) * 0x400 + (d.toNat - 0xDC00)).isValidChar := by
    unfold Nat.isValidChar
    omega
  have hvalue : (pairChar c d).toNat = 0x10000 + (c.toNat - 0xD800) * 0x400 + (d.toNat - 0xDC00) :=
    ofNat_valid hvalid
  have hc : 0xD800 + ((pairChar c d).toNat - 0x10000) / 0x400 = c.toNat := by
    rw [hvalue]
    omega
  have hd : 0xDC00 + ((pairChar c d).toNat - 0x10000) % 0x400 = d.toNat := by
    rw [hvalue]
    omega
  refine ⟨[pairChar c d], ?_⟩
  rw [List.flatMap_singleton, utf16Char, if_neg (by omega), hc, hd, UInt16.ofNat_toNat,
    UInt16.ofNat_toNat]

theorem of_forall {s : Text} (h : ∀ c ∈ s, c.toNat < 128) : WellFormed s := by
  induction s with
  | nil => exact nil
  | cons c cs ih =>
    have hc : WellFormed [c] := ascii (h c (by simp))
    exact hc.append (ih fun d hd => h d (by simp [hd]))

/-- The same, for a text that is looked through. -/
theorem of_all {s : Text} (h : (s.all fun c => c.toNat < 128) = true) : WellFormed s :=
  of_forall fun c hc => by simpa using List.all_eq_true.mp h c hc

end WellFormed

/-! ## Decoding -/

theorem char_range (ch : Char) :
    ch.toNat < 0xD800 ∨ (0xDFFF < ch.toNat ∧ ch.toNat < 0x110000) := ch.valid

/-- A code point is decoded from its units, whatever follows them. -/
theorem codePoints_utf16Char (ch : Char) (rest : Text) :
    codePoints (utf16Char ch ++ rest) = ch :: codePoints rest := by
  have hrange := char_range ch
  by_cases hsmall : ch.toNat < 0x10000
  · have hunit : (UInt16.ofNat ch.toNat).toNat = ch.toNat := UInt16.toNat_ofNat_of_lt hsmall
    have hlead : isLead (UInt16.ofNat ch.toNat) = false := by
      simp only [isLead, hunit, Bool.and_eq_false_iff, decide_eq_false_iff_not]
      omega
    have htrail : isTrail (UInt16.ofNat ch.toNat) = false := by
      simp only [isTrail, hunit, Bool.and_eq_false_iff, decide_eq_false_iff_not]
      omega
    have hchar : unitChar (UInt16.ofNat ch.toNat) = ch := by
      simp [unitChar, hlead, htrail, hunit, Char.ofNat_toNat]
    rw [utf16Char, if_pos hsmall]
    cases rest with
    | nil => simp [codePoints, hchar]
    | cons d rest => simp [codePoints, hlead, hchar]
  · have hc : (UInt16.ofNat (0xD800 + (ch.toNat - 0x10000) / 0x400)).toNat
        = 0xD800 + (ch.toNat - 0x10000) / 0x400 :=
      UInt16.toNat_ofNat_of_lt (by show _ < 65536; omega)
    have hd : (UInt16.ofNat (0xDC00 + (ch.toNat - 0x10000) % 0x400)).toNat
        = 0xDC00 + (ch.toNat - 0x10000) % 0x400 :=
      UInt16.toNat_ofNat_of_lt (by show _ < 65536; omega)
    have hlead : isLead (UInt16.ofNat (0xD800 + (ch.toNat - 0x10000) / 0x400)) := by
      simp only [isLead, hc, Bool.and_eq_true, decide_eq_true_eq]
      omega
    have htrail : isTrail (UInt16.ofNat (0xDC00 + (ch.toNat - 0x10000) % 0x400)) := by
      simp only [isTrail, hd, Bool.and_eq_true, decide_eq_true_eq]
      omega
    have hchar : pairChar (UInt16.ofNat (0xD800 + (ch.toNat - 0x10000) / 0x400))
        (UInt16.ofNat (0xDC00 + (ch.toNat - 0x10000) % 0x400)) = ch := by
      have hvalue : 0x10000 + (0xD800 + (ch.toNat - 0x10000) / 0x400 - 0xD800) * 0x400
          + (0xDC00 + (ch.toNat - 0x10000) % 0x400 - 0xDC00) = ch.toNat := by omega
      rw [pairChar, hc, hd, hvalue, Char.ofNat_toNat]
    rw [utf16Char, if_neg hsmall, List.cons_append, List.singleton_append, codePoints,
      if_pos (by rw [hlead, htrail]; rfl), hchar]

theorem codePoints_flatMap (cs : List Char) : codePoints (cs.flatMap utf16Char) = cs := by
  induction cs with
  | nil => rfl
  | cons ch cs ih => rw [List.flatMap_cons, codePoints_utf16Char, ih]

/-! ## Encoding -/

theorem utf8EncodeChar_injective {cs ds : List Char}
    (h : cs.flatMap String.utf8EncodeChar = ds.flatMap String.utf8EncodeChar) : cs = ds := by
  apply String.ofList_injective
  have hbytes : cs.utf8Encode = ds.utf8Encode := by rw [List.utf8Encode, h, List.utf8Encode]
  simp only [String.ofList, hbytes]

/-- Texts with paired surrogates are told apart by their bytes. -/
theorem utf8_inj {s t : Text} (hs : WellFormed s) (ht : WellFormed t) (h : utf8 s = utf8 t) :
    s = t := by
  obtain ⟨cs, rfl⟩ := hs
  obtain ⟨ds, rfl⟩ := ht
  have hpoints := utf8EncodeChar_injective h
  rw [codePoints_flatMap, codePoints_flatMap] at hpoints
  rw [hpoints]

/-! ## Sizes -/

theorem unitChar_lt (c : UInt16) : (unitChar c).toNat < 0x10000 := by
  have hc := c.toNat_lt
  unfold unitChar
  split
  · decide
  · rw [Char.ofNat]
    split
    · exact hc
    · decide

theorem utf8EncodeChar_length {ch : Char} (h : ch.toNat < 0x10000) :
    (String.utf8EncodeChar ch).length ≤ 3 := by
  rw [String.length_utf8EncodeChar]
  have hval : ch.val ≤ 0xffff := by
    rw [UInt32.le_iff_toNat_le]
    exact Nat.le_of_lt_succ h
  rcases Char.utf8Size_eq ch with hsize | hsize | hsize | hsize
  · omega
  · omega
  · omega
  · exact absurd (Char.utf8Size_eq_four_iff.mp hsize) (UInt32.not_lt.mpr hval)

/-- A unit takes at most three bytes. -/
theorem byteLength_le (s : Text) : byteLength s ≤ 3 * s.length := by
  unfold byteLength utf8
  induction s using codePoints.induct with
  | case1 => simp [codePoints]
  | case2 c =>
    have hc := utf8EncodeChar_length (unitChar_lt c)
    simpa [codePoints] using hc
  | case3 c d rest hpair ih =>
    have hchar : (String.utf8EncodeChar (pairChar c d)).length ≤ 4 := by
      rw [String.length_utf8EncodeChar]
      exact Char.utf8Size_le_four _
    rw [codePoints, if_pos hpair, List.flatMap_cons, List.length_append]
    simp only [List.length_cons]
    omega
  | case4 c d rest hpair ih =>
    have hc := utf8EncodeChar_length (unitChar_lt c)
    rw [codePoints, if_neg hpair, List.flatMap_cons, List.length_append]
    simp only [List.length_cons] at ih ⊢
    omega

end Hookemon.Js
