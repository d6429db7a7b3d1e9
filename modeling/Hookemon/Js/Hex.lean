import Hookemon.Core.Words
import Hookemon.Js.Text

/-! # Hexadecimal texts of bytes

Bytes are written as two lower-case digits each. Reading takes digits of either case,
so it is the inverse of writing up to the case of the letters.
-/

namespace Hookemon.Js

open Hookemon.Core

/-! ## Digits -/

def hexUnit (d : Nat) : UInt16 := UInt16.ofNat (if d < 10 then 48 + d else 87 + d)

/-- The value of a hexadecimal digit. -/
def unitHex (c : UInt16) : Nat :=
  if c.toNat ≤ 57 then c.toNat - 48 else if c.toNat ≤ 70 then c.toNat - 55 else c.toNat - 87

/-- One unit of `toLowerCase`. -/
def lowerUnit (c : UInt16) : UInt16 := if 65 ≤ c.toNat ∧ c.toNat ≤ 90 then c + 32 else c

theorem toLowerCase_eq (s : Text) : toLowerCase s = s.map lowerUnit := rfl

theorem hexUnit_toNat {d : Nat} (hd : d < 16) :
    (hexUnit d).toNat = if d < 10 then 48 + d else 87 + d := by
  rw [hexUnit, UInt16.toNat_ofNat']
  apply Nat.mod_eq_of_lt
  split <;> omega

theorem isHexDigit_iff {c : UInt16} :
    isHexDigit c ↔ (48 ≤ c.toNat ∧ c.toNat ≤ 57) ∨ (97 ≤ c.toNat ∧ c.toNat ≤ 102) ∨
      (65 ≤ c.toNat ∧ c.toNat ≤ 70) := by
  simp [isHexDigit, isLowerHexDigit, isDigit, or_assoc]

theorem isLowerHexDigit_iff {c : UInt16} :
    isLowerHexDigit c ↔ (48 ≤ c.toNat ∧ c.toNat ≤ 57) ∨ (97 ≤ c.toNat ∧ c.toNat ≤ 102) := by
  simp [isLowerHexDigit, isDigit]

theorem isHexDigit_of_lower {c : UInt16} (h : isLowerHexDigit c) : isHexDigit c := by
  simp [isHexDigit, h]

theorem isLowerHexDigit_hexUnit {d : Nat} (hd : d < 16) : isLowerHexDigit (hexUnit d) := by
  rw [isLowerHexDigit_iff, hexUnit_toNat hd]
  split <;> omega

theorem unitHex_lt {c : UInt16} (hc : isHexDigit c) : unitHex c < 16 := by
  rcases isHexDigit_iff.mp hc with h | h | h <;> unfold unitHex <;> split_ifs <;> omega

theorem unitHex_hexUnit {d : Nat} (hd : d < 16) : unitHex (hexUnit d) = d := by
  rw [unitHex, hexUnit_toNat hd]
  split_ifs <;> omega

theorem lowerUnit_toNat {c : UInt16} (hc : isHexDigit c) :
    (lowerUnit c).toNat = if 65 ≤ c.toNat ∧ c.toNat ≤ 90 then c.toNat + 32 else c.toNat := by
  unfold lowerUnit
  split
  · have h32 : (32 : UInt16).toNat = 32 := rfl
    rw [UInt16.toNat_add, h32]
    exact Nat.mod_eq_of_lt (by rcases isHexDigit_iff.mp hc with h | h | h <;> omega)
  · rfl

/-- Writing the value of a digit gives the digit in lower case. -/
theorem hexUnit_unitHex {c : UInt16} (hc : isHexDigit c) : hexUnit (unitHex c) = lowerUnit c := by
  apply UInt16.toNat.inj
  rw [hexUnit_toNat (unitHex_lt hc), lowerUnit_toNat hc]
  rcases isHexDigit_iff.mp hc with h | h | h <;> unfold unitHex <;> split_ifs <;> omega

theorem lowerUnit_of_lower {c : UInt16} (hc : isLowerHexDigit c) : lowerUnit c = c := by
  apply UInt16.toNat.inj
  rw [lowerUnit_toNat (isHexDigit_of_lower hc)]
  rcases isLowerHexDigit_iff.mp hc with h | h <;> split_ifs <;> omega

theorem isLowerHexDigit_lowerUnit {c : UInt16} (hc : isHexDigit c) :
    isLowerHexDigit (lowerUnit c) := by
  rw [← hexUnit_unitHex hc]
  exact isLowerHexDigit_hexUnit (unitHex_lt hc)

theorem toLowerCase_of_lower {s : Text} (h : ∀ c ∈ s, isLowerHexDigit c) : toLowerCase s = s := by
  rw [toLowerCase_eq]
  exact (List.map_congr_left fun c hc => lowerUnit_of_lower (h c hc)).trans (List.map_id' s)

/-! ## Bytes -/

/-- The two digits of a byte. -/
def byteHex (b : UInt8) : Text := [hexUnit (b.toNat / 16), hexUnit (b.toNat % 16)]

/-- The digits of some bytes. -/
def hexOfBytes (bs : Bytes) : Text := bs.flatMap byteHex

/-- The bytes of some digits, two by two. -/
def bytesOfHex : Text → Bytes
  | c :: c' :: cs => UInt8.ofNat (unitHex c * 16 + unitHex c') :: bytesOfHex cs
  | _ => []

/-- `bytesToHex`. -/
def bytesToHex (bs : Bytes) : Text := text "0x" ++ hexOfBytes bs

@[simp] theorem hexOfBytes_length (bs : Bytes) : (hexOfBytes bs).length = 2 * bs.length := by
  induction bs with
  | nil => rfl
  | cons b bs ih =>
    simp only [hexOfBytes, List.flatMap_cons, byteHex, List.length_append, List.length_cons,
      List.length_nil] at ih ⊢
    omega

theorem hexOfBytes_lower (bs : Bytes) : ∀ c ∈ hexOfBytes bs, isLowerHexDigit c := by
  intro c hc
  obtain ⟨b, -, hb⟩ := List.mem_flatMap.mp hc
  have hlt := b.toNat_lt
  rcases List.mem_cons.mp hb with rfl | hlow
  · exact isLowerHexDigit_hexUnit (by omega)
  · rw [List.mem_singleton.mp hlow]
    exact isLowerHexDigit_hexUnit (by omega)

/-- Reading what was written. -/
@[simp] theorem bytesOfHex_hexOfBytes (bs : Bytes) : bytesOfHex (hexOfBytes bs) = bs := by
  induction bs with
  | nil => rfl
  | cons b bs ih =>
    have hlt := b.toNat_lt
    have hbyte : b.toNat / 16 * 16 + b.toNat % 16 = b.toNat := by omega
    show bytesOfHex (hexUnit _ :: hexUnit _ :: hexOfBytes bs) = _
    rw [bytesOfHex, unitHex_hexUnit (by omega), unitHex_hexUnit (by omega), ih, hbyte,
      UInt8.ofNat_toNat]

/-- Writing what was read gives the digits in lower case. -/
theorem hexOfBytes_bytesOfHex : ∀ {s : Text}, (∀ c ∈ s, isHexDigit c) → s.length % 2 = 0 →
    hexOfBytes (bytesOfHex s) = toLowerCase s := by
  intro s
  induction s using bytesOfHex.induct with
  | case1 c c' cs ih =>
    intro hdigits heven
    have hc : isHexDigit c := hdigits c (by simp)
    have hc' : isHexDigit c' := hdigits c' (by simp)
    have hlt := unitHex_lt hc
    have hlt' := unitHex_lt hc'
    have hrest := ih (fun d hd => hdigits d (by simp [hd])) (by simp at heven; omega)
    have hbyte : (UInt8.ofNat (unitHex c * 16 + unitHex c')).toNat
        = unitHex c * 16 + unitHex c' := by
      rw [UInt8.toNat_ofNat']
      exact Nat.mod_eq_of_lt (by omega)
    have hhigh : (unitHex c * 16 + unitHex c') / 16 = unitHex c := by omega
    have hlow : (unitHex c * 16 + unitHex c') % 16 = unitHex c' := by omega
    show byteHex _ ++ hexOfBytes (bytesOfHex cs) = _
    rw [hrest, byteHex, hbyte, hhigh, hlow, hexUnit_unitHex hc, hexUnit_unitHex hc']
    rfl
  | case2 s hshort =>
    intro _ heven
    cases s with
    | nil => rfl
    | cons c cs =>
      cases cs with
      | nil => simp at heven
      | cons c' cs => exact absurd rfl (hshort c c' cs)

@[simp] theorem bytesOfHex_length : ∀ {s : Text}, s.length % 2 = 0 →
    2 * (bytesOfHex s).length = s.length := by
  intro s
  induction s using bytesOfHex.induct with
  | case1 c c' cs ih =>
    intro heven
    have hrest := ih (by simp at heven; omega)
    simp only [bytesOfHex, List.length_cons]
    omega
  | case2 s hshort =>
    intro heven
    cases s with
    | nil => rfl
    | cons c cs =>
      cases cs with
      | nil => simp at heven
      | cons c' cs => exact absurd rfl (hshort c c' cs)

/-- The case of the letters does not matter for the bytes. -/
theorem bytesOfHex_toLowerCase {s : Text} (h : ∀ c ∈ s, isHexDigit c) (heven : s.length % 2 = 0) :
    bytesOfHex (toLowerCase s) = bytesOfHex s := by
  rw [← hexOfBytes_bytesOfHex h heven, bytesOfHex_hexOfBytes]

theorem hexOfBytes_injective : Function.Injective hexOfBytes :=
  Function.LeftInverse.injective bytesOfHex_hexOfBytes

end Hookemon.Js
