import Hookemon.Core.Words
import Hookemon.Js.Text

/-! # Base64

`buffer.toString('base64')` and `Buffer.from(text, 'base64')`. Three bytes are four
sextets, and the last group is padded. Reading takes both alphabets, passes over every
other unit, and ends at the first padding unit.
-/

namespace Hookemon.Js

open Hookemon.Core

/-! ## Sextets -/

/-- `A-Za-z0-9+/`. -/
def base64Unit (d : Nat) : UInt16 :=
  UInt16.ofNat (if d < 26 then 65 + d else if d < 52 then 71 + d else if d < 62 then d - 4
    else if d = 62 then 43 else 47)

/-- The sextet of a unit of either alphabet. -/
def unitSextet (c : UInt16) : Option Nat :=
  let n := c.toNat
  if 65 ≤ n ∧ n ≤ 90 then some (n - 65)
  else if 97 ≤ n ∧ n ≤ 122 then some (n - 71)
  else if 48 ≤ n ∧ n ≤ 57 then some (n + 4)
  else if n = 43 ∨ n = 45 then some 62
  else if n = 47 ∨ n = 95 then some 63
  else none

/-- The sextets of some bytes. -/
def sextets : Bytes → List Nat
  | [] => []
  | [a] => [a.toNat / 4, a.toNat % 4 * 16]
  | [a, b] => [a.toNat / 4, a.toNat % 4 * 16 + b.toNat / 16, b.toNat % 16 * 4]
  | a :: b :: c :: rest =>
    a.toNat / 4 :: (a.toNat % 4 * 16 + b.toNat / 16) :: (b.toNat % 16 * 4 + c.toNat / 64) ::
      c.toNat % 64 :: sextets rest

/-- The bytes of some sextets. Bits that fill no byte are dropped. -/
def sextetBytes : List Nat → Bytes
  | p :: q :: r :: s :: rest =>
    UInt8.ofNat (p * 4 + q / 16) :: UInt8.ofNat (q % 16 * 16 + r / 4) ::
      UInt8.ofNat (r % 4 * 64 + s) :: sextetBytes rest
  | [p, q, r] => [UInt8.ofNat (p * 4 + q / 16), UInt8.ofNat (q % 16 * 16 + r / 4)]
  | [p, q] => [UInt8.ofNat (p * 4 + q / 16)]
  | _ => []

/-! ## Texts -/

/-- `=`. -/
def base64Pad : UInt16 := 61

/-- `buffer.toString('base64')`. -/
def base64OfBytes (bs : Bytes) : Text :=
  (sextets bs).map base64Unit ++ List.replicate ((3 - bs.length % 3) % 3) base64Pad

/-- `Buffer.from(text, 'base64')`. -/
def bytesOfBase64 (s : Text) : Bytes :=
  sextetBytes ((s.takeWhile (· ≠ base64Pad)).filterMap unitSextet)

/-! ## Reading what was written -/

theorem base64Unit_toNat {d : Nat} (hd : d < 64) :
    (base64Unit d).toNat = if d < 26 then 65 + d else if d < 52 then 71 + d
      else if d < 62 then d - 4 else if d = 62 then 43 else 47 := by
  rw [base64Unit, UInt16.toNat_ofNat']
  apply Nat.mod_eq_of_lt
  split_ifs <;> omega

theorem unitSextet_base64Unit {d : Nat} (hd : d < 64) : unitSextet (base64Unit d) = some d := by
  rw [unitSextet, base64Unit_toNat hd]
  split_ifs <;> first | omega | (congr 1; omega)

theorem base64Unit_ne_pad {d : Nat} (hd : d < 64) : base64Unit d ≠ base64Pad := by
  intro h
  have hvalue := congrArg UInt16.toNat h
  rw [base64Unit_toNat hd, base64Pad] at hvalue
  have hpad : (61 : UInt16).toNat = 61 := rfl
  rw [hpad] at hvalue
  split_ifs at hvalue <;> omega

theorem sextets_lt (bs : Bytes) : ∀ d ∈ sextets bs, d < 64 := by
  induction bs using sextets.induct with
  | case1 => simp [sextets]
  | case2 a =>
    have ha := a.toNat_lt
    intro d hd
    simp only [sextets, List.mem_cons, List.not_mem_nil, or_false] at hd
    omega
  | case3 a b =>
    have ha := a.toNat_lt
    have hb := b.toNat_lt
    intro d hd
    simp only [sextets, List.mem_cons, List.not_mem_nil, or_false] at hd
    omega
  | case4 a b c rest ih =>
    have ha := a.toNat_lt
    have hb := b.toNat_lt
    have hc := c.toNat_lt
    intro d hd
    simp only [sextets, List.mem_cons] at hd
    rcases hd with h | h | h | h | hrest
    · omega
    · omega
    · omega
    · omega
    · exact ih d hrest

theorem sextetBytes_sextets (bs : Bytes) : sextetBytes (sextets bs) = bs := by
  -- each byte is put together again from the two sextets that hold its bits
  have hjoin : ∀ {n : Nat} {b : UInt8}, n = b.toNat → UInt8.ofNat n = b := by
    intro n b hn
    rw [hn, UInt8.ofNat_toNat]
  induction bs using sextets.induct with
  | case1 => rfl
  | case2 a =>
    have ha := a.toNat_lt
    rw [sextets, sextetBytes, hjoin (b := a) (by omega)]
  | case3 a b =>
    have ha := a.toNat_lt
    have hb := b.toNat_lt
    rw [sextets, sextetBytes, hjoin (b := a) (by omega), hjoin (b := b) (by omega)]
  | case4 a b c rest ih =>
    have ha := a.toNat_lt
    have hb := b.toNat_lt
    have hc := c.toNat_lt
    rw [sextets, sextetBytes, ih, hjoin (b := a) (by omega), hjoin (b := b) (by omega),
      hjoin (b := c) (by omega)]

theorem filterMap_base64Unit {ds : List Nat} (h : ∀ d ∈ ds, d < 64) :
    (ds.map base64Unit).filterMap unitSextet = ds := by
  rw [List.filterMap_map]
  have hread : ∀ d ∈ ds, (unitSextet ∘ base64Unit) d = some d := fun d hd =>
    unitSextet_base64Unit (h d hd)
  rw [List.filterMap_congr hread]
  exact List.filterMap_some

theorem takeWhile_unpadded {s : Text} (k : Nat) (h : ∀ c ∈ s, c ≠ base64Pad) :
    (s ++ List.replicate k base64Pad).takeWhile (· ≠ base64Pad) = s := by
  have hall : ∀ c ∈ s, (decide (c ≠ base64Pad)) = true := fun c hc => decide_eq_true (h c hc)
  rw [List.takeWhile_append_of_pos hall]
  cases k with
  | zero => simp
  | succ k => simp [List.replicate_succ]

/-- `Buffer.from(buffer.toString('base64'), 'base64')` is the buffer. -/
@[simp] theorem bytesOfBase64_base64OfBytes (bs : Bytes) : bytesOfBase64 (base64OfBytes bs) = bs := by
  have hsextets := sextets_lt bs
  have hunits : ∀ c ∈ (sextets bs).map base64Unit, c ≠ base64Pad := by
    intro c hc
    obtain ⟨d, hd, rfl⟩ := List.mem_map.mp hc
    exact base64Unit_ne_pad (hsextets d hd)
  rw [bytesOfBase64, base64OfBytes, takeWhile_unpadded _ hunits, filterMap_base64Unit hsextets,
    sextetBytes_sextets]

theorem base64OfBytes_injective : Function.Injective base64OfBytes :=
  Function.LeftInverse.injective bytesOfBase64_base64OfBytes

end Hookemon.Js
