import Hookemon.Core.Radix
import Hookemon.Core.Words
import Hookemon.Js.Text

/-! # Base 58

`encodeBase58` keeps the digits of the bytes read so far, least significant first. One byte
more is one pass that multiplies them by 256 with a carry, and the carry is pushed at the
end. Bytes that are zero at the front change nothing in the digits and are written as ones.
-/

namespace Hookemon.Signing

open Hookemon.Core Hookemon.Js

/-! ## The encoder -/

def BASE58_ALPHABET : Text := text "123456789ABCDEFGHJKLMNPQRSTUVWXYZabcdefghijkmnopqrstuvwxyz"

/-- `BASE58_ALPHABET[digit]`. -/
def base58Unit (digit : Nat) : UInt16 := BASE58_ALPHABET.getD digit 0

/-- `while (carry > 0)`: the digits that are pushed. -/
def pushCarry (carry : Nat) : List Nat :=
  if carry = 0 then [] else carry % 58 :: pushCarry (carry / 58)
termination_by carry
decreasing_by omega

/-- One byte: the pass over the digits, and the carry that it leaves. -/
def pushByte (digits : List Nat) (byte : UInt8) : List Nat :=
  let pass := mulAdd 58 256 digits byte.toNat
  pass.1 ++ pushCarry pass.2

def leadingZeroes (bytes : Bytes) : Nat := (bytes.takeWhile (· = 0)).length

def encodeBase58 (bytes : Bytes) : Text :=
  if bytes.length = 0 then []
  else
    List.replicate (leadingZeroes bytes) 49 ++ (bytes.foldl pushByte [0]).reverse.map base58Unit

/-! ## The digits -/

theorem pushCarry_eq (carry : Nat) : pushCarry carry = Nat.digits 58 carry := by
  induction carry using pushCarry.induct with
  | case1 => rw [pushCarry, if_pos rfl, Nat.digits_zero]
  | case2 carry hcarry ih =>
    rw [pushCarry, if_neg hcarry, ih,
      Nat.digits_def' (by decide : 1 < 58) (Nat.pos_of_ne_zero hcarry)]

/-- The accumulator when the bytes read so far denote `n`. -/
def accumulated (n : Nat) : List Nat := if n = 0 then [0] else Nat.digits 58 n

theorem pushByte_accumulated (n : Nat) (byte : UInt8) :
    pushByte (accumulated n) byte = accumulated (n * 256 + byte.toNat) := by
  rw [pushByte, pushCarry_eq]
  by_cases hn : n = 0
  · -- the single zero digit takes the byte itself
    have hpass : mulAdd 58 256 (accumulated n) byte.toNat
        = ([byte.toNat % 58], byte.toNat / 58) := by simp [accumulated, hn, mulAdd]
    rw [hpass, hn, Nat.zero_mul, Nat.zero_add, accumulated]
    by_cases hbyte : byte.toNat = 0
    · simp [hbyte]
    · rw [if_neg hbyte, Nat.digits_def' (by decide : 1 < 58) (Nat.pos_of_ne_zero hbyte)]
      rfl
  · have hnext : n * 256 + byte.toNat ≠ 0 := by omega
    rw [accumulated, if_neg hn, accumulated, if_neg hnext]
    exact digits_mulAdd (by decide) (by decide) hn byte.toNat

theorem foldl_pushByte (bytes : Bytes) (n : Nat) :
    bytes.foldl pushByte (accumulated n)
      = accumulated ((bytes.map UInt8.toNat).foldl (fun acc d => acc * 256 + d) n) := by
  induction bytes generalizing n with
  | nil => rfl
  | cons byte bytes ih =>
    rw [List.foldl_cons, pushByte_accumulated, ih, List.map_cons, List.foldl_cons]

/-- After all bytes the accumulator is the number that they denote. -/
theorem digits_of_bytes (bytes : Bytes) :
    bytes.foldl pushByte [0] = accumulated (natOfBytes bytes) :=
  foldl_pushByte bytes 0

theorem natOfBytes_ne_zero {bytes : Bytes} (h : ∃ b ∈ bytes, b ≠ 0) : natOfBytes bytes ≠ 0 := by
  intro hzero
  obtain ⟨b, hb, hne⟩ := h
  have hbytes := bytesOfNat_natOfBytes bytes
  rw [hzero, bytesOfNat, digitsBE_zero, List.map_replicate] at hbytes
  rw [← hbytes] at hb
  exact hne (List.eq_of_mem_replicate hb)

/-- The numeral of a number in base 58, most significant digit first. -/
def base58Numeral (n : Nat) : Text := (Nat.digits 58 n).reverse.map base58Unit

theorem encodeBase58_eq {bytes : Bytes} (h : ∃ b ∈ bytes, b ≠ 0) :
    encodeBase58 bytes
      = List.replicate (leadingZeroes bytes) 49 ++ base58Numeral (natOfBytes bytes) := by
  have hlength : bytes.length ≠ 0 := by
    obtain ⟨b, hb, -⟩ := h
    exact Nat.ne_of_gt (List.length_pos_of_mem hb)
  rw [encodeBase58, if_neg hlength, digits_of_bytes, accumulated,
    if_neg (natOfBytes_ne_zero h), base58Numeral]

/-! ## The alphabet -/

theorem alphabet_length : BASE58_ALPHABET.length = 58 := by decide

theorem alphabet_nodup : BASE58_ALPHABET.Nodup := by decide

/-- The digit that a unit of the alphabet stands for. -/
def base58Digit (c : UInt16) : Option Nat :=
  if c ∈ BASE58_ALPHABET then some (BASE58_ALPHABET.idxOf c) else none

theorem base58Digit_unit {d : Nat} (hd : d < 58) : base58Digit (base58Unit d) = some d := by
  have hlt : d < BASE58_ALPHABET.length := by rwa [alphabet_length]
  have hunit : base58Unit d = BASE58_ALPHABET[d] := by
    rw [base58Unit, List.getD_eq_getElem _ _ hlt]
  rw [base58Digit, hunit, if_pos (List.getElem_mem hlt), alphabet_nodup.idxOf_getElem d hlt]

theorem base58Unit_inj {d e : Nat} (hd : d < 58) (he : e < 58) (h : base58Unit d = base58Unit e) :
    d = e := by
  have hdigit := base58Digit_unit hd
  rw [h, base58Digit_unit he] at hdigit
  exact (Option.some.inj hdigit).symm

theorem base58Unit_zero : base58Unit 0 = 49 := rfl

/-- The numeral of a positive number begins with a digit other than the one that is zero. -/
theorem base58Numeral_head {n : Nat} (hn : n ≠ 0) :
    ∃ c s, base58Numeral n = c :: s ∧ c ≠ 49 := by
  have hne : Nat.digits 58 n ≠ [] := Nat.digits_ne_nil_iff_ne_zero.mpr hn
  have htop := Nat.getLast_digit_ne_zero 58 hn
  have hlt : (Nat.digits 58 n).getLast hne < 58 :=
    Nat.digits_lt_base (by decide) (List.getLast_mem hne)
  have hsplit := List.dropLast_append_getLast hne
  refine ⟨base58Unit ((Nat.digits 58 n).getLast hne),
    (Nat.digits 58 n).dropLast.reverse.map base58Unit, ?_, ?_⟩
  · rw [base58Numeral]
    conv_lhs => rw [← hsplit]
    rw [List.reverse_append, List.reverse_singleton, List.singleton_append, List.map_cons]
  · intro hone
    rw [← base58Unit_zero] at hone
    exact htop (base58Unit_inj hlt (by decide) hone)

/-! ## Reading back -/

/-- Ones at the front are bytes that are zero, and the rest is the numeral of a number. -/
def decodeBase58 (s : Text) : Option Bytes := do
  let digits ← (s.dropWhile (· = 49)).mapM base58Digit
  return List.replicate (s.takeWhile (· = 49)).length 0 ++
    (Nat.digits 256 (Nat.ofDigits 58 digits.reverse)).reverse.map UInt8.ofNat

theorem mapM_base58Digit {ds : List Nat} (h : ∀ d ∈ ds, d < 58) :
    (ds.map base58Unit).mapM base58Digit = some ds := by
  induction ds with
  | nil => rfl
  | cons d ds ih =>
    have hd := base58Digit_unit (h d (by simp))
    have hds := ih fun e he => h e (by simp [he])
    rw [List.map_cons, List.mapM_cons, hd, hds]
    rfl

/-- A number is read from its bytes behind the zeros at their front. -/
theorem digits_natOfBytes (bytes : Bytes) :
    List.replicate (leadingZeroes bytes) 0 ++
      (Nat.digits 256 (natOfBytes bytes)).reverse.map UInt8.ofNat = bytes := by
  have hzeros : bytes.takeWhile (· = 0) = List.replicate (leadingZeroes bytes) 0 :=
    List.eq_replicate_iff.mpr
      ⟨rfl, fun b hb => by simpa using List.mem_takeWhile_imp hb⟩
  have hsplit : bytes = List.replicate (leadingZeroes bytes) 0 ++ bytes.dropWhile (· = 0) := by
    rw [← hzeros, List.takeWhile_append_dropWhile]
  have hvalue : natOfBytes bytes
      = Nat.ofDigits 256 ((bytes.dropWhile (· = 0)).map UInt8.toNat).reverse := by
    rw [natOfBytes, ofDigitsBE_eq]
    conv_lhs => rw [hsplit]
    rw [List.map_append, List.map_replicate, List.reverse_append, List.reverse_replicate]
    show Nat.ofDigits 256 (_ ++ List.replicate _ 0) = _
    rw [Nat.ofDigits_append_replicate_zero]
  have hdigits : Nat.digits 256 (natOfBytes bytes)
      = ((bytes.dropWhile (· = 0)).map UInt8.toNat).reverse := by
    rw [hvalue]
    refine Nat.digits_ofDigits 256 (by decide) _ ?_ ?_
    · intro d hd
      obtain ⟨b, -, rfl⟩ := List.mem_map.mp (List.mem_reverse.mp hd)
      exact b.toNat_lt
    · intro hne
      have hrest : bytes.dropWhile (· = 0) ≠ [] := by
        intro hnil
        simp [hnil] at hne
      have hhead := List.head_dropWhile_not (p := fun b : UInt8 => decide (b = 0)) hrest
      rw [List.getLast_reverse, List.head_map]
      intro hzero
      have hbyte : (bytes.dropWhile (· = 0)).head hrest = 0 := UInt8.toNat.inj hzero
      simp [hbyte] at hhead
  rw [hdigits, List.reverse_reverse, List.map_map]
  have hread : ∀ b : UInt8, (UInt8.ofNat ∘ UInt8.toNat) b = b := fun b => UInt8.ofNat_toNat
  rw [List.map_congr_left fun b _ => hread b, List.map_id']
  exact hsplit.symm

/-- The ones at the front are the zeros at the front, and the numeral follows. -/
theorem encodeBase58_split {bytes : Bytes} (h : ∃ b ∈ bytes, b ≠ 0) :
    (encodeBase58 bytes).takeWhile (· = 49) = List.replicate (leadingZeroes bytes) 49 ∧
      (encodeBase58 bytes).dropWhile (· = 49) = base58Numeral (natOfBytes bytes) := by
  obtain ⟨c, s, hnumeral, hc⟩ := base58Numeral_head (natOfBytes_ne_zero h)
  have hones : ∀ u ∈ List.replicate (leadingZeroes bytes) (49 : UInt16), decide (u = 49) = true :=
    fun u hu => decide_eq_true (List.eq_of_mem_replicate hu)
  have hstop : (c :: s).takeWhile (· = 49) = [] := by simp [hc]
  have hkeep : (c :: s).dropWhile (· = 49) = c :: s := by simp [hc]
  constructor
  · rw [encodeBase58_eq h, List.takeWhile_append_of_pos hones, hnumeral, hstop, List.append_nil]
  · rw [encodeBase58_eq h, List.dropWhile_append_of_pos hones, hnumeral, hkeep]

theorem decodeBase58_encodeBase58 {bytes : Bytes} (h : ∃ b ∈ bytes, b ≠ 0) :
    decodeBase58 (encodeBase58 bytes) = some bytes := by
  obtain ⟨hones, hrest⟩ := encodeBase58_split h
  have hdigits : ∀ d ∈ (Nat.digits 58 (natOfBytes bytes)).reverse, d < 58 := fun d hd =>
    Nat.digits_lt_base (by decide) (List.mem_reverse.mp hd)
  rw [decodeBase58, hrest, hones, base58Numeral, mapM_base58Digit hdigits]
  show some (_ ++ _) = _
  rw [List.reverse_reverse, Nat.ofDigits_digits, List.length_replicate, digits_natOfBytes]

theorem encodeBase58_inj {bytes bytes' : Bytes} (h : ∃ b ∈ bytes, b ≠ 0)
    (h' : ∃ b ∈ bytes', b ≠ 0) (heq : encodeBase58 bytes = encodeBase58 bytes') :
    bytes = bytes' := by
  have hread := decodeBase58_encodeBase58 h
  rw [heq, decodeBase58_encodeBase58 h'] at hread
  exact (Option.some.inj hread).symm

end Hookemon.Signing
