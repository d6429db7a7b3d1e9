import Hookemon.Core.Numerals

/-! # Words as bytes

A 256-bit word is written as 32 bytes, most significant byte first, and a tuple
of words as the concatenation of its words. Both are injective, so a function of
the bytes is a function of the words.
-/

namespace Hookemon.Core

/-- A string of bytes. -/
abbrev Bytes := List UInt8

/-- The last `k` bytes of a number. -/
def bytesOfNat (k n : Nat) : Bytes := (digitsBE 256 k n).map UInt8.ofNat

/-- The number that some bytes write. -/
def natOfBytes (bs : Bytes) : Nat := ofDigitsBE 256 (bs.map UInt8.toNat)

/-- The 32 bytes of a word. -/
def wordBytes (x : BitVec 256) : Bytes := bytesOfNat 32 x.toNat

/-- The bytes of a tuple of words. -/
def encodeWords (xs : List (BitVec 256)) : Bytes :=
  xs.flatMap wordBytes

/-- The bytes of an ASCII string. -/
def asciiBytes (s : String) : Bytes := s.toList.map fun c => UInt8.ofNat c.toNat

@[simp] theorem bytesOfNat_length (k n : Nat) : (bytesOfNat k n).length = k := by
  simp [bytesOfNat]

/-- Digits below 256 survive as bytes. -/
theorem map_toNat_ofNat {ds : List Nat} (hds : ∀ d ∈ ds, d < 256) :
    (ds.map UInt8.ofNat).map UInt8.toNat = ds := by
  rw [List.map_map, List.map_congr_left (g := id), List.map_id]
  intro d hd
  simpa using Nat.mod_eq_of_lt (hds d hd)

theorem natOfBytes_bytesOfNat {k n : Nat} (h : n < 256 ^ k) : natOfBytes (bytesOfNat k n) = n := by
  rw [natOfBytes, bytesOfNat, map_toNat_ofNat fun d hd => digitsBE_lt (by decide) hd,
    ofDigitsBE_digitsBE_of_lt h]

theorem byte_lt (bs : Bytes) : ∀ d ∈ bs.map UInt8.toNat, d < 256 := by
  intro d hd
  obtain ⟨b, -, rfl⟩ := List.mem_map.mp hd
  exact b.toNat_lt

theorem bytesOfNat_natOfBytes (bs : Bytes) : bytesOfNat bs.length (natOfBytes bs) = bs := by
  have hdigits := digitsBE_ofDigitsBE (by decide) (bs.map UInt8.toNat) (byte_lt bs)
  rw [List.length_map] at hdigits
  rw [natOfBytes, bytesOfNat, hdigits, List.map_map, List.map_congr_left (g := id), List.map_id]
  intro b _
  exact UInt8.ofNat_toNat

theorem natOfBytes_lt (bs : Bytes) : natOfBytes bs < 256 ^ bs.length := by
  rw [← List.length_map (f := UInt8.toNat)]
  exact ofDigitsBE_lt (by decide) (bs.map UInt8.toNat) (byte_lt bs)

@[simp] theorem wordBytes_length (x : BitVec 256) : (wordBytes x).length = 32 :=
  bytesOfNat_length _ _

theorem wordBytes_injective : Function.Injective wordBytes := by
  intro x y h
  have hpow : (2 : Nat) ^ 256 = 256 ^ 32 := by norm_num
  have hlt : ∀ z : BitVec 256, z.toNat < 256 ^ 32 := fun z => hpow ▸ z.isLt
  apply BitVec.eq_of_toNat_eq
  rw [← natOfBytes_bytesOfNat (hlt x), ← natOfBytes_bytesOfNat (hlt y)]
  exact congrArg natOfBytes h

theorem encodeWords_injective : Function.Injective encodeWords :=
  flatMap_inj_of_width (by decide) wordBytes_length wordBytes_injective

theorem encodeWords_eq (xs : List (BitVec 256)) : encodeWords xs = (xs.map wordBytes).flatten :=
  List.flatMap_def

/-- A shorter word is determined by the word it is widened to. -/
theorem setWidth_inj_of_le {w : Nat} {x y : BitVec w} (hw : w ≤ 256)
    (h : x.setWidth 256 = y.setWidth 256) : x = y := by
  have hback := congrArg (BitVec.setWidth w) h
  simpa [BitVec.setWidth_setWidth_of_le _ hw] using hback

@[simp] theorem encodeWords_length (xs : List (BitVec 256)) :
    (encodeWords xs).length = 32 * xs.length :=
  flatMap_length_of_width wordBytes_length xs

/-- A shorter word, written as a word: zeros in front. -/
theorem wordBytes_setWidth {a : BitVec 160} :
    wordBytes (a.setWidth 256) = List.replicate 12 0 ++ bytesOfNat 20 a.toNat := by
  have hlt : a.toNat < 256 ^ 20 := lt_of_lt_of_eq a.isLt (by norm_num)
  have hwide : (a.setWidth 256).toNat = a.toNat :=
    BitVec.toNat_setWidth_of_le (by decide)
  rw [wordBytes, hwide, bytesOfNat, show 32 = 12 + 20 from rfl, digitsBE_add, List.map_append,
    Nat.div_eq_of_lt hlt, digitsBE_zero, List.map_replicate, bytesOfNat]
  rfl

theorem natOfBytes_wordBytes (x : BitVec 256) : natOfBytes (wordBytes x) = x.toNat :=
  natOfBytes_bytesOfNat (lt_of_lt_of_eq x.isLt (by norm_num))

end Hookemon.Core
