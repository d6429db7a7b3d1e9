import Hookemon.Js.BigInt
import Hookemon.Payout.Keccak

/-! # The payout manifest encoding

`manifestBytes` (`tooling/payout/canonical-merkle-sum.mjs`) writes a manifest as the
ABI encoding of a tuple whose last member is the array of entries, in hexadecimal.
`decodeCanonicalManifest` (`distribution/merkle-sum.mjs`) reads it back by offsets.

In between stands the content of a manifest (`ManifestContent`): words of the widths
that the encoding has. A manifest that the encoder accepts denotes one, in whatever
spelling; the decoder returns the canonical spelling of it.
-/

namespace Hookemon.Payout

open Hookemon.Core Hookemon.Js

/-! ## Manifests -/

structure ManifestDomain where
  chainId : Scalar
  hook : Text
  cycleId : Text
  payoutId : Text
deriving DecidableEq, Repr

structure ManifestEntry where
  index : Scalar
  recipient : Text
  amount : Scalar
  directBalance : Scalar
deriving DecidableEq, Repr

structure Manifest where
  domain : ManifestDomain
  snapshotNumber : Scalar
  snapshotHash : Text
  entries : List ManifestEntry
deriving DecidableEq, Repr

abbrev width : Nat := 1024

/-- `TAGS.manifest`. -/
def manifestTagBytes : Bytes := keccak256 (asciiBytes "HOOKEMON_PAYOUT_MANIFEST_R55_A4_V1")

def manifestTag : Text := bytesToHex manifestTagBytes

/-! ## The encoder -/

/-- `^0x[0-9a-fA-F]*$`. -/
def isHex (s : Text) : Bool := s.take 2 == text "0x" && (s.drop 2).all isHexDigit

def hexToBytes (value : Text) (expectedBytes : Nat) : Except String Bytes := do
  throwIf (¬ isHex value) "invalid hex"
  throwIf ((value.drop 2).length ≠ expectedBytes * 2)
    ("expected " ++ toString expectedBytes ++ " bytes")
  pure (bytesOfHex (value.drop 2))

def uintWord (value : Scalar) (bits : Nat) : Except String Bytes := do
  let integer ← toBigInt value
  throwIf (integer < 0 ∨ 2 ^ bits ≤ integer) ("uint" ++ toString bits ++ " out of range")
  pure (bytesOfNat 32 integer.toNat)

def bytes32Word (value : Text) : Except String Bytes := hexToBytes value 32

def addressWord (value : Text) : Except String Bytes := do
  let bytes ← hexToBytes value 20
  pure (List.replicate 12 0 ++ bytes)

def zeroAddress : Text := text "0x0000000000000000000000000000000000000000"

/-- The check of an index: an integer number in range. -/
def entryIndex : Scalar → Except String Int
  | .number n => if n < 0 ∨ (width : Int) ≤ n then .error "entry index out of range" else .ok n
  | _ => .error "entry index out of range"

/-- The loop of `validateEntries`. -/
def validateEntries (hook : Text) : Int → List ManifestEntry → Except String Unit
  | _, [] => pure ()
  | previous, entry :: rest => do
    let index ← entryIndex entry.index
    throwIf (index ≤ previous) "entry indices must be strictly increasing"
    throwIf (toLowerCase entry.recipient = zeroAddress
        ∨ toLowerCase entry.recipient = toLowerCase hook)
      "entry recipient must be nonzero and differ from the hook"
    let amount ← toBigInt entry.amount
    throwIf (amount ≤ 0) "entry amount must be positive"
    let directBalance ← toBigInt entry.directBalance
    throwIf (directBalance ≤ 0) "entry direct balance must be positive"
    let _ ← uintWord entry.amount 256
    let _ ← uintWord entry.directBalance 256
    let _ ← addressWord entry.recipient
    validateEntries hook index rest

def entryWords (entry : ManifestEntry) : Except String (List Bytes) := do
  let index ← uintWord entry.index 16
  let recipient ← addressWord entry.recipient
  let amount ← uintWord entry.amount 256
  let directBalance ← uintWord entry.directBalance 256
  pure [index, recipient, amount, directBalance]

def manifestBytes (m : Manifest) : Except String Text := do
  validateEntries m.domain.hook (-1) m.entries
  let tag ← bytes32Word manifestTag
  let schema ← uintWord (.number 1) 8
  let chainId ← uintWord m.domain.chainId 256
  let hook ← addressWord m.domain.hook
  let cycleId ← bytes32Word m.domain.cycleId
  let payoutId ← bytes32Word m.domain.payoutId
  let snapshotNumber ← uintWord m.snapshotNumber 256
  let snapshotHash ← bytes32Word m.snapshotHash
  let headSize ← uintWord (.number 288) 256
  let encodedEntries ← m.entries.mapM entryWords
  let count ← uintWord (.number m.entries.length) 256
  let words := [tag, schema, chainId, hook, cycleId, payoutId, snapshotNumber, snapshotHash,
    headSize, count] ++ encodedEntries.flatten
  pure (bytesToHex words.flatten)

/-! ## The decoder -/

def readWord (bytes : Bytes) (offset : Nat) (label : String) : Except String Bytes := do
  throwIf (bytes.length < offset + 32) (label ++ " is truncated")
  pure ((bytes.drop offset).take 32)

def readUint (bytes : Bytes) (offset bits : Nat) (label : String) : Except String Nat := do
  let word ← readWord bytes offset label
  throwIf (2 ^ bits ≤ natOfBytes word) (label ++ " exceeds uint" ++ toString bits)
  pure (natOfBytes word)

def readBytes32 (bytes : Bytes) (offset : Nat) (label : String) : Except String Text := do
  let word ← readWord bytes offset label
  pure (bytesToHex word)

def readAddress (bytes : Bytes) (offset : Nat) (label : String) : Except String Text := do
  let word ← readWord bytes offset label
  throwIf (∃ byte ∈ word.take 12, byte ≠ 0) (label ++ " is not canonical")
  pure (bytesToHex (word.drop 12))

/-- A word that is read as a decimal text. -/
def readDecimal (bytes : Bytes) (offset : Nat) (label : String) : Except String Scalar := do
  let value ← readUint bytes offset 256 label
  pure (.string (natText value))

/-- The body of the loop over the entries. -/
def readEntry (bytes : Bytes) (index : Nat) : Except String ManifestEntry := do
  let offset := 320 + index * 128
  let entryIndex ← readUint bytes offset 16 "manifest entry index"
  let recipient ← readAddress bytes (offset + 32) "manifest entry recipient"
  let amount ← readDecimal bytes (offset + 64) "manifest entry amount"
  let directBalance ← readDecimal bytes (offset + 96) "manifest entry direct balance"
  pure ⟨.number entryIndex, recipient, amount, directBalance⟩

/-- `^0x(?:[0-9a-f]{2})+$`, with a multiple of 32 bytes. -/
def isManifestText (value : Text) : Bool :=
  value.take 2 == text "0x" && (value.drop 2).all isLowerHexDigit &&
    (value.drop 2).length % 2 == 0 && value.drop 2 != [] && (value.length - 2) % 64 == 0

def decodeCanonicalManifest (value : Text) : Except String Manifest := do
  throwIf (¬ isManifestText value) "canonical manifest bytes are invalid"
  let bytes := bytesOfHex (value.drop 2)
  throwIf (bytes.length < 320) "canonical manifest bytes are truncated"
  let tag ← readBytes32 bytes 0 "manifest tag"
  throwIf (tag ≠ manifestTag) "canonical manifest tag is invalid"
  let schema ← readUint bytes 32 8 "manifest schema"
  throwIf (schema ≠ 1) "canonical manifest schema is invalid"
  let entriesOffset ← readUint bytes 256 256 "manifest entries offset"
  throwIf (entriesOffset ≠ 288) "canonical manifest entries offset is invalid"
  let entryCount ← readUint bytes 288 256 "manifest entry count"
  throwIf (entryCount < 1 ∨ width < entryCount) "canonical manifest entry count is invalid"
  throwIf (bytes.length ≠ 320 + entryCount * 128) "canonical manifest length is invalid"
  let chainId ← readDecimal bytes 64 "manifest chainId"
  let hook ← readAddress bytes 96 "manifest hook"
  let cycleId ← readBytes32 bytes 128 "manifest cycleId"
  let payoutId ← readBytes32 bytes 160 "manifest payoutId"
  let snapshotNumber ← readDecimal bytes 192 "manifest snapshot number"
  let snapshotHash ← readBytes32 bytes 224 "manifest snapshot hash"
  let entries ← (List.range entryCount).mapM (readEntry bytes)
  let decoded : Manifest := ⟨⟨chainId, hook, cycleId, payoutId⟩, snapshotNumber, snapshotHash,
    entries⟩
  let encoded ← manifestBytes decoded
  throwIf (encoded ≠ value) "canonical manifest encoding is noncanonical"
  pure decoded

/-! ## Canonical spelling -/

/-- An integer as a decimal text. -/
def canonicalInteger (value : Scalar) : Scalar :=
  match toBigInt value with
  | .ok n => .string (natText n.toNat)
  | .error _ => value

def canonicalEntry (entry : ManifestEntry) : ManifestEntry :=
  ⟨entry.index, toLowerCase entry.recipient, canonicalInteger entry.amount,
    canonicalInteger entry.directBalance⟩

/-- A manifest with addresses and hashes in lower case and integers in decimal. -/
def canonicalManifest (m : Manifest) : Manifest where
  domain := ⟨canonicalInteger m.domain.chainId, toLowerCase m.domain.hook,
    toLowerCase m.domain.cycleId, toLowerCase m.domain.payoutId⟩
  snapshotNumber := canonicalInteger m.snapshotNumber
  snapshotHash := toLowerCase m.snapshotHash
  entries := m.entries.map canonicalEntry

/-! ## Content -/

/-- The content of an entry. -/
structure EntryContent where
  index : Fin width
  recipient : BitVec 160
  amount : BitVec 256
  directBalance : BitVec 256
deriving DecidableEq, Repr

/-- The content of a manifest, with what the encoder requires of it. -/
structure ManifestContent where
  chainId : BitVec 256
  hook : BitVec 160
  cycleId : BitVec 256
  payoutId : BitVec 256
  snapshotNumber : BitVec 256
  snapshotHash : BitVec 256
  entries : List EntryContent
  increasing : (entries.map EntryContent.index).Pairwise (· < ·)
  recipients : ∀ e ∈ entries, e.recipient ≠ 0 ∧ e.recipient ≠ hook
  amounts : ∀ e ∈ entries, e.amount ≠ 0 ∧ e.directBalance ≠ 0

def EntryContent.words (e : EntryContent) : List (BitVec 256) :=
  [BitVec.ofNat 256 e.index, e.recipient.setWidth 256, e.amount, e.directBalance]

namespace ManifestContent

/-- The nine words of the head and the number of entries. -/
def headWords (c : ManifestContent) : List (BitVec 256) :=
  [BitVec.ofNat 256 (natOfBytes manifestTagBytes), 1, c.chainId, c.hook.setWidth 256, c.cycleId,
    c.payoutId, c.snapshotNumber, c.snapshotHash, 288, BitVec.ofNat 256 c.entries.length]

def words (c : ManifestContent) : List (BitVec 256) :=
  c.headWords ++ c.entries.flatMap EntryContent.words

def encoding (c : ManifestContent) : Text := bytesToHex (encodeWords c.words)

end ManifestContent

/-- The spelling of words that the decoder returns. -/
def hexWord (x : BitVec 256) : Text := bytesToHex (wordBytes x)
def hexAddress (a : BitVec 160) : Text := bytesToHex (bytesOfNat 20 a.toNat)
def decimalWord (x : BitVec 256) : Scalar := .string (natText x.toNat)

def EntryContent.render (e : EntryContent) : ManifestEntry :=
  ⟨.number e.index.val, hexAddress e.recipient, decimalWord e.amount, decimalWord e.directBalance⟩

def ManifestContent.render (c : ManifestContent) : Manifest where
  domain := ⟨decimalWord c.chainId, hexAddress c.hook, hexWord c.cycleId, hexWord c.payoutId⟩
  snapshotNumber := decimalWord c.snapshotNumber
  snapshotHash := hexWord c.snapshotHash
  entries := c.entries.map EntryContent.render

/-! ## Spelling -/

theorem text_0x : text "0x" = [48, 120] := by decide

theorem bytesToHex_drop (bs : Bytes) : (bytesToHex bs).drop 2 = hexOfBytes bs := by
  rw [bytesToHex, text_0x]
  rfl

theorem bytesToHex_take (bs : Bytes) : (bytesToHex bs).take 2 = text "0x" := by
  rw [bytesToHex, text_0x]
  rfl

theorem bytesToHex_injective : Function.Injective bytesToHex := by
  intro bs bs' h
  have hdrop := congrArg (List.drop 2) h
  rw [bytesToHex_drop, bytesToHex_drop] at hdrop
  exact hexOfBytes_injective hdrop

theorem isHex_bytesToHex (bs : Bytes) : isHex (bytesToHex bs) := by
  rw [isHex, bytesToHex_take, bytesToHex_drop, beq_self_eq_true, Bool.true_and, List.all_eq_true]
  intro c hc
  exact isHexDigit_of_lower (hexOfBytes_lower bs c hc)

theorem toLowerCase_bytesToHex (bs : Bytes) : toLowerCase (bytesToHex bs) = bytesToHex bs := by
  rw [bytesToHex, toLowerCase_eq, List.map_append, ← toLowerCase_eq, ← toLowerCase_eq,
    toLowerCase_of_lower (hexOfBytes_lower bs)]
  rfl

/-- A hexadecimal text is its mark and its digits. -/
theorem isHex_split {s : Text} (h : isHex s) :
    s = text "0x" ++ s.drop 2 ∧ ∀ c ∈ s.drop 2, isHexDigit c := by
  rw [isHex, Bool.and_eq_true, beq_iff_eq, List.all_eq_true] at h
  constructor
  · conv_lhs => rw [← List.take_append_drop 2 s, h.1]
  · exact h.2

theorem toLowerCase_isHex {s : Text} (h : isHex s) :
    toLowerCase s = text "0x" ++ toLowerCase (s.drop 2) := by
  obtain ⟨hs, -⟩ := isHex_split h
  conv_lhs => rw [hs, toLowerCase_eq, List.map_append]
  rfl

/-- A text that is accepted for some bytes spells them, in letters of any case. -/
def Spells (s : Text) (bs : Bytes) : Prop := isHex s ∧ toLowerCase s = bytesToHex bs

theorem spells_bytesToHex (bs : Bytes) : Spells (bytesToHex bs) bs :=
  ⟨isHex_bytesToHex bs, toLowerCase_bytesToHex bs⟩

theorem Spells.bytes {s : Text} {bs : Bytes} (h : Spells s bs) :
    (s.drop 2).length = bs.length * 2 ∧ bytesOfHex (s.drop 2) = bs := by
  obtain ⟨hhex, hlower⟩ := h
  obtain ⟨-, hdigits⟩ := isHex_split hhex
  have hdrop : toLowerCase (s.drop 2) = hexOfBytes bs := by
    rw [toLowerCase_isHex hhex, bytesToHex] at hlower
    exact List.append_cancel_left hlower
  have hlength : (s.drop 2).length = bs.length * 2 := by
    have hlen := congrArg List.length hdrop
    rw [toLowerCase_eq, List.length_map, hexOfBytes_length] at hlen
    omega
  refine ⟨hlength, ?_⟩
  rw [← bytesOfHex_toLowerCase hdigits (by omega), hdrop, bytesOfHex_hexOfBytes]

theorem hexToBytes_eq_ok {s : Text} {n : Nat} {bs : Bytes} :
    hexToBytes s n = .ok bs ↔ Spells s bs ∧ bs.length = n := by
  simp only [hexToBytes, bind_eq_ok, revertIf_eq_ok, pure_eq_ok, Decidable.not_not]
  constructor
  · rintro ⟨_, hhex, _, hlength, rfl⟩
    obtain ⟨-, hdigits⟩ := isHex_split hhex
    have heven : (s.drop 2).length % 2 = 0 := by omega
    refine ⟨⟨hhex, ?_⟩, ?_⟩
    · rw [toLowerCase_isHex hhex, bytesToHex, hexOfBytes_bytesOfHex hdigits heven]
    · have hbytes := bytesOfHex_length heven
      omega
  · rintro ⟨hspells, rfl⟩
    obtain ⟨hlength, hbytes⟩ := hspells.bytes
    exact ⟨(), hspells.1, (), hlength, hbytes⟩

theorem wordBytes_ofNat {bs : Bytes} (h : bs.length = 32) :
    wordBytes (BitVec.ofNat 256 (natOfBytes bs)) = bs := by
  have hlt : natOfBytes bs < 2 ^ 256 := by
    have hbound := natOfBytes_lt bs
    rw [h] at hbound
    exact lt_of_lt_of_eq hbound (by norm_num)
  rw [wordBytes, BitVec.toNat_ofNat, Nat.mod_eq_of_lt hlt, ← h, bytesOfNat_natOfBytes]

theorem bytes32Word_eq_ok {s : Text} {w : Bytes} :
    bytes32Word s = .ok w ↔ ∃ x : BitVec 256, Spells s (wordBytes x) ∧ w = wordBytes x := by
  rw [bytes32Word, hexToBytes_eq_ok]
  constructor
  · rintro ⟨hspells, hlength⟩
    refine ⟨BitVec.ofNat 256 (natOfBytes w), ?_, ?_⟩
    · rwa [wordBytes_ofNat hlength]
    · rw [wordBytes_ofNat hlength]
  · rintro ⟨x, hspells, hw⟩
    rw [hw]
    exact ⟨hspells, wordBytes_length x⟩

theorem bytesOfNat_ofNat {bs : Bytes} (h : bs.length = 20) :
    bytesOfNat 20 (BitVec.ofNat 160 (natOfBytes bs)).toNat = bs := by
  have hlt : natOfBytes bs < 2 ^ 160 := by
    have hbound := natOfBytes_lt bs
    rw [h] at hbound
    exact lt_of_lt_of_eq hbound (by norm_num)
  rw [BitVec.toNat_ofNat, Nat.mod_eq_of_lt hlt, ← h, bytesOfNat_natOfBytes]

theorem addressWord_eq_ok {s : Text} {w : Bytes} :
    addressWord s = .ok w ↔
      ∃ a : BitVec 160, Spells s (bytesOfNat 20 a.toNat) ∧ w = wordBytes (a.setWidth 256) := by
  simp only [addressWord, bind_eq_ok, hexToBytes_eq_ok, pure_eq_ok, wordBytes_setWidth]
  constructor
  · rintro ⟨bs, ⟨hspells, hlength⟩, rfl⟩
    refine ⟨BitVec.ofNat 160 (natOfBytes bs), ?_, ?_⟩
    · rwa [bytesOfNat_ofNat hlength]
    · rw [bytesOfNat_ofNat hlength]
  · rintro ⟨a, hspells, rfl⟩
    exact ⟨_, ⟨hspells, bytesOfNat_length 20 _⟩, rfl⟩

theorem hexAddress_injective : Function.Injective hexAddress := by
  intro a b h
  have hbytes := congrArg natOfBytes (bytesToHex_injective h)
  have hlt : ∀ z : BitVec 160, z.toNat < 256 ^ 20 := fun z => lt_of_lt_of_eq z.isLt (by norm_num)
  rw [natOfBytes_bytesOfNat (hlt a), natOfBytes_bytesOfNat (hlt b)] at hbytes
  exact BitVec.eq_of_toNat_eq hbytes

theorem uintWord_eq_ok {v : Scalar} {bits : Nat} {w : Bytes} :
    uintWord v bits = .ok w ↔
      ∃ n : Nat, toBigInt v = .ok (n : Int) ∧ n < 2 ^ bits ∧ w = bytesOfNat 32 n := by
  simp only [uintWord, bind_eq_ok, revertIf_eq_ok, pure_eq_ok, not_or, Int.not_lt, Int.not_le]
  constructor
  · rintro ⟨i, hi, _, ⟨hnonneg, hlt⟩, rfl⟩
    obtain ⟨n, rfl⟩ := Int.eq_ofNat_of_zero_le hnonneg
    exact ⟨n, hi, by exact_mod_cast hlt, rfl⟩
  · rintro ⟨n, hn, hlt, hw⟩
    exact ⟨n, hn, (), ⟨Int.natCast_nonneg n, by exact_mod_cast hlt⟩, hw.symm⟩

/-- A value of 256 bits. -/
theorem uintWord_256_eq_ok {v : Scalar} {w : Bytes} :
    uintWord v 256 = .ok w ↔
      ∃ x : BitVec 256, toBigInt v = .ok (x.toNat : Int) ∧ w = wordBytes x := by
  rw [uintWord_eq_ok]
  constructor
  · rintro ⟨n, hn, hlt, hw⟩
    refine ⟨BitVec.ofNat 256 n, ?_, ?_⟩
    · rw [BitVec.toNat_ofNat, Nat.mod_eq_of_lt hlt, hn]
    · rw [hw, wordBytes, BitVec.toNat_ofNat, Nat.mod_eq_of_lt hlt]
  · rintro ⟨x, hx, hw⟩
    exact ⟨x.toNat, hx, x.isLt, hw⟩

/-! ## What an accepted manifest denotes -/

structure EntryDenotes (e : ManifestEntry) (c : EntryContent) : Prop where
  index : e.index = .number (c.index.val : Int)
  recipient : Spells e.recipient (bytesOfNat 20 c.recipient.toNat)
  amount : toBigInt e.amount = .ok (c.amount.toNat : Int)
  directBalance : toBigInt e.directBalance = .ok (c.directBalance.toNat : Int)

/-- A manifest spells a content. -/
structure Denotes (m : Manifest) (c : ManifestContent) : Prop where
  chainId : toBigInt m.domain.chainId = .ok (c.chainId.toNat : Int)
  hook : Spells m.domain.hook (bytesOfNat 20 c.hook.toNat)
  cycleId : Spells m.domain.cycleId (wordBytes c.cycleId)
  payoutId : Spells m.domain.payoutId (wordBytes c.payoutId)
  snapshotNumber : toBigInt m.snapshotNumber = .ok (c.snapshotNumber.toNat : Int)
  snapshotHash : Spells m.snapshotHash (wordBytes c.snapshotHash)
  entries : List.Forall₂ EntryDenotes m.entries c.entries

theorem zeroAddress_eq : zeroAddress = hexAddress 0 := by decide +kernel

theorem toNat_pos {x : BitVec 256} : 0 < x.toNat ↔ x ≠ 0 := by
  rw [Nat.pos_iff_ne_zero, not_iff_not]
  constructor
  · exact fun h => BitVec.eq_of_toNat_eq h
  · rintro rfl
    rfl

theorem entryIndex_eq_ok {v : Scalar} {i : Int} :
    entryIndex v = .ok i ↔ ∃ n : Fin width, v = .number (n.val : Int) ∧ i = (n.val : Int) := by
  constructor
  · intro h
    cases v with
    | number n =>
      by_cases hrange : n < 0 ∨ (width : Int) ≤ n
      · rw [entryIndex, if_pos hrange] at h
        cases h
      · rw [entryIndex, if_neg hrange] at h
        have hi : n = i := Except.ok.inj h
        obtain ⟨hnonneg, hlt⟩ := not_or.mp hrange
        obtain ⟨k, rfl⟩ := Int.eq_ofNat_of_zero_le (Int.not_lt.mp hnonneg)
        exact ⟨⟨k, by exact_mod_cast Int.not_le.mp hlt⟩, rfl, hi.symm⟩
    | _ => cases h
  · rintro ⟨n, rfl, rfl⟩
    have hlt : n.val < 1024 := n.isLt
    rw [entryIndex, if_neg (by omega)]

/-- The entries that pass the checks denote contents that keep them. -/
theorem validateEntries_ok {hook : Text} : ∀ {entries : List ManifestEntry} {previous : Int},
    validateEntries hook previous entries = .ok () →
    ∃ cs : List EntryContent, List.Forall₂ EntryDenotes entries cs ∧
      (∀ c ∈ cs, previous < (c.index.val : Int)) ∧
      (cs.map EntryContent.index).Pairwise (· < ·) ∧
      (∀ c ∈ cs, c.recipient ≠ 0 ∧ hexAddress c.recipient ≠ toLowerCase hook) ∧
      ∀ c ∈ cs, c.amount ≠ 0 ∧ c.directBalance ≠ 0 := by
  intro entries
  induction entries with
  | nil =>
    intro previous _
    exact ⟨[], List.Forall₂.nil, by simp, by simp, by simp, by simp⟩
  | cons e rest ih =>
    intro previous h
    simp only [validateEntries, bind_eq_ok, revertIf_eq_ok, entryIndex_eq_ok, uintWord_256_eq_ok,
      addressWord_eq_ok] at h
    obtain ⟨i, ⟨index, hindex, hi⟩, _, hincreasing, _, hrecipient, amount, hamount, _, hamountPos,
      balance, hbalance, _, hbalancePos, _, ⟨x, hx, -⟩, _, ⟨y, hy, -⟩, _, ⟨a, ha, -⟩, hrest⟩ := h
    obtain ⟨cs, hdenotes, habove, hpairwise, hrecipients, hamounts⟩ := ih hrest
    subst hi
    -- what the checks read is what the words write
    have hamountEq : amount = x.toNat := Except.ok.inj (hamount.symm.trans hx)
    have hbalanceEq : balance = y.toNat := Except.ok.inj (hbalance.symm.trans hy)
    have hlower : toLowerCase e.recipient = hexAddress a := ha.2
    rw [hlower, zeroAddress_eq, not_or] at hrecipient
    refine ⟨⟨index, a, x, y⟩ :: cs, ?_, ?_, ?_, ?_, ?_⟩
    · exact List.Forall₂.cons ⟨hindex, ha, hx, hy⟩ hdenotes
    · intro c hc
      rcases List.mem_cons.mp hc with rfl | hc
      · exact Int.not_le.mp hincreasing
      · exact (Int.not_le.mp hincreasing).trans (habove c hc)
    · rw [List.map_cons, List.pairwise_cons]
      refine ⟨fun j hj => ?_, hpairwise⟩
      obtain ⟨c, hc, rfl⟩ := List.mem_map.mp hj
      exact_mod_cast habove c hc
    · intro c hc
      rcases List.mem_cons.mp hc with rfl | hc
      · refine ⟨fun hzero => hrecipient.1 ?_, hrecipient.2⟩
        exact congrArg hexAddress hzero
      · exact hrecipients c hc
    · intro c hc
      rcases List.mem_cons.mp hc with rfl | hc
      · have hx0 : 0 < x.toNat := by omega
        have hy0 : 0 < y.toNat := by omega
        exact ⟨toNat_pos.mp hx0, toNat_pos.mp hy0⟩
      · exact hamounts c hc

/-- Entries that denote contents with these properties pass the checks. -/
theorem validateEntries_of_denotes {hook : Text} {entries : List ManifestEntry}
    {cs : List EntryContent} (hdenotes : List.Forall₂ EntryDenotes entries cs) :
    ∀ {previous : Int}, (∀ c ∈ cs, previous < (c.index.val : Int)) →
      (cs.map EntryContent.index).Pairwise (· < ·) →
      (∀ c ∈ cs, c.recipient ≠ 0 ∧ hexAddress c.recipient ≠ toLowerCase hook) →
      (∀ c ∈ cs, c.amount ≠ 0 ∧ c.directBalance ≠ 0) →
      validateEntries hook previous entries = .ok () := by
  induction hdenotes with
  | nil =>
    intro previous _ _ _ _
    rfl
  | @cons e c entries cs he _ ih =>
    intro previous habove hpairwise hrecipients hamounts
    rw [List.map_cons, List.pairwise_cons] at hpairwise
    obtain ⟨hzero, hhook⟩ := hrecipients c (by simp)
    obtain ⟨hamount, hbalance⟩ := hamounts c (by simp)
    have hlower : toLowerCase e.recipient = hexAddress c.recipient := he.recipient.2
    have hrest := @ih (c.index.val : Int)
      (fun d hd => by exact_mod_cast hpairwise.1 _ (List.mem_map_of_mem hd)) hpairwise.2
      (fun d hd => hrecipients d (by simp [hd])) (fun d hd => hamounts d (by simp [hd]))
    have hamountPos := toNat_pos.mpr hamount
    have hbalancePos := toNat_pos.mpr hbalance
    simp only [validateEntries, bind_eq_ok, revertIf_eq_ok, entryIndex_eq_ok, uintWord_256_eq_ok,
      addressWord_eq_ok]
    refine ⟨_, ⟨c.index, he.index, rfl⟩, (), Int.not_le.mpr (habove c (by simp)), (), ?_,
      _, he.amount, (), by omega, _, he.directBalance, (), by omega,
      _, ⟨c.amount, he.amount, rfl⟩, _, ⟨c.directBalance, he.directBalance, rfl⟩,
      _, ⟨c.recipient, he.recipient, rfl⟩, hrest⟩
    rw [hlower, zeroAddress_eq, not_or]
    exact ⟨fun h => hzero (hexAddress_injective h), hhook⟩

theorem entryWords_of_denotes {e : ManifestEntry} {c : EntryContent} (h : EntryDenotes e c) :
    entryWords e = .ok (c.words.map wordBytes) := by
  have hindex : uintWord e.index 16 = .ok (wordBytes (BitVec.ofNat 256 c.index)) := by
    have hlt : c.index.val < 1024 := c.index.isLt
    refine uintWord_eq_ok.mpr ⟨c.index.val, ?_, by omega, ?_⟩
    · rw [h.index, toBigInt]
    · rw [wordBytes, BitVec.toNat_ofNat, Nat.mod_eq_of_lt (by omega)]
  have hrecipient := addressWord_eq_ok.mpr ⟨c.recipient, h.recipient, rfl⟩
  have hamount := uintWord_256_eq_ok.mpr ⟨c.amount, h.amount, rfl⟩
  have hbalance := uintWord_256_eq_ok.mpr ⟨c.directBalance, h.directBalance, rfl⟩
  simp only [entryWords, hindex, hrecipient, hamount, hbalance, ok_bind]
  rfl

theorem mapM_entryWords {entries : List ManifestEntry} {cs : List EntryContent}
    (h : List.Forall₂ EntryDenotes entries cs) :
    entries.mapM entryWords = .ok (cs.map fun c => c.words.map wordBytes) := by
  induction h with
  | nil => rfl
  | cons he _ ih => simp only [List.mapM_cons, entryWords_of_denotes he, ih, ok_bind]; rfl

namespace ManifestContent

/-- Strictly increasing indices leave room for at most 1024 entries. -/
theorem length_le (c : ManifestContent) : c.entries.length ≤ width := by
  have hnodup : (c.entries.map EntryContent.index).Nodup :=
    c.increasing.imp fun h => ne_of_lt h
  simpa using hnodup.length_le_card

theorem words_length (c : ManifestContent) : c.words.length = 10 + 4 * c.entries.length := by
  rw [words, List.length_append, flatMap_length_of_width (k := 4) fun _ => rfl]
  rfl

end ManifestContent

theorem tag_word : wordBytes (BitVec.ofNat 256 (natOfBytes manifestTagBytes)) = manifestTagBytes :=
  wordBytes_ofNat (keccak256_length _)

theorem manifestTag_eq :
    manifestTag = hexWord (BitVec.ofNat 256 (natOfBytes manifestTagBytes)) := by
  rw [hexWord, tag_word, manifestTag]

/-- A number of the program that fits a word. -/
theorem uintWord_number {n bits : Nat} (hbits : n < 2 ^ bits) (h : n < 2 ^ 256) :
    uintWord (.number n) bits = .ok (wordBytes (BitVec.ofNat 256 n)) := by
  refine uintWord_eq_ok.mpr ⟨n, rfl, hbits, ?_⟩
  rw [wordBytes, BitVec.toNat_ofNat, Nat.mod_eq_of_lt h]

/-- The encoder writes the content that a manifest denotes. -/
theorem manifestBytes_of_denotes {m : Manifest} {c : ManifestContent} (h : Denotes m c) :
    manifestBytes m = .ok c.encoding := by
  have hlower : toLowerCase m.domain.hook = hexAddress c.hook := h.hook.2
  have hvalid : validateEntries m.domain.hook (-1) m.entries = .ok () := by
    refine validateEntries_of_denotes h.entries (fun e _ => by omega) c.increasing ?_ c.amounts
    intro e he
    obtain ⟨hzero, hhook⟩ := c.recipients e he
    refine ⟨hzero, fun hsame => hhook ?_⟩
    rw [hlower] at hsame
    exact hexAddress_injective hsame
  have hlength : m.entries.length = c.entries.length := h.entries.length_eq
  have hcount : c.entries.length < 2 ^ 256 := lt_of_le_of_lt c.length_le (by decide)
  have htag : bytes32Word manifestTag
      = .ok (wordBytes (BitVec.ofNat 256 (natOfBytes manifestTagBytes))) := by
    refine bytes32Word_eq_ok.mpr ⟨_, ?_, rfl⟩
    rw [manifestTag_eq]
    exact spells_bytesToHex _
  have hschema : uintWord (.number 1) 8 = .ok (wordBytes 1) :=
    uintWord_number (n := 1) (by decide) (by decide)
  have hheadSize : uintWord (.number 288) 256 = .ok (wordBytes 288) :=
    uintWord_number (n := 288) (by decide) (by decide)
  have hcountWord : uintWord (.number (m.entries.length : Int)) 256
      = .ok (wordBytes (BitVec.ofNat 256 c.entries.length)) := by
    rw [hlength]
    exact uintWord_number hcount hcount
  have hchainId := uintWord_256_eq_ok.mpr ⟨c.chainId, h.chainId, rfl⟩
  have hhook := addressWord_eq_ok.mpr ⟨c.hook, h.hook, rfl⟩
  have hcycleId := bytes32Word_eq_ok.mpr ⟨c.cycleId, h.cycleId, rfl⟩
  have hpayoutId := bytes32Word_eq_ok.mpr ⟨c.payoutId, h.payoutId, rfl⟩
  have hnumber := uintWord_256_eq_ok.mpr ⟨c.snapshotNumber, h.snapshotNumber, rfl⟩
  have hhash := bytes32Word_eq_ok.mpr ⟨c.snapshotHash, h.snapshotHash, rfl⟩
  have hentries := mapM_entryWords h.entries
  have hflat : (c.entries.map fun e => e.words.map wordBytes).flatten
      = (c.entries.flatMap EntryContent.words).map wordBytes := by
    rw [List.map_flatMap, List.flatMap_def]
  simp only [manifestBytes, hvalid, htag, hschema, hchainId, hhook, hcycleId, hpayoutId, hnumber,
    hhash, hheadSize, hentries, hcountWord, ok_bind, hflat]
  rw [pure_eq_ok, ManifestContent.encoding, ManifestContent.words, ManifestContent.headWords,
    encodeWords_eq, List.map_append]
  simp only [List.map_cons, List.map_nil]

/-- A manifest that the encoder accepts denotes a content. -/
theorem exists_denotes {m : Manifest} {b : Text} (h : manifestBytes m = .ok b) :
    ∃ c, Denotes m c ∧ b = c.encoding := by
  have hfound : ∃ c, Denotes m c := by
    simp only [manifestBytes, bind_eq_ok, uintWord_256_eq_ok, addressWord_eq_ok,
      bytes32Word_eq_ok] at h
    obtain ⟨_, hvalid, _, -, _, -, _, ⟨chainId, hchainId, -⟩, _, ⟨hook, hhook, -⟩,
      _, ⟨cycleId, hcycleId, -⟩, _, ⟨payoutId, hpayoutId, -⟩, _, ⟨number, hnumber, -⟩,
      _, ⟨hash, hhash, -⟩, -⟩ := h
    obtain ⟨cs, hentries, -, hincreasing, hrecipients, hamounts⟩ := validateEntries_ok hvalid
    have hlower : toLowerCase m.domain.hook = hexAddress hook := hhook.2
    have hdistinct : ∀ e ∈ cs, e.recipient ≠ 0 ∧ e.recipient ≠ hook := by
      intro e he
      obtain ⟨hzero, hne⟩ := hrecipients e he
      refine ⟨hzero, fun hsame => hne ?_⟩
      rw [hlower, hsame]
    exact ⟨⟨chainId, hook, cycleId, payoutId, number, hash, cs, hincreasing, hdistinct, hamounts⟩,
      hchainId, hhook, hcycleId, hpayoutId, hnumber, hhash, hentries⟩
  obtain ⟨c, hc⟩ := hfound
  refine ⟨c, hc, ?_⟩
  have hencoded := manifestBytes_of_denotes hc
  rw [h] at hencoded
  exact Except.ok.inj hencoded

theorem canonicalInteger_eq {v : Scalar} {x : BitVec 256} (h : toBigInt v = .ok (x.toNat : Int)) :
    canonicalInteger v = decimalWord x := by
  rw [canonicalInteger, h]
  rfl

theorem canonicalEntry_eq {e : ManifestEntry} {c : EntryContent} (h : EntryDenotes e c) :
    canonicalEntry e = c.render := by
  rw [canonicalEntry, EntryContent.render, h.index, h.recipient.2, canonicalInteger_eq h.amount,
    canonicalInteger_eq h.directBalance, hexAddress]

/-- The canonical spelling of a manifest is the spelling of its content. -/
theorem canonicalManifest_eq {m : Manifest} {c : ManifestContent} (h : Denotes m c) :
    canonicalManifest m = c.render := by
  have hentries : m.entries.map canonicalEntry = c.entries.map EntryContent.render := by
    have hforall := h.entries
    generalize m.entries = entries at hforall ⊢
    generalize c.entries = cs at hforall ⊢
    induction hforall with
    | nil => rfl
    | cons he _ ih => rw [List.map_cons, List.map_cons, canonicalEntry_eq he, ih]
  rw [canonicalManifest, ManifestContent.render, canonicalInteger_eq h.chainId, h.hook.2,
    h.cycleId.2, h.payoutId.2, canonicalInteger_eq h.snapshotNumber, h.snapshotHash.2, hentries]
  rfl

/-- The spelling of a content denotes it. -/
theorem denotes_render (c : ManifestContent) : Denotes c.render c where
  chainId := toBigInt_natText _
  hook := spells_bytesToHex _
  cycleId := spells_bytesToHex _
  payoutId := spells_bytesToHex _
  snapshotNumber := toBigInt_natText _
  snapshotHash := spells_bytesToHex _
  entries := by
    rw [ManifestContent.render, List.forall₂_map_left_iff, List.forall₂_same]
    intro e _
    exact ⟨rfl, spells_bytesToHex _, toBigInt_natText _, toBigInt_natText _⟩

/-! ## Reading an encoding -/

/-- The word at an offset of an encoding. -/
theorem readWord_encodeWords {ws : List (BitVec 256)} {k : Nat} (offset : Nat) {x : BitVec 256}
    (hx : ws[k]? = some x) (hoffset : offset = 32 * k) (label : String) :
    readWord (encodeWords ws) offset label = .ok (wordBytes x) := by
  obtain ⟨hk, -⟩ := List.getElem?_eq_some_iff.mp hx
  have hfits : ¬ (encodeWords ws).length < offset + 32 := by
    rw [encodeWords_length]
    omega
  rw [readWord, throwIf_of_not hfits, hoffset, ok_bind, encodeWords,
    take_drop_flatMap wordBytes_length hx]
  rfl

theorem readUint_encodeWords {ws : List (BitVec 256)} {k : Nat} (offset bits : Nat) {x : BitVec 256}
    (hx : ws[k]? = some x) (hoffset : offset = 32 * k) (hbits : x.toNat < 2 ^ bits)
    (label : String) : readUint (encodeWords ws) offset bits label = .ok x.toNat := by
  rw [readUint, readWord_encodeWords offset hx hoffset, ok_bind, natOfBytes_wordBytes,
    throwIf_of_not (Nat.not_le_of_lt hbits)]
  rfl

theorem readDecimal_encodeWords {ws : List (BitVec 256)} {k : Nat} (offset : Nat) {x : BitVec 256}
    (hx : ws[k]? = some x) (hoffset : offset = 32 * k) (label : String) :
    readDecimal (encodeWords ws) offset label = .ok (decimalWord x) := by
  rw [readDecimal, readUint_encodeWords offset 256 hx hoffset x.isLt]
  rfl

theorem readBytes32_encodeWords {ws : List (BitVec 256)} {k : Nat} (offset : Nat) {x : BitVec 256}
    (hx : ws[k]? = some x) (hoffset : offset = 32 * k) (label : String) :
    readBytes32 (encodeWords ws) offset label = .ok (hexWord x) := by
  rw [readBytes32, readWord_encodeWords offset hx hoffset]
  rfl

theorem readAddress_encodeWords {ws : List (BitVec 256)} {k : Nat} (offset : Nat) {a : BitVec 160}
    (hx : ws[k]? = some (a.setWidth 256)) (hoffset : offset = 32 * k) (label : String) :
    readAddress (encodeWords ws) offset label = .ok (hexAddress a) := by
  have hzeros : ¬ ∃ byte ∈ (List.replicate 12 (0 : UInt8) ++ bytesOfNat 20 a.toNat).take 12,
      byte ≠ 0 := by
    rw [List.take_left' (List.length_replicate ..)]
    rintro ⟨byte, hbyte, hne⟩
    exact hne (List.eq_of_mem_replicate hbyte)
  rw [readAddress, readWord_encodeWords offset hx hoffset, ok_bind, wordBytes_setWidth,
    throwIf_of_not hzeros, ok_bind, List.drop_left' (List.length_replicate ..)]
  rfl

namespace ManifestContent

/-- The words of the head. -/
theorem words_head (c : ManifestContent) {k : Nat} (hk : k < 10) :
    c.words[k]? = c.headWords[k]? :=
  List.getElem?_append_left (by simpa [headWords] using hk)

/-- The words of an entry. -/
theorem words_entry (c : ManifestContent) {i j : Nat} {e : EntryContent}
    (he : c.entries[i]? = some e) (hj : j < 4) : c.words[10 + (4 * i + j)]? = e.words[j]? := by
  have hhead : c.headWords.length = 10 := rfl
  rw [words, List.getElem?_append_right (by omega), hhead, Nat.add_sub_cancel_left]
  exact getElem?_flatMap (k := 4) (fun _ => rfl) he hj

end ManifestContent

/-- An entry of an encoding is read in its canonical spelling. -/
theorem readEntry_encoding {c : ManifestContent} {i : Nat} {e : EntryContent}
    (he : c.entries[i]? = some e) : readEntry (encodeWords c.words) i = .ok e.render := by
  have hlt : e.index.val < 1024 := e.index.isLt
  have hindex : (BitVec.ofNat 256 e.index.val).toNat = e.index.val := by
    rw [BitVec.toNat_ofNat]
    exact Nat.mod_eq_of_lt (by omega)
  have hword := fun j hj => c.words_entry (j := j) he hj
  rw [readEntry, readUint_encodeWords _ _ (hword 0 (by decide)) (by omega) (by rw [hindex]; omega),
    readAddress_encodeWords _ (hword 1 (by decide)) (by omega),
    readDecimal_encodeWords _ (hword 2 (by decide)) (by omega),
    readDecimal_encodeWords _ (hword 3 (by decide)) (by omega), hindex]
  rfl

theorem readEntries_encoding (c : ManifestContent) :
    (List.range c.entries.length).mapM (readEntry (encodeWords c.words))
      = .ok (c.entries.map EntryContent.render) :=
  mapM_range_eq_ok fun _ _ he => readEntry_encoding he

/-- An encoding has the shape that the decoder asks for. -/
theorem isManifestText_encoding (c : ManifestContent) : isManifestText c.encoding := by
  have hlength : (encodeWords c.words).length = 320 + c.entries.length * 128 := by
    rw [encodeWords_length, c.words_length]
    omega
  have hne : hexOfBytes (encodeWords c.words) ≠ [] := by
    intro hnil
    have hzero := congrArg List.length hnil
    rw [hexOfBytes_length, hlength] at hzero
    simp at hzero
  have htotal : c.encoding.length = 2 + 2 * (320 + c.entries.length * 128) := by
    rw [ManifestContent.encoding, bytesToHex, List.length_append, hexOfBytes_length, hlength,
      text_0x]
    rfl
  rw [isManifestText, htotal, ManifestContent.encoding, bytesToHex_take, bytesToHex_drop,
    hexOfBytes_length]
  simp only [beq_self_eq_true, Bool.true_and, Bool.and_eq_true, List.all_eq_true, beq_iff_eq,
    bne_iff_ne]
  exact ⟨⟨⟨hexOfBytes_lower _, by omega⟩, hne⟩, by omega⟩

theorem bytesOfHex_encoding (c : ManifestContent) :
    bytesOfHex (c.encoding.drop 2) = encodeWords c.words := by
  rw [ManifestContent.encoding, bytesToHex_drop, bytesOfHex_hexOfBytes]

theorem readCount_encoding (c : ManifestContent) :
    readUint (encodeWords c.words) 288 256 "manifest entry count" = .ok c.entries.length := by
  have hcount : (BitVec.ofNat 256 c.entries.length).toNat = c.entries.length := by
    rw [BitVec.toNat_ofNat]
    exact Nat.mod_eq_of_lt (lt_of_le_of_lt c.length_le (by decide))
  have hread := readUint_encodeWords 288 256 (c.words_head (by decide : 9 < 10))
    rfl (BitVec.isLt _) "manifest entry count"
  rwa [hcount] at hread

/-- The decoder reads the encoding of a content with entries. -/
theorem decode_encoding {c : ManifestContent} (hsome : 1 ≤ c.entries.length) :
    decodeCanonicalManifest c.encoding = .ok c.render := by
  have hmax := c.length_le
  have hbytes := bytesOfHex_encoding c
  have hlength : (encodeWords c.words).length = 320 + c.entries.length * 128 := by
    rw [encodeWords_length, c.words_length]
    omega
  -- the ten words before the entries, at their offsets
  have hhead := fun k (hk : k < 10) => c.words_head hk
  have htag := readBytes32_encodeWords 0 (hhead 0 (by decide)) rfl "manifest tag"
  have hschema := readUint_encodeWords 32 8 (hhead 1 (by decide)) rfl
    (by decide) "manifest schema"
  have hchainId := readDecimal_encodeWords 64 (hhead 2 (by decide)) rfl
    "manifest chainId"
  have hhook := readAddress_encodeWords 96 (hhead 3 (by decide)) rfl "manifest hook"
  have hcycleId := readBytes32_encodeWords 128 (hhead 4 (by decide)) rfl
    "manifest cycleId"
  have hpayoutId := readBytes32_encodeWords 160 (hhead 5 (by decide)) rfl
    "manifest payoutId"
  have hnumber := readDecimal_encodeWords 192 (hhead 6 (by decide)) rfl
    "manifest snapshot number"
  have hhash := readBytes32_encodeWords 224 (hhead 7 (by decide)) rfl
    "manifest snapshot hash"
  have hoffset := readUint_encodeWords 256 256 (hhead 8 (by decide)) rfl
    (BitVec.isLt _) "manifest entries offset"
  have hentryCount := readCount_encoding c
  have hentries := readEntries_encoding c
  have hencoded := manifestBytes_of_denotes (denotes_render c)
  -- the checks in between
  have hshape : ¬ ¬ isManifestText c.encoding := not_not.mpr (isManifestText_encoding c)
  have hlong : ¬ (encodeWords c.words).length < 320 := by omega
  have htagSame : ¬ hexWord (BitVec.ofNat 256 (natOfBytes manifestTagBytes)) ≠ manifestTag :=
    not_not.mpr manifestTag_eq.symm
  have hcountRange : ¬ (c.entries.length < 1 ∨ width < c.entries.length) := by
    rw [not_or, Nat.not_lt, Nat.not_lt]
    exact ⟨hsome, hmax⟩
  rw [decodeCanonicalManifest, throwIf_of_not hshape, ok_bind]
  dsimp only
  rw [hbytes, throwIf_of_not hlong, ok_bind, htag, ok_bind, throwIf_of_not htagSame, ok_bind,
    hschema, ok_bind, throwIf_of_not (by decide), ok_bind, hoffset, ok_bind,
    throwIf_of_not (by decide), ok_bind, hentryCount, ok_bind, throwIf_of_not hcountRange, ok_bind,
    throwIf_of_not (not_not.mpr hlength), ok_bind, hchainId, ok_bind, hhook, ok_bind, hcycleId,
    ok_bind, hpayoutId, ok_bind, hnumber, ok_bind, hhash, ok_bind, hentries, ok_bind]
  show (manifestBytes c.render >>= _) = _
  rw [hencoded, ok_bind, throwIf_of_not (not_not.mpr rfl), ok_bind]
  rfl

/-- What the decoder returns was encoded as the text, and it has entries. -/
theorem decode_ok {b : Text} {m : Manifest} (h : decodeCanonicalManifest b = .ok m) :
    manifestBytes m = .ok b ∧ 1 ≤ m.entries.length ∧ m.entries.length ≤ width := by
  simp only [decodeCanonicalManifest, bind_eq_ok, revertIf_eq_ok, pure_eq_ok,
    Decidable.not_not] at h
  obtain ⟨_, -, _, -, _, -, _, -, _, -, _, -, _, -, _, -, entryCount, hcount, _, hrange, _, -,
    _, -, _, -, _, -, _, -, _, -, _, -, _, -, encoded, hencoded, _, hsame, rfl⟩ := h
  subst hsame
  obtain ⟨c, hdenotes, hb⟩ := exists_denotes hencoded
  have hread := readCount_encoding c
  rw [← bytesOfHex_encoding, ← hb, hcount] at hread
  have hlength := hdenotes.entries.length_eq
  rw [← Except.ok.inj hread] at hlength
  refine ⟨hencoded, ?_, ?_⟩ <;> omega

/-- **The manifest codec.** The decoder returns the canonical spelling of every
manifest with entries that the encoder accepts, the encoder gives back every text that
the decoder accepts, so the decoder accepts exactly what the encoder writes for a
manifest with entries, and manifests with one encoding have one canonical spelling. -/
theorem manifest_codec :
    (∀ m b, 1 ≤ m.entries.length → m.entries.length ≤ width → manifestBytes m = .ok b →
      decodeCanonicalManifest b = .ok (canonicalManifest m)) ∧
    (∀ b m, decodeCanonicalManifest b = .ok m → manifestBytes m = .ok b) ∧
    (∀ b, (∃ m, decodeCanonicalManifest b = .ok m) ↔
      ∃ m : Manifest, 1 ≤ m.entries.length ∧ m.entries.length ≤ width ∧
        manifestBytes m = .ok b) ∧
    (∀ m m' b, 1 ≤ m.entries.length → m.entries.length ≤ width → 1 ≤ m'.entries.length →
      m'.entries.length ≤ width → manifestBytes m = .ok b → manifestBytes m' = .ok b →
      canonicalManifest m = canonicalManifest m') := by
  have hround : ∀ m b, 1 ≤ m.entries.length → manifestBytes m = .ok b →
      decodeCanonicalManifest b = .ok (canonicalManifest m) := by
    intro m b hsome h
    obtain ⟨c, hdenotes, rfl⟩ := exists_denotes h
    rw [hdenotes.entries.length_eq] at hsome
    rw [decode_encoding hsome, canonicalManifest_eq hdenotes]
  refine ⟨fun m b hsome _ h => hround m b hsome h, fun b m h => (decode_ok h).1, ?_, ?_⟩
  · intro b
    constructor
    · rintro ⟨m, h⟩
      obtain ⟨hencoded, hsome, hmax⟩ := decode_ok h
      exact ⟨m, hsome, hmax, hencoded⟩
    · rintro ⟨m, hsome, _, h⟩
      exact ⟨_, hround m b hsome h⟩
  · intro m m' b hsome _ hsome' _ h h'
    have hdecoded := hround m b hsome h
    rw [hround m' b hsome' h'] at hdecoded
    exact (Except.ok.inj hdecoded).symm

/-! ## A manifest in another spelling -/

def sampleContent : ManifestContent where
  chainId := 4663
  hook := 0xabcdefabcdefabcdefabcdefabcdefabcdef20cc
  cycleId := 1
  payoutId := 2
  snapshotNumber := 100
  snapshotHash := 3
  entries := [⟨0, 0x4001, 10, 5⟩, ⟨7, 0x4002, 20, 6⟩]
  increasing := by decide
  recipients := by decide
  amounts := by decide

/-- The sample content, in upper-case digits, with integers of several kinds. -/
def sampleManifest : Manifest where
  domain := {
    chainId := .string (text " 0x1237 ")
    hook := text "0xABCDEFABCDEFABCDEFABCDEFABCDEFABCDEF20CC"
    cycleId := hexWord 1
    payoutId := hexWord 2 }
  snapshotNumber := .bigint 100
  snapshotHash := hexWord 3
  entries := [⟨.number 0, hexAddress 0x4001, .number 10, .string (text "5")⟩,
    ⟨.number 7, hexAddress 0x4002, .object (.string (text "20")), .string (text "+6")⟩]

theorem sampleManifest_denotes : Denotes sampleManifest sampleContent where
  chainId := by decide +kernel
  hook := ⟨by decide +kernel, by decide +kernel⟩
  cycleId := spells_bytesToHex _
  payoutId := spells_bytesToHex _
  snapshotNumber := by decide +kernel
  snapshotHash := spells_bytesToHex _
  entries := .cons ⟨by decide +kernel, spells_bytesToHex _, by decide +kernel, by decide +kernel⟩
    (.cons ⟨by decide +kernel, spells_bytesToHex _, by decide +kernel, by decide +kernel⟩ .nil)

theorem manifest_codec_sample :
    decodeCanonicalManifest sampleContent.encoding = .ok (canonicalManifest sampleManifest) ∧
      manifestBytes (canonicalManifest sampleManifest) = .ok sampleContent.encoding := by
  have hdecoded := manifest_codec.1 sampleManifest sampleContent.encoding (by decide) (by decide)
    (manifestBytes_of_denotes sampleManifest_denotes)
  exact ⟨hdecoded, manifest_codec.2.1 _ _ hdecoded⟩

end Hookemon.Payout
