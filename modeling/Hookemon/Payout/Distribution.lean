import Hookemon.Payout.ManifestCodec
import Hookemon.Contracts.CanonicalMerkleSum
import Hookemon.Core.TreeLevels
import Hookemon.Core.Totals

/-! # The distribution of a payout

`buildDistribution` (`tooling/payout/canonical-merkle-sum.mjs`) makes the tree of a
manifest: 1024 leaves, of an entry or empty, the levels over them, and for each index
the siblings on its way up. `verifyProof` climbs them in the tooling, and `verify` of
the contract on the chain.

Under both stands the tree of words (`SumNode`). The tooling writes its nodes as
texts, a hash in hexadecimal and a sum in decimal (`SumNode.render`), and its joins
spell the joins of the contract.
-/

namespace Hookemon.Payout

open Hookemon.Core Hookemon.Js
open Hookemon.Contracts (Externals EntitlementClaim SumNode treeDepth treeWidth uint256Max)

/-! ## Nodes -/

structure LeafDomain extends ManifestDomain where
  manifestDigest : Text
deriving DecidableEq, Repr

structure MerkleNode where
  hash : Text
  sum : Text
deriving DecidableEq, Repr, Inhabited

def hashHex (bytes : Bytes) : Text := bytesToHex (keccak256 bytes)

def nonemptyLeafTag : Text := hashHex (asciiBytes "HOOKEMON_PAYOUT_NONEMPTY_LEAF_R55_A4_V1")
def emptyLeafTag : Text := hashHex (asciiBytes "HOOKEMON_PAYOUT_EMPTY_LEAF_R55_A4_V1")
def nodeTag : Text := hashHex (asciiBytes "HOOKEMON_PAYOUT_NODE_R55_A4_V1")

def leafDomainWords (domain : LeafDomain) : Except String (List Bytes) := do
  let chainId ← uintWord domain.chainId 256
  let hook ← addressWord domain.hook
  let cycleId ← bytes32Word domain.cycleId
  let payoutId ← bytes32Word domain.payoutId
  let manifestDigest ← bytes32Word domain.manifestDigest
  pure [chainId, hook, cycleId, payoutId, manifestDigest]

def nonemptyLeaf (domain : LeafDomain) (index : Int) (recipient : Text) (amount : Scalar) :
    Except String MerkleNode := do
  throwIf (index < 0 ∨ (width : Int) ≤ index) "leaf index out of range"
  throwIf (toLowerCase recipient = zeroAddress ∨ toLowerCase recipient = toLowerCase domain.hook)
    "leaf recipient must be nonzero and differ from the hook"
  let sum ← toBigInt amount
  throwIf (sum ≤ 0 ∨ (uint256Max : Int) < sum) "leaf amount must be positive uint256"
  let tag ← bytes32Word nonemptyLeafTag
  let domainWords ← leafDomainWords domain
  let indexWord ← uintWord (.number index) 16
  let recipientWord ← addressWord recipient
  let sumWord ← uintWord (.bigint sum) 256
  let encoded := (tag :: domainWords ++ [indexWord, recipientWord, sumWord]).flatten
  pure ⟨hashHex encoded, natText sum.toNat⟩

def emptyLeaf (domain : LeafDomain) (index : Int) : Except String MerkleNode := do
  throwIf (index < 0 ∨ (width : Int) ≤ index) "leaf index out of range"
  let tag ← bytes32Word emptyLeafTag
  let domainWords ← leafDomainWords domain
  let indexWord ← uintWord (.number index) 16
  pure ⟨hashHex (tag :: domainWords ++ [indexWord]).flatten, text "0"⟩

def parentNode (level : Nat) (left right : MerkleNode) : Except String MerkleNode := do
  throwIf (treeDepth ≤ level) "node level out of range"
  let leftSum ← toBigInt (.string left.sum)
  let rightSum ← toBigInt (.string right.sum)
  throwIf (leftSum < 0 ∨ rightSum < 0 ∨ (uint256Max : Int) - rightSum < leftSum)
    "uint256 sum overflow"
  let tag ← bytes32Word nodeTag
  let levelWord ← uintWord (.number level) 8
  let leftHash ← bytes32Word left.hash
  let leftWord ← uintWord (.bigint leftSum) 256
  let rightHash ← bytes32Word right.hash
  let rightWord ← uintWord (.bigint rightSum) 256
  let encoded := [tag, levelWord, leftHash, leftWord, rightHash, rightWord].flatten
  pure ⟨hashHex encoded, natText (leftSum + rightSum).toNat⟩

/-! ## Proofs -/

structure MerkleProof where
  siblingHashes : List Text
  siblingSums : List Text
deriving DecidableEq, Repr

/-- The siblings of a proof by their level. -/
def MerkleProof.sibling (proof : MerkleProof) (level : Nat) : MerkleNode :=
  ⟨proof.siblingHashes.getD level [], proof.siblingSums.getD level []⟩

def verifyProof (leaf : MerkleNode) (index : Int) (proof : MerkleProof)
    (expectedRoot : MerkleNode) : Except String Bool := do
  throwIf (index < 0 ∨ (width : Int) ≤ index) "proof index out of range"
  throwIf (proof.siblingHashes.length ≠ treeDepth ∨ proof.siblingSums.length ≠ treeDepth)
    "proof must have depth 10"
  let node ← climb parentNode index.toNat treeDepth (fun level => proof.sibling level) leaf
  pure (node.hash == expectedRoot.hash && node.sum == expectedRoot.sum)

/-! ## The builder -/

structure Distribution where
  manifestBytes : Text
  manifestDigest : Text
  leaves : List MerkleNode
  root : MerkleNode
  proofs : List MerkleProof
deriving DecidableEq, Repr

/-- `entryByIndex.get(index)`: the last entry with the index. -/
def entryAt (entries : List ManifestEntry) (index : Nat) : Option ManifestEntry :=
  entries.reverse.find? fun entry => entry.index = .number index

/-- The leaf of an index. -/
def leafAt (domain : LeafDomain) (entries : List ManifestEntry) (index : Nat) :
    Except String MerkleNode :=
  match entryAt entries index with
  | some entry => nonemptyLeaf domain index entry.recipient entry.amount
  | none => emptyLeaf domain index

/-- The proof of an index. -/
def proofAt (levels : List (List MerkleNode)) (index : Nat) : MerkleProof :=
  let siblings := siblingPath levels treeDepth 0 index
  ⟨siblings.map MerkleNode.hash, siblings.map MerkleNode.sum⟩

def buildDistribution (m : Manifest) : Except String Distribution := do
  let encodedManifest ← manifestBytes m
  let bytes ← hexToBytes encodedManifest ((encodedManifest.length - 2) / 2)
  let manifestDigest := hashHex bytes
  let leafDomain : LeafDomain := ⟨m.domain, manifestDigest⟩
  let leaves ← (List.range width).mapM (leafAt leafDomain m.entries)
  let levels ← treeLevels parentNode treeDepth 0 leaves
  let proofs := (List.range width).map (proofAt levels)
  pure ⟨encodedManifest, manifestDigest, leaves, (levels.getD treeDepth []).getD 0 default,
    proofs⟩

/-! ## The tree of words -/

/-- The text of a node. -/
def renderNode (node : SumNode) : MerkleNode := ⟨hexWord node.hash, natText node.sum.toNat⟩

/-- The domain of the leaves, in words. -/
def ManifestContent.leafDomain (c : ManifestContent) (digest : BitVec 256) : Contracts.Domain :=
  ⟨c.chainId, c.hook, c.cycleId, c.payoutId, digest⟩

/-- The last entry with an index. -/
def contentAt (entries : List EntryContent) (index : Nat) : Option EntryContent :=
  entries.reverse.find? fun e => e.index.val = index

section

variable (env : Externals)

/-- The leaf of an entry. -/
def entryLeaf (domain : Contracts.Domain) (index : Nat) (e : EntryContent) : SumNode :=
  ⟨env.keccak256 (encodeWords
    (Contracts.leafWords env domain (BitVec.ofNat 16 index) e.recipient e.amount)), e.amount⟩

/-- The leaf of an index without an entry. -/
def blankLeaf (domain : Contracts.Domain) (index : Nat) : SumNode :=
  ⟨env.keccak256 (encodeWords (Contracts.emptyLeafWords env domain (BitVec.ofNat 16 index))), 0⟩

/-- The leaf of an index, in words. -/
def contentLeaf (domain : Contracts.Domain) (entries : List EntryContent) (index : Nat) :
    SumNode :=
  match contentAt entries index with
  | some e => entryLeaf env domain index e
  | none => blankLeaf env domain index

/-- The leaves of a content. -/
def contentLeaves (domain : Contracts.Domain) (entries : List EntryContent) : List SumNode :=
  (List.range width).map (contentLeaf env domain entries)

end

/-! ## Words of the tooling -/

theorem bytes32Word_hexWord (x : BitVec 256) : bytes32Word (hexWord x) = .ok (wordBytes x) :=
  bytes32Word_eq_ok.mpr ⟨x, spells_bytesToHex _, rfl⟩

theorem uintWord_bigint (x : BitVec 256) :
    uintWord (.bigint (x.toNat : Int)) 256 = .ok (wordBytes x) :=
  uintWord_256_eq_ok.mpr ⟨x, rfl, rfl⟩

/-- An index of the tree in a word. -/
theorem uintWord_index {index : Nat} (hindex : index < width) :
    uintWord (.number (index : Int)) 16
      = .ok (wordBytes ((BitVec.ofNat 16 index).setWidth 256)) := by
  have hlt : index < 1024 := hindex
  have hword : (BitVec.ofNat 16 index).setWidth 256 = BitVec.ofNat 256 index := by
    apply BitVec.eq_of_toNat_eq
    rw [BitVec.toNat_setWidth, BitVec.toNat_ofNat, BitVec.toNat_ofNat,
      Nat.mod_eq_of_lt (by omega : index < 2 ^ 16)]
  rw [hword]
  exact uintWord_number (by omega) (by omega)

/-- The words of the domain of the leaves. -/
theorem leafDomainWords_of_denotes {m : Manifest} {c : ManifestContent} (hm : Denotes m c)
    (digest : BitVec 256) :
    leafDomainWords ⟨m.domain, hexWord digest⟩
      = .ok ([c.chainId, c.hook.setWidth 256, c.cycleId, c.payoutId, digest].map wordBytes) := by
  have hchainId := uintWord_256_eq_ok.mpr ⟨c.chainId, hm.chainId, rfl⟩
  have hhook := addressWord_eq_ok.mpr ⟨c.hook, hm.hook, rfl⟩
  have hcycleId := bytes32Word_eq_ok.mpr ⟨c.cycleId, hm.cycleId, rfl⟩
  have hpayoutId := bytes32Word_eq_ok.mpr ⟨c.payoutId, hm.payoutId, rfl⟩
  simp only [leafDomainWords, hchainId, hhook, hcycleId, hpayoutId, bytes32Word_hexWord, ok_bind]
  rfl

/-! ## The entry of an index -/

/-- A search through related lists finds related elements. -/
theorem find?_rel {α β : Type} {R : α → β → Prop} {p : α → Bool} {q : β → Bool}
    (hpq : ∀ a b, R a b → p a = q b) {xs : List α} {ys : List β} (h : List.Forall₂ R xs ys) :
    Option.Rel R (xs.find? p) (ys.find? q) := by
  induction h with
  | nil => exact Option.Rel.none
  | @cons x y xs ys hxy _ ih =>
    rw [List.find?_cons, List.find?_cons, hpq x y hxy]
    cases q y with
    | true => exact Option.Rel.some hxy
    | false => exact ih

/-- An element of a list is related to one of a related list. -/
theorem exists_of_forall₂ {α β : Type} {R : α → β → Prop} {xs : List α} {ys : List β}
    (h : List.Forall₂ R xs ys) {x : α} (hx : x ∈ xs) : ∃ y ∈ ys, R x y := by
  obtain ⟨i, hi, rfl⟩ := List.mem_iff_getElem.mp hx
  have hj : i < ys.length := by
    rw [← h.length_eq]
    exact hi
  exact ⟨ys[i], List.getElem_mem hj, h.get hi hj⟩

/-- The entry that the builder finds for an index denotes the one of the content. -/
theorem entryAt_rel {entries : List ManifestEntry} {cs : List EntryContent}
    (h : List.Forall₂ EntryDenotes entries cs) (index : Nat) :
    Option.Rel EntryDenotes (entryAt entries index) (contentAt cs index) := by
  apply find?_rel _ (List.forall₂_reverse_iff.mpr h)
  intro entry e he
  simp only [he.index, Scalar.number.injEq, Nat.cast_inj]

theorem mem_of_contentAt {entries : List EntryContent} {index : Nat} {e : EntryContent}
    (h : contentAt entries index = some e) : e ∈ entries ∧ e.index.val = index := by
  constructor
  · exact List.mem_reverse.mp (List.mem_of_find?_eq_some h)
  · simpa using List.find?_some h

section

variable {entries : List EntryContent} (hnodup : (entries.map EntryContent.index).Nodup)
include hnodup

/-- An entry stands at its index. -/
theorem contentAt_index {e : EntryContent} (he : e ∈ entries) :
    contentAt entries e.index.val = some e := by
  have hfound : (contentAt entries e.index.val).isSome := by
    rw [contentAt, List.find?_isSome]
    exact ⟨e, List.mem_reverse.mpr he, by simp⟩
  obtain ⟨found, hat⟩ := Option.isSome_iff_exists.mp hfound
  obtain ⟨hmem, hindex⟩ := mem_of_contentAt hat
  rw [hat, List.inj_on_of_nodup_map hnodup hmem he (Fin.ext hindex)]

/-- The sum of a leaf is what the entries give to its index. -/
theorem contentLeaf_sum (env : Externals) (domain : Contracts.Domain) (index : Nat) :
    (contentLeaf env domain entries index).sum.toNat
      = ∑ e ∈ entries.toFinset, if e.index.val = index then e.amount.toNat else 0 := by
  rw [contentLeaf]
  cases hat : contentAt entries index with
  | none =>
    symm
    apply Finset.sum_eq_zero
    intro e he
    apply if_neg
    rintro rfl
    rw [contentAt_index hnodup (List.mem_toFinset.mp he)] at hat
    cases hat
  | some e =>
    obtain ⟨hmem, hindex⟩ := mem_of_contentAt hat
    rw [Finset.sum_eq_single_of_mem e (List.mem_toFinset.mpr hmem), if_pos hindex]
    · rfl
    intro other hother hne
    apply if_neg
    intro hsame
    apply hne
    apply List.inj_on_of_nodup_map hnodup (List.mem_toFinset.mp hother) hmem
    exact Fin.ext (hsame.trans hindex.symm)

/-- The leaves add up to the amounts of the entries. -/
theorem contentLeaves_sum (env : Externals) (domain : Contracts.Domain) :
    ((contentLeaves env domain entries).map fun node => node.sum.toNat).sum
      = (entries.map fun e => e.amount.toNat).sum := by
  have hrange : (List.range width).toFinset = Finset.range width := List.toFinset_range width
  calc ((contentLeaves env domain entries).map fun node => node.sum.toNat).sum
      = ∑ index ∈ Finset.range width, (contentLeaf env domain entries index).sum.toNat := by
        rw [contentLeaves, List.map_map, ← List.sum_toFinset _ List.nodup_range, hrange]
        rfl
    _ = ∑ index ∈ Finset.range width, ∑ e ∈ entries.toFinset,
          if e.index.val = index then e.amount.toNat else 0 :=
        Finset.sum_congr rfl fun index _ => contentLeaf_sum hnodup env domain index
    _ = ∑ e ∈ entries.toFinset, ∑ index ∈ Finset.range width,
          if e.index.val = index then e.amount.toNat else 0 := Finset.sum_comm
    _ = ∑ e ∈ entries.toFinset, e.amount.toNat := by
        apply Finset.sum_congr rfl
        intro e _
        rw [Finset.sum_ite_eq, if_pos (Finset.mem_range.mpr e.index.isLt)]
    _ = (entries.map fun e => e.amount.toNat).sum := List.sum_toFinset _ hnodup.of_map

end

section

variable {env : Externals} (hkeccak : ∀ b, wordBytes (env.keccak256 b) = keccak256 b)
include hkeccak

theorem hashHex_eq (b : Bytes) : hashHex b = hexWord (env.keccak256 b) := by
  rw [hashHex, hexWord, hkeccak]

/-- A hash of words in the tooling. -/
theorem hashHex_words (words : List (BitVec 256)) :
    hashHex (words.map wordBytes).flatten = hexWord (env.keccak256 (encodeWords words)) := by
  rw [hashHex_eq hkeccak, encodeWords_eq]

/-- The joins of the tooling spell the joins of the contract. -/
theorem parentNode_render (level : Nat) (hlevel : level < treeDepth) (left right : SumNode) :
    (parentNode level (renderNode left) (renderNode right)).toOption
      = (Contracts.parentNode env level left right).toOption.map renderNode := by
  have hlt : level < 10 := hlevel
  have htag : bytes32Word nodeTag = .ok (wordBytes (Contracts.nodeTag env)) := by
    rw [nodeTag, hashHex_eq hkeccak]
    exact bytes32Word_hexWord _
  have hlevelWord : uintWord (.number (level : Int)) 8
      = .ok (wordBytes (BitVec.ofNat 256 level)) := uintWord_number (by omega) (by omega)
  have hmax : (BitVec.allOnes 256 - left.sum).toNat = 2 ^ 256 - 1 - left.sum.toNat := by
    have hle : left.sum ≤ BitVec.allOnes 256 := by
      rw [BitVec.le_def, BitVec.toNat_allOnes]
      exact Nat.le_sub_one_of_lt left.sum.isLt
    rw [BitVec.toNat_sub_of_le hle, BitVec.toNat_allOnes]
  have hleft := left.sum.isLt
  simp only [parentNode, Contracts.parentNode, renderNode, toBigInt_natText, ok_bind]
  by_cases hfits : BitVec.allOnes 256 - left.sum < right.sum
  · -- both refuse the sum
    have hover : (left.sum.toNat : Int) < 0 ∨ (right.sum.toNat : Int) < 0 ∨
        (uint256Max : Int) - right.sum.toNat < left.sum.toNat := by
      rw [BitVec.lt_def, hmax] at hfits
      simp only [uint256Max]
      omega
    rw [throwIf_of_not (Nat.not_le_of_lt hlevel), ok_bind, throwIf, revertIf, if_pos hover,
      revertIf, if_pos hfits]
    rfl
  · have hwithin : ¬ ((left.sum.toNat : Int) < 0 ∨ (right.sum.toNat : Int) < 0 ∨
        (uint256Max : Int) - right.sum.toNat < left.sum.toNat) := by
      rw [BitVec.lt_def, hmax] at hfits
      simp only [uint256Max]
      omega
    have hsum : ((left.sum.toNat : Int) + right.sum.toNat).toNat
        = (left.sum + right.sum).toNat := by
      rw [BitVec.lt_def, hmax] at hfits
      rw [BitVec.toNat_add, Nat.mod_eq_of_lt (by omega)]
      omega
    rw [throwIf_of_not (Nat.not_le_of_lt hlevel), ok_bind, throwIf_of_not hwithin, ok_bind,
      revertIf_of_not hfits, ok_bind, htag, ok_bind, hlevelWord, ok_bind, bytes32Word_hexWord,
      ok_bind, uintWord_bigint, ok_bind, bytes32Word_hexWord, ok_bind, uintWord_bigint, ok_bind,
      hsum]
    have hhash := hashHex_words hkeccak (Contracts.nodeWords env level left right)
    simp only [Contracts.nodeWords, List.map_cons, List.map_nil] at hhash
    rw [hhash]
    rfl

variable {m : Manifest} {c : ManifestContent} (hm : Denotes m c)
include hm

/-- The tooling spells the leaf of an entry. -/
theorem nonemptyLeaf_render (digest : BitVec 256) {index : Nat} (hindex : index < width)
    {entry : ManifestEntry} {e : EntryContent} (he : EntryDenotes entry e)
    (hmem : e ∈ c.entries) :
    nonemptyLeaf ⟨m.domain, hexWord digest⟩ index entry.recipient entry.amount
      = .ok (renderNode (entryLeaf env (c.leafDomain digest) index e)) := by
  have hlt : index < 1024 := hindex
  have hrange : ¬ ((index : Int) < 0 ∨ (width : Int) ≤ index) := by
    simp only [width]
    omega
  have hrecipient : ¬ (toLowerCase entry.recipient = zeroAddress ∨
      toLowerCase entry.recipient = toLowerCase m.domain.hook) := by
    have hlower : toLowerCase entry.recipient = hexAddress e.recipient := he.recipient.2
    have hhook : toLowerCase m.domain.hook = hexAddress c.hook := hm.hook.2
    obtain ⟨hzero, hne⟩ := c.recipients e hmem
    rw [hlower, hhook, zeroAddress_eq, not_or]
    exact ⟨fun h => hzero (hexAddress_injective h), fun h => hne (hexAddress_injective h)⟩
  have hamount : ¬ ((e.amount.toNat : Int) ≤ 0 ∨ (uint256Max : Int) < e.amount.toNat) := by
    have hpos := toNat_pos.mpr (c.amounts e hmem).1
    have hmax := e.amount.isLt
    simp only [uint256Max]
    omega
  have htag : bytes32Word nonemptyLeafTag = .ok (wordBytes (Contracts.nonemptyLeafTag env)) := by
    rw [nonemptyLeafTag, hashHex_eq hkeccak]
    exact bytes32Word_hexWord _
  have hrecipientWord := addressWord_eq_ok.mpr ⟨e.recipient, he.recipient, rfl⟩
  have hhash := hashHex_words hkeccak (Contracts.leafWords env (c.leafDomain digest)
    (BitVec.ofNat 16 index) e.recipient e.amount)
  simp only [Contracts.leafWords, ManifestContent.leafDomain, List.map_cons, List.map_nil] at hhash
  rw [nonemptyLeaf, throwIf_of_not hrange, ok_bind, throwIf_of_not hrecipient, ok_bind, he.amount,
    ok_bind, throwIf_of_not hamount, ok_bind, htag, ok_bind,
    leafDomainWords_of_denotes hm digest, ok_bind, uintWord_index hindex, ok_bind,
    hrecipientWord, ok_bind, uintWord_bigint, ok_bind]
  simp only [List.map_cons, List.map_nil, List.cons_append, List.nil_append]
  rw [hhash]
  rfl

theorem emptyLeaf_render {digest : BitVec 256} {index : Nat} (hindex : index < width) :
    emptyLeaf ⟨m.domain, hexWord digest⟩ index
      = .ok (renderNode (blankLeaf env (c.leafDomain digest) index)) := by
  have hlt : index < 1024 := hindex
  have hrange : ¬ ((index : Int) < 0 ∨ (width : Int) ≤ index) := by
    simp only [width]
    omega
  have htag : bytes32Word emptyLeafTag = .ok (wordBytes (Contracts.emptyLeafTag env)) := by
    rw [emptyLeafTag, hashHex_eq hkeccak]
    exact bytes32Word_hexWord _
  have hhash := hashHex_words hkeccak (Contracts.emptyLeafWords env (c.leafDomain digest)
    (BitVec.ofNat 16 index))
  simp only [Contracts.emptyLeafWords, ManifestContent.leafDomain, List.map_cons, List.map_nil]
    at hhash
  rw [emptyLeaf, throwIf_of_not hrange, ok_bind, htag, ok_bind,
    leafDomainWords_of_denotes hm digest, ok_bind, uintWord_index hindex, ok_bind]
  simp only [List.map_cons, List.map_nil, List.cons_append, List.nil_append]
  rw [hhash]
  rfl

/-- The tooling spells the leaf of every index. -/
theorem leafAt_render {digest : BitVec 256} {index : Nat} (hindex : index < width) :
    leafAt ⟨m.domain, hexWord digest⟩ m.entries index
      = .ok (renderNode (contentLeaf env (c.leafDomain digest) c.entries index)) := by
  have hrel := entryAt_rel hm.entries index
  rw [leafAt, contentLeaf]
  cases hat : contentAt c.entries index with
  | none =>
    rw [hat] at hrel
    cases hentry : entryAt m.entries index with
    | none => exact emptyLeaf_render hkeccak hm hindex
    | some entry =>
      rw [hentry] at hrel
      cases hrel
  | some e =>
    rw [hat] at hrel
    cases hentry : entryAt m.entries index with
    | none =>
      rw [hentry] at hrel
      cases hrel
    | some entry =>
      rw [hentry] at hrel
      cases hrel with
      | some he => exact nonemptyLeaf_render hkeccak hm digest hindex he (mem_of_contentAt hat).1

theorem leaves_render (digest : BitVec 256) :
    (List.range width).mapM (leafAt ⟨m.domain, hexWord digest⟩ m.entries)
      = .ok ((contentLeaves env (c.leafDomain digest) c.entries).map renderNode) := by
  rw [contentLeaves, List.map_map]
  apply mapM_eq_ok
  intro index hindex
  exact leafAt_render hkeccak hm (List.mem_range.mp hindex)

end

/-! ## The tree of a content -/

/-- The builder reads the bytes of an encoding back. -/
theorem hexToBytes_encoding (c : ManifestContent) :
    hexToBytes c.encoding ((c.encoding.length - 2) / 2) = .ok (encodeWords c.words) := by
  refine hexToBytes_eq_ok.mpr ⟨spells_bytesToHex _, ?_⟩
  rw [ManifestContent.encoding, bytesToHex, List.length_append, hexOfBytes_length, text_0x]
  simp

section

variable (env : Externals) (c : ManifestContent)

/-- The digest of a manifest. -/
def ManifestContent.digest : BitVec 256 := env.keccak256 (encodeWords c.words)

/-- The leaves of a manifest under its digest. -/
def ManifestContent.leaves : List SumNode :=
  contentLeaves env (c.leafDomain (c.digest env)) c.entries

/-- The levels over the leaves, as the joins of the contract make them. -/
def ManifestContent.tree : Contracts.Run (List (List SumNode)) :=
  treeLevels (Contracts.parentNode env) treeDepth 0 (c.leaves env)

/-- The sum of the amounts. -/
def ManifestContent.total : Nat := (c.entries.map fun e => e.amount.toNat).sum

variable {env c}

theorem ManifestContent.leaves_length : (c.leaves env).length = 2 ^ treeDepth := by
  rw [leaves, contentLeaves, List.length_map, List.length_range]
  rfl

theorem ManifestContent.indices_nodup : (c.entries.map EntryContent.index).Nodup :=
  c.increasing.imp fun h => ne_of_lt h

/-- The leaf of an entry stands at its index. -/
theorem ManifestContent.leaf_of_mem {e : EntryContent} (he : e ∈ c.entries) :
    (c.leaves env)[e.index.val]?
      = some (entryLeaf env (c.leafDomain (c.digest env)) e.index.val e) := by
  have hlt : e.index.val < (List.range width).length := by
    rw [List.length_range]
    exact e.index.isLt
  rw [leaves, contentLeaves, List.getElem?_map, List.getElem?_eq_getElem hlt, List.getElem_range,
    Option.map_some, contentLeaf, contentAt_index c.indices_nodup he]

/-- Two nodes within a word have a parent. -/
theorem parentNode_isOk (level : Nat) (left right : SumNode)
    (h : left.sum.toNat + right.sum.toNat ≤ uint256Max) :
    ∃ parent, Contracts.parentNode env level left right = .ok parent := by
  refine ⟨_, Contracts.parentNode_eq_ok.mpr ⟨?_, rfl⟩⟩
  have hle : left.sum ≤ BitVec.allOnes 256 := by
    rw [BitVec.le_def, BitVec.toNat_allOnes]
    exact Nat.le_sub_one_of_lt left.sum.isLt
  rw [BitVec.le_def, BitVec.toNat_sub_of_le hle, BitVec.toNat_allOnes]
  simp only [uint256Max] at h
  omega

/-- The root of a tree carries the total. -/
theorem ManifestContent.root_total {levels : List (List SumNode)} (h : c.tree env = .ok levels) :
    ((levels.getD treeDepth []).getD 0 default).sum.toNat = c.total := by
  have hroot := root_sum (fun node : SumNode => node.sum.toNat)
    (fun _ _ _ _ hparent => Contracts.parentNode_sum hparent) h c.leaves_length
  exact hroot.trans (contentLeaves_sum c.indices_nodup env _)

variable (env) in
/-- A content has a tree when its total fits a word. -/
theorem ManifestContent.tree_isOk (h : c.total ≤ uint256Max) :
    ∃ levels, c.tree env = .ok levels := by
  apply treeLevels_isOk (fun node : SumNode => node.sum.toNat)
    (fun _ _ _ _ hparent => Contracts.parentNode_sum hparent) parentNode_isOk 0 c.leaves_length
  rwa [leaves, contentLeaves_sum c.indices_nodup]

end

/-! ## Showing an entry -/

/-- A call of `verify` on the chain spells an entry, a proof and a root of the tooling. -/
structure SpellsCall (leafDomain : LeafDomain) (entry : ManifestEntry) (proof : MerkleProof)
    (root : MerkleNode) (domain : Contracts.Domain) (claim : EntitlementClaim)
    (expectedRoot : SumNode) : Prop where
  chainId : toBigInt leafDomain.chainId = .ok (domain.chainId.toNat : Int)
  hook : Spells leafDomain.hook (bytesOfNat 20 domain.hook.toNat)
  cycleId : Spells leafDomain.cycleId (wordBytes domain.cycleId)
  payoutId : Spells leafDomain.payoutId (wordBytes domain.payoutId)
  manifestDigest : leafDomain.manifestDigest = hexWord domain.manifestDigest
  index : entry.index = .number (claim.index.toNat : Int)
  recipient : Spells entry.recipient (bytesOfNat 20 claim.recipient.toNat)
  amount : toBigInt entry.amount = .ok (claim.amount.toNat : Int)
  siblingHashes : proof.siblingHashes = claim.siblingHashes.toList.map hexWord
  siblingSums : proof.siblingSums = claim.siblingSums.toList.map fun sum => natText sum.toNat
  root : root = renderNode expectedRoot

/-- The proof at the index of an entry shows its leaf, in the tooling and on the chain. -/
def Shown (env : Externals) (m : Manifest) (d : Distribution) (entry : ManifestEntry) : Prop :=
  let leafDomain : LeafDomain := ⟨m.domain, d.manifestDigest⟩
  ∃ (index : Nat) (leaf : MerkleNode) (proof : MerkleProof),
    entry.index = .number index ∧ d.leaves[index]? = some leaf ∧ d.proofs[index]? = some proof ∧
    nonemptyLeaf leafDomain index entry.recipient entry.amount = .ok leaf ∧
    verifyProof leaf index proof d.root = .ok true ∧
    ∃ domain claim root, SpellsCall leafDomain entry proof d.root domain claim root ∧
      Contracts.verify env domain claim root.hash root.sum = .ok true

/-- The proof that the tooling hands out, by its level. -/
theorem proofAt_sibling (levels : List (List MerkleNode)) (index level : Nat) :
    (proofAt levels index).sibling level
      = (siblingPath levels treeDepth 0 index).getD level default := by
  simp only [MerkleProof.sibling, proofAt]
  have hhash : ((siblingPath levels treeDepth 0 index).map MerkleNode.hash).getD level []
      = ((siblingPath levels treeDepth 0 index).getD level default).hash :=
    List.getD_map _ default MerkleNode.hash
  have hsum : ((siblingPath levels treeDepth 0 index).map MerkleNode.sum).getD level []
      = ((siblingPath levels treeDepth 0 index).getD level default).sum :=
    List.getD_map _ default MerkleNode.sum
  rw [hhash, hsum]

/-- The call of `verify` for an entry, with the siblings of its path. -/
def claimOf (levels : List (List SumNode)) (e : EntryContent) : EntitlementClaim where
  index := BitVec.ofNat 16 e.index.val
  recipient := e.recipient
  amount := e.amount
  siblingHashes := ⟨((siblingPath levels treeDepth 0 e.index.val).map SumNode.hash).toArray, by
    rw [List.size_toArray, List.length_map, siblingPath_length]⟩
  siblingSums := ⟨((siblingPath levels treeDepth 0 e.index.val).map SumNode.sum).toArray, by
    rw [List.size_toArray, List.length_map, siblingPath_length]⟩

theorem claimOf_sibling (levels : List (List SumNode)) (e : EntryContent) (level : Fin treeDepth) :
    (claimOf levels e).sibling level
      = (siblingPath levels treeDepth 0 e.index.val).getD level default := by
  have hlength := siblingPath_length levels treeDepth 0 e.index.val
  have hlt : level.val < (siblingPath levels treeDepth 0 e.index.val).length := by
    rw [hlength]
    exact level.isLt
  rw [List.getD_eq_getElem _ _ hlt]
  simp [EntitlementClaim.sibling, claimOf]

theorem claimOf_index (levels : List (List SumNode)) (e : EntryContent) :
    (claimOf levels e).index.toNat = e.index.val := by
  have hlt : e.index.val < 1024 := e.index.isLt
  rw [claimOf, BitVec.toNat_ofNat, Nat.mod_eq_of_lt (by omega)]

section

variable {env : Externals} {c : ManifestContent} {levels : List (List SumNode)}
variable (htree : c.tree env = .ok levels)
include htree

/-- The root of a tree. -/
theorem top_render :
    (((levels.map (List.map renderNode)).getD treeDepth []).getD 0 default)
      = renderNode ((levels.getD treeDepth []).getD 0 default) := by
  have hlevel : (levels.map (List.map renderNode)).getD treeDepth []
      = (levels.getD treeDepth []).map renderNode := by
    rw [← List.map_nil (f := renderNode), List.getD_map]
  rw [hlevel, top_level htree c.leaves_length]
  rfl

/-- The siblings of an index, as the tooling writes them. -/
theorem siblingPath_render {index : Nat} (hindex : index < width) :
    siblingPath (levels.map (List.map renderNode)) treeDepth 0 index
      = (siblingPath levels treeDepth 0 index).map renderNode := by
  apply siblingPath_map
  intro l hl
  rw [Nat.zero_add, level_length htree c.leaves_length l (Nat.le_of_lt hl)]
  exact cursor_lt hindex hl

/-- The contract accepts the claim of an entry. -/
theorem verify_claimOf {e : EntryContent} (he : e ∈ c.entries) :
    Contracts.verify env (c.leafDomain (c.digest env)) (claimOf levels e)
      ((levels.getD treeDepth []).getD 0 default).hash
      ((levels.getD treeDepth []).getD 0 default).sum = .ok true := by
  have hindex := claimOf_index levels e
  have hlt : e.index.val < 1024 := e.index.isLt
  have hleaf : Contracts.nonemptyLeaf env (c.leafDomain (c.digest env)) (claimOf levels e).index
      (claimOf levels e).recipient (claimOf levels e).amount
      = .ok (entryLeaf env (c.leafDomain (c.digest env)) e.index.val e) := by
    apply Contracts.nonemptyLeaf_eq_ok.mpr
    refine ⟨by rw [hindex]; exact hlt, ?_, (c.amounts e he).1, rfl⟩
    rw [not_or]
    exact c.recipients e he
  have hclimb := climb_siblingPath htree c.leaves_length (c.leaf_of_mem he)
  have hsiblings : (claimOf levels e).sibling
      = fun level : Fin treeDepth =>
        (siblingPath levels treeDepth 0 e.index.val).getD level default := by
    funext level
    exact claimOf_sibling levels e level
  rw [Contracts.verify, hleaf, ok_bind, hindex, hsiblings, hclimb, ok_bind, beq_self_eq_true,
    beq_self_eq_true]
  rfl

variable (hkeccak : ∀ b, wordBytes (env.keccak256 b) = keccak256 b)
include hkeccak

/-- The tooling makes the same tree. -/
theorem tree_render :
    treeLevels parentNode treeDepth 0 ((c.leaves env).map renderNode)
      = .ok (levels.map (List.map renderNode)) := by
  have hmap := treeLevels_map (parentNode_render hkeccak) treeDepth 0 (c.leaves env)
    (Nat.le_refl _)
  have hcontent : treeLevels (Contracts.parentNode env) treeDepth 0 (c.leaves env) = .ok levels :=
    htree
  rw [hcontent] at hmap
  cases htooling : treeLevels parentNode treeDepth 0 ((c.leaves env).map renderNode) with
  | error message =>
    rw [htooling] at hmap
    cases hmap
  | ok found =>
    rw [htooling] at hmap
    exact congrArg Except.ok (Option.some.inj hmap)

variable {m : Manifest} (hm : Denotes m c)
include hm

/-- What the builder makes of a manifest whose content has a tree. -/
theorem buildDistribution_of_tree :
    buildDistribution m = .ok {
      manifestBytes := c.encoding
      manifestDigest := hexWord (c.digest env)
      leaves := (c.leaves env).map renderNode
      root := renderNode ((levels.getD treeDepth []).getD 0 default)
      proofs := (List.range width).map (proofAt (levels.map (List.map renderNode))) } := by
  have hleaves := leaves_render hkeccak hm (c.digest env)
  rw [buildDistribution, manifestBytes_of_denotes hm, ok_bind, hexToBytes_encoding, ok_bind]
  dsimp only
  rw [hashHex_eq hkeccak]
  show ((List.range width).mapM (leafAt ⟨m.domain, hexWord (c.digest env)⟩ m.entries) >>= _) = _
  rw [hleaves, ok_bind]
  show (treeLevels parentNode treeDepth 0 ((c.leaves env).map renderNode) >>= _) = _
  rw [tree_render htree hkeccak, ok_bind, top_render htree]
  rfl

/-- Every entry of a distribution can be shown. -/
theorem shown_of_tree {d : Distribution} (hd : buildDistribution m = .ok d)
    {entry : ManifestEntry} {e : EntryContent} (hentry : EntryDenotes entry e)
    (he : e ∈ c.entries) : Shown env m d entry := by
  rw [buildDistribution_of_tree htree hkeccak hm, Except.ok.injEq] at hd
  subst hd
  have hlt : e.index.val < width := e.index.isLt
  have hleaf := nonemptyLeaf_render hkeccak hm (c.digest env) hlt hentry he
  have hat : ((c.leaves env).map renderNode)[e.index.val]?
      = some (renderNode (entryLeaf env (c.leafDomain (c.digest env)) e.index.val e)) := by
    rw [List.getElem?_map, c.leaf_of_mem he, Option.map_some]
  have hpath := siblingPath_render htree hlt
  have hindexLt : e.index.val < (List.range width).length := by
    rw [List.length_range]
    exact hlt
  unfold Shown
  dsimp only
  refine ⟨e.index.val, renderNode (entryLeaf env (c.leafDomain (c.digest env)) e.index.val e),
    proofAt (levels.map (List.map renderNode)) e.index.val, hentry.index, hat, ?_, hleaf, ?_, ?_⟩
  · rw [List.getElem?_map, List.getElem?_eq_getElem hindexLt, List.getElem_range, Option.map_some]
  · -- the tooling climbs through its own levels
    have hlength : ((c.leaves env).map renderNode).length = 2 ^ treeDepth := by
      rw [List.length_map, c.leaves_length]
    have hclimb := climb_siblingPath (tree_render htree hkeccak) hlength hat
    have hrange : ¬ ((e.index.val : Int) < 0 ∨ (width : Int) ≤ e.index.val) := by
      simp only [width] at hlt ⊢
      omega
    have hdepth : ¬ ((proofAt (levels.map (List.map renderNode)) e.index.val).siblingHashes.length
          ≠ treeDepth ∨
        (proofAt (levels.map (List.map renderNode)) e.index.val).siblingSums.length
          ≠ treeDepth) := by
      simp only [proofAt, List.length_map, siblingPath_length, ne_eq, not_true_eq_false, or_self,
        not_false_eq_true]
    rw [verifyProof, throwIf_of_not hrange, ok_bind, throwIf_of_not hdepth, ok_bind,
      Int.toNat_natCast]
    simp only [proofAt_sibling]
    rw [hclimb, ok_bind, top_render htree, beq_self_eq_true, beq_self_eq_true]
    rfl
  -- the contract reads the same path as bytes
  · refine ⟨c.leafDomain (c.digest env), claimOf levels e,
      (levels.getD treeDepth []).getD 0 default, ?_, verify_claimOf htree he⟩
    exact {
      chainId := hm.chainId
      hook := hm.hook
      cycleId := hm.cycleId
      payoutId := hm.payoutId
      manifestDigest := rfl
      index := by rw [claimOf_index]; exact hentry.index
      recipient := hentry.recipient
      amount := hentry.amount
      siblingHashes := by
        rw [proofAt, hpath]
        simp [claimOf, renderNode]
      siblingSums := by
        rw [proofAt, hpath]
        simp [claimOf, renderNode]
      root := rfl }

end

/-- A content without a tree is refused by the tooling. -/
theorem buildDistribution_error {env : Externals} {c : ManifestContent} {m : Manifest}
    (hkeccak : ∀ b, wordBytes (env.keccak256 b) = keccak256 b) (hm : Denotes m c)
    (hover : uint256Max < c.total) : ∃ message, buildDistribution m = .error message := by
  cases hbuilt : buildDistribution m with
  | error message => exact ⟨message, rfl⟩
  | ok d =>
    exfalso
    have hleaves := leaves_render hkeccak hm (c.digest env)
    rw [buildDistribution, manifestBytes_of_denotes hm, ok_bind, hexToBytes_encoding, ok_bind,
      hashHex_eq hkeccak] at hbuilt
    obtain ⟨leaves, hfound, hrest⟩ := bind_eq_ok.mp hbuilt
    obtain ⟨levels', hlevels, -⟩ := bind_eq_ok.mp hrest
    have hsame : leaves = (c.leaves env).map renderNode := Except.ok.inj (hfound.symm.trans hleaves)
    rw [hsame] at hlevels
    have hmap := treeLevels_map (parentNode_render hkeccak) treeDepth 0 (c.leaves env)
      (Nat.le_refl _)
    rw [hlevels] at hmap
    cases htree : c.tree env with
    | error e =>
      have hcontent : treeLevels (Contracts.parentNode env) treeDepth 0 (c.leaves env) = .error e :=
        htree
      rw [hcontent] at hmap
      cases hmap
    | ok levels =>
      -- the root would be a word that carries the total
      have hroot := ManifestContent.root_total htree
      have hword := ((levels.getD treeDepth []).getD 0 default).sum.isLt
      simp only [uint256Max] at hover
      omega

/-! ## Distributions of valid entries -/

/-- The domain and the snapshot of a manifest encode. -/
structure ValidDomain (m : Manifest) : Prop where
  chainId : ∃ word, uintWord m.domain.chainId 256 = .ok word
  hook : ∃ word, addressWord m.domain.hook = .ok word
  cycleId : ∃ word, bytes32Word m.domain.cycleId = .ok word
  payoutId : ∃ word, bytes32Word m.domain.payoutId = .ok word
  snapshotNumber : ∃ word, uintWord m.snapshotNumber 256 = .ok word
  snapshotHash : ∃ word, bytes32Word m.snapshotHash = .ok word

/-- The amounts of entries, added up. -/
def amountTotal (entries : List ManifestEntry) : Int :=
  (entries.map fun entry => figureOf (toBigInt entry.amount)).sum

/-- Valid entries on a valid domain denote a content. -/
theorem exists_denotes_of_valid {m : Manifest} (hdomain : ValidDomain m)
    (hentries : validateEntries m.domain.hook (-1) m.entries = .ok ()) : ∃ c, Denotes m c := by
  obtain ⟨_, hchainId⟩ := hdomain.chainId
  obtain ⟨chainId, hchainId, -⟩ := uintWord_256_eq_ok.mp hchainId
  obtain ⟨_, hhook⟩ := hdomain.hook
  obtain ⟨hook, hhook, -⟩ := addressWord_eq_ok.mp hhook
  obtain ⟨_, hcycleId⟩ := hdomain.cycleId
  obtain ⟨cycleId, hcycleId, -⟩ := bytes32Word_eq_ok.mp hcycleId
  obtain ⟨_, hpayoutId⟩ := hdomain.payoutId
  obtain ⟨payoutId, hpayoutId, -⟩ := bytes32Word_eq_ok.mp hpayoutId
  obtain ⟨_, hnumber⟩ := hdomain.snapshotNumber
  obtain ⟨number, hnumber, -⟩ := uintWord_256_eq_ok.mp hnumber
  obtain ⟨_, hhash⟩ := hdomain.snapshotHash
  obtain ⟨hash, hhash, -⟩ := bytes32Word_eq_ok.mp hhash
  obtain ⟨cs, hcontents, -, hincreasing, hrecipients, hamounts⟩ := validateEntries_ok hentries
  have hlower : toLowerCase m.domain.hook = hexAddress hook := hhook.2
  have hdistinct : ∀ e ∈ cs, e.recipient ≠ 0 ∧ e.recipient ≠ hook := by
    intro e he
    obtain ⟨hzero, hne⟩ := hrecipients e he
    refine ⟨hzero, fun hsame => hne ?_⟩
    rw [hlower, hsame]
  exact ⟨⟨chainId, hook, cycleId, payoutId, number, hash, cs, hincreasing, hdistinct, hamounts⟩,
    hchainId, hhook, hcycleId, hpayoutId, hnumber, hhash, hcontents⟩

theorem amountTotal_of_denotes {m : Manifest} {c : ManifestContent} (hm : Denotes m c) :
    amountTotal m.entries = (c.total : Int) := by
  rw [amountTotal, ManifestContent.total]
  have hforall := hm.entries
  generalize m.entries = entries at hforall ⊢
  generalize c.entries = cs at hforall ⊢
  induction hforall with
  | nil => rfl
  | cons he _ ih =>
    rw [List.map_cons, List.sum_cons, ih, he.amount, figureOf_ok, List.map_cons, List.sum_cons,
      Nat.cast_add]

/-- **Distributions are complete.** For a valid domain and valid entries whose amounts add
up to at most a word, the builder makes a distribution whose root carries the total, and
for each entry the proof at its index shows the leaf of the entry, in the tooling and on
the chain. When the amounts add up to more, it throws. -/
theorem distribution_complete (env : Externals)
    (hkeccak : ∀ b, wordBytes (env.keccak256 b) = keccak256 b) (m : Manifest)
    (hdomain : ValidDomain m)
    (hentries : validateEntries m.domain.hook (-1) m.entries = .ok ()) :
    (amountTotal m.entries ≤ uint256Max → ∃ d, buildDistribution m = .ok d ∧
      d.root.sum = natText (amountTotal m.entries).toNat ∧
      ∀ entry ∈ m.entries, Shown env m d entry) ∧
    ((uint256Max : Int) < amountTotal m.entries →
      ∃ message, buildDistribution m = .error message) := by
  obtain ⟨c, hm⟩ := exists_denotes_of_valid hdomain hentries
  rw [amountTotal_of_denotes hm]
  constructor
  · intro hwithin
    obtain ⟨levels, htree⟩ := c.tree_isOk env (by exact_mod_cast hwithin)
    have hbuilt := buildDistribution_of_tree htree hkeccak hm
    refine ⟨_, hbuilt, ?_, ?_⟩
    · show natText _ = _
      rw [ManifestContent.root_total htree, Int.toNat_natCast]
    · intro entry hentry
      obtain ⟨e, he, hdenotes⟩ := exists_of_forall₂ hm.entries hentry
      exact shown_of_tree htree hkeccak hm hbuilt hdenotes he
  · intro hover
    exact buildDistribution_error hkeccak hm (by exact_mod_cast hover)

/-- The machine, as far as the tree of a payout looks at it: the hash of the tooling. -/
def toolingHash : Externals where
  keccak256 := fun b => BitVec.ofNat 256 (natOfBytes (keccak256 b))
  mulDivRoundingUp := fun _ _ _ => .error .emptyRevert

theorem distribution_complete_sample :
    ∃ d, buildDistribution sampleManifest = .ok d ∧ d.root.sum = text "30" ∧
      ∀ entry ∈ sampleManifest.entries, Shown toolingHash sampleManifest d entry := by
  have hm := sampleManifest_denotes
  have hdomain : ValidDomain sampleManifest := {
    chainId := ⟨_, uintWord_256_eq_ok.mpr ⟨_, hm.chainId, rfl⟩⟩
    hook := ⟨_, addressWord_eq_ok.mpr ⟨_, hm.hook, rfl⟩⟩
    cycleId := ⟨_, bytes32Word_eq_ok.mpr ⟨_, hm.cycleId, rfl⟩⟩
    payoutId := ⟨_, bytes32Word_eq_ok.mpr ⟨_, hm.payoutId, rfl⟩⟩
    snapshotNumber := ⟨_, uintWord_256_eq_ok.mpr ⟨_, hm.snapshotNumber, rfl⟩⟩
    snapshotHash := ⟨_, bytes32Word_eq_ok.mpr ⟨_, hm.snapshotHash, rfl⟩⟩ }
  have hentries : validateEntries sampleManifest.domain.hook (-1) sampleManifest.entries = .ok () :=
    by decide +kernel
  have htotal : amountTotal sampleManifest.entries = 30 := by decide +kernel
  have hcomplete := distribution_complete toolingHash
    (fun b => wordBytes_ofNat (keccak256_length b)) sampleManifest hdomain hentries
  rw [htotal] at hcomplete
  exact hcomplete.1 (by decide)

end Hookemon.Payout
