import Hookemon.Core.SumTree
import Hookemon.Contracts.Basic

/-! # Entitlement proofs (`payout/CanonicalMerkleSum.sol`)

A payout is committed to as the root of a tree of depth ten whose nodes carry the
sum of the amounts below them. An entitlement is claimed with the ten siblings on
the way from its leaf to the root; their hashes and sums come from the claimant.
-/

namespace Hookemon.Contracts

open Hookemon.Core

abbrev treeDepth : Nat := 10
abbrev treeWidth : Nat := 1024

structure Domain where
  chainId : BitVec 256
  hook : Address
  cycleId : Bytes32
  payoutId : Bytes32
  manifestDigest : Bytes32
deriving DecidableEq, Repr

/-- `Node`: a hash and the sum of the amounts below it. -/
structure SumNode where
  hash : Bytes32
  sum : BitVec 256
deriving DecidableEq, Repr, Inhabited

/-- The arguments of a claim: what is claimed, and the siblings that show it. -/
structure EntitlementClaim where
  index : BitVec 16
  recipient : Address
  amount : BitVec 256
  siblingHashes : Vector Bytes32 treeDepth
  siblingSums : Vector (BitVec 256) treeDepth
deriving DecidableEq

section

variable (env : Externals)

def nonemptyLeafTag : Bytes32 :=
  env.keccak256 (asciiBytes "HOOKEMON_PAYOUT_NONEMPTY_LEAF_R55_A4_V1")

def emptyLeafTag : Bytes32 := env.keccak256 (asciiBytes "HOOKEMON_PAYOUT_EMPTY_LEAF_R55_A4_V1")

def nodeTag : Bytes32 := env.keccak256 (asciiBytes "HOOKEMON_PAYOUT_NODE_R55_A4_V1")

/-- The tuple that `nonemptyLeaf` hashes. -/
def leafWords (domain : Domain) (index : BitVec 16) (recipient : Address) (amount : BitVec 256) :
    List (BitVec 256) :=
  [nonemptyLeafTag env, domain.chainId, domain.hook.setWidth 256, domain.cycleId,
    domain.payoutId, domain.manifestDigest, index.setWidth 256, recipient.setWidth 256, amount]

def nonemptyLeaf (domain : Domain) (index : BitVec 16) (recipient : Address)
    (amount : BitVec 256) : Run SumNode := do
  revertIf (treeWidth ≤ index.toNat) .invalidIndex
  revertIf (recipient = 0 ∨ recipient = domain.hook) .invalidRecipient
  revertIf (amount = 0) .invalidAmount
  pure ⟨env.keccak256 (encodeWords (leafWords env domain index recipient amount)), amount⟩

/-- The tuple that `emptyLeaf` hashes. -/
def emptyLeafWords (domain : Domain) (index : BitVec 16) : List (BitVec 256) :=
  [emptyLeafTag env, domain.chainId, domain.hook.setWidth 256, domain.cycleId, domain.payoutId,
    domain.manifestDigest, index.setWidth 256]

def emptyLeaf (domain : Domain) (index : BitVec 16) : Run SumNode := do
  revertIf (treeWidth ≤ index.toNat) .invalidIndex
  pure ⟨env.keccak256 (encodeWords (emptyLeafWords env domain index)), 0⟩

/-- The tuple that `parentNode` hashes. -/
def nodeWords (level : Nat) (left right : SumNode) : List (BitVec 256) :=
  [nodeTag env, BitVec.ofNat 256 level, left.hash, left.sum, right.hash, right.sum]

def parentNode (level : Nat) (left right : SumNode) : Run SumNode := do
  revertIf (BitVec.allOnes 256 - left.sum < right.sum) .sumOverflow
  pure ⟨env.keccak256 (encodeWords (nodeWords env level left right)), left.sum + right.sum⟩

/-- The sibling of a claim on a level. -/
def EntitlementClaim.sibling (claim : EntitlementClaim) (level : Fin treeDepth) : SumNode :=
  ⟨claim.siblingHashes[level], claim.siblingSums[level]⟩

def verify (domain : Domain) (claim : EntitlementClaim) (expectedRootHash : Bytes32)
    (expectedRootSum : BitVec 256) : Run Bool := do
  let leaf ← nonemptyLeaf env domain claim.index claim.recipient claim.amount
  let node ← climb (parentNode env) claim.index.toNat treeDepth claim.sibling leaf
  pure (node.hash == expectedRootHash && node.sum == expectedRootSum)

/-! ## The tuples that are hashed -/

/-- The leaf of a claim, as far as it is valid. -/
def claimedLeaf (domain : Domain) (claim : EntitlementClaim) : SumNode :=
  ⟨env.keccak256 (encodeWords (leafWords env domain claim.index claim.recipient claim.amount)),
    claim.amount⟩

def joinedWords (joined : Joined SumNode) : List (BitVec 256) :=
  nodeWords env joined.1 joined.2.1 joined.2.2

/-- The tuples that are hashed on the way of one claim. -/
def claimTuples (domain : Domain) (claim : EntitlementClaim) : List (List (BitVec 256)) :=
  leafWords env domain claim.index claim.recipient claim.amount ::
    (climbJoins (parentNode env) claim.index.toNat treeDepth claim.sibling
      (claimedLeaf env domain claim)).map (joinedWords env)

/-- The encodings that are hashed for some claims. -/
def hashedTuples (domain : Domain) (claims : Finset EntitlementClaim) : Set Bytes :=
  {b | ∃ claim ∈ claims, ∃ words ∈ claimTuples env domain claim, b = encodeWords words}

/-- The joins that are hashed for some claims. -/
def hashedJoins (domain : Domain) (claims : Finset EntitlementClaim) : Set (Joined SumNode) :=
  {joined | encodeWords (joinedWords env joined) ∈ hashedTuples env domain claims}

variable {env}

theorem nonemptyLeaf_eq_ok {domain : Domain} {index : BitVec 16} {recipient : Address}
    {amount : BitVec 256} {leaf : SumNode} :
    nonemptyLeaf env domain index recipient amount = .ok leaf ↔
      index.toNat < treeWidth ∧ ¬ (recipient = 0 ∨ recipient = domain.hook) ∧ amount ≠ 0 ∧
        leaf = ⟨env.keccak256 (encodeWords (leafWords env domain index recipient amount)),
          amount⟩ := by
  simp only [nonemptyLeaf, bind_eq_ok, revertIf_eq_ok, pure_eq_ok, Nat.not_le]
  constructor
  · rintro ⟨_, hindex, _, hrecipient, _, hamount, rfl⟩
    exact ⟨hindex, hrecipient, hamount, rfl⟩
  · rintro ⟨hindex, hrecipient, hamount, rfl⟩
    exact ⟨(), hindex, (), hrecipient, (), hamount, rfl⟩

theorem parentNode_eq_ok {level : Nat} {left right parent : SumNode} :
    parentNode env level left right = .ok parent ↔
      right.sum ≤ BitVec.allOnes 256 - left.sum ∧
        parent = ⟨env.keccak256 (encodeWords (nodeWords env level left right)),
          left.sum + right.sum⟩ := by
  simp only [parentNode, bind_eq_ok, revertIf_eq_ok, pure_eq_ok, BitVec.not_lt]
  constructor
  · rintro ⟨_, hfits, rfl⟩
    exact ⟨hfits, rfl⟩
  · rintro ⟨hfits, rfl⟩
    exact ⟨(), hfits, rfl⟩

/-- A parent carries the sum of its children: the addition does not wrap. -/
theorem parentNode_sum {level : Nat} {left right parent : SumNode}
    (h : parentNode env level left right = .ok parent) :
    parent.sum.toNat = left.sum.toNat + right.sum.toNat := by
  obtain ⟨hfits, rfl⟩ := parentNode_eq_ok.mp h
  have hle : right.sum.toNat ≤ 2 ^ 256 - 1 - left.sum.toNat := by
    have hmax : left.sum ≤ BitVec.allOnes 256 := by
      rw [BitVec.le_def, BitVec.toNat_allOnes]
      exact Nat.le_sub_one_of_lt left.sum.isLt
    have hnat := BitVec.le_def.mp hfits
    rwa [BitVec.toNat_sub_of_le hmax, BitVec.toNat_allOnes] at hnat
  have hleft := left.sum.isLt
  rw [BitVec.toNat_add]
  exact Nat.mod_eq_of_lt (by omega)

/-- The encoding of a join determines the two children, and so does its hash, among
the tuples that the hash tells apart. -/
theorem parentNode_binding {domain : Domain} {claims : Finset EntitlementClaim}
    (hhash : Set.InjOn env.keccak256 (hashedTuples env domain claims)) :
    Binding (parentNode env) (hashedJoins env domain claims) := by
  intro level left right left' right' parent hmade hmade' hparent hparent'
  obtain ⟨-, rfl⟩ := parentNode_eq_ok.mp hparent
  obtain ⟨-, hsame⟩ := parentNode_eq_ok.mp hparent'
  have hwords := encodeWords_injective (hhash hmade hmade' (congrArg SumNode.hash hsame))
  obtain ⟨lhash, lsum⟩ := left
  obtain ⟨rhash, rsum⟩ := right
  obtain ⟨lhash', lsum'⟩ := left'
  obtain ⟨rhash', rsum'⟩ := right'
  simp only [joinedWords, nodeWords, List.cons.injEq, and_true, true_and] at hwords
  obtain ⟨rfl, rfl, rfl, rfl⟩ := hwords
  exact ⟨rfl, rfl⟩

/-- What an accepted claim shows: its leaf stands at its index under the root. -/
theorem verify_under {domain : Domain} {claims : Finset EntitlementClaim}
    {claim : EntitlementClaim} {rootHash : Bytes32} {rootSum : BitVec 256} (hmem : claim ∈ claims)
    (h : verify env domain claim rootHash rootSum = .ok true) :
    claim.index.toNat < treeWidth ∧
      Under (parentNode env) (hashedJoins env domain claims) treeDepth ⟨rootHash, rootSum⟩
        claim.index.toNat (claimedLeaf env domain claim) := by
  simp only [verify, bind_eq_ok, pure_eq_ok, Bool.and_eq_true, beq_iff_eq] at h
  obtain ⟨leaf, hleaf, node, hclimb, hhash, hsum⟩ := h
  obtain ⟨hindex, -, -, rfl⟩ := nonemptyLeaf_eq_ok.mp hleaf
  have hroot : node = ⟨rootHash, rootSum⟩ := by
    rw [← hhash, ← hsum]
  subst hroot
  refine ⟨hindex, under_of_climb (parentNode env) hclimb fun joined hjoined => ?_⟩
  exact ⟨claim, hmem, _, List.mem_cons_of_mem _ (List.mem_map_of_mem hjoined), rfl⟩

/-- A claimed leaf determines what is claimed. -/
theorem claimedLeaf_inj {domain : Domain} {claims : Finset EntitlementClaim}
    (hhash : Set.InjOn env.keccak256 (hashedTuples env domain claims))
    {claim claim' : EntitlementClaim} (hmem : claim ∈ claims) (hmem' : claim' ∈ claims)
    (h : claimedLeaf env domain claim = claimedLeaf env domain claim') :
    claim.recipient = claim'.recipient ∧ claim.amount = claim'.amount := by
  have htuple : encodeWords (leafWords env domain claim.index claim.recipient claim.amount)
      = encodeWords (leafWords env domain claim'.index claim'.recipient claim'.amount) :=
    hhash ⟨claim, hmem, _, List.mem_cons_self, rfl⟩ ⟨claim', hmem', _, List.mem_cons_self, rfl⟩
      (congrArg SumNode.hash h)
  have hwords := encodeWords_injective htuple
  simp only [leafWords, List.cons.injEq, and_true, true_and] at hwords
  exact ⟨setWidth_inj_of_le (by decide) hwords.2.1, hwords.2.2⟩

/-- Two claims that are accepted at one index claim the same. -/
theorem accepted_unique {domain : Domain} {rootHash : Bytes32} {rootSum : BitVec 256}
    {claims : Finset EntitlementClaim}
    (hhash : Set.InjOn env.keccak256 (hashedTuples env domain claims))
    (haccepted : ∀ claim ∈ claims, verify env domain claim rootHash rootSum = .ok true)
    {claim claim' : EntitlementClaim} (hmem : claim ∈ claims) (hmem' : claim' ∈ claims)
    (hindex : claim.index = claim'.index) :
    claim.recipient = claim'.recipient ∧ claim.amount = claim'.amount := by
  obtain ⟨-, hunder⟩ := verify_under hmem (haccepted claim hmem)
  obtain ⟨-, hunder'⟩ := verify_under hmem' (haccepted claim' hmem')
  have hleaf : claimedLeaf env domain claim = claimedLeaf env domain claim' :=
    Under.leaf_unique (parentNode_binding hhash) hunder hunder' (by rw [hindex])
  exact claimedLeaf_inj hhash hmem hmem' hleaf

/-- Claims that are accepted at distinct indices add up to at most the root. -/
theorem accepted_sum_le {domain : Domain} {rootHash : Bytes32} {rootSum : BitVec 256}
    {claims : Finset EntitlementClaim}
    (hhash : Set.InjOn env.keccak256 (hashedTuples env domain claims))
    (haccepted : ∀ claim ∈ claims, verify env domain claim rootHash rootSum = .ok true)
    (hdistinct : Set.InjOn EntitlementClaim.index ↑claims) :
    ∑ claim ∈ claims, claim.amount.toNat ≤ rootSum.toNat := by
  have hunder := fun claim hmem => verify_under hmem (haccepted claim hmem)
  -- an index that passed the check is its own position among the leaves
  have hpositions : Set.InjOn (fun claim : EntitlementClaim => claim.index.toNat % 2 ^ treeDepth)
      ↑claims := by
    intro claim hmem claim' hmem' hmod
    apply hdistinct hmem hmem'
    apply BitVec.eq_of_toNat_eq
    have hlt : claim.index.toNat < 2 ^ treeDepth := (hunder claim hmem).1
    have hlt' : claim'.index.toNat < 2 ^ treeDepth := (hunder claim' hmem').1
    simpa only [Nat.mod_eq_of_lt hlt, Nat.mod_eq_of_lt hlt'] using hmod
  exact sum_leaves_le (fun node : SumNode => node.sum.toNat) (parentNode_binding hhash)
    (fun _ _ _ _ => parentNode_sum) (fun claim hmem => (hunder claim hmem).2) hpositions

/-! ## The entitlements of a payout (`settlement/HolderSettlement.sol`) -/

structure PayoutRecord where
  cycleId : Bytes32
  operationsTrigger : Address
  payoutId : Bytes32
  manifestDigest : Bytes32
  rootHash : Bytes32
  rootSum : BitVec 256
  paidTotal : BitVec 256
  unpaidTotal : BitVec 256
  funded : Bool
deriving DecidableEq, Repr

structure PayoutChunk where
  rootHash : Bytes32
  rootSum : BitVec 256
  committed : Bool
deriving DecidableEq, Repr

/-- The storage of `PayoutCommitment` that a proof is checked against. -/
structure PayoutBook where
  payouts : Bytes32 → PayoutRecord
  payoutChunks : Bytes32 → BitVec 16 → PayoutChunk
  manifestClosed : Bytes32 → Bool

/-- The domain of the entitlements of a payout. -/
def payoutDomain (chainId : BitVec 256) (self : Address) (payout : PayoutRecord) : Domain :=
  ⟨chainId, self, payout.cycleId, payout.payoutId, payout.manifestDigest⟩

variable (env) in
/-- `_verifyEntitlementProof`, on the chain and for the contract that run it. -/
def verifyEntitlementProof (chainId : BitVec 256) (self : Address) (book : PayoutBook)
    (payoutId : Bytes32) (chunkIndex : BitVec 16) (claim : EntitlementClaim) : Run Bool :=
  let payout := book.payouts payoutId
  let chunk := book.payoutChunks payoutId chunkIndex
  if payout.funded = false ∨ book.manifestClosed payoutId = false ∨
      treeWidth ≤ claim.index.toNat ∨ claim.recipient = 0 ∨ claim.recipient = self ∨
      claim.amount = 0 then
    .ok false
  else if chunk.committed = false then .ok false
  else verify env (payoutDomain chainId self payout) claim chunk.rootHash chunk.rootSum

/-- A proof that is accepted for a chunk was verified against the root of the chunk. -/
theorem verifyEntitlementProof_true {chainId : BitVec 256} {self : Address} {book : PayoutBook}
    {payoutId : Bytes32} {chunkIndex : BitVec 16} {claim : EntitlementClaim}
    (h : verifyEntitlementProof env chainId self book payoutId chunkIndex claim = .ok true) :
    verify env (payoutDomain chainId self (book.payouts payoutId)) claim
      (book.payoutChunks payoutId chunkIndex).rootHash
      (book.payoutChunks payoutId chunkIndex).rootSum = .ok true := by
  simp only [verifyEntitlementProof] at h
  split at h
  · cases h
  · split at h
    · cases h
    · exact h

/-- The entitlements of a chunk that can be shown add up to at most the chunk. -/
theorem entitlements_within_chunk {chainId : BitVec 256} {self : Address} {book : PayoutBook}
    {payoutId : Bytes32} {chunkIndex : BitVec 16} {claims : Finset EntitlementClaim}
    (hhash : Set.InjOn env.keccak256
      (hashedTuples env (payoutDomain chainId self (book.payouts payoutId)) claims))
    (haccepted : ∀ claim ∈ claims,
      verifyEntitlementProof env chainId self book payoutId chunkIndex claim = .ok true)
    (hdistinct : Set.InjOn EntitlementClaim.index ↑claims) :
    ∑ claim ∈ claims, claim.amount.toNat ≤ (book.payoutChunks payoutId chunkIndex).rootSum.toNat :=
  accepted_sum_le hhash (fun claim hmem => verifyEntitlementProof_true (haccepted claim hmem))
    hdistinct

end

/-- **Accepted claims stay within the root.** Whatever the root is, and whatever
siblings the claims bring: two accepted claims at one index name the same recipient
and amount, and accepted claims at distinct indices add up to at most the sum of the
root. The hash is assumed to tell apart the tuples that are hashed for the claims. -/
theorem accepted_claims_within_root (env : Externals) (domain : Domain) (rootHash : Bytes32)
    (rootSum : BitVec 256) (claims : Finset EntitlementClaim)
    (hhash : Set.InjOn env.keccak256 (hashedTuples env domain claims))
    (haccepted : ∀ claim ∈ claims, verify env domain claim rootHash rootSum = .ok true) :
    (∀ claim ∈ claims, ∀ claim' ∈ claims, claim.index = claim'.index →
      claim.recipient = claim'.recipient ∧ claim.amount = claim'.amount) ∧
    (Set.InjOn EntitlementClaim.index ↑claims →
      ∑ claim ∈ claims, claim.amount.toNat ≤ rootSum.toNat) := by
  constructor
  · intro claim hmem claim' hmem' hindex
    exact accepted_unique hhash haccepted hmem hmem' hindex
  · intro hdistinct
    exact accepted_sum_le hhash haccepted hdistinct

/-! ## Two claims on one root -/

def sampleDomain : Domain := ⟨4663, 0x20CC, 1, 2, 3⟩

/-- The hashes of the two leaves, and of their common nodes from the lowest level up. -/
def sampleLeafHashes : List Bytes32 :=
  [0x4a0853633d8ef71e666f03b76cd4b95009ebd40ef03b7365622c09629d525e60,
    0x2ccf47dfd0d9245743703ce63a849270a0011d8e604111fd982f38ba0dadade2]

def samplePathHashes : List Bytes32 :=
  [0xd016c6fea330b32682d1ef3a56379011ba087111104fd34c4449c522e43221c5,
    0xfcb7394a1bdee03bd36f87c1c36b56d6e1def52b896a03382a662ff8ab1fba83,
    0x83c3632354ca97755d062b17a62c24db67956b3ad02b871a39064f9656e01898,
    0xe5467b3b723c8a746d4d46ec747696ff7b3a39c753cce56573feea5eae7797c6,
    0x173a12978e6fe8fd25c5a358a2edaa83e3ac3f9b223416934117830a3f974484,
    0x6ff499dd63c96936bda6c67b82e9f1fac6c686ee4c9b2709f43f93f5985d0006,
    0xdafa2a489d7a7665a5b495b2906caad4f9b7bfb0016a647f7a4e387b9b1a58b7,
    0x2040765f4489ccb1707fb6313a77ffd317755114b8a4631b9918debb04d0fb3e,
    0xa23df88c03648eea3298394560bc1da3f835757e4809de75e99e71625de6c9bf,
    0xd356d3b7e6cb41739221828e8755ee268f4d75b5cd25e6af0b0c00c77e9f3fe9]

def sampleLeafTag : Bytes32 :=
  0xd37de1da5c23bd627715b91a7599c49a9ce84bd89a6a12296a68da81d999954c

def sampleNodeTag : Bytes32 :=
  0x2d812371b1e4d5cd1ba18b7691b42f7a51afff661d6f18bed93cd006b5281ede

/-- The tuples of the two claims, each with the hash that the machine gives it. -/
def sampleTuples : List (Bytes32 × List (BitVec 256)) :=
  [(sampleLeafHashes.getD 0 0, [sampleLeafTag, 4663, 0x20CC, 1, 2, 3, 0, 0x4001, 10]),
    (sampleLeafHashes.getD 1 0, [sampleLeafTag, 4663, 0x20CC, 1, 2, 3, 1, 0x4002, 20]),
    (samplePathHashes.getD 0 0,
      [sampleNodeTag, 0, sampleLeafHashes.getD 0 0, 10, sampleLeafHashes.getD 1 0, 20])] ++
  (List.range 9).map fun level => (samplePathHashes.getD (level + 1) 0,
    [sampleNodeTag, BitVec.ofNat 256 (level + 1), samplePathHashes.getD level 0, 30, 0,
      if level = 8 then 5 else 0])

/-- The machine, as far as the two claims look at it: the tags, the leaves by their
index, which is the last byte of the seventh word, and the nodes by their level, the
last byte of the second word. -/
def sampleHashes : Externals where
  keccak256 := fun b =>
    if b.length = 192 then samplePathHashes.getD (b.getD 63 0).toNat 0
    else if b.length = 288 then sampleLeafHashes.getD (b.getD 223 0).toNat 0
    else if b = asciiBytes "HOOKEMON_PAYOUT_NODE_R55_A4_V1" then sampleNodeTag
    else sampleLeafTag
  mulDivRoundingUp := fun _ _ _ => .error .emptyRevert

/-- A claim of one of the two leaves, with the other one as its first sibling. -/
def sampleClaim (index : BitVec 16) (recipient : Address) (amount : BitVec 256)
    (siblingHash : Bytes32) (siblingSum : BitVec 256) : EntitlementClaim where
  index := index
  recipient := recipient
  amount := amount
  siblingHashes := #v[siblingHash, 0, 0, 0, 0, 0, 0, 0, 0, 0]
  siblingSums := #v[siblingSum, 0, 0, 0, 0, 0, 0, 0, 0, 5]

def sampleClaims : Finset EntitlementClaim :=
  {sampleClaim 0 0x4001 10 (sampleLeafHashes.getD 1 0) 20,
    sampleClaim 1 0x4002 20 (sampleLeafHashes.getD 0 0) 10}

/-- Every tuple of the claims is in the table, and the table has each hash once. -/
theorem sampleHashes_injOn :
    Set.InjOn sampleHashes.keccak256 (hashedTuples sampleHashes sampleDomain sampleClaims) := by
  have hlisted : ∀ claim ∈ sampleClaims, ∀ words ∈ claimTuples sampleHashes sampleDomain claim,
      words ∈ sampleTuples.map Prod.snd := by
    decide +kernel
  have hhashed : ∀ row ∈ sampleTuples, sampleHashes.keccak256 (encodeWords row.2) = row.1 := by
    decide +kernel
  have honce : (sampleTuples.map Prod.fst).Nodup := by decide +kernel
  rintro b ⟨claim, hmem, words, hwords, rfl⟩ b' ⟨claim', hmem', words', hwords', rfl⟩ hsame
  obtain ⟨row, hrow, rfl⟩ := List.mem_map.mp (hlisted claim hmem words hwords)
  obtain ⟨row', hrow', rfl⟩ := List.mem_map.mp (hlisted claim' hmem' words' hwords')
  have hfst : row.1 = row'.1 := by
    rw [← hhashed row hrow, ← hhashed row' hrow']
    exact hsame
  rw [List.inj_on_of_nodup_map honce hrow hrow' hfst]

theorem accepted_claims_within_root_sample :
    (∀ claim ∈ sampleClaims, ∀ claim' ∈ sampleClaims, claim.index = claim'.index →
      claim.recipient = claim'.recipient ∧ claim.amount = claim'.amount) ∧
    (Set.InjOn EntitlementClaim.index ↑sampleClaims →
      ∑ claim ∈ sampleClaims, claim.amount.toNat ≤ (35 : BitVec 256).toNat) :=
  accepted_claims_within_root sampleHashes sampleDomain (samplePathHashes.getD 9 0) 35 sampleClaims
    sampleHashes_injOn (by decide +kernel)

end Hookemon.Contracts
