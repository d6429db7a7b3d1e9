import Hookemon.Core.Words

/-! # The hash of the payout tooling (`tooling/payout/canonical-merkle-sum.mjs`)

The tooling carries its own `keccak256`. The tags of the payout encodings are hashes
of fixed names.
-/

namespace Hookemon.Payout

open Hookemon.Core

/-- A lane of the state. -/
abbrev Lane := BitVec 64

abbrev rateBytes : Nat := 136

def rotation : List Nat :=
  [0, 1, 62, 28, 27,
    36, 44, 6, 55, 20,
    3, 10, 43, 25, 39,
    41, 45, 15, 21, 8,
    18, 2, 61, 56, 14]

def roundConstants : List Lane :=
  [0x0000000000000001, 0x0000000000008082, 0x800000000000808a,
    0x8000000080008000, 0x000000000000808b, 0x0000000080000001,
    0x8000000080008081, 0x8000000000008009, 0x000000000000008a,
    0x0000000000000088, 0x0000000080008009, 0x000000008000000a,
    0x000000008000808b, 0x800000000000008b, 0x8000000000008089,
    0x8000000000008003, 0x8000000000008002, 0x8000000000000080,
    0x000000000000800a, 0x800000008000000a, 0x8000000080008081,
    0x8000000000008080, 0x0000000080000001, 0x8000000080008008]

def rotateLeft (value : Lane) (shift : Nat) : Lane :=
  if shift = 0 then value else (value <<< shift) ||| (value >>> (64 - shift))

/-- One round of `permute` on the 25 lanes. -/
def permuteRound (state : List Lane) (roundConstant : Lane) : List Lane :=
  let columns := (List.range 5).map fun x =>
    (List.range 5).foldl (fun column y => column ^^^ state.getD (x + 5 * y) 0) 0
  let mixed := (List.range 5).map fun x =>
    columns.getD ((x + 4) % 5) 0 ^^^ rotateLeft (columns.getD ((x + 1) % 5) 0) 1
  let state := (List.range 25).map fun i => state.getD i 0 ^^^ mixed.getD (i % 5) 0
  let rotated := (List.range 25).foldl
    (fun rotated i =>
      let x := i % 5
      let y := i / 5
      rotated.set (y + 5 * ((2 * x + 3 * y) % 5)) (rotateLeft (state.getD i 0) (rotation.getD i 0)))
    (List.replicate 25 0)
  let state := (List.range 25).map fun i =>
    let x := i % 5
    let y := i / 5
    rotated.getD i 0 ^^^
      (~~~ rotated.getD ((x + 1) % 5 + 5 * y) 0 &&& rotated.getD ((x + 2) % 5 + 5 * y) 0)
  state.set 0 (state.getD 0 0 ^^^ roundConstant)

def permute (state : List Lane) : List Lane := roundConstants.foldl permuteRound state

/-- The input with its padding, a multiple of the rate long. -/
def padded (input : Bytes) : Bytes :=
  let paddedLength := (input.length + 1 + (rateBytes - 1)) / rateBytes * rateBytes
  let zeros := input ++ 0x01 :: List.replicate (paddedLength - input.length - 1) 0
  zeros.set (paddedLength - 1) (zeros.getD (paddedLength - 1) 0 ||| 0x80)

/-- Eight bytes, the lowest first. -/
def laneOfBytes (bytes : Bytes) : Lane :=
  (List.range 8).foldl
    (fun value byte => value ||| (BitVec.ofNat 64 (bytes.getD byte 0).toNat <<< (byte * 8))) 0

/-- The state after a block of the rate is taken in. -/
def absorb (state : List Lane) (block : Bytes) : List Lane :=
  permute ((List.range 25).map fun lane =>
    if lane < rateBytes / 8 then state.getD lane 0 ^^^ laneOfBytes ((block.drop (lane * 8)).take 8)
    else state.getD lane 0)

def keccak256 (bytes : Bytes) : Bytes :=
  let input := padded bytes
  let state := (List.range (input.length / rateBytes)).foldl
    (fun state block => absorb state ((input.drop (block * rateBytes)).take rateBytes))
    (List.replicate 25 0)
  (List.range 32).map fun byte =>
    UInt8.ofNat ((state.getD (byte / 8) 0 >>> (byte % 8 * 8)) &&& 0xff).toNat

@[simp] theorem keccak256_length (bytes : Bytes) : (keccak256 bytes).length = 32 := by
  simp [keccak256]

end Hookemon.Payout
