import Hookemon.Js.Hex

/-! # `BigInt`

What `BigInt(value)` makes of a value. A string is taken as an integer literal with
white space around it, in decimal with an optional sign or in one of the three other
bases with a prefix.
-/

namespace Hookemon.Js

open Hookemon.Core

/-- A value that may stand for an integer: a number that is an integer, any other
number, a string and so on, and an object by the primitive that it converts to.
`nothing` is a value that converts to no number. -/
inductive Scalar where
  | number (n : Int)
  | fraction
  | bigint (n : Int)
  | string (s : Text)
  | boolean (b : Bool)
  | nothing
  | object (primitive : Scalar)
deriving DecidableEq, Repr

/-- White space and line terminators. -/
def isStrWhiteSpace (c : UInt16) : Bool :=
  (9 ≤ c.toNat && c.toNat ≤ 13) || (0x2000 ≤ c.toNat && c.toNat ≤ 0x200A) ||
    [0x20, 0xA0, 0x1680, 0x2028, 0x2029, 0x202F, 0x205F, 0x3000, 0xFEFF].contains c.toNat

def trimWhiteSpace (s : Text) : Text :=
  ((s.dropWhile isStrWhiteSpace).reverse.dropWhile isStrWhiteSpace).reverse

/-- The value of one or more digits. -/
def digitsValue (base : Nat) (digit : UInt16 → Bool) (s : Text) : Option Int :=
  if s ≠ [] ∧ s.all digit then some (ofDigitsBE base (s.map unitHex)) else none

/-- `[01]` and `[0-7]`. -/
def isBinaryDigit (c : UInt16) : Bool := 48 ≤ c.toNat && c.toNat ≤ 49
def isOctalDigit (c : UInt16) : Bool := 48 ≤ c.toNat && c.toNat ≤ 55

/-- The literal of an integer. -/
def integerLiteral (s : Text) : Option Int :=
  let mark := s.take 2
  if mark = text "0x" ∨ mark = text "0X" then digitsValue 16 isHexDigit (s.drop 2)
  else if mark = text "0o" ∨ mark = text "0O" then digitsValue 8 isOctalDigit (s.drop 2)
  else if mark = text "0b" ∨ mark = text "0B" then digitsValue 2 isBinaryDigit (s.drop 2)
  else if s.take 1 = text "+" then digitsValue 10 isDigit (s.drop 1)
  else if s.take 1 = text "-" then (digitsValue 10 isDigit (s.drop 1)).map fun n => -n
  else digitsValue 10 isDigit s

def stringToBigInt (s : Text) : Option Int :=
  let trimmed := trimWhiteSpace s
  if trimmed = [] then some 0 else integerLiteral trimmed

/-- `BigInt(value)`. -/
def toBigInt : Scalar → Except String Int
  | .number n => .ok n
  | .fraction => .error "The number cannot be converted to a BigInt because it is not an integer"
  | .bigint n => .ok n
  | .string s =>
    match stringToBigInt s with
    | some n => .ok n
    | none => .error "Cannot convert string to a BigInt"
  | .boolean b => .ok (if b then 1 else 0)
  | .nothing => .error "Cannot convert value to a BigInt"
  | .object primitive => toBigInt primitive

/-! ## Decimal texts -/

theorem isStrWhiteSpace_digit {c : UInt16} (hc : isDigit c) : isStrWhiteSpace c = false := by
  have hrange : 48 ≤ c.toNat ∧ c.toNat ≤ 57 := by simpa [isDigit] using hc
  simp only [isStrWhiteSpace, List.contains_cons, List.contains_nil, Bool.or_false,
    Bool.or_eq_false_iff, Bool.and_eq_false_iff, decide_eq_false_iff_not, beq_eq_false_iff_ne]
  omega

theorem dropWhile_digits {s : Text} (h : ∀ c ∈ s, isDigit c) :
    s.dropWhile isStrWhiteSpace = s := by
  cases s with
  | nil => rfl
  | cons c cs => simp [isStrWhiteSpace_digit (h c (by simp))]

theorem trimWhiteSpace_digits {s : Text} (h : ∀ c ∈ s, isDigit c) : trimWhiteSpace s = s := by
  have hreverse : ∀ c ∈ s.reverse, isDigit c := fun c hc => h c (List.mem_reverse.mp hc)
  rw [trimWhiteSpace, dropWhile_digits h, dropWhile_digits hreverse, List.reverse_reverse]

/-- A text of digits begins with no prefix that contains something else. -/
theorem take_digits_ne {s mark : Text} {k : Nat} (h : ∀ c ∈ s, isDigit c)
    (hmark : ∃ c ∈ mark, isDigit c = false) : s.take k ≠ mark := by
  rintro rfl
  obtain ⟨c, hc, hdigit⟩ := hmark
  rw [h c (List.mem_of_mem_take hc)] at hdigit
  cases hdigit

theorem unitHex_digit {c : UInt16} (hc : isDigit c) : unitHex c = unitDigit c := by
  have hrange : 48 ≤ c.toNat ∧ c.toNat ≤ 57 := by simpa [isDigit] using hc
  simp [unitHex, unitDigit, hrange.2]

/-- A text of digits is the number that it writes. -/
theorem stringToBigInt_digits {s : Text} (hne : s ≠ []) (h : ∀ c ∈ s, isDigit c) :
    stringToBigInt s = some (textNat s : Int) := by
  have hmarks : ∀ {k : Nat} {mark : Text}, (mark.any fun c => !isDigit c) → s.take k ≠ mark := by
    intro k mark hmark
    obtain ⟨c, hc, hdigit⟩ := List.any_eq_true.mp hmark
    exact take_digits_ne h ⟨c, hc, by simpa using hdigit⟩
  have hvalue : s.map unitHex = s.map unitDigit :=
    List.map_congr_left fun c hc => unitHex_digit (h c hc)
  rw [stringToBigInt, trimWhiteSpace_digits h, if_neg hne, integerLiteral,
    if_neg (not_or.mpr ⟨hmarks (by decide), hmarks (by decide)⟩),
    if_neg (not_or.mpr ⟨hmarks (by decide), hmarks (by decide)⟩),
    if_neg (not_or.mpr ⟨hmarks (by decide), hmarks (by decide)⟩),
    if_neg (hmarks (by decide)), if_neg (hmarks (by decide)), digitsValue,
    if_pos ⟨hne, List.all_eq_true.mpr h⟩, hvalue, textNat]

/-- `BigInt(n.toString())` is `n`. -/
@[simp] theorem toBigInt_natText (n : Nat) : toBigInt (.string (natText n)) = .ok n := by
  have hdecimal := isDecimal_natText n
  have hne : natText n ≠ [] := by
    intro hnil
    rw [hnil] at hdecimal
    cases hdecimal
  rw [toBigInt, stringToBigInt_digits hne (isDecimal_digits hdecimal), textNat_natText]

end Hookemon.Js
