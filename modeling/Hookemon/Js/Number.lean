import Hookemon.Js.Text

/-! # `Number`: integers

The integers among the double-precision numbers, how they are printed and how JSON
reads them. An integer of more than 53 bits is a double only when its low bits are
zero, and it is printed by the shortest decimal that is rounded back to it, in
exponent form from `10 ^ 21` on. Numbers that are not integers are outside this
model: a literal that denotes one has no value here.
-/

namespace Hookemon.Js

open Hookemon.Core

/-! ## Doubles -/

/-- Round to 53 bits, to the nearest, ties to even. -/
def roundDouble (x : Nat) : Nat :=
  let unit := 2 ^ (x.log2 - 52)
  let q := x / unit
  let r := x % unit
  (if unit < 2 * r ∨ (2 * r = unit ∧ q % 2 = 1) then q + 1 else q) * unit

/-- The magnitude of a finite integral double. -/
def IsDouble (x : Nat) : Prop := roundDouble x = x ∧ x.log2 < 1024

instance (x : Nat) : Decidable (IsDouble x) := inferInstanceAs (Decidable (_ ∧ _))

/-- A number value that is no fraction. -/
inductive Number where
  | integer (n : Int) (double : IsDouble n.natAbs)
  | negativeZero
  | notFinite
deriving DecidableEq

/-- The number nearest to an integer with a sign, as a literal has it. -/
def Number.nearest (negative : Bool) (m : Nat) : Number :=
  if negative ∧ m = 0 then .negativeZero
  else if h : IsDouble (roundDouble m) then
    if negative then .integer (-(roundDouble m : Int)) (by rwa [Int.natAbs_neg, Int.natAbs_natCast])
    else .integer (roundDouble m) (by rwa [Int.natAbs_natCast])
  else .notFinite

/-- A length or an index as a number. -/
def Number.ofNat (n : Nat) : Number := .nearest false n

/-- `x === y` of two numbers. -/
def Number.strictEquals : Number → Number → Bool
  | .integer m _, .integer n _ => m = n
  | .integer m _, .negativeZero => m = 0
  | .negativeZero, .integer n _ => n = 0
  | .negativeZero, .negativeZero => true
  | .notFinite, _ => false
  | _, .notFinite => false

/-! ## Printing -/

/-- Of the two neighbouring multiples of the unit, the one that is rounded back to `x`.
When both are, the nearer one, and at equal distance the one with an even last digit. -/
def decimalNear (x unit : Nat) : Option Nat :=
  let q := x / unit
  let low := q * unit
  let high := (q + 1) * unit
  if roundDouble low = x then
    if roundDouble high = x ∧
        (high - x < x - low ∨ (high - x = x - low ∧ q % 2 = 1)) then some high
    else some low
  else if roundDouble high = x then some high
  else none

/-- The decimal with the fewest significant digits that is rounded back to `x`. -/
def shortestDecimal (x : Nat) : Nat :=
  let digits := (numeral 10 x).length
  (((List.range digits).map fun k => 10 ^ (digits - 1 - k)).findSome? (decimalNear x)).getD x

/-- A digit, a fraction without trailing zeros and an exponent. -/
def exponentText (m : Nat) : Text :=
  let digits := natText m
  let significant := digits.rdropWhile (· = 48)
  let fraction := significant.tail
  significant.take 1 ++ (if fraction = [] then [] else text "." ++ fraction) ++ text "e+" ++
    natText (digits.length - 1)

/-- `Number::toString` of a natural number. -/
def magnitudeText (x : Nat) : Text :=
  let m := shortestDecimal x
  if m < 10 ^ 21 then natText m else exponentText m

/-- `Number::toString`. The texts of the last two cases are never parts of a JSON text. -/
def Number.text : Number → Text
  | .integer n _ => (if n < 0 then Js.text "-" else []) ++ magnitudeText n.natAbs
  | .negativeZero => Js.text "0"
  | .notFinite => Js.text "NaN"

/-! ## Reading -/

/-- `[0-9]*` at the start of a text, and the rest. -/
def spanDigits (s : Text) : Text × Text := (s.takeWhile isDigit, s.dropWhile isDigit)

/-- An optional mark before some digits. -/
def parseFraction (s : Text) : Option (Text × Text) :=
  match s with
  | c :: s' =>
    if c = 46 then
      let (fraction, rest) := spanDigits s'
      if fraction = [] then none else some (fraction, rest)
    else some ([], s)
  | [] => some ([], s)

/-- The sign of an exponent. -/
def parseSign (s : Text) : Bool × Text :=
  match s with
  | c :: s' => if c = 45 then (true, s') else if c = 43 then (false, s') else (false, s)
  | [] => (false, s)

def parseExponent (s : Text) : Option (Int × Text) :=
  match s with
  | c :: s' =>
    if c = 101 ∨ c = 69 then
      let (negative, s'') := parseSign s'
      let (digits, rest) := spanDigits s''
      if digits = [] then none
      else some (if negative then -(textNat digits : Int) else textNat digits, rest)
    else some (0, s)
  | [] => some (0, s)

/-- The value of a literal, when it is an integer. -/
def literalValue (negative : Bool) (digits : Nat) (exponent : Int) : Option Number :=
  if 0 ≤ exponent then some (.nearest negative (digits * 10 ^ exponent.toNat))
  else if 10 ^ (-exponent).toNat ∣ digits then
    some (.nearest negative (digits / 10 ^ (-exponent).toNat))
  else none

/-- `(?:0|[1-9][0-9]*)(?:\.[0-9]+)?(?:[eE][+-]?[0-9]+)?` at the start of a text. -/
def parseMagnitude (negative : Bool) (s : Text) : Option (Number × Text) := do
  let (whole, s) := spanDigits s
  if !isDecimal whole then none
  let (fraction, s) ← parseFraction s
  let (exponent, s) ← parseExponent s
  let value ← literalValue negative (textNat (whole ++ fraction)) (exponent - fraction.length)
  return (value, s)

/-- A number literal of JSON at the start of a text. -/
def parseNumber (s : Text) : Option (Number × Text) :=
  if s.head? = some 45 then parseMagnitude true s.tail else parseMagnitude false s

/-! ## Rounding -/

theorem log2_small {x : Nat} (h : x < 2 ^ 53) : x.log2 ≤ 52 := by
  by_cases h0 : x = 0
  · simp [h0]
  · have hlt : x.log2 < 53 := (Nat.log2_lt h0).mpr h
    omega

/-- Integers of at most 53 bits are not rounded. -/
theorem roundDouble_small {x : Nat} (h : x < 2 ^ 53) : roundDouble x = x := by
  have hunit : x.log2 - 52 = 0 := Nat.sub_eq_zero_of_le (log2_small h)
  simp [roundDouble, hunit, Nat.mod_one]

theorem isDouble_small {x : Nat} (h : x < 2 ^ 53) : IsDouble x := by
  have hlog := log2_small h
  exact ⟨roundDouble_small h, by omega⟩

theorem ofNat_small {n : Nat} (h : n < 2 ^ 53) :
    Number.ofNat n = .integer n (by simpa using isDouble_small h) := by
  have hround : roundDouble n = n := roundDouble_small h
  have hdouble : IsDouble (roundDouble n) := hround.symm ▸ isDouble_small h
  rw [Number.ofNat, Number.nearest, if_neg (by simp), dif_pos hdouble, if_neg (by simp)]
  congr

/-- Indices below the range of exact integers are told apart. -/
theorem ofNat_inj {m n : Nat} (hm : m < 2 ^ 53) (hn : n < 2 ^ 53)
    (h : Number.ofNat m = Number.ofNat n) : m = n := by
  rw [ofNat_small hm, ofNat_small hn] at h
  simpa using h

/-! ## Printing is exact -/

theorem decimalNear_round {x unit m : Nat} (h : decimalNear x unit = some m) :
    roundDouble m = x := by
  simp only [decimalNear] at h
  split at h
  · split at h
    · rename_i hhigh
      rw [← Option.some.inj h]
      exact hhigh.1
    · rename_i hlow _
      rw [← Option.some.inj h]
      exact hlow
  · split at h
    · rename_i hhigh
      rw [← Option.some.inj h]
      exact hhigh
    · cases h

/-- The decimal that is printed for a double is rounded back to it. -/
theorem roundDouble_shortestDecimal {x : Nat} (h : IsDouble x) :
    roundDouble (shortestDecimal x) = x := by
  rw [shortestDecimal]
  cases hfound : ((List.range (numeral 10 x).length).map fun k =>
      10 ^ ((numeral 10 x).length - 1 - k)).findSome? (decimalNear x) with
  | none => exact h.1
  | some m =>
    obtain ⟨unit, -, hnear⟩ := List.exists_of_findSome?_eq_some hfound
    exact decimalNear_round hnear

/-! ## Reading back -/

/-- What may follow a number: nothing that could be a part of it. -/
def EndsNumber (rest : Text) : Prop :=
  ∀ c ∈ rest.head?, isDigit c = false ∧ c ≠ 46 ∧ c ≠ 101 ∧ c ≠ 69

theorem spanDigits_append {ds rest : Text} (hds : ∀ c ∈ ds, isDigit c)
    (hrest : ∀ c ∈ rest.head?, isDigit c = false) : spanDigits (ds ++ rest) = (ds, rest) := by
  have htail : rest.takeWhile isDigit = [] ∧ rest.dropWhile isDigit = rest := by
    cases rest with
    | nil => simp
    | cons c cs => simp [hrest c rfl]
  rw [spanDigits, List.takeWhile_append_of_pos hds, List.dropWhile_append_of_pos hds, htail.1,
    htail.2, List.append_nil]

theorem parseFraction_none {rest : Text} (h : ∀ c ∈ rest.head?, c ≠ 46) :
    parseFraction rest = some ([], rest) := by
  cases rest with
  | nil => rfl
  | cons c cs =>
    have hc : c ≠ 46 := h c rfl
    simp [parseFraction, hc]

theorem parseFraction_append {fraction rest : Text} (hne : fraction ≠ [])
    (hdigits : ∀ c ∈ fraction, isDigit c) (hrest : ∀ c ∈ rest.head?, isDigit c = false) :
    parseFraction (46 :: (fraction ++ rest)) = some (fraction, rest) := by
  simp [parseFraction, spanDigits_append hdigits hrest, hne]

theorem parseExponent_none {rest : Text} (h : EndsNumber rest) :
    parseExponent rest = some (0, rest) := by
  cases rest with
  | nil => rfl
  | cons c cs =>
    have hc := h c rfl
    simp [parseExponent, hc.2.2.1, hc.2.2.2]

theorem parseExponent_plus (e : Nat) {rest : Text} (h : EndsNumber rest) :
    parseExponent (text "e+" ++ natText e ++ rest) = some ((e : Int), rest) := by
  have hdecimal := isDecimal_natText e
  have hne : natText e ≠ [] := by
    intro hnil
    rw [hnil] at hdecimal
    cases hdecimal
  have hspan : spanDigits (natText e ++ rest) = (natText e, rest) :=
    spanDigits_append (isDecimal_digits hdecimal) fun c hc => (h c hc).1
  show parseExponent (101 :: 43 :: (natText e ++ rest)) = _
  simp [parseExponent, parseSign, hspan, hne]

theorem literalValue_natCast (negative : Bool) (digits e : Nat) :
    literalValue negative digits e = some (.nearest negative (digits * 10 ^ e)) := by
  simp [literalValue]

/-- Digits, and the zeros that were left off at the end. -/
theorem textNat_rdropWhile (s : Text) :
    textNat (s.rdropWhile (· = 48)) * 10 ^ (s.rtakeWhile (· = 48)).length = textNat s := by
  have hzeros : ∀ zs : Text, (∀ c ∈ zs, c = 48) → textNat zs = 0 := by
    intro zs hzs
    induction zs using List.reverseRecOn with
    | nil => rfl
    | append_singleton zs z ih =>
      have hz : z = 48 := hzs z (by simp)
      have hrest : textNat zs = 0 := ih fun c hc => hzs c (by simp [hc])
      rw [textNat, List.map_append, List.map_singleton, ofDigitsBE_concat, ← textNat, hrest, hz]
      rfl
  have hsplit : s.rdropWhile (· = 48) ++ s.rtakeWhile (· = 48) = s :=
    List.rdropWhile_append_rtakeWhile
  have htail : textNat (s.rtakeWhile (· = 48)) = 0 :=
    hzeros _ fun c hc => by simpa using List.mem_rtakeWhile_imp hc
  calc textNat (s.rdropWhile (· = 48)) * 10 ^ (s.rtakeWhile (· = 48)).length
      = textNat (s.rdropWhile (· = 48) ++ s.rtakeWhile (· = 48)) := by
        rw [textNat, textNat, List.map_append, ofDigitsBE_append, ← textNat, ← textNat, htail,
          List.length_map, Nat.add_zero]
    _ = textNat s := by rw [hsplit]

/-- The parts of a literal, read one after the other. -/
theorem parseMagnitude_of {negative : Bool} {s whole s₁ fraction s₂ rest : Text} {exponent : Int}
    {x : Number} (hspan : spanDigits s = (whole, s₁)) (hwhole : isDecimal whole)
    (hfraction : parseFraction s₁ = some (fraction, s₂))
    (hexponent : parseExponent s₂ = some (exponent, rest))
    (hvalue : literalValue negative (textNat (whole ++ fraction)) (exponent - fraction.length)
      = some x) :
    parseMagnitude negative s = some (x, rest) := by
  simp [parseMagnitude, hspan, hwhole, hfraction, hexponent, hvalue]

theorem parseMagnitude_natText (negative : Bool) (m : Nat) {rest : Text} (h : EndsNumber rest) :
    parseMagnitude negative (natText m ++ rest) = some (.nearest negative m, rest) := by
  have hdecimal := isDecimal_natText m
  have hspan : spanDigits (natText m ++ rest) = (natText m, rest) :=
    spanDigits_append (isDecimal_digits hdecimal) fun c hc => (h c hc).1
  refine parseMagnitude_of hspan hdecimal (parseFraction_none fun c hc => (h c hc).2.1)
    (parseExponent_none h) ?_
  simpa using literalValue_natCast negative m 0

/-- The significant digits of a number that is not zero. -/
theorem significant_cons {m : Nat} (hm : m ≠ 0) :
    ∃ d fraction, (natText m).rdropWhile (· = 48) = d :: fraction ∧
      d :: fraction ++ (natText m).rtakeWhile (· = 48) = natText m ∧
      isDigit d ∧ ∀ c ∈ fraction, isDigit c := by
  have hdigits : ∀ c ∈ natText m, isDigit c := isDecimal_digits (isDecimal_natText m)
  have hsplit : (natText m).rdropWhile (· = 48) ++ (natText m).rtakeWhile (· = 48) = natText m :=
    List.rdropWhile_append_rtakeWhile
  cases hsignificant : (natText m).rdropWhile (· = 48) with
  | nil =>
    -- nothing but zeros is the number zero
    have hvalue := textNat_rdropWhile (natText m)
    rw [textNat_natText, hsignificant, textNat, List.map_nil, ofDigitsBE_nil,
      Nat.zero_mul] at hvalue
    exact absurd hvalue.symm hm
  | cons d fraction =>
    rw [hsignificant] at hsplit
    have hmem : ∀ c ∈ d :: fraction, isDigit c := by
      intro c hc
      apply hdigits
      rw [← hsplit]
      exact List.mem_append_left _ hc
    exact ⟨d, fraction, rfl, hsplit, hmem d (by simp), fun c hc => hmem c (by simp [hc])⟩

theorem parseMagnitude_exponentText (negative : Bool) {m : Nat} (hm : m ≠ 0) {rest : Text}
    (h : EndsNumber rest) :
    parseMagnitude negative (exponentText m ++ rest) = some (.nearest negative m, rest) := by
  obtain ⟨d, fraction, hsignificant, hsplit, hd, hfraction⟩ := significant_cons hm
  have hsingle : ∀ c ∈ [d], isDigit c := by simpa using hd
  have hwhole : isDecimal [d] := by simp [isDecimal, hd]
  have hexponent := parseExponent_plus ((natText m).length - 1) h
  -- the exponent counts the fraction and the zeros that were left off
  have hshift : (((natText m).length - 1 : Nat) : Int) - (fraction.length : Int)
      = (((natText m).rtakeWhile (· = 48)).length : Int) := by
    have hsum := congrArg List.length hsplit
    simp only [List.cons_append, List.length_cons, List.length_append] at hsum
    omega
  have hvalue : literalValue negative (textNat ([d] ++ fraction))
      ((((natText m).length - 1 : Nat) : Int) - (fraction.length : Int))
      = some (.nearest negative m) := by
    have hzeros := textNat_rdropWhile (natText m)
    rw [hsignificant, textNat_natText] at hzeros
    rw [hshift, List.singleton_append, literalValue_natCast, hzeros]
  by_cases hnil : fraction = []
  · -- a single digit: the exponent follows it
    subst hnil
    have htext : exponentText m ++ rest
        = [d] ++ (text "e+" ++ natText ((natText m).length - 1) ++ rest) := by
      simp [exponentText, hsignificant]
    rw [htext]
    refine parseMagnitude_of (spanDigits_append hsingle ?_) hwhole (parseFraction_none ?_)
      hexponent hvalue
    · rintro c ⟨⟩
      decide
    · rintro c ⟨⟩
      decide
  · have htext : exponentText m ++ rest = [d] ++
        (46 :: (fraction ++ (text "e+" ++ natText ((natText m).length - 1) ++ rest))) := by
      simp only [exponentText, hsignificant, List.tail_cons, hnil, if_false, List.append_assoc]
      rfl
    rw [htext]
    refine parseMagnitude_of (spanDigits_append hsingle ?_) hwhole
      (parseFraction_append hnil hfraction ?_) hexponent hvalue
    · rintro c ⟨⟩
      decide
    · rintro c ⟨⟩
      decide

/-- A printed magnitude is read as the decimal that was printed. -/
theorem parseMagnitude_magnitudeText (negative : Bool) (x : Nat) {rest : Text}
    (h : EndsNumber rest) :
    parseMagnitude negative (magnitudeText x ++ rest)
      = some (.nearest negative (shortestDecimal x), rest) := by
  rw [magnitudeText]
  by_cases hsmall : shortestDecimal x < 10 ^ 21
  · rw [if_pos hsmall]
    exact parseMagnitude_natText negative _ h
  · rw [if_neg hsmall]
    refine parseMagnitude_exponentText negative (fun h0 => hsmall ?_) h
    rw [h0]
    decide

theorem nearest_shortestDecimal {n : Int} (h : IsDouble n.natAbs) :
    Number.nearest (decide (n < 0)) (shortestDecimal n.natAbs) = .integer n h := by
  have hround := roundDouble_shortestDecimal h
  have hdouble : IsDouble (roundDouble (shortestDecimal n.natAbs)) := hround.symm ▸ h
  by_cases hneg : n < 0
  · have hne : shortestDecimal n.natAbs ≠ 0 := by
      intro h0
      rw [h0] at hround
      have hzero : roundDouble 0 = 0 := rfl
      omega
    have hvalue : -(roundDouble (shortestDecimal n.natAbs) : Int) = n := by
      rw [hround]
      omega
    rw [Number.nearest, if_neg (by simp [hne]), dif_pos hdouble, if_pos (by simpa using hneg)]
    congr
  · have hvalue : (roundDouble (shortestDecimal n.natAbs) : Int) = n := by
      rw [hround]
      omega
    rw [Number.nearest, if_neg (by simp [hneg]), dif_pos hdouble, if_neg (by simpa using hneg)]
    congr

/-- A printed magnitude begins with a digit. -/
theorem magnitudeText_head (x : Nat) : ∃ c cs, magnitudeText x = c :: cs ∧ isDigit c := by
  rw [magnitudeText]
  by_cases hsmall : shortestDecimal x < 10 ^ 21
  · rw [if_pos hsmall]
    have hdecimal := isDecimal_natText (shortestDecimal x)
    cases htext : natText (shortestDecimal x) with
    | nil =>
      rw [htext] at hdecimal
      cases hdecimal
    | cons c cs => exact ⟨c, cs, rfl, isDecimal_digits hdecimal c (by simp [htext])⟩
  · rw [if_neg hsmall]
    have hne : shortestDecimal x ≠ 0 := by
      intro h0
      rw [h0] at hsmall
      exact hsmall (by decide)
    obtain ⟨d, fraction, hsignificant, -, hd, -⟩ := significant_cons hne
    refine ⟨d, (exponentText (shortestDecimal x)).tail, ?_, hd⟩
    simp [exponentText, hsignificant]

/-- Reading a printed integer gives it back. -/
theorem parseNumber_text {n : Int} (hn : IsDouble n.natAbs) {rest : Text} (h : EndsNumber rest) :
    parseNumber ((Number.integer n hn).text ++ rest) = some (.integer n hn, rest) := by
  have hvalue := nearest_shortestDecimal hn
  by_cases hneg : n < 0
  · have htext : (Number.integer n hn).text ++ rest = 45 :: (magnitudeText n.natAbs ++ rest) := by
      simp only [Number.text, hneg, if_true]
      rfl
    rw [decide_eq_true hneg] at hvalue
    rw [htext, parseNumber, if_pos (by simp), List.tail_cons,
      parseMagnitude_magnitudeText true _ h, hvalue]
  · have htext : (Number.integer n hn).text ++ rest = magnitudeText n.natAbs ++ rest := by
      simp [Number.text, hneg]
    have hsign : (magnitudeText n.natAbs ++ rest).head? ≠ some 45 := by
      obtain ⟨c, cs, hc, hdigit⟩ := magnitudeText_head n.natAbs
      rw [hc]
      rintro ⟨⟩
      cases hdigit
    rw [decide_eq_false hneg] at hvalue
    rw [htext, parseNumber, if_neg hsign, parseMagnitude_magnitudeText false _ h, hvalue]

end Hookemon.Js
