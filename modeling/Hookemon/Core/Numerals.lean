import Mathlib

/-! # Positional numerals

Numbers written as digits, most significant digit first, in any base. With a fixed
number of digits, writing and reading are inverse to each other between the numbers
below `b ^ k` and the lists of `k` digits below `b`, and pieces of one width can be
concatenated and taken apart again without separators. Without a fixed width a
number has one numeral that does not begin with a zero.
-/

namespace Hookemon.Core

/-- The value of a list of digits, most significant first. -/
def ofDigitsBE (b : Nat) (ds : List Nat) : Nat :=
  ds.foldl (fun acc d => acc * b + d) 0

/-- The last `k` digits of a number, most significant first. -/
def digitsBE (b : Nat) : Nat → Nat → List Nat
  | 0, _ => []
  | k + 1, n => digitsBE b k (n / b) ++ [n % b]

@[simp] theorem ofDigitsBE_nil (b : Nat) : ofDigitsBE b [] = 0 := rfl

@[simp] theorem ofDigitsBE_concat (b d : Nat) (ds : List Nat) :
    ofDigitsBE b (ds ++ [d]) = ofDigitsBE b ds * b + d := by
  simp [ofDigitsBE]

@[simp] theorem digitsBE_length (b k n : Nat) : (digitsBE b k n).length = k := by
  induction k generalizing n with
  | zero => rfl
  | succ k ih => simp [digitsBE, ih]

theorem digitsBE_lt {b : Nat} (hb : 0 < b) {k n d : Nat} (hd : d ∈ digitsBE b k n) : d < b := by
  induction k generalizing n with
  | zero => simp [digitsBE] at hd
  | succ k ih =>
    rcases List.mem_append.mp hd with hhead | hlast
    · exact ih hhead
    · rw [List.mem_singleton.mp hlast]
      exact Nat.mod_lt _ hb

/-- Reading back what was written. -/
theorem ofDigitsBE_digitsBE (b k n : Nat) : ofDigitsBE b (digitsBE b k n) = n % b ^ k := by
  induction k generalizing n with
  | zero => simp [digitsBE, Nat.mod_one]
  | succ k ih =>
    rw [digitsBE, ofDigitsBE_concat, ih]
    calc n / b % b ^ k * b + n % b = n % b + b * (n / b % b ^ k) := by ring
      _ = n % (b * b ^ k) := (Nat.mod_mul).symm
      _ = n % b ^ (k + 1) := by rw [Nat.pow_succ']

theorem ofDigitsBE_digitsBE_of_lt {b k n : Nat} (h : n < b ^ k) :
    ofDigitsBE b (digitsBE b k n) = n := by
  rw [ofDigitsBE_digitsBE, Nat.mod_eq_of_lt h]

/-- Writing what was read. -/
theorem digitsBE_ofDigitsBE {b : Nat} (hb : 0 < b) (ds : List Nat) (hds : ∀ d ∈ ds, d < b) :
    digitsBE b ds.length (ofDigitsBE b ds) = ds := by
  induction ds using List.reverseRecOn with
  | nil => rfl
  | append_singleton ds d ih =>
    have hd : d < b := hds d (by simp)
    have hrest : ∀ d' ∈ ds, d' < b := fun d' h => hds d' (by simp [h])
    have hdiv : (ofDigitsBE b ds * b + d) / b = ofDigitsBE b ds := by
      rw [Nat.mul_comm, Nat.mul_add_div hb, Nat.div_eq_of_lt hd, Nat.add_zero]
    have hmod : (ofDigitsBE b ds * b + d) % b = d := Nat.mul_add_mod_of_lt hd
    rw [List.length_append, List.length_singleton, digitsBE, ofDigitsBE_concat, hdiv, hmod,
      ih hrest]

theorem ofDigitsBE_lt {b : Nat} (hb : 0 < b) (ds : List Nat) (hds : ∀ d ∈ ds, d < b) :
    ofDigitsBE b ds < b ^ ds.length := by
  have hread := ofDigitsBE_digitsBE b ds.length (ofDigitsBE b ds)
  rw [digitsBE_ofDigitsBE hb ds hds] at hread
  rw [hread]
  exact Nat.mod_lt _ (Nat.pow_pos hb)

/-- The digits of a wider numeral, the upper ones first. -/
theorem digitsBE_add (b j k n : Nat) :
    digitsBE b (j + k) n = digitsBE b j (n / b ^ k) ++ digitsBE b k n := by
  induction k generalizing n with
  | zero => simp [digitsBE]
  | succ k ih =>
    rw [← Nat.add_assoc, digitsBE, ih, digitsBE, List.append_assoc, Nat.div_div_eq_div_mul,
      Nat.pow_succ']

theorem digitsBE_zero (b k : Nat) : digitsBE b k 0 = List.replicate k 0 := by
  induction k with
  | zero => rfl
  | succ k ih => rw [digitsBE, Nat.zero_div, Nat.zero_mod, ih, List.replicate_succ']

/-- Numbers of one width with the same digits are equal. -/
theorem digitsBE_inj {b k n m : Nat} (hn : n < b ^ k) (hm : m < b ^ k)
    (h : digitsBE b k n = digitsBE b k m) : n = m := by
  rw [← ofDigitsBE_digitsBE_of_lt hn, h, ofDigitsBE_digitsBE_of_lt hm]

/-! ## Numerals without leading zeros -/

/-- The digits of a number, with no zero in front. -/
def numeral (b n : Nat) : List Nat := digitsBE b (Nat.log b n + 1) n

/-- The digit lists that are written: not empty, and zero in front only alone. -/
structure IsNumeral (b : Nat) (ds : List Nat) : Prop where
  ne_nil : ds ≠ []
  digit_lt : ∀ d ∈ ds, d < b
  head_ne : ∀ ds', ds = 0 :: ds' → ds' = []

theorem ofDigitsBE_cons (b d : Nat) (ds : List Nat) :
    ofDigitsBE b (d :: ds) = d * b ^ ds.length + ofDigitsBE b ds := by
  induction ds using List.reverseRecOn with
  | nil => simp [ofDigitsBE]
  | append_singleton ds e ih =>
    rw [← List.cons_append, ofDigitsBE_concat, ofDigitsBE_concat, ih, List.length_append,
      List.length_singleton]
    ring

theorem ofDigitsBE_append (b : Nat) (ds es : List Nat) :
    ofDigitsBE b (ds ++ es) = ofDigitsBE b ds * b ^ es.length + ofDigitsBE b es := by
  induction ds with
  | nil => simp
  | cons d ds ih =>
    rw [List.cons_append, ofDigitsBE_cons, ih, ofDigitsBE_cons, List.length_append]
    ring

@[simp] theorem numeral_length (b n : Nat) : (numeral b n).length = Nat.log b n + 1 := by
  simp [numeral]

theorem ofDigitsBE_numeral {b : Nat} (hb : 1 < b) (n : Nat) : ofDigitsBE b (numeral b n) = n :=
  ofDigitsBE_digitsBE_of_lt (Nat.lt_pow_succ_log_self hb n)

theorem numeral_lt {b n d : Nat} (hb : 1 < b) (hd : d ∈ numeral b n) : d < b :=
  digitsBE_lt (Nat.zero_lt_of_lt hb) hd

theorem numeral_isNumeral {b : Nat} (hb : 1 < b) (n : Nat) : IsNumeral b (numeral b n) := by
  refine ⟨fun hnil => ?_, fun d hd => numeral_lt hb hd, fun ds' h0 => ?_⟩
  · simpa [hnil] using numeral_length b n
  · -- a zero in front leaves a number too small for its width
    have hvalue := ofDigitsBE_numeral hb n
    have hwidth := numeral_length b n
    have hrest : ∀ d ∈ ds', d < b := fun d hd => numeral_lt hb (n := n) (by simp [h0, hd])
    rw [h0, ofDigitsBE_cons, Nat.zero_mul, Nat.zero_add] at hvalue
    rw [h0, List.length_cons] at hwidth
    have hlt : n < b ^ ds'.length :=
      hvalue ▸ ofDigitsBE_lt (Nat.zero_lt_of_lt hb) ds' hrest
    rw [Nat.succ_injective hwidth] at hlt
    by_cases hn : n = 0
    · simpa [hn] using hwidth
    · exact absurd (Nat.pow_log_le_self b hn) (Nat.not_le_of_lt hlt)

/-- A list of digits without a zero in front is the numeral of its value. -/
theorem numeral_ofDigitsBE {b : Nat} (hb : 1 < b) {ds : List Nat} (h : IsNumeral b ds) :
    numeral b (ofDigitsBE b ds) = ds := by
  obtain ⟨d, ds, rfl⟩ := List.exists_cons_of_ne_nil h.ne_nil
  have hpos : 0 < b := Nat.zero_lt_of_lt hb
  have hupper : ofDigitsBE b (d :: ds) < b ^ (ds.length + 1) := ofDigitsBE_lt hpos _ h.digit_lt
  have hlog : Nat.log b (ofDigitsBE b (d :: ds)) = ds.length := by
    by_cases hd : d = 0
    · subst hd
      rw [h.head_ne ds rfl]
      simp [ofDigitsBE]
    · refine Nat.log_eq_of_pow_le_of_lt_pow ?_ hupper
      rw [ofDigitsBE_cons]
      calc b ^ ds.length = 1 * b ^ ds.length := (Nat.one_mul _).symm
        _ ≤ d * b ^ ds.length := Nat.mul_le_mul_right _ (Nat.one_le_iff_ne_zero.mpr hd)
        _ ≤ d * b ^ ds.length + ofDigitsBE b ds := Nat.le_add_right _ _
  rw [numeral, hlog]
  exact digitsBE_ofDigitsBE hpos (d :: ds) h.digit_lt

/-- The same value by the digits in the other order. -/
theorem ofDigitsBE_eq (b : Nat) (ds : List Nat) : ofDigitsBE b ds = Nat.ofDigits b ds.reverse := by
  induction ds using List.reverseRecOn with
  | nil => rfl
  | append_singleton ds d ih =>
    rw [ofDigitsBE_concat, ih, List.reverse_append, List.reverse_singleton, List.singleton_append,
      Nat.ofDigits_cons]
    ring

/-! ## Concatenations of pieces of one width -/

/-- A piece is found at its position times the width. -/
theorem take_drop_flatMap {α β : Type*} {f : α → List β} {k : Nat}
    (hwidth : ∀ a, (f a).length = k) {xs : List α} {i : Nat} {x : α} (hx : xs[i]? = some x) :
    ((xs.flatMap f).drop (k * i)).take k = f x := by
  induction xs generalizing i with
  | nil => simp at hx
  | cons y ys ih =>
    cases i with
    | zero =>
      have hy : y = x := by simpa using hx
      rw [hy, Nat.mul_zero, List.drop_zero, List.flatMap_cons, ← hwidth x, List.take_left]
    | succ i =>
      have hskip : k * (i + 1) = (f y).length + k * i := by rw [hwidth y]; ring
      rw [List.flatMap_cons, hskip, ← List.drop_drop, List.drop_left]
      exact ih (by simpa using hx)

/-- An element of a piece is found behind the pieces before it. -/
theorem getElem?_flatMap {α β : Type*} {f : α → List β} {k : Nat}
    (hwidth : ∀ a, (f a).length = k) {xs : List α} {i j : Nat} {x : α} (hx : xs[i]? = some x)
    (hj : j < k) : (xs.flatMap f)[k * i + j]? = (f x)[j]? := by
  have hpiece := take_drop_flatMap hwidth hx
  rw [← hpiece, List.getElem?_take_of_lt hj, List.getElem?_drop]

theorem flatMap_length_of_width {α β : Type*} {f : α → List β} {k : Nat}
    (hwidth : ∀ a, (f a).length = k) (xs : List α) : (xs.flatMap f).length = k * xs.length := by
  induction xs with
  | nil => rfl
  | cons x xs ih =>
    rw [List.flatMap_cons, List.length_append, hwidth, ih, List.length_cons]
    ring

/-- Pieces of one positive width are determined by their concatenation. -/
theorem flatMap_inj_of_width {α β : Type*} {f : α → List β} {k : Nat} (hk : 0 < k)
    (hwidth : ∀ a, (f a).length = k) (hf : Function.Injective f) :
    Function.Injective (List.flatMap f) := by
  intro xs
  induction xs with
  | nil =>
    intro ys h
    cases ys with
    | nil => rfl
    | cons y ys =>
      have hlen := congrArg List.length h
      simp [hwidth] at hlen
      omega
  | cons x xs ih =>
    intro ys h
    cases ys with
    | nil =>
      have hlen := congrArg List.length h
      simp [hwidth] at hlen
      omega
    | cons y ys =>
      simp only [List.flatMap_cons] at h
      obtain ⟨hhead, htail⟩ := List.append_inj h ((hwidth x).trans (hwidth y).symm)
      rw [hf hhead, ih htail]

end Hookemon.Core
