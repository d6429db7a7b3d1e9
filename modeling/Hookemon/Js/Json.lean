import Hookemon.Js.Hex
import Hookemon.Js.Unicode
import Hookemon.Js.Value

/-! # JSON

How `JSON.stringify` quotes a string, and `JSON.parse`. Paired surrogates are quoted as
they are, and a surrogate without its pair is escaped. The parser is the grammar of JSON
with the fuel of one level for each unit of the text, which no nesting exhausts. A key
that occurs again in an object replaces the value of the first occurrence.
-/

namespace Hookemon.Js

open Hookemon.Core

/-! ## Strings -/

/-- `\u` and four digits. -/
def unicodeEscape (c : UInt16) : Text :=
  [92, 117, hexUnit (c.toNat / 4096), hexUnit (c.toNat / 256 % 16), hexUnit (c.toNat / 16 % 16),
    hexUnit (c.toNat % 16)]

/-- The quoted form of a unit that is not part of a surrogate pair. -/
def quoteUnit (c : UInt16) : Text :=
  if c = 8 then [92, 98]
  else if c = 9 then [92, 116]
  else if c = 10 then [92, 110]
  else if c = 12 then [92, 102]
  else if c = 13 then [92, 114]
  else if c = 34 then [92, 34]
  else if c = 92 then [92, 92]
  else if c.toNat < 32 ∨ isLead c ∨ isTrail c then unicodeEscape c
  else [c]

def quoteUnits : Text → Text
  | [] => []
  | [c] => quoteUnit c
  | c :: d :: rest =>
    if isLead c && isTrail d then c :: d :: quoteUnits rest
    else quoteUnit c ++ quoteUnits (d :: rest)

/-- `JSON.stringify` of a string. -/
def quoteJSONString (s : Text) : Text := 34 :: (quoteUnits s ++ [34])

/-! ## Parsing -/

def isJsonSpace (c : UInt16) : Bool := c = 9 || c = 10 || c = 13 || c = 32

def skipSpace (s : Text) : Text := s.dropWhile isJsonSpace

/-- The unit that an escape stands for, after the backslash. -/
def parseEscape : Text → Option (UInt16 × Text)
  | [] => none
  | e :: s =>
    if e = 98 then some (8, s)
    else if e = 116 then some (9, s)
    else if e = 110 then some (10, s)
    else if e = 102 then some (12, s)
    else if e = 114 then some (13, s)
    else if e = 34 ∨ e = 92 ∨ e = 47 then some (e, s)
    else if e = 117 ∧ 4 ≤ s.length ∧ (s.take 4).all isHexDigit then
      some (UInt16.ofNat (ofDigitsBE 16 ((s.take 4).map unitHex)), s.drop 4)
    else none

/-- One unit of a string, raw or escaped. -/
def parseUnit : Text → Option (UInt16 × Text)
  | [] => none
  | c :: s =>
    if c = 92 then parseEscape s
    else if c.toNat < 32 then none
    else some (c, s)

/-- The rest of a string, after its opening quote. -/
def parseChars : Nat → Text → Option (Text × Text)
  | 0, _ => none
  | fuel + 1, s =>
    if s.head? = some 34 then some ([], s.tail)
    else do
      let (c, s) ← parseUnit s
      let (cs, s) ← parseChars fuel s
      return (c :: cs, s)

def parseString (s : Text) : Option (Text × Text) :=
  if s.head? = some 34 then parseChars s.length s.tail else none

def parseWord (word : Text) (v : Value) (s : Text) : Option (Value × Text) :=
  if s.take word.length = word then some (v, s.drop word.length) else none

/-- `CreateDataProperty` for one more member of an object. -/
def setField (fs : Fields) (f : Text × Value) : Fields :=
  if f.1 ∈ fs.map Prod.fst then fs.map fun g => if g.1 = f.1 then f else g else fs ++ [f]

mutual

def parseValue : Nat → Text → Option (Value × Text)
  | 0, _ => none
  | fuel + 1, s =>
    let s := skipSpace s
    if s.head? = some 34 then do
      let (t, s) ← parseString s
      return (.string t, s)
    else if s.head? = some 91 then
      let inner := skipSpace s.tail
      if inner.head? = some 93 then some (.array [], inner.tail)
      else do
        let (vs, s) ← parseElements fuel inner
        return (.array vs, s)
    else if s.head? = some 123 then
      let inner := skipSpace s.tail
      if inner.head? = some 125 then some (.object [], inner.tail)
      else do
        let (fs, s) ← parseMembers fuel inner
        return (.object (fs.foldl setField []), s)
    else if s.head? = some 110 then parseWord (text "null") .null s
    else if s.head? = some 116 then parseWord (text "true") (.boolean true) s
    else if s.head? = some 102 then parseWord (text "false") (.boolean false) s
    else do
      let (x, s) ← parseNumber s
      return (.number x, s)

/-- The elements of an array that is not empty, and its closing bracket. -/
def parseElements : Nat → Text → Option (List Value × Text)
  | 0, _ => none
  | fuel + 1, s => do
    let (v, s) ← parseValue fuel s
    let s := skipSpace s
    if s.head? = some 44 then
      let (vs, s) ← parseElements fuel s.tail
      return (v :: vs, s)
    else if s.head? = some 93 then some ([v], s.tail)
    else none

/-- The members of an object that is not empty, and its closing brace. -/
def parseMembers : Nat → Text → Option (Fields × Text)
  | 0, _ => none
  | fuel + 1, s => do
    let (key, s) ← parseString (skipSpace s)
    let s := skipSpace s
    if s.head? = some 58 then
      let (v, s) ← parseValue fuel s.tail
      let s := skipSpace s
      if s.head? = some 44 then
        let (fs, s) ← parseMembers fuel s.tail
        return ((key, v) :: fs, s)
      else if s.head? = some 125 then some ([(key, v)], s.tail)
      else none
    else none

end

/-- `JSON.parse`. -/
def parse (s : Text) : Option Value := do
  let (v, rest) ← parseValue (s.length + 1) s
  if skipSpace rest = [] then return v else none

/-! ## Strings, round trip -/

theorem isHexDigit_hexUnit {d : Nat} (hd : d < 16) : isHexDigit (hexUnit d) :=
  isHexDigit_of_lower (isLowerHexDigit_hexUnit hd)

theorem parseUnit_unicodeEscape (c : UInt16) (rest : Text) :
    parseUnit (unicodeEscape c ++ rest) = some (c, rest) := by
  have hc := c.toNat_lt
  have hvalue : ofDigitsBE 16 [c.toNat / 4096, c.toNat / 256 % 16, c.toNat / 16 % 16, c.toNat % 16]
      = c.toNat := by
    simp only [ofDigitsBE, List.foldl_cons, List.foldl_nil]
    omega
  have h₁ : c.toNat / 4096 < 16 := by omega
  have h₂ : c.toNat / 256 % 16 < 16 := Nat.mod_lt _ (by decide)
  have h₃ : c.toNat / 16 % 16 < 16 := Nat.mod_lt _ (by decide)
  have h₄ : c.toNat % 16 < 16 := Nat.mod_lt _ (by decide)
  simp [parseUnit, unicodeEscape, parseEscape, isHexDigit_hexUnit, unitHex_hexUnit, h₁, h₂, h₃, h₄,
    hvalue]

theorem parseUnit_quoteUnit (c : UInt16) (rest : Text) :
    parseUnit (quoteUnit c ++ rest) = some (c, rest) := by
  unfold quoteUnit
  split_ifs with h₁ h₂ h₃ h₄ h₅ h₆ h₇ h₈
  · subst h₁; rfl
  · subst h₂; rfl
  · subst h₃; rfl
  · subst h₄; rfl
  · subst h₅; rfl
  · subst h₆; rfl
  · subst h₇; rfl
  · exact parseUnit_unicodeEscape c rest
  · have hlarge : ¬ c.toNat < 32 := fun hlt => h₈ (.inl hlt)
    simp [parseUnit, h₇, hlarge]

/-- No quoted unit begins with a quote. -/
theorem quoteUnit_head (c : UInt16) (rest : Text) : (quoteUnit c ++ rest).head? ≠ some 34 := by
  unfold quoteUnit unicodeEscape
  split_ifs with h₁ h₂ h₃ h₄ h₅ h₆ h₇ h₈ <;> simp_all

theorem quoteUnit_pos (c : UInt16) : 0 < (quoteUnit c).length := by
  unfold quoteUnit unicodeEscape
  split_ifs <;> simp

theorem quoteUnits_length (s : Text) : s.length ≤ (quoteUnits s).length := by
  induction s using quoteUnits.induct with
  | case1 => simp [quoteUnits]
  | case2 c => exact quoteUnit_pos c
  | case3 c d rest hpair ih =>
    rw [quoteUnits, if_pos hpair]
    simp only [List.length_cons]
    omega
  | case4 c d rest hpair ih =>
    have hpos := quoteUnit_pos c
    rw [quoteUnits, if_neg hpair]
    simp only [List.length_append, List.length_cons] at ih ⊢
    omega

/-- A surrogate is read as it is. -/
theorem parseUnit_surrogate {c : UInt16} (h : isLead c ∨ isTrail c) (rest : Text) :
    parseUnit (c :: rest) = some (c, rest) ∧ c ≠ 34 := by
  have hlarge : 0xD800 ≤ c.toNat := by
    simp only [isLead, isTrail, Bool.and_eq_true, decide_eq_true_eq] at h
    omega
  have hbackslash : c ≠ 92 := by
    rintro rfl
    exact absurd hlarge (by decide)
  have hquote : c ≠ 34 := by
    rintro rfl
    exact absurd hlarge (by decide)
  have hcontrol : ¬ c.toNat < 32 := by omega
  exact ⟨by simp [parseUnit, hbackslash, hcontrol], hquote⟩

/-- Reading a quoted string gives it back. -/
theorem parseChars_quoteUnits (s rest : Text) :
    ∀ fuel, s.length < fuel → parseChars fuel (quoteUnits s ++ 34 :: rest) = some (s, rest) := by
  induction s using quoteUnits.induct with
  | case1 =>
    intro fuel hfuel
    obtain ⟨fuel, rfl⟩ := Nat.exists_eq_add_one_of_ne_zero (by omega : fuel ≠ 0)
    simp [parseChars, quoteUnits]
  | case2 c =>
    intro fuel hfuel
    simp only [List.length_singleton] at hfuel
    obtain ⟨fuel, rfl⟩ := Nat.exists_eq_add_one_of_ne_zero (by omega : fuel ≠ 0)
    obtain ⟨fuel, rfl⟩ := Nat.exists_eq_add_one_of_ne_zero (by omega : fuel ≠ 0)
    rw [quoteUnits, parseChars, if_neg (quoteUnit_head c _), parseUnit_quoteUnit]
    simp [parseChars]
  | case3 c d tail hpair ih =>
    intro fuel hfuel
    simp only [List.length_cons] at hfuel
    obtain ⟨fuel, rfl⟩ := Nat.exists_eq_add_one_of_ne_zero (by omega : fuel ≠ 0)
    obtain ⟨fuel, rfl⟩ := Nat.exists_eq_add_one_of_ne_zero (by omega : fuel ≠ 0)
    have hunits : isLead c ∧ isTrail d := by simpa using hpair
    obtain ⟨hlead, hc⟩ := parseUnit_surrogate (.inl hunits.1) (d :: (quoteUnits tail ++ 34 :: rest))
    obtain ⟨htrail, hd⟩ := parseUnit_surrogate (.inr hunits.2) (quoteUnits tail ++ 34 :: rest)
    have htail := ih fuel (by omega)
    rw [quoteUnits, if_pos hpair, List.cons_append, List.cons_append, parseChars,
      if_neg (by simpa using hc), hlead]
    simp [parseChars, hd, htrail, htail]
  | case4 c d tail hpair ih =>
    intro fuel hfuel
    simp only [List.length_cons] at hfuel ih
    obtain ⟨fuel, rfl⟩ := Nat.exists_eq_add_one_of_ne_zero (by omega : fuel ≠ 0)
    have htail := ih fuel (by omega)
    rw [quoteUnits, if_neg hpair, List.append_assoc, parseChars, if_neg (quoteUnit_head c _),
      parseUnit_quoteUnit]
    simp [htail]

theorem parseString_quote (s rest : Text) :
    parseString (quoteJSONString s ++ rest) = some (s, rest) := by
  have hlength := quoteUnits_length s
  have htext : quoteJSONString s ++ rest = 34 :: (quoteUnits s ++ 34 :: rest) := by
    simp [quoteJSONString]
  rw [htext, parseString, if_pos (by simp), List.tail_cons]
  apply parseChars_quoteUnits
  simp only [List.length_cons, List.length_append]
  omega

/-! ## What a text is read as -/

/-- The text is one value, as far as any text goes on that ends a number. -/
structure Reads (v : Value) (t : Text) : Prop where
  starts : ∃ c cs, t = c :: cs ∧ isJsonSpace c = false ∧ c ≠ 93
  parse : ∀ fuel rest, t.length < fuel → EndsNumber rest →
    parseValue fuel (t ++ rest) = some (v, rest)

theorem skipSpace_cons {c : UInt16} {s : Text} (h : isJsonSpace c = false) :
    skipSpace (c :: s) = c :: s := by
  simp [skipSpace, h]

theorem Reads.skipSpace {v : Value} {t : Text} (h : Reads v t) (rest : Text) :
    skipSpace (t ++ rest) = t ++ rest := by
  obtain ⟨c, cs, rfl, hspace, -⟩ := h.starts
  exact skipSpace_cons hspace

/-- A punctuator of arrays and objects ends a number. -/
theorem endsNumber_cons {c : UInt16} (rest : Text) (h : c = 44 ∨ c = 93 ∨ c = 125) :
    EndsNumber (c :: rest) := by
  rintro d ⟨⟩
  rcases h with rfl | rfl | rfl <;> decide

theorem Reads.string (s : Text) : Reads (.string s) (quoteJSONString s) := by
  refine ⟨⟨34, _, rfl, by decide, by decide⟩, fun fuel rest hfuel _ => ?_⟩
  obtain ⟨fuel, rfl⟩ := Nat.exists_eq_add_one_of_ne_zero (by omega : fuel ≠ 0)
  have hread := parseString_quote s rest
  have hspace : Js.skipSpace (quoteJSONString s ++ rest) = quoteJSONString s ++ rest :=
    skipSpace_cons (by decide)
  have hhead : (quoteJSONString s ++ rest).head? = some 34 := rfl
  rw [parseValue]
  simp only [hspace, hhead, if_true, hread]
  rfl

theorem Reads.null : Reads .null (text "null") := by
  refine ⟨⟨110, _, rfl, by decide, by decide⟩, fun fuel rest hfuel _ => ?_⟩
  obtain ⟨fuel, rfl⟩ := Nat.exists_eq_add_one_of_ne_zero (by omega : fuel ≠ 0)
  rfl

theorem Reads.boolean (b : Bool) :
    Reads (.boolean b) (if b then text "true" else text "false") := by
  cases b
  · refine ⟨⟨102, _, rfl, by decide, by decide⟩, fun fuel rest hfuel _ => ?_⟩
    obtain ⟨fuel, rfl⟩ := Nat.exists_eq_add_one_of_ne_zero (by omega : fuel ≠ 0)
    rfl
  · refine ⟨⟨116, _, rfl, by decide, by decide⟩, fun fuel rest hfuel _ => ?_⟩
    obtain ⟨fuel, rfl⟩ := Nat.exists_eq_add_one_of_ne_zero (by omega : fuel ≠ 0)
    rfl

theorem Reads.number {n : Int} (hn : IsDouble n.natAbs) :
    Reads (.number (.integer n hn)) (Number.integer n hn).text := by
  have hhead : ∃ c cs, (Number.integer n hn).text = c :: cs ∧ (c = 45 ∨ isDigit c) := by
    obtain ⟨c, cs, htext, hc⟩ := magnitudeText_head n.natAbs
    by_cases hneg : n < 0
    · exact ⟨45, magnitudeText n.natAbs, by simp [Number.text, hneg, text], .inl rfl⟩
    · exact ⟨c, cs, by simp [Number.text, hneg, htext], .inr hc⟩
  obtain ⟨c, cs, htext, hc⟩ := hhead
  -- no other value begins with a sign or a digit
  have hother : ∀ d : UInt16, d ≠ 45 → isDigit d = false → c ≠ d := by
    rintro d h45 hdigit rfl
    rcases hc with rfl | hc
    · exact h45 rfl
    · rw [hdigit] at hc
      cases hc
  have hspace : isJsonSpace c = false := by
    simp only [isJsonSpace, Bool.or_eq_false_iff, decide_eq_false_iff_not]
    exact ⟨⟨⟨hother 9 (by decide) rfl, hother 10 (by decide) rfl⟩, hother 13 (by decide) rfl⟩,
      hother 32 (by decide) rfl⟩
  refine ⟨⟨c, cs, htext, hspace, hother 93 (by decide) rfl⟩, fun fuel rest hfuel hrest => ?_⟩
  obtain ⟨fuel, rfl⟩ := Nat.exists_eq_add_one_of_ne_zero (by omega : fuel ≠ 0)
  have hread := parseNumber_text hn hrest
  rw [htext, List.cons_append] at hread ⊢
  rw [parseValue]
  simp [skipSpace_cons hspace, hread, hother 34 (by decide) rfl, hother 91 (by decide) rfl,
    hother 123 (by decide) rfl, hother 110 (by decide) rfl, hother 116 (by decide) rfl,
    hother 102 (by decide) rfl]

/-! ## Arrays and objects -/

/-- `texts.join(',')`. -/
def join : List Text → Text
  | [] => []
  | [t] => t
  | t :: u :: ts => t ++ 44 :: join (u :: ts)

theorem join_cons_append (t : Text) (ts : List Text) (rest : Text) :
    join (t :: ts) ++ rest = t ++ (if ts = [] then rest else 44 :: (join ts ++ rest)) := by
  cases ts with
  | nil => simp [join]
  | cons u ts => simp [join]

theorem join_cons_length (t : Text) (ts : List Text) :
    t.length + (join ts).length ≤ (join (t :: ts)).length := by
  cases ts with
  | nil => simp [join]
  | cons u ts =>
    simp only [join, List.length_append, List.length_cons]
    omega

theorem parseElements_join {vs : List Value} {ts : List Text} (h : List.Forall₂ Reads vs ts)
    (hne : vs ≠ []) (rest : Text) :
    ∀ fuel, (join ts).length + 1 < fuel →
      parseElements fuel (join ts ++ 93 :: rest) = some (vs, rest) := by
  induction h with
  | nil => exact absurd rfl hne
  | @cons v t vs ts hv hvs ih =>
    intro fuel hfuel
    obtain ⟨fuel, rfl⟩ := Nat.exists_eq_add_one_of_ne_zero (by omega : fuel ≠ 0)
    have hlength := join_cons_length t ts
    rw [parseElements, join_cons_append]
    by_cases hlast : ts = []
    · have hvs' : vs = [] := by simpa [hlast] using hvs
      have hread := hv.parse fuel (93 :: rest) (by omega) (endsNumber_cons rest (by decide))
      simp [hlast, hvs', hread, skipSpace_cons (show isJsonSpace 93 = false by decide)]
    · have hvs' : vs ≠ [] := by
        rintro rfl
        exact hlast (by simpa using hvs)
      have hcomma : t.length + 1 + (join ts).length ≤ (join (t :: ts)).length := by
        obtain ⟨u, us, rfl⟩ := List.exists_cons_of_ne_nil hlast
        simp only [join, List.length_append, List.length_cons]
        omega
      have hread := hv.parse fuel (44 :: (join ts ++ 93 :: rest)) (by omega)
        (endsNumber_cons _ (by decide))
      have htail := ih hvs' fuel (by omega)
      simp [hlast, hread, htail, skipSpace_cons (show isJsonSpace 44 = false by decide)]

theorem Reads.array {vs : List Value} {ts : List Text} (h : List.Forall₂ Reads vs ts) :
    Reads (.array vs) (91 :: (join ts ++ [93])) := by
  refine ⟨⟨91, _, rfl, by decide, by decide⟩, fun fuel rest hfuel _ => ?_⟩
  obtain ⟨fuel, rfl⟩ := Nat.exists_eq_add_one_of_ne_zero (by omega : fuel ≠ 0)
  simp only [List.length_cons, List.length_append, List.length_nil] at hfuel
  have htext : 91 :: (join ts ++ [93]) ++ rest = 91 :: (join ts ++ 93 :: rest) := by simp
  rw [htext, parseValue, skipSpace_cons (by decide)]
  cases h with
  | nil => rfl
  | @cons v t vs ts hv hvs =>
    have hread := parseElements_join (.cons hv hvs) (by simp) rest fuel (by omega)
    have hhead : ∃ c more, join (t :: ts) ++ 93 :: rest = c :: more ∧
        isJsonSpace c = false ∧ c ≠ 93 := by
      obtain ⟨c, cs, rfl, hspace, hc⟩ := hv.starts
      rw [join_cons_append]
      exact ⟨c, _, rfl, hspace, hc⟩
    obtain ⟨c, more, hmore, hspace, hc⟩ := hhead
    rw [hmore] at hread ⊢
    simp [skipSpace_cons hspace, hc, hread]

/-- One member of an object. -/
def memberText (key t : Text) : Text := quoteJSONString key ++ 58 :: t

theorem parseMembers_join {fs : Fields} {ts : List Text}
    (h : List.Forall₂ (fun f t => Reads f.2 t) fs ts) (hne : fs ≠ []) (rest : Text) :
    ∀ fuel, (join (List.zipWith (fun f t => memberText f.1 t) fs ts)).length + 1 < fuel →
      parseMembers fuel (join (List.zipWith (fun f t => memberText f.1 t) fs ts) ++ 125 :: rest)
        = some (fs, rest) := by
  induction h with
  | nil => exact absurd rfl hne
  | @cons f t fs ts hf hfs ih =>
    obtain ⟨key, v⟩ := f
    intro fuel hfuel
    obtain ⟨fuel, rfl⟩ := Nat.exists_eq_add_one_of_ne_zero (by omega : fuel ≠ 0)
    rw [List.zipWith_cons_cons] at hfuel ⊢
    dsimp only at hfuel
    have hlength := join_cons_length (memberText key t)
      (List.zipWith (fun f t => memberText f.1 t) fs ts)
    have hmember : (memberText key t).length = (quoteJSONString key).length + 1 + t.length := by
      simp only [memberText, List.length_append, List.length_cons]
      omega
    have hkey : ∀ more, Js.skipSpace (quoteJSONString key ++ more) = quoteJSONString key ++ more :=
      fun more => skipSpace_cons (by decide)
    rw [parseMembers, join_cons_append, memberText, List.append_assoc, hkey, parseString_quote,
      List.cons_append]
    by_cases hlast : List.zipWith (fun f t => memberText f.1 t) fs ts = []
    · have hfs' : fs = [] := by
        cases hfs with
        | nil => rfl
        | cons _ _ => simp at hlast
      have hread := hf.parse fuel (125 :: rest) (by omega) (endsNumber_cons rest (by decide))
      simp [hfs', hread, skipSpace_cons (show isJsonSpace 58 = false by decide),
        skipSpace_cons (show isJsonSpace 125 = false by decide)]
    · have hfs' : fs ≠ [] := by
        rintro rfl
        exact hlast rfl
      have hcomma : (memberText key t).length + 1 +
          (join (List.zipWith (fun f t => memberText f.1 t) fs ts)).length ≤
          (join (memberText key t :: List.zipWith (fun f t => memberText f.1 t) fs ts)).length := by
        obtain ⟨u, us, hus⟩ := List.exists_cons_of_ne_nil hlast
        rw [hus]
        simp only [join, List.length_append, List.length_cons]
        omega
      have hread := hf.parse fuel
        (44 :: (join (List.zipWith (fun f t => memberText f.1 t) fs ts) ++ 125 :: rest))
        (by omega) (endsNumber_cons _ (by decide))
      have htail := ih hfs' fuel (by omega)
      simp [hlast, hread, htail, skipSpace_cons (show isJsonSpace 58 = false by decide),
        skipSpace_cons (show isJsonSpace 44 = false by decide)]

/-- Distinct keys are all kept. -/
theorem foldl_setField (fs : Fields) :
    ∀ acc : Fields, ((acc ++ fs).map Prod.fst).Nodup → fs.foldl setField acc = acc ++ fs := by
  induction fs with
  | nil => simp
  | cons f fs ih =>
    intro acc hnodup
    have hnew : f.1 ∉ acc.map Prod.fst := by
      intro hmem
      rw [List.map_append, List.map_cons, List.nodup_append] at hnodup
      exact hnodup.2.2 _ hmem _ (by simp) rfl
    have hrest := ih (acc ++ [f]) (by simpa using hnodup)
    rw [List.foldl_cons, setField, if_neg hnew, hrest, List.append_assoc, List.singleton_append]

theorem Reads.object {fs : Fields} {ts : List Text}
    (h : List.Forall₂ (fun f t => Reads f.2 t) fs ts) (hnodup : (fs.map Prod.fst).Nodup) :
    Reads (.object fs)
      (123 :: (join (List.zipWith (fun f t => memberText f.1 t) fs ts) ++ [125])) := by
  refine ⟨⟨123, _, rfl, by decide, by decide⟩, fun fuel rest hfuel _ => ?_⟩
  obtain ⟨fuel, rfl⟩ := Nat.exists_eq_add_one_of_ne_zero (by omega : fuel ≠ 0)
  simp only [List.length_cons, List.length_append, List.length_nil] at hfuel
  have htext : ∀ inner : Text, 123 :: (inner ++ [125]) ++ rest = 123 :: (inner ++ 125 :: rest) := by
    simp
  rw [htext, parseValue, skipSpace_cons (by decide)]
  cases h with
  | nil => rfl
  | @cons f t fs ts hf hfs =>
    have hread := parseMembers_join (.cons hf hfs) (by simp) rest fuel (by omega)
    have hkeep := foldl_setField (f :: fs) [] (by simpa using hnodup)
    have hhead : ∃ more, join (List.zipWith (fun f t => memberText f.1 t) (f :: fs) (t :: ts)) ++
        125 :: rest = 34 :: more := by
      rw [List.zipWith_cons_cons, join_cons_append]
      exact ⟨_, rfl⟩
    obtain ⟨more, hmore⟩ := hhead
    rw [hmore] at hread ⊢
    rw [List.nil_append] at hkeep
    simp [skipSpace_cons (show isJsonSpace 34 = false by decide), hread, hkeep]

/-- A text that is one value is parsed as that value. -/
theorem Reads.parse_eq {v : Value} {t : Text} (h : Reads v t) : Js.parse t = some v := by
  have hread := h.parse (t.length + 1) [] (Nat.lt_succ_self _) (by simp [EndsNumber])
  rw [List.append_nil] at hread
  rw [Js.parse, hread]
  rfl

/-- A text is one value at most. -/
theorem Reads.unique {v w : Value} {t : Text} (hv : Reads v t) (hw : Reads w t) : v = w :=
  Option.some.inj (hv.parse_eq.symm.trans hw.parse_eq)

end Hookemon.Js
