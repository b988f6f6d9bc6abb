import Mathlib.Data.List.TakeWhile
import RequestPlan.Decimal.Literal
import RequestPlan.Proofs.DecimalDigits

/-!
# The grammar of number literals

A literal as it is written: its sign, the digits before and behind the point, and its exponent. The
texts of literals are exactly those that are read as numbers, and the number that is read is the
value of the literal, however its digits are split up.

* `Literal`: literals with the parts that the grammar gives them, and the text of each;
* `ofText?_eq_some_iff`: the numbers that are read are those of the literals;
* `Literal.value`, `Literal.toRat_number`: the value of a literal;
* `Literal.adjustedExponent`, `Literal.adjustedExponent_number`: where its first digit stands;
* `Literal.HasDigits`: the digits that the value needs;
* `Literal.ofInt`: the way in which an integer is written.
-/

namespace RequestPlan.Decimal

/-! ## Literals -/

/-- A whole part: a zero, or digits of which the first one is not zero. -/
inductive IsWhole : List Char → Prop where
  | zero : IsWhole ['0']
  | nonzero {first : Char} {rest : List Char} (hfirst : first.isDigit = true) (hne : first ≠ '0')
      (hrest : ∀ c ∈ rest, c.isDigit = true) : IsWhole (first :: rest)

/-- An exponent as it is written: a mark, an optional sign, and digits. -/
structure WrittenExponent where
  mark : Char
  sign : Option Char
  digits : List Char
  mark_eq : mark = 'e' ∨ mark = 'E'
  sign_eq : sign = none ∨ sign = some '+' ∨ sign = some '-'
  digits_ne_nil : digits ≠ []
  isDigit : ∀ c ∈ digits, c.isDigit = true

/-- A literal as it is written. Without a fraction it has no point either. -/
structure Literal where
  negative : Bool
  whole : List Char
  fraction : List Char
  exponent : Option WrittenExponent
  isWhole : IsWhole whole
  isDigit : ∀ c ∈ fraction, c.isDigit = true

/-- The text of an exponent. -/
def WrittenExponent.toList (exponent : WrittenExponent) : List Char :=
  exponent.mark :: (exponent.sign.toList ++ exponent.digits)

/-- The power of ten that an exponent stands for. -/
def WrittenExponent.value (exponent : WrittenExponent) : ℤ :=
  if exponent.sign = some '-' then -(ofDigits exponent.digits : ℤ) else ofDigits exponent.digits

/-- The text of a fraction. -/
def fractionText (fraction : List Char) : List Char :=
  if fraction = [] then [] else '.' :: fraction

namespace Literal

/-- The text of a literal without its sign. -/
def unsigned (literal : Literal) : List Char :=
  literal.whole ++
    (fractionText literal.fraction ++ literal.exponent.elim [] WrittenExponent.toList)

/-- The text of a literal. -/
def toList (literal : Literal) : List Char :=
  if literal.negative then '-' :: literal.unsigned else literal.unsigned

/-- The power of ten that the exponent stands for, none if there is no exponent. -/
def power (literal : Literal) : ℤ :=
  literal.exponent.elim 0 WrittenExponent.value

/-- The exact value. -/
def value (literal : Literal) : ℚ :=
  (if literal.negative then -1 else 1) *
    ((ofDigits literal.whole + ofDigits literal.fraction / 10 ^ literal.fraction.length) *
      10 ^ literal.power)

/-- The power of ten of the first digit of the value; for zero, that of the last digit written. -/
def adjustedExponent (literal : Literal) : ℤ :=
  if literal.value = 0 then literal.power - literal.fraction.length
  else Int.log 10 |literal.value|

/-- The value needs at most `p` digits. -/
def HasDigits (p : ℕ) (literal : Literal) : Prop :=
  ∃ (digits : ℕ) (exponent : ℤ), digits < 10 ^ p ∧ |literal.value| = digits * 10 ^ exponent

/-- The number with the digits and the exponent of the literal. -/
def number (literal : Literal) : Decimal where
  negative := literal.negative
  coefficient := ofDigits (literal.whole ++ literal.fraction)
  exponent := literal.power - literal.fraction.length

end Literal

/-! ## Reading the parts -/

variable {text rest digits : List Char} {d : Decimal}

theorem IsWhole.ne_nil (h : IsWhole digits) : digits ≠ [] := by
  cases h <;> exact List.cons_ne_nil _ _

theorem IsWhole.isDigit (h : IsWhole digits) : ∀ c ∈ digits, c.isDigit = true := by
  cases h with
  | zero => simp
  | nonzero hfirst _ hrest => exact List.forall_mem_cons.2 ⟨hfirst, hrest⟩

/-- A whole part is made of digits, the first of which is zero only if it is alone. -/
theorem isWhole_iff :
    IsWhole digits ↔ digits ≠ [] ∧ (∀ second more, digits ≠ '0' :: second :: more) ∧
      ∀ c ∈ digits, c.isDigit = true := by
  constructor
  · intro h
    refine ⟨h.ne_nil, ?_, h.isDigit⟩
    cases h with
    | zero => simp
    | nonzero _ hne _ => simp [hne]
  · rintro ⟨hne, hzero, hdigits⟩
    cases digits with
    | nil => exact absurd rfl hne
    | cons first more =>
      obtain ⟨hfirst, hmore⟩ := List.forall_mem_cons.1 hdigits
      by_cases hfirstZero : first = '0'
      · subst hfirstZero
        cases more with
        | nil => exact .zero
        | cons second more => exact absurd rfl (hzero second more)
      · exact .nonzero hfirst hfirstZero hmore

/-- The leading digits end where no further digit follows. -/
theorem leadingDigits_eq_iff :
    leadingDigits text = (digits, rest) ↔
      digits ++ rest = text ∧ (∀ c ∈ digits, c.isDigit = true) ∧
        ∀ c ∈ rest.head?, c.isDigit = false := by
  rw [leadingDigits, Prod.mk.injEq]
  constructor
  · rintro ⟨rfl, rfl⟩
    refine ⟨List.takeWhile_append_dropWhile, fun c => List.mem_takeWhile_imp, fun c hc => ?_⟩
    have hhead := List.head?_dropWhile_not Char.isDigit text
    rw [hc] at hhead
    simpa using hhead
  · rintro ⟨rfl, hdigits, hrest⟩
    have hstop : rest.takeWhile Char.isDigit = [] ∧ rest.dropWhile Char.isDigit = rest := by
      cases rest with
      | nil => exact ⟨rfl, rfl⟩
      | cons c rest =>
        have hc : c.isDigit = false := hrest c rfl
        simp [hc]
    rw [List.takeWhile_append_of_pos hdigits, List.dropWhile_append_of_pos hdigits, hstop.1,
      hstop.2, List.append_nil]
    exact ⟨rfl, rfl⟩

theorem wholePart?_eq_some_iff :
    wholePart? text = some (digits, rest) ↔
      IsWhole digits ∧ digits ++ rest = text ∧ ∀ c ∈ rest.head?, c.isDigit = false := by
  -- The digits of a whole part can only be the leading ones.
  have hleading : IsWhole digits ∧ digits ++ rest = text ∧ (∀ c ∈ rest.head?, c.isDigit = false) ↔
      IsWhole digits ∧ leadingDigits text = (digits, rest) := by
    rw [leadingDigits_eq_iff]
    exact and_congr_right fun h => and_congr_right fun _ => (and_iff_right h.isDigit).symm
  rw [hleading, wholePart?]
  split
  · next rest' hread =>
    refine iff_of_false nofun fun ⟨h, hread'⟩ => h.ne_nil ?_
    rw [hread, Prod.mk.injEq] at hread'
    exact hread'.1.symm
  · next second more rest' hread =>
    refine iff_of_false nofun fun ⟨h, hread'⟩ => (isWhole_iff.1 h).2.1 second more ?_
    rw [hread, Prod.mk.injEq] at hread'
    exact hread'.1.symm
  · next digits' rest' hnil hzero hread =>
    have hwhole : IsWhole digits' :=
      isWhole_iff.2 ⟨hnil, hzero, (leadingDigits_eq_iff.1 hread).2.1⟩
    rw [hread, Option.some_inj]
    constructor
    · intro heq
      exact ⟨(Prod.mk.inj heq).1 ▸ hwhole, heq⟩
    · exact fun h => h.2

/-- What is read as a fraction is written like one. -/
theorem fractionPart?_spec (h : fractionPart? text = some (digits, rest)) :
    fractionText digits ++ rest = text ∧ ∀ c ∈ digits, c.isDigit = true := by
  unfold fractionPart? at h
  split at h
  · next text =>
    split at h
    · cases h
    · next digits' rest' hnil hread =>
      obtain ⟨rfl, rfl⟩ : digits' = digits ∧ rest' = rest := by simpa using h
      obtain ⟨rfl, hdigits, -⟩ := leadingDigits_eq_iff.1 hread
      have hne : digits' ≠ [] := hnil
      exact ⟨by rw [fractionText, if_neg hne, List.cons_append], hdigits⟩
  · obtain ⟨rfl, rfl⟩ : [] = digits ∧ text = rest := by simpa using h
    exact ⟨rfl, by simp⟩

/-- A fraction is read as far as it goes. -/
theorem fractionPart?_fractionText_append (hdigits : ∀ c ∈ digits, c.isDigit = true)
    (hrest : ∀ c ∈ rest.head?, c.isDigit = false ∧ c ≠ '.') :
    fractionPart? (fractionText digits ++ rest) = some (digits, rest) := by
  by_cases hne : digits = []
  · subst hne
    rw [fractionText, if_pos rfl, List.nil_append, fractionPart?]
    rintro more rfl
    exact (hrest '.' rfl).2 rfl
  · have hread : leadingDigits (digits ++ rest) = (digits, rest) :=
      leadingDigits_eq_iff.2 ⟨rfl, hdigits, fun c hc => (hrest c hc).1⟩
    rw [fractionText, if_neg hne, List.cons_append, fractionPart?, hread]
    cases digits with
    | nil => exact absurd rfl hne
    | cons first digits => rfl

theorem digitsOnly?_eq_some_iff {n : ℕ} :
    digitsOnly? text = some n ↔
      text ≠ [] ∧ (∀ c ∈ text, c.isDigit = true) ∧ ofDigits text = n := by
  rw [digitsOnly?, Option.ite_none_right_eq_some, Option.some_inj, List.all_eq_true, and_assoc]

/-- An exponent is written with or without a sign, which is no digit. -/
theorem signedDigits?_eq_some_iff {e : ℤ} :
    signedDigits? text = some e ↔
      ∃ (sign : Option Char) (digits : List Char),
        (sign = none ∨ sign = some '+' ∨ sign = some '-') ∧ digits ≠ [] ∧
          (∀ c ∈ digits, c.isDigit = true) ∧ sign.toList ++ digits = text ∧
            (if sign = some '-' then -(ofDigits digits : ℤ) else ofDigits digits) = e := by
  constructor
  · intro h
    unfold signedDigits? at h
    split at h
    · next digits =>
      obtain ⟨n, hn, rfl⟩ := Option.map_eq_some_iff.1 h
      obtain ⟨m, hm, hpure⟩ := Option.bind_eq_some_iff.1 hn
      obtain rfl : (m : ℤ) = n := Option.some_inj.1 hpure
      obtain ⟨hne, hdigits, rfl⟩ := digitsOnly?_eq_some_iff.1 hm
      exact ⟨some '-', digits, by simp, hne, hdigits, rfl, by simp⟩
    · next digits =>
      obtain ⟨n, hn, rfl⟩ := Option.map_eq_some_iff.1 h
      obtain ⟨hne, hdigits, rfl⟩ := digitsOnly?_eq_some_iff.1 hn
      exact ⟨some '+', digits, by simp, hne, hdigits, rfl, by simp⟩
    · obtain ⟨n, hn, rfl⟩ := Option.map_eq_some_iff.1 h
      obtain ⟨hne, hdigits, rfl⟩ := digitsOnly?_eq_some_iff.1 hn
      exact ⟨none, text, by simp, hne, hdigits, rfl, by simp⟩
  · rintro ⟨sign, digits, hsign, hne, hdigits, rfl, rfl⟩
    have hread : digitsOnly? digits = some (ofDigits digits) :=
      digitsOnly?_eq_some_iff.2 ⟨hne, hdigits, rfl⟩
    rcases hsign with rfl | rfl | rfl
    · have hfirst : ∀ c more, c.isDigit = false → digits ≠ c :: more := by
        rintro c more hc rfl
        rw [hdigits c List.mem_cons_self] at hc
        cases hc
      rw [Option.toList_none, List.nil_append, signedDigits?, hread]
      · rfl
      · exact fun more => hfirst '-' more (by decide)
      · exact fun more => hfirst '+' more (by decide)
    · simp [signedDigits?, hread]
    · simp [signedDigits?, hread]

/-- The rest of a literal is an exponent, or there is none. -/
theorem exponentPart?_eq_some_iff {e : ℤ} :
    exponentPart? text = some e ↔
      ∃ exponent : Option WrittenExponent,
        exponent.elim [] WrittenExponent.toList = text ∧
          exponent.elim 0 WrittenExponent.value = e := by
  constructor
  · intro h
    cases text with
    | nil =>
      obtain rfl : 0 = e := by simpa [exponentPart?] using h
      exact ⟨none, rfl, rfl⟩
    | cons mark rest =>
      rw [exponentPart?, Option.ite_none_right_eq_some, signedDigits?_eq_some_iff] at h
      obtain ⟨hmark, sign, digits, hsign, hne, hdigits, rfl, rfl⟩ := h
      exact ⟨some ⟨mark, sign, digits, hmark, hsign, hne, hdigits⟩, rfl, rfl⟩
  · rintro ⟨exponent, rfl, rfl⟩
    cases exponent with
    | none => rfl
    | some exponent =>
      rw [Option.elim_some, Option.elim_some, WrittenExponent.toList, exponentPart?,
        if_pos exponent.mark_eq, signedDigits?_eq_some_iff]
      exact ⟨exponent.sign, exponent.digits, exponent.sign_eq, exponent.digits_ne_nil,
        exponent.isDigit, rfl, rfl⟩

/-! ## Reading a literal -/

/-- Behind the digits of a literal stands a point, the mark of an exponent, or nothing. -/
theorem head?_exponent (exponent : Option WrittenExponent) :
    ∀ c ∈ (exponent.elim [] WrittenExponent.toList).head?, c.isDigit = false ∧ c ≠ '.' := by
  cases exponent with
  | none => simp
  | some exponent =>
    intro c hc
    obtain rfl : exponent.mark = c := by simpa [WrittenExponent.toList] using hc
    rcases exponent.mark_eq with hmark | hmark <;> rw [hmark] <;> decide

theorem head?_fractionText_append (fraction : List Char) (exponent : Option WrittenExponent) :
    ∀ c ∈ (fractionText fraction ++ exponent.elim [] WrittenExponent.toList).head?,
      c.isDigit = false := by
  intro c hc
  by_cases hne : fraction = []
  · rw [fractionText, if_pos hne] at hc
    exact (head?_exponent exponent c hc).1
  · rw [fractionText, if_neg hne] at hc
    obtain rfl : '.' = c := by simpa using hc
    decide

theorem ofUnsigned?_eq_some_iff {negative : Bool} :
    ofUnsigned? negative text = some d ↔
      ∃ literal : Literal, literal.negative = negative ∧ literal.unsigned = text ∧
        literal.number = d := by
  have hparts : ofUnsigned? negative text = some d ↔
      ∃ whole rest, wholePart? text = some (whole, rest) ∧
        ∃ fraction rest', fractionPart? rest = some (fraction, rest') ∧
          ∃ e, exponentPart? rest' = some e ∧
            (⟨negative, ofDigits (whole ++ fraction), e - fraction.length⟩ : Decimal) = d := by
    simp [ofUnsigned?, Option.bind_eq_some_iff]
  rw [hparts]
  constructor
  · rintro ⟨whole, rest, hwhole, fraction, rest', hfraction, e, hexponent, rfl⟩
    obtain ⟨hisWhole, rfl, -⟩ := wholePart?_eq_some_iff.1 hwhole
    obtain ⟨rfl, hdigits⟩ := fractionPart?_spec hfraction
    obtain ⟨exponent, rfl, rfl⟩ := exponentPart?_eq_some_iff.1 hexponent
    exact ⟨⟨negative, whole, fraction, exponent, hisWhole, hdigits⟩, rfl, rfl, rfl⟩
  · rintro ⟨literal, rfl, rfl, rfl⟩
    exact ⟨literal.whole, _, wholePart?_eq_some_iff.2 ⟨literal.isWhole, rfl,
        head?_fractionText_append literal.fraction literal.exponent⟩,
      literal.fraction, _, fractionPart?_fractionText_append literal.isDigit
        (head?_exponent literal.exponent),
      literal.power, exponentPart?_eq_some_iff.2 ⟨literal.exponent, rfl, rfl⟩, rfl⟩

/-- A literal without its sign does not start with one. -/
theorem Literal.unsigned_ne_minus_cons (literal : Literal) (text : List Char) :
    literal.unsigned ≠ '-' :: text := by
  obtain ⟨first, more, hwhole⟩ := List.exists_cons_of_ne_nil literal.isWhole.ne_nil
  have hfirst : first.isDigit = true :=
    literal.isWhole.isDigit first (hwhole ▸ List.mem_cons_self)
  rw [unsigned, hwhole, List.cons_append]
  intro heq
  rw [(List.cons.inj heq).1] at hfirst
  cases hfirst

/-- **The texts that are read as numbers are those of the literals**, and the number is the one that
the literal writes. -/
theorem ofText?_eq_some_iff :
    ofText? text = some d ↔ ∃ literal : Literal, literal.toList = text ∧ literal.number = d := by
  constructor
  · intro h
    unfold ofText? at h
    split at h
    · obtain ⟨literal, hnegative, rfl, rfl⟩ := ofUnsigned?_eq_some_iff.1 h
      exact ⟨literal, by simp [Literal.toList, hnegative], rfl⟩
    · obtain ⟨literal, hnegative, rfl, rfl⟩ := ofUnsigned?_eq_some_iff.1 h
      exact ⟨literal, by simp [Literal.toList, hnegative], rfl⟩
  · rintro ⟨literal, rfl, rfl⟩
    have hread : ofUnsigned? literal.negative literal.unsigned = some literal.number :=
      ofUnsigned?_eq_some_iff.2 ⟨literal, rfl, rfl, rfl⟩
    cases hnegative : literal.negative with
    | true =>
      rw [hnegative] at hread
      simpa [Literal.toList, hnegative, ofText?] using hread
    | false =>
      rw [hnegative] at hread
      rw [Literal.toList, hnegative, if_neg Bool.false_ne_true, ofText?, hread]
      exact literal.unsigned_ne_minus_cons

example : ofText? "-12.50e+3".toList = some ⟨true, 1250, 1⟩ ∧ ofText? "007".toList = none ∧
    ofText? "5.".toList = none := by
  decide +kernel

/-! ## Values -/

theorem ofDigits_append (digits more : List Char) :
    ofDigits (digits ++ more) = 10 ^ more.length * ofDigits digits + ofDigits more := by
  rw [ofDigits, Nat.ofDigitChars_append, Nat.ofDigitChars_eq_ofDigitChars_zero]
  rfl

/-- The number that is read has the value of the literal. -/
theorem Literal.toRat_number (literal : Literal) : literal.number.toRat = literal.value := by
  have hten : (10 : ℚ) ≠ 0 := by norm_num
  rw [toRat, value, number, ofDigits_append, zpow_sub₀ hten, zpow_natCast]
  push_cast
  field_simp

theorem Literal.hasDigits_number {p : ℕ} {literal : Literal} :
    literal.number.HasDigits p ↔ literal.HasDigits p := by
  rw [Decimal.HasDigits, literal.toRat_number, Literal.HasDigits]

theorem toRat_eq_zero_iff : d.toRat = 0 ↔ d.coefficient = 0 := by
  rw [← abs_eq_zero, abs_toRat, mul_eq_zero, Nat.cast_eq_zero,
    or_iff_left (zpow_ne_zero _ (by norm_num))]

theorem pow_pred_digitCount_le {n : ℕ} (hn : n ≠ 0) : 10 ^ (digitCount n - 1) ≤ n := by
  by_contra hlt
  rcases Nat.eq_zero_or_pos (digitCount n - 1) with hzero | hpos
  · rw [hzero, pow_zero] at hlt
    omega
  · have hle := (digitCount_le_iff hpos).2 (not_le.1 hlt)
    omega

theorem cast_pow_mul_zpow (k : ℕ) (e : ℤ) : ((10 ^ k : ℕ) : ℚ) * 10 ^ e = 10 ^ (k + e) := by
  rw [Nat.cast_pow, Nat.cast_ofNat, zpow_add₀ (by norm_num), zpow_natCast]

theorem zpow_adjustedExponent_le (hne : d.toRat ≠ 0) :
    (10 : ℚ) ^ d.adjustedExponent ≤ |d.toRat| := by
  have hcount := digitCount_pos d.coefficient
  have hexponent : d.adjustedExponent = (digitCount d.coefficient - 1 : ℕ) + d.exponent := by
    unfold adjustedExponent
    omega
  have hle := pow_pred_digitCount_le (mt toRat_eq_zero_iff.2 hne)
  rw [hexponent, ← cast_pow_mul_zpow, abs_toRat]
  gcongr

theorem lt_zpow_adjustedExponent_add_one (d : Decimal) :
    |d.toRat| < 10 ^ (d.adjustedExponent + 1) := by
  have hexponent : d.adjustedExponent + 1 = (digitCount d.coefficient : ℤ) + d.exponent := by
    unfold adjustedExponent
    omega
  have hlt : d.coefficient < 10 ^ digitCount d.coefficient := lt_pow_digitCount d.coefficient
  rw [hexponent, ← cast_pow_mul_zpow, abs_toRat]
  gcongr

/-- The digits of a value that is not zero start at the greatest power of ten below it. -/
theorem adjustedExponent_eq_log (hne : d.toRat ≠ 0) :
    d.adjustedExponent = Int.log 10 |d.toRat| :=
  eq_log_of_zpow_le (by decide) (by exact_mod_cast zpow_adjustedExponent_le hne)
    (by exact_mod_cast lt_zpow_adjustedExponent_add_one d)

/-- The first digit of the number that is read stands where that of the value does. -/
theorem Literal.adjustedExponent_number (literal : Literal) :
    literal.number.adjustedExponent = literal.adjustedExponent := by
  rw [Literal.adjustedExponent, ← literal.toRat_number]
  split
  · next hzero =>
    have hcount : digitCount 0 = 1 := by decide
    rw [Decimal.adjustedExponent, toRat_eq_zero_iff.1 hzero, hcount, Nat.cast_one,
      add_sub_cancel_right]
    rfl
  · next hne => exact adjustedExponent_eq_log hne

theorem ofDigits_lt (hdigits : ∀ c ∈ digits, c.isDigit = true) :
    ofDigits digits < 10 ^ digits.length := by
  induction digits with
  | nil => decide
  | cons first digits ih =>
    obtain ⟨hfirst, hmore⟩ := List.forall_mem_cons.1 hdigits
    have hdigit : ofDigits [first] ≤ 9 := by
      have hnine : first.toNat ≤ '9'.toNat := by
        rw [Char.isDigit, Bool.and_eq_true] at hfirst
        exact UInt32.le_iff_toNat_le.1 (of_decide_eq_true hfirst.2)
      rw [ofDigits, Nat.ofDigitChars_cons, Nat.ofDigitChars_nil, Nat.mul_zero, Nat.zero_add]
      exact Nat.sub_le_sub_right hnine _
    have hrest := ih hmore
    calc ofDigits (first :: digits)
        = 10 ^ digits.length * ofDigits [first] + ofDigits digits := ofDigits_append [first] digits
      _ < 10 ^ digits.length * 9 + 10 ^ digits.length :=
          Nat.add_lt_add_of_le_of_lt (Nat.mul_le_mul_left _ hdigit) hrest
      _ = 10 ^ (first :: digits).length := by rw [List.length_cons, pow_succ]; omega

/-- No more digits are read than the literal has characters. -/
theorem Literal.digitCount_number_le (literal : Literal) :
    digitCount literal.number.coefficient ≤ literal.toList.length := by
  have hdigits : ∀ c ∈ literal.whole ++ literal.fraction, c.isDigit = true :=
    List.forall_mem_append.2 ⟨literal.isWhole.isDigit, literal.isDigit⟩
  have hpos : 0 < (literal.whole ++ literal.fraction).length := by
    rw [List.length_append]
    exact Nat.add_pos_left (List.length_pos_iff.2 literal.isWhole.ne_nil) _
  have hfraction : literal.fraction.length ≤ (fractionText literal.fraction).length := by
    unfold fractionText
    split <;> simp_all
  have hsign : literal.unsigned.length ≤ literal.toList.length := by
    unfold Literal.toList
    split <;> simp
  have hlength : (literal.whole ++ literal.fraction).length ≤ literal.toList.length := by
    refine le_trans ?_ hsign
    rw [Literal.unsigned, List.length_append, List.length_append, List.length_append]
    omega
  exact ((digitCount_le_iff hpos).2 (ofDigits_lt hdigits)).trans hlength

/-- The last digit of the number that is read stands no further behind the first one than the
literal is long. -/
theorem Literal.adjustedExponent_lt (literal : Literal) :
    literal.adjustedExponent < literal.number.exponent + literal.toList.length := by
  have hcount := literal.digitCount_number_le
  rw [← literal.adjustedExponent_number, Decimal.adjustedExponent]
  omega

/-! ## Integers -/

/-- The digits of a natural number do not start with a superfluous zero: without it they would be
digits of a smaller number. -/
theorem isWhole_toDigits (n : ℕ) : IsWhole (Nat.toDigits 10 n) := by
  have hdigits : ∀ c ∈ Nat.toDigits 10 n, c.isDigit = true :=
    fun _ => Nat.isDigit_of_mem_toDigits (by decide) (by decide)
  refine isWhole_iff.2 ⟨Nat.toDigits_ne_nil, fun second more hzero => ?_, hdigits⟩
  rw [hzero] at hdigits
  have hvalue : n = ofDigits (second :: more) :=
    calc n = ofDigits (Nat.toDigits 10 n) := Nat.ofDigitChars_ten_toDigits.symm
      _ = ofDigits (second :: more) := by rw [hzero]; rfl
  have hlt : n < 10 ^ (second :: more).length :=
    hvalue ▸ ofDigits_lt (List.forall_mem_cons.1 hdigits).2
  have hcount := (digitCount_le_iff (Nat.succ_pos _)).2 hlt
  rw [digitCount, hzero] at hcount
  exact absurd hcount (Nat.not_succ_le_self _)

/-- An integer as it is written: without a fraction and without an exponent. -/
def Literal.ofInt (n : ℤ) : Literal where
  negative := decide (n < 0)
  whole := Nat.toDigits 10 n.natAbs
  fraction := []
  exponent := none
  isWhole := isWhole_toDigits n.natAbs
  isDigit := by simp

/-- The text of an integer. -/
theorem Literal.toList_ofInt (n : ℤ) : (ofInt n).toList = (toString n).toList := by
  have hunsigned : (ofInt n).unsigned = Nat.toDigits 10 n.natAbs := by
    simp [unsigned, ofInt, fractionText]
  rw [toList, hunsigned, Int.toString_eq_repr, Int.repr_eq_if]
  cases n with
  | ofNat k => simp [ofInt]
  | negSucc k => simp [ofInt]

theorem Literal.number_ofInt (n : ℤ) : (ofInt n).number = ⟨decide (n < 0), n.natAbs, 0⟩ := by
  have hwhole : ofDigits (Nat.toDigits 10 n.natAbs) = n.natAbs := Nat.ofDigitChars_ten_toDigits
  simp [number, ofInt, power, hwhole]

/-- The value of an integer. -/
theorem Literal.value_ofInt (n : ℤ) : (ofInt n).value = n := by
  have hmagnitude : (ofInt n).value = (if n < 0 then -1 else 1) * (n.natAbs : ℚ) := by
    rw [← toRat_number, number_ofInt, toRat, zpow_zero, mul_one]
    simp
  rw [hmagnitude, Nat.cast_natAbs]
  split
  · next hneg => simp [abs_of_neg hneg]
  · next hpos => simp [abs_of_nonneg (not_lt.1 hpos)]

theorem Literal.adjustedExponent_ofInt (n : ℤ) :
    (ofInt n).adjustedExponent = digitCount n.natAbs - 1 := by
  rw [← adjustedExponent_number, number_ofInt, Decimal.adjustedExponent, zero_add]

theorem Literal.adjustedExponent_ofInt_nonneg (n : ℤ) : 0 ≤ (ofInt n).adjustedExponent := by
  have hpos := digitCount_pos n.natAbs
  rw [adjustedExponent_ofInt]
  omega

/-- An integer of at most `k` digits starts before the `k`-th power of ten. -/
theorem Literal.adjustedExponent_ofInt_lt_iff {n : ℤ} {k : ℕ} (hk : 0 < k) :
    (ofInt n).adjustedExponent < k ↔ n.natAbs < 10 ^ k := by
  have hcount : digitCount n.natAbs ≤ k ↔ n.natAbs < 10 ^ k := digitCount_le_iff hk
  rw [adjustedExponent_ofInt, ← hcount]
  omega

/-- An integer is written with its digits and perhaps a sign. -/
theorem Literal.length_ofInt_le (n : ℤ) :
    ((ofInt n).toList.length : ℤ) ≤ (ofInt n).adjustedExponent + 2 := by
  have hunsigned : (ofInt n).unsigned.length = digitCount n.natAbs := by
    simp [unsigned, ofInt, fractionText, digitCount]
  have hsign : (ofInt n).toList.length ≤ (ofInt n).unsigned.length + 1 := by
    unfold toList
    split
    · exact Nat.le_refl _
    · exact Nat.le_succ _
  rw [adjustedExponent_ofInt]
  omega

end RequestPlan.Decimal
