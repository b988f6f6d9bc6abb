/-!
# Rounding to nearest

A quotient of natural numbers rounded to the nearest natural number, a half going to the even
neighbour.

* `roundQuotient`: the rounded quotient;
* `roundQuotient_mul`: an exact quotient is kept;
* `roundQuotient_congr`: equal quotients are rounded alike;
* `roundQuotient_eq_div_or`: the result is one of the two neighbours;
* `two_mul_roundQuotient_mul_le`, `two_mul_le_roundQuotient_mul`, `roundQuotient_mod_two`: it lies
  within half a unit, and is even if it lies that far away.
-/

namespace RequestPlan

/-- The natural number nearest to `num / den`; of two equally near, the even one. -/
def roundQuotient (num den : Nat) : Nat :=
  let floor := num / den
  let rest := num % den
  if 2 * rest < den then floor
  else if den < 2 * rest then floor + 1
  else if floor % 2 = 0 then floor
  else floor + 1

theorem roundQuotient_mul {den : Nat} (h : 0 < den) (n : Nat) :
    roundQuotient (n * den) den = n := by
  simp [roundQuotient, Nat.mul_div_cancel _ h, h]

/-- The rounded quotient is one of the two neighbours, on the side of the rest. -/
theorem roundQuotient_eq_div_or (num den : Nat) :
    (roundQuotient num den = num / den ∧ 2 * (num % den) ≤ den ∧
      (2 * (num % den) = den → num / den % 2 = 0)) ∨
    (roundQuotient num den = num / den + 1 ∧ den ≤ 2 * (num % den) ∧
      (2 * (num % den) = den → num / den % 2 = 1)) := by
  simp only [roundQuotient]
  split
  · exact .inl ⟨rfl, by omega, by omega⟩
  · split
    · exact .inr ⟨rfl, by omega, by omega⟩
    · split
      · exact .inl ⟨rfl, by omega, by omega⟩
      · exact .inr ⟨rfl, by omega, by omega⟩

/-- The rounded quotient lies within half a unit of the quotient. -/
theorem two_mul_roundQuotient_mul_le {num den : Nat} :
    2 * (roundQuotient num den * den) ≤ 2 * num + den := by
  have h := Nat.div_add_mod' num den
  rcases roundQuotient_eq_div_or num den with ⟨hround, hrest, -⟩ | ⟨hround, hrest, -⟩
  · rw [hround]
    omega
  · rw [hround, Nat.add_one_mul (num / den)]
    omega

theorem two_mul_le_roundQuotient_mul {num den : Nat} (hden : 0 < den) :
    2 * num ≤ 2 * (roundQuotient num den * den) + den := by
  have h := Nat.div_add_mod' num den
  have hlt := Nat.mod_lt num hden
  rcases roundQuotient_eq_div_or num den with ⟨hround, hrest, -⟩ | ⟨hround, hrest, -⟩
  · rw [hround]
    omega
  · rw [hround, Nat.add_one_mul (num / den)]
    omega

/-- Half a unit away from the quotient is only an even number. -/
theorem roundQuotient_mod_two {num den : Nat} (hden : 0 < den)
    (h : 2 * num = 2 * (roundQuotient num den * den) + den ∨
      2 * (roundQuotient num den * den) = 2 * num + den) : roundQuotient num den % 2 = 0 := by
  have hdiv := Nat.div_add_mod' num den
  have hlt := Nat.mod_lt num hden
  rcases roundQuotient_eq_div_or num den with ⟨hround, hrest, heven⟩ | ⟨hround, hrest, hodd⟩
  · rw [hround] at h ⊢
    exact heven (by omega)
  · rw [hround, Nat.add_one_mul (num / den)] at h
    have hfloor : num / den % 2 = 1 := hodd (by omega)
    omega

example : roundQuotient 5 2 = 2 ∧ roundQuotient 7 2 = 4 := by decide

/-- Rounding does not pass a natural number that the quotient does not pass. -/
theorem roundQuotient_le {num den n : Nat} (hden : 0 < den) (h : num ≤ n * den) :
    roundQuotient num den ≤ n := by
  have hhalf : 2 * (roundQuotient num den * den) ≤ 2 * num + den := two_mul_roundQuotient_mul_le
  have htwice : 2 * roundQuotient num den ≤ 2 * n + 1 := by
    refine Nat.le_of_mul_le_mul_right ?_ hden
    rw [Nat.add_mul, Nat.mul_assoc, Nat.mul_assoc]
    omega
  omega

theorem le_roundQuotient {num den n : Nat} (hden : 0 < den) (h : n * den ≤ num) :
    n ≤ roundQuotient num den := by
  have hfloor : n ≤ num / den := (Nat.le_div_iff_mul_le hden).2 h
  rcases roundQuotient_eq_div_or num den with ⟨hround, -⟩ | ⟨hround, -⟩ <;> omega

theorem roundQuotient_mul_mul {k : Nat} (hk : 0 < k) (num den : Nat) :
    roundQuotient (num * k) (den * k) = roundQuotient num den := by
  have hlt (m n : Nat) : m * k < n * k ↔ m < n := Nat.mul_lt_mul_right hk
  simp only [roundQuotient, Nat.mul_div_mul_right _ _ hk, Nat.mul_mod_mul_right, ← Nat.mul_assoc,
    hlt]

/-- The rounded quotient depends on the quotient only. -/
theorem roundQuotient_congr {num den num' den' : Nat} (hden : 0 < den) (hden' : 0 < den')
    (h : num * den' = num' * den) : roundQuotient num den = roundQuotient num' den' :=
  calc roundQuotient num den
      = roundQuotient (num * den') (den * den') := (roundQuotient_mul_mul hden' num den).symm
    _ = roundQuotient (num' * den) (den' * den) := by rw [h, Nat.mul_comm den]
    _ = roundQuotient num' den' := roundQuotient_mul_mul hden num' den'

end RequestPlan
