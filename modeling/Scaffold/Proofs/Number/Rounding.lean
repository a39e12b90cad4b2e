import Mathlib
import Scaffold.Number.Binary

/-!
# Rounding decimals to binary numbers

The exact value of a ratio `num / den` is a rational number.  With `p` for the
precision of a format, `exponentOf` finds the exponent `e` for which the ratio
lies in `[2 ^ (p - 1), 2 ^ p)` last places `2 ^ e`, or the least exponent of the
format when that is greater.

* `round?_isSome`: a ratio can be rounded if and only if it lies below
  `(2 ^ p - 1 / 2) * 2 ^ greatest`, half a last place above the greatest number
  of the format.
* `round?_canonical`: what rounding gives is in the one form that
  every number of the format has.
* `round?_exact`: a number of the format is rounded to itself.

The same three statements hold for decimals (`ofNumeral?_isSome`,
`ofNumeral?_canonical`, `exists_numeral`).
-/

namespace Scaffold

/-! ## Ratios -/

namespace Ratio

theorem scale_value (base num den : Nat) (exponent : Int) :
    ((scale base num den exponent).1 : ℚ) / (scale base num den exponent).2
      = num / den / (base : ℚ) ^ exponent := by
  rcases lt_or_ge exponent 0 with hneg | hnonneg
  · obtain ⟨n, rfl⟩ := Int.eq_negSucc_of_lt_zero hneg
    simp only [scale, Int.negSucc_lt_zero, if_true, Int.natAbs_negSucc, Nat.pow_eq]
    rw [zpow_negSucc, div_inv_eq_mul, Nat.cast_mul, Nat.cast_pow]
    exact mul_div_right_comm _ _ _
  · obtain ⟨n, rfl⟩ := Int.eq_ofNat_of_zero_le hnonneg
    simp only [scale, if_neg (Int.not_lt.2 hnonneg), Int.natAbs_natCast, Nat.pow_eq]
    rw [zpow_natCast, div_div, Nat.cast_mul, Nat.cast_pow]

theorem scale_den_pos {base den : Nat} (hbase : 0 < base) (num : Nat) (hden : 0 < den)
    (exponent : Int) : 0 < (scale base num den exponent).2 := by
  simp only [scale]
  split
  · exact hden
  · exact Nat.mul_pos hden (Nat.pow_pos hbase)

theorem floor_scale_lt (num : Nat) {den : Nat} (hden : 0 < den) (exponent : Int) (n : Nat) :
    (scale 2 num den exponent).1 / (scale 2 num den exponent).2 < n
      ↔ (num : ℚ) / den / 2 ^ exponent < n := by
  have hpos := scale_den_pos two_pos num hden exponent
  have hvalue := scale_value 2 num den exponent
  rw [Nat.cast_ofNat] at hvalue
  rw [← hvalue, div_lt_iff₀ (by exact_mod_cast hpos), Nat.div_lt_iff_lt_mul hpos]
  exact_mod_cast Iff.rfl

section RoundHalfEven
variable {num den : Nat} (hden : 0 < den)
include hden

/-- Rounding does not pass a whole number from above. -/
theorem le_roundHalfEven {n : Nat} (h : (n : ℚ) ≤ num / den) : n ≤ roundHalfEven num den := by
  have hden' : (0 : ℚ) < den := by exact_mod_cast hden
  have hn : n * den ≤ num := by
    rw [le_div_iff₀ hden'] at h
    exact_mod_cast h
  have hfloor : n ≤ num / den := (Nat.le_div_iff_mul_le hden).2 hn
  simp only [roundHalfEven]
  split_ifs <;> omega

/-- Below an even number rounding reaches it from a half away on and does not pass it. -/
theorem roundHalfEven_le {n : Nat} (heven : n % 2 = 0) (h : (num : ℚ) / den < n) :
    roundHalfEven num den ≤ n ∧
      (roundHalfEven num den = n ↔ (n : ℚ) - 1 / 2 ≤ num / den) := by
  have hden' : (0 : ℚ) < den := by exact_mod_cast hden
  have hlt : num < n * den := by
    rw [div_lt_iff₀ hden'] at h
    exact_mod_cast h
  have hhalf : ((n : ℚ) - 1 / 2 ≤ num / den) ↔ 2 * (n * den) ≤ 2 * num + den := by
    rw [le_div_iff₀ hden']
    constructor
    · intro h
      have : 2 * ((n : ℚ) * den) ≤ 2 * num + den := by linarith
      exact_mod_cast this
    · intro h
      have : 2 * ((n : ℚ) * den) ≤ 2 * num + den := by exact_mod_cast h
      linarith
  have hdiv : den * (num / den) + num % den = num := Nat.div_add_mod num den
  have hmod : num % den < den := Nat.mod_lt _ hden
  have hfloor : num / den < n := (Nat.div_lt_iff_lt_mul hden).2 hlt
  rw [hhalf]
  -- Either the floor is the number before `n`, or it is at least two below.
  rcases Nat.lt_or_ge (num / den + 1) n with hfar | hnear
  · have hmul : den * (num / den + 2) ≤ den * n := Nat.mul_le_mul_left den hfar
    rw [Nat.mul_comm n den]
    rw [Nat.mul_add] at hmul
    simp only [roundHalfEven]
    split_ifs <;> omega
  · obtain rfl : n = num / den + 1 := by omega
    have hmul : (num / den + 1) * den = den * (num / den) + den := by ring
    rw [hmul]
    simp only [roundHalfEven]
    split_ifs <;> omega

/-- Less than a half above a whole number rounding goes down to it. -/
theorem roundHalfEven_eq {n : Nat} (hle : (n : ℚ) ≤ num / den)
    (hlt : (num : ℚ) / den < n + 1 / 2) : roundHalfEven num den = n := by
  have hden' : (0 : ℚ) < den := by exact_mod_cast hden
  have hlow : n * den ≤ num := by
    rw [le_div_iff₀ hden'] at hle
    exact_mod_cast hle
  have hhigh : 2 * num < 2 * (n * den) + den := by
    rw [div_lt_iff₀ hden'] at hlt
    have : 2 * (num : ℚ) < 2 * (n * den) + den := by linarith
    exact_mod_cast this
  have hfloor : num / den = n := Nat.div_eq_of_lt_le hlow (by rw [Nat.succ_mul]; omega)
  have hdiv : den * n + num % den = num := by
    rw [← hfloor]
    exact Nat.div_add_mod num den
  rw [Nat.mul_comm] at hdiv
  simp only [roundHalfEven, hfloor]
  rw [if_pos (by omega)]

end RoundHalfEven

/-- A ratio lies within a factor of two of the ratio of the top bits. -/
theorem log2_bounds {num den : Nat} (hnum : 0 < num) (hden : 0 < den) :
    (2 : ℚ) ^ ((num.log2 : Int) - den.log2 - 1) ≤ num / den ∧
      (num : ℚ) / den < 2 ^ ((num.log2 : Int) - den.log2 + 1) := by
  have lower {n : Nat} (hn : 0 < n) : (2 : ℚ) ^ (n.log2 : Int) ≤ n := by
    rw [zpow_natCast]
    exact_mod_cast Nat.log2_self_le hn.ne'
  have upper (n : Nat) : (n : ℚ) < 2 ^ ((n.log2 : Int) + 1) := by
    exact_mod_cast Nat.lt_log2_self
  have hden' : (0 : ℚ) < den := by exact_mod_cast hden
  constructor
  · rw [le_div_iff₀ hden']
    calc (2 : ℚ) ^ ((num.log2 : Int) - den.log2 - 1) * den
        ≤ 2 ^ ((num.log2 : Int) - den.log2 - 1) * 2 ^ ((den.log2 : Int) + 1) := by
          gcongr
          exact (upper den).le
      _ = 2 ^ (num.log2 : Int) := by
          rw [← zpow_add₀ two_ne_zero]
          congr 1
          ring
      _ ≤ num := lower hnum
  · rw [div_lt_iff₀ hden']
    calc (num : ℚ) < 2 ^ ((num.log2 : Int) + 1) := upper num
      _ = 2 ^ ((num.log2 : Int) - den.log2 + 1) * 2 ^ (den.log2 : Int) := by
          rw [← zpow_add₀ two_ne_zero]
          congr 1
          ring
      _ ≤ 2 ^ ((num.log2 : Int) - den.log2 + 1) * den := by
          gcongr
          exact lower hden

end Ratio

/-! ## Rounding to a format -/

namespace Binary.Format

/-- The form of the numbers of a format: the mantissa has its top bit set unless the exponent is the
least one. -/
structure Canonical (f : Format) (mantissa : Nat) (exponent : Int) : Prop where
  mantissa_lt : mantissa < 2 ^ f.precision
  least_le : f.least ≤ exponent
  le_greatest : exponent ≤ f.greatest
  top : exponent = f.least ∨ 2 ^ (f.precision - 1) ≤ mantissa

/-- The exponent at which a ratio is rounded. -/
structure Places (f : Format) (ratio : ℚ) (exponent : Int) : Prop where
  least_le : f.least ≤ exponent
  lt : ratio / 2 ^ exponent < 2 ^ f.precision
  top : exponent = f.least ∨ 2 ^ ((f.precision : Int) - 1) ≤ ratio / 2 ^ exponent

/-- There is only one exponent at which a ratio is rounded. -/
theorem Places.unique {f : Format} {ratio : ℚ} {e e' : Int} (h : f.Places ratio e)
    (h' : f.Places ratio e') : e = e' := by
  have step {e e' : Int} (h : f.Places ratio e) (h' : f.Places ratio e') : e ≤ e' := by
    by_contra hlt
    have htop : 2 ^ ((f.precision : Int) - 1) ≤ ratio / 2 ^ e := by
      rcases h.top with rfl | htop
      · exact absurd h'.least_le hlt
      · exact htop
    have hratio : ratio < 2 ^ ((f.precision : Int) + e') := by
      have := h'.lt
      rwa [div_lt_iff₀ (by positivity), ← zpow_natCast, ← zpow_add₀ two_ne_zero] at this
    rw [le_div_iff₀ (by positivity), ← zpow_add₀ two_ne_zero] at htop
    have hpow : (2 : ℚ) ^ ((f.precision : Int) + e') ≤ 2 ^ ((f.precision : Int) - 1 + e) :=
      zpow_le_zpow_right₀ one_le_two (by omega)
    exact absurd hratio (not_lt.2 (hpow.trans htop))
  exact le_antisymm (step h h') (step h' h)

section
variable (f : Format) {num den : Nat} (hnum : 0 < num) (hden : 0 < den)
include hnum hden

theorem places_exponentOf : f.Places (num / den) (f.exponentOf num den) := by
  obtain ⟨hlower, hupper⟩ := Ratio.log2_bounds hnum hden
  generalize hguess : (num.log2 : Int) - den.log2 - f.precision = guess
  -- In last places `2 ^ guess` the ratio has `precision` or `precision + 1` bits.
  have hlow : (2 : ℚ) ^ ((f.precision : Int) - 1) ≤ num / den / 2 ^ guess := by
    rw [le_div_iff₀ (by positivity), ← zpow_add₀ two_ne_zero]
    rwa [show (f.precision : Int) - 1 + guess = num.log2 - den.log2 - 1 by omega]
  have hhigh : (num : ℚ) / den / 2 ^ (guess + 1) < 2 ^ f.precision := by
    rw [div_lt_iff₀ (by positivity), ← zpow_natCast, ← zpow_add₀ two_ne_zero]
    rwa [show (f.precision : Int) + (guess + 1) = num.log2 - den.log2 + 1 by omega]
  have hfill (e : Int) (hlt : (num : ℚ) / den / 2 ^ e < 2 ^ f.precision)
      (htop : (2 : ℚ) ^ ((f.precision : Int) - 1) ≤ num / den / 2 ^ e) :
      f.Places (num / den) (if e < f.least then f.least else e) := by
    split
    case isTrue hless =>
      refine ⟨le_rfl, lt_of_le_of_lt ?_ hlt, .inl rfl⟩
      gcongr
      exact one_le_two
    case isFalse hleast => exact ⟨not_lt.1 hleast, hlt, .inr htop⟩
  have hfloor := Ratio.floor_scale_lt num hden guess (2 ^ f.precision)
  simp only [exponentOf, hguess, Nat.pow_eq]
  split
  case isTrue hsmall => exact hfill _ (by exact_mod_cast hfloor.1 hsmall) hlow
  case isFalse hlarge =>
    have hge : (2 : ℚ) ^ f.precision ≤ num / den / 2 ^ guess :=
      not_lt.1 fun hlt => hlarge (hfloor.2 (by exact_mod_cast hlt))
    refine hfill _ hhigh ?_
    rw [zpow_sub_one₀ two_ne_zero, zpow_add_one₀ two_ne_zero, ← div_div, zpow_natCast,
      ← div_eq_mul_inv]
    gcongr

/-- What rounding a ratio at its exponent gives, before a carry. -/
structure Mantissa (f : Format) (ratio : ℚ) (exponent : Int) (mantissa : Nat) : Prop where
  places : f.Places ratio exponent
  le : mantissa ≤ 2 ^ f.precision
  carry : mantissa = 2 ^ f.precision ↔ (2 ^ f.precision - 1 / 2 : ℚ) ≤ ratio / 2 ^ exponent
  top : exponent = f.least ∨ 2 ^ (f.precision - 1) ≤ mantissa
  below : ∀ n : Nat, n ≤ ratio / 2 ^ exponent → ratio / 2 ^ exponent < n + 1 / 2 → mantissa = n

theorem exists_mantissa (hp : 0 < f.precision) :
    ∃ exponent mantissa, f.Mantissa (num / den) exponent mantissa ∧
      f.round? num den =
        if mantissa = 2 ^ f.precision then
          if f.greatest < exponent + 1 then none
          else some (2 ^ (f.precision - 1), exponent + 1)
        else if f.greatest < exponent then none
        else some (mantissa, exponent) := by
  have hplaces := f.places_exponentOf hnum hden
  generalize hexp : f.exponentOf num den = exponent at hplaces
  have hpos := Ratio.scale_den_pos two_pos num hden exponent
  have hvalue := Ratio.scale_value 2 num den exponent
  rw [Nat.cast_ofNat] at hvalue
  have heven : 2 ^ f.precision % 2 = 0 := by
    rw [← Nat.sub_add_cancel hp, pow_succ, Nat.mul_mod_left]
  have hbound := Ratio.roundHalfEven_le hpos heven
    (by rw [hvalue]; exact_mod_cast hplaces.lt)
  rw [hvalue] at hbound
  refine ⟨exponent, _, ⟨hplaces, hbound.1, by exact_mod_cast hbound.2, ?_, ?_⟩, ?_⟩
  · refine hplaces.top.imp_right fun htop => Ratio.le_roundHalfEven hpos ?_
    rw [hvalue, Nat.cast_pow, ← zpow_natCast, Nat.cast_sub hp]
    exact_mod_cast htop
  · intro n hle hlt
    rw [← hvalue] at hle hlt
    exact Ratio.roundHalfEven_eq hpos hle hlt
  · simp only [round?, hnum.ne', if_false, hexp, Nat.pow_eq]
    split <;> rfl

end

/-- The numbers from here on cannot be rounded: half a last place above the greatest number. -/
def limit (f : Format) : ℚ := (2 ^ f.precision - 1 / 2) * 2 ^ f.greatest

theorem half_le (f : Format) : (1 / 2 : ℚ) ≤ 2 ^ f.precision - 1 / 2 := by
  have hone : (1 : ℚ) ≤ 2 ^ f.precision := one_le_pow₀ one_le_two
  linarith

theorem limit_pos (f : Format) : 0 < f.limit :=
  mul_pos (lt_of_lt_of_le one_half_pos f.half_le) (by positivity)

namespace Mantissa
variable {f : Format} {ratio : ℚ} {e : Int} {m : Nat} (h : f.Mantissa ratio e m)
include h

omit h in
theorem eq_mul : ratio = ratio / 2 ^ e * 2 ^ e :=
  (div_mul_cancel₀ _ (by positivity)).symm

theorem lt_limit_of_lt (hless : e < f.greatest) : ratio < f.limit := by
  calc ratio = ratio / 2 ^ e * 2 ^ e := eq_mul
    _ < 2 ^ f.precision * 2 ^ e := by gcongr; exact h.places.lt
    _ ≤ 2 ^ f.precision * 2 ^ (f.greatest - 1) := by gcongr; exacts [one_le_two, by omega]
    _ = 2 ^ f.precision / 2 * 2 ^ f.greatest := by rw [zpow_sub_one₀ two_ne_zero]; ring
    _ ≤ f.limit := by
      rw [limit]
      gcongr
      linarith [f.half_le]

theorem limit_le_of_gt (hrange : f.least ≤ f.greatest) (hmore : f.greatest < e) :
    f.limit ≤ ratio := by
  have htop : (2 : ℚ) ^ ((f.precision : Int) - 1) ≤ ratio / 2 ^ e :=
    h.places.top.resolve_left (by omega)
  calc f.limit ≤ 2 ^ f.precision * 2 ^ f.greatest := by rw [limit]; gcongr; linarith
    _ ≤ 2 ^ f.precision * 2 ^ (e - 1) := by gcongr; exacts [one_le_two, by omega]
    _ = 2 ^ ((f.precision : Int) - 1) * 2 ^ e := by
      rw [zpow_sub_one₀ two_ne_zero, zpow_sub_one₀ two_ne_zero, zpow_natCast]
      ring
    _ ≤ ratio / 2 ^ e * 2 ^ e := by gcongr
    _ = ratio := eq_mul.symm

/-- At the greatest exponent only a carry leads out of the range. -/
theorem limit_le_iff (hgreatest : e = f.greatest) :
    f.limit ≤ ratio ↔ m = 2 ^ f.precision := by
  rw [h.carry, hgreatest, limit, le_div_iff₀ (by positivity)]

end Mantissa

section
variable {f : Format} (hp : 0 < f.precision) (hrange : f.least ≤ f.greatest)
  {num den : Nat} (hden : 0 < den)
include hp hrange hden

theorem round?_isSome : (f.round? num den).isSome ↔ (num : ℚ) / den < f.limit := by
  rcases Nat.eq_zero_or_pos num with rfl | hnum
  · simpa [round?] using f.limit_pos
  obtain ⟨e, m, hm, hround⟩ := f.exists_mantissa hnum hden hp
  rw [hround]
  rcases lt_trichotomy e f.greatest with hless | hgreatest | hmore
  · have hle : ¬ f.greatest < e + 1 := by omega
    have hle' : ¬ f.greatest < e := by omega
    rw [if_neg hle, if_neg hle', iff_true_right (hm.lt_limit_of_lt hless)]
    split <;> rfl
  · have hlt : (num : ℚ) / den < f.limit ↔ ¬ m = 2 ^ f.precision := by
      rw [← hm.limit_le_iff hgreatest, not_le]
    have hcarry : f.greatest < e + 1 := by omega
    have hkept : ¬ f.greatest < e := by omega
    rw [hlt, if_pos hcarry, if_neg hkept]
    split <;> simp [*]
  · have hcarry : f.greatest < e + 1 := by omega
    rw [if_pos hcarry, if_pos hmore, iff_false_right (hm.limit_le_of_gt hrange hmore).not_gt]
    split <;> simp

omit hp hden in
theorem canonical_zero : f.Canonical 0 f.least :=
  ⟨by positivity, le_rfl, hrange, .inl rfl⟩

theorem round?_canonical {mantissa : Nat} {exponent : Int}
    (h : f.round? num den = some (mantissa, exponent)) : f.Canonical mantissa exponent := by
  rcases Nat.eq_zero_or_pos num with rfl | hnum
  · obtain ⟨rfl, rfl⟩ : 0 = mantissa ∧ f.least = exponent := by simpa [round?] using h
    exact canonical_zero hrange
  obtain ⟨e, m, hm, hround⟩ := f.exists_mantissa hnum hden hp
  have hless := hm.places.least_le
  rw [hround] at h
  split_ifs at h with hcarry hgreatest hgreatest
  · obtain ⟨rfl, rfl⟩ : 2 ^ (f.precision - 1) = mantissa ∧ e + 1 = exponent := by simpa using h
    exact ⟨Nat.pow_lt_pow_right one_lt_two (by omega), by omega, by omega, .inr le_rfl⟩
  · obtain ⟨rfl, rfl⟩ : m = mantissa ∧ e = exponent := by simpa using h
    exact ⟨lt_of_le_of_ne hm.le hcarry, hless, by omega, hm.top⟩

omit hrange in
theorem round?_exact {mantissa : Nat} {exponent : Int} (h : f.Canonical mantissa exponent)
    (hvalue : (num : ℚ) / den = mantissa * 2 ^ exponent) :
    f.round? num den = some (mantissa, exponent) := by
  have hcancel : (num : ℚ) / den / 2 ^ exponent = mantissa := by
    rw [hvalue, mul_div_cancel_right₀ _ (by positivity)]
  rcases Nat.eq_zero_or_pos num with rfl | hnum
  · obtain rfl : 0 = mantissa := by
      rw [Nat.cast_zero, zero_div, zero_div] at hcancel
      exact_mod_cast hcancel
    obtain rfl : exponent = f.least := h.top.resolve_right (by simp)
    rfl
  obtain ⟨e, m, hm, hround⟩ := f.exists_mantissa hnum hden hp
  have hplaces : f.Places (num / den) exponent := by
    refine ⟨h.least_le, ?_, ?_⟩
    · rw [hcancel]
      exact_mod_cast h.mantissa_lt
    · rw [hcancel]
      refine h.top.imp_right fun htop => ?_
      rw [show (f.precision : Int) - 1 = (f.precision - 1 : Nat) by omega, zpow_natCast]
      exact_mod_cast htop
  obtain rfl := hplaces.unique hm.places
  obtain rfl : m = mantissa := hm.below _ hcancel.ge (by rw [hcancel]; linarith)
  have hm' : m ≠ 2 ^ f.precision := h.mantissa_lt.ne
  have hgreatest : ¬ f.greatest < exponent := not_lt.2 h.le_greatest
  rw [hround, if_neg hm', if_neg hgreatest]

/-- Less than half the least positive number is rounded to zero. -/
theorem round?_tiny (htiny : (num : ℚ) / den < 2 ^ (f.least - 1)) :
    f.round? num den = some (0, f.least) := by
  rcases Nat.eq_zero_or_pos num with rfl | hnum
  · rfl
  obtain ⟨e, m, hm, hround⟩ := f.exists_mantissa hnum hden hp
  have hhalf : (num : ℚ) / den / 2 ^ f.least < 1 / 2 := by
    rw [div_lt_iff₀ (by positivity)]
    rwa [zpow_sub_one₀ two_ne_zero, mul_comm, ← one_div] at htiny
  have hplaces : f.Places (num / den) f.least :=
    ⟨le_rfl, by linarith [f.half_le], .inl rfl⟩
  obtain rfl := hplaces.unique hm.places
  obtain rfl : m = 0 := hm.below 0 (by positivity) (by simpa using hhalf)
  rw [hround, if_neg (by positivity), if_neg (not_lt.2 hrange)]

end

/-! ## Decimals -/

/-- The value of a decimal without its sign. -/
def magnitude (x : Numeral) : ℚ := x.coefficient * 10 ^ x.exponent

theorem limit_double : double.limit = (2 ^ 54 - 1) * 2 ^ 970 := by
  have hpow : (2 : ℚ) ^ (971 : Int) = 2 ^ 970 * 2 := by
    rw [show (971 : Int) = (970 : Nat) + 1 by rfl, zpow_add_one₀ two_ne_zero, zpow_natCast]
  simp only [limit, double, hpow]
  generalize (2 : ℚ) ^ 970 = power
  ring

/-- The decimal as a ratio. -/
theorem magnitude_eq (x : Numeral) :
    magnitude x = (Ratio.scale 10 x.coefficient 1 (-x.exponent)).1 /
      (Ratio.scale 10 x.coefficient 1 (-x.exponent)).2 := by
  rw [Ratio.scale_value, magnitude, zpow_neg]
  simp

/-- A power of ten above the bound is out of range. -/
theorem limit_le_magnitude {x : Numeral} (hx : 0 < x.coefficient)
    (h : (decimalLimit : Int) < x.exponent) : double.limit ≤ magnitude x := by
  have hpow : (2 : ℚ) ^ 1024 ≤ 10 ^ decimalLimit := by
    exact_mod_cast (by decide +kernel : 2 ^ 1024 ≤ 10 ^ decimalLimit)
  have hone : (1 : ℚ) ≤ x.coefficient := by exact_mod_cast hx
  calc double.limit = (2 ^ 54 - 1) * 2 ^ 970 := limit_double
    _ ≤ 2 ^ 54 * 2 ^ 970 := by gcongr; linarith
    _ = 2 ^ 1024 := by rw [← pow_add]
    _ ≤ 10 ^ decimalLimit := hpow
    _ ≤ 10 ^ x.exponent := by
      rw [← zpow_natCast]
      exact zpow_le_zpow_right₀ (by norm_num) h.le
    _ ≤ magnitude x := le_mul_of_one_le_left (by positivity) hone

/-- A power of ten below the bound is less than half the least positive number. -/
theorem magnitude_lt_least {x : Numeral}
    (h : x.exponent + x.coefficient.log2 + 1 < -(decimalLimit : Int)) :
    magnitude x < 2 ^ (double.least - 1) := by
  have hpow : (2 : ℚ) ^ 1075 ≤ 10 ^ decimalLimit := by
    exact_mod_cast (by decide +kernel : 2 ^ 1075 ≤ 10 ^ decimalLimit)
  have hcoefficient : (x.coefficient : ℚ) < 10 ^ (x.coefficient.log2 + 1) := by
    calc (x.coefficient : ℚ) < 2 ^ (x.coefficient.log2 + 1) := by exact_mod_cast Nat.lt_log2_self
      _ ≤ 10 ^ (x.coefficient.log2 + 1) := by gcongr; norm_num
  calc magnitude x < 10 ^ (x.coefficient.log2 + 1) * 10 ^ x.exponent := by
        rw [magnitude]
        gcongr
    _ = 10 ^ (x.exponent + x.coefficient.log2 + 1) := by
      rw [add_assoc, zpow_add₀ (by norm_num), mul_comm]
      exact_mod_cast rfl
    _ ≤ 10 ^ (-(decimalLimit : Int)) := zpow_le_zpow_right₀ (by norm_num) h.le
    _ = (10 ^ decimalLimit)⁻¹ := by rw [zpow_neg, zpow_natCast]
    _ ≤ (2 ^ 1075)⁻¹ := inv_anti₀ (by positivity) hpow
    _ = 2 ^ (double.least - 1) := by
      rw [show double.least - 1 = -(1075 : Nat) by rfl, zpow_neg, zpow_natCast]

/-- Deciding by the power of ten alone agrees with the rounding. -/
theorem ofNumeral?_eq (x : Numeral) : ∃ num den : Nat, 0 < den ∧ magnitude x = num / den ∧
    double.ofNumeral? x =
      (double.round? num den).map fun (mantissa, exponent) =>
        .finite x.negative mantissa exponent := by
  have hden := Ratio.scale_den_pos (show 0 < 10 by decide) x.coefficient one_pos (-x.exponent)
  refine ⟨_, _, hden, magnitude_eq x, ?_⟩
  rw [ofNumeral?]
  congr 1
  split_ifs with hzero hlarge hsmall
  · have htiny : magnitude x < 2 ^ (double.least - 1) := by
      rw [magnitude, hzero, Nat.cast_zero, zero_mul]
      positivity
    exact (round?_tiny (by decide) (by decide) hden (magnitude_eq x ▸ htiny)).symm
  · have hrefused : ¬ magnitude x < double.limit :=
      not_lt.2 (limit_le_magnitude (Nat.pos_of_ne_zero hzero) hlarge)
    rw [magnitude_eq, ← round?_isSome (by decide) (by decide) hden] at hrefused
    exact (Option.not_isSome_iff_eq_none.1 hrefused).symm
  · exact (round?_tiny (by decide) (by decide) hden
      (magnitude_eq x ▸ magnitude_lt_least hsmall)).symm
  · rfl

theorem ofNumeral?_isSome (x : Numeral) :
    (double.ofNumeral? x).isSome ↔ magnitude x < (2 ^ 54 - 1) * 2 ^ 970 := by
  obtain ⟨num, den, hden, hvalue, heq⟩ := ofNumeral?_eq x
  rw [heq, Option.isSome_map, hvalue, ← limit_double]
  exact round?_isSome (by decide) (by decide) hden

theorem ofNumeral?_canonical {x : Numeral} {b : Binary} (h : double.ofNumeral? x = some b) :
    ∃ mantissa exponent, b = .finite x.negative mantissa exponent ∧
      double.Canonical mantissa exponent := by
  obtain ⟨num, den, hden, -, heq⟩ := ofNumeral?_eq x
  rw [heq, Option.map_eq_some_iff] at h
  obtain ⟨⟨mantissa, exponent⟩, hround, rfl⟩ := h
  exact ⟨mantissa, exponent, rfl, round?_canonical (by decide) (by decide) hden hround⟩

theorem ofNumeral?_exact {x : Numeral} {mantissa : Nat} {exponent : Int}
    (h : double.Canonical mantissa exponent) (hvalue : magnitude x = mantissa * 2 ^ exponent) :
    double.ofNumeral? x = some (.finite x.negative mantissa exponent) := by
  obtain ⟨num, den, hden, hratio, heq⟩ := ofNumeral?_eq x
  rw [heq, round?_exact (by decide) hden h (hratio ▸ hvalue)]
  rfl

/-- Every number of the format is the value of a decimal, since `2 ^ -n` is `5 ^ n * 10 ^ -n`. -/
theorem exists_numeral (negative : Bool) {mantissa : Nat} {exponent : Int}
    (h : double.Canonical mantissa exponent) :
    ∃ x : Numeral, x.plain = false ∧
      double.ofNumeral? x = some (.finite negative mantissa exponent) := by
  rcases le_or_gt 0 exponent with hnonneg | hneg
  · obtain ⟨n, rfl⟩ := Int.eq_ofNat_of_zero_le hnonneg
    refine ⟨⟨negative, mantissa * 2 ^ n, 0, false⟩, rfl, ofNumeral?_exact h ?_⟩
    simp [magnitude]
  · obtain ⟨n, rfl⟩ : ∃ n : Nat, exponent = -(n : Int) := ⟨exponent.natAbs, by omega⟩
    refine ⟨⟨negative, mantissa * 5 ^ n, -n, false⟩, rfl, ofNumeral?_exact h ?_⟩
    have hten : (10 : ℚ) ^ n = 2 ^ n * 5 ^ n := by rw [← mul_pow]; norm_num
    simp only [magnitude, zpow_neg, zpow_natCast, hten]
    push_cast
    field_simp

end Binary.Format

end Scaffold
