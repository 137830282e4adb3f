import Mathlib.Tactic.Linarith
import Mathlib.Tactic.Ring
import Sigil.Decimal.Binary64

/-!
# Decimals that have a magnitude

Rounding is off by an eighth at most (`units_of_ofUnits`), and a quotient well below the largest
magnitude has one (`isSome_ofUnits`). So every decimal below ten to the 308 has a magnitude, however
it is scaled (`isSome_ofDecimal`).
-/

namespace Sigil.Decimal.Magnitude

theorem pow2_pos (k : Nat) : 0 < pow2 k := Nat.pow_pos (by decide)

theorem pow10_pos (k : Nat) : 0 < pow10 k := Nat.pow_pos (by decide)

theorem pow10_le {j k : Nat} (h : j ≤ k) : pow10 j ≤ pow10 k :=
  Nat.pow_le_pow_right (by decide) h

/-! ## One rounding -/

theorem roundHalfEven_cases (num den : Nat) :
    roundHalfEven num den = num / den ∨ roundHalfEven num den = num / den + 1 := by
  unfold roundHalfEven
  simp only
  split
  · exact .inl rfl
  · split
    · exact .inr rfl
    · split
      · exact .inl rfl
      · exact .inr rfl

/-- The exponent that `ofUnits` gives a quotient. -/
def exponentOf (q : Nat) : Nat := q.log2 + 1 - precision

theorem pow2_exponentOf_le (q : Nat) : 8 * pow2 (exponentOf q) ≤ q + 8 := by
  unfold exponentOf precision pow2
  by_cases hq : q.log2 + 1 ≤ 53
  · rw [Nat.sub_eq_zero_of_le hq]
    simp
  · have hne : q ≠ 0 := by
      rintro rfl
      simp at hq
    have hle : 2 ^ q.log2 ≤ q := Nat.log2_self_le hne
    have hpow : 2 ^ 3 * 2 ^ (q.log2 + 1 - 53) ≤ 2 ^ q.log2 := by
      rw [← Nat.pow_add]
      exact Nat.pow_le_pow_right (by decide) (by omega)
    simp only [Nat.pow_eq]
    omega

/-- A quotient rounded to a multiple of a power of two. -/
theorem roundHalfEven_bounds (num den e : Nat) :
    roundHalfEven num (den * pow2 e) * pow2 e ≤ num / den + pow2 e ∧
      num / den < roundHalfEven num (den * pow2 e) * pow2 e + pow2 e := by
  have hpos := pow2_pos e
  have hdiv : num / (den * pow2 e) = num / den / pow2 e := (Nat.div_div_eq_div_mul ..).symm
  have hsplit := Nat.div_add_mod' (num / den) (pow2 e)
  have hmod := Nat.mod_lt (num / den) hpos
  rcases roundHalfEven_cases num (den * pow2 e) with h | h
  · rw [h, hdiv]
    omega
  · rw [h, hdiv, Nat.add_mul, Nat.one_mul]
    omega

/-- The magnitude before it is checked against the largest one. -/
def rounded (num den : Nat) : Magnitude :=
  if roundHalfEven num (den * pow2 (exponentOf (num / den))) = pow2 precision then
    ⟨pow2 (precision - 1), exponentOf (num / den) + 1⟩
  else
    ⟨roundHalfEven num (den * pow2 (exponentOf (num / den))), exponentOf (num / den)⟩

theorem ofUnits_eq (num den : Nat) :
    ofUnits num den =
      if (rounded num den).e ≤ maxExp then some (rounded num den) else none := rfl

theorem units_rounded (num den : Nat) :
    (rounded num den).units =
      roundHalfEven num (den * pow2 (exponentOf (num / den))) * pow2 (exponentOf (num / den)) := by
  unfold rounded units
  split
  · rename_i h
    rw [h]
    simp only [pow2, precision, Nat.pow_eq, Nat.pow_succ]
    ring
  · rfl

/-- A rounded quotient is off by an eighth at most, or by one. -/
theorem units_of_ofUnits {num den : Nat} {x : Magnitude} (h : ofUnits num den = some x) :
    8 * x.units ≤ 9 * (num / den) + 8 ∧ 7 * (num / den) ≤ 8 * x.units := by
  rw [ofUnits_eq] at h
  split at h
  · cases h
    obtain ⟨hle, hlt⟩ := roundHalfEven_bounds num den (exponentOf (num / den))
    have hexp := pow2_exponentOf_le (num / den)
    rw [units_rounded]
    omega
  · cases h

/-- A quotient of this size or more may be beyond the largest magnitude. -/
def limit : Nat := 3 * pow2 2096

theorem exponentOf_le {q : Nat} (h : q < limit) : exponentOf q ≤ maxExp := by
  have hlog : q.log2 < 2098 := by
    by_cases hq : q = 0
    · simp [hq]
    · refine (Nat.log2_lt hq).2 (Nat.lt_trans h ?_)
      decide +kernel
  unfold exponentOf precision maxExp
  omega

theorem isSome_ofUnits {num den : Nat} (h : num / den < limit) : (ofUnits num den).isSome := by
  rw [ofUnits_eq, if_pos, Option.isSome_some]
  have hexp := exponentOf_le h
  unfold rounded
  split
  · rename_i hround
    by_contra hlarge
    have htop : exponentOf (num / den) = maxExp := by
      simp only at hlarge
      omega
    rw [htop] at hround
    have hpos := pow2_pos maxExp
    have hdiv : num / (den * pow2 maxExp) < 3 * pow2 51 := by
      rw [← Nat.div_div_eq_div_mul, Nat.div_lt_iff_lt_mul hpos]
      refine Nat.lt_of_lt_of_le h (Nat.le_of_eq ?_)
      decide +kernel
    have hsmall : 3 * pow2 51 < pow2 precision := by decide
    rcases roundHalfEven_cases num (den * pow2 maxExp) with hr | hr <;> omega
  · exact hexp

/-! ## Powers of ten -/

/-- A magnitude for a whole number, off by an eighth at most. -/
structure Near (x : Magnitude) (n : Nat) : Prop where
  upper : 8 * x.units ≤ 9 * (n * pow2 oneExp) + 8
  lower : 7 * (n * pow2 oneExp) ≤ 8 * x.units

theorem exists_nearest {n : Nat} (h : n ≤ pow10 maxPower) :
    ∃ x, nearest n 1 = some x ∧ Near x n := by
  have hlt : n * pow2 oneExp / 1 < limit := by
    rw [Nat.div_one]
    refine Nat.lt_of_le_of_lt (Nat.mul_le_mul_right _ h) ?_
    decide +kernel
  obtain ⟨x, hx⟩ := Option.isSome_iff_exists.1 (isSome_ofUnits hlt)
  obtain ⟨hupper, hlower⟩ := units_of_ofUnits hx
  rw [Nat.div_one] at hupper hlower
  exact ⟨x, hx, hupper, hlower⟩

theorem exists_tenTo {k : Nat} (h : k ≤ maxPower) : ∃ x, tenTo k = some x ∧ Near x (pow10 k) :=
  exists_nearest (pow10_le h)

theorem isSome_mul {x y : Magnitude} {m n : Nat} (hx : Near x m) (hy : Near y n)
    (hm : m ≤ pow10 maxPower) (hn : n ≤ pow10 maxPower) (h : m * n ≤ pow10 maxPower) :
    (x.mul y).isSome := by
  have hpos := pow2_pos oneExp
  refine isSome_ofUnits ((Nat.div_lt_iff_lt_mul hpos).2 ?_)
  have hprod := Nat.mul_le_mul hx.upper hy.upper
  have hsum : 72 * (m + n) * pow2 oneExp ≤ 72 * (2 * pow10 maxPower) * pow2 oneExp :=
    Nat.mul_le_mul_right _ (Nat.mul_le_mul_left _ (by omega))
  have hmul : 81 * (m * n) * (pow2 oneExp * pow2 oneExp) ≤
      81 * pow10 maxPower * (pow2 oneExp * pow2 oneExp) :=
    Nat.mul_le_mul_right _ (Nat.mul_le_mul_left _ h)
  have hlimit : 81 * pow10 maxPower * (pow2 oneExp * pow2 oneExp) +
      72 * (2 * pow10 maxPower) * pow2 oneExp + 64 < 64 * (limit * pow2 oneExp) := by
    decide +kernel
  have hexpand : (9 * (m * pow2 oneExp) + 8) * (9 * (n * pow2 oneExp) + 8) =
      81 * (m * n) * (pow2 oneExp * pow2 oneExp) + 72 * (m + n) * pow2 oneExp + 64 := by ring
  have hleft : 8 * x.units * (8 * y.units) = 64 * (x.units * y.units) := by ring
  rw [hexpand, hleft] at hprod
  omega

/-! ## Division -/

/-- The units that a number of 64 bits has at most, and some to spare. -/
def spare : Nat := pow2 1142

theorem exists_div {x y : Magnitude} {n : Nat} (hx : x.units ≤ spare) (hy : Near y n)
    (hn : 0 < n) :
    ∃ z, x.div y = some z ∧ n * (8 * z.units) ≤ 12 * x.units + 8 * n := by
  have hone := pow2_pos oneExp
  have hlower := hy.lower
  have hpos : 0 < y.units := by
    have : 0 < n * pow2 oneExp := Nat.mul_pos hn hone
    omega
  -- the quotient times the divisor, without the unit
  have hq : 7 * n * (x.units * pow2 oneExp / y.units) ≤ 8 * x.units := by
    have hdiv := Nat.div_mul_le_self (x.units * pow2 oneExp) y.units
    refine Nat.le_of_mul_le_mul_right ?_ hone
    calc 7 * n * (x.units * pow2 oneExp / y.units) * pow2 oneExp
        = x.units * pow2 oneExp / y.units * (7 * (n * pow2 oneExp)) := by ring
      _ ≤ x.units * pow2 oneExp / y.units * (8 * y.units) := Nat.mul_le_mul_left _ hlower
      _ = 8 * (x.units * pow2 oneExp / y.units * y.units) := by ring
      _ ≤ 8 * (x.units * pow2 oneExp) := Nat.mul_le_mul_left _ hdiv
      _ = 8 * x.units * pow2 oneExp := by ring
  have hle : x.units * pow2 oneExp / y.units ≤ n * (x.units * pow2 oneExp / y.units) :=
    Nat.le_mul_of_pos_left _ hn
  have hassoc : 7 * n * (x.units * pow2 oneExp / y.units) =
      7 * (n * (x.units * pow2 oneExp / y.units)) := Nat.mul_assoc ..
  have hlt : x.units * pow2 oneExp / y.units < limit := by
    have : 2 * spare < limit := by decide +kernel
    omega
  obtain ⟨z, hz⟩ := Option.isSome_iff_exists.1 (isSome_ofUnits hlt)
  refine ⟨z, hz, ?_⟩
  have hupper := Nat.mul_le_mul_left n (units_of_ofUnits hz).1
  have hexpand : n * (9 * (x.units * pow2 oneExp / y.units) + 8) =
      9 * (n * (x.units * pow2 oneExp / y.units)) + 8 * n := by ring
  omega

theorem le_of_shrinks {b n x z : Nat} (hn : 0 < n) (hx : x ≤ b) (hz : n * (8 * z) ≤ 12 * x + 8 * n)
    (hb : 12 * b + 8 * n ≤ n * (8 * b)) : z ≤ b := by
  have hmul : n * (8 * z) ≤ n * (8 * b) := by omega
  have := Nat.le_of_mul_le_mul_left hmul hn
  omega

theorem divTen_of_le {k : Nat} (h : k ≤ maxPower) (x : Magnitude) :
    x.divTen k = (tenTo k).bind x.div := by
  rw [divTen, if_neg (Nat.not_lt.2 h)]
  rfl

theorem divTen_of_lt {k : Nat} (h : maxPower < k) (x : Magnitude) :
    x.divTen k =
      if x.isZero then some x
      else (tenTo maxPower).bind fun y => (x.div y).bind (divTen · (k - maxPower)) := by
  rw [divTen, if_pos h]
  rfl

theorem isSome_divTen {x : Magnitude} (hx : x.units ≤ spare) (k : Nat) : (x.divTen k).isSome := by
  induction k using Nat.strong_induction_on generalizing x with
  | _ k ih =>
    rcases Nat.lt_or_ge maxPower k with hk | hk
    · obtain ⟨y, hy, hnear⟩ := exists_tenTo (Nat.le_refl maxPower)
      obtain ⟨z, hz, hle⟩ := exists_div hx hnear (pow10_pos maxPower)
      have hz' : z.units ≤ spare := le_of_shrinks (pow10_pos maxPower) hx hle (by decide +kernel)
      rw [divTen_of_lt hk]
      split
      · rfl
      · rw [hy, Option.bind_some, hz, Option.bind_some]
        exact ih (k - maxPower) (Nat.sub_lt_self (by decide) (Nat.le_of_lt hk)) hz'
    · obtain ⟨y, hy, hnear⟩ := exists_tenTo hk
      obtain ⟨z, hz, -⟩ := exists_div hx hnear (pow10_pos k)
      rw [divTen_of_le hk, hy, Option.bind_some, hz, Option.isSome_some]

/-- A decimal that is not above ten to the 308 has a magnitude, whatever the exponent that it is
written with. -/
theorem isSome_ofDecimal {m : Nat} {e : Int} (hm : m < bound64)
    (h : ∀ k : Nat, e = k → k ≤ maxPower ∧ m * pow10 k ≤ pow10 maxPower) :
    (ofDecimal m e).isSome := by
  have hlarge : bound64 ≤ pow10 maxPower := by decide +kernel
  have hle : m ≤ pow10 maxPower := by omega
  obtain ⟨x, hx, hnear⟩ := exists_nearest hle
  rw [ofDecimal]
  simp only [hx, Option.bind_eq_bind, Option.bind_some]
  cases e with
  | ofNat k =>
    obtain ⟨hk, hmk⟩ := h k rfl
    obtain ⟨y, hy, hten⟩ := exists_tenTo hk
    simp only [if_neg (Nat.not_lt.2 hk), hy, Option.bind_some]
    exact isSome_mul hnear hten hle (pow10_le hk) hmk
  | negSucc k =>
    refine isSome_divTen ?_ (k + 1)
    have hunits : 9 * (m * pow2 oneExp) ≤ 9 * (bound64 * pow2 oneExp) :=
      Nat.mul_le_mul_left _ (Nat.mul_le_mul_right _ (Nat.le_of_lt hm))
    have hspare : 9 * (bound64 * pow2 oneExp) + 8 ≤ 8 * spare := by decide +kernel
    have := hnear.upper
    omega

end Sigil.Decimal.Magnitude
