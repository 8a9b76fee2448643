import Mathlib.Algebra.Group.Nat.Defs
import RecordService.Json.Number

namespace RecordService

namespace Binary64

variable {n d k m : Nat}

theorem roundHalfEven_le (n d : Nat) : roundHalfEven n d ≤ n / d + 1 := by
  simp only [roundHalfEven]
  split
  · omega
  · split
    · omega
    · split <;> omega

/-- The position nearest to a ratio, when the ratio has at most `k + 53` bits before the point. -/
theorem nearest_le (h : n * one / d < 2 ^ (k + 53)) : nearest n d ≤ (k + 2) * binade := by
  have hbinade : binade = 2 ^ 52 := rfl
  let q := n * one / d
  let e := q.log2 - 52
  have he : e ≤ k := by
    by_cases hq : q = 0
    · simp [e, hq]
    · have hlog := (Nat.log2_lt hq).mpr h
      omega
  have hround : roundHalfEven (n * one) (d * 2 ^ e) ≤ 2 * binade := by
    have hlog : 2 ^ (q.log2 + 1) ≤ 2 ^ (e + 53) := Nat.pow_le_pow_right (by omega) (by omega)
    have hq : q < 2 ^ e * 2 ^ 53 := by
      rw [← Nat.pow_add]
      exact Nat.lt_of_lt_of_le Nat.lt_log2_self hlog
    -- Of the bits of the quotient all but 53 are dropped.
    have hdiv : n * one / (d * 2 ^ e) < 2 ^ 53 := by
      rw [← Nat.div_div_eq_div_mul]
      exact Nat.div_lt_of_lt_mul hq
    have hle := roundHalfEven_le (n * one) (d * 2 ^ e)
    omega
  calc nearest n d = e * binade + roundHalfEven (n * one) (d * 2 ^ e) := rfl
    _ ≤ k * binade + 2 * binade := Nat.add_le_add (Nat.mul_le_mul_right _ he) hround
    _ = (k + 2) * binade := (Nat.add_mul k 2 binade).symm

theorem units_lt (h : m ≤ (k + 2) * binade) : units m < 2 ^ (k + 54) := by
  have hbinade : binade = 2 ^ 52 := rfl
  have hmod := Nat.mod_lt m (show 0 < binade by omega)
  unfold units
  split
  · have hpow : 2 ^ 52 ≤ 2 ^ (k + 54) := Nat.pow_le_pow_right (by omega) (by omega)
    omega
  · have hdiv : m / binade ≤ k + 2 := Nat.div_le_of_le_mul (by rwa [Nat.mul_comm])
    have hpow : 2 ^ (m / binade - 1) ≤ 2 ^ (k + 1) := Nat.pow_le_pow_right (by omega) (by omega)
    have hlt : binade + m % binade < 2 ^ 53 := by omega
    calc (binade + m % binade) * 2 ^ (m / binade - 1)
        ≤ (binade + m % binade) * 2 ^ (k + 1) := Nat.mul_le_mul_left _ hpow
      _ < 2 ^ 53 * 2 ^ (k + 1) := Nat.mul_lt_mul_of_pos_right hlt (Nat.two_pow_pos _)
      _ = 2 ^ (k + 54) := by rw [← Nat.pow_add, Nat.add_comm 53]

/-- A position below this many binades is that of a finite number. -/
theorem lt_limit (hk : k ≤ 2000) (h : m ≤ (k + 2) * binade) : m < limit := by
  have hmul := Nat.mul_le_mul_right binade (show k + 2 ≤ 2002 by omega)
  have hbinade : binade = 4503599627370496 := rfl
  unfold limit
  omega

theorem ofMagnitude?_eq (h : m < limit) (negative : Bool) :
    ofMagnitude? negative m = some ⟨negative, m, h⟩ := dif_pos h

/-- The unit is kept from being worked out: it is a power of two, and which one matters little. -/
theorem exists_one_eq : ∃ p, p = 1074 ∧ one = 2 ^ p := by
  unfold one
  generalize 1074 = p
  exact ⟨p, rfl, rfl⟩

/-- An integer of some hundred bits is rounded to a finite number, of one bit more at most. -/
theorem exists_ofInt? {n : Int} (hk : k ≤ 900) (h : n.natAbs < 2 ^ k) :
    ∃ x : Binary64, ofInt? n = some x ∧ x.signedUnits.natAbs < 2 ^ (k + 1075) := by
  obtain ⟨p, hp, hone⟩ := exists_one_eq
  have hratio : n.natAbs * one / 1 < 2 ^ (k + 1021 + 53) := by
    have hexponent : k + 1021 + 53 = k + p := by omega
    rw [Nat.div_one, hone, hexponent, Nat.pow_add]
    exact Nat.mul_lt_mul_of_pos_right h (Nat.two_pow_pos p)
  have hnearest := nearest_le hratio
  have hunits := units_lt hnearest
  refine ⟨_, ofMagnitude?_eq (lt_limit (by omega) hnearest) _, ?_⟩
  simp only [signedUnits]
  split
  · rwa [Int.natAbs_neg, Int.natAbs_natCast]
  · rwa [Int.natAbs_natCast]

theorem exists_add? {x y : Binary64} (hk : k ≤ 2000) (hx : x.signedUnits.natAbs < 2 ^ k)
    (hy : y.signedUnits.natAbs < 2 ^ k) : ∃ z, x.add? y = some z := by
  obtain ⟨p, -, hone⟩ := exists_one_eq
  have hsum : (x.signedUnits + y.signedUnits).natAbs < 2 ^ (k + 53) := by
    have hle := Int.natAbs_add_le x.signedUnits y.signedUnits
    have hdouble : 2 ^ (k + 1) = 2 ^ k * 2 := Nat.pow_succ 2 k
    have hpow : 2 ^ (k + 1) ≤ 2 ^ (k + 53) := Nat.pow_le_pow_right (by omega) (by omega)
    omega
  have hratio : (x.signedUnits + y.signedUnits).natAbs * one / one < 2 ^ (k + 53) := by
    rwa [Nat.mul_div_cancel _ (hone ▸ Nat.two_pow_pos p)]
  exact ⟨_, ofMagnitude?_eq (lt_limit hk (nearest_le hratio)) _⟩

end Binary64

end RecordService
