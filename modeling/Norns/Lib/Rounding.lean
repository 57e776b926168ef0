import Mathlib.Tactic

/-! # Rounding to a number of bits

Natural numbers as floating-point numbers without a bound on the exponent: `Representable p n` says
that `n` has a significand of `p` bits, and `roundBits p` rounds to the nearest such number, a tie
to the even significand.

* `roundBits_eq_self_iff`: the rounding is exact on these numbers and on no others.
* `Representable.of_mul`: a factor of a representable number is representable.
* `two_pow_le_roundBits_iff`: which numbers are rounded up to a power of two or beyond. -/

namespace Norns.Lib

/-- The unit in the last place of `n`. -/
def ulp (p n : ℕ) : ℕ := 2 ^ (n.log2 + 1 - p)

/-- `n` rounded to `p` significant bits. -/
def roundBits (p n : ℕ) : ℕ :=
  if 2 * (n % ulp p n) < ulp p n ∨ (2 * (n % ulp p n) = ulp p n ∧ n / ulp p n % 2 = 0) then
    n / ulp p n * ulp p n
  else (n / ulp p n + 1) * ulp p n

/-- `n` has a significand of at most `p` bits. -/
def Representable (p n : ℕ) : Prop := ∃ m k, m < 2 ^ p ∧ n = m * 2 ^ k

variable {p n : ℕ}

theorem ulp_pos (p n : ℕ) : 0 < ulp p n := Nat.two_pow_pos _

/-- The significand has `p` bits. -/
theorem div_ulp_lt (p n : ℕ) : n / ulp p n < 2 ^ p := by
  rw [Nat.div_lt_iff_lt_mul (ulp_pos p n), ulp, ← Nat.pow_add]
  calc n < 2 ^ (n.log2 + 1) := Nat.lt_log2_self
    _ ≤ 2 ^ (p + (n.log2 + 1 - p)) := Nat.pow_le_pow_right Nat.two_pos (by omega)

/-- The rounded number is a multiple of the unit, the one below or the one above. -/
theorem roundBits_cases (p n : ℕ) :
    roundBits p n = n / ulp p n * ulp p n ∨ roundBits p n = (n / ulp p n + 1) * ulp p n := by
  unfold roundBits
  split_ifs
  · exact .inl rfl
  · exact .inr rfl

theorem representable_of_lt (h : n < 2 ^ p) : Representable p n := ⟨n, 0, h, by simp⟩

theorem representable_roundBits (hp : 0 < p) (n : ℕ) : Representable p (roundBits p n) := by
  have hlt := div_ulp_lt p n
  obtain hround | hround := roundBits_cases p n
  · exact ⟨_, _, hlt, hround⟩
  · obtain hlast | hlast := Nat.lt_or_eq_of_le (Nat.succ_le_of_lt hlt)
    · exact ⟨_, _, hlast, hround⟩
    · -- the significand has become a power of two
      refine ⟨1, p + (n.log2 + 1 - p), Nat.one_lt_two_pow hp.ne', ?_⟩
      rw [hround, show n / ulp p n + 1 = 2 ^ p from hlast, ulp, ← Nat.pow_add, Nat.one_mul]

/-- The unit divides what is representable. -/
theorem Representable.ulp_dvd (h : Representable p n) : ulp p n ∣ n := by
  obtain ⟨m, k, hm, hn⟩ := h
  obtain rfl | hpos := Nat.eq_zero_or_pos n
  · exact dvd_zero _
  · have hlt : n < 2 ^ (p + k) := by
      rw [hn, Nat.pow_add]
      exact Nat.mul_lt_mul_of_pos_right hm (Nat.two_pow_pos k)
    have hlog : n.log2 < p + k := (Nat.log2_lt hpos.ne').mpr hlt
    have hdvd : ulp p n ∣ 2 ^ k := Nat.pow_dvd_pow 2 (by omega)
    rw [hn] at hdvd ⊢
    exact hdvd.trans (Nat.dvd_mul_left _ _)

theorem roundBits_eq_self_iff (hp : 0 < p) : roundBits p n = n ↔ Representable p n := by
  constructor
  · intro h
    rw [← h]
    exact representable_roundBits hp n
  · intro h
    have hmod : n % ulp p n = 0 := Nat.mod_eq_zero_of_dvd h.ulp_dvd
    have hpos := ulp_pos p n
    rw [roundBits, if_pos (.inl (by omega))]
    exact Nat.div_mul_cancel h.ulp_dvd

/-- A factor of a representable number is representable: its odd part divides the significand. -/
theorem Representable.of_mul {f : ℕ} (h : Representable p (n * f)) (hf : 0 < f) :
    Representable p n := by
  obtain rfl | hpos := Nat.eq_zero_or_pos n
  · exact representable_of_lt (Nat.two_pow_pos p)
  obtain ⟨m, k, hm, hmul⟩ := h
  obtain ⟨a, odd, hodd, rfl⟩ := Nat.exists_eq_two_pow_mul_odd hpos.ne'
  have hmpos : 0 < m := by
    rcases Nat.eq_zero_or_pos m with rfl | hmpos
    · have hprod := Nat.mul_pos hpos hf
      rw [hmul] at hprod
      simp at hprod
    · exact hmpos
  have hdvd : odd ∣ m * 2 ^ k := by
    rw [← hmul, Nat.mul_right_comm, Nat.mul_comm]
    exact Nat.dvd_mul_right _ _
  have hcoprime : Nat.Coprime odd (2 ^ k) := (Nat.coprime_two_right.mpr hodd).pow_right k
  have hle : odd ≤ m := Nat.le_of_dvd hmpos (hcoprime.dvd_of_dvd_mul_right hdvd)
  exact ⟨odd, a, lt_of_le_of_lt hle hm, Nat.mul_comm _ _⟩

/-- Rounding `n` and then the product with `f` gives the product exactly if it is representable. -/
theorem roundBits_mul_eq_iff {f : ℕ} (hp : 0 < p) (hf : 0 < f) :
    roundBits p (roundBits p n * f) = n * f ↔ Representable p (n * f) := by
  constructor
  · intro h
    rw [← h]
    exact representable_roundBits hp _
  · intro h
    rw [(roundBits_eq_self_iff hp).mpr (h.of_mul hf), (roundBits_eq_self_iff hp).mpr h]

/-! ### Overflow -/

theorem add_two_pow_lt {a b c : ℕ} (hn : n < 2 ^ a) (hab : a ≤ b) (hbc : b < c) :
    n + 2 ^ b < 2 ^ c := by
  calc n + 2 ^ b < 2 ^ b + 2 ^ b :=
        Nat.add_lt_add_right (hn.trans_le (Nat.pow_le_pow_right Nat.two_pos hab)) _
    _ = 2 ^ (b + 1) := by rw [← Nat.two_mul, ← Nat.pow_succ']
    _ ≤ 2 ^ c := Nat.pow_le_pow_right Nat.two_pos hbc

theorem roundBits_le (p n : ℕ) : roundBits p n ≤ 2 ^ p * ulp p n := by
  have hlt := div_ulp_lt p n
  obtain hround | hround := roundBits_cases p n
  · rw [hround]
    exact Nat.mul_le_mul_right _ hlt.le
  · rw [hround]
    exact Nat.mul_le_mul_right _ hlt

/-- A number below a power of two is not rounded beyond it. -/
theorem roundBits_le_two_pow {d : ℕ} (hp : 0 < p) (hn : n < 2 ^ (p + d)) :
    roundBits p n ≤ 2 ^ (p + d) := by
  refine (roundBits_le p n).trans ?_
  rw [Nat.pow_add, ulp]
  refine Nat.mul_le_mul_left _ (Nat.pow_le_pow_right Nat.two_pos ?_)
  obtain rfl | hpos := Nat.eq_zero_or_pos n
  · rw [Nat.log2_zero]
    omega
  · have hlog := (Nat.log2_lt hpos.ne').mpr hn
    omega

/-- A number is not rounded below a power of two. -/
theorem two_pow_le_roundBits {e : ℕ} (hp : 0 < p) (he : p ≤ e) (hn : 2 ^ e ≤ n) :
    2 ^ e ≤ roundBits p n := by
  have hpos : n ≠ 0 := (lt_of_lt_of_le (Nat.two_pow_pos e) hn).ne'
  have hlog : e ≤ n.log2 := (Nat.le_log2 hpos).mpr hn
  have hsplit : 2 ^ n.log2 = 2 ^ (p - 1) * ulp p n := by
    rw [ulp, ← Nat.pow_add]
    congr 1
    omega
  have hquot : 2 ^ (p - 1) ≤ n / ulp p n := by
    rw [Nat.le_div_iff_mul_le (ulp_pos p n), ← hsplit]
    exact Nat.log2_self_le hpos
  calc 2 ^ e ≤ 2 ^ n.log2 := Nat.pow_le_pow_right Nat.two_pos hlog
    _ = 2 ^ (p - 1) * ulp p n := hsplit
    _ ≤ n / ulp p n * ulp p n := Nat.mul_le_mul_right _ hquot
    _ ≤ roundBits p n := by
      obtain hround | hround := roundBits_cases p n
      · rw [hround]
      · rw [hround]
        exact Nat.mul_le_mul_right _ (Nat.le_succ _)

/-- The numbers that are rounded to a power of two or beyond: from half a unit below it on. -/
theorem two_pow_le_roundBits_iff {d : ℕ} (hp : 0 < p) :
    2 ^ (p + 1 + d) ≤ roundBits p n ↔ 2 ^ (p + 1 + d) ≤ n + 2 ^ d := by
  have hd := Nat.two_pow_pos d
  have htwice : 2 ^ (p + 1 + d) = 2 * 2 ^ (p + d) := by rw [← Nat.pow_succ']; congr 1; omega
  rcases Nat.lt_or_ge n (2 ^ (p + d)) with hsmall | hsmall
  · have hround := roundBits_le_two_pow hp hsmall
    have hle : 2 ^ d ≤ 2 ^ (p + d) := Nat.pow_le_pow_right Nat.two_pos (by omega)
    exact iff_of_false (by omega) (by omega)
  rcases Nat.lt_or_ge n (2 ^ (p + 1 + d)) with hlarge | hlarge
  swap
  · exact iff_of_true (two_pow_le_roundBits hp (by omega) hlarge) (by omega)
  -- the unit is twice `2 ^ d`
  have hlog : n.log2 = p + d := by
    rw [Nat.log2_eq_iff (by omega)]
    exact ⟨hsmall, by rw [show p + d + 1 = p + 1 + d by omega]; exact hlarge⟩
  have hulp : ulp p n = 2 * 2 ^ d := by rw [ulp, hlog, ← Nat.pow_succ']; congr 1; omega
  have hpow : 2 ^ (p + 1 + d) = 2 ^ p * ulp p n := by
    rw [hulp, ← Nat.pow_succ', ← Nat.pow_add]
    congr 1
    omega
  have hdiv := Nat.div_add_mod n (ulp p n)
  have hmod := Nat.mod_lt n (ulp_pos p n)
  have hquot := div_ulp_lt p n
  have heven : 2 ^ p % 2 = 0 := Nat.mod_eq_zero_of_dvd (dvd_pow_self 2 hp.ne')
  rw [hpow]
  rcases Nat.lt_or_ge (n / ulp p n + 1) (2 ^ p) with hlast | hlast
  · -- the multiple above `n` is smaller
    have htwo : (n / ulp p n + 2) * ulp p n ≤ 2 ^ p * ulp p n := Nat.mul_le_mul_right _ hlast
    have hone : (n / ulp p n + 1) * ulp p n + ulp p n = (n / ulp p n + 2) * ulp p n := by ring
    have hzero : n / ulp p n * ulp p n + ulp p n = (n / ulp p n + 1) * ulp p n := by ring
    rw [Nat.mul_comm] at hdiv
    refine iff_of_false ?_ (by omega)
    rcases roundBits_cases p n with hround | hround <;> omega
  · -- the multiple above `n` is the power of two
    have htop : n / ulp p n + 1 = 2 ^ p := by omega
    have hsum : 2 ^ p * ulp p n = n / ulp p n * ulp p n + ulp p n := by rw [← htop]; ring
    rw [Nat.mul_comm] at hdiv
    by_cases hhalf : 2 * (n % ulp p n) < ulp p n
    · rw [roundBits, if_pos (.inl hhalf)]
      exact iff_of_false (by omega) (by omega)
    · rw [roundBits, if_neg (by omega), htop]
      exact iff_of_true le_rfl (by omega)

end Norns.Lib
