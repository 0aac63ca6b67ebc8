/-
Rounding to the nearest, a half to the even one. A quotient is rounded to
whole numbers, and a size to the numbers with a significand of 53 bits: those
around it are the multiples of a power of two, the spacing, so that the second
rounding is the first one at another scale. It finds the nearest of all such
numbers, and errs by half the spacing at most.
-/
import Mathlib
import StreamServer.Binary64

namespace StreamServer.Binary64

variable {n d : Nat}

/-! ## To whole numbers -/

/-- Which of the two whole numbers around a quotient is taken. -/
theorem roundDiv_cases (hd : 0 < d) :
    ∃ q r, n = q * d + r ∧ r < d ∧
      (roundDiv n d = q ∧ (2 * r < d ∨ 2 * r = d ∧ q % 2 = 0) ∨
        roundDiv n d = q + 1 ∧ (d < 2 * r ∨ 2 * r = d ∧ q % 2 = 1)) := by
  refine ⟨n / d, n % d, (Nat.div_add_mod' n d).symm, Nat.mod_lt n hd, ?_⟩
  by_cases h : 2 * (n % d) < d ∨ 2 * (n % d) = d ∧ n / d % 2 = 0
  · exact .inl ⟨if_pos h, h⟩
  · exact .inr ⟨if_neg h, by omega⟩

/-- The error is half a unit at most. -/
theorem roundDiv_within (hd : 0 < d) : 2 * Nat.dist (roundDiv n d * d) n ≤ d := by
  obtain ⟨q, r, hn, hr, ⟨hk, h⟩ | ⟨hk, h⟩⟩ := roundDiv_cases (n := n) hd
  · rw [hk, Nat.dist]
    omega
  · rw [hk, Nat.dist, Nat.add_one_mul q]
    omega

/-- Where it is half a unit, the even neighbour was taken. -/
theorem even_roundDiv (hd : 0 < d) (h : 2 * Nat.dist (roundDiv n d * d) n = d) :
    Even (roundDiv n d) := by
  rw [Nat.even_iff]
  obtain ⟨q, r, hn, hr, ⟨hk, hside⟩ | ⟨hk, hside⟩⟩ := roundDiv_cases (n := n) hd
  · rw [hk, Nat.dist] at h
    omega
  · rw [hk, Nat.dist, Nat.add_one_mul q] at h
    omega

/-- Another whole number is a unit away, and the value between the two. -/
theorem le_dist_add_dist {q k : Nat} (h : q ≠ k) :
    d ≤ Nat.dist (q * d) n + Nat.dist (k * d) n := by
  calc d ≤ Nat.dist q k * d := Nat.le_mul_of_pos_left d (Nat.dist_pos_of_ne h)
    _ = Nat.dist (q * d) (k * d) := (Nat.dist_mul_right q d k).symm
    _ ≤ Nat.dist (q * d) n + Nat.dist n (k * d) := Nat.dist.triangle_inequality ..
    _ = Nat.dist (q * d) n + Nat.dist (k * d) n := by rw [Nat.dist_comm n]

/-- A whole number less than half a unit away is the rounded value. -/
theorem roundDiv_eq_of_near {q : Nat} (h : 2 * Nat.dist (q * d) n < d) : roundDiv n d = q := by
  by_contra hne
  have hwithin := roundDiv_within (n := n) (Nat.zero_lt_of_lt h)
  have hgap := le_dist_add_dist (n := n) (d := d) hne
  omega

theorem roundDiv_nearest (hd : 0 < d) (q : Nat) :
    Nat.dist (roundDiv n d * d) n ≤ Nat.dist (q * d) n := by
  by_cases h : q = roundDiv n d
  · rw [h]
  · have hwithin := roundDiv_within (n := n) hd
    have hgap := le_dist_add_dist (n := n) (d := d) h
    omega

/-- One that is as near is the next one, and the even one of the two was taken. -/
theorem roundDiv_tie (hd : 0 < d) {q : Nat} (hne : q ≠ roundDiv n d)
    (h : Nat.dist (q * d) n = Nat.dist (roundDiv n d * d) n) :
    Nat.dist q (roundDiv n d) = 1 ∧ Even (roundDiv n d) := by
  have hwithin := roundDiv_within (n := n) hd
  have hgap := le_dist_add_dist (n := n) (d := d) hne
  refine ⟨?_, even_roundDiv hd (by omega)⟩
  have hd1 : Nat.dist q (roundDiv n d) * d ≤ 1 * d :=
    calc Nat.dist q (roundDiv n d) * d
      _ = Nat.dist (q * d) (roundDiv n d * d) := (Nat.dist_mul_right ..).symm
      _ ≤ Nat.dist (q * d) n + Nat.dist n (roundDiv n d * d) := Nat.dist.triangle_inequality ..
      _ ≤ 1 * d := by rw [Nat.dist_comm n]; omega
  have hpos := Nat.dist_pos_of_ne hne
  have hle := Nat.le_of_mul_le_mul_right hd1 hd
  omega

/-! ## To 53 bits -/

theorem one_pos : 0 < one := by decide +kernel

/-- The sizes with a significand of 53 bits. -/
def Representable (u : Nat) : Prop := ∃ m e, m < 2 ^ 53 ∧ u = m * 2 ^ e

/-- `u` is `n / d` units rounded to 53 bits: no such size is nearer, and where another one is as
near, `u` is an even multiple of the distance between the two. -/
structure Rounds (n d u : Nat) : Prop where
  representable : Representable u
  nearest {z : Nat} : Representable z → Nat.dist (u * d) n ≤ Nat.dist (z * d) n
  even {z : Nat} : Representable z → z ≠ u → Nat.dist (z * d) n = Nat.dist (u * d) n →
    2 * Nat.dist z u ∣ u

/-- The distance between the sizes of 53 bits around `n / d` units. -/
def spacing (n d : Nat) : Nat := 2 ^ ((n / d).log2 + 1 - 53)

theorem spacing_pos (n d : Nat) : 0 < spacing n d := Nat.two_pow_pos _

theorem roundUnits_mul (n d : Nat) :
    roundUnits n d * d = roundDiv n (d * spacing n d) * (d * spacing n d) := by
  show roundDiv n (d * spacing n d) * spacing n d * d = _
  ring

/-- The spacing is no larger than the size allows. -/
theorem spacing_le {k : Nat} (h : n < d * 2 ^ (k + 53)) : spacing n d ≤ 2 ^ k := by
  apply Nat.pow_le_pow_right (by decide)
  have hq : n / d < 2 ^ (k + 53) := Nat.div_lt_of_lt_mul h
  by_cases h0 : n / d = 0
  · simp [h0]
  · have hlog := (Nat.log2_lt h0).2 hq
    omega

theorem lt_mul_spacing (hd : 0 < d) : n < 2 ^ 53 * (d * spacing n d) := by
  calc n < 2 ^ ((n / d).log2 + 1) * d := (Nat.div_lt_iff_lt_mul hd).1 Nat.lt_log2_self
    _ ≤ 2 ^ (53 + ((n / d).log2 + 1 - 53)) * d :=
      Nat.mul_le_mul_right d (Nat.pow_le_pow_right (by decide) (by omega))
    _ = 2 ^ 53 * (d * spacing n d) := by rw [spacing, Nat.pow_add]; ring

/-- A size of 53 bits is a multiple of the spacing, or lies below the binade of the value. -/
theorem dvd_or_below (hd : 0 < d) {z : Nat} (hz : Representable z) :
    spacing n d ∣ z ∨ z * d < 2 ^ 52 * (d * spacing n d) ∧ 2 ^ 52 * (d * spacing n d) ≤ n := by
  obtain ⟨m, e, hm, rfl⟩ := hz
  by_cases he : (n / d).log2 + 1 - 53 ≤ e
  · exact .inl (Nat.dvd_mul_left_of_dvd (Nat.pow_dvd_pow 2 he) m)
  · right
    -- The exponent of the spacing is not cut off at zero, so it is that of the leading bit.
    obtain ⟨j, hj⟩ : ∃ j, (n / d).log2 = j + 53 := ⟨(n / d).log2 - 53, by omega⟩
    have hsp : 2 ^ 52 * (d * spacing n d) = 2 ^ (j + 53) * d := by
      rw [spacing, hj, show j + 53 + 1 - 53 = j + 1 by omega, Nat.pow_add _ j, Nat.pow_add _ j]
      ring
    rw [hsp]
    constructor
    · apply Nat.mul_lt_mul_of_pos_right _ hd
      calc m * 2 ^ e < 2 ^ 53 * 2 ^ e := Nat.mul_lt_mul_of_pos_right hm (Nat.two_pow_pos e)
        _ = 2 ^ (53 + e) := (Nat.pow_add ..).symm
        _ ≤ 2 ^ (j + 53) := Nat.pow_le_pow_right (by decide) (by omega)
    · have hne : n / d ≠ 0 := by
        intro h0
        simp [h0] at hj
      exact (Nat.le_div_iff_mul_le hd).1 (hj ▸ Nat.log2_self_le hne)

/-- Of two sizes below a value the smaller is farther away. -/
theorem dist_lt_of_below {a b : Nat} (h : a < b) (hb : b ≤ n) : Nat.dist b n < Nat.dist a n := by
  rw [Nat.dist_eq_sub_of_le hb, Nat.dist_eq_sub_of_le (by omega)]
  omega

/-- The error is half the spacing at most. -/
theorem roundUnits_within (hd : 0 < d) :
    2 * Nat.dist (roundUnits n d * d) n ≤ d * spacing n d := by
  rw [roundUnits_mul]
  exact roundDiv_within (Nat.mul_pos hd (spacing_pos n d))

theorem representable_roundUnits (hd : 0 < d) : Representable (roundUnits n d) := by
  have hpos : 0 < d * spacing n d := Nat.mul_pos hd (spacing_pos n d)
  have hle : roundDiv n (d * spacing n d) ≤ 2 ^ 53 := by
    have hq : n / (d * spacing n d) < 2 ^ 53 := (Nat.div_lt_iff_lt_mul hpos).2 (lt_mul_spacing hd)
    rw [roundDiv]
    split <;> omega
  by_cases hlt : roundDiv n (d * spacing n d) < 2 ^ 53
  · exact ⟨_, _, hlt, rfl⟩
  · -- Rounded up to the next binade: a power of two.
    have hk : roundDiv n (d * spacing n d) = 2 ^ 53 := Nat.le_antisymm hle (Nat.le_of_not_lt hlt)
    refine ⟨1, 53 + ((n / d).log2 + 1 - 53), by decide, ?_⟩
    show roundDiv n (d * spacing n d) * spacing n d = _
    rw [hk, Nat.one_mul, Nat.pow_add, spacing]

theorem rounds_roundUnits (hd : 0 < d) : Rounds n d (roundUnits n d) := by
  have hpos : 0 < d * spacing n d := Nat.mul_pos hd (spacing_pos n d)
  have hscale (q : Nat) : spacing n d * q * d = q * (d * spacing n d) := by ring
  refine ⟨representable_roundUnits hd, fun {z} hz => ?_, fun {z} hz hne htie => ?_⟩
  · rw [roundUnits_mul]
    rcases dvd_or_below (n := n) hd hz with ⟨q, rfl⟩ | ⟨hbelow, hle⟩
    · rw [hscale]
      exact roundDiv_nearest hpos q
    · exact (roundDiv_nearest hpos (2 ^ 52)).trans (dist_lt_of_below hbelow hle).le
  · rw [roundUnits_mul] at htie
    rcases dvd_or_below (n := n) hd hz with ⟨q, rfl⟩ | ⟨hbelow, hle⟩
    · rw [hscale] at htie
      have hq : q ≠ roundDiv n (d * spacing n d) := by
        rintro rfl
        exact hne (Nat.mul_comm ..)
      obtain ⟨hone, heven⟩ := roundDiv_tie hpos hq htie
      show 2 * Nat.dist _ (roundDiv n (d * spacing n d) * spacing n d)
        ∣ roundDiv n (d * spacing n d) * spacing n d
      rw [Nat.mul_comm (spacing n d) q, Nat.dist_mul_right, hone, Nat.one_mul]
      exact Nat.mul_dvd_mul_right heven.two_dvd _
    · -- A size below the binade is farther away than the least of the binade.
      have hnear := roundDiv_nearest (n := n) hpos (2 ^ 52)
      have hfar := dist_lt_of_below hbelow hle
      omega

/-- A size of 53 bits is its own rounding. -/
theorem roundUnits_of_representable {u : Nat} (hu : Representable u) : roundUnits u 1 = u := by
  have h := (rounds_roundUnits (n := u) Nat.one_pos).nearest hu
  rw [Nat.mul_one, Nat.mul_one, Nat.dist_self] at h
  exact Nat.eq_of_dist_eq_zero (Nat.le_zero.1 h)

/-- A large size of 53 bits is a multiple of a large power of two. -/
theorem Representable.dvd_of_le {u k : Nat} (hu : Representable u) (h : 2 ^ (k + 52) ≤ u) :
    2 ^ k ∣ u := by
  obtain ⟨m, e, hm, rfl⟩ := hu
  by_cases he : k ≤ e
  · exact Nat.dvd_mul_left_of_dvd (Nat.pow_dvd_pow 2 he) m
  · have hsmall : m * 2 ^ e < 2 ^ (k + 52) :=
      calc m * 2 ^ e < 2 ^ 53 * 2 ^ e := Nat.mul_lt_mul_of_pos_right hm (Nat.two_pow_pos e)
        _ = 2 ^ (53 + e) := (Nat.pow_add ..).symm
        _ ≤ 2 ^ (k + 52) := Nat.pow_le_pow_right (by decide) (by omega)
    omega

/-- A value is not rounded to below a size of 53 bits that it reaches. -/
theorem Representable.le_roundUnits {u : Nat} (hu : Representable u) (hd : 0 < d) (h : u * d ≤ n) :
    u ≤ roundUnits n d := by
  by_contra hlt
  have hbelow : roundUnits n d * d < u * d := Nat.mul_lt_mul_of_pos_right (Nat.lt_of_not_le hlt) hd
  have hnearest := (rounds_roundUnits (n := n) hd).nearest hu
  have hfar := dist_lt_of_below hbelow h
  omega

/-- Nothing is rounded up past a size of 53 bits. -/
theorem Representable.roundUnits_le {u : Nat} (hu : Representable u) (hd : 0 < d) (h : n ≤ u * d) :
    roundUnits n d ≤ u := by
  by_contra hlt
  have habove : u * d < roundUnits n d * d := Nat.mul_lt_mul_of_pos_right (Nat.lt_of_not_le hlt) hd
  have hnearest := (rounds_roundUnits (n := n) hd).nearest hu
  rw [Nat.dist_eq_sub_of_le_right h, Nat.dist_eq_sub_of_le_right (by omega)] at hnearest
  omega

end StreamServer.Binary64
