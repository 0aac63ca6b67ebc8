/-
The shortest decimal of a number reads back as the number. Two numbers of 53
bits are apart by 2 ^ -53 of the larger one at least, so whatever lies closer
than 2 ^ -54 of a number is rounded to it. Of the two decimals of 17 digits
next to a number one is closer, since 2 ^ 53 is less than 10 ^ 16; the search
for fewer digits therefore ends with a decimal that reads back.
-/
import Mathlib
import StreamServer.Binary64.Shortest
import StreamServer.Proofs.Rounding

namespace StreamServer.Binary64

variable {n d u v c : Nat}

theorem one_le_ten_pow : one ≤ Nat.pow 10 (329 + 1) := by decide +kernel

-- From here on its size is compared through this bound; the number itself has hundreds of digits.
attribute [local irreducible] one

/-! ## Rounding near a size of 53 bits -/

/-- Two sizes of 53 bits are apart by `2 ^ -53` of the larger one at least. -/
theorem Representable.le_gap (hu : Representable u) (hv : Representable v) (h : u < v) :
    v ≤ 2 ^ 53 * (v - u) := by
  obtain ⟨m, e, hm, rfl⟩ := hu
  obtain ⟨k, f, hk, rfl⟩ := hv
  -- The difference is a multiple of the smaller of the two powers.
  have hstep (g : Nat) (he : g ≤ e) (hf : g ≤ f) : 2 ^ g ≤ k * 2 ^ f - m * 2 ^ e := by
    refine Nat.le_of_dvd (Nat.sub_pos_of_lt h) (Nat.dvd_sub ?_ ?_)
    · exact Nat.dvd_mul_left_of_dvd (Nat.pow_dvd_pow 2 hf) k
    · exact Nat.dvd_mul_left_of_dvd (Nat.pow_dvd_pow 2 he) m
  rcases Nat.le_total f e with hfe | hef
  · calc k * 2 ^ f ≤ 2 ^ 53 * 2 ^ f := Nat.mul_le_mul_right _ hk.le
      _ ≤ 2 ^ 53 * (k * 2 ^ f - m * 2 ^ e) := Nat.mul_le_mul_left _ (hstep f hfe le_rfl)
  · have hlow : m * 2 ^ e ≤ (2 ^ 53 - 1) * (k * 2 ^ f - m * 2 ^ e) :=
      Nat.mul_le_mul (Nat.le_sub_one_of_lt hm) (hstep e le_rfl hef)
    omega

theorem Representable.le_dist (hu : Representable u) (hv : Representable v) (h : u ≠ v) :
    u ≤ 2 ^ 53 * Nat.dist u v := by
  rcases Nat.lt_or_gt_of_ne h with hlt | hgt
  · have hgap := hu.le_gap hv hlt
    rw [Nat.dist_eq_sub_of_le hlt.le]
    omega
  · rw [Nat.dist_eq_sub_of_le_right hgt.le]
    exact hv.le_gap hu hgt

/-- What is closer to a size of 53 bits than `2 ^ -54` of it is rounded to it. -/
theorem roundUnits_eq_of_near (hd : 0 < d) (hu : Representable u)
    (h : 2 ^ 54 * Nat.dist (u * d) n < u * d) : roundUnits n d = u := by
  by_contra hne
  have hround := rounds_roundUnits (n := n) hd
  have hnearest := hround.nearest hu
  have hgap := Nat.mul_le_mul_right d (hu.le_dist hround.representable (Ne.symm hne))
  have hbetween : Nat.dist u (roundUnits n d) * d
      ≤ Nat.dist (u * d) n + Nat.dist (roundUnits n d * d) n := by
    rw [← Nat.dist_mul_right, Nat.dist_comm (roundUnits n d * d) n]
    exact Nat.dist.triangle_inequality ..
  rw [Nat.mul_assoc] at hgap
  omega

theorem roundDiv_scale (hc : 0 < c) : roundDiv (n * c) (d * c) = roundDiv n d := by
  have htwice : 2 * (n % d * c) = 2 * (n % d) * c := (Nat.mul_assoc ..).symm
  simp only [roundDiv, Nat.mul_div_mul_right _ _ hc, Nat.mul_mod_mul_right, htwice,
    Nat.mul_lt_mul_right hc, Nat.mul_left_inj hc.ne']

/-- What a quotient is rounded to depends on its value alone. -/
theorem roundUnits_scale (hc : 0 < c) : roundUnits (n * c) (d * c) = roundUnits n d := by
  simp only [roundUnits, Nat.mul_div_mul_right _ _ hc]
  rw [Nat.mul_right_comm d c, roundDiv_scale hc]

theorem roundUnits_zero (hd : 0 < d) : roundUnits 0 d = 0 := by
  simp [roundUnits, roundDiv, hd]

/-! ## Powers of ten -/

/-- `10 ^ x` is `10 ^ k` times `10 ^ (x - k)`, each of them written as a quotient. -/
theorem ten_pow_shift (x : Int) (k : Nat) :
    10 ^ x.toNat * 10 ^ (-(x - k)).toNat = 10 ^ k * 10 ^ (x - k).toNat * 10 ^ (-x).toNat := by
  rw [← Nat.pow_add, ← Nat.pow_add, ← Nat.pow_add]
  congr 1
  omega

/-- `10 ^ x` is at most `u` units. -/
def TenLe (x : Int) (u : Nat) : Prop := one * 10 ^ x.toNat ≤ u * 10 ^ (-x).toNat

theorem TenLe.shift {x : Int} (h : TenLe x u) (k : Nat) :
    10 ^ k * (one * 10 ^ (x - k).toNat) ≤ u * 10 ^ (-(x - k)).toNat := by
  refine Nat.le_of_mul_le_mul_right ?_ (Nat.pow_pos (n := (-x).toNat) (by decide : 0 < 10))
  calc 10 ^ k * (one * 10 ^ (x - k).toNat) * 10 ^ (-x).toNat
    _ = one * 10 ^ x.toNat * 10 ^ (-(x - k)).toNat := by
      rw [Nat.mul_assoc one, ten_pow_shift]
      ring
    _ ≤ u * 10 ^ (-x).toNat * 10 ^ (-(x - k)).toNat := Nat.mul_le_mul_right _ h
    _ = u * 10 ^ (-(x - k)).toNat * 10 ^ (-x).toNat := by ring

theorem lt_of_not_tenLe {x : Int} (h : ¬ TenLe x u) (k : Nat) :
    u * 10 ^ (-(x - k)).toNat < 10 ^ k * (one * 10 ^ (x - k).toNat) := by
  refine Nat.lt_of_mul_lt_mul_right (a := 10 ^ (-x).toNat) ?_
  calc u * 10 ^ (-(x - k)).toNat * 10 ^ (-x).toNat
    _ = u * 10 ^ (-x).toNat * 10 ^ (-(x - k)).toNat := by ring
    _ < one * 10 ^ x.toNat * 10 ^ (-(x - k)).toNat :=
      Nat.mul_lt_mul_of_pos_right (Nat.lt_of_not_le h) (Nat.pow_pos (by decide))
    _ = 10 ^ k * (one * 10 ^ (x - k).toNat) * 10 ^ (-x).toNat := by
      rw [Nat.mul_assoc one, ten_pow_shift]
      ring

/-! ## Decimals next to a value -/

theorem ratio_eq (x : Decimal) :
    x.ratio = (x.digits * 10 ^ x.exponent.toNat, 10 ^ (-x.exponent).toNat) := by
  obtain ⟨m, e⟩ := x
  cases e with
  | ofNat k => simp [Decimal.ratio]
  | negSucc k => simp [Decimal.ratio]

theorem readsAs_iff (x : Decimal) :
    x.readsAs u = true ↔
      roundUnits (x.digits * 10 ^ x.exponent.toNat * one) (10 ^ (-x.exponent).toNat) = u := by
  rw [Decimal.readsAs, ratio_eq]
  exact beq_iff_eq

/-- What is found reads back and is one of the two. -/
theorem nearer?_cases {a b x : Decimal} (h : nearer? u a b = some x) :
    x.readsAs u = true ∧ (x = a ∨ x = b) := by
  unfold nearer? at h
  split at h
  case isTrue ha =>
    split at h
    case isTrue hb =>
      cases h
      exact ⟨hb.1, .inr rfl⟩
    case isFalse =>
      cases h
      exact ⟨ha, .inl rfl⟩
  case isFalse =>
    split at h
    case isTrue hb =>
      cases h
      exact ⟨hb, .inr rfl⟩
    case isFalse => cases h

theorem nearer?_isSome {a b : Decimal} (h : a.readsAs u = true ∨ b.readsAs u = true) :
    (nearer? u a b).isSome = true := by
  unfold nearer?
  split
  case isTrue => split <;> rfl
  case isFalse ha => rw [if_pos (h.resolve_left ha), Option.isSome_some]

/-- Digits of the decimal below `u` units. -/
def below (u : Nat) (e : Int) : Nat := u * 10 ^ (-e).toNat / (one * 10 ^ e.toNat)

theorem neighbours_eq (u : Nat) (e : Int) :
    neighbours u e = (⟨below u e, e⟩, ⟨below u e + 1, e⟩) := by
  cases e with
  | ofNat k => simp [neighbours, below]
  | negSucc k => simp [neighbours, below]

theorem below_spec (u : Nat) (e : Int) :
    ∃ rest < one * 10 ^ e.toNat,
      u * 10 ^ (-e).toNat = below u e * (one * 10 ^ e.toNat) + rest :=
  ⟨_, Nat.mod_lt _ (Nat.mul_pos one_pos (Nat.pow_pos (by decide))),
    (Nat.div_add_mod' (u * 10 ^ (-e).toNat) (one * 10 ^ e.toNat)).symm⟩

attribute [local irreducible] below

/-- With 17 digits one of the neighbours reads back. -/
theorem hit?_of_fine (hu : Representable u) {e : Int}
    (h : 10 ^ 16 * (one * 10 ^ e.toNat) ≤ u * 10 ^ (-e).toNat) : (hit? u e).isSome = true := by
  have hd : 0 < 10 ^ (-e).toNat := Nat.pow_pos (by decide)
  have hdigits (m : Nat) : m * 10 ^ e.toNat * one = m * (one * 10 ^ e.toNat) := by ring
  obtain ⟨rest, hlt, hsplit⟩ := below_spec u e
  apply nearer?_isSome
  simp only [neighbours_eq, readsAs_iff, hdigits]
  -- The nearer neighbour is within half a unit of its last digit.
  by_cases hhalf : 2 * rest ≤ one * 10 ^ e.toNat
  · left
    apply roundUnits_eq_of_near hd hu
    rw [Nat.dist]
    omega
  · right
    apply roundUnits_eq_of_near hd hu
    rw [Nat.dist, Nat.add_one_mul (below u e)]
    omega

/-! ## How large a value is -/

/-- The exponent of a value is that of the power of ten above it. -/
theorem decimalExponent_spec (hu : 0 < u) :
    TenLe (decimalExponent u - 1) u ∧ ¬ TenLe (decimalExponent u) u ∧
      -330 ≤ decimalExponent u := by
  unfold decimalExponent
  split
  case isTrue h =>
    obtain ⟨k, hk⟩ := Nat.exists_eq_add_one.2 (Nat.length_toDigits_pos (b := 10) (n := u / one))
    have hlt : u / one < 10 ^ (k + 1) :=
      (Nat.length_toDigits_le_iff (by decide) (by omega)).1 hk.le
    have hle : 10 ^ k ≤ u / one := by
      by_contra hlow
      rcases Nat.eq_zero_or_pos k with rfl | hkpos
      · exact hlow (Nat.div_pos h one_pos)
      · have hshort := (Nat.length_toDigits_le_iff (by decide) hkpos).2 (Nat.lt_of_not_le hlow)
        omega
    rw [Nat.div_lt_iff_lt_mul one_pos] at hlt
    rw [Nat.le_div_iff_mul_le one_pos] at hle
    rw [hk, TenLe, TenLe, show ((k + 1 : Nat) - 1 : Int).toNat = k by omega,
      show (-((k + 1 : Nat) - 1) : Int).toNat = 0 by omega, Int.toNat_natCast,
      show (-((k + 1 : Nat) : Int)).toNat = 0 by omega, Nat.pow_zero, Nat.mul_one]
    refine ⟨?_, ?_, by omega⟩
    · rwa [Nat.mul_comm]
    · rwa [Nat.mul_comm, Nat.not_le]
  case isFalse h =>
    dsimp only
    cases hfind : (List.range 330).find? fun j => decide (one ≤ u * Nat.pow 10 (j + 1)) with
    | none =>
      -- A unit is more than 10 ^ -330.
      have hnot := List.find?_range_eq_none.1 hfind 329 (by decide)
      have hlarge (p : Nat) : p ≤ u * p := Nat.le_mul_of_pos_left _ hu
      simp only [Bool.not_eq_true', decide_eq_false_iff_not] at hnot
      exact absurd (one_le_ten_pow.trans (hlarge _)) hnot
    | some j =>
      obtain ⟨hj, hmem, hall⟩ := List.find?_range_eq_some.1 hfind
      have hafter : one ≤ u * 10 ^ (j + 1) := of_decide_eq_true hj
      have hbefore : u * 10 ^ j < one := by
        cases j with
        | zero => simpa using h
        | succ j => simpa using hall j (Nat.lt_succ_self j)
      have hlt := List.mem_range.1 hmem
      have hdown : (-(j : Int) - 1).toNat = 0 ∧ (-(-(j : Int) - 1)).toNat = j + 1 := by omega
      have hzero : (-(j : Int)).toNat = 0 := by omega
      rw [Option.getD_some, Int.negOfNat_eq, Int.ofNat_eq_natCast, TenLe, TenLe, hdown.1, hdown.2,
        hzero, Int.neg_neg, Int.toNat_natCast, Nat.pow_zero, Nat.mul_one]
      exact ⟨hafter, Nat.not_le.2 hbefore, by omega⟩

/-! ## The shortest decimal -/

theorem below_lt (hu : 0 < u) (k : Nat) : below u (decimalExponent u - k) < 10 ^ k := by
  have hpos : 0 < one * 10 ^ (decimalExponent u - k).toNat :=
    Nat.mul_pos one_pos (Nat.pow_pos (by decide))
  have hlt := lt_of_not_tenLe (decimalExponent_spec hu).2.1 k
  obtain ⟨rest, -, hsplit⟩ := below_spec u (decimalExponent u - k)
  refine Nat.lt_of_mul_lt_mul_right (a := one * 10 ^ (decimalExponent u - k).toNat) ?_
  omega

/-- The shortest decimal reads back, and has 17 digits at most, one more if it was rounded up to a
power of ten. -/
theorem shortest_spec (hu : Representable u) (hpos : 0 < u) :
    (shortest u).readsAs u = true ∧ (shortest u).digits ≤ 10 ^ 17 ∧
      decimalExponent u - 17 ≤ (shortest u).exponent ∧
      (shortest u).exponent < decimalExponent u := by
  -- With 17 digits there is a hit, so there is a first one.
  have hfine : (hit? u (decimalExponent u - 1 - Int.ofNat 16)).isSome = true :=
    hit?_of_fine hu ((decimalExponent_spec hpos).1.shift 16)
  obtain ⟨last, hlast⟩ := Option.isSome_iff_exists.1 hfine
  have hmem : last ∈ (List.range 17).filterMap fun n =>
      hit? u (decimalExponent u - 1 - Int.ofNat n) :=
    List.mem_filterMap.2 ⟨16, by simp, hlast⟩
  obtain ⟨x, xs, hx⟩ := List.exists_cons_of_ne_nil (List.ne_nil_of_mem hmem)
  have hshortest : shortest u = x := by
    rw [shortest, hx, List.headD_cons]
  obtain ⟨n, hn, hhit⟩ : ∃ n < 17, hit? u (decimalExponent u - 1 - Int.ofNat n) = some x := by
    have hin : x ∈ x :: xs := List.mem_cons_self
    rw [← hx, List.mem_filterMap] at hin
    simpa using hin
  have hexponent : decimalExponent u - 1 - Int.ofNat n = decimalExponent u - (n + 1 : Nat) := by
    rw [Int.ofNat_eq_natCast]
    omega
  have hlt := below_lt hpos (n + 1)
  have hle : 10 ^ (n + 1) ≤ 10 ^ 17 := Nat.pow_le_pow_right (by decide) (by omega)
  rw [hexponent] at hhit
  obtain ⟨hreads, heq⟩ := nearer?_cases hhit
  rw [neighbours_eq] at heq
  rw [hshortest]
  refine ⟨hreads, ?_⟩
  rcases heq with rfl | rfl <;> dsimp only <;> omega

end StreamServer.Binary64
