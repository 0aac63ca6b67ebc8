/-
Reading a duration settles it: written as a number of seconds and read again
it stays the same, however it was given at first. Below 2 ^ 23 seconds that is
so for every duration. From there on to 2 ^ 53 seconds the floats are farther
apart than a nanosecond, and a duration that was read from a float is within
half a nanosecond of it, so the float nearest to the duration is that float.
Larger floats are whole seconds.
-/
import Mathlib
import StreamServer.Proofs.FractionalSeconds

namespace StreamServer

attribute [local irreducible] Binary64.one Binary64.overflow

/-- A number that has a significand of 53 bits, if it is finite. -/
def Binary64.Genuine : Binary64 → Prop
  | .finite _ units => Representable units
  | .infinite _ | .nan => True

theorem Binary64.genuine_ofRatio (negative : Bool) (n : Nat) {d : Nat} (hd : 0 < d) :
    (ofRatio negative n d).Genuine := by
  by_cases h : overflow ≤ roundUnits (n * one) d
  · rw [ofRatio, if_pos h]
    trivial
  · rw [ofRatio, if_neg h]
    exact representable_roundUnits hd

/-- If it is a number, one of 64 bits. -/
def Value.Genuine : Value → Prop
  | .integer n => n < UInt64.size
  | .float x => x.Genuine
  | _ => True

namespace Seconds

open Binary64 (one roundUnits roundDiv Representable)
open Duration (perSecond)

variable {d : Duration} {u : Nat}

/-! ## Sizes of floats -/

theorem pow_23_mul_one : 2 ^ 23 * one = 2 ^ (1045 + 52) := by decide +kernel

theorem pow_53_mul_one : 2 ^ 53 * one = 2 ^ (1074 + 52) * 2 := by decide +kernel

theorem pow_1045_eq : 2 ^ 1045 = 2 ^ 24 * step := by decide +kernel

attribute [local irreducible] step

theorem representable_secs {s : Nat} (h : s < 2 ^ 53) : Representable (s * one) :=
  ⟨s, 1074, h, by rw [one_eq_pow]⟩

/-- Floats of `2 ^ 53` seconds or more are whole seconds. -/
theorem one_dvd (hu : Representable u) (h : 2 ^ 53 * one ≤ u) : one ∣ u := by
  rw [one_eq_pow]
  exact hu.dvd_of_le (by rw [pow_53_mul_one] at h; omega)

/-- Floats of `2 ^ 23` seconds or more are multiples of `2 ^ -29` seconds. -/
theorem steps_dvd (hu : Representable u) (h : 2 ^ 23 * one ≤ u) : 2 ^ 24 * step ∣ u := by
  rw [← pow_1045_eq]
  exact hu.dvd_of_le (by rwa [pow_23_mul_one] at h)

/-! ## What is read from a float -/

/-- A float that is taken is not negative and below `2 ^ 64` seconds, and the duration is the nearest
one. -/
theorem ofFloat_finite {negative : Bool} (h : ofFloat (.finite negative u) = .ok d) :
    ofFloat (.finite false u) = .ok d ∧ u < UInt64.size * one ∧
      d.nanos = roundDiv (u * perSecond) one := by
  rw [ofFloat] at h
  split at h
  · cases h
  · split at h
    · cases h
    · rename_i hsize
      rw [ofFloat, if_neg (by simp), if_neg hsize]
      exact ⟨h, Nat.lt_of_not_le hsize, by cases h; rfl⟩

/-- The nearest duration is within half a nanosecond. -/
theorem nanos_within (h : d.nanos = roundDiv (u * perSecond) one) :
    2 * Nat.dist (d.nanos * one) (u * perSecond) ≤ one := by
  rw [h]
  exact Binary64.roundDiv_within Binary64.one_pos

/-- Floats of `2 ^ 53` seconds or more are taken as they are. -/
theorem nanos_of_large (hu : Representable u) (h : 2 ^ 53 * one ≤ u)
    (hnanos : d.nanos = roundDiv (u * perSecond) one) :
    ∃ q, u = q * one ∧ d.nanos = q * perSecond := by
  obtain ⟨q, rfl⟩ := one_dvd hu h
  refine ⟨q, Nat.mul_comm one q, ?_⟩
  rw [hnanos, Nat.mul_assoc, Nat.mul_comm]
  exact Binary64.roundDiv_eq_of_near (by simp [Binary64.one_pos])

/-- Half a nanosecond does not lead past a whole second. -/
theorem secs_within {a b : Nat} (hlow : a * one ≤ u) (hhigh : u < b * one)
    (hnear : 2 * Nat.dist (d.nanos * one) (u * perSecond) ≤ one) (hsub : d.subsec ≠ 0) :
    a ≤ d.secs ∧ d.secs < b := by
  have hpos := Binary64.one_pos
  have hnanos := d.nanos_eq
  rw [Nat.dist, perSecond] at hnear
  rw [perSecond] at hnanos
  constructor
  · by_contra hlt
    have hle : (d.nanos + 1) * one ≤ a * 1000000000 * one := Nat.mul_le_mul_right one (by
      have := d.subsec_lt
      rw [perSecond] at this
      omega)
    rw [Nat.add_one_mul, Nat.mul_right_comm] at hle
    omega
  · by_contra hge
    have hle : (b * 1000000000 + 1) * one ≤ d.nanos * one := Nat.mul_le_mul_right one (by omega)
    rw [Nat.add_one_mul (b * 1000000000), Nat.mul_right_comm] at hle
    omega

theorem dvd_dist {k a b : Nat} (ha : k ∣ a) (hb : k ∣ b) : k ∣ Nat.dist a b :=
  Nat.dvd_add (Nat.dvd_sub ha hb) (Nat.dvd_sub hb ha)

/-- From `2 ^ 23` seconds on a duration that was read from a float is written as that float. -/
theorem floatOf_eq (hu : Representable u) (hlow : 2 ^ 23 * one ≤ u) (hhigh : u < 2 ^ 53 * one)
    (hnear : 2 * Nat.dist (d.nanos * one) (u * perSecond) ≤ one) (hsub : d.subsec ≠ 0) :
    floatOf d = .finite false u := by
  have hnanos : d.nanos * one = d.secs * one * 1000000000 + d.subsec * one := by
    rw [d.nanos_eq, perSecond]
    ring
  have hsecs : 2 ^ 23 ≤ d.secs ∧ d.secs < 2 ^ 53 := secs_within hlow hhigh hnear hsub
  obtain ⟨hfraction, -⟩ := fraction_within d
  have hwhole := Binary64.roundUnits_of_representable (representable_secs hsecs.2)
  rw [floatOf, hwhole]
  generalize roundUnits (d.subsec * one) perSecond = f at hfraction ⊢
  refine congrArg (Binary64.finite false) ?_
  -- The sum that is rounded is nearer to `u` than half the distance of two floats.
  have hsum : Nat.dist (d.secs * one + f) u * (2 * perSecond) ≤ one + perSecond * step := by
    rw [hnanos] at hnear
    simp only [perSecond, Nat.dist] at hnear hfraction ⊢
    omega
  have hlarge : 2 ^ 23 * one ≤ d.secs * one + f :=
    (Nat.mul_le_mul_right one hsecs.1).trans (Nat.le_add_right _ _)
  have hround := Binary64.rounds_roundUnits (n := d.secs * one + f) Nat.one_pos
  have hnearest := hround.nearest hu
  rw [Nat.mul_one, Nat.mul_one, Nat.dist_comm u] at hnearest
  have hfloat : 2 ^ 23 * one ≤ roundUnits (d.secs * one + f) 1 :=
    (representable_secs (by decide)).le_roundUnits Nat.one_pos (by rwa [Nat.mul_one])
  have hbetween := Nat.dist.triangle_inequality (roundUnits (d.secs * one + f) 1)
    (d.secs * one + f) u
  by_contra hne
  have hgap : 2 ^ 24 * step ≤ Nat.dist (roundUnits (d.secs * one + f) 1) u :=
    Nat.le_of_dvd (Nat.dist_pos_of_ne hne) (dvd_dist (steps_dvd hround.representable hfloat)
      (steps_dvd hu hlow))
  have hone := one_eq
  have hstep := step_pos
  rw [perSecond] at hsum
  omega

/-- A duration that was read from a float stays as it is. -/
theorem toDuration_of_ofFloat {x : Binary64} (hx : x.Genuine) (h : ofFloat x = .ok d) :
    (ofDuration d).toDuration = .ok d := by
  by_cases hsub : d.subsec = 0
  · exact toDuration_whole hsub
  cases x with
  | infinite | nan => cases h
  | finite negative u =>
    obtain ⟨hread, -, hnanos⟩ := ofFloat_finite h
    have hnear := nanos_within hnanos
    by_cases hlow : 2 ^ 23 * one ≤ u
    · have hhigh : u < 2 ^ 53 * one := by
        by_contra hge
        obtain ⟨q, -, hq⟩ := nanos_of_large hx (Nat.le_of_not_lt hge) hnanos
        exact hsub (by rw [Duration.subsec, hq, Nat.mul_mod_left])
      rw [ofDuration, if_neg hsub, floatOf_eq hx hlow hhigh hnear hsub]
      exact hread
    · exact toDuration_ofDuration (secs_within (Nat.zero_mul one ▸ Nat.zero_le u)
        (Nat.lt_of_not_le hlow) hnear hsub).2

theorem secs_of_ofFloat {x : Binary64} (hx : x.Genuine) (h : ofFloat x = .ok d) :
    d.secs < UInt64.size := by
  cases x with
  | infinite | nan => cases h
  | finite negative u =>
    obtain ⟨-, hsize, hnanos⟩ := ofFloat_finite h
    by_cases hlarge : 2 ^ 53 * one ≤ u
    · obtain ⟨q, rfl, hq⟩ := nanos_of_large hx hlarge hnanos
      rw [Duration.secs, hq, Nat.mul_div_cancel q (by decide)]
      exact Nat.lt_of_mul_lt_mul_right hsize
    · have hnear := nanos_within hnanos
      have hlt : d.nanos * one < (2 ^ 53 * perSecond + 1) * one := by
        rw [Nat.add_one_mul, Nat.mul_right_comm]
        rw [perSecond, Nat.dist] at *
        omega
      have hpast := Nat.lt_of_mul_lt_mul_right hlt
      rw [Duration.secs]
      simp only [perSecond, UInt64.size] at *
      omega

/-- A value that was taken as a duration of 64-bit seconds is written as one that is taken as the
same. -/
theorem readDuration_settles {v : Value} (hv : v.Genuine) (h : Config.readDuration v = .ok d) :
    d.secs < UInt64.size ∧ Config.readDuration (ofDuration d).value = .ok d := by
  have hfloat {x : Binary64} (hx : x.Genuine) (h : Config.readFloatSeconds x = .ok d) :
      d.secs < UInt64.size ∧ Config.readDuration (ofDuration d).value = .ok d := by
    rw [Config.readFloatSeconds] at h
    split at h
    · rename_i hread
      cases h
      exact ⟨secs_of_ofFloat hx hread, readDuration_value (toDuration_of_ofFloat hx hread)⟩
    · cases h
  cases v with
  | integer n =>
    rw [Config.readDuration] at h
    split at h
    · rename_i hn
      cases h
      have hlt : n < UInt64.size := hv
      rw [Duration.ofSecs, Duration.secs_ofParts (by decide)]
      exact ⟨by omega, readDuration_value (toDuration_whole (Duration.subsec_ofParts (by decide)))⟩
    · exact hfloat (Binary64.genuine_ofRatio _ _ Nat.one_pos) h
  | float x => exact hfloat hv h
  | null | boolean | text | moment | array | tables | table => cases h

end Seconds

end StreamServer
