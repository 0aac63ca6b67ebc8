/-
Durations written as numbers of seconds and read again. A float with the
nanoseconds in its fraction is rounded twice on the way out, the fraction by
2 ^ -54 of a second at most and the sum by half the spacing of the floats at
its size. Below 2 ^ 23 seconds that is 2 ^ -31 of a second, and both together
stay just under half a nanosecond, so the nearest duration is the one that was
written.
-/
import Mathlib
import StreamServer.Config.Fields
import StreamServer.Proofs.Rounding

namespace StreamServer

namespace Duration

theorem secs_ofParts {s ns : Nat} (h : ns < perSecond) : (ofParts s ns).secs = s := by
  rw [secs, ofParts, Nat.mul_comm, Nat.mul_add_div (by decide), Nat.div_eq_of_lt h, Nat.add_zero]

theorem subsec_ofParts {s ns : Nat} (h : ns < perSecond) : (ofParts s ns).subsec = ns := by
  rw [subsec, ofParts, Nat.mul_comm, Nat.mul_add_mod, Nat.mod_eq_of_lt h]

theorem subsec_lt (d : Duration) : d.subsec < perSecond := Nat.mod_lt _ (by decide)

theorem nanos_eq (d : Duration) : d.nanos = d.secs * perSecond + d.subsec :=
  (Nat.div_add_mod' d.nanos perSecond).symm

end Duration

namespace Seconds

open Binary64 (one roundUnits Rounds)
open Duration (perSecond)

variable {d : Duration}

/-! ## Units of a second -/

/-- Units of `2 ^ -53` seconds, the spacing of the floats from a half to one. -/
def step : Nat := 2 ^ 1021

theorem step_pos : 0 < step := by decide +kernel

theorem one_eq_pow : one = 2 ^ 1074 := by decide +kernel

theorem one_eq : one = 2 ^ 53 * step := by decide +kernel

-- Their sizes are compared through the step alone; the numbers themselves have hundreds of digits.
attribute [local irreducible] one step

/-! ## What is written -/

/-- The number of seconds that is written for `s` seconds and `ns` nanoseconds: a whole one if that
is exact, else the float that the seconds and the quotient of the nanoseconds add up to, each of
the three rounded to 53 bits. -/
inductive Expresses (s ns : Nat) : Seconds → Prop
  | whole (h : ns = 0) : Expresses s ns (.whole s)
  | float {w f u : Nat} (h : ns ≠ 0) (hw : Rounds (s * one) 1 w) (hf : Rounds (ns * one) perSecond f)
      (hu : Rounds (w + f) 1 u) : Expresses s ns (.float (.finite false u))

theorem expresses_ofDuration (d : Duration) : Expresses d.secs d.subsec (ofDuration d) := by
  rw [ofDuration]
  split
  case isTrue h => exact .whole h
  case isFalse h =>
    exact .float h (Binary64.rounds_roundUnits Nat.one_pos)
      (Binary64.rounds_roundUnits (by decide)) (Binary64.rounds_roundUnits Nat.one_pos)

/-- The value of a setting that is a number of seconds. -/
def value : Seconds → Value
  | .whole n => .integer n
  | .float x => .float x

/-! ## What is read -/

/-- `d` is the duration nearest to so many units, and of two as near the even one. -/
structure NearestTo (units : Nat) (d : Duration) : Prop where
  nearest (k : Nat) :
    Nat.dist (d.nanos * one) (units * perSecond) ≤ Nat.dist (k * one) (units * perSecond)
  even {k : Nat} : k ≠ d.nanos →
    Nat.dist (k * one) (units * perSecond) = Nat.dist (d.nanos * one) (units * perSecond) →
    Even d.nanos

theorem nearestTo_of_ofFloat {negative : Bool} {u : Nat} (h : ofFloat (.finite negative u) = .ok d) :
    NearestTo u d := by
  rw [ofFloat] at h
  split at h
  · cases h
  · split at h
    · cases h
    · cases h
      exact ⟨fun k => Binary64.roundDiv_nearest Binary64.one_pos k,
        fun hne htie => (Binary64.roundDiv_tie Binary64.one_pos hne htie).2⟩

theorem readDuration_value {x : Seconds} (h : x.toDuration = .ok d) :
    Config.readDuration x.value = .ok d := by
  cases x with
  | whole n =>
    rw [value, Config.readDuration, if_pos (Int.natCast_nonneg n), Int.toNat_natCast]
    cases h
    rfl
  | float x =>
    have hx : ofFloat x = .ok d := h
    rw [value, Config.readDuration, Config.readFloatSeconds, hx]

/-! ## Both together -/

/-- Below `2 ^ k` seconds the error is half of `2 ^ k` steps at most. -/
theorem roundUnits_within_steps {n c k : Nat} (hc : 0 < c) (h : n < c * (2 ^ k * one)) :
    2 * Nat.dist (roundUnits n c * c) n ≤ c * (2 ^ k * step) := by
  have hstep : 2 ^ k * step = 2 ^ (k + 1021) := by rw [step, Nat.pow_add]
  have hone : 2 ^ k * one = 2 ^ (k + 1021 + 53) := by
    rw [one_eq_pow, ← Nat.pow_add, Nat.add_assoc k]
  calc 2 * Nat.dist (roundUnits n c * c) n
    _ ≤ c * Binary64.spacing n c := Binary64.roundUnits_within hc
    _ ≤ c * (2 ^ k * step) := by
      rw [hstep]
      exact Nat.mul_le_mul_left c (Binary64.spacing_le (hone ▸ h))

/-- The fraction is rounded by half a step at most, and stays below a second. -/
theorem fraction_within (d : Duration) :
    2 * Nat.dist (roundUnits (d.subsec * one) perSecond * perSecond) (d.subsec * one)
        ≤ perSecond * step ∧
      roundUnits (d.subsec * one) perSecond < one := by
  have hlt : d.subsec * one < perSecond * (2 ^ 0 * one) := by
    rw [Nat.pow_zero, Nat.one_mul]
    exact Nat.mul_lt_mul_of_pos_right d.subsec_lt Binary64.one_pos
  have hwithin := roundUnits_within_steps (by decide) hlt
  rw [Nat.pow_zero, Nat.one_mul] at hwithin
  refine ⟨hwithin, ?_⟩
  have hsub : d.subsec * one ≤ 999999999 * one :=
    Nat.mul_le_mul_right one (Nat.le_of_lt_succ d.subsec_lt)
  have hone := one_eq
  have hpos := step_pos
  generalize roundUnits (d.subsec * one) perSecond = f at *
  rw [perSecond, Nat.dist] at hwithin
  omega

/-- A fraction of a second is not rounded to nothing. -/
theorem fraction_pos (h : d.subsec ≠ 0) : 0 < roundUnits (d.subsec * one) perSecond := by
  have hwithin := (fraction_within d).1
  have hle : 1 * one ≤ d.subsec * one := Nat.mul_le_mul_right one (Nat.pos_of_ne_zero h)
  have hone := one_eq
  have hpos := step_pos
  rw [Nat.pos_iff_ne_zero]
  intro hzero
  rw [hzero, perSecond, Nat.dist] at hwithin
  omega

/-- The errors of the two roundings stay below half a nanosecond. -/
theorem floatOf_near (h : d.secs < 2 ^ 23) :
    ∃ u, floatOf d = .finite false u ∧ u < UInt64.size * one ∧
      2 * Nat.dist (d.nanos * one) (u * perSecond) < one := by
  obtain ⟨hfraction, hlt⟩ := fraction_within d
  have hwhole : roundUnits (d.secs * one) 1 = d.secs * one :=
    Binary64.roundUnits_of_representable ⟨d.secs, 1074, by omega, by rw [one_eq_pow]⟩
  refine ⟨_, rfl, ?_⟩
  rw [hwhole]
  generalize roundUnits (d.subsec * one) perSecond = f at *
  have hsecs : (d.secs + 1) * one ≤ 2 ^ 23 * one := Nat.mul_le_mul_right one h
  rw [Nat.add_one_mul] at hsecs
  have hsum := roundUnits_within_steps (n := d.secs * one + f) (k := 23) Nat.one_pos (by omega)
  generalize roundUnits (d.secs * one + f) 1 = u at *
  have hnanos : d.nanos * one = d.secs * one * 1000000000 + d.subsec * one := by
    rw [d.nanos_eq, perSecond]
    ring
  have hone := one_eq
  have hpos := step_pos
  rw [hnanos]
  simp only [perSecond, Nat.dist, UInt64.size] at *
  -- In steps: 10 ^ 9 * (1 + 2 ^ 23) is less than 2 ^ 53.
  constructor <;> omega

theorem toDuration_whole (h : d.subsec = 0) : (ofDuration d).toDuration = .ok d := by
  rw [ofDuration, if_pos h]
  show Except.ok (Duration.ofParts d.secs 0) = _
  rw [← h, d.ofParts_secs_subsec]

theorem toDuration_ofDuration (h : d.secs < 2 ^ 23) : (ofDuration d).toDuration = .ok d := by
  by_cases hsub : d.subsec = 0
  · exact toDuration_whole hsub
  · obtain ⟨u, hu, hlt, hnear⟩ := floatOf_near h
    rw [ofDuration, if_neg hsub, hu, toDuration, ofFloat, if_neg (by simp), if_neg (Nat.not_le.2 hlt),
      Binary64.roundDiv_eq_of_near hnear]

-- Here the floats are 1.86 nanoseconds apart, and one nanosecond becomes two.
example : (ofDuration (.ofParts 8388608 1)).toDuration = .ok (.ofParts 8388608 2) := by
  decide +kernel

/-- **Below `2 ^ 23` seconds no nanosecond is lost.** What is written is a whole number of seconds,
or the float that the rules of `Expresses` give, with every rounding to the nearest. What is read
from it, as a number and as the value of a setting, is the nearest duration, and that has the
seconds and the nanoseconds that were written. -/
theorem fraction_read_back {s ns : Nat} (hs : s < 8388608) (hns : ns < 1000000000) :
    ∃ x d, ofDuration (.ofParts s ns) = x ∧ Expresses s ns x ∧
      x.toDuration = .ok d ∧ Config.readDuration x.value = .ok d ∧
      (∀ negative u, x = .float (.finite negative u) → NearestTo u d) ∧
      d.secs = s ∧ d.subsec = ns := by
  have hsecs := Duration.secs_ofParts (s := s) hns
  have hsubsec := Duration.subsec_ofParts (s := s) hns
  have hwritten := expresses_ofDuration (.ofParts s ns)
  rw [hsecs, hsubsec] at hwritten
  have hback := toDuration_ofDuration (d := .ofParts s ns) (by rw [hsecs]; exact hs)
  refine ⟨_, _, rfl, hwritten, hback, readDuration_value hback, fun negative u hx => ?_, hsecs,
    hsubsec⟩
  rw [hx] at hback
  exact nearestTo_of_ofFloat hback

/-- The last nanosecond before `2 ^ 23` seconds. -/
theorem fraction_read_back_last :
    (8388607 < 8388608 ∧ 999999999 < 1000000000) ∧
      ∃ x d, ofDuration (.ofParts 8388607 999999999) = x ∧ Expresses 8388607 999999999 x ∧
        x.toDuration = .ok d ∧ Config.readDuration x.value = .ok d ∧
        (∀ negative u, x = .float (.finite negative u) → NearestTo u d) ∧
        d.secs = 8388607 ∧ d.subsec = 999999999 :=
  ⟨by decide, fraction_read_back (by decide) (by decide)⟩

end Seconds

end StreamServer
