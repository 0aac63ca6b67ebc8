/-
What becomes of a saved configuration when it is loaded. A duration with a
fraction is written as a float, and just below 2 ^ 64 seconds the nearest float
is 2 ^ 64 itself, which is no duration any more. Every other duration that can
be written is read back as the one that its number stands for.
-/
import Mathlib
import StreamServer.Proofs.SavedConfig
import StreamServer.Proofs.Settling

namespace StreamServer

namespace Seconds

open Binary64 (one overflow Representable roundUnits)
open Duration (perSecond)

variable {d : Duration} {n u : Nat}

/-! ## The largest floats below 2 ^ 64 seconds -/

theorem pow_63_mul_one : 2 ^ 63 * one = 2 ^ (1085 + 52) := by decide +kernel

theorem pow_1085_eq : 2 ^ 1085 = 2 ^ 11 * one := by decide +kernel

attribute [local irreducible] one overflow

/-- The largest float below `2 ^ 64` seconds. -/
theorem representable_last : Representable ((2 ^ 64 - 2048) * one) := by
  refine ⟨2 ^ 53 - 1, 1085, by decide, ?_⟩
  rw [pow_1085_eq, ← Nat.mul_assoc]
  omega

/-- Floats of `2 ^ 63` seconds or more are multiples of `2 ^ 11` seconds. -/
theorem secs_dvd (hu : Representable u) (h : 2 ^ 63 * one ≤ u) : 2 ^ 11 * one ∣ u := by
  rw [← pow_1085_eq]
  exact hu.dvd_of_le (by rwa [pow_63_mul_one] at h)

theorem le_last (hu : Representable u) (h : u < 2 ^ 64 * one) : u ≤ (2 ^ 64 - 2048) * one := by
  by_cases hlow : 2 ^ 63 * one ≤ u
  · obtain ⟨q, rfl⟩ := secs_dvd hu hlow
    have htop : 2 ^ 64 * one = 2 ^ 11 * one * 2 ^ 53 := by omega
    have hlast : (2 ^ 64 - 2048) * one = 2 ^ 11 * one * (2 ^ 53 - 1) := by omega
    rw [htop] at h
    rw [hlast]
    exact Nat.mul_le_mul_left _ (Nat.le_sub_one_of_lt (Nat.lt_of_mul_lt_mul_left h))
  · omega

/-- Below the middle between the last float and `2 ^ 64` seconds nothing is rounded up to that. -/
theorem roundUnits_lt (h : n < (2 ^ 64 - 1024) * one) : roundUnits n 1 < 2 ^ 64 * one := by
  by_contra hge
  have hnearest := (Binary64.rounds_roundUnits (n := n) Nat.one_pos).nearest representable_last
  rw [Nat.dist, Nat.dist] at hnearest
  omega

/-- From the middle on everything is rounded up: the last float is odd. -/
theorem le_roundUnits (h : (2 ^ 64 - 1024) * one ≤ n) : 2 ^ 64 * one ≤ roundUnits n 1 := by
  have htop := representable_pow_mul_one 64
  have hround := Binary64.rounds_roundUnits (n := n) Nat.one_pos
  by_contra hlt
  have hlast := le_last hround.representable (Nat.lt_of_not_le hlt)
  have hbelow : n < 2 ^ 64 * one := by
    by_contra hge
    exact hlt (htop.le_roundUnits Nat.one_pos (by omega))
  have hnearest := hround.nearest htop
  have htie : roundUnits n 1 = (2 ^ 64 - 2048) * one := by
    rw [Nat.dist, Nat.dist] at hnearest
    omega
  have heven := hround.even htop (by omega) (by rw [Nat.dist, Nat.dist] at *; omega)
  have hgap : Nat.dist (2 ^ 64 * one) ((2 ^ 64 - 2048) * one) = 2048 * one := by
    rw [Nat.dist]
    omega
  rw [htie, hgap, ← Nat.mul_assoc] at heven
  exact absurd (Nat.dvd_of_mul_dvd_mul_right Binary64.one_pos heven) (by decide)

/-! ## What is read -/

theorem floatOf_lt (h : d.secs < 2 ^ 64 - 1024) :
    ∃ u, floatOf d = .finite false u ∧ u < 2 ^ 64 * one := by
  have hpos := Binary64.one_pos
  have hsecs : d.secs * one < (2 ^ 64 - 1024) * one := Nat.mul_lt_mul_of_pos_right h hpos
  have hwhole := le_last (Binary64.representable_roundUnits Nat.one_pos) (roundUnits_lt hsecs)
  have hfraction := (fraction_within d).2
  exact ⟨_, rfl, roundUnits_lt (by omega)⟩

theorem floatOf_eq_top (hsize : d.secs < UInt64.size) (h : 2 ^ 64 - 1024 ≤ d.secs) :
    floatOf d = .finite false (2 ^ 64 * one) := by
  have htop := representable_pow_mul_one 64
  have hfraction := (fraction_within d).2
  have hwhole : roundUnits (d.secs * one) 1 = 2 ^ 64 * one :=
    Nat.le_antisymm
      (htop.roundUnits_le Nat.one_pos (by
        rw [Nat.mul_one]
        exact Nat.mul_le_mul_right one hsize.le))
      (le_roundUnits (Nat.mul_le_mul_right one h))
  rw [floatOf, hwhole, Binary64.roundUnits_eq_of_near Nat.one_pos htop]
  rw [Nat.dist]
  omega

/-- The first float that is no duration. -/
def tooLong : Binary64 := .finite false (2 ^ 64 * one)

/-- Is not rounded up to `2 ^ 64` seconds when it is written. -/
def StaysBelow (d : Duration) : Prop := d.subsec = 0 ∨ d.secs < 2 ^ 64 - 1024

instance (d : Duration) : Decidable (StaysBelow d) := inferInstanceAs (Decidable (_ ∨ _))

/-- What is written for such a duration is a duration. -/
theorem StaysBelow.exists_toDuration (h : StaysBelow d) :
    ∃ d', (ofDuration d).toDuration = .ok d' := by
  by_cases hsub : d.subsec = 0
  · exact ⟨d, toDuration_whole hsub⟩
  · obtain ⟨u, hu, hlt⟩ := floatOf_lt (h.resolve_left hsub)
    have hsize : ¬ UInt64.size * one ≤ u := Nat.not_le.2 hlt
    rw [ofDuration, if_neg hsub, hu, toDuration, ofFloat, if_neg (by simp), if_neg hsize]
    exact ⟨_, rfl⟩

theorem readDuration_of_not_staysBelow (hsize : d.secs < UInt64.size) (h : ¬ StaysBelow d) :
    Config.readDuration (ofDuration d).value = .error (.badSeconds tooLong .tooBig) := by
  obtain ⟨hsub, hsecs⟩ := not_or.1 h
  have hlong : ofFloat tooLong = .error .tooBig := by
    have hsize : UInt64.size * one ≤ 2 ^ 64 * one := Nat.le_refl _
    rw [tooLong, ofFloat, if_neg (by simp), if_pos hsize]
  rw [ofDuration, if_neg hsub, floatOf_eq_top hsize (Nat.le_of_not_lt hsecs), ← tooLong, value,
    Config.readDuration, Config.readFloatSeconds, hlong]

end Seconds

namespace Config

open Seconds (StaysBelow tooLong)

variable {c : Config}

theorem fault_tooLong : (ValueError.badSeconds tooLong .tooBig).fault =
    .value ("invalid duration 18446744073709552000: cannot convert float seconds to Duration: "
      ++ "value is either too big or NaN") := by
  decide +kernel

theorem reread_of_staysBelow (h : ∀ d ∈ c.durations, StaysBelow d) :
    ∃ r p k, (Seconds.ofDuration c.retryDelay).toDuration = .ok r ∧
      (Seconds.ofDuration c.pingTimeout).toDuration = .ok p ∧
      (Seconds.ofDuration c.connectTimeout).toDuration = .ok k ∧
      c.reread = .ok { c with retryDelay := r, pingTimeout := p, connectTimeout := k } := by
  obtain ⟨r, hr⟩ := (h c.retryDelay (by simp [durations])).exists_toDuration
  obtain ⟨p, hp⟩ := (h c.pingTimeout (by simp [durations])).exists_toDuration
  obtain ⟨k, hk⟩ := (h c.connectTimeout (by simp [durations])).exists_toDuration
  refine ⟨r, p, k, hr, hp, hk, ?_⟩
  rw [reread, Seconds.readDuration_value hr, Seconds.readDuration_value hp,
    Seconds.readDuration_value hk]
  rfl

/-- The first duration that is rounded up ends the reading, and each of them ends it the same way. -/
theorem reread_of_not_staysBelow (hsize : ∀ d ∈ c.durations, d.secs < UInt64.size)
    (h : ¬ ∀ d ∈ c.durations, StaysBelow d) :
    c.reread = .error (.badSeconds tooLong .tooBig) := by
  have hfails {d : Duration} (hd : d ∈ c.durations) (hlong : ¬ StaysBelow d) :=
    Seconds.readDuration_of_not_staysBelow (hsize d hd) hlong
  by_cases hr : StaysBelow c.retryDelay
  · obtain ⟨r, hrd⟩ := hr.exists_toDuration
    by_cases hp : StaysBelow c.pingTimeout
    · obtain ⟨p, hpd⟩ := hp.exists_toDuration
      have hk : ¬ StaysBelow c.connectTimeout := fun hk => h (by simp [durations, hr, hp, hk])
      rw [reread, Seconds.readDuration_value hrd, Seconds.readDuration_value hpd,
        hfails (by simp [durations]) hk]
      rfl
    · rw [reread, Seconds.readDuration_value hrd, hfails (by simp [durations]) hp]
      rfl
  · rw [reread, hfails (by simp [durations]) hr]
    rfl

/-- **What was saved can be loaded, unless a duration was rounded up to `2 ^ 64` seconds.** Every
duration is loaded as the one that its number stands for, and every other setting as it was. A
duration that has a fraction and at least `2 ^ 64 - 1024` seconds is written as a number that is
too big, and then the file cannot be loaded. -/
theorem saved_config_loads_unless_rounded_up (c : Config)
    (hsize : ∀ d ∈ c.durations, d.secs < UInt64.size) (disk : Disk) (path : String)
    (hsave : (save disk path c).1 = .ok ()) :
    ((∀ d ∈ c.durations, StaysBelow d) →
      ∃ r p k, (Seconds.ofDuration c.retryDelay).toDuration = .ok r ∧
        (Seconds.ofDuration c.pingTimeout).toDuration = .ok p ∧
        (Seconds.ofDuration c.connectTimeout).toDuration = .ok k ∧
        load (save disk path c).2 path =
          .ok { c with retryDelay := r, pingTimeout := p, connectTimeout := k }) ∧
    ((¬ ∀ d ∈ c.durations, StaysBelow d) →
      load (save disk path c).2 path = .error (.parse (.value
        ("invalid duration 18446744073709552000: cannot convert float seconds to Duration: "
          ++ "value is either too big or NaN")))) := by
  rw [load_of_save hsize hsave]
  constructor
  · intro h
    obtain ⟨r, p, k, hr, hp, hk, hreread⟩ := reread_of_staysBelow h
    refine ⟨r, p, k, hr, hp, hk, ?_⟩
    rw [hreread]
    rfl
  · intro h
    rw [reread_of_not_staysBelow hsize h, ← fault_tooLong]
    rfl

/-- Of the durations that stay below `2 ^ 64` seconds the last one with a fraction. -/
def lastBelow : Config := { retryDelay := .ofParts 18446744073709550591 999999999 }

theorem saved_config_loads_unless_rounded_up_lastBelow :
    (save bareDisk "conf/render/server.toml" lastBelow).1 = .ok () ∧
      load (save bareDisk "conf/render/server.toml" lastBelow).2 "conf/render/server.toml" =
        .ok { retryDelay := .ofSecs 18446744073709549568 } := by
  have hsave : (save bareDisk "conf/render/server.toml" lastBelow).1 = .ok () :=
    save_free free_bareDisk (by decide +kernel)
  obtain ⟨r, p, k, hr, hp, hk, hload⟩ := (saved_config_loads_unless_rounded_up lastBelow
    (by decide +kernel) bareDisk "conf/render/server.toml" hsave).1 (by decide +kernel)
  have hretry : (Seconds.ofDuration lastBelow.retryDelay).toDuration =
      .ok (.ofSecs 18446744073709549568) := by decide +kernel
  have hping : (Seconds.ofDuration lastBelow.pingTimeout).toDuration = .ok (.ofSecs 5) := by
    decide +kernel
  have hconnect : (Seconds.ofDuration lastBelow.connectTimeout).toDuration = .ok (.ofSecs 30) := by
    decide +kernel
  obtain rfl := Except.ok.inj (hretry.symm.trans hr)
  obtain rfl := Except.ok.inj (hping.symm.trans hp)
  obtain rfl := Except.ok.inj (hconnect.symm.trans hk)
  exact ⟨hsave, hload⟩

/-- A duration of the largest number of seconds and one nanosecond. -/
def longest : Config := { retryDelay := .ofParts 18446744073709551615 1 }

/-- What is saved cannot always be loaded. -/
theorem saved_longest_fails_to_load :
    longest.render = .ok ("mode = \"tcp-listen\"\nlocal_name = \"render-server\"\n"
        ++ "bind_address = \"127.0.0.1:22468\"\nremote_port = 22468\n"
        ++ "retry_delay = 18446744073709552000.0\nping_timeout = 5\nconnect_timeout = 30\n"
        ++ "address_capacity = 256\n") ∧
      (save bareDisk "conf/render/server.toml" longest).1 = .ok () ∧
      ¬ ∃ c, load (save bareDisk "conf/render/server.toml" longest).2 "conf/render/server.toml" =
        .ok c := by
  have hsize : ∀ d ∈ longest.durations, d.secs < UInt64.size := by decide +kernel
  have hsave : (save bareDisk "conf/render/server.toml" longest).1 = .ok () :=
    save_free free_bareDisk (by decide +kernel)
  refine ⟨by decide +kernel, hsave, ?_⟩
  rintro ⟨c, hload⟩
  rw [load_of_save hsize hsave, reread_of_not_staysBelow hsize (by decide +kernel)] at hload
  cases hload

end Config

end StreamServer
