/-
A float that was written is read back as the same float. It is written as its
shortest decimal, without an exponent and with a point: digits before the
point and after it, whose value is that of the decimal. Reading them rounds
the same value, so it comes to the same number.
-/
import Mathlib
import StreamServer.Proofs.ShortestDecimal
import StreamServer.Proofs.TomlText

namespace StreamServer

namespace Toml

/-! ## Numbers with a point -/

/-- Digits before and after a point, with no zero in front that could be left out. -/
structure PointForm (whole fraction : List Char) : Prop where
  whole_digits : ∀ c ∈ whole, c.isDigit = true
  fraction_digits : ∀ c ∈ fraction, c.isDigit = true
  whole_ne : whole ≠ []
  fraction_ne : fraction ≠ []
  leading : whole.head? = some '0' → whole.length = 1

namespace PointForm

variable {whole fraction : List Char}

theorem isDecimal (h : PointForm whole fraction) : IsDecimal (whole ++ '.' :: fraction) := by
  intro c hc
  rw [List.mem_append, List.mem_cons] at hc
  rcases hc with hc | rfl | hc
  · exact .inl (h.whole_digits c hc)
  · exact .inr rfl
  · exact .inl (h.fraction_digits c hc)

theorem number? (h : PointForm whole fraction) :
    number? (whole ++ '.' :: fraction) = scaled? false whole fraction 0 := by
  have hrun := digitRun?_append h.fraction_digits (.inl rfl) h.fraction_ne
  rw [List.append_nil] at hrun
  rw [number?_append h.whole_digits (.inr ⟨_, rfl⟩) h.whole_ne h.leading, decimalRest?, hrun]

end PointForm

theorem ofDigits_append {ds es : List Char} (hd : ∀ c ∈ ds, c.isDigit = true)
    (he : ∀ c ∈ es, c.isDigit = true) :
    ofDigits 10 (ds ++ es) = ofDigits 10 ds * 10 ^ es.length + ofDigits 10 es := by
  rw [ofDigits_eq hd, ofDigits_eq he, ofDigits_eq (List.forall_mem_append.2 ⟨hd, he⟩),
    Nat.ofDigitChars_append, Nat.ofDigitChars_eq_ofDigitChars_zero, Nat.mul_comm]

end Toml

namespace Binary64

open Toml (PointForm ofDigits digits)

attribute [local irreducible] one

/-! ## What is written -/

/-- A list ends with the zeros that are dropped from it. -/
theorem exists_zeros (l : List Char) :
    ∃ z, l = (l.reverse.dropWhile (· == '0')).reverse ++ List.replicate z '0' := by
  have hzeros : l.reverse.takeWhile (· == '0')
      = List.replicate (l.reverse.takeWhile (· == '0')).length '0' := by
    refine List.eq_replicate_length.2 fun c hc => ?_
    simpa using List.mem_takeWhile_imp hc
  refine ⟨(l.reverse.takeWhile (· == '0')).length, ?_⟩
  have hsplit := congrArg List.reverse
    (List.takeWhile_append_dropWhile (p := (· == '0')) (l := l.reverse))
  rw [List.reverse_append, List.reverse_reverse, hzeros, List.reverse_replicate] at hsplit
  exact hsplit.symm

/-- The digits of a number with zeros in front, more than `places` in all. -/
def widened (m places : Nat) : List Char :=
  List.replicate (places + 1 - (digits m).length) '0' ++ digits m

theorem length_widened (m places : Nat) :
    (widened m places).length = (places + 1 - (digits m).length) + (digits m).length := by
  rw [widened, List.length_append, List.length_replicate]

theorem isDigit_widened (m places : Nat) : ∀ c ∈ widened m places, c.isDigit = true := by
  refine List.forall_mem_append.2 ⟨fun c hc => ?_, fun c => Toml.isDigit_of_mem⟩
  rw [List.eq_of_mem_replicate hc]
  rfl

theorem ofDigits_widened (m places : Nat) : ofDigits 10 (widened m places) = m := by
  rw [Toml.ofDigits_eq (isDigit_widened m places), widened, Nat.ofDigitChars_append,
    Nat.ofDigitChars_replicate_zero, Nat.mul_zero]
  exact Nat.ofDigitChars_ten_toDigits

/-- A zero stands in front only where the number has too few digits. -/
theorem head?_widened {m : Nat} (hm : 0 < m) (places : Nat)
    (h : (widened m places).head? = some '0') :
    (widened m places).length = places + 1 := by
  rw [length_widened]
  by_cases hpad : places + 1 ≤ (digits m).length
  · rw [widened, Nat.sub_eq_zero_of_le hpad, List.replicate_zero, List.nil_append] at h
    exact absurd h (Toml.head?_digits hm)
  · omega

/-- A number is taken apart before the last `places` of its digits. -/
theorem pointed_cases {m : Nat} (hm : 0 < m) (places : Nat) :
    ∃ whole rest z, (∀ c ∈ whole, c.isDigit = true) ∧ (∀ c ∈ rest, c.isDigit = true) ∧
      whole ≠ [] ∧ (whole.head? = some '0' → whole.length = 1) ∧ rest.length + z = places ∧
      ofDigits 10 (whole ++ rest) * 10 ^ z = m ∧
      (pointed m places).toList = if rest.isEmpty then whole else whole ++ '.' :: rest := by
  have hlen := length_widened m places
  have hdigit := isDigit_widened m places
  have hvalue := ofDigits_widened m places
  have hhead := head?_widened hm places
  have htext : pointed m places = (
      let rest := (((widened m places).drop ((widened m places).length - places)).reverse.dropWhile
        (· == '0')).reverse
      if rest.isEmpty then String.ofList ((widened m places).take ((widened m places).length - places))
      else String.ofList ((widened m places).take ((widened m places).length - places)) ++ "."
        ++ String.ofList rest) := rfl
  generalize widened m places = ds at hlen hdigit hvalue hhead htext
  obtain ⟨z, hz⟩ := exists_zeros (ds.drop (ds.length - places))
  generalize ((ds.drop (ds.length - places)).reverse.dropWhile (· == '0')).reverse = rest at hz htext
  have hplaces : rest.length + z = places := by
    have htail := congrArg List.length hz
    rw [List.length_drop, List.length_append, List.length_replicate] at htail
    omega
  have hapart : ds = ds.take (ds.length - places) ++ rest ++ List.replicate z '0' := by
    rw [List.append_assoc, ← hz, List.take_append_drop]
  have hne : ds.length - places ≠ 0 := by omega
  rw [hapart, List.forall_mem_append, List.forall_mem_append] at hdigit
  rw [hapart, Toml.ofDigits_append (List.forall_mem_append.2 hdigit.1) hdigit.2, List.length_replicate,
    Toml.ofDigits_eq hdigit.2, Nat.ofDigitChars_replicate_zero, Nat.mul_zero, Nat.add_zero] at hvalue
  refine ⟨ds.take (ds.length - places), rest, z, hdigit.1.1, hdigit.1.2, ?_, ?_, hplaces, hvalue, ?_⟩
  · rw [Ne, List.take_eq_nil_iff]
    rintro (h | rfl)
    · exact hne h
    · exact hne (by simp)
  · intro hzero
    rw [List.head?_take, if_neg hne] at hzero
    rw [List.length_take, hhead hzero]
    omega
  · rw [htext]
    dsimp only
    split <;> simp

/-- Digits around a point that have the value of a decimal. -/
structure Decimal.Writes (x : Decimal) (whole fraction : List Char) : Prop where
  form : PointForm whole fraction
  value : ofDigits 10 (whole ++ fraction) * 10 ^ (-x.exponent).toNat =
    x.digits * 10 ^ x.exponent.toNat * 10 ^ fraction.length
  short : fraction.length ≤ (-x.exponent).toNat + 1

/-- A whole number is written with a zero after the point. -/
theorem form_zero {whole : List Char} (hdigits : ∀ c ∈ whole, c.isDigit = true) (hne : whole ≠ [])
    (hzero : whole.head? = some '0' → whole.length = 1) :
    PointForm whole ['0'] ∧ ofDigits 10 (whole ++ ['0']) = ofDigits 10 whole * 10 := by
  have hlast : ∀ c ∈ ['0'], c.isDigit = true := by simp
  refine ⟨⟨hdigits, hlast, hne, by simp, hzero⟩, ?_⟩
  rw [Toml.ofDigits_append hdigits hlast]
  rfl

theorem Decimal.text_writes {x : Decimal} (hx : 0 < x.digits) :
    ∃ whole fraction, x.Writes whole fraction ∧
      (x.text.toList = whole ++ '.' :: fraction ∨ x.text.toList = whole ∧ fraction = ['0']) := by
  obtain ⟨m, e⟩ := x
  cases e with
  | ofNat k =>
    have hpos : 0 < m * 10 ^ k := Nat.mul_pos hx (Nat.pow_pos (by decide))
    obtain ⟨hform, hvalue⟩ := form_zero
      (fun c (hc : c ∈ Toml.digits (m * 10 ^ k)) => Toml.isDigit_of_mem hc)
      Nat.toDigits_ne_nil fun h => absurd h (Toml.head?_digits hpos)
    refine ⟨_, _, ⟨hform, ?_, by simp⟩, .inr ⟨Toml.toList_toString _, rfl⟩⟩
    rw [hvalue, Toml.ofDigits_digits]
    simp
  | negSucc k =>
    obtain ⟨whole, rest, z, hwhole, hrest, hne, hzero, hplaces, hvalue, htext⟩ :=
      pointed_cases hx (k + 1)
    have hdown : (-Int.negSucc k).toNat = k + 1 := rfl
    have hup : (Int.negSucc k).toNat = 0 := rfl
    have htext' : Decimal.text ⟨m, .negSucc k⟩ = pointed m (k + 1) := rfl
    by_cases hempty : rest = []
    · subst hempty
      obtain ⟨hform, hten⟩ := form_zero hwhole hne hzero
      refine ⟨_, _, ⟨hform, ?_, by simp⟩, .inr ⟨by simpa [htext'] using htext, rfl⟩⟩
      rw [List.length_nil, Nat.zero_add] at hplaces
      rw [List.append_nil, hplaces] at hvalue
      rw [hten, hdown, hup, Nat.mul_right_comm, hvalue]
      simp
    · refine ⟨whole, rest, ⟨⟨hwhole, hrest, hne, hempty, hzero⟩, ?_, ?_⟩, .inl ?_⟩
      · rw [hdown, hup, ← hplaces, Nat.pow_add, Nat.pow_zero, Nat.mul_one,
          Nat.mul_comm (10 ^ rest.length), ← Nat.mul_assoc, hvalue]
      · rw [hdown]
        omega
      · rw [htext', htext, if_neg (by simpa using hempty)]

/-! ## What is read -/

theorem ofDecimal_eq {m k : Nat} (hm : 0 < m) (hk : k < 400) (hlen : (digits m).length ≤ k + 401) :
    ofDecimal false m (0 - (k + 1 : Nat)) = ofRatio false m (10 ^ (k + 1)) := by
  have hpos := Nat.length_toDigits_pos (b := 10) (n := m)
  rw [digits] at hlen
  have he : (0 : Int) - (k + 1 : Nat) = .negSucc k := by omega
  rw [he]
  unfold ofDecimal
  dsimp only
  rw [if_neg (by omega), if_neg (by omega)]
  rfl

/-- A decimal that reads back is read back from the digits it is written with. -/
theorem Decimal.Writes.scaled? {x : Decimal} {whole fraction : List Char} {u : Nat}
    (h : x.Writes whole fraction) (hread : x.readsAs u = true) (hpos : 0 < x.digits)
    (hdigits : x.digits ≤ 10 ^ 17) (hlow : -350 ≤ x.exponent) (hhigh : x.exponent < 310)
    (hu : u < overflow) :
    Toml.scaled? false whole fraction 0 = some (.float (.finite false u)) := by
  obtain ⟨k, hk⟩ := Nat.exists_eq_add_one.2 (List.length_pos_iff.2 h.form.fraction_ne)
  have hvalue := h.value
  have hshort := h.short
  rw [hk] at hvalue hshort
  have hdown : 0 < 10 ^ (-x.exponent).toNat := Nat.pow_pos (by decide)
  rw [readsAs_iff] at hread
  generalize hm' : ofDigits 10 (whole ++ fraction) = m at hvalue
  have hm : 0 < m := by
    rw [Nat.pos_iff_ne_zero]
    rintro rfl
    rw [Nat.zero_mul] at hvalue
    have := Nat.mul_pos (Nat.mul_pos hpos (Nat.pow_pos (n := x.exponent.toNat) (by decide : 0 < 10)))
      (Nat.pow_pos (n := k + 1) (by decide : 0 < 10))
    omega
  have hlen : (Toml.digits m).length ≤ k + 401 := by
    rw [Toml.digits, Nat.length_toDigits_le_iff (by decide) (by omega)]
    calc m ≤ m * 10 ^ (-x.exponent).toNat := Nat.le_mul_of_pos_right m hdown
      _ = x.digits * 10 ^ x.exponent.toNat * 10 ^ (k + 1) := hvalue
      _ ≤ 10 ^ 17 * 10 ^ x.exponent.toNat * 10 ^ (k + 1) :=
        Nat.mul_le_mul_right _ (Nat.mul_le_mul_right _ hdigits)
      _ = 10 ^ (17 + x.exponent.toNat + (k + 1)) := by rw [← Nat.pow_add, ← Nat.pow_add]
      _ < 10 ^ (k + 401) := Nat.pow_lt_pow_right (by decide) (by omega)
  have hround : roundUnits (m * one) (10 ^ (k + 1)) = u := by
    have hten : 0 < 10 ^ (k + 1) := Nat.pow_pos (by decide)
    rw [← hread, ← roundUnits_scale (d := 10 ^ (k + 1)) hdown,
      ← roundUnits_scale (d := 10 ^ (-x.exponent).toNat) hten,
      Nat.mul_right_comm, hvalue, Nat.mul_comm (10 ^ (k + 1))]
    congr 1
    ring
  rw [Toml.scaled?, hm', hk, ofDecimal_eq hm (by omega) hlen, ofRatio, hround, if_neg (Nat.not_le.2 hu)]
  rfl

theorem overflow_le {k : Nat} (h : 309 ≤ k) : overflow ≤ one * 10 ^ k := by
  induction k, h using Nat.le_induction with
  | base => decide +kernel
  | succ k _ ih =>
    rw [Nat.pow_succ, ← Nat.mul_assoc]
    exact ih.trans (Nat.le_mul_of_pos_right _ (by decide))

/-- A number that does not overflow has an exponent below 310. -/
theorem decimalExponent_lt {u : Nat} (hpos : 0 < u) (hu : u < overflow) : decimalExponent u < 310 := by
  by_contra hlarge
  have hten := (decimalExponent_spec hpos).1
  rw [TenLe, show (-(decimalExponent u - 1)).toNat = 0 by omega, Nat.pow_zero, Nat.mul_one] at hten
  have hover := overflow_le (k := (decimalExponent u - 1).toNat) (by omega)
  omega

theorem digits_shortest_pos {u : Nat} (hu : Representable u) (hpos : 0 < u) :
    0 < (shortest u).digits := by
  rw [Nat.pos_iff_ne_zero]
  intro hzero
  have hread := (shortest_spec hu hpos).1
  rw [readsAs_iff, hzero, Nat.zero_mul, Nat.zero_mul, roundUnits_zero (Nat.pow_pos (by decide))] at hread
  omega

/-- A positive number is written with a point. -/
theorem pointText_writes {u : Nat} (hu : Representable u) (hpos : 0 < u) :
    ∃ whole fraction, (shortest u).Writes whole fraction ∧
      (pointText (.finite false u)).toList = whole ++ '.' :: fraction := by
  obtain ⟨whole, fraction, hwrites, htext⟩ := Decimal.text_writes (digits_shortest_pos hu hpos)
  refine ⟨whole, fraction, hwrites, ?_⟩
  have hname : text (.finite false u) = (shortest u).text := by
    rw [text, signed, if_neg (by simp), unitsText, if_neg hpos.ne']
  rw [pointText, hname]
  rcases htext with htext | ⟨htext, rfl⟩
  · rw [if_neg (by simp [htext]), htext]
  · have hpoint : '.' ∉ whole := fun hc => absurd (hwrites.form.whole_digits _ hc) (by decide)
    rw [if_pos (by simp [htext, isFinite, hpoint]), String.toList_append, htext]
    rfl

/-- A positive float that was written is read back, up to the end of its line. -/
theorem value?_pointText {u : Nat} (hu : Representable u) (hpos : 0 < u) (hlt : u < overflow)
    (depth : Nat) (rest : List Char) :
    Toml.value? depth ((pointText (.finite false u)).toList ++ '\n' :: rest) =
      some (.float (.finite false u), '\n' :: rest) := by
  obtain ⟨whole, fraction, hwrites, htext⟩ := pointText_writes hu hpos
  obtain ⟨hread, hdigits, hlow, hhigh⟩ := shortest_spec hu hpos
  have hbottom := (decimalExponent_spec hpos).2.2
  have htop := decimalExponent_lt hpos hlt
  have hscaled := hwrites.scaled? hread (digits_shortest_pos hu hpos) hdigits (by omega) (by omega) hlt
  rw [htext]
  refine hwrites.form.isDecimal.value? (by simp) ?_ depth rest
  rw [hwrites.form.number?, hscaled]

end Binary64

end StreamServer
