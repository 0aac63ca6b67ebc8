/-
The file of a configuration, line by line. It has one line for each setting
that is set: a key, and a value in a form that the reader takes back. So the
text of a configuration gives its settings again, each as its own value is
read; of the ten only the durations may be read as something else than was
written.
-/
import Mathlib
import StreamServer.Config.File
import StreamServer.Proofs.FloatText
import StreamServer.Proofs.FractionalSeconds
import StreamServer.Proofs.SettingKeys

namespace StreamServer

namespace Toml

/-! ## Lines of keys and values -/

/-- A key that is written without quotes. -/
def IsBareKey (key : String) : Prop :=
  key.toList.isEmpty = false ∧ key.toList.all isBareKeyChar = true

instance (key : String) : Decidable (IsBareKey key) := inferInstanceAs (Decidable (_ ∧ _))

/-- The text of a value, which is read back up to the end of its line. -/
structure Written (text : String) (v : Value) : Prop where
  start : ∀ rest, skipBlanks (text.toList ++ '\n' :: rest) = text.toList ++ '\n' :: rest
  read : ∀ depth rest, value? depth (text.toList ++ '\n' :: rest) = some (v, '\n' :: rest)

theorem skipBlanks_cons {c : Char} (hspace : c ≠ ' ') (htab : c ≠ '\t') (rest : List Char) :
    skipBlanks (c :: rest) = c :: rest := by
  simp [skipBlanks, isBlank, hspace, htab]

theorem written_string (s : String) : Written (writeString s) (.text s) where
  start rest := by
    obtain ⟨more, hm⟩ := writeStringAs_head s.toList (stringForm s.toList)
    rw [writeString, String.toList_ofList]
    rcases hm with hm | hm <;> rw [hm] <;> rfl
  read depth rest := value?_writeString depth s rest

theorem written_nat {n : Nat} (h : n < Nat.pow 2 63) : Written (toString n) (.integer n) where
  start rest := by
    rw [toList_toString]
    cases hd : digits n with
    | nil => exact absurd hd Nat.toDigits_ne_nil
    | cons c cs =>
      have hc : c.isDigit = true := isDigit_of_mem (n := n) (by simp [hd])
      exact skipBlanks_cons (ne_of_isDigit hc rfl) (ne_of_isDigit hc rfl) _
  read depth rest := value?_toString depth h rest

theorem written_float {u : Nat} (hu : Binary64.Representable u) (hpos : 0 < u)
    (hlt : u < Binary64.overflow) :
    Written (writeFloat (.finite false u)) (.float (.finite false u)) where
  start rest := by
    obtain ⟨whole, fraction, hwrites, htext⟩ := Binary64.pointText_writes hu hpos
    rw [writeFloat, htext]
    cases hd : whole with
    | nil => exact absurd hd hwrites.form.whole_ne
    | cons c cs =>
      have hc : c.isDigit = true := hwrites.form.whole_digits c (by simp [hd])
      exact skipBlanks_cons (ne_of_isDigit hc rfl) (ne_of_isDigit hc rfl) _
  read depth rest := Binary64.value?_pointText hu hpos hlt depth rest

theorem ne_of_isBareKeyChar {c x : Char} (h : isBareKeyChar c = true) (hx : isBareKeyChar x = false) :
    c ≠ x := by
  rintro rfl
  rw [h] at hx
  cases hx

theorem toList_line (key text : String) :
    (line key text).toList = key.toList ++ ' ' :: '=' :: ' ' :: (text.toList ++ ['\n']) := by
  simp [line]

section

variable {key : String} (hk : IsBareKey key)

include hk

theorem IsBareKey.chars : ∀ c ∈ key.toList, isBareKeyChar c = true := List.all_eq_true.1 hk.2

/-- A line starts with the first character of its key. -/
theorem IsBareKey.exists_cons : ∃ c cs, key.toList = c :: cs ∧ isBareKeyChar c = true := by
  cases hc : key.toList with
  | nil => simp [IsBareKey, hc] at hk
  | cons c cs => exact ⟨c, cs, rfl, hk.chars c (by simp [hc])⟩

theorem IsBareKey.skipBlanks (rest : List Char) :
    skipBlanks (key.toList ++ rest) = key.toList ++ rest := by
  obtain ⟨c, cs, hcs, hc⟩ := hk.exists_cons
  rw [hcs]
  exact skipBlanks_cons (ne_of_isBareKeyChar hc rfl) (ne_of_isBareKeyChar hc rfl) _

theorem IsBareKey.simpleKey? (rest : List Char) :
    simpleKey? (key.toList ++ ' ' :: rest) = some (key, ' ' :: rest) := by
  have htake : (key.toList ++ ' ' :: rest).takeWhile isBareKeyChar = key.toList := by
    rw [List.takeWhile_append_of_pos hk.chars]
    exact (List.append_nil _ :)
  have hdrop : (key.toList ++ ' ' :: rest).dropWhile isBareKeyChar = ' ' :: rest :=
    List.dropWhile_append_of_pos hk.chars
  obtain ⟨c, cs, hcs, hc⟩ := hk.exists_cons
  rw [Toml.simpleKey?, htake, hdrop, String.ofList_toList, if_neg]
  · simp [hk.1]
  all_goals
    intro more hm
    rw [hcs] at hm
    exact ne_of_isBareKeyChar hc rfl (List.cons.inj hm).1

theorem IsBareKey.key? (rest : List Char) :
    key? (key.toList ++ ' ' :: '=' :: rest) = some (([], key), '=' :: rest) := by
  have hparts : keyParts ((key.toList ++ ' ' :: '=' :: rest).length + 1)
      (key.toList ++ ' ' :: '=' :: rest) = some ([key], '=' :: rest) := by
    rw [keyParts, hk.skipBlanks, hk.simpleKey?]
    rfl
  rw [Toml.key?, hparts]
  rfl

theorem IsBareKey.keyLine (d : Draft) {text : String} {v : Value} (hw : Written text v)
    (hnew : d.entries.get? key = none) (rest : List Char) :
    keyLine d ((line key text).toList ++ rest) =
      some ({ d with entries := d.entries ++ [(key, v)] }, rest) := by
  have hadd : d.add [] key v = some { d with entries := d.entries ++ [(key, v)] } := by
    simp [Draft.add, addKey, alter, hnew]
  have hvalue : value? (depthLimit - 1) (Toml.skipBlanks (' ' :: (text.toList ++ '\n' :: rest))) =
      some (v, '\n' :: rest) := by
    have hblank : Toml.skipBlanks (' ' :: (text.toList ++ '\n' :: rest)) = _ := hw.start rest
    rw [hblank, hw.read]
  rw [toList_line, List.append_assoc, List.cons_append, List.cons_append, List.cons_append,
    List.append_assoc, List.singleton_append, Toml.keyLine, hk.key?]
  simp only [Option.bind_eq_bind, Option.bind_some, expect?, if_true, hvalue, hadd]
  rfl

/-- Nothing else starts with a character of a key. -/
theorem IsBareKey.expression (d : Draft) (rest : List Char) :
    expression d (key.toList ++ rest) = Toml.keyLine d (key.toList ++ rest) := by
  obtain ⟨c, cs, hcs, hc⟩ := hk.exists_cons
  rw [hcs, List.cons_append]
  have hne : ∀ x tail, isBareKeyChar x = false → c :: (cs ++ rest) ≠ x :: tail :=
    fun x tail hx h => ne_of_isBareKeyChar hc hx (List.cons.inj h).1
  rw [Toml.expression]
  all_goals exact fun tail => hne _ _ rfl

end

/-- A key, the text of its value, and the value that is read back. -/
structure Setting where
  key : String
  text : String
  value : Value

namespace Setting

/-- The line of a setting is read back. -/
structure Sound (s : Setting) : Prop where
  key : IsBareKey s.key
  text : Written s.text s.value

/-- A setting whose value is a string. -/
def ofString (key s : String) : Setting := ⟨key, writeString s, .text s⟩

/-- A setting whose value is a natural number. -/
def ofNat (key : String) (n : Nat) : Setting := ⟨key, toString n, .integer n⟩

/-- A setting whose value is a number of seconds. -/
def ofSeconds (key : String) : Seconds → Setting
  | .whole n => ofNat key n
  | .float x => ⟨key, writeFloat x, .float x⟩

theorem sound_ofString {key : String} (hk : IsBareKey key) (s : String) : (ofString key s).Sound :=
  ⟨hk, written_string s⟩

theorem sound_ofNat {key : String} (hk : IsBareKey key) {n : Nat} (h : n < Nat.pow 2 63) :
    (ofNat key n).Sound :=
  ⟨hk, written_nat h⟩

@[simp] theorem key_ofSeconds (key : String) (x : Seconds) : (ofSeconds key x).key = key := by
  cases x <;> rfl

@[simp] theorem value_ofSeconds (key : String) (x : Seconds) : (ofSeconds key x).value = x.value := by
  cases x <;> rfl

theorem text_ofSeconds_float (key : String) (x : Binary64) :
    (ofSeconds key (.float x)).text = writeFloat x := rfl

def toLine (s : Setting) : String := line s.key s.text

def entry (s : Setting) : String × Value := (s.key, s.value)

end Setting

theorem expressions_line {s : Setting} (hs : s.Sound) {d : Draft} (hnew : d.entries.get? s.key = none)
    (n : Nat) (rest : List Char) :
    expressions (n + 1) d (s.toLine.toList ++ rest) =
      expressions n { d with entries := d.entries ++ [s.entry] } rest := by
  have hread := hs.key.keyLine d hs.text hnew rest
  rw [toList_line, List.append_assoc] at hread
  rw [← hs.key.expression] at hread
  rw [Setting.toLine, toList_line, List.append_assoc, expressions, hs.key.skipBlanks]
  split
  · rename_i hnil
    obtain ⟨c, cs, hcs, -⟩ := hs.key.exists_cons
    simp [hcs] at hnil
  · rw [hread]
    rfl

/-- Lines whose keys differ are read one after another. -/
theorem expressions_lines {settings : List Setting} (hsound : ∀ s ∈ settings, s.Sound)
    (hnodup : (settings.map (·.key)).Nodup) {d : Draft}
    (hnew : ∀ s ∈ settings, d.entries.get? s.key = none) {n : Nat}
    (hn : (settings.flatMap (·.toLine.toList)).length < n) :
    expressions n d (settings.flatMap (·.toLine.toList)) =
      some { d with entries := d.entries ++ settings.map (·.entry) } := by
  obtain ⟨n, rfl⟩ := Nat.exists_eq_add_one.2 (Nat.zero_lt_of_lt hn)
  induction settings generalizing d n with
  | nil => simp [expressions, skipBlanks]
  | cons s settings ih =>
    have hs := hsound s (by simp)
    rw [List.map_cons, List.nodup_cons] at hnodup
    have hlater : ∀ t ∈ settings, (d.entries ++ [s.entry]).get? t.key = none := by
      intro t ht
      have hne : t.key ≠ s.key := fun h => hnodup.1 (h ▸ List.mem_map_of_mem ht)
      have hold : d.entries.lookup t.key = none := hnew t (by simp [ht])
      simp [Entries.get?, List.lookup_append, hold, Setting.entry, List.lookup_cons,
        beq_false_of_ne hne]
    have hlen : (settings.flatMap (·.toLine.toList)).length < n := by
      simp only [List.flatMap_cons, List.length_append, Setting.toLine, toList_line,
        List.length_cons] at hn ⊢
      omega
    obtain ⟨n, rfl⟩ := Nat.exists_eq_add_one.2 (Nat.zero_lt_of_lt hlen)
    have hrest := ih (fun t ht => hsound t (by simp [ht])) hnodup.2
      (d := { d with entries := d.entries ++ [s.entry] }) hlater n hlen
    rw [List.flatMap_cons, expressions_line hs (hnew s (by simp)), hrest]
    simp

/-- A document of lines whose keys differ has their values as its entries. -/
theorem read?_lines {settings : List Setting} (hsound : ∀ s ∈ settings, s.Sound)
    (hnodup : (settings.map (·.key)).Nodup) :
    read? (String.join (settings.map (·.toLine))) = some (settings.map (·.entry)) := by
  have hmark : ∀ rest, settings.flatMap (·.toLine.toList) ≠ '\ufeff' :: rest := by
    intro rest h
    cases settings with
    | nil => cases h
    | cons s settings =>
      obtain ⟨c, cs, hcs, hc⟩ := (hsound s (by simp)).key.exists_cons
      rw [List.flatMap_cons, Setting.toLine, toList_line, hcs] at h
      exact ne_of_isBareKeyChar hc rfl (List.cons.inj h).1
  unfold read?
  rw [String.toList_join, List.flatMap_map]
  split
  · rename_i cs h
    exact absurd h (hmark cs)
  · have hread := expressions_lines hsound hnodup (d := .empty) (fun _ _ => rfl) (Nat.lt_add_one _)
    dsimp only
    rw [hread]
    rfl

end Toml

namespace Seconds

open Binary64 (one overflow Representable roundUnits)
open Duration (perSecond)

variable {d : Duration}

attribute [local irreducible] one overflow

/-- A number that can be written: a whole one that is not too large, or a positive float. -/
inductive Fits : Seconds → Prop
  | whole {n : Nat} (h : n < Nat.pow 2 63) : Fits (.whole n)
  | float {u : Nat} (hu : Representable u) (hpos : 0 < u) (hlt : u < overflow) :
    Fits (.float (.finite false u))

theorem Fits.sound {x : Seconds} (h : x.Fits) {key : String} (hk : Toml.IsBareKey key) :
    (Toml.Setting.ofSeconds key x).Sound := by
  cases h with
  | whole h => exact Toml.Setting.sound_ofNat hk h
  | float hu hpos hlt => exact ⟨hk, Toml.written_float hu hpos hlt⟩

theorem representable_pow_mul_one (k : Nat) : Representable (2 ^ k * one) :=
  ⟨1, k + 1074, by decide, by rw [one_eq_pow, Nat.pow_add, Nat.one_mul]⟩

theorem pow_65_lt_overflow : 2 ^ 65 * one < overflow := by decide +kernel

/-- The float of a duration is far from too large. -/
theorem fits_floatOf (hsize : d.secs < UInt64.size) (h : d.subsec ≠ 0) :
    Fits (.float (floatOf d)) := by
  have hfraction := fraction_pos h
  have hbelow := (fraction_within d).2
  have hwhole : roundUnits (d.secs * one) 1 ≤ 2 ^ 64 * one :=
    (representable_pow_mul_one 64).roundUnits_le Nat.one_pos
      (by rw [Nat.mul_one]; exact Nat.mul_le_mul_right one hsize.le)
  refine .float (Binary64.representable_roundUnits Nat.one_pos) ?_ ?_
  · have hle : roundUnits (d.subsec * one) perSecond ≤ _ :=
      (Binary64.representable_roundUnits (by decide)).le_roundUnits Nat.one_pos
        (n := roundUnits (d.secs * one) 1 + roundUnits (d.subsec * one) perSecond) (by omega)
    exact hfraction.trans_le hle
  · exact ((representable_pow_mul_one 65).roundUnits_le Nat.one_pos (by omega)).trans_lt
      pow_65_lt_overflow

/-- What is written for a duration is the text of its number of seconds. -/
theorem fits_ofDuration {text : String} (hsize : d.secs < UInt64.size)
    (h : Config.writeDuration d = some text) :
    (ofDuration d).Fits ∧ ∀ key, (Toml.Setting.ofSeconds key (ofDuration d)).text = text := by
  rw [Config.writeDuration] at h
  by_cases hsub : d.subsec = 0
  · rw [ofDuration, if_pos hsub] at h ⊢
    dsimp only at h
    rw [Toml.writeNat?, Option.ite_none_right_eq_some, Option.some_inj] at h
    exact ⟨.whole h.1, fun _ => h.2⟩
  · rw [ofDuration, if_neg hsub] at h ⊢
    dsimp only at h
    rw [Option.some_inj] at h
    refine ⟨fits_floatOf hsize hsub, fun key => ?_⟩
    rw [Toml.Setting.text_ofSeconds_float, h]

end Seconds

namespace Config

open Toml (Setting)

/-! ## The settings of a configuration -/

/-- The settings of a configuration as they stand in its file. -/
def settings (c : Config) : List Setting :=
  [Setting.ofString "mode" c.mode.text, Setting.ofString "local_name" c.localName,
      Setting.ofString "bind_address" c.bindAddress]
    ++ (c.remoteHost.map (Setting.ofString "remote_host")).toList
    ++ [Setting.ofNat "remote_port" c.remotePort.toNat,
      Setting.ofSeconds "retry_delay" (Seconds.ofDuration c.retryDelay),
      Setting.ofSeconds "ping_timeout" (Seconds.ofDuration c.pingTimeout),
      Setting.ofSeconds "connect_timeout" (Seconds.ofDuration c.connectTimeout)]
    ++ (c.maxSessions.map fun n => Setting.ofNat "max_sessions" n.toNat).toList
    ++ [Setting.ofNat "address_capacity" c.addressCapacity.toNat]

/-- The durations among the settings. -/
def durations (c : Config) : List Duration := [c.retryDelay, c.pingTimeout, c.connectTimeout]

theorem nodup_settings (c : Config) : (c.settings.map (·.key)).Nodup := by
  cases hr : c.remoteHost <;> cases hm : c.maxSessions <;>
    simp [settings, hr, hm, Setting.ofString, Setting.ofNat]

theorem isSome_writeDuration (d : Duration) :
    (writeDuration d).isSome ↔ (d.subsec = 0 → d.secs < Nat.pow 2 63) := by
  rw [writeDuration, Seconds.ofDuration]
  by_cases h : d.subsec = 0
  · rw [if_pos h]
    dsimp only
    simp only [Toml.writeNat?, Option.isSome_ite, h, true_implies]
  · rw [if_neg h]
    simp [h]

/-- Only a number that is too large for an integer cannot be written. -/
theorem exists_render_iff (c : Config) :
    (∃ text, c.render = .ok text) ↔
      (∀ d ∈ c.durations, d.subsec = 0 → d.secs < Nat.pow 2 63) ∧
        c.addressCapacity.toNat < Nat.pow 2 63 := by
  have hlines : (∃ text, c.render = .ok text) ↔ c.lines.isSome := by
    rw [render]
    cases c.lines <;> simp
  have haddress : (Toml.writeNat? c.addressCapacity.toNat).isSome ↔
      c.addressCapacity.toNat < Nat.pow 2 63 := by
    simp only [Toml.writeNat?, Option.isSome_ite]
  rw [hlines, ← haddress]
  simp only [durations, List.forall_mem_cons, List.not_mem_nil, false_implies, implies_true, and_true,
    ← isSome_writeDuration, lines]
  cases writeDuration c.retryDelay <;> cases writeDuration c.pingTimeout <;>
    cases writeDuration c.connectTimeout <;> cases Toml.writeNat? c.addressCapacity.toNat <;> simp

/-- The lines of a configuration are those of its settings, and each is read back. -/
theorem lines_eq_some {c : Config} (hsize : ∀ d ∈ c.durations, d.secs < UInt64.size)
    {ls : List String} (h : c.lines = some ls) :
    ls = c.settings.map (·.toLine) ∧ ∀ s ∈ c.settings, s.Sound := by
  simp only [durations, List.forall_mem_cons, List.not_mem_nil, false_implies, implies_true,
    and_true] at hsize
  simp only [lines, Option.bind_eq_bind, Option.bind_eq_some_iff, Toml.writeNat?,
    Option.ite_none_right_eq_some] at h
  obtain ⟨r, hr, p, hp, k, hk, a, ⟨hlt, ha⟩, h⟩ := h
  obtain ⟨hr, hrtext⟩ := Seconds.fits_ofDuration hsize.1 hr
  obtain ⟨hp, hptext⟩ := Seconds.fits_ofDuration hsize.2.1 hp
  obtain ⟨hk, hktext⟩ := Seconds.fits_ofDuration hsize.2.2 hk
  constructor
  · obtain rfl := Option.some.inj ha
    obtain rfl := Option.some.inj h
    cases hrh : c.remoteHost <;> cases hm : c.maxSessions <;>
      simp [settings, hrtext, hptext, hktext, hrh, hm, Setting.toLine, Setting.ofString, Setting.ofNat]
  · have hport : c.remotePort.toNat < Nat.pow 2 63 := Nat.lt_trans c.remotePort.toNat_lt (by decide)
    simp only [settings, List.forall_mem_append, List.forall_mem_cons, List.not_mem_nil,
      false_implies, implies_true, and_true, Option.mem_toList, Option.map_eq_some_iff]
    refine ⟨⟨⟨⟨⟨?_, ?_, ?_⟩, ?_⟩, ?_, ?_, ?_, ?_⟩, ?_⟩, ?_⟩
    · exact Setting.sound_ofString (by decide) _
    · exact Setting.sound_ofString (by decide) _
    · exact Setting.sound_ofString (by decide) _
    · rintro _ ⟨host, -, rfl⟩
      exact Setting.sound_ofString (by decide) _
    · exact Setting.sound_ofNat (by decide) hport
    · exact hr.sound (by decide)
    · exact hp.sound (by decide)
    · exact hk.sound (by decide)
    · rintro _ ⟨n, -, rfl⟩
      exact Setting.sound_ofNat (by decide) (Nat.lt_trans n.toNat_lt (by decide))
    · exact Setting.sound_ofNat (by decide) hlt

/-- Takes settings in one after another. -/
def taking (b : Config) (ss : List Setting) : Except ValueError Config :=
  ss.foldlM (fun c s => c.set s.key s.value) b

theorem ofEntries_map_entry (ss : List Setting) : ofEntries (ss.map (·.entry)) = standard.taking ss :=
  List.foldlM_map

/-- What taking a setting in does to a configuration. -/
def Takes (s : Setting) (change : Config → Config) : Prop :=
  ∀ b : Config, b.set s.key s.value = .ok (change b)

theorem Takes.cons {s : Setting} {change : Config → Config} (h : Takes s change) (b : Config)
    (ss : List Setting) : b.taking (s :: ss) = (change b).taking ss := by
  rw [taking, List.foldlM_cons, h]
  rfl

/-- A setting that may be missing, where that leaves the configuration as it is. -/
theorem Takes.option {α : Type} {f : α → Setting} (change : Option α → Config → Config)
    (h : ∀ x, Takes (f x) (change (some x))) {b : Config} (hnone : change none b = b) (o : Option α)
    (ss : List Setting) : b.taking ((o.map f).toList ++ ss) = (change o b).taking ss := by
  cases o with
  | none => rw [hnone]; rfl
  | some x => exact (h x).cons b ss

/-- A duration is taken in as what is read for its number of seconds. -/
theorem taking_ofSeconds {key : String} {change : Config → Duration → Config}
    (h : ∀ b v, set b key v = (readDuration v).map (change b)) (b : Config) (x : Seconds)
    (ss : List Setting) :
    b.taking (Setting.ofSeconds key x :: ss) =
      readDuration x.value >>= fun d => (change b d).taking ss := by
  rw [taking, List.foldlM_cons, Setting.key_ofSeconds, Setting.value_ofSeconds, h]
  cases readDuration x.value <;> rfl

/-- A configuration with its durations as they are read from what is written for them. -/
def reread (c : Config) : Except ValueError Config := do
  let retryDelay ← readDuration (Seconds.ofDuration c.retryDelay).value
  let pingTimeout ← readDuration (Seconds.ofDuration c.pingTimeout).value
  let connectTimeout ← readDuration (Seconds.ofDuration c.connectTimeout).value
  return { c with retryDelay, pingTimeout, connectTimeout }

/-- Every setting but the durations is taken back as it was, and those that are missing were at their
defaults. -/
theorem ofEntries_settings (c : Config) : ofEntries (c.settings.map (·.entry)) = c.reread := by
  have hmode : Takes (.ofString "mode" c.mode.text) ({ · with mode := c.mode }) :=
    fun b => b.set_of_means (k := .mode) (.name c.mode)
  have hname : Takes (.ofString "local_name" c.localName) ({ · with localName := c.localName }) :=
    fun b => b.set_of_means (k := .localName) rfl
  have hbind : Takes (.ofString "bind_address" c.bindAddress)
      ({ · with bindAddress := c.bindAddress }) :=
    fun b => b.set_of_means (k := .bindAddress) rfl
  have hhost (host : String) : Takes (.ofString "remote_host" host)
      ({ · with remoteHost := some host }) :=
    fun b => b.set_of_means (k := .remoteHost) (x := some host) rfl
  have hport : Takes (.ofNat "remote_port" c.remotePort.toNat)
      ({ · with remotePort := c.remotePort }) :=
    fun b => b.set_of_means (k := .remotePort) rfl
  have hsessions (n : UInt32) : Takes (.ofNat "max_sessions" n.toNat)
      ({ · with maxSessions := some n }) :=
    fun b => b.set_of_means (k := .maxSessions) (x := some n) rfl
  have haddress : Takes (.ofNat "address_capacity" c.addressCapacity.toNat)
      ({ · with addressCapacity := c.addressCapacity }) :=
    fun b => b.set_of_means (k := .addressCapacity) rfl
  have hretry (b : Config) (v : Value) : b.set "retry_delay" v =
      (readDuration v).map fun d => { b with retryDelay := d } := b.set_name .retryDelay v
  have hping (b : Config) (v : Value) : b.set "ping_timeout" v =
      (readDuration v).map fun d => { b with pingTimeout := d } := b.set_name .pingTimeout v
  have hconnect (b : Config) (v : Value) : b.set "connect_timeout" v =
      (readDuration v).map fun d => { b with connectTimeout := d } := b.set_name .connectTimeout v
  rw [ofEntries_map_entry]
  simp only [settings, List.append_assoc, List.cons_append, List.nil_append]
  rw [hmode.cons, hname.cons, hbind.cons,
    Takes.option (fun host b => { b with remoteHost := host }) hhost rfl, hport.cons, reread]
  -- The durations are read in the same order on both sides, and the first failure ends both.
  rw [taking_ofSeconds hretry]
  refine bind_congr fun r => ?_
  rw [taking_ofSeconds hping]
  refine bind_congr fun p => ?_
  rw [taking_ofSeconds hconnect]
  refine bind_congr fun k => ?_
  rw [Takes.option (fun n b => { b with maxSessions := n }) hsessions rfl, haddress.cons]
  rfl

/-- The text of a configuration gives the configuration back, but for what its durations are read
as. -/
theorem parse_of_render {c : Config} (hsize : ∀ d ∈ c.durations, d.secs < UInt64.size)
    {text : String} (h : c.render = .ok text) :
    parse text = c.reread.mapError fun e => .parse e.fault := by
  rw [render] at h
  split at h
  · rename_i ls hls
    obtain ⟨rfl, hsound⟩ := lines_eq_some hsize hls
    obtain rfl := Except.ok.inj h
    rw [parse, Toml.read?_lines hsound c.nodup_settings]
    dsimp only
    rw [ofEntries_settings]
    cases c.reread <;> rfl
  · cases h

end Config

end StreamServer
