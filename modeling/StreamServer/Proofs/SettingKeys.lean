/-
The settings of a configuration and their keys. A setting takes the values
that stand for something it can be set to, and an entry with its key changes
this setting and no other; an entry with any other key changes none.
-/
import Mathlib
import StreamServer.Config.Fields
import StreamServer.Proofs.Settling

namespace StreamServer.Config

/-! ## What values stand for -/

/-- The value stands for a mode: it is the mode's name, or a table with the name as its first key,
under which there is nothing. A table between braces has no other key. -/
inductive NamesMode : Value → Mode → Prop
  | name (m : Mode) : NamesMode (.text m.text) m
  | table {form : TableForm} {m : Mode} {v : Value} {others : Entries} (hbare : isBare form v = true)
    (halone : form.isBraced = true → others = []) : NamesMode (.table form ((m.text, v) :: others)) m

/-- The value stands for a duration: whole seconds, or the float it is the nearest duration to. -/
inductive Lasts : Value → Duration → Prop
  | whole (n : Nat) : Lasts (.integer n) (.ofSecs n)
  | float {x : Binary64} {d : Duration} (h : Seconds.ofFloat x = .ok d) : Lasts (.float x) d

variable {v : Value}

theorem map_eq_ok_iff {ε α β : Type} {f : α → β} {x : Except ε α} {b : β} :
    x.map f = .ok b ↔ ∃ a, x = .ok a ∧ f a = b := by
  cases x <;> simp [Except.map]

theorem readString_eq_ok {s : String} : readString v = .ok s ↔ v = .text s := by
  cases v <;> simp [readString]

theorem readNat_eq_ok {wanted : Wanted} {bound n : Nat} :
    readNat wanted bound v = .ok n ↔ v = .integer n ∧ n < bound := by
  cases v with
  | integer i =>
    rw [readNat, ite_eq_iff, Value.integer.injEq, Except.ok.injEq]
    simp only [reduceCtorEq, and_false, or_false]
    omega
  | _ => simp [readNat]

/-- A number that is kept as a word is kept as it is. -/
theorem readNat_map_eq_ok {α : Type} {wanted : Wanted} {size : Nat} {ofNat : Nat → α} {toNat : α → Nat}
    (hofNat : ∀ x, ofNat (toNat x) = x) (hlt : ∀ x, toNat x < size)
    (htoNat : ∀ n, n < size → toNat (ofNat n) = n) {x : α} :
    (readNat wanted size v).map ofNat = .ok x ↔ v = .integer (toNat x) := by
  simp only [map_eq_ok_iff, readNat_eq_ok]
  constructor
  · rintro ⟨n, ⟨rfl, hn⟩, rfl⟩
    rw [htoNat n hn]
  · rintro rfl
    exact ⟨toNat x, ⟨rfl, hlt x⟩, hofNat x⟩

theorem readModeName_eq_ok {name : String} {m : Mode} : readModeName name = .ok m ↔ name = m.text := by
  constructor
  · intro h
    have htext {m' : Mode} (h : some m' = some m) : m'.text = m.text :=
      congrArg Mode.text (Option.some.inj h)
    rw [readModeName] at h
    split at h
    · rename_i hname
      obtain rfl := Except.ok.inj h
      rcases ite_eq_iff.1 hname with ⟨rfl, h⟩ | ⟨-, hname⟩
      · exact htext h
      rcases ite_eq_iff.1 hname with ⟨rfl, h⟩ | ⟨-, hname⟩
      · exact htext h
      rcases ite_eq_iff.1 hname with ⟨rfl, h⟩ | ⟨-, hname⟩
      · exact htext h
      · cases hname
    · cases h
  · rintro rfl
    rw [readModeName, Mode.ofName?_text]

theorem readMode_table_eq_ok {form : TableForm} {name : String} {others : Entries} {m : Mode} :
    readMode (.table form ((name, v) :: others)) = .ok m ↔
      (form.isBraced = true → others = []) ∧ name = m.text ∧ isBare form v = true := by
  have halone : (form.isBraced = true → others = []) ↔
      ¬ (form.isBraced = true ∧ (!others.isEmpty) = true) := by simp
  by_cases hmore : form.isBraced = true ∧ (!others.isEmpty) = true
  · rw [readMode, if_pos hmore, halone]
    constructor
    · intro h
      cases h
    · rintro ⟨h, -⟩
      exact absurd hmore h
  · rw [readMode, if_neg hmore, halone, and_iff_right hmore, ← readModeName_eq_ok]
    cases readModeName name with
    | error e =>
      constructor
      · intro h
        cases h
      · rintro ⟨h, -⟩
        cases h
    | ok m' =>
      by_cases hbare : isBare form v = true <;> simp [hbare, pure, Except.pure, bind, Except.bind]

theorem readMode_eq_ok {m : Mode} : readMode v = .ok m ↔ NamesMode v m := by
  constructor
  · intro h
    cases v with
    | text name =>
      obtain rfl := readModeName_eq_ok.1 h
      exact .name m
    | table form es =>
      cases es with
      | nil => cases h
      | cons e others =>
        obtain ⟨name, w⟩ := e
        obtain ⟨halone, rfl, hbare⟩ := readMode_table_eq_ok.1 h
        exact .table hbare halone
    | null | boolean | integer | float | moment | array | tables => cases h
  · rintro (_ | ⟨hbare, halone⟩)
    · exact readModeName_eq_ok.2 rfl
    · exact readMode_table_eq_ok.2 ⟨halone, rfl, hbare⟩

theorem readFloatSeconds_eq_ok {x : Binary64} {d : Duration} :
    readFloatSeconds x = .ok d ↔ Seconds.ofFloat x = .ok d := by
  rw [readFloatSeconds]
  split <;> simp [*]

/-- The float of a negative integer is negative. -/
theorem ofFloat_ofInt_of_neg {n : Int} (hn : n < 0) :
    Seconds.ofFloat (.ofInt n) = .error .negative := by
  have hone : 1 * Binary64.one ≤ Binary64.roundUnits (n.natAbs * Binary64.one) 1 :=
    (Seconds.representable_secs (by decide)).le_roundUnits Nat.one_pos
      (by rw [Nat.mul_one]; exact Nat.mul_le_mul_right _ (by omega))
  have hpos := Binary64.one_pos
  rw [Binary64.ofInt, Binary64.ofRatio, decide_eq_true hn]
  split
  · rfl
  · rw [Seconds.ofFloat, if_pos]
    exact ⟨rfl, by omega⟩

theorem readDuration_eq_ok {d : Duration} : readDuration v = .ok d ↔ Lasts v d := by
  constructor
  · intro h
    cases v with
    | integer n =>
      rw [readDuration] at h
      split at h
      · rename_i hn
        obtain ⟨k, rfl⟩ := Int.eq_ofNat_of_zero_le hn
        obtain rfl := Except.ok.inj h
        exact .whole k
      · rename_i hn
        rw [readFloatSeconds_eq_ok, ofFloat_ofInt_of_neg (by omega)] at h
        cases h
    | float x => exact .float (readFloatSeconds_eq_ok.1 h)
    | null | boolean | text | moment | array | tables | table => cases h
  · rintro (n | h)
    · rw [readDuration, if_pos (Int.natCast_nonneg n), Int.toNat_natCast]
    · exact readFloatSeconds_eq_ok.2 h

/-- Nothing but `null` leaves a setting out. -/
theorem readOptional_eq_ok {α : Type} {read : Value → Except ValueError α} {o : Option α}
    (hnull : ∀ x, read .null ≠ .ok x) :
    readOptional read v = .ok o ↔ (v = .null ∧ o = none) ∨ ∃ x, read v = .ok x ∧ o = some x := by
  by_cases hv : v = .null
  · subst hv
    simp [readOptional, hnull, eq_comm]
  · have hread : readOptional read v = (read v).map some := by
      cases v <;> first | rfl | exact absurd rfl hv
    rw [hread]
    cases read v <;> simp [hv, Except.map, eq_comm]

theorem readOptional_map {α β : Type} (read : Value → Except ValueError α) (f : α → β) (v : Value) :
    (readOptional read v).map (·.map f) = readOptional (fun v => (read v).map f) v := by
  cases v with
  | null => rfl
  | _ =>
    simp only [readOptional]
    cases read _ <;> rfl

/-! ## Settings -/

/-- The settings, by their keys. -/
inductive Key where
  | mode
  | localName
  | bindAddress
  | remoteHost
  | remotePort
  | retryDelay
  | pingTimeout
  | connectTimeout
  | maxSessions
  | addressCapacity
deriving DecidableEq

namespace Key

def name : Key → String
  | .mode => "mode"
  | .localName => "local_name"
  | .bindAddress => "bind_address"
  | .remoteHost => "remote_host"
  | .remotePort => "remote_port"
  | .retryDelay => "retry_delay"
  | .pingTimeout => "ping_timeout"
  | .connectTimeout => "connect_timeout"
  | .maxSessions => "max_sessions"
  | .addressCapacity => "address_capacity"

/-- All settings, in the order of a file. -/
def all : List Key :=
  [.mode, .localName, .bindAddress, .remoteHost, .remotePort, .retryDelay, .pingTimeout,
    .connectTimeout, .maxSessions, .addressCapacity]

/-- The setting that an entry with this key belongs to. -/
def ofName? (name : String) : Option Key := all.find? (·.name = name)

/-- What a setting is set to. -/
abbrev Kind : Key → Type
  | .mode => Mode
  | .localName | .bindAddress => String
  | .remoteHost => Option String
  | .remotePort => UInt16
  | .retryDelay | .pingTimeout | .connectTimeout => Duration
  | .maxSessions => Option UInt32
  | .addressCapacity => UInt64

/-- The setting in a configuration. -/
def of : (k : Key) → Config → k.Kind
  | .mode, c => c.mode
  | .localName, c => c.localName
  | .bindAddress, c => c.bindAddress
  | .remoteHost, c => c.remoteHost
  | .remotePort, c => c.remotePort
  | .retryDelay, c => c.retryDelay
  | .pingTimeout, c => c.pingTimeout
  | .connectTimeout, c => c.connectTimeout
  | .maxSessions, c => c.maxSessions
  | .addressCapacity, c => c.addressCapacity

/-- Sets a setting. -/
def put : (k : Key) → Config → k.Kind → Config
  | .mode, c, x => { c with mode := x }
  | .localName, c, x => { c with localName := x }
  | .bindAddress, c, x => { c with bindAddress := x }
  | .remoteHost, c, x => { c with remoteHost := x }
  | .remotePort, c, x => { c with remotePort := x }
  | .retryDelay, c, x => { c with retryDelay := x }
  | .pingTimeout, c, x => { c with pingTimeout := x }
  | .connectTimeout, c, x => { c with connectTimeout := x }
  | .maxSessions, c, x => { c with maxSessions := x }
  | .addressCapacity, c, x => { c with addressCapacity := x }

/-- What a setting takes a value as. -/
def read : (k : Key) → Value → Except ValueError k.Kind
  | .mode, v => readMode v
  | .localName, v | .bindAddress, v => readString v
  | .remoteHost, v => readOptional readString v
  | .remotePort, v => (readNat .word16 UInt16.size v).map UInt16.ofNat
  | .retryDelay, v | .pingTimeout, v | .connectTimeout, v => readDuration v
  | .maxSessions, v => (readOptional (readNat .word32 UInt32.size) v).map (·.map UInt32.ofNat)
  | .addressCapacity, v => (readNat .size UInt64.size v).map UInt64.ofNat

/-- The value stands for what the setting is set to. -/
def Means : (k : Key) → Value → k.Kind → Prop
  | .mode, v, m => NamesMode v m
  | .localName, v, s | .bindAddress, v, s => v = .text s
  | .remoteHost, v, host => v = host.elim .null .text
  | .remotePort, v, n => v = .integer n.toNat
  | .retryDelay, v, d | .pingTimeout, v, d | .connectTimeout, v, d => Lasts v d
  | .maxSessions, v, n => v = n.elim .null fun n => .integer n.toNat
  | .addressCapacity, v, n => v = .integer n.toNat

theorem ofName?_name (k : Key) : ofName? k.name = some k := by
  cases k <;> decide

theorem name_of_ofName? {key : String} {k : Key} (h : ofName? key = some k) : k.name = key := by
  simpa using List.find?_some h

theorem name_ne_of_ofName? {key : String} (k : Key) (h : ofName? key = none) : k.name ≠ key := by
  rintro rfl
  rw [k.ofName?_name] at h
  cases h

theorem name_injective : Function.Injective name := by
  intro j k h
  have hjk : ofName? j.name = ofName? k.name := congrArg ofName? h
  rwa [ofName?_name, ofName?_name, Option.some_inj] at hjk

theorem of_put (k : Key) (c : Config) (x : k.Kind) : k.of (k.put c x) = x := by
  cases k <;> rfl

theorem of_put_of_ne {j k : Key} (h : j ≠ k) (c : Config) (x : k.Kind) :
    j.of (k.put c x) = j.of c := by
  cases k <;> cases j <;> first | rfl | exact absurd rfl h

end Key

theorem eq_of_settings {c c' : Config} (h : ∀ k : Key, k.of c = k.of c') : c = c' := by
  cases c
  cases c'
  rw [Config.mk.injEq]
  exact ⟨h .mode, h .localName, h .bindAddress, h .remoteHost, h .remotePort, h .retryDelay,
    h .pingTimeout, h .connectTimeout, h .maxSessions, h .addressCapacity⟩

theorem set_name (c : Config) (k : Key) (v : Value) : c.set k.name v = (k.read v).map (k.put c) := by
  cases k with
  | remotePort =>
    simp only [set, Key.name, Key.read, String.reduceEq, if_false, if_true]
    cases readNat .word16 UInt16.size v <;> rfl
  | maxSessions =>
    simp only [set, Key.name, Key.read, String.reduceEq, if_false, if_true]
    cases readOptional (readNat .word32 UInt32.size) v <;> rfl
  | addressCapacity =>
    simp only [set, Key.name, Key.read, String.reduceEq, if_false, if_true]
    cases readNat .size UInt64.size v <;> rfl
  | _ =>
    simp only [set, Key.name, Key.read, String.reduceEq, if_false, if_true]
    rfl

theorem set_other (c : Config) {key : String} (h : Key.ofName? key = none) (v : Value) :
    c.set key v = .ok c := by
  have hne (k : Key) : key ≠ k.name := (k.name_ne_of_ofName? h).symm
  rw [set, if_neg, if_neg, if_neg, if_neg, if_neg, if_neg, if_neg, if_neg, if_neg, if_neg]
  exacts [hne .addressCapacity, hne .maxSessions, hne .connectTimeout, hne .pingTimeout, hne .retryDelay,
    hne .remotePort, hne .remoteHost, hne .bindAddress, hne .localName, hne .mode]

/-- An entry that is taken in sets the setting it belongs to, if there is one. -/
theorem set_cases {c c' : Config} {key : String} (h : c.set key v = .ok c') :
    c' = c ∨ ∃ k x, Key.read k v = .ok x ∧ c' = k.put c x := by
  cases hkey : Key.ofName? key with
  | none =>
    rw [set_other c hkey] at h
    exact .inl (Except.ok.inj h).symm
  | some k =>
    obtain rfl := Key.name_of_ofName? hkey
    rw [set_name, map_eq_ok_iff] at h
    obtain ⟨x, hx, rfl⟩ := h
    exact .inr ⟨k, x, hx, rfl⟩

namespace Key

/-- A setting takes a value as what the value stands for. -/
theorem read_eq_ok {k : Key} {x : k.Kind} : k.read v = .ok x ↔ k.Means v x := by
  cases k with
  | mode => exact readMode_eq_ok
  | localName | bindAddress => exact readString_eq_ok
  | retryDelay | pingTimeout | connectTimeout => exact readDuration_eq_ok
  | remoteHost =>
    rw [read, Means, readOptional_eq_ok (by simp [readString])]
    cases x <;> simp [readString_eq_ok]
  | remotePort =>
    exact readNat_map_eq_ok (fun _ => UInt16.ofNat_toNat) UInt16.toNat_lt fun _ => UInt16.toNat_ofNat_of_lt'
  | maxSessions =>
    have hread {v : Value} {n : UInt32} :
        (readNat .word32 UInt32.size v).map UInt32.ofNat = .ok n ↔ v = .integer n.toNat :=
      readNat_map_eq_ok (fun _ => UInt32.ofNat_toNat) UInt32.toNat_lt fun _ => UInt32.toNat_ofNat_of_lt'
    rw [read, Means, readOptional_map, readOptional_eq_ok (by simp [hread])]
    cases x <;> simp [hread]
  | addressCapacity =>
    exact readNat_map_eq_ok (fun _ => UInt64.ofNat_toNat) UInt64.toNat_lt fun _ => UInt64.toNat_ofNat_of_lt'

end Key

/-- A value that stands for something sets its setting to it. -/
theorem set_of_means (c : Config) {k : Key} {x : k.Kind} (h : k.Means v x) :
    c.set k.name v = .ok (k.put c x) := by
  rw [set_name, Key.read_eq_ok.2 h]
  rfl

end StreamServer.Config
