/-
A configuration that was read from a file can be written and read any number
of times and stays the same. The reader gives only numbers of 64 bits, so
every duration has settled when it is taken in, and every other setting is
read back as it was.
-/
import Mathlib
import StreamServer.Proofs.SavedConfig
import StreamServer.Proofs.SettingKeys
import StreamServer.Proofs.TomlTables

namespace StreamServer

attribute [local irreducible] Binary64.one Binary64.overflow

namespace Config

variable {c c' : Config}

/-- Every duration is read as it is from what is written for it. -/
def Settled (c : Config) : Prop :=
  ∀ d ∈ c.durations, d.secs < UInt64.size ∧ readDuration (Seconds.ofDuration d).value = .ok d

theorem settled_iff : c.Settled ↔
    (c.retryDelay.secs < UInt64.size ∧
      readDuration (Seconds.ofDuration c.retryDelay).value = .ok c.retryDelay) ∧
    (c.pingTimeout.secs < UInt64.size ∧
      readDuration (Seconds.ofDuration c.pingTimeout).value = .ok c.pingTimeout) ∧
    c.connectTimeout.secs < UInt64.size ∧
      readDuration (Seconds.ofDuration c.connectTimeout).value = .ok c.connectTimeout := by
  simp only [Settled, durations, List.forall_mem_cons, List.not_mem_nil, false_implies, implies_true,
    and_true]

theorem settled_standard : standard.Settled := by
  have hwhole {s : Nat} (h : s < Nat.pow 2 63) : (Duration.ofSecs s).secs < UInt64.size ∧
      readDuration (Seconds.ofDuration (.ofSecs s)).value = .ok (.ofSecs s) :=
    ⟨(Duration.isWhole_ofSecs h).2.trans (by decide),
      readDuration_of_whole (Duration.isWhole_ofSecs h)⟩
  exact settled_iff.2 ⟨hwhole (by decide), hwhole (by decide), hwhole (by decide)⟩

theorem Settled.reread (h : c.Settled) : c.reread = .ok c := by
  obtain ⟨⟨-, hr⟩, ⟨-, hp⟩, -, hk⟩ := settled_iff.1 h
  rw [Config.reread, hr, hp, hk]
  rfl

/-- Only three keys change a duration, and what is read for them has settled. -/
theorem Settled.set {key : String} {v : Value} (hc : c.Settled) (hv : v.Genuine)
    (h : c.set key v = .ok c') : c'.Settled := by
  rcases set_cases h with rfl | ⟨k, x, hx, rfl⟩
  · exact hc
  obtain ⟨hr, hp, hk⟩ := settled_iff.1 hc
  cases k with
  | retryDelay => exact settled_iff.2 ⟨Seconds.readDuration_settles hv hx, hp, hk⟩
  | pingTimeout => exact settled_iff.2 ⟨hr, Seconds.readDuration_settles hv hx, hk⟩
  | connectTimeout => exact settled_iff.2 ⟨hr, hp, Seconds.readDuration_settles hv hx⟩
  | mode | localName | bindAddress | remoteHost | remotePort | maxSessions | addressCapacity => exact hc

theorem Settled.foldlM {es : Entries} (hc : c.Settled) (hes : es.Genuine)
    (h : es.foldlM (fun c (key, v) => c.set key v) c = .ok c') : c'.Settled := by
  induction es generalizing c with
  | nil =>
    cases h
    exact hc
  | cons e es ih =>
    obtain ⟨key, v⟩ := e
    obtain ⟨hv, hes⟩ := List.forall_mem_cons.1 hes
    rw [List.foldlM_cons] at h
    dsimp only at h
    cases hset : c.set key v with
    | error e =>
      rw [hset] at h
      cases h
    | ok c₁ =>
      rw [hset] at h
      exact ih (hc.set hv hset) hes h

/-- What a text gives has settled durations. -/
theorem settled_of_parse {text : String} (h : parse text = .ok c) : c.Settled := by
  rw [parse] at h
  split at h
  · cases h
  · rename_i es hes
    split at h
    · rename_i hentries
      cases h
      exact settled_standard.foldlM (Toml.lasting_genuine.of_read? hes) hentries
    · cases h

theorem parse_of_load {disk : Disk} {path : String} (h : load disk path = .ok c) :
    ∃ text, parse text = .ok c := by
  rw [load] at h
  split at h
  · split at h
    · exact ⟨_, h⟩
    · cases h
  · cases h

/-- **Reading a duration settles it.** A number of 64 bits that is taken as a duration is written as
a number that is taken as the same duration. So a configuration that was loaded can be saved and
loaded again and again and stays what it is in every setting. It can be written unless a duration
is a whole number of seconds that no integer holds. -/
theorem rewriting_does_not_drift :
    (∀ (v : Value) (d : Duration), v.Genuine → readDuration v = .ok d →
      readDuration (Seconds.ofDuration d).value = .ok d) ∧
    ∀ (disk : Disk) (path : String) (c : Config), load disk path = .ok c →
      ((∃ text, c.render = .ok text) ↔
        (∀ d ∈ c.durations, d.subsec = 0 → d.secs < Nat.pow 2 63) ∧
          c.addressCapacity.toNat < Nat.pow 2 63) ∧
      ∀ (disk' : Disk) (path' : String), (save disk' path' c).1 = .ok () →
        load (save disk' path' c).2 path' = .ok c := by
  refine ⟨fun v d hv h => (Seconds.readDuration_settles hv h).2,
    fun disk path c hload => ⟨c.exists_render_iff, fun disk' path' hsave => ?_⟩⟩
  obtain ⟨text, hparse⟩ := parse_of_load hload
  have hsettled := settled_of_parse hparse
  rw [load_of_save (fun d hd => (hsettled d hd).1) hsave, hsettled.reread]
  rfl

/-- Floats are 1.86 nanoseconds apart here, and this one is read as two nanoseconds past a second. -/
def unevenSeconds : Binary64 := .ofDecimal false 8388608000000001 (-9)

/-- A machine with one file, which sets such a number. -/
def unevenDisk : Disk := ⟨[(["notes"], .file "retry_delay = 8388608.000000001\n".toUTF8)], []⟩

def unevenConfig : Config := { retryDelay := .ofParts 8388608 2 }

theorem free_unevenDisk : unevenDisk.Free (.ofText "conf/copy") where
  origin := by decide +kernel
  names := by decide +kernel
  plain := by decide +kernel
  toFile := by decide +kernel
  way := by decide +kernel
  target := by decide +kernel

theorem rewriting_does_not_drift_uneven :
    readDuration (.float unevenSeconds) = .ok (.ofParts 8388608 2) ∧
      readDuration (Seconds.ofDuration (.ofParts 8388608 2)).value = .ok (.ofParts 8388608 2) ∧
      load unevenDisk "notes" = .ok unevenConfig ∧
      (save unevenDisk "conf/copy" unevenConfig).1 = .ok () ∧
      load (save unevenDisk "conf/copy" unevenConfig).2 "conf/copy" = .ok unevenConfig := by
  have hread : readDuration (.float unevenSeconds) = .ok (.ofParts 8388608 2) :=
    Seconds.readDuration_value (x := .float unevenSeconds) (by decide +kernel)
  have hload : load unevenDisk "notes" = .ok unevenConfig := by decide +kernel
  have hgenuine : (Value.float unevenSeconds).Genuine := Binary64.genuine_ofDecimal _ _ _
  obtain ⟨hvalue, hconfig⟩ := rewriting_does_not_drift
  obtain ⟨-, hagain⟩ := hconfig unevenDisk "notes" unevenConfig hload
  have hsave : (save unevenDisk "conf/copy" unevenConfig).1 = .ok () :=
    save_free free_unevenDisk (by decide +kernel)
  exact ⟨hread, hvalue _ _ hgenuine hread, hload, hsave,
    hagain unevenDisk "conf/copy" hsave⟩

end Config

end StreamServer
