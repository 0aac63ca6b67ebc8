/-
A configuration that was saved is loaded back unchanged if its durations are
whole seconds. Its file has one line for each setting that is set. A setting
without a line keeps its default, which is what it had.
-/
import StreamServer.Config.Store
import StreamServer.Proofs.Files
import StreamServer.Proofs.WrittenConfig

namespace StreamServer

namespace Duration

/-- A number of seconds that an integer holds. -/
def IsWhole (d : Duration) : Prop := d.subsec = 0 ∧ d.secs < Nat.pow 2 63

theorem isWhole_ofSecs {s : Nat} (h : s < Nat.pow 2 63) : (ofSecs s).IsWhole := by
  have hpos : 0 < perSecond := by decide
  have hsecs : (ofSecs s).secs = s := by
    simp [secs, ofSecs, ofParts, Nat.mul_div_left s hpos]
  refine ⟨by simp [subsec, ofSecs, ofParts], ?_⟩
  rwa [hsecs]

end Duration

namespace Config

/-- The numbers of a configuration stand in its file exactly: durations are whole seconds, and no
number is too large for an integer. -/
structure Exact (c : Config) : Prop where
  retryDelay : c.retryDelay.IsWhole
  pingTimeout : c.pingTimeout.IsWhole
  connectTimeout : c.connectTimeout.IsWhole
  addressCapacity : c.addressCapacity.toNat < Nat.pow 2 63

theorem readDuration_of_whole {d : Duration} (h : d.IsWhole) :
    readDuration (Seconds.ofDuration d).value = .ok d :=
  Seconds.readDuration_value (Seconds.toDuration_whole h.1)

section

variable {c : Config} (h : c.Exact)

include h

theorem Exact.isWhole : ∀ d ∈ c.durations, d.IsWhole := by
  simp [durations, h.retryDelay, h.pingTimeout, h.connectTimeout]

theorem Exact.reread : c.reread = .ok c := by
  rw [Config.reread, readDuration_of_whole h.retryDelay, readDuration_of_whole h.pingTimeout,
    readDuration_of_whole h.connectTimeout]
  rfl

/-- The text of a configuration gives the configuration back. -/
theorem Exact.render : ∃ text, c.render = .ok text ∧ parse text = .ok c := by
  obtain ⟨text, hrender⟩ := c.exists_render_iff.2
    ⟨fun d hd _ => (h.isWhole d hd).2, h.addressCapacity⟩
  have hsize : ∀ d ∈ c.durations, d.secs < UInt64.size :=
    fun d hd => (h.isWhole d hd).2.trans (by decide)
  refine ⟨text, hrender, ?_⟩
  rw [parse_of_render hsize hrender, h.reread]
  rfl

end

/-! ## Files -/

theorem store_free {d : Disk} {p : Path} (h : d.Free p) (text : String) :
    (store d p text).1 = .ok () := by
  obtain ⟨d₁, d₂, hcreate, hwrite⟩ := h.write text.toUTF8
  simp only [store, hcreate, hwrite]

/-- Where nothing is in the way, everything is saved that can be written. -/
theorem save_free {d : Disk} {path : String} {c : Config} (h : d.Free (.ofText path))
    (hwritten : (∀ d ∈ c.durations, d.subsec = 0 → d.secs < Nat.pow 2 63) ∧
      c.addressCapacity.toNat < Nat.pow 2 63) :
    (save d path c).1 = .ok () := by
  obtain ⟨text, hrender⟩ := c.exists_render_iff.2 hwritten
  rw [save, hrender]
  exact store_free h text

/-- A file is loaded from what was stored in it. -/
theorem load_store {d : Disk} {path text : String}
    (h : (store d (.ofText path) text).1 = .ok ()) :
    load (store d (.ofText path) text).2 path = parse text := by
  unfold store at h ⊢
  split at h
  · cases h
  · split at h
    · rename_i hwrite
      simp only [load, Disk.exists?_of_write hwrite, Disk.readText_of_write hwrite, if_true]
    · cases h

/-- What was saved is loaded with its durations as they are read. -/
theorem load_of_save {c : Config} (hsize : ∀ d ∈ c.durations, d.secs < UInt64.size) {disk : Disk}
    {path : String} (h : (save disk path c).1 = .ok ()) :
    load (save disk path c).2 path = c.reread.mapError fun e => .parse e.fault := by
  cases hrender : c.render with
  | error e =>
    rw [save, hrender] at h
    cases h
  | ok text =>
    have hsave : save disk path c = store disk (.ofText path) text := by rw [save, hrender]
    rw [hsave] at h ⊢
    rw [load_store h, parse_of_render hsize hrender]

/-- A configuration whose durations are whole seconds, and whose numbers are not too large, can be
written. It can be saved to any path where nothing is in the way, and wherever it was saved it is
loaded back with every setting as it was. -/
theorem saved_config_loads_back (c : Config)
    (hdurations : ∀ d ∈ [c.retryDelay, c.pingTimeout, c.connectTimeout],
      ∃ s, s < Nat.pow 2 63 ∧ d = .ofSecs s)
    (haddress : c.addressCapacity.toNat < Nat.pow 2 63) :
    (∃ text, c.render = .ok text ∧ parse text = .ok c) ∧
      ∀ (disk : Disk) (path : String),
        (disk.Free (.ofText path) → (save disk path c).1 = .ok ()) ∧
        ((save disk path c).1 = .ok () → load (save disk path c).2 path = .ok c) := by
  have hwhole : ∀ d ∈ [c.retryDelay, c.pingTimeout, c.connectTimeout], d.IsWhole := by
    intro d hd
    obtain ⟨s, hs, rfl⟩ := hdurations d hd
    exact Duration.isWhole_ofSecs hs
  have hexact : c.Exact :=
    ⟨hwhole _ (by simp), hwhole _ (by simp), hwhole _ (by simp), haddress⟩
  obtain ⟨text, hrender, hparse⟩ := hexact.render
  refine ⟨⟨text, hrender, hparse⟩, fun disk path => ?_⟩
  have hsave : save disk path c = store disk (.ofText path) text := by rw [save, hrender]
  rw [hsave]
  exact ⟨fun hfree => store_free hfree text, fun hok => (load_store hok).trans hparse⟩

/-- Settings with runs of both kinds of quotes, line ends, a backslash and controls, and one that is
empty. -/
def awkward : Config where
  mode := .tcpReverse
  localName := ""
  bindAddress := "\"\"\"\"''''\\\t\r\n\x00\x7f"
  remoteHost := some "'''\n\"\"é"
  retryDelay := .ofSecs 9223372036854775807
  pingTimeout := .ofSecs 0
  maxSessions := some 0
  addressCapacity := 9223372036854775807

/-- A machine with a single file. -/
def bareDisk : Disk := ⟨[(["notes"], .file ⟨#[]⟩)], []⟩

theorem free_bareDisk : bareDisk.Free (.ofText "conf/render/server.toml") where
  origin := by decide +kernel
  names := by decide +kernel
  plain := by decide +kernel
  toFile := by decide +kernel
  way := by decide +kernel
  target := by decide +kernel

theorem saved_config_loads_back_awkward :
    (save bareDisk "conf/render/server.toml" awkward).1 = .ok () ∧
      load (save bareDisk "conf/render/server.toml" awkward).2 "conf/render/server.toml" =
        .ok awkward := by
  have hdurations : ∀ d ∈ [awkward.retryDelay, awkward.pingTimeout, awkward.connectTimeout],
      ∃ s, s < Nat.pow 2 63 ∧ d = .ofSecs s := by
    simp only [List.forall_mem_cons, List.not_mem_nil, false_implies, implies_true, and_true]
    exact ⟨⟨9223372036854775807, by decide, by simp [awkward]⟩, ⟨0, by decide, by simp [awkward]⟩,
      ⟨30, by decide, by simp [awkward]⟩⟩
  have h := saved_config_loads_back awkward hdurations (by decide +kernel)
  obtain ⟨hsave, hload⟩ := h.2 bareDisk "conf/render/server.toml"
  exact ⟨hsave free_bareDisk, hload (hsave free_bareDisk)⟩

end Config

end StreamServer
