/-
What saving a configuration changes on the disk: the file itself, and folders
above it that were missing. Folders are created one below the other, so each
of them is where the first names of the path lead, and a save that fails
halfway leaves nothing but such folders behind. A path that leads elsewhere is
followed as before, unless it comes to a folder that was not there.
-/
import Mathlib
import StreamServer.Proofs.SavedConfig

namespace StreamServer

/-- The path of the folder above. -/
def Path.above (p : Path) : Path := ⟨p.absolute, p.names.dropLast, true⟩

namespace Disk

variable {d d' d'' : Disk} {p : Path} {l here there : Location} {names : List String}

/-- The path leads to or through `l`. -/
def Passes (d : Disk) (p : Path) (l : Location) : Prop :=
  ∃ names, names <+: p.names ∧ d.follow (d.origin p) names = .ok l

/-- Nothing stood at `l`, and now a folder does. -/
def NewFolder (d d' : Disk) (l : Location) : Prop := d.get? l = none ∧ d'.get? l = some .folder

/-! ## Paths on a disk with more on it -/

/-- Every folder is still there. -/
structure KeepsFolders (d d' : Disk) : Prop where
  start : d'.start = d.start
  folders : ∀ l, d.get? l = some .folder → d'.get? l = some .folder

theorem keepsFolders_put (hl : d.get? l ≠ some .folder) (n : Node) : KeepsFolders d (d.put l n) where
  start := rfl
  folders k hk := by
    have hne : k ≠ l := by
      rintro rfl
      exact hl hk
    rw [get?_put_of_ne hne, hk]

theorem KeepsFolders.trans (h : KeepsFolders d d') (h' : KeepsFolders d' d'') : KeepsFolders d d'' :=
  ⟨h'.start.trans h.start, fun l hl => h'.folders l (h.folders l hl)⟩

theorem KeepsFolders.origin (h : KeepsFolders d d') (p : Path) : d'.origin p = d.origin p := by
  rw [Disk.origin, h.start, Disk.origin]

theorem KeepsFolders.follow (h : KeepsFolders d d') (hok : d.follow here names = .ok there) :
    d'.follow here names = .ok there := by
  induction names generalizing here with
  | nil => exact hok
  | cons name names ih =>
    rw [Disk.follow] at hok ⊢
    split at hok
    · rename_i next hnext
      have hfolder := folder_of_enter hnext
      have hsame : d'.enter here name = d.enter here name := by
        rw [enter, enter, hfolder, h.folders here hfolder]
      rw [hsame, hnext]
      exact ih hok
    · cases hok

theorem KeepsFolders.passes (h : KeepsFolders d d') (hp : d.Passes p l) : d'.Passes p l := by
  obtain ⟨names, hnames, hfollow⟩ := hp
  exact ⟨names, hnames, h.origin p ▸ h.follow hfollow⟩

/-! ## Creating folders -/

/-- Only folders have been added, each on the way along the path. -/
structure Grows (d d' : Disk) (p : Path) : Prop where
  start : d'.start = d.start
  others : ∀ l, d'.get? l = d.get? l ∨ NewFolder d d' l ∧ d'.Passes p l

namespace Grows

theorem refl (d : Disk) (p : Path) : Grows d d p := ⟨rfl, fun _ => .inl rfl⟩

theorem keepsFolders (h : Grows d d' p) : KeepsFolders d d' where
  start := h.start
  folders l hl := by
    rcases h.others l with hsame | ⟨⟨hnone, -⟩, -⟩
    · rw [hsame, hl]
    · rw [hnone] at hl
      cases hl

theorem trans (h : Grows d d' p) (h' : Grows d' d'' p) : Grows d d'' p where
  start := h'.start.trans h.start
  others l := by
    rcases h.others l with hsame | ⟨⟨hnone, hfolder⟩, hpasses⟩
    · rcases h'.others l with hsame' | ⟨hnew, hpasses⟩
      · exact .inl (hsame'.trans hsame)
      · exact .inr ⟨⟨hsame ▸ hnew.1, hnew.2⟩, hpasses⟩
    · exact .inr ⟨⟨hnone, h'.keepsFolders.folders l hfolder⟩, h'.keepsFolders.passes hpasses⟩

/-- A longer path leads through the same places. -/
theorem longer {q : Path} (h : Grows d d' p) (habsolute : q.absolute = p.absolute)
    (hnames : p.names <+: q.names) : Grows d d' q where
  start := h.start
  others l := by
    rcases h.others l with hsame | ⟨hnew, names, hprefix, hfollow⟩
    · exact .inl hsame
    · refine .inr ⟨hnew, names, hprefix.trans hnames, ?_⟩
      rw [origin, habsolute]
      exact hfollow

end Grows

theorem follow_of_locate (h : d.locate p = .ok l) : d.follow (d.origin p) p.names = .ok l := by
  rw [locate] at h
  split at h
  · cases h
  · split at h
    · cases h
    · exact h

theorem grows_of_createFolder (h : d.createFolder p = .ok d') : Grows d d' p := by
  rw [createFolder] at h
  split at h
  · cases h
  · rename_i l hl
    split at h
    · cases h
    · rename_i hfree
      have hnone : d.get? l = none := by
        simp only [not_or] at hfree
        exact Option.not_isSome_iff_eq_none.1 hfree.2.2
      have hnot : d.get? l ≠ some .folder := by simp [hnone]
      cases h
      refine ⟨rfl, fun k => ?_⟩
      by_cases hk : k = l
      · subst hk
        have hkeeps := keepsFolders_put hnot .folder
        exact .inr ⟨⟨hnone, get?_put_self (ne_nil_of_not_folder hnot) d _⟩, p.names, List.prefix_rfl,
          hkeeps.origin p ▸ hkeeps.follow (follow_of_locate hl)⟩
      · exact .inl (get?_put_of_ne hk d _)

/-- Whether or not all folders could be created, there are only more of them. The names are given
backwards. -/
theorem grows_createFolders (d : Disk) (absolute toFolder : Bool) (backwards : List String) :
    Grows d (d.createFolders absolute backwards).2 ⟨absolute, backwards.reverse, toFolder⟩ := by
  induction backwards with
  | nil => exact .refl d _
  | cons name above ih =>
    have hlonger : Grows d (d.createFolders absolute above).2
        ⟨absolute, (name :: above).reverse, toFolder⟩ :=
      ih.longer rfl (by simp)
    have hone {e e' : Disk} (h : e.createFolder ⟨absolute, (name :: above).reverse, false⟩ = .ok e') :
        Grows e e' ⟨absolute, (name :: above).reverse, toFolder⟩ :=
      (grows_of_createFolder h).longer rfl List.prefix_rfl
    rw [createFolders]
    split
    · exact hone ‹_›
    · split
      · rename_i hcreate
        rw [hcreate] at hlonger
        exact hlonger
      · rename_i hcreate
        rw [hcreate] at hlonger
        split
        · exact hlonger.trans (hone ‹_›)
        · exact hlonger
    · exact .refl d _

theorem grows_createFoldersAbove (d : Disk) (p : Path) :
    Grows d (d.createFoldersAbove p).2 p.above := by
  have hnames : (p.names.reverse.drop 1).reverse = p.names.dropLast := by
    rw [List.drop_reverse, List.reverse_reverse, ← List.dropLast_eq_take]
  have h := grows_createFolders d p.absolute true (p.names.reverse.drop 1)
  rw [hnames] at h
  exact h

/-! ## Writing a file -/

/-- One file has been written, and only folders have been added otherwise, each above the file. -/
structure Saves (d d' : Disk) (p : Path) (l : Location) (content : ByteArray) : Prop where
  start : d'.start = d.start
  found : d'.find p = .ok (.file content)
  place : d'.locate p = .ok l
  notFolder : d.get? l ≠ some .folder
  file : d'.get? l = some (.file content)
  others : ∀ k, k ≠ l → d'.get? k = d.get? k ∨ NewFolder d d' k ∧ d'.Passes p.above k

theorem Grows.write {content : ByteArray} (h : Grows d d' p.above)
    (hwrite : d'.write p content = .ok d'') : ∃ l, Saves d d'' p l content := by
  have hfound := find_of_write hwrite
  obtain ⟨l, hl, hnot, -, rfl⟩ := write_eq_ok hwrite
  have hkeeps := keepsFolders_put hnot (.file content)
  refine ⟨l, h.start, hfound, locate_put hnot _ hl, fun hl => hnot (h.keepsFolders.folders l hl),
    get?_put_self (ne_nil_of_not_folder hnot) d' _, fun k hk => ?_⟩
  have hsame : (d'.put l (.file content)).get? k = d'.get? k := get?_put_of_ne hk d' _
  rw [NewFolder, hsame]
  exact (h.others k).imp_right fun hnew => ⟨hnew.1, hkeeps.passes hnew.2⟩

namespace Saves

variable {content : ByteArray}

/-- A path is followed as before, or it failed before, and it fails again or it has come to a folder
that is new. -/
theorem follow_cases (h : Saves d d' p l content) (here : Location) (names : List String) :
    d'.follow here names = d.follow here names ∨
      (∃ e, d.follow here names = .error e) ∧
        ((∃ e, d'.follow here names = .error e) ∨
          ∃ first k, first <+: names ∧ d'.follow here first = .ok k ∧ NewFolder d d' k) := by
  induction names generalizing here with
  | nil => exact .inl rfl
  | cons name names ih =>
    rw [follow, follow]
    by_cases hhere : here = l
    · -- No path leads on from a file.
      subst hhere
      have hfile : d'.enter here name = .error .notFolder := by rw [enter, h.file]
      have hbefore : ∃ e, d.enter here name = .error e := by
        cases hget : d.enter here name with
        | error e => exact ⟨e, rfl⟩
        | ok next => exact absurd (folder_of_enter hget) h.notFolder
      obtain ⟨e, he⟩ := hbefore
      rw [hfile, he]
      exact .inr ⟨⟨e, rfl⟩, .inl ⟨_, rfl⟩⟩
    · rcases h.others here hhere with hsame | ⟨hnew, -⟩
      · have henter : d'.enter here name = d.enter here name := by rw [enter, enter, hsame]
        rw [henter]
        cases hnext : d.enter here name with
        | error e => exact .inl rfl
        | ok next =>
          rcases ih next with heq | ⟨hfails, hfails' | ⟨first, k, hfirst, hfollow, hnew⟩⟩
          · exact .inl heq
          · exact .inr ⟨hfails, .inl hfails'⟩
          · refine .inr ⟨hfails, .inr ⟨name :: first, k, List.cons_prefix_cons.2 ⟨rfl, hfirst⟩, ?_, hnew⟩⟩
            rw [follow, henter, hnext]
            exact hfollow
      · have hmissing : d.enter here name = .error .missing := by rw [enter, hnew.1]
        rw [hmissing]
        exact .inr ⟨⟨_, rfl⟩, .inr ⟨[], here, List.nil_prefix, rfl, hnew⟩⟩

/-- What another path leads to is as before, or it led nowhere before, and it still does or it has
come to a folder that is new. -/
theorem find_cases (h : Saves d d' p l content) {q : Path} (hq : d'.locate q ≠ .ok l) :
    d'.find q = d.find q ∨
      (∃ e, d.find q = .error e) ∧
        ((∃ e, d'.find q = .error e) ∨ ∃ k, NewFolder d d' k ∧ d'.Passes q k) := by
  have horigin : d'.origin q = d.origin q := by rw [origin, h.start, origin]
  have hlocate : d'.locate q = d.locate q ∨
      (∃ e, d.locate q = .error e) ∧
        ((∃ e, d'.locate q = .error e) ∨ ∃ k, NewFolder d d' k ∧ d'.Passes q k) := by
    rw [locate, locate]
    split
    · exact .inl rfl
    · split
      · exact .inl rfl
      · rw [horigin]
        rcases h.follow_cases (d.origin q) q.names with
          heq | ⟨hfails, hfails' | ⟨first, k, hfirst, hfollow, hnew⟩⟩
        · exact .inl heq
        · exact .inr ⟨hfails, .inl hfails'⟩
        · exact .inr ⟨hfails, .inr ⟨k, hnew, first, hfirst, horigin ▸ hfollow⟩⟩
  rcases hlocate with heq | ⟨⟨e, he⟩, hafter⟩
  · cases hl : d.locate q with
    | error e =>
      rw [find, find, heq, hl]
      exact .inl rfl
    | ok k =>
      rw [hl] at heq
      have hk : k ≠ l := by
        rintro rfl
        exact hq heq
      rcases h.others k hk with hsame | ⟨hnew, -⟩
      · rw [find, find, heq, hl]
        dsimp only
        rw [hsame]
        exact .inl rfl
      · refine .inr ⟨⟨.missing, ?_⟩, .inr ⟨k, hnew, q.names, List.prefix_rfl, follow_of_locate heq⟩⟩
        rw [find, hl]
        dsimp only
        rw [hnew.1]
  · refine .inr ⟨⟨e, ?_⟩, hafter.imp_left ?_⟩
    · rw [find, he]
    · rintro ⟨e', he'⟩
      exact ⟨e', by rw [find, he']⟩

end Saves

end Disk

namespace Config

open Disk

variable {d d' : Disk} {path : String}

theorem load_of_find_error {e : Fault} (h : d.find (.ofText path) = .error e) :
    load d path = .error (.notFound path) := by
  rw [load, exists?, h]
  rfl

theorem load_congr (h : d'.find (.ofText path) = d.find (.ofText path)) :
    load d' path = load d path := by
  rw [load, load, exists?, exists?, readText, readText, Disk.read, Disk.read, h]

/-- What is loaded from another path, before and after. -/
theorem load_of_saves {p : Path} {l : Location} {content : ByteArray} (h : Saves d d' p l content)
    (hother : d'.locate (.ofText path) ≠ .ok l) :
    load d' path = load d path ∨
      load d path = .error (.notFound path) ∧ ∃ k, NewFolder d d' k ∧ d'.Passes (.ofText path) k := by
  rcases h.find_cases hother with heq | ⟨⟨e, he⟩, ⟨e', he'⟩ | hnew⟩
  · exact .inl (load_congr heq)
  · exact .inl ((load_of_find_error he').trans (load_of_find_error he).symm)
  · exact .inr ⟨load_of_find_error he, hnew⟩

/-- What storing a text does: it fails and only folders have been added, or the file holds the text
and only folders have been added otherwise. -/
theorem store_cases (d : Disk) (p : Path) (text : String) :
    (∃ reason, (store d p text).1 = .error (.invalid reason)) ∧ Grows d (store d p text).2 p.above ∨
      (store d p text).1 = .ok () ∧ ∃ l, Saves d (store d p text).2 p l text.toUTF8 := by
  have hgrows := grows_createFoldersAbove d p
  rw [store]
  split
  · rename_i hcreate
    rw [hcreate] at hgrows
    exact .inl ⟨⟨_, rfl⟩, hgrows⟩
  · rename_i hcreate
    rw [hcreate] at hgrows
    split
    · exact .inr ⟨rfl, hgrows.write ‹_›⟩
    · exact .inl ⟨⟨_, rfl⟩, hgrows⟩

/-- **Saving touches only its own path.** If the configuration cannot be written as text, nothing
changes. If saving fails in another way, nothing that was there has changed, and what is new are
folders on the way to the path. If it succeeds, the path leads to a file with just the text of the
configuration; everything else is as it was, but for new folders on the way. From any other path
the same is loaded as before, unless that path leads to or through one of the new folders; then
nothing was found there before. -/
theorem saving_touches_only_its_path (disk : Disk) (path : String) (c : Config) :
    (∀ reason, (save disk path c).1 = .error (.serialize reason) → (save disk path c).2 = disk) ∧
    (∀ e, (save disk path c).1 = .error e → Grows disk (save disk path c).2 (Path.ofText path).above) ∧
    ((save disk path c).1 = .ok () → ∃ text l, c.render = .ok text ∧
      Saves disk (save disk path c).2 (.ofText path) l text.toUTF8 ∧
      ∀ other, (save disk path c).2.locate (.ofText other) ≠ .ok l →
        load (save disk path c).2 other = load disk other ∨
          load disk other = .error (.notFound other) ∧
            ∃ k, NewFolder disk (save disk path c).2 k ∧
              (save disk path c).2.Passes (.ofText other) k) := by
  cases hrender : c.render with
  | error e =>
    have hsave : save disk path c = (.error e, disk) := by rw [save, hrender]
    rw [hsave]
    exact ⟨fun _ _ => rfl, fun _ _ => .refl disk _, fun hok => by cases hok⟩
  | ok text =>
    have hsave : save disk path c = store disk (.ofText path) text := by rw [save, hrender]
    rw [hsave]
    rcases store_cases disk (.ofText path) text with ⟨⟨reason, hfails⟩, hgrows⟩ | ⟨hok, l, hsaves⟩
    · refine ⟨fun _ h => ?_, fun _ _ => hgrows, fun h => ?_⟩
      · rw [hfails] at h
        cases h
      · rw [hfails] at h
        cases h
    · refine ⟨fun _ h => ?_, fun _ h => ?_, fun _ =>
        ⟨text, l, rfl, hsaves, fun other hother => load_of_saves hsaves hother⟩⟩
      · rw [hok] at h
        cases h
      · rw [hok] at h
        cases h

theorem saving_touches_only_its_path_bareDisk :
    (save bareDisk "conf/render/server.toml" standard).1 = .ok () ∧
      (save bareDisk "conf/render/server.toml" standard).2.locate (.ofText "notes") = .ok ["notes"] ∧
      load (save bareDisk "conf/render/server.toml" standard).2 "notes" = .ok standard := by
  have hsave : (save bareDisk "conf/render/server.toml" standard).1 = .ok () :=
    save_free free_bareDisk (by decide +kernel)
  obtain ⟨text, l, -, hsaves, hloads⟩ :=
    (saving_touches_only_its_path bareDisk "conf/render/server.toml" standard).2.2 hsave
  have hplace : (save bareDisk "conf/render/server.toml" standard).2.locate
      (.ofText "conf/render/server.toml") = .ok ["conf", "render", "server.toml"] := by decide +kernel
  have hnotes : (save bareDisk "conf/render/server.toml" standard).2.locate (.ofText "notes") =
      .ok ["notes"] := by decide +kernel
  have hbefore : load bareDisk "notes" = .ok standard := by decide +kernel
  refine ⟨hsave, hnotes, ?_⟩
  obtain rfl := Except.ok.inj (hplace.symm.trans hsaves.place)
  rcases hloads "notes" (by rw [hnotes]; decide) with hsame | ⟨hmissing, -⟩
  · rw [hsame, hbefore]
  · rw [hbefore] at hmissing
    cases hmissing

/-- A path to a folder that is created leads somewhere else afterwards. -/
theorem load_above_changes :
    load ⟨[], []⟩ "a" = .error (.notFound "a") ∧
      (save ⟨[], []⟩ "a/b.toml" standard).1 = .ok () ∧
      load (save ⟨[], []⟩ "a/b.toml" standard).2 "a" =
        .error (.invalid "Failed to read config: Is a directory (os error 21)") := by
  decide +kernel

end Config

end StreamServer
