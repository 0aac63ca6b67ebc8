/-
Files on a disk. What was written to a file is read from it, whatever stood on
the disk before; and a file can be written wherever nothing is in the way,
since folders that are missing are created.
-/
import StreamServer.Disk

namespace StreamServer.Disk

/-! ## Nodes -/

theorem get?_put_self {l : Location} (hl : l ≠ []) (d : Disk) (n : Node) :
    (d.put l n).get? l = some n := by
  simp [get?, put, hl]

theorem lookup_filter_of_ne {l k : Location} (h : k ≠ l) (nodes : List (Location × Node)) :
    (nodes.filter (·.1 ≠ l)).lookup k = nodes.lookup k := by
  induction nodes with
  | nil => rfl
  | cons x nodes ih =>
    obtain ⟨m, n⟩ := x
    rw [List.filter_cons]
    by_cases hm : m = l
    · have hk : (k == m) = false := beq_false_of_ne (hm ▸ h)
      rw [if_neg (by simp [hm]), ih, List.lookup_cons, hk]
    · rw [if_pos (by simp [hm]), List.lookup_cons, List.lookup_cons, ih]

theorem get?_put_of_ne {l k : Location} (h : k ≠ l) (d : Disk) (n : Node) :
    (d.put l n).get? k = d.get? k := by
  unfold get? put
  dsimp only
  split
  · rfl
  · rw [List.lookup_cons, beq_false_of_ne h]
    exact lookup_filter_of_ne h d.nodes

/-- The root cannot be anything but a folder. -/
theorem ne_nil_of_not_folder {d : Disk} {l : Location} (h : d.get? l ≠ some .folder) : l ≠ [] := by
  rintro rfl
  exact h rfl

/-! ## Paths -/

theorem folder_of_enter {d : Disk} {here next : Location} {name : String}
    (h : d.enter here name = .ok next) : d.get? here = some .folder := by
  unfold enter at h
  split at h
  · cases h
  · cases h
  · assumption

/-- A path is followed through folders only, so a place that is no folder makes no difference. -/
theorem follow_put {d : Disk} {l here there : Location} (hl : d.get? l ≠ some .folder) (n : Node)
    {names : List String} (h : d.follow here names = .ok there) :
    (d.put l n).follow here names = .ok there := by
  induction names generalizing here with
  | nil => exact h
  | cons name names ih =>
    unfold follow at h ⊢
    split at h
    · rename_i next hnext
      have hne : here ≠ l := by
        rintro rfl
        exact hl (folder_of_enter hnext)
      have hsame : (d.put l n).enter here name = d.enter here name := by
        rw [enter, enter, get?_put_of_ne hne]
      rw [hsame, hnext]
      exact ih h
    · cases h

theorem locate_put {d : Disk} {l there : Location} (hl : d.get? l ≠ some .folder) (n : Node)
    {p : Path} (h : d.locate p = .ok there) : (d.put l n).locate p = .ok there := by
  unfold locate at h ⊢
  split at h
  · cases h
  · split at h
    · cases h
    · rw [if_neg ‹_›, if_neg ‹_›]
      exact follow_put hl n h

/-! ## Reading what was written -/

theorem write_eq_ok {d d' : Disk} {p : Path} {content : ByteArray} (h : d.write p content = .ok d') :
    ∃ l, d.locate p = .ok l ∧ d.get? l ≠ some .folder ∧ p.toFolder = false ∧
      d' = d.put l (.file content) := by
  unfold write at h
  split at h
  · cases h
  rename_i l hl
  split at h
  · cases h
  split at h
  · cases h
  all_goals
    rename_i hget
    split at h
    · cases h
    · rename_i hfile
      cases h
      exact ⟨l, hl, by simp [hget], by simpa using hfile, rfl⟩

theorem find_of_write {d d' : Disk} {p : Path} {content : ByteArray}
    (h : d.write p content = .ok d') : d'.find p = .ok (.file content) := by
  obtain ⟨l, hl, hnot, hfile, rfl⟩ := write_eq_ok h
  have hget := get?_put_self (ne_nil_of_not_folder hnot) d (.file content)
  simp only [find, locate_put hnot _ hl, hget, hfile]
  rfl

theorem exists?_of_write {d d' : Disk} {p : Path} {content : ByteArray}
    (h : d.write p content = .ok d') : d'.exists? p = true := by
  rw [exists?, find_of_write h]
  rfl

theorem fromUTF8?_toUTF8 (text : String) : String.fromUTF8? text.toUTF8 = some text := by
  unfold String.fromUTF8? String.toUTF8
  rw [dif_pos text.isValidUTF8]
  rfl

theorem readText_of_write {d d' : Disk} {p : Path} {text : String}
    (h : d.write p text.toUTF8 = .ok d') : d'.readText p = .ok text := by
  rw [readText, read, find_of_write h]
  dsimp only
  rw [fromUTF8?_toUTF8]

/-! ## Writing where nothing is in the way -/

/-- A name that leads down and that a file may have. -/
def IsPlainName (name : String) : Prop :=
  name ≠ ".." ∧ name.utf8ByteSize ≤ nameCapacity ∧ name.toList.contains '\x00' = false

instance (name : String) : Decidable (IsPlainName name) :=
  inferInstanceAs (Decidable (_ ∧ _ ∧ _))

/-- No file stands here. -/
def Passable (d : Disk) (l : Location) : Prop := d.get? l = none ∨ d.get? l = some .folder

instance (d : Disk) (l : Location) : Decidable (d.Passable l) :=
  inferInstanceAs (Decidable (_ ∨ _))

/-- A file may be written to the path: the path leads down from a folder, with no file on the way
and no folder at its end. -/
structure Free (d : Disk) (p : Path) : Prop where
  origin : d.get? (d.origin p) = some .folder
  names : p.names ≠ []
  plain : ∀ name ∈ p.names, IsPlainName name
  toFile : p.toFolder = false
  way : ∀ k < p.names.length, d.Passable (d.origin p ++ p.names.take k)
  target : d.get? (d.origin p ++ p.names) ≠ some .folder

theorem enter_plain {d : Disk} {here : Location} {name : String} (hname : IsPlainName name)
    (h : d.get? here = some .folder) : d.enter here name = .ok (here ++ [name]) := by
  rw [enter, h]
  dsimp only
  rw [if_neg hname.1, if_neg (Nat.not_lt.2 hname.2.1)]

theorem follow_concat {d : Disk} {here there : Location} {names : List String}
    (h : d.follow here names = .ok there) (name : String) :
    d.follow here (names ++ [name]) = d.enter there name := by
  induction names generalizing here with
  | nil =>
    cases h
    rw [List.nil_append, follow]
    split <;> simp_all [follow]
  | cons x names ih =>
    rw [follow] at h
    rw [List.cons_append, follow]
    split at h
    · exact ih h
    · cases h

theorem follow_plain {d : Disk} {here : Location} {names : List String}
    (hplain : ∀ name ∈ names, IsPlainName name)
    (hway : ∀ k < names.length, d.Passable (here ++ names.take k)) :
    d.follow here names = .ok (here ++ names) ∨ d.follow here names = .error .missing := by
  induction names generalizing here with
  | nil => exact .inl (by simp [follow])
  | cons name names ih =>
    rw [follow]
    rcases hway 0 (by simp) with hget | hget <;> rw [List.take_zero, List.append_nil] at hget
    · have hmissing : d.enter here name = .error .missing := by rw [enter, hget]
      rw [hmissing]
      exact .inr rfl
    · rw [enter_plain (hplain name (by simp)) hget]
      have hrest : ∀ k < names.length, d.Passable (here ++ [name] ++ names.take k) := by
        intro k hk
        have hnext := hway (k + 1) (by simpa using hk)
        simpa using hnext
      have hfollow := ih (fun x hx => hplain x (by simp [hx])) hrest
      simpa using hfollow

/-- A folder was made out of another disk, by creating folders down to it. -/
structure Opened (d d' : Disk) (here : Location) (names : List String) : Prop where
  start : d'.start = d.start
  reached : d'.follow here names = .ok (here ++ names)
  folder : d'.get? (here ++ names) = some .folder
  others : ∀ l, d'.get? l = d.get? l ∨ l.length ≤ (here ++ names).length ∧ d'.get? l = some .folder

namespace Opened

variable {d d' : Disk} {here : Location} {names : List String}

theorem passable (h : Opened d d' here names) {l : Location} (hl : d.Passable l) : d'.Passable l := by
  rcases h.others l with hsame | ⟨-, hfolder⟩
  · rwa [Passable, hsame]
  · exact .inr hfolder

theorem concat {d'' : Disk} {name : String} (h : Opened d d' here names)
    (h' : Opened d' d'' here (names ++ [name])) : Opened d d'' here (names ++ [name]) where
  start := h'.start.trans h.start
  reached := h'.reached
  folder := h'.folder
  others l := by
    rcases h'.others l with hsame | hnew
    · rcases h.others l with hold | ⟨hlen, hfolder⟩
      · exact .inl (hsame.trans hold)
      · refine .inr ⟨?_, hsame.trans hfolder⟩
        simp only [List.length_append] at hlen ⊢
        omega
    · exact .inr hnew

end Opened

/-- Creating a folder that can be reached: it is created, or it was there. -/
theorem createFolder_cases {d : Disk} {p : Path} {l : Location} (hl : d.locate p = .ok l)
    (hnames : p.names ≠ []) (hlast : p.names.getLast? ≠ some "..") (h : d.Passable l) :
    d.get? l = none ∧ d.createFolder p = .ok (d.put l .folder) ∨
      d.get? l = some .folder ∧ d.createFolder p = .error .taken ∧ d.isFolder p = true := by
  have hnames' : p.names.isEmpty = false := by simpa using hnames
  rcases h with hget | hget
  · refine .inl ⟨hget, ?_⟩
    simp [createFolder, hl, hnames', hlast, hget]
  · refine .inr ⟨hget, ?_, ?_⟩
    · simp [createFolder, hl, hget]
    · simp [isFolder, find, hl, hget]

theorem locate_of_plain {d : Disk} {p : Path} (hnames : p.names ≠ [])
    (hplain : ∀ name ∈ p.names, IsPlainName name) : d.locate p = d.follow (d.origin p) p.names := by
  have hnul : p.names.any (·.toList.contains '\x00') = false := by
    simp only [List.any_eq_false, Bool.not_eq_true]
    exact fun name hname => (hplain name hname).2.2
  rw [locate, hnul, Path.isEmpty]
  simp [hnames]

theorem getLast?_ne_of_plain {names : List String} (hplain : ∀ name ∈ names, IsPlainName name) :
    names.getLast? ≠ some ".." :=
  fun h => (hplain _ (List.mem_of_getLast? h)).1 rfl

/-- A folder is opened once the one above it is. -/
theorem createFolder_opened {d : Disk} {p : Path} (hnames : p.names ≠ [])
    (hplain : ∀ name ∈ p.names, IsPlainName name)
    (hfollow : d.follow (d.origin p) p.names = .ok (d.origin p ++ p.names))
    (hpass : d.Passable (d.origin p ++ p.names)) :
    ∃ d', Opened d d' (d.origin p) p.names ∧ (d.createFolder p = .ok d' ∨
      d.createFolder p = .error .taken ∧ d.isFolder p = true ∧ d' = d) := by
  have hl : d.locate p = .ok (d.origin p ++ p.names) := (locate_of_plain hnames hplain).trans hfollow
  rcases createFolder_cases hl hnames (getLast?_ne_of_plain hplain) hpass with
    ⟨hnone, hcreate⟩ | ⟨hfolder, htaken⟩
  · have hnot : d.get? (d.origin p ++ p.names) ≠ some .folder := by simp [hnone]
    have hself := get?_put_self (ne_nil_of_not_folder hnot) d .folder
    refine ⟨d.put (d.origin p ++ p.names) .folder, ⟨rfl, follow_put hnot _ hfollow, hself, ?_⟩,
      .inl hcreate⟩
    intro l
    by_cases hlocation : l = d.origin p ++ p.names
    · subst hlocation
      exact .inr ⟨Nat.le_refl _, hself⟩
    · exact .inl (get?_put_of_ne hlocation d _)
  · exact ⟨d, ⟨rfl, hfollow, hfolder, fun _ => .inl rfl⟩, .inr ⟨htaken.1, htaken.2, rfl⟩⟩

/-- Folders along plain names, given backwards, are created wherever no file is in the way. -/
theorem createFolders_opened {d : Disk} {absolute : Bool} {here : Location}
    (hhere : d.origin ⟨absolute, [], false⟩ = here) (hroot : d.get? here = some .folder)
    (above : List String) (hplain : ∀ name ∈ above, IsPlainName name)
    (hway : ∀ k ≤ above.length, d.Passable (here ++ above.reverse.take k)) :
    ∃ d', d.createFolders absolute above = (.ok (), d') ∧ Opened d d' here above.reverse := by
  induction above with
  | nil => exact ⟨d, rfl, rfl, by simp [follow], by simpa using hroot, fun _ => .inl rfl⟩
  | cons name above ih =>
    generalize hp : (⟨absolute, (name :: above).reverse, false⟩ : Path) = p
    have hnames : p.names = above.reverse ++ [name] := by rw [← hp]; exact List.reverse_cons
    have horigin : d.origin p = here := by rw [← hp]; exact hhere
    have hne : p.names ≠ [] := by simp [hnames]
    have hplain' : ∀ x ∈ p.names, IsPlainName x := by
      rw [← hp]
      exact fun x hx => hplain x (List.mem_reverse.1 hx)
    have hend : d.Passable (here ++ p.names) := by
      have hlast := hway _ (Nat.le_refl _)
      rwa [List.take_of_length_le (by simp), List.reverse_cons, ← hnames] at hlast
    have hbefore : ∀ k ≤ above.length, d.Passable (here ++ above.reverse.take k) := by
      intro k hk
      have hlonger := hway k (Nat.le_succ_of_le hk)
      rwa [List.reverse_cons, List.take_append_of_le_length (by simpa using hk)] at hlonger
    rw [createFolders, hp, List.reverse_cons, ← hnames]
    have hfollow : d.follow here p.names = .ok (here ++ p.names) ∨
        d.follow here p.names = .error .missing := by
      refine follow_plain hplain' fun k hk => ?_
      rw [hnames, List.length_append, List.length_reverse, List.length_singleton] at hk
      rw [hnames, List.take_append_of_le_length (by simp; omega)]
      exact hbefore k (Nat.le_of_lt_succ hk)
    rcases hfollow with hfollow | hmissing
    · rw [← horigin] at hfollow hend
      obtain ⟨d', hopened, hcreate | ⟨htaken, hfolder, rfl⟩⟩ :=
        createFolder_opened hne hplain' hfollow hend
      · rw [hcreate]
        exact ⟨d', rfl, horigin ▸ hopened⟩
      · simp only [htaken, hfolder, if_true]
        exact ⟨d', rfl, horigin ▸ hopened⟩
    · -- The folder above has to be created first.
      obtain ⟨d₁, hcreate₁, hopened₁⟩ := ih (fun x hx => hplain x (by simp [hx])) hbefore
      have horigin₁ : d₁.origin p = here := by rw [origin, hopened₁.start, ← horigin, origin]
      have hfollow₁ : d₁.follow here p.names = .ok (here ++ p.names) := by
        rw [hnames, follow_concat hopened₁.reached, enter_plain (hplain name (by simp)) hopened₁.folder,
          List.append_assoc]
      have hend₁ := hopened₁.passable hend
      have hcreate : d.createFolder p = .error .missing := by
        rw [createFolder, locate_of_plain hne hplain', horigin, hmissing]
      rw [← horigin₁] at hfollow₁ hend₁
      obtain ⟨d', hopened, hcreate' | ⟨htaken, hfolder, rfl⟩⟩ :=
        createFolder_opened hne hplain' hfollow₁ hend₁
      all_goals
        rw [horigin₁, hnames] at hopened
        refine ⟨d', ?_, hnames ▸ hopened₁.concat hopened⟩
      · simp only [hcreate, hcreate₁, hcreate']
      · simp only [hcreate, hcreate₁, htaken, hfolder, if_true]

/-- A file can be written where nothing is in the way. -/
theorem Free.write {d : Disk} {p : Path} (h : d.Free p) (content : ByteArray) :
    ∃ d₁ d₂, d.createFoldersAbove p = (.ok (), d₁) ∧ d₁.write p content = .ok d₂ := by
  obtain ⟨above, name, hnames⟩ : ∃ above name, p.names = above ++ [name] :=
    ⟨_, _, (List.dropLast_concat_getLast h.names).symm⟩
  have hplain : ∀ x ∈ above.reverse, IsPlainName x := by
    intro x hx
    refine h.plain x ?_
    rw [hnames]
    exact List.mem_append_left _ (List.mem_reverse.1 hx)
  have hway : ∀ k ≤ above.reverse.length, d.Passable (d.origin p ++ above.reverse.reverse.take k) := by
    intro k hk
    rw [List.length_reverse] at hk
    have hstep := h.way k (by simp [hnames]; omega)
    rwa [hnames, List.take_append_of_le_length hk, ← List.reverse_reverse above] at hstep
  have hhere : d.origin ⟨p.absolute, [], false⟩ = d.origin p := rfl
  obtain ⟨d₁, hcreate, hopened⟩ := createFolders_opened hhere h.origin above.reverse hplain hway
  rw [List.reverse_reverse] at hopened
  have hlocate : d₁.locate p = .ok (d.origin p ++ p.names) := by
    have horigin : d₁.origin p = d.origin p := by
      rw [Disk.origin, hopened.start, Disk.origin]
    rw [locate_of_plain h.names h.plain, horigin, hnames, follow_concat hopened.reached,
      enter_plain (h.plain name (by simp [hnames])) hopened.folder, List.append_assoc]
  -- The folders that were created are higher up than the file.
  have htarget : d₁.get? (d.origin p ++ p.names) ≠ some .folder := by
    rcases hopened.others (d.origin p ++ p.names) with hsame | ⟨hlen, -⟩
    · rw [hsame]
      exact h.target
    · simp only [hnames, List.length_append, List.length_singleton] at hlen
      omega
  refine ⟨d₁, d₁.put (d.origin p ++ p.names) (.file content), ?_, ?_⟩
  · rw [createFoldersAbove, hnames, List.reverse_append]
    exact hcreate
  · have hpath : ¬ (p.names.isEmpty = true ∨ p.names.getLast? = some "..") := by
      simp [h.names, getLast?_ne_of_plain h.plain]
    rw [Disk.write, hlocate]
    dsimp only
    rw [if_neg hpath]
    split
    · exact absurd ‹_› htarget
    all_goals simp [h.toFile]

end StreamServer.Disk
