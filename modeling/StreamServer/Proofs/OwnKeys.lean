/-
Every setting is read from its own key. A configuration is filled in entry by
entry, and an entry either belongs to one setting, which takes its value or
complains about it, or to none, and then it is passed over. So what comes out
does not depend on the order of the entries, nor on those that belong to no
setting; only which complaint is made does, if there are several: that about
the first entry whose value its setting cannot take.
-/
import Mathlib
import StreamServer.Config.File
import StreamServer.Config.Object
import StreamServer.Proofs.SettingKeys
import StreamServer.Proofs.TomlTables

namespace StreamServer

/-! ## Objects of JSON -/

namespace Json

/-- What a written number stands for: itself, if it is a whole one that fits 64 bits with or without a
sign, and else the float it is rounded to. -/
inductive NumberMeans (digits : String) : Value → Prop
  | integer {n : Int} (hw : isWhole digits = true) (hn : digits.toInt? = some n)
      (hfits : -2 ^ 63 ≤ n ∧ n < 2 ^ 64) : NumberMeans digits (.integer n)
  | float {x} (hx : float digits = some x) (hother : ∀ n : Int, isWhole digits = true →
      digits.toInt? = some n → ¬(-2 ^ 63 ≤ n ∧ n < 2 ^ 64)) : NumberMeans digits (.float x)

mutual

/-- The value a piece of JSON stands for. -/
def Means : Json → Value → Prop
  | .null, v => v = .null
  | .boolean b, v => v = .boolean b
  | .number digits, v => NumberMeans digits v
  | .text s, v => v = .text s
  | .array items, v => ∃ vs, v = .array vs ∧ ItemsMean items vs
  | .object fields, v => ∃ es, v = .table .object es ∧ FieldsMean fields es

def ItemsMean : List Json → List Value → Prop
  | [], vs => vs = []
  | item :: items, vs => ∃ v rest, vs = v :: rest ∧ item.Means v ∧ ItemsMean items rest

/-- Field by field, the entries have the same keys and the values that stand under them. -/
def FieldsMean : List (String × Json) → Entries → Prop
  | [], es => es = []
  | (key, j) :: fields, es => ∃ v rest, es = (key, v) :: rest ∧ j.Means v ∧ FieldsMean fields rest

end

theorem numberValue_of_fits {digits : String} {n : Int} (hw : isWhole digits = true)
    (hn : digits.toInt? = some n) (hfits : -2 ^ 63 ≤ n ∧ n < 2 ^ 64) :
    numberValue digits = some (.integer n) := by
  simp only [numberValue, hw, if_true, hn]
  exact if_pos hfits

theorem numberValue_of_other {digits : String} (hother : ∀ n : Int, isWhole digits = true →
    digits.toInt? = some n → ¬(-2 ^ 63 ≤ n ∧ n < 2 ^ 64)) :
    numberValue digits = (float digits).map .float := by
  unfold numberValue
  split
  · rename_i n h
    split at h
    · exact if_neg (hother n ‹_› h)
    · cases h
  · rfl

theorem numberValue_eq_some_iff {digits : String} {v : Value} :
    numberValue digits = some v ↔ NumberMeans digits v := by
  constructor
  · intro h
    by_cases hfits : ∃ n : Int, isWhole digits = true ∧ digits.toInt? = some n ∧
        (-2 ^ 63 ≤ n ∧ n < 2 ^ 64)
    · obtain ⟨n, hw, hn, hfits⟩ := hfits
      cases (numberValue_of_fits hw hn hfits).symm.trans h
      exact .integer hw hn hfits
    · have hother : ∀ n : Int, isWhole digits = true → digits.toInt? = some n →
          ¬(-2 ^ 63 ≤ n ∧ n < 2 ^ 64) := fun n hw hn hn' => hfits ⟨n, hw, hn, hn'⟩
      rw [numberValue_of_other hother] at h
      obtain ⟨x, hx, rfl⟩ := Option.map_eq_some_iff.1 h
      exact .float hx hother
  · intro h
    cases h with
    | integer hw hn hfits => exact numberValue_of_fits hw hn hfits
    | float hx hother => rw [numberValue_of_other hother, hx, Option.map_some]

mutual

theorem toValue_eq_some_iff (j : Json) (v : Value) : j.toValue = some v ↔ j.Means v := by
  cases j with
  | null | boolean | text => simp [toValue, Means, eq_comm]
  | number => simp only [toValue, Means, numberValue_eq_some_iff]
  | array items => simp [toValue, Means, toValues_eq_some_iff items, and_comm, eq_comm]
  | object fields => simp [toValue, Means, toEntries_eq_some_iff fields, and_comm, eq_comm]

theorem toValues_eq_some_iff (items : List Json) (vs : List Value) :
    toValues items = some vs ↔ ItemsMean items vs := by
  cases items with
  | nil => simp [toValues, ItemsMean, eq_comm]
  | cons item items =>
    simp only [toValues, ItemsMean, ← toValue_eq_some_iff item, ← toValues_eq_some_iff items]
    cases item.toValue <;> cases toValues items <;> simp [eq_comm]

theorem toEntries_eq_some_iff (fields : List (String × Json)) (es : Entries) :
    toEntries fields = some es ↔ FieldsMean fields es := by
  cases fields with
  | nil => simp [toEntries, FieldsMean, eq_comm]
  | cons field fields =>
    obtain ⟨key, j⟩ := field
    simp only [toEntries, FieldsMean, ← toValue_eq_some_iff j, ← toEntries_eq_some_iff fields]
    cases j.toValue <;> cases toEntries fields <;> simp [eq_comm]

end

theorem keys_of_fieldsMean {fields : List (String × Json)} {es : Entries} (h : FieldsMean fields es) :
    es.keys = fields.map (·.1) := by
  induction fields generalizing es with
  | nil =>
    rw [FieldsMean] at h
    rw [h]
    rfl
  | cons field fields ih =>
    obtain ⟨key, j⟩ := field
    obtain ⟨v, rest, rfl, -, hrest⟩ := h
    rw [Entries.keys, List.map_cons, List.map_cons]
    exact congrArg _ (ih hrest)

end Json

namespace Config

variable {b c : Config} {es : Entries} {key : String} {k : Key} {v : Value} {e : ValueError}

theorem bind_eq_ok_iff {ε α β : Type} {x : Except ε α} {f : α → Except ε β} {y : β} :
    x >>= f = .ok y ↔ ∃ a, x = .ok a ∧ f a = .ok y := by
  cases x <;> simp [bind, Except.bind]

/-! ## Filling in -/

/-- Takes entries in one after another. -/
def fill (c : Config) (es : Entries) : Except ValueError Config :=
  es.foldlM (fun c (key, v) => c.set key v) c

theorem fill_other (c : Config) (h : Key.ofName? key = none) (v : Value) (es : Entries) :
    c.fill ((key, v) :: es) = c.fill es := by
  rw [fill, List.foldlM_cons]
  dsimp only
  rw [set_other c h]
  rfl

theorem fill_name (c : Config) (k : Key) (v : Value) (es : Entries) :
    c.fill ((k.name, v) :: es) = k.read v >>= fun x => (k.put c x).fill es := by
  rw [fill, List.foldlM_cons]
  dsimp only
  rw [set_name]
  cases k.read v <;> rfl

/-! ## What comes out -/

/-- Each setting is what the entry with its key stands for, and as in `b` where there is none. -/
def GivenBy (b : Config) (es : Entries) (c : Config) : Prop :=
  ∀ k : Key, (∀ v, (k.name, v) ∈ es → k.Means v (k.of c)) ∧ (k.name ∉ es.keys → k.of c = k.of b)

theorem givenBy_cons_other (h : Key.ofName? key = none) :
    GivenBy b ((key, v) :: es) c ↔ GivenBy b es c := by
  refine forall_congr' fun k => ?_
  have hne : k.name ≠ key := k.name_ne_of_ofName? h
  simp [Entries.keys, hne]

/-- The setting of the first entry is no longer given by the others. -/
theorem givenBy_cons_name (hnew : k.name ∉ es.keys) :
    GivenBy b ((k.name, v) :: es) c ↔ ∃ x, k.Means v x ∧ GivenBy (k.put b x) es c := by
  constructor
  · intro h
    refine ⟨k.of c, (h k).1 v List.mem_cons_self, fun j => ⟨fun w hw => ?_, fun habsent => ?_⟩⟩
    · exact (h j).1 w (List.mem_cons_of_mem _ hw)
    · by_cases hj : j = k
      · rw [hj, Key.of_put]
      · rw [Key.of_put_of_ne hj]
        refine (h j).2 fun hmem => ?_
        rcases List.mem_cons.1 hmem with hname | hmem
        · exact hj (Key.name_injective hname)
        · exact habsent hmem
  · rintro ⟨x, hx, h⟩ j
    refine ⟨fun w hw => ?_, fun habsent => ?_⟩
    · rcases List.mem_cons.1 hw with heq | hw
      · obtain ⟨hname, rfl⟩ := Prod.mk.inj heq
        obtain rfl := Key.name_injective hname
        rwa [(h j).2 hnew, Key.of_put]
      · exact (h j).1 w hw
    · obtain ⟨hname, habsent⟩ := not_or.1 (mt List.mem_cons.2 habsent)
      rw [(h j).2 habsent, Key.of_put_of_ne fun hj => hname (congrArg Key.name hj)]

theorem fill_eq_ok_iff (hkeys : es.keys.Nodup) : b.fill es = .ok c ↔ GivenBy b es c := by
  -- What an entry sets stays, since no other has its key: it is the base for the others.
  induction es generalizing b with
  | nil =>
    constructor
    · intro h
      obtain rfl := Except.ok.inj h
      exact fun k => ⟨fun v hv => absurd hv List.not_mem_nil, fun _ => rfl⟩
    · intro h
      rw [eq_of_settings fun k => (h k).2 List.not_mem_nil]
      rfl
  | cons entry es ih =>
    obtain ⟨key, v⟩ := entry
    obtain ⟨hnew, hothers⟩ := List.nodup_cons.1 hkeys
    cases hkey : Key.ofName? key with
    | none => rw [fill_other b hkey, ih hothers, givenBy_cons_other hkey]
    | some k =>
      obtain rfl := Key.name_of_ofName? hkey
      rw [fill_name, bind_eq_ok_iff, givenBy_cons_name hnew]
      simp only [Key.read_eq_ok, ih hothers]

/-! ## What is complained about -/

/-- Of the entries whose settings cannot take their values, the first is complained about. -/
def FirstFault (es : Entries) (e : ValueError) : Prop :=
  ∃ before k v after, es = before ++ (Key.name k, v) :: after ∧
    (∀ j w, (Key.name j, w) ∈ before → ∃ x, j.Means w x) ∧ k.read v = .error e

theorem firstFault_cons_of_fine (hfine : ∀ j, key = Key.name j → ∃ x, j.Means v x) :
    FirstFault ((key, v) :: es) e ↔ FirstFault es e := by
  constructor
  · rintro ⟨before, k, w, after, hes, hbefore, hbad⟩
    rcases List.cons_eq_append_iff.1 hes with ⟨-, heq⟩ | ⟨before, rfl, hrest⟩
    · obtain ⟨heq, -⟩ := List.cons.inj heq
      obtain ⟨hname, rfl⟩ := Prod.mk.inj heq
      obtain ⟨x, hx⟩ := hfine k hname.symm
      cases hbad.symm.trans (Key.read_eq_ok.2 hx)
    · exact ⟨before, k, w, after, hrest, fun j w hw => hbefore j w (List.mem_cons_of_mem _ hw), hbad⟩
  · rintro ⟨before, k, w, after, rfl, hbefore, hbad⟩
    refine ⟨(key, v) :: before, k, w, after, rfl, fun j w hw => ?_, hbad⟩
    rcases List.mem_cons.1 hw with heq | hw
    · obtain ⟨hname, rfl⟩ := Prod.mk.inj heq
      exact hfine j hname.symm
    · exact hbefore j w hw

theorem firstFault_cons_of_bad {e' : ValueError} (hbad : k.read v = .error e') :
    FirstFault ((k.name, v) :: es) e ↔ e' = e := by
  constructor
  · rintro ⟨before, j, w, after, hes, hbefore, hj⟩
    rcases List.cons_eq_append_iff.1 hes with ⟨-, heq⟩ | ⟨before, rfl, -⟩
    · obtain ⟨heq, -⟩ := List.cons.inj heq
      obtain ⟨hname, rfl⟩ := Prod.mk.inj heq
      obtain rfl := Key.name_injective hname
      exact Except.error.inj (hbad.symm.trans hj)
    · obtain ⟨x, hx⟩ := hbefore k v List.mem_cons_self
      cases hbad.symm.trans (Key.read_eq_ok.2 hx)
  · rintro rfl
    exact ⟨[], k, v, es, rfl, fun _ _ hw => absurd hw List.not_mem_nil, hbad⟩

theorem fill_eq_error_iff : b.fill es = .error e ↔ FirstFault es e := by
  induction es generalizing b with
  | nil =>
    constructor
    · intro h
      cases h
    · rintro ⟨before, k, v, after, hes, -⟩
      simp at hes
  | cons entry es ih =>
    obtain ⟨key, v⟩ := entry
    cases hkey : Key.ofName? key with
    | none =>
      rw [fill_other b hkey, ih, firstFault_cons_of_fine]
      intro j hname
      exact absurd hname.symm (j.name_ne_of_ofName? hkey)
    | some k =>
      obtain rfl := Key.name_of_ofName? hkey
      rw [fill_name]
      cases hread : k.read v with
      | error e' =>
        rw [firstFault_cons_of_bad hread]
        exact ⟨Except.error.inj, congrArg Except.error⟩
      | ok x =>
        rw [firstFault_cons_of_fine]
        · exact ih
        · intro j hname
          obtain rfl := Key.name_injective hname
          exact ⟨x, Key.read_eq_ok.1 hread⟩

/-! ## Entries that do not matter -/

/-- The entries that belong to settings. -/
def belonging (es : Entries) : Entries := es.filter fun entry => (Key.ofName? entry.1).isSome

theorem fill_belonging (b : Config) (es : Entries) : b.fill (belonging es) = b.fill es := by
  induction es generalizing b with
  | nil => rfl
  | cons entry es ih =>
    obtain ⟨key, v⟩ := entry
    cases hkey : Key.ofName? key with
    | none =>
      rw [fill_other b hkey, ← ih]
      simp [belonging, hkey]
    | some k =>
      have hcons : belonging ((key, v) :: es) = (key, v) :: belonging es := by simp [belonging, hkey]
      obtain rfl := Key.name_of_ofName? hkey
      rw [hcons, fill_name, fill_name]
      exact bind_congr fun x => ih _

theorem GivenBy.perm {es' : Entries} (hperm : es.Perm es') (h : GivenBy b es c) : GivenBy b es' c := by
  intro k
  refine ⟨fun v hv => (h k).1 v (hperm.mem_iff.2 hv), fun habsent => (h k).2 fun hmem => ?_⟩
  exact habsent ((hperm.map _).mem_iff.1 hmem)

theorem parse_of_read? {text : String} (h : Toml.read? text = some es) :
    parse text = (ofEntries es).mapError fun e => .parse e.fault := by
  rw [parse, h]
  dsimp only
  cases ofEntries es <;> rfl

/-- A text that is not TOML is told apart from one with values that cannot be taken. -/
theorem parse_eq_grammar_iff {text : String} :
    parse text = .error (.parse .grammar) ↔ Toml.read? text = none := by
  constructor
  · intro h
    cases hread : Toml.read? text with
    | none => rfl
    | some es =>
      rw [parse_of_read? hread] at h
      cases hof : ofEntries es with
      | ok c =>
        rw [hof] at h
        cases h
      | error e =>
        rw [hof] at h
        cases e <;> cases h
  · intro h
    rw [parse, h]

/-- **Every setting is read from its own key.** In a table whose keys differ, each of the ten settings is
what the value under its own key stands for, or its default if the key is missing; otherwise the first
entry that its setting cannot take is complained about. Neither the order of the entries nor entries with
other keys matter. So it is for the table of a TOML document, where no key stands twice, and for an object
of JSON unless a number in it is out of range. -/
theorem settings_are_read_apart :
    (∀ es : Entries, es.keys.Nodup →
      (∀ c, ofEntries es = .ok c ↔ GivenBy standard es c) ∧
      (∀ e, ofEntries es = .error e ↔ FirstFault es e) ∧
      (∀ es' : Entries, es.Perm es' → ∀ c, ofEntries es' = .ok c ↔ ofEntries es = .ok c) ∧
      ∀ es' : Entries, belonging es' = belonging es → ofEntries es' = ofEntries es) ∧
    (∀ text es, Toml.read? text = some es →
      es.keys.Nodup ∧ parse text = (ofEntries es).mapError fun e => .parse e.fault) ∧
    (∀ text, parse text = .error (.parse .grammar) ↔ Toml.read? text = none) ∧
    (∀ fields es, Json.FieldsMean fields es → es.keys = fields.map (·.1) ∧
      ofObject fields = (ofEntries es).mapError ValueError.message) ∧
    ∀ fields, (∀ es, ¬Json.FieldsMean fields es) → ofObject fields = .error "number out of range" := by
  refine ⟨fun es hkeys => ⟨fun c => fill_eq_ok_iff hkeys, fun e => fill_eq_error_iff, fun es' hperm c => ?_,
      fun es' hsame => ?_⟩,
    fun text es hread => ⟨Toml.lasting_nodup_keys.of_read? hread, parse_of_read? hread⟩,
    fun text => parse_eq_grammar_iff, fun fields es hmeans => ⟨Json.keys_of_fieldsMean hmeans, ?_⟩,
    fun fields hnone => ?_⟩
  · have hkeys' : (Entries.keys es').Nodup := (hperm.map _).nodup_iff.1 hkeys
    exact (fill_eq_ok_iff hkeys').trans
      (Iff.trans ⟨.perm hperm.symm, .perm hperm⟩ (fill_eq_ok_iff hkeys).symm)
  · have hfill := standard.fill_belonging es'
    rw [hsame, fill_belonging] at hfill
    exact hfill.symm
  · rw [ofObject, (Json.toEntries_eq_some_iff fields es).2 hmeans]
  · have hentries : Json.toEntries fields = none := by
      refine Option.eq_none_iff_forall_ne_some.2 fun es hes => ?_
      exact hnone es ((Json.toEntries_eq_some_iff fields es).1 hes)
    rw [ofObject, hentries]

/-- A table with three settings, and a key that is none. -/
def crossed : Entries :=
  [("remote_port", .integer 5000), ("retry_delay", .integer 2),
    ("theme", .table .dotted [("dark", .boolean true)]), ("mode", .text "listen")]

/-- Its text. -/
def crossedText : String :=
  "remote_port = 5000\nretry_delay = 2\ntheme.dark = true\nmode = \"listen\"\n"

def crossedConfig : Config := { mode := .localListen, remotePort := 5000, retryDelay := .ofSecs 2 }

/-- Two settings cannot take these values. -/
def spoiled : Entries :=
  [("theme", .null), ("remote_port", .integer 70000), ("mode", .text "udp")]

theorem settings_are_read_apart_crossed :
    crossed.keys.Nodup ∧ GivenBy standard crossed crossedConfig ∧
    ofEntries crossed.reverse = .ok crossedConfig ∧ ofEntries (belonging crossed) = .ok crossedConfig ∧
    (∃ es, Toml.read? crossedText = some es ∧ es.keys.Nodup ∧ GivenBy standard es crossedConfig) ∧
    spoiled.keys.Nodup ∧ FirstFault spoiled (.outOfRange 70000 .word16) := by
  obtain ⟨htables, htexts, -⟩ := settings_are_read_apart
  have hkeys : crossed.keys.Nodup := by simp [crossed, Entries.keys]
  have hkeys' : spoiled.keys.Nodup := by simp [spoiled, Entries.keys]
  obtain ⟨hgiven, -, hperm, hothers⟩ := htables crossed hkeys
  have hread : ofEntries crossed = .ok crossedConfig := by decide +kernel
  have hread' : ofEntries spoiled = .error (.outOfRange 70000 .word16) := by decide +kernel
  refine ⟨hkeys, (hgiven _).1 hread, (hperm _ crossed.reverse_perm.symm _).2 hread, ?_, ?_, hkeys',
    ((htables spoiled hkeys').2.1 _).1 hread'⟩
  · rw [hothers _ (by simp [belonging]), hread]
  · have hparse : parse crossedText = .ok crossedConfig := by decide +kernel
    cases hes : Toml.read? crossedText with
    | none =>
      rw [parse, hes] at hparse
      cases hparse
    | some es =>
      obtain ⟨hdistinct, hsame⟩ := htexts crossedText es hes
      refine ⟨es, rfl, hdistinct, ((htables es hdistinct).1 _).1 ?_⟩
      rw [hparse] at hsame
      cases hof : ofEntries es with
      | error e =>
        rw [hof] at hsame
        cases hsame
      | ok c =>
        rw [hof] at hsame
        rw [Except.ok.inj hsame]

end Config

end StreamServer
