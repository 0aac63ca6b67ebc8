/-
What the reader of TOML gives. A document is read by filling in tables: a new
key is added at the end, a table takes the place of one that was there, or is
taken out to be put in again. What none of these steps can undo holds of the
entries of every document. So its numbers have 64 bits, and no key stands
twice.
-/
import Mathlib
import StreamServer.Proofs.Settling
import StreamServer.Toml.Reader

namespace StreamServer

/-! ## Values that are read -/

attribute [local irreducible] Binary64.one Binary64.overflow

theorem Binary64.genuine_ofDecimal (negative : Bool) (m : Nat) (e : Int) :
    (ofDecimal negative m e).Genuine := by
  rw [ofDecimal.eq_def]
  dsimp only
  split
  · exact ⟨0, 0, by decide, rfl⟩
  · split
    · trivial
    · split
      · exact genuine_ofRatio _ _ Nat.one_pos
      · exact genuine_ofRatio _ _ (Nat.pow_pos (by decide))

/-- Every value of the table itself is genuine; what is inside its values does not matter. -/
def Entries.Genuine (es : Entries) : Prop := ∀ e ∈ es, e.2.Genuine

/-- The keys of a table, in the order they were written. -/
def Entries.keys (es : Entries) : List String := es.map (·.1)

namespace Entries

variable {es : Entries} {key : String} {v : Value}

theorem Genuine.append (h : es.Genuine) (hv : v.Genuine) : Genuine (es ++ [(key, v)]) := by
  intro e he
  rcases List.mem_append.1 he with he | he
  · exact h e he
  · rw [List.mem_singleton.1 he]
    exact hv

theorem Genuine.put (h : es.Genuine) (hv : v.Genuine) : (es.put key v).Genuine := by
  induction es with
  | nil => exact Genuine.append h hv
  | cons e es ih =>
    have htail : Genuine es := fun e he => h e (by simp [he])
    rw [Entries.put]
    split
    · exact List.forall_mem_cons.2 ⟨hv, htail⟩
    · exact List.forall_mem_cons.2 ⟨h e (by simp), ih htail⟩

theorem Genuine.erase (h : es.Genuine) : (es.erase key).Genuine :=
  fun e he => h e (List.mem_of_mem_filter he)

theorem get?_eq_none_iff : es.get? key = none ↔ key ∉ es.keys := by
  rw [get?, List.lookup_eq_none_iff, keys, List.mem_map]
  constructor
  · rintro h ⟨e, he, rfl⟩
    simpa using h e he
  · intro h e he
    exact bne_iff_ne.2 fun heq => h ⟨e, he, heq.symm⟩

theorem get?_erase_self : (es.erase key).get? key = none := by
  rw [get?_eq_none_iff, keys, List.mem_map]
  rintro ⟨e, he, rfl⟩
  simpa using (List.mem_filter.1 he).2

theorem nodup_keys_append (h : es.keys.Nodup) (hnew : es.get? key = none) :
    (keys (es ++ [(key, v)])).Nodup := by
  rw [keys, List.map_append, List.map_singleton, ← List.concat_eq_append]
  exact h.concat (get?_eq_none_iff.1 hnew)

/-- The key had a place, which it keeps, or comes last. -/
theorem keys_put : (es.put key v).keys = if key ∈ es.keys then es.keys else es.keys ++ [key] := by
  induction es with
  | nil => rfl
  | cons e es ih =>
    by_cases hkey : e.1 = key
    · simp [put, keys, hkey]
    · simp only [keys] at ih
      by_cases hmem : key ∈ es.map (·.1) <;>
        simp [put, keys, hkey, ih, hmem, Ne.symm hkey]

theorem nodup_keys_put (h : es.keys.Nodup) : (es.put key v).keys.Nodup := by
  rw [keys_put]
  split
  · exact h
  · rw [← List.concat_eq_append]
    exact h.concat ‹_›

theorem nodup_keys_erase (h : es.keys.Nodup) : (es.erase key).keys.Nodup :=
  h.sublist (List.filter_sublist.map _)

end Entries

namespace Toml

variable {v : Value} {cs rest : List Char}

theorem genuine_of_integer? {n : Int} (h : integer? n = some v) : v.Genuine := by
  rw [integer?, Option.ite_none_right_eq_some, Option.some_inj] at h
  obtain ⟨⟨-, hn⟩, rfl⟩ := h
  have hsize : Int.pow 2 63 ≤ UInt64.size := by decide
  exact hn.trans_le hsize

theorem genuine_of_based? {base : Nat} {isDigit : Char → Bool} (h : based? base isDigit cs = some v) :
    v.Genuine := by
  rw [based?] at h
  split at h
  · exact genuine_of_integer? h
  · cases h

theorem genuine_of_scaled? {negative : Bool} {whole fraction : List Char} {exponent : Int}
    (h : scaled? negative whole fraction exponent = some v) : v.Genuine := by
  rw [scaled?, float?, Option.ite_none_left_eq_some, Option.some_inj] at h
  rw [← h.2]
  exact Binary64.genuine_ofDecimal _ _ _

theorem genuine_of_decimalRest? {negative : Bool} {whole : List Char}
    (h : decimalRest? negative whole cs = some v) : v.Genuine := by
  rw [decimalRest?.eq_def] at h
  split at h
  · exact genuine_of_integer? h
  · split at h
    · exact genuine_of_scaled? h
    · obtain ⟨-, h⟩ := Option.ite_none_right_eq_some.1 h
      obtain ⟨e, -, h⟩ := Option.bind_eq_some_iff.1 h
      exact genuine_of_scaled? h
    · cases h
  · obtain ⟨-, h⟩ := Option.ite_none_right_eq_some.1 h
    obtain ⟨e, -, h⟩ := Option.bind_eq_some_iff.1 h
    exact genuine_of_scaled? h

theorem genuine_of_unsigned? {negative : Bool} (h : unsigned? negative cs = some v) : v.Genuine := by
  rw [unsigned?.eq_def] at h
  split at h
  · cases h
    trivial
  · cases h
    trivial
  · obtain ⟨⟨ds, rest⟩, -, h⟩ := Option.bind_eq_some_iff.1 h
    exact genuine_of_decimalRest? h

theorem genuine_of_number? (h : number? cs = some v) : v.Genuine := by
  rw [number?.eq_def] at h
  split at h
  · exact genuine_of_based? h
  · exact genuine_of_based? h
  · exact genuine_of_based? h
  all_goals exact genuine_of_unsigned? h

theorem eq_of_moment? (h : moment? cs = some v) : v = .moment := by
  rw [moment?] at h
  split at h
  · exact (Option.some.inj h).symm
  · exact (Option.some.inj (Option.ite_none_right_eq_some.1 h).2).symm
  · exact (Option.some.inj (Option.ite_none_right_eq_some.1 h).2).symm

theorem genuine_of_plain? (h : plain? cs = some (v, rest)) : v.Genuine := by
  obtain ⟨w, hw, heq⟩ := Option.map_eq_some_iff.1 h
  obtain ⟨rfl, -⟩ := Prod.mk.inj heq
  rw [plainValue?] at hw
  split at hw
  · cases hw
    trivial
  · split at hw
    · cases hw
      trivial
    · rcases Option.or_eq_some_iff.1 hw with hw | ⟨-, hw⟩
      · rw [eq_of_moment? hw]
        trivial
      · exact genuine_of_number? hw

/-- A number that is read has 64 bits. -/
theorem genuine_of_value? {depth : Nat} (h : value? depth cs = some (v, rest)) : v.Genuine := by
  rw [value?.eq_def] at h
  dsimp only at h
  split at h
  · obtain ⟨_, -, heq⟩ := Option.map_eq_some_iff.1 h
    rw [← (Prod.mk.inj heq).1]
    trivial
  · obtain ⟨_, -, heq⟩ := Option.map_eq_some_iff.1 h
    rw [← (Prod.mk.inj heq).1]
    trivial
  · split at h
    · cases h
    · obtain ⟨_, -, heq⟩ := Option.map_eq_some_iff.1 h
      rw [← (Prod.mk.inj heq).1]
      trivial
  · split at h
    · cases h
    · obtain ⟨_, -, heq⟩ := Option.map_eq_some_iff.1 h
      rw [← (Prod.mk.inj heq).1]
      trivial
  · exact genuine_of_plain? h

/-! ## Documents that are read -/

/-- A property of the entries of a table that no step of the reader can undo. -/
structure Lasting (P : Entries → Prop) : Prop where
  empty : P []
  add {es : Entries} {key : String} {v : Value} (hes : P es) (hnew : es.get? key = none)
    (hv : v.Genuine) : P (es ++ [(key, v)])
  put {es : Entries} {key : String} {v : Value} (hes : P es) (hv : v.Genuine) : P (es.put key v)
  erase {es : Entries} {key : String} (hes : P es) : P (es.erase key)

/-- The root has the property, and the open table if that is the root. -/
structure Draft.Has (P : Entries → Prop) (d : Draft) : Prop where
  root : P d.root
  entries : d.path = [] → P d.entries

namespace Lasting

variable {P : Entries → Prop} (hP : Lasting P)

include hP

/-- A change farther down puts a table into the root, or an array of tables. -/
theorem alter {isKey : Bool} {change : TableForm → Entries → Option Entries}
    {path : List String} {form : TableForm} {es es' : Entries} (hes : P es)
    (hchange : path = [] → change form es = some es' → P es')
    (h : alter isKey change path form es = some es') : P es' := by
  cases path with
  | nil => exact hchange rfl h
  | cons key path =>
    rw [Toml.alter] at h
    split at h
    · obtain ⟨sub, -, rfl⟩ := Option.map_eq_some_iff.1 h
      exact hP.put hes trivial
    · obtain ⟨-, h⟩ := Option.ite_none_left_eq_some.1 h
      obtain ⟨sub, -, rfl⟩ := Option.map_eq_some_iff.1 h
      exact hP.put hes trivial
    · split at h
      · obtain ⟨sub, -, rfl⟩ := Option.map_eq_some_iff.1 h
        exact hP.put hes trivial
      · cases h
    · cases h

theorem placed {isItem : Bool} {key : String} {sub es es' : Entries} (hes : P es)
    (h : Draft.placed isItem key sub es = some es') : P es' := by
  rw [Draft.placed.eq_def] at h
  split at h <;> cases h
  · exact hP.add hes ‹_› trivial
  · exact hP.put hes trivial
  · exact hP.add hes ‹_› trivial
  · exact hP.add (hP.erase hes) Entries.get?_erase_self trivial

variable {d d' : Draft}

theorem start : Draft.empty.Has P := ⟨hP.empty, fun _ => hP.empty⟩

theorem close {es : Entries} (hd : d.Has P) (h : d.close = some es) : P es := by
  rw [Draft.close] at h
  split at h
  · rename_i hpath
    cases h
    exact hd.entries (List.getLast?_eq_none_iff.1 hpath)
  · exact hP.alter hd.root (fun _ => hP.placed hd.root) h

theorem addKey {path : List String} {key : String} {v : Value} (hd : d.Has P) (hv : v.Genuine)
    (h : d.add path key v = some d') : d'.Has P := by
  obtain ⟨es, hes, rfl⟩ := Option.map_eq_some_iff.1 h
  refine ⟨hd.root, fun hroot => hP.alter (hd.entries hroot) (fun _ hchange => ?_) hes⟩
  obtain ⟨-, hchange⟩ := Option.ite_none_left_eq_some.1 hchange
  obtain ⟨hnew, hchange⟩ := Option.ite_none_left_eq_some.1 hchange
  cases hchange
  exact hP.add (hd.entries hroot) (Option.not_isSome_iff_eq_none.1 hnew) hv

omit hP in
/-- A table that is opened by a header is not the root. -/
theorem has_of_path {key : String} (hroot : P d.root) (h : d.path.getLast? = some key) : d.Has P :=
  ⟨hroot, fun hnil => by rw [hnil] at h; cases h⟩

theorem openTable {path : List String} (hd : d.Has P) (h : d.openTable path = some d') :
    d'.Has P := by
  simp only [Draft.openTable, Option.bind_eq_bind, Option.bind_eq_some_iff] at h
  obtain ⟨root, hroot, key, hkey, es, -, h⟩ := h
  split at h
  · cases h
    exact has_of_path (hP.close hd hroot) hkey
  · cases h
    exact has_of_path (hP.close hd hroot) hkey
  · cases h

theorem openItem {path : List String} (hd : d.Has P) (h : d.openItem path = some d') :
    d'.Has P := by
  simp only [Draft.openItem, Option.bind_eq_bind, Option.bind_eq_some_iff] at h
  obtain ⟨root, hroot, key, hkey, es, -, h⟩ := h
  split at h
  · cases h
    exact has_of_path (hP.close hd hroot) hkey
  · cases h
    exact has_of_path (hP.close hd hroot) hkey
  · cases h

theorem keyLine (hd : d.Has P) (h : keyLine d cs = some (d', rest)) : d'.Has P := by
  simp only [Toml.keyLine, Option.bind_eq_bind, Option.bind_eq_some_iff] at h
  obtain ⟨_, -, _, -, ⟨v, _⟩, hv, _, -, d₁, hadd, h⟩ := h
  obtain ⟨rfl, -⟩ := Prod.mk.inj (Option.some.inj h)
  exact hP.addKey hd (genuine_of_value? hv) hadd

theorem expression (hd : d.Has P) (h : expression d cs = some (d', rest)) : d'.Has P := by
  rw [Toml.expression.eq_def] at h
  split at h
  · obtain ⟨_, -, heq⟩ := Option.map_eq_some_iff.1 h
    obtain ⟨rfl, -⟩ := Prod.mk.inj heq
    exact hd
  · obtain ⟨rfl, -⟩ := Prod.mk.inj (Option.some.inj h)
    exact hd
  · obtain ⟨rfl, -⟩ := Prod.mk.inj (Option.some.inj h)
    exact hd
  · simp only [Option.bind_eq_bind, Option.bind_eq_some_iff] at h
    obtain ⟨_, -, d₁, hopen, h⟩ := h
    obtain ⟨rfl, -⟩ := Prod.mk.inj (Option.some.inj h)
    exact hP.openItem hd hopen
  · simp only [Option.bind_eq_bind, Option.bind_eq_some_iff] at h
    obtain ⟨_, -, d₁, hopen, h⟩ := h
    obtain ⟨rfl, -⟩ := Prod.mk.inj (Option.some.inj h)
    exact hP.openTable hd hopen
  · exact hP.keyLine hd h

theorem expressions {n : Nat} (hd : d.Has P) (h : expressions n d cs = some d') : d'.Has P := by
  induction n generalizing d cs with
  | zero => cases h
  | succ n ih =>
    rw [Toml.expressions] at h
    split at h
    · cases h
      exact hd
    · obtain ⟨⟨d₁, rest⟩, hd₁, h⟩ := Option.bind_eq_some_iff.1 h
      exact ih (hP.expression hd hd₁) h

/-- The entries of a document have the property. -/
theorem of_read? {text : String} {es : Entries} (h : read? text = some es) : P es := by
  obtain ⟨d, hd, hclose⟩ := Option.bind_eq_some_iff.1 h
  exact hP.close (hP.expressions hP.start hd) hclose

end Lasting

theorem lasting_genuine : Lasting Entries.Genuine where
  empty _ he := absurd he List.not_mem_nil
  add hes _ hv := hes.append hv
  put hes hv := hes.put hv
  erase hes := hes.erase

theorem lasting_nodup_keys : Lasting fun es => es.keys.Nodup where
  empty := List.nodup_nil
  add hes hnew _ := Entries.nodup_keys_append hes hnew
  put hes _ := Entries.nodup_keys_put hes
  erase hes := Entries.nodup_keys_erase hes

end Toml

end StreamServer
