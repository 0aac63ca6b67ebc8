/-
Strings and numbers of TOML read back as they were written. A text is written
in one of four forms. In two of them every character that could not stand for
itself is escaped; they hold any text. The other two hold a text as it is, and
are chosen only for texts they can hold.

What takes care are quotes inside a string on several lines: up to two may
stand together, also right before the three that close the string. A reader
that meets a quote has to look ahead, so the quotes that were just passed are
kept in front of the text until it is seen what follows them.
-/
import StreamServer.Toml.Reader
import StreamServer.Toml.Writer

namespace StreamServer.Toml

/-! ## Single characters -/

theorem isPlain_of_not_control {c : Char} (h : isControl c = false) (hn : c ≠ '\n') :
    isPlain c = true := by
  by_cases ht : c = '\t'
  · simp [isPlain, ht]
  · simp only [isControl, Bool.or_eq_false_iff, Bool.and_eq_false_iff, bne_eq_false_iff_eq,
      beq_eq_false_iff_ne, decide_eq_false_iff_not, ht, hn, or_false] at h
    simp [isPlain, Nat.le_of_not_lt h.1, h.2]

/-- An escape of four hexadecimal digits gives its character back. -/
theorem scalar?_of_lt : ∀ n < 128,
    scalar? ['0', '0', hexDigit (n / 16), hexDigit (n % 16)] = some (Char.ofNat n) := by
  decide

theorem scalar?_of_control {c : Char} (h : isControl c = true) :
    scalar? ['0', '0', hexDigit (c.toNat / 16), hexDigit (c.toNat % 16)] = some c := by
  have hlt : c.toNat < 128 := by
    simp only [isControl, Bool.or_eq_true, Bool.and_eq_true, decide_eq_true_eq, beq_iff_eq] at h
    omega
  rw [scalar?_of_lt _ hlt, Char.ofNat_toNat]

/-- Reads characters as they stand in basic strings, one after another. -/
structure Unescapes (read : List Char → Option (List Char × List Char)) : Prop where
  letter : ∀ c x rest, letterEscape? c = some x → read ('\\' :: c :: rest) = consText x (read rest)
  hex : ∀ a b c d rest, read ('\\' :: 'u' :: a :: b :: c :: d :: rest) =
    (scalar? [a, b, c, d]).bind fun x => consText x (read rest)
  plain : ∀ c rest, isPlain c = true → c ≠ '"' → c ≠ '\\' → read (c :: rest) = consText c (read rest)

theorem letterEscape?_ne {c x : Char} (h : letterEscape? c = some x) : c ≠ 'u' ∧ c ≠ 'U' := by
  refine ⟨?_, ?_⟩ <;> rintro rfl <;> cases h

theorem unescapes_basicBody : Unescapes basicBody where
  letter c x rest h := by
    obtain ⟨hu, hU⟩ := letterEscape?_ne h
    rw [basicBody, h]
    · rfl
    · exact fun _ _ _ _ _ hc => absurd hc hu
    · exact fun _ _ _ _ _ _ _ _ _ hc => absurd hc hU
  hex _ _ _ _ _ := rfl
  plain c rest hp hq hb := by
    rw [basicBody, if_pos ⟨hp, hb⟩]
    all_goals simp [hq, hb]

theorem unescapes_basicLines : Unescapes (basicLines false) where
  letter c x rest h := by
    obtain ⟨hu, hU⟩ := letterEscape?_ne h
    rw [basicLines, h]
    · exact fun _ _ _ _ _ hc => absurd hc hu
    · exact fun _ _ _ _ _ _ _ _ _ hc => absurd hc hU
  hex _ _ _ _ _ := rfl
  plain c rest hp hq hb := by
    have hn : c ≠ '\n' := by rintro rfl; cases hp
    have hr : c ≠ '\r' := by rintro rfl; cases hp
    rw [basicLines, if_neg (by simp), if_pos ⟨hp, hb⟩]
    all_goals simp [hq, hb, hn, hr]

theorem Unescapes.escaped {read : List Char → Option (List Char × List Char)} (h : Unescapes read)
    {c : Char} (hq : c ≠ '"') (hn : c ≠ '\n') (rest : List Char) :
    read (escaped c ++ rest) = consText c (read rest) := by
  unfold Toml.escaped
  split
  · subst_vars; exact h.letter _ _ _ rfl
  rename_i hb
  split
  · subst_vars; exact h.letter _ _ _ rfl
  split
  · subst_vars; exact h.letter _ _ _ rfl
  split
  · subst_vars; exact h.letter _ _ _ rfl
  split
  · subst_vars; exact h.letter _ _ _ rfl
  split
  · rename_i hc
    refine (h.hex ..).trans ?_
    rw [scalar?_of_control hc]
    rfl
  · rename_i hc
    exact h.plain _ _ (isPlain_of_not_control (by simpa using hc) hn) hq hb

/-- A character is escaped with a backslash or stands for itself. -/
theorem escaped_eq (c : Char) : (∃ rest, escaped c = '\\' :: rest) ∨ escaped c = [c] ∧ c ≠ '\r' := by
  unfold escaped
  split
  · exact .inl ⟨_, rfl⟩
  split
  · exact .inl ⟨_, rfl⟩
  split
  · exact .inl ⟨_, rfl⟩
  split
  · exact .inl ⟨_, rfl⟩
  split
  · exact .inl ⟨_, rfl⟩
  split
  · exact .inl ⟨_, rfl⟩
  · exact .inr ⟨rfl, ‹_›⟩

/-! ## Strings on one line -/

theorem basicBody_escapeLine (cs rest : List Char) :
    basicBody (escapeLine cs ++ '"' :: rest) = some (cs, rest) := by
  fun_induction escapeLine cs with
  | case1 => rfl
  | case2 cs ih | case3 cs ih =>
    rw [List.cons_append, List.cons_append, unescapes_basicBody.letter _ _ _ rfl, ih]
    rfl
  | case4 c cs hq hn ih =>
    rw [List.append_assoc, unescapes_basicBody.escaped hq hn, ih]
    rfl

theorem literalBody_append {cs : List Char} (h : ∀ c ∈ cs, isPlain c = true ∧ c ≠ '\'')
    (rest : List Char) : literalBody (cs ++ '\'' :: rest) = some (cs, rest) := by
  induction cs with
  | nil => rfl
  | cons c cs ih =>
    obtain ⟨hp, hq⟩ := h c (by simp)
    rw [List.cons_append, literalBody, if_pos hp, ih fun x hx => h x (by simp [hx])]
    · rfl
    · exact hq

/-! ## Strings on several lines -/

/-- Up to two quotes that something other than a quote follows stand for themselves. -/
theorem basicLines_quotes {q : Nat} (hq : q ≤ 2) {x : Char} (hx : x ≠ '"') {rest left cs : List Char}
    (h : basicLines false (x :: rest) = some (cs, left)) :
    basicLines false (List.replicate q '"' ++ x :: rest) = some (List.replicate q '"' ++ cs, left) := by
  have one : basicLines false ('"' :: x :: rest) = some ('"' :: cs, left) := by
    simp [basicLines, hx, isPlain, h, consText]
  match q, hq with
  | 0, _ => exact h
  | 1, _ => exact one
  | 2, _ => simp [List.replicate, basicLines, hx, isPlain, h, consText]

theorem basicLines_escapeLines {q : Nat} (hq : q ≤ 2) (cs rest : List Char) :
    basicLines false (List.replicate q '"' ++
      (escapeLines q cs ++ '"' :: '"' :: '"' :: '\n' :: rest)) =
      some (List.replicate q '"' ++ cs, '\n' :: rest) := by
  fun_induction escapeLines q cs with
  | case1 q =>
    match q, hq with
    | 0, _ | 1, _ | 2, _ => rfl
  | case2 cs ih =>
    -- The third quote of a run is escaped, so the two before it are done with.
    have hread : basicLines false ('\\' :: '"' :: (escapeLines 0 cs ++ _)) = _ :=
      (unescapes_basicLines.letter _ _ _ rfl).trans (congrArg _ (ih (Nat.zero_le 2)))
    exact basicLines_quotes hq (by decide) hread
  | case3 q cs hne ih =>
    have hread := ih (by omega)
    rw [List.replicate_succ'] at hread
    simpa using hread
  | case4 q cs ih =>
    have hread : basicLines false ('\n' :: (escapeLines 0 cs ++ _)) = _ :=
      congrArg (consText '\n') (ih (Nat.zero_le 2))
    exact basicLines_quotes hq (by decide) hread
  | case5 q c cs hquote hn ih =>
    have hread : basicLines false (escaped c ++ (escapeLines 0 cs ++ _)) = _ :=
      (unescapes_basicLines.escaped hquote hn _).trans (congrArg _ (ih (Nat.zero_le 2)))
    rw [List.append_assoc]
    rcases escaped_eq c with ⟨more, he⟩ | ⟨he, -⟩ <;> rw [he] at hread ⊢
    · exact basicLines_quotes hq (by decide) hread
    · exact basicLines_quotes hq hquote hread

theorem literalLines_quotes {q : Nat} (hq : q ≤ 2) {x : Char} (hx : x ≠ '\'') {rest left cs : List Char}
    (h : literalLines (x :: rest) = some (cs, left)) :
    literalLines (List.replicate q '\'' ++ x :: rest) = some (List.replicate q '\'' ++ cs, left) := by
  match q, hq with
  | 0, _ => exact h
  | 1, _ => simp [List.replicate, literalLines, hx, isPlain, h, consText]
  | 2, _ => simp [List.replicate, literalLines, hx, isPlain, h, consText]

theorem le_longestRun (q : Char) (run : Nat) (cs : List Char) : run ≤ longestRun q run cs := by
  fun_induction longestRun q run cs with
  | case1 => exact Nat.le_refl _
  | case2 run cs ih => exact Nat.le_trans (Nat.le_succ run) ih
  | case3 => exact Nat.le_max_left ..

theorem literalLines_append {q : Nat} {cs : List Char} (hrun : longestRun '\'' q cs ≤ 2)
    (h : ∀ c ∈ cs, c = '\n' ∨ isPlain c = true) (rest : List Char) :
    literalLines (List.replicate q '\'' ++ (cs ++ '\'' :: '\'' :: '\'' :: '\n' :: rest)) =
      some (List.replicate q '\'' ++ cs, '\n' :: rest) := by
  induction cs generalizing q with
  | nil =>
    match q, hrun with
    | 0, _ | 1, _ | 2, _ => rfl
  | cons c cs ih =>
    have hq : q ≤ 2 := Nat.le_trans (le_longestRun ..) hrun
    have htail : ∀ x ∈ cs, x = '\n' ∨ isPlain x = true := fun x hx => h x (by simp [hx])
    unfold longestRun at hrun
    by_cases hc : c = '\''
    · rw [if_pos hc] at hrun
      have hread := ih hrun htail
      rw [List.replicate_succ'] at hread
      simpa [hc] using hread
    · rw [if_neg hc] at hrun
      have hnext := ih (q := 0) (Nat.le_trans (Nat.le_max_right ..) hrun) htail
      simp only [List.replicate_zero, List.nil_append] at hnext
      refine literalLines_quotes hq hc ?_
      rcases h c (by simp) with rfl | hp
      · rw [literalLines, List.append_eq, hnext]
        rfl
      · have hn : c ≠ '\n' := by rintro rfl; cases hp
        have hr : c ≠ '\r' := by rintro rfl; cases hp
        rw [literalLines, if_pos hp, List.append_eq, hnext]
        · rfl
        all_goals simp [hc, hn, hr]

/-! ## Strings of any form -/

theorem not_mem_of_longestRun {q : Char} {run : Nat} {cs : List Char} (h : longestRun q run cs = 0) :
    q ∉ cs := by
  fun_induction longestRun q run cs with
  | case1 => simp
  | case2 run cs ih =>
    have hpos := le_longestRun q (run + 1) cs
    omega
  | case3 run c cs hc ih =>
    have hmax := Nat.max_eq_zero_iff.1 h
    simp [ih hmax.2, Ne.symm hc]

/-- What the forms without escapes ask of a text. -/
def StringForm.Holds (cs : List Char) : StringForm → Prop
  | .literal => ∀ c ∈ cs, isPlain c = true ∧ c ≠ '\''
  | .literalLines => longestRun '\'' 0 cs ≤ 2 ∧ ∀ c ∈ cs, c = '\n' ∨ isPlain c = true
  | .basic | .basicLines => True

/-- The form that is chosen for a text can hold it. -/
theorem stringForm_holds (cs : List Char) : (stringForm cs).Holds cs := by
  have hplain : cs.any isControl = false → ∀ c ∈ cs, c = '\n' ∨ isPlain c = true := by
    intro hcontrol c hc
    by_cases hn : c = '\n'
    · exact .inl hn
    · exact .inr (isPlain_of_not_control (by simpa using List.any_eq_false.1 hcontrol c hc) hn)
  unfold stringForm
  dsimp only
  split
  · trivial
  split
  · rename_i h
    simp only [Bool.and_eq_true, Bool.not_eq_true', beq_iff_eq, List.contains_eq_mem,
      decide_eq_false_iff_not] at h
    obtain ⟨⟨hcontrol, hrun⟩, hn⟩ := h
    intro c hc
    refine ⟨(hplain hcontrol c hc).resolve_left fun h => hn (h ▸ hc), ?_⟩
    exact fun h => not_mem_of_longestRun hrun (h ▸ hc)
  split
  · trivial
  split
  · rename_i h
    simp only [Bool.and_eq_true, Bool.not_eq_true', decide_eq_true_eq] at h
    exact ⟨h.2, hplain h.1⟩
  split
  · trivial
  · trivial

theorem dropLineEnd_cons {c : Char} (hn : c ≠ '\n') (hr : c ≠ '\r') (rest : List Char) :
    dropLineEnd (c :: rest) = c :: rest := by
  unfold dropLineEnd
  split
  · exact absurd (List.cons.inj ‹_›).1 hn
  · exact absurd (List.cons.inj ‹_›).1 hr
  · rfl

/-- The line feed that opens a string is the only one that is left out. -/
theorem dropLineEnd_opening {cs body : List Char} (h : '\n' ∉ cs → dropLineEnd body = body) :
    dropLineEnd (opening cs ++ body) = body := by
  unfold opening
  by_cases hn : '\n' ∈ cs
  · rw [if_pos (by simpa using hn)]
    rfl
  · rw [if_neg (by simpa using hn)]
    exact h hn

theorem dropLineEnd_escapeLines {cs : List Char} (h : '\n' ∉ cs) (rest : List Char) :
    dropLineEnd (escapeLines 0 cs ++ '"' :: rest) = escapeLines 0 cs ++ '"' :: rest := by
  cases cs with
  | nil => rfl
  | cons c cs =>
    have hn : c ≠ '\n' := fun hc => h (by simp [hc])
    by_cases hq : c = '"'
    · subst hq
      rfl
    · have he : escapeLines 0 (c :: cs) = escaped c ++ escapeLines 0 cs := by
        rw [escapeLines]
        · exact hq
        · exact hn
      rw [he]
      rcases escaped_eq c with ⟨more, hc⟩ | ⟨hc, hr⟩ <;> rw [hc]
      · rfl
      · exact dropLineEnd_cons hn hr _

theorem dropLineEnd_literal {cs : List Char} (h : '\n' ∉ cs)
    (hplain : ∀ c ∈ cs, c = '\n' ∨ isPlain c = true) (rest : List Char) :
    dropLineEnd (cs ++ '\'' :: rest) = cs ++ '\'' :: rest := by
  cases cs with
  | nil => rfl
  | cons c cs =>
    have hn : c ≠ '\n' := fun hc => h (by simp [hc])
    have hr : c ≠ '\r' := by
      rintro rfl
      rcases hplain '\r' (by simp) with hc | hc <;> cases hc
    exact dropLineEnd_cons hn hr _

/-- A text is read back from any form that can hold it. -/
theorem quotedText?_writeStringAs {cs : List Char} {form : StringForm} (h : form.Holds cs)
    (rest : List Char) :
    quotedText? (writeStringAs cs form ++ '\n' :: rest) = some (cs, '\n' :: rest) := by
  cases form with
  | basic =>
    have hread := basicBody_escapeLine cs ('\n' :: rest)
    simp only [writeStringAs, List.append_assoc, List.cons_append, List.nil_append]
    rw [quotedText?, hread]
    -- Two more quotes would have been the end of the string and the start of what follows.
    intro more hm
    rw [hm] at hread
    cases hread
  | literal =>
    have hread := literalBody_append h ('\n' :: rest)
    simp only [writeStringAs, List.append_assoc, List.cons_append, List.nil_append]
    rw [quotedText?, hread]
    intro more hm
    rw [hm] at hread
    cases hread
  | basicLines =>
    have hread := basicLines_escapeLines (Nat.zero_le 2) cs rest
    have hdrop := dropLineEnd_opening fun hn : '\n' ∉ cs =>
      dropLineEnd_escapeLines hn ('"' :: '"' :: '\n' :: rest)
    simp only [List.replicate_zero, List.nil_append] at hread
    simp only [writeStringAs, List.append_assoc, List.cons_append, List.nil_append, quotedText?, hdrop]
    exact hread
  | literalLines =>
    have hread := literalLines_append h.1 h.2 rest
    have hdrop := dropLineEnd_opening fun hn : '\n' ∉ cs =>
      dropLineEnd_literal hn h.2 ('\'' :: '\'' :: '\n' :: rest)
    simp only [List.replicate_zero, List.nil_append] at hread
    simp only [writeStringAs, List.append_assoc, List.cons_append, List.nil_append, quotedText?, hdrop]
    exact hread

theorem writeStringAs_head (cs : List Char) (form : StringForm) :
    ∃ rest, writeStringAs cs form = '"' :: rest ∨ writeStringAs cs form = '\'' :: rest := by
  cases form with
  | basic | basicLines => exact ⟨_, .inl rfl⟩
  | literal | literalLines => exact ⟨_, .inr rfl⟩

/-- A string that was written is read back, up to the end of its line. -/
theorem value?_writeString (depth : Nat) (s : String) (rest : List Char) :
    value? depth ((writeString s).toList ++ '\n' :: rest) = some (.text s, '\n' :: rest) := by
  have hread := quotedText?_writeStringAs (stringForm_holds s.toList) rest
  obtain ⟨more, hm⟩ := writeStringAs_head s.toList (stringForm s.toList)
  rw [writeString, String.toList_ofList]
  rcases hm with hm | hm <;> rw [hm, List.cons_append] at hread ⊢ <;>
    simp only [value?, hread, Option.map_some, String.ofList_toList]

/-! ## Numbers -/

/-- The characters of a written natural number. -/
def digits (n : Nat) : List Char := Nat.toDigits 10 n

theorem toList_toString (n : Nat) : (toString n).toList = digits n := by
  rw [Nat.toString_eq_ofList_toDigits, String.toList_ofList, digits]

theorem isDigit_of_mem {n : Nat} {c : Char} (h : c ∈ digits n) : c.isDigit = true :=
  Nat.isDigit_of_mem_toDigits (by decide) (by decide) h

theorem ne_of_isDigit {c x : Char} (h : c.isDigit = true) (hx : x.isDigit = false) : c ≠ x := by
  rintro rfl
  rw [h] at hx
  cases hx

/-- Digits stand for a number in base ten. -/
theorem ofDigits_eq {ds : List Char} (h : ∀ c ∈ ds, c.isDigit = true) :
    ofDigits 10 ds = Nat.ofDigitChars 10 ds 0 := by
  have hfold : ∀ (ds : List Char) (m : Nat), (∀ c ∈ ds, c.isDigit = true) →
      ds.foldl (fun n c => n * 10 + digitValue c) m = Nat.ofDigitChars 10 ds m := by
    intro ds
    induction ds with
    | nil => intro m _; rfl
    | cons c ds ih =>
      intro m h
      rw [List.foldl_cons, ih _ fun x hx => h x (by simp [hx]), Nat.ofDigitChars_cons, digitValue,
        if_pos (h c (by simp)), Nat.mul_comm]
  exact hfold ds 0 h

theorem ofDigits_digits (n : Nat) : ofDigits 10 (digits n) = n := by
  rw [ofDigits_eq fun c => isDigit_of_mem]
  exact Nat.ofDigitChars_ten_toDigits

/-- A positive number is written without a zero in front. -/
theorem head?_digits {n : Nat} (h : 0 < n) : (digits n).head? ≠ some '0' := by
  induction n using Nat.strongRecOn with
  | _ n ih =>
    by_cases hlt : n < 10
    · have hdigit : ∀ m < 10, 0 < m → some m.digitChar ≠ some '0' := by decide
      rw [digits, Nat.toDigits_of_lt_base hlt]
      exact hdigit n hlt h
    · have hfirst := ih (n / 10) (by omega) (by omega)
      rw [digits, Nat.toDigits_of_base_le (by decide) (Nat.le_of_not_lt hlt), ← digits]
      cases hd : digits (n / 10) with
      | nil => exact absurd hd Nat.toDigits_ne_nil
      | cons c cs => rwa [hd] at hfirst

/-! A token without a dash and a colon is no moment. -/

theorem expect?_eq_none {x : Char} {ds : List Char} (h : x ∉ ds) : expect? x ds = none := by
  cases ds with
  | nil => rfl
  | cons c cs => exact if_neg fun hc => h (by simp [hc])

theorem date?_eq_none {ds : List Char} (h : '-' ∉ ds) : date? ds = none := by
  have hdash : expect? '-' (ds.drop 4) = none := expect?_eq_none fun hc => h (List.mem_of_mem_drop hc)
  unfold date? fixedDigits?
  dsimp only
  split
  · rw [Option.bind_eq_bind, Option.bind_some, hdash]
    rfl
  · rfl

theorem time?_eq_none {ds : List Char} (h : ':' ∉ ds) : time? ds = none := by
  have hcolon : expect? ':' (ds.drop 2) = none := expect?_eq_none fun hc => h (List.mem_of_mem_drop hc)
  unfold time? twoDigits? fixedDigits?
  dsimp only
  split
  · rw [Option.bind_some]
    dsimp only
    split
    · rw [Option.bind_eq_bind, Option.bind_some, hcolon]
      rfl
    · rfl
  · rfl

/-- Holds digits and points only. -/
def IsDecimal (token : List Char) : Prop := ∀ c ∈ token, c.isDigit = true ∨ c = '.'

theorem IsDecimal.not_mem {token : List Char} (h : IsDecimal token) {x : Char}
    (hx : x.isDigit = false) (hpoint : x ≠ '.') : x ∉ token := by
  intro hc
  rcases h x hc with hd | hd
  · rw [hd] at hx
    cases hx
  · exact hpoint hd

/-- A token of digits and points can only be a number. -/
theorem IsDecimal.plainValue? {token : List Char} (h : IsDecimal token) :
    plainValue? token = number? token := by
  have hbool : ∀ cs : List Char, (∃ c ∈ cs, c.isDigit = false ∧ c ≠ '.') → token ≠ cs := by
    rintro cs ⟨c, hc, hd, hpoint⟩ rfl
    exact h.not_mem hd hpoint hc
  rw [Toml.plainValue?, if_neg (hbool _ ⟨'t', by simp, rfl, by decide⟩),
    if_neg (hbool _ ⟨'f', by simp, rfl, by decide⟩), moment?,
    date?_eq_none (h.not_mem rfl (by decide)), time?_eq_none (h.not_mem rfl (by decide))]
  rfl

/-- It is read up to the end of its line. -/
theorem IsDecimal.value? {token : List Char} (h : IsDecimal token) (hne : token ≠ []) {v : Value}
    (hv : number? token = some v) (depth : Nat) (rest : List Char) :
    value? depth (token ++ '\n' :: rest) = some (v, '\n' :: rest) := by
  have hplain : plain? (token ++ '\n' :: rest) = some (v, '\n' :: rest) := by
    have hmember : ∀ c ∈ token, (!isDelimiter c) = true := by
      intro c hc
      have hother : ∀ x : Char, x.isDigit = false → x ≠ '.' → (c == x) = false := fun x hx hpoint =>
        beq_false_of_ne fun hcx => h.not_mem hx hpoint (hcx ▸ hc)
      simp [isDelimiter, isBlank, hother]
    have htoken : (token ++ '\n' :: rest).takeWhile (!isDelimiter ·) = token := by
      rw [List.takeWhile_append_of_pos hmember]
      exact (List.append_nil _ :)
    have htime : timeAfter token ('\n' :: rest) = [] := by
      unfold timeAfter
      rw [date?_eq_none (h.not_mem rfl (by decide))]
    simp only [plain?, htoken, List.drop_left, htime, List.append_nil, h.plainValue?, hv]
    rfl
  cases token with
  | nil => exact absurd rfl hne
  | cons c cs =>
    have hother : ∀ x tail, x.isDigit = false → x ≠ '.' → c :: (cs ++ '\n' :: rest) ≠ x :: tail := by
      intro x tail hx hpoint heq
      exact h.not_mem hx hpoint (by simp [(List.cons.inj heq).1])
    rw [List.cons_append] at hplain ⊢
    rw [Toml.value?, hplain]
    all_goals exact fun tail => hother _ tail rfl (by decide)

/-- A run of digits ends here: with the token, or before a point. -/
def IsRunEnd (rest : List Char) : Prop := rest = [] ∨ ∃ more, rest = '.' :: more

section

variable {ds rest : List Char} (h : ∀ c ∈ ds, c.isDigit = true) (hrest : IsRunEnd rest)

include h hrest

theorem digitTail_append : digitTail Char.isDigit (ds ++ rest) = (ds, rest) := by
  induction ds with
  | nil =>
    rcases hrest with rfl | ⟨more, rfl⟩
    · rfl
    · rw [List.nil_append, digitTail, if_neg (by decide)]
      all_goals simp
  | cons c cs ih =>
    rw [List.cons_append, digitTail, if_pos (h c (by simp)), ih fun x hx => h x (by simp [hx])]
    exact fun _ _ hc => absurd hc (ne_of_isDigit (h c (by simp)) rfl)

theorem digitRun?_append (hne : ds ≠ []) : digitRun? Char.isDigit (ds ++ rest) = some (ds, rest) := by
  cases ds with
  | nil => exact absurd rfl hne
  | cons c cs =>
    have htail := digitTail_append (fun x (hx : x ∈ cs) => h x (by simp [hx])) hrest
    rw [List.cons_append, digitRun?, if_pos (h c (by simp)), htail]

theorem wholePart?_append (hne : ds ≠ []) (hzero : ds.head? = some '0' → ds.length = 1) :
    wholePart? (ds ++ rest) = some (ds, rest) := by
  simp only [wholePart?, digitRun?_append h hrest hne]
  rw [if_neg fun hz => by have := hzero hz.1; omega]

theorem unsigned?_append (hne : ds ≠ []) (hzero : ds.head? = some '0' → ds.length = 1) :
    unsigned? false (ds ++ rest) = decimalRest? false ds rest := by
  have hwhole := wholePart?_append h hrest hne hzero
  cases ds with
  | nil => exact absurd rfl hne
  | cons c cs =>
    have hc : c.isDigit = true := h c (by simp)
    rw [unsigned?, hwhole]
    · exact Option.bind_some ..
    all_goals
      intro heq
      exact ne_of_isDigit hc rfl (List.cons.inj heq).1

theorem number?_append (hne : ds ≠ []) (hzero : ds.head? = some '0' → ds.length = 1) :
    number? (ds ++ rest) = decimalRest? false ds rest := by
  have hfirst : ∀ x more, x.isDigit = false → ds ++ rest ≠ x :: more := by
    rintro x more hx heq
    cases ds with
    | nil => exact hne rfl
    | cons c cs => exact ne_of_isDigit (h c (by simp)) hx (List.cons.inj heq).1
  have hsecond : ∀ x more, x.isDigit = false → x ≠ '.' → ds ++ rest ≠ '0' :: x :: more := by
    rintro x more hx hpoint heq
    rcases ds with _ | ⟨c, _ | ⟨d, cs⟩⟩
    · exact hne rfl
    · rcases hrest with rfl | ⟨left, rfl⟩
      · simp at heq
      · exact hpoint (List.cons.inj (List.cons.inj heq).2).1.symm
    · exact ne_of_isDigit (h d (by simp)) hx (List.cons.inj (List.cons.inj heq).2).1
  rw [← unsigned?_append h hrest hne hzero, number?]
  · exact fun more => hsecond 'x' more rfl (by decide)
  · exact fun more => hsecond 'o' more rfl (by decide)
  · exact fun more => hsecond 'b' more rfl (by decide)
  · exact fun more => hfirst '-' more rfl
  · exact fun more => hfirst '+' more rfl

end

theorem decimalRest?_digits {n : Nat} (h : n < Nat.pow 2 63) :
    decimalRest? false (digits n) [] = some (.integer (Int.ofNat n)) := by
  simp only [decimalRest?, ofDigits_digits, Bool.false_eq_true, if_false]
  refine if_pos ⟨?_, ?_⟩
  · have hpow : (0 : Int) ≤ Int.pow 2 63 := by decide
    have hn : (0 : Int) ≤ Int.ofNat n := Int.natCast_nonneg n
    omega
  · have hpow : Int.pow 2 63 = Int.ofNat (Nat.pow 2 63) := by decide
    rw [hpow]
    exact Int.ofNat_lt.2 h

theorem number?_digits {n : Nat} (h : n < Nat.pow 2 63) :
    number? (digits n) = some (.integer (Int.ofNat n)) := by
  have hzero : (digits n).head? = some '0' → (digits n).length = 1 := by
    intro hz
    cases n with
    | zero => rfl
    | succ n => exact absurd hz (head?_digits (Nat.succ_pos n))
  have hread := number?_append (fun c => isDigit_of_mem) (.inl rfl) Nat.toDigits_ne_nil hzero
  rwa [List.append_nil, decimalRest?_digits h] at hread

/-- A natural number that was written is read back, up to the end of its line. -/
theorem value?_toString (depth : Nat) {n : Nat} (h : n < Nat.pow 2 63) (rest : List Char) :
    value? depth ((toString n).toList ++ '\n' :: rest) = some (.integer n, '\n' :: rest) := by
  rw [toList_toString]
  exact IsDecimal.value? (fun c hc => .inl (isDigit_of_mem hc)) Nat.toDigits_ne_nil (number?_digits h)
    depth rest

end StreamServer.Toml
