import Mathlib.Data.List.Basic

/-!
# Strings as code units

A string is any sequence of UTF-16 code units, half of a surrogate pair included.  What is hashed or
signed of it is its UTF-8 text, where every lone half is U+FFFD.

* `CodeUnits.text` : the text that `Buffer.from(s, 'utf8')` encodes, for any string.
* `CodeUnits.ofText` : the string of a text, and `CodeUnits.isWellFormed_iff` : a string is that of
  its own text when no half of a pair stands alone.
* `exists_respelling` : a text with U+FFFD is that of another string as well.
-/

namespace XChainSdk

/-- The UTF-16 code units of a string. -/
abbrev CodeUnits := List UInt16

/-- Half of a surrogate pair. -/
def IsSurrogate (u : UInt16) : Prop := 0xD800 ≤ u.toNat ∧ u.toNat < 0xE000

instance (u : UInt16) : Decidable (IsSurrogate u) := inferInstanceAs (Decidable (_ ∧ _))

/-- A code unit that is not half of a pair; a lone surrogate is encoded as U+FFFD. -/
def unitChar (u : UInt16) : Char :=
  if IsSurrogate u then '\uFFFD' else Char.ofNat u.toNat

/-- The character of a surrogate pair. -/
def pairChar (u v : UInt16) : Char :=
  Char.ofNat (0x10000 + (u.toNat - 0xD800) * 0x400 + (v.toNat - 0xDC00))

/-- Two code units that are a surrogate pair. -/
def IsPair (u v : UInt16) : Prop :=
  0xD800 ≤ u.toNat ∧ u.toNat < 0xDC00 ∧ 0xDC00 ≤ v.toNat ∧ v.toNat < 0xE000

instance (u v : UInt16) : Decidable (IsPair u v) :=
  inferInstanceAs (Decidable (_ ∧ _ ∧ _ ∧ _))

/-- The code units of a character. -/
def charUnits (c : Char) : CodeUnits :=
  if c.toNat < 0x10000 then [UInt16.ofNat c.toNat]
  else [UInt16.ofNat (0xD800 + (c.toNat - 0x10000) / 0x400),
    UInt16.ofNat (0xDC00 + (c.toNat - 0x10000) % 0x400)]

namespace CodeUnits

/-- The characters of a string. -/
def chars : CodeUnits → List Char
  | u :: v :: rest =>
    if IsPair u v then pairChar u v :: chars rest else unitChar u :: chars (v :: rest)
  | [u] => [unitChar u]
  | [] => []

/-- The text that `Buffer.from(s, 'utf8')` encodes. -/
def text (s : CodeUnits) : String := String.ofList s.chars

/-- What `for … of` visits: a surrogate pair together, and half of one alone. -/
def points : CodeUnits → List CodeUnits
  | u :: v :: rest =>
    if IsPair u v then [u, v] :: points rest else [u] :: points (v :: rest)
  | [u] => [[u]]
  | [] => []

/-- The string of a text. -/
def ofText (s : String) : CodeUnits := s.toList.flatMap charUnits

/-- No half of a surrogate pair stands alone. -/
def isWellFormed : CodeUnits → Bool
  | u :: v :: rest =>
    if IsPair u v then isWellFormed rest else !decide (IsSurrogate u) && isWellFormed (v :: rest)
  | [u] => !decide (IsSurrogate u)
  | [] => true

end CodeUnits

/-! ### Characters -/

theorem toNat_ofNat {n : ℕ} (h : n.isValidChar) : (Char.ofNat n).toNat = n := by
  rw [Char.ofNat, dif_pos h]
  rfl

theorem unitChar_of_not_surrogate {u : UInt16} (h : ¬ IsSurrogate u) :
    unitChar u = Char.ofNat u.toNat := if_neg h

theorem toNat_unitChar_lt (u : UInt16) : (unitChar u).toNat < 0x10000 := by
  rw [unitChar]
  split_ifs with h
  · decide
  · have hlt := u.toNat_lt
    have hvalid : u.toNat.isValidChar := by
      rw [Nat.isValidChar]
      rw [IsSurrogate] at h
      omega
    rw [toNat_ofNat hvalid]
    exact hlt

theorem toNat_pairChar {u v : UInt16} (h : IsPair u v) : (pairChar u v).toNat =
    0x10000 + (u.toNat - 0xD800) * 0x400 + (v.toNat - 0xDC00) := by
  obtain ⟨h1, h2, h3, h4⟩ := h
  rw [pairChar, toNat_ofNat (by rw [Nat.isValidChar]; omega)]

/-- A unit that is not half of a pair is read alone. -/
theorem chars_cons {u : UInt16} (h : ¬ IsSurrogate u) (rest : CodeUnits) :
    CodeUnits.chars (u :: rest) = unitChar u :: rest.chars := by
  cases rest with
  | nil => simp [CodeUnits.chars]
  | cons v rest =>
    have hpair : ¬ IsPair u v := fun ⟨hlo, hhi, _⟩ => h ⟨hlo, by omega⟩
    rw [CodeUnits.chars, if_neg hpair]

/-- The second half of a pair does not begin one. -/
theorem chars_cons_low {u : UInt16} (h : 0xDC00 ≤ u.toNat) (rest : CodeUnits) :
    CodeUnits.chars (u :: rest) = unitChar u :: rest.chars := by
  cases rest with
  | nil => simp [CodeUnits.chars]
  | cons v rest =>
    have hpair : ¬ IsPair u v := fun hpair => absurd hpair.2.1 (by omega)
    rw [CodeUnits.chars, if_neg hpair]

theorem not_surrogate_toNat (c : Char) : ¬ (0xD800 ≤ c.toNat ∧ c.toNat < 0xE000) := by
  rintro ⟨hlo, hhi⟩
  rcases c.valid with hc | hc
  · have hlt : c.toNat < 0xD800 := hc
    omega
  · have hgt : 0xDFFF < c.toNat := hc.1
    omega

/-- The units of a character are read as it. -/
theorem chars_charUnits_append (c : Char) (rest : CodeUnits) :
    CodeUnits.chars (charUnits c ++ rest) = c :: rest.chars := by
  have hvalid : c.toNat.isValidChar := c.valid
  rw [charUnits]
  split_ifs with hsmall
  · have hnat : (UInt16.ofNat c.toNat).toNat = c.toNat := by
      rw [UInt16.toNat_ofNat']
      exact Nat.mod_eq_of_lt hsmall
    have hsur : ¬ IsSurrogate (UInt16.ofNat c.toNat) := by
      rw [IsSurrogate, hnat]
      exact not_surrogate_toNat c
    rw [List.singleton_append, chars_cons hsur, unitChar_of_not_surrogate hsur, hnat,
      Char.ofNat_toNat]
  · have hmax : c.toNat < 0x110000 := by
      rcases hvalid with hc | hc
      · omega
      · exact hc.2
    have hhi : (UInt16.ofNat (0xD800 + (c.toNat - 0x10000) / 0x400)).toNat =
        0xD800 + (c.toNat - 0x10000) / 0x400 := by
      rw [UInt16.toNat_ofNat']
      exact Nat.mod_eq_of_lt (by omega)
    have hlo : (UInt16.ofNat (0xDC00 + (c.toNat - 0x10000) % 0x400)).toNat =
        0xDC00 + (c.toNat - 0x10000) % 0x400 := by
      rw [UInt16.toNat_ofNat']
      exact Nat.mod_eq_of_lt (by omega)
    have hpair : IsPair (UInt16.ofNat (0xD800 + (c.toNat - 0x10000) / 0x400))
        (UInt16.ofNat (0xDC00 + (c.toNat - 0x10000) % 0x400)) := by
      rw [IsPair, hhi, hlo]
      omega
    rw [List.cons_append, List.cons_append, List.nil_append, CodeUnits.chars, if_pos hpair, pairChar,
      hhi, hlo]
    have hsum : 0x10000 + (0xD800 + (c.toNat - 0x10000) / 0x400 - 0xD800) * 0x400 +
        (0xDC00 + (c.toNat - 0x10000) % 0x400 - 0xDC00) = c.toNat := by omega
    rw [hsum, Char.ofNat_toNat]

namespace CodeUnits

/-! ### Texts -/

theorem chars_ofText_append (s : String) (rest : CodeUnits) :
    chars (ofText s ++ rest) = s.toList ++ rest.chars := by
  rw [ofText]
  induction s.toList with
  | nil => rfl
  | cons c cs ih =>
    rw [List.flatMap_cons, List.append_assoc, chars_charUnits_append, ih, List.cons_append]

@[simp] theorem text_ofText (s : String) : (ofText s).text = s := by
  have h := chars_ofText_append s []
  rw [List.append_nil] at h
  rw [text, h, chars, List.append_nil, String.ofList_toList]

theorem ofText_injective : Function.Injective ofText :=
  Function.LeftInverse.injective text_ofText

theorem ofText_append (s t : String) : ofText (s ++ t) = ofText s ++ ofText t := by
  simp [ofText]

/-- What is visited has the characters of the text. -/
theorem map_text_points (s : CodeUnits) :
    s.points.map text = s.chars.map fun c => String.ofList [c] := by
  induction s using chars.induct with
  | case1 u v rest hpair ih =>
    rw [points, if_pos hpair, chars, if_pos hpair, List.map_cons, List.map_cons, ih, text, chars,
      if_pos hpair, chars]
  | case2 u v rest hpair ih =>
    rw [points, if_neg hpair, chars, if_neg hpair, List.map_cons, List.map_cons, ih, text, chars]
  | case3 u => rw [points, List.map_singleton, chars, List.map_singleton, text, chars]
  | case4 => rfl

/-- A unit that is not half of a pair does not touch the characters around it. -/
theorem chars_append_cons {u : UInt16} (h : ¬ IsSurrogate u) (s t : CodeUnits) :
    chars (s ++ u :: t) = s.chars ++ unitChar u :: t.chars := by
  induction s using chars.induct with
  | case1 v w rest hpair ih =>
    rw [chars, if_pos hpair, List.cons_append, List.cons_append, chars, if_pos hpair, ih,
      List.cons_append]
  | case2 v w rest hpair ih =>
    rw [chars, if_neg hpair, List.cons_append, List.cons_append, chars, if_neg hpair]
    rw [List.cons_append] at ih
    rw [ih, List.cons_append]
  | case3 v =>
    have hpair : ¬ IsPair v u := fun ⟨_, _, hlo, hhi⟩ => h ⟨by omega, hhi⟩
    rw [List.singleton_append, chars, if_neg hpair, chars_cons h, chars]
    rfl
  | case4 => rw [List.nil_append, chars_cons h, chars, List.nil_append]

/-- A unit below the surrogates is in a string where its character is in the text. -/
theorem mem_chars {u : UInt16} (h : u.toNat < 0xD800) (s : CodeUnits) :
    unitChar u ∈ s.chars ↔ u ∈ s := by
  have hu : ¬ IsSurrogate u := fun hsur => absurd hsur.1 (by omega)
  have hnat : (unitChar u).toNat = u.toNat := by
    rw [unitChar_of_not_surrogate hu, toNat_ofNat (Or.inl h)]
  have hunit : ∀ v, unitChar u = unitChar v ↔ u = v := by
    refine fun v => ⟨fun he => ?_, fun he => he ▸ rfl⟩
    by_cases hv : IsSurrogate v
    · rw [unitChar, unitChar, if_pos hv] at he
      rw [if_neg hu] at he
      have hbig : (Char.ofNat u.toNat).toNat = 0xFFFD := congrArg Char.toNat he
      rw [toNat_ofNat (Or.inl h)] at hbig
      omega
    · have hlt := v.toNat_lt
      have hvalid : v.toNat.isValidChar := by
        rw [Nat.isValidChar]
        rw [IsSurrogate] at hv
        omega
      rw [← UInt16.toNat_inj, ← hnat, he, unitChar_of_not_surrogate hv, toNat_ofNat hvalid]
  induction s using chars.induct with
  | case1 v w rest hpair ih =>
    have hne : unitChar u ≠ pairChar v w := fun he => by
      have hbig := toNat_pairChar hpair
      rw [← he, hnat] at hbig
      omega
    have huv : u ≠ v := fun he => absurd hpair.1 (by rw [← he]; omega)
    have huw : u ≠ w := fun he => absurd hpair.2.2.1 (by rw [← he]; omega)
    rw [chars, if_pos hpair]
    simp [hne, huv, huw, ih]
  | case2 v w rest hpair ih =>
    rw [chars, if_neg hpair, List.mem_cons, hunit]
    exact (or_congr_right ih).trans List.mem_cons.symm
  | case3 v => rw [chars, List.mem_singleton, List.mem_singleton, hunit]
  | case4 => simp [chars]

theorem mem_text {u : UInt16} (h : u.toNat < 0xD800) (s : CodeUnits) :
    unitChar u ∈ s.text.toList ↔ u ∈ s := by
  rw [text, String.toList_ofList, mem_chars h]

theorem mem_ofText {u : UInt16} (h : u.toNat < 0xD800) (t : String) :
    u ∈ ofText t ↔ unitChar u ∈ t.toList := by
  rw [← mem_text h, text_ofText]

/-- Strings with a separator between them. -/
def join (c : UInt16) (us : List CodeUnits) : CodeUnits := [c].intercalate us

theorem join_cons_cons (c : UInt16) (u v : CodeUnits) (us : List CodeUnits) :
    join c (u :: v :: us) = u ++ c :: join c (v :: us) := by
  simp [join, List.intercalate]

theorem text_join {c : UInt16} (h : ¬ IsSurrogate c) (us : List CodeUnits) :
    (join c us).text = (String.singleton (unitChar c)).intercalate (us.map text) := by
  rw [← String.toList_inj, String.toList_intercalate, String.toList_singleton, text,
    String.toList_ofList]
  induction us with
  | nil => rfl
  | cons u us ih =>
    cases us with
    | nil => simp [join, List.intercalate, text]
    | cons v us =>
      rw [join_cons_cons, chars_append_cons h, ih]
      simp [List.intercalate, text]

/-- Strings without the separator are recovered from what they are joined to. -/
theorem join_inj {c : UInt16} {us vs : List CodeUnits} (hu : us ≠ []) (hv : vs ≠ [])
    (hus : ∀ u ∈ us, c ∉ u) (hvs : ∀ v ∈ vs, c ∉ v) (h : join c us = join c vs) : us = vs := by
  rw [← List.splitOn_intercalate c hus hu, ← List.splitOn_intercalate c hvs hv]
  exact congrArg (List.splitOn c) h

/-! ### Well-formed strings -/

theorem charUnits_unitChar {u : UInt16} (h : ¬ IsSurrogate u) : charUnits (unitChar u) = [u] := by
  have hlt := u.toNat_lt
  have hvalid : u.toNat.isValidChar := by
    rw [Nat.isValidChar]
    rw [IsSurrogate] at h
    omega
  rw [unitChar_of_not_surrogate h, charUnits, toNat_ofNat hvalid, if_pos hlt, UInt16.ofNat_toNat]

theorem charUnits_pairChar {u v : UInt16} (h : IsPair u v) : charUnits (pairChar u v) = [u, v] := by
  have hchar := toNat_pairChar h
  obtain ⟨h1, h2, h3, h4⟩ := h
  have hhi : 0xD800 + (0x10000 + (u.toNat - 0xD800) * 0x400 + (v.toNat - 0xDC00) - 0x10000) / 0x400 =
      u.toNat := by omega
  have hlo : 0xDC00 + (0x10000 + (u.toNat - 0xD800) * 0x400 + (v.toNat - 0xDC00) - 0x10000) % 0x400 =
      v.toNat := by omega
  rw [charUnits, hchar, if_neg (by omega), hhi, hlo, UInt16.ofNat_toNat, UInt16.ofNat_toNat]

/-- The replacement character is one unit, which is not half of a pair. -/
theorem charUnits_unitChar_ne {u : UInt16} (h : IsSurrogate u) (s t : CodeUnits) :
    charUnits (unitChar u) ++ s ≠ u :: t := by
  have hunits : charUnits (unitChar u) = [0xFFFD] := by
    rw [unitChar, if_pos h]
    decide
  rw [hunits, List.singleton_append]
  intro he
  rw [← (List.cons.inj he).1] at h
  exact absurd h (by decide)

/-- **A string is that of its own text** exactly when no half of a pair stands alone. -/
theorem isWellFormed_iff (s : CodeUnits) : s.isWellFormed = true ↔ ofText s.text = s := by
  rw [text, ofText, String.toList_ofList]
  induction s using chars.induct with
  | case1 u v rest hpair ih =>
    rw [isWellFormed, if_pos hpair, chars, if_pos hpair, List.flatMap_cons, charUnits_pairChar hpair,
      ih]
    simp
  | case2 u v rest hpair ih =>
    rw [isWellFormed, if_neg hpair, chars, if_neg hpair, List.flatMap_cons, Bool.and_eq_true, ih]
    by_cases hsur : IsSurrogate u
    · simp [hsur, charUnits_unitChar_ne hsur]
    · simp [hsur, charUnits_unitChar hsur]
  | case3 u =>
    rw [isWellFormed, chars, List.flatMap_cons, List.flatMap_nil]
    by_cases hsur : IsSurrogate u
    · simpa [hsur] using charUnits_unitChar_ne hsur [] []
    · simp [hsur, charUnits_unitChar hsur]
  | case4 => simp [isWellFormed, chars]

/-- Without the replacement character there is only one spelling. -/
theorem eq_ofText_of_text {s : CodeUnits} {t : String} (h : s.text = t)
    (ht : '\uFFFD' ∉ t.toList) : s = ofText t := by
  have hwell : s.isWellFormed = true := by
    rw [← h, text, String.toList_ofList] at ht
    clear h
    induction s using chars.induct with
    | case1 u v rest hpair ih =>
      rw [chars, if_pos hpair, List.mem_cons, not_or] at ht
      rw [isWellFormed, if_pos hpair]
      exact ih ht.2
    | case2 u v rest hpair ih =>
      rw [chars, if_neg hpair, List.mem_cons, not_or] at ht
      have hsur : ¬ IsSurrogate u := fun hsur => ht.1 (by rw [unitChar, if_pos hsur])
      rw [isWellFormed, if_neg hpair, decide_eq_false hsur]
      exact ih ht.2
    | case3 u =>
      rw [chars, List.mem_singleton] at ht
      have hsur : ¬ IsSurrogate u := fun hsur => ht (by rw [unitChar, if_pos hsur])
      rw [isWellFormed, decide_eq_false hsur]
      rfl
    | case4 => rfl
  rw [← h, (isWellFormed_iff s).1 hwell]

@[simp] theorem isWellFormed_ofText (s : String) : (ofText s).isWellFormed = true := by
  rw [isWellFormed_iff, text_ofText]

theorem isWellFormed_append_cons {c : UInt16} (hc : ¬ IsSurrogate c) {s t : CodeUnits}
    (hs : s.isWellFormed = true) (ht : t.isWellFormed = true) :
    isWellFormed (s ++ c :: t) = true := by
  rw [isWellFormed_iff, text, ofText, String.toList_ofList] at hs ht ⊢
  rw [chars_append_cons hc, List.flatMap_append, List.flatMap_cons, charUnits_unitChar hc, hs, ht,
    List.singleton_append]

theorem isWellFormed_join {c : UInt16} (hc : ¬ IsSurrogate c) {us : List CodeUnits}
    (h : ∀ u ∈ us, u.isWellFormed = true) : (join c us).isWellFormed = true := by
  induction us with
  | nil => rfl
  | cons u us ih =>
    cases us with
    | nil => simpa [join, List.intercalate] using h
    | cons v us =>
      rw [join_cons_cons]
      exact isWellFormed_append_cons hc (h u List.mem_cons_self)
        (ih fun w hw => h w (List.mem_cons_of_mem u hw))

/-- Well-formed strings of one text are the same. -/
theorem eq_of_text_eq {s t : CodeUnits} (hs : s.isWellFormed = true) (ht : t.isWellFormed = true)
    (h : s.text = t.text) : s = t := by
  rw [← (isWellFormed_iff s).1 hs, h, (isWellFormed_iff t).1 ht]

/-- **A text with the replacement character has another spelling**, with half of a pair. -/
theorem exists_respelling {s : String} (h : '\uFFFD' ∈ s.toList) :
    ∃ u : CodeUnits, u.text = s ∧ u ≠ ofText s := by
  obtain ⟨pre, post, hs⟩ := List.append_of_mem h
  have htext : String.ofList pre ++ String.ofList ('\uFFFD' :: post) = s := by
    rw [← String.ofList_append, ← hs, String.ofList_toList]
  let u : CodeUnits := ofText (String.ofList pre) ++ 0xDC00 :: ofText (String.ofList post)
  have hu : u.text = s := by
    have hpost := chars_ofText_append (String.ofList post) []
    rw [List.append_nil, chars, List.append_nil, String.toList_ofList] at hpost
    rw [text, chars_ofText_append, chars_cons_low (by decide), hpost, String.toList_ofList]
    rw [← String.toList_inj, String.toList_ofList, hs]
    rfl
  refine ⟨u, hu, fun he => ?_⟩
  have hsame : ofText s = ofText (String.ofList pre) ++ 0xFFFD :: ofText (String.ofList post) := by
    conv_lhs => rw [← htext, ofText_append]
    have hcons : ofText (String.ofList ('\uFFFD' :: post)) = 0xFFFD :: ofText (String.ofList post) := by
      rw [ofText, ofText, String.toList_ofList, String.toList_ofList, List.flatMap_cons]
      rfl
    rw [hcons]
  rw [hsame] at he
  exact absurd (List.cons.inj (List.append_cancel_left he)).1 (by decide)

end CodeUnits

end XChainSdk
