import Mathlib.Data.List.TakeWhile
import XChainSdk.Js.Number

/-!
# Blanks around a text

* `trimChars_padded` : what is blank on both sides is stripped.
* `stringToNumber_padded`, `parseFloatText_padded`, `parseIntText_padded` : blanks around a text do
  not change the number that it reads as.
-/

namespace XChainSdk

/-- Only white space. -/
def Blank (cs : List Char) : Prop := ∀ c ∈ cs, isJsSpace c = true

variable {cs ds ws ws' : List Char} {p : Char → Bool} {s : String}

theorem dropWhile_blank (h : Blank ws) : ws.dropWhile isJsSpace = [] :=
  List.dropWhile_eq_nil_iff.2 h

theorem dropWhile_blank_append (h : Blank ws) :
    (ws ++ cs).dropWhile isJsSpace = cs.dropWhile isJsSpace := by
  rw [List.dropWhile_append, dropWhile_blank h, List.isEmpty_nil, if_pos rfl]

theorem Blank.reverse (h : Blank ws) : Blank ws.reverse := fun c hc => h c (List.mem_reverse.1 hc)

theorem blank_takeWhile (cs : List Char) : Blank (cs.takeWhile isJsSpace) :=
  fun _ hc => List.mem_takeWhile_imp hc

/-- What `trim` strips stands on both sides. -/
theorem exists_trim (cs : List Char) :
    ∃ ws ws', Blank ws ∧ Blank ws' ∧ cs = ws ++ trimChars cs ++ ws' := by
  refine ⟨cs.takeWhile isJsSpace, ((cs.dropWhile isJsSpace).reverse.takeWhile isJsSpace).reverse,
    blank_takeWhile cs, (blank_takeWhile _).reverse, ?_⟩
  rw [trimChars, List.append_assoc, ← List.reverse_append, List.takeWhile_append_dropWhile,
    List.reverse_reverse, List.takeWhile_append_dropWhile]

theorem trimChars_blank_left (h : Blank ws) : trimChars (ws ++ cs) = trimChars cs := by
  rw [trimChars, dropWhile_blank_append h, trimChars]

theorem trimChars_blank_right (h : Blank ws) : trimChars (cs ++ ws) = trimChars cs := by
  rw [trimChars, trimChars, List.dropWhile_append]
  by_cases hempty : cs.dropWhile isJsSpace = []
  · simp [hempty, dropWhile_blank h]
  · rw [if_neg (by simpa using hempty), List.reverse_append, dropWhile_blank_append h.reverse]

theorem trimChars_padded (h : Blank ws) (h' : Blank ws') :
    trimChars (ws ++ cs ++ ws') = trimChars cs := by
  rw [trimChars_blank_right h', trimChars_blank_left h]

theorem trimChars_trimChars (cs : List Char) : trimChars (trimChars cs) = trimChars cs := by
  obtain ⟨ws, ws', h, h', hcs⟩ := exists_trim cs
  conv_rhs => rw [hcs, trimChars_padded h h']

theorem trim_trim (s : String) : trim (trim s) = trim s := by
  rw [trim, trim, String.toList_ofList, trimChars_trimChars]

theorem mem_trim {c : Char} (hc : isJsSpace c = false) :
    c ∈ (trim s).toList ↔ c ∈ s.toList := by
  obtain ⟨ws, ws', h, h', hs⟩ := exists_trim s.toList
  have hout : ∀ us, Blank us → c ∉ us := fun us hus hmem => by
    rw [hus c hmem] at hc
    cases hc
  rw [trim, String.toList_ofList]
  conv_rhs => rw [hs]
  simp [hout ws h, hout ws' h']

/-- A text that leads with a character that is no blank does so when it is trimmed. -/
theorem head?_trim {c : Char} (hc : isJsSpace c = false) (h : s.toList.head? = some c) :
    (trim s).toList.head? = some c := by
  obtain ⟨ws, ws', hws, hws', hs⟩ := exists_trim s.toList
  have hout : ∀ us vs : List Char, Blank us → (us ++ vs).head? = some c → us = [] := by
    intro us vs hus hhead
    cases us with
    | nil => rfl
    | cons d us =>
      rw [List.cons_append, List.head?_cons] at hhead
      rw [← Option.some.inj hhead, hus d (by simp)] at hc
      cases hc
  rw [hs, List.append_assoc] at h
  rw [hout ws _ hws h, List.nil_append] at h
  rw [trim, String.toList_ofList]
  cases htrim : trimChars s.toList with
  | nil =>
    rw [htrim, List.nil_append] at h
    have hempty := hout ws' [] hws' (by rw [List.append_nil]; exact h)
    rw [hempty] at h
    cases h
  | cons d ds =>
    rw [htrim] at h
    exact h

/-! ### Blanks around a numeral -/

theorem toNat_of_blank {c : Char} (h : isJsSpace c = true) : c.toNat ≤ 32 ∨ 160 ≤ c.toNat := by
  simp only [isJsSpace, Bool.or_eq_true, Bool.and_eq_true, decide_eq_true_eq, beq_iff_eq] at h
  omega

/-- A blank is no printable ASCII character. -/
theorem ne_of_blank {c d : Char} (h : isJsSpace c = true) (hd : 32 < d.toNat ∧ d.toNat < 160) :
    c ≠ d := by
  rintro rfl
  have := toNat_of_blank h
  omega

theorem isDigit_of_blank {c : Char} (h : isJsSpace c = true) : c.isDigit = false := by
  cases hd : c.isDigit with
  | false => rfl
  | true =>
    have hrange : 48 ≤ c.toNat ∧ c.toNat ≤ 57 := by
      simpa [Char.isDigit, UInt32.le_iff_toNat_le] using hd
    have := toNat_of_blank h
    omega

theorem digitIn_of_blank {c : Char} (h : isJsSpace c = true) (b : ℕ) : digitIn b c = none := by
  have hrange := toNat_of_blank h
  have hout : ∀ lo hi : Char, 32 < lo.toNat → hi.toNat < 160 → ¬(lo ≤ c ∧ c ≤ hi) := by
    rintro lo hi hlo hhi ⟨h1, h2⟩
    have h1 : lo.toNat ≤ c.toNat := h1
    have h2 : c.toNat ≤ hi.toNat := h2
    omega
  rw [digitIn, if_neg (hout _ _ (by decide) (by decide)), if_neg (hout _ _ (by decide) (by decide)),
    if_neg (hout _ _ (by decide) (by decide))]
  rfl

theorem takeWhile_append_of_not (h : ∀ c ∈ ws, p c = false) :
    (cs ++ ws).takeWhile p = cs.takeWhile p := by
  induction cs with
  | nil =>
    cases ws with
    | nil => rfl
    | cons c ws => simp [h c (by simp)]
  | cons c cs ih =>
    rw [List.cons_append, List.takeWhile_cons, List.takeWhile_cons, ih]

theorem dropWhile_append_of_not (h : ∀ c ∈ ws, p c = false) :
    (cs ++ ws).dropWhile p = cs.dropWhile p ++ ws := by
  induction cs with
  | nil =>
    cases ws with
    | nil => rfl
    | cons c ws => simp [h c (by simp)]
  | cons c cs ih =>
    rw [List.cons_append, List.dropWhile_cons, List.dropWhile_cons, ih]
    split_ifs <;> rfl

theorem splitSign_blank_right (h : Blank ws) :
    splitSign (cs ++ ws) = ((splitSign cs).1, (splitSign cs).2 ++ ws) := by
  cases cs with
  | cons c cs =>
    by_cases hminus : c = '-'
    · subst hminus
      rfl
    · by_cases hplus : c = '+'
      · subst hplus
        rfl
      · simp [splitSign, hminus, hplus]
  | nil =>
    cases ws with
    | nil => rfl
    | cons c ws =>
      have hc := h c (by simp)
      have hminus : c ≠ '-' := ne_of_blank hc (by decide)
      have hplus : c ≠ '+' := ne_of_blank hc (by decide)
      simp [splitSign, hminus, hplus]

theorem unsignedDecimal_blank_right (h : Blank ws) :
    unsignedDecimal (cs ++ ws) = (unsignedDecimal cs).map fun (q, rest) => (q, rest ++ ws) := by
  have hdigit : ∀ c ∈ ws, c.isDigit = false := fun c hc => isDigit_of_blank (h c hc)
  have hdot : ∀ r, ws ≠ '.' :: r := by
    rintro r rfl
    exact ne_of_blank (h '.' (by simp)) (by decide) rfl
  simp only [unsignedDecimal, takeWhile_append_of_not hdigit, dropWhile_append_of_not hdigit]
  cases hrest : cs.dropWhile Char.isDigit with
  | nil =>
    cases ws with
    | nil => split_ifs <;> simp_all
    | cons c ws =>
      have hc : c ≠ '.' := fun hc => hdot ws (by rw [hc])
      simp only [List.nil_append]
      split_ifs <;> simp_all
  | cons c rest =>
    by_cases hc : c = '.'
    · subst hc
      simp only [List.cons_append, takeWhile_append_of_not hdigit, dropWhile_append_of_not hdigit]
      split_ifs <;> simp_all
    · simp only [List.cons_append]
      split_ifs <;> simp_all

theorem leadingExponent_blank_right (h : Blank ws) :
    leadingExponent (cs ++ ws) = leadingExponent cs := by
  have hdigit : ∀ c ∈ ws, c.isDigit = false := fun c hc => isDigit_of_blank (h c hc)
  cases cs with
  | cons c cs =>
    simp only [List.cons_append, leadingExponent, splitSign_blank_right h,
      takeWhile_append_of_not hdigit]
  | nil =>
    cases ws with
    | nil => rfl
    | cons c ws =>
      have hc := h c (by simp)
      have he : ¬(c = 'e' ∨ c = 'E') := by
        rintro (rfl | rfl)
        · exact ne_of_blank hc (by decide) rfl
        · exact ne_of_blank hc (by decide) rfl
      exact if_neg he

theorem isPrefixOf_blank_right (h : Blank ws) (hds : ∀ c ∈ ds, isJsSpace c = false) :
    ds.isPrefixOf (cs ++ ws) = ds.isPrefixOf cs := by
  induction ds generalizing cs with
  | nil => simp
  | cons d ds ih =>
    cases cs with
    | cons c cs =>
      rw [List.cons_append, List.isPrefixOf_cons_cons, List.isPrefixOf_cons_cons,
        ih fun c hc => hds c (by simp [hc])]
    | nil =>
      cases ws with
      | nil => rfl
      | cons c ws =>
        have hne : d ≠ c := by
          rintro rfl
          have := hds d (by simp)
          rw [h d (by simp)] at this
          cases this
        rw [List.nil_append, List.isPrefixOf_cons_cons]
        simp [hne]

theorem parseDigits_blank_right (h : Blank ws) (b : ℕ) (neg : Bool) :
    parseDigits b neg (cs ++ ws) = parseDigits b neg cs := by
  have hdigit : ∀ c ∈ ws, (digitIn b c).isSome = false := fun c hc => by
    rw [digitIn_of_blank (h c hc)]
    rfl
  rw [parseDigits, parseDigits, takeWhile_append_of_not hdigit]

/-- What is left of a padded text once the blanks in front are gone. -/
theorem dropWhile_padded (h : Blank ws) (h' : Blank ws') :
    ∃ us, Blank us ∧ (ws ++ cs ++ ws').dropWhile isJsSpace = cs.dropWhile isJsSpace ++ us := by
  rw [List.append_assoc, dropWhile_blank_append h, List.dropWhile_append]
  by_cases hempty : cs.dropWhile isJsSpace = []
  · refine ⟨[], fun _ hc => absurd hc List.not_mem_nil, ?_⟩
    rw [hempty, List.isEmpty_nil, if_pos rfl, dropWhile_blank h']
    rfl
  · exact ⟨ws', h', if_neg (by simpa using hempty)⟩

theorem stringToNumber_padded (h : Blank ws) (h' : Blank ws') :
    stringToNumber (String.ofList (ws ++ cs ++ ws')) = stringToNumber (String.ofList cs) := by
  simp only [stringToNumber, String.toList_ofList, trimChars_padded h h']

theorem parseFloatText_padded (h : Blank ws) (h' : Blank ws') :
    parseFloatText (String.ofList (ws ++ cs ++ ws')) = parseFloatText (String.ofList cs) := by
  obtain ⟨us, hus, hdrop⟩ := @dropWhile_padded cs ws ws' h h'
  have hall : ("Infinity".toList.all fun c => !isJsSpace c) = true := by decide
  have hinf : ∀ c ∈ "Infinity".toList, isJsSpace c = false := fun c hc =>
    Bool.not_eq_true' _ ▸ List.all_eq_true.1 hall c hc
  simp only [parseFloatText, String.toList_ofList, hdrop, splitSign_blank_right hus,
    isPrefixOf_blank_right hus hinf, unsignedDecimal_blank_right hus]
  cases unsignedDecimal (splitSign (cs.dropWhile isJsSpace)).2 with
  | none => rfl
  | some r => simp only [Option.map_some, leadingExponent_blank_right hus]

/-- The prefix of a hexadecimal text. -/
def hexPrefixed (cs : List Char) : Prop := cs.take 2 = ['0', 'x'] ∨ cs.take 2 = ['0', 'X']

instance (cs : List Char) : Decidable (hexPrefixed cs) := inferInstanceAs (Decidable (_ ∨ _))

theorem parseIntText_eq (s : String) :
    parseIntText s =
      let (neg, cs) := splitSign (s.toList.dropWhile isJsSpace)
      if hexPrefixed cs then parseDigits 16 neg (cs.drop 2) else parseDigits 10 neg cs := by
  rw [parseIntText]
  obtain ⟨neg, cs⟩ := splitSign (s.toList.dropWhile isJsSpace)
  dsimp only
  split
  · simp [hexPrefixed]
  · simp [hexPrefixed]
  · next hx hX =>
    have hsplit := List.take_append_drop 2 cs
    refine (if_neg ?_).symm
    rintro (h | h)
    · exact hx (cs.drop 2) (by rw [← hsplit, h]; rfl)
    · exact hX (cs.drop 2) (by rw [← hsplit, h]; rfl)

theorem hexPrefixed_blank_right (h : Blank ws) : hexPrefixed (cs ++ ws) ↔ hexPrefixed cs := by
  have hx : ∀ d ∈ ['0', 'x', 'X'], ∀ c ∈ ws, c ≠ d := by
    intro d hd c hc
    have hall : (['0', 'x', 'X'].all fun d => decide (32 < d.toNat ∧ d.toNat < 160)) = true := by
      decide
    exact ne_of_blank (h c hc) (of_decide_eq_true (List.all_eq_true.1 hall d hd))
  match cs with
  | [] =>
    match ws with
    | [] => rfl
    | c :: ws => simp [hexPrefixed, hx '0' (by simp) c (by simp)]
  | [c] =>
    match ws with
    | [] => rfl
    | d :: ws =>
      simp [hexPrefixed, hx 'x' (by simp) d (by simp), hx 'X' (by simp) d (by simp)]
  | c :: d :: cs => rfl

theorem hexPrefixed.drop_append (h : hexPrefixed cs) : (cs ++ ws).drop 2 = cs.drop 2 ++ ws := by
  refine List.drop_append_of_le_length ?_
  have hlen : (cs.take 2).length = 2 := by
    rcases h with h | h <;> rw [h] <;> rfl
  rw [List.length_take] at hlen
  omega

theorem parseIntText_padded (h : Blank ws) (h' : Blank ws') :
    parseIntText (String.ofList (ws ++ cs ++ ws')) = parseIntText (String.ofList cs) := by
  obtain ⟨us, hus, hdrop⟩ := @dropWhile_padded cs ws ws' h h'
  simp only [parseIntText_eq, String.toList_ofList, hdrop, splitSign_blank_right hus,
    hexPrefixed_blank_right hus]
  split_ifs with hhex
  · rw [hhex.drop_append, parseDigits_blank_right hus]
  · rw [parseDigits_blank_right hus]

end XChainSdk
