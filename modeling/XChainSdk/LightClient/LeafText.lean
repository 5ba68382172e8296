import XChainSdk.LightClient.ProofChecks

/-!
# Claimed leaves as text

A verifier compares a claimed leaf with a computed digest through `lowerHex`, and hands the claimed
value itself to `toBuf`.  The two readings agree on strings and differ on arrays.

* `toBuf_of_lowerHex_eq` : **the bytes behind a claimed leaf with the right text** are the digest,
  or a single byte when the claim is a one-element array.
-/

namespace XChainSdk

open Hash Js

theorem unhex_toLower (c : Char) : unhex c.toLower = unhex c := by
  by_cases h : 65 ≤ c.toNat ∧ c.toNat ≤ 90
  · have hc : c = Char.ofNat c.toNat := (Char.ofNat_toNat c).symm
    obtain ⟨h1, h2⟩ := h
    rw [hc]
    interval_cases c.toNat <;> decide
  · rw [show c.toLower = c from dif_neg fun hv => h ⟨hv.1, hv.2⟩]

theorem hexDecode_asciiLower (s : String) : hexDecode (asciiLower s) = hexDecode s := by
  have hgen : ∀ cs : List Char, hexDecodeChars (cs.map Char.toLower) = hexDecodeChars cs := by
    intro cs
    induction cs using hexDecodeChars.induct with
    | case1 c d rest x y hx hy ih =>
      simp [hexDecodeChars, unhex_toLower, hx, hy, ih]
    | case2 c d rest hnone =>
      simp only [List.map_cons, hexDecodeChars, unhex_toLower]
    | case3 cs h =>
      obtain _ | ⟨c, _ | ⟨d, rest⟩⟩ := cs
      · rfl
      · rfl
      · exact absurd rfl (h c d rest)
  rw [hexDecode, asciiLower, String.toList_ofList, hgen, hexDecode]

theorem mem_toHex {b : Bytes} {c : Char} (h : c ∈ (toHex b).toList) :
    c ∈ ['0', '1', '2', '3', '4', '5', '6', '7', '8', '9', 'a', 'b', 'c', 'd', 'e', 'f'] := by
  rw [toHex, String.toList_ofList] at h
  obtain ⟨x, -, hx⟩ := List.mem_flatMap.1 h
  have hlt : x.toNat < 256 := x.toNat_lt
  have hdigit : ∀ n < 16, hexDigit n ∈
      ['0', '1', '2', '3', '4', '5', '6', '7', '8', '9', 'a', 'b', 'c', 'd', 'e', 'f'] := by decide
  rcases List.mem_cons.1 hx with rfl | hx
  · exact hdigit _ (by omega)
  · rw [List.mem_singleton.1 hx]
    exact hdigit _ (by omega)

/-- Hexadecimal digits are ASCII and in lower case. -/
theorem toLower_of_mem_toHex {b : Bytes} {c : Char} (h : c ∈ (toHex b).toList) :
    c.toNat < 128 ∧ c.toLower = c := by
  have hall : ['0', '1', '2', '3', '4', '5', '6', '7', '8', '9', 'a', 'b', 'c', 'd', 'e', 'f'].all
      (fun c => decide (c.toNat < 128 ∧ c.toLower = c)) = true := by decide
  simpa using List.all_eq_true.1 hall c (mem_toHex h)

theorem isAscii_toHex (b : Bytes) : IsAscii (toHex b) := fun _ hc => (toLower_of_mem_toHex hc).1

/-- Lower case of text that is not `k` and ASCII is not changed by another lower case. -/
theorem toLowerCase_toLowerCase {H : Host} {s : String} (h : IsAscii (H.toLowerCase s))
    (hk : 'k' ∉ (H.toLowerCase s).toList) :
    H.toLowerCase (H.toLowerCase s) = H.toLowerCase s := by
  have hs : H.toLowerCase s = asciiLower s :=
    H.toLowerCase_ascii s (H.isAscii_of_toLowerCase s h hk)
  rw [H.toLowerCase_ascii _ h, hs, asciiLower, asciiLower, String.toList_ofList, List.map_map]
  simp only [Function.comp_def, toLower_toLower]

section

variable {H : Host} {s : String} {b : Bytes}

/-- Text whose lower case is hexadecimal is ASCII. -/
theorem asciiLower_of_toLowerCase_eq_toHex (h : H.toLowerCase s = toHex b) :
    asciiLower s = toHex b := by
  have hascii : IsAscii s := by
    refine H.isAscii_of_toLowerCase s (h ▸ isAscii_toHex b) fun hk => ?_
    exact absurd (mem_toHex (h ▸ hk)) (by decide)
  rw [← H.toLowerCase_ascii s hascii, h]

theorem hexDecode_of_toLowerCase_eq_toHex (h : H.toLowerCase s = toHex b) : hexDecode s = b := by
  rw [← hexDecode_asciiLower, asciiLower_of_toLowerCase_eq_toHex h, hexDecode_toHex]

/-- Characters that are not in hexadecimal text are not in text that lower-cases to it. -/
theorem notMem_of_toLowerCase_eq_toHex (h : H.toLowerCase s = toHex b) {c : Char}
    (hc : c.toLower ∉
      ['0', '1', '2', '3', '4', '5', '6', '7', '8', '9', 'a', 'b', 'c', 'd', 'e', 'f']) :
    c ∉ s.toList := fun hmem => by
  have hlower : c.toLower ∈ (asciiLower s).toList := by
    rw [asciiLower, String.toList_ofList]
    exact List.mem_map_of_mem hmem
  rw [asciiLower_of_toLowerCase_eq_toHex h] at hlower
  exact hc (mem_toHex hlower)

end

/-- Hexadecimal text is in lower case already. -/
theorem lowerHex_hexText (H : Host) (b : Bytes) : lowerHex H (hexText b) = toHex b := by
  have hlower : (toHex b).toList.map Char.toLower = (toHex b).toList := by
    conv_rhs => rw [← List.map_id (toHex b).toList]
    exact List.map_congr_left fun c hc => (toLower_of_mem_toHex hc).2
  have htext : (hexText b).elemText = toHex b := by simp [hexText, Js.elemText, Js.isNullish]
  rw [lowerHex, htext, H.toLowerCase_ascii _ (isAscii_toHex b), asciiLower, hlower, String.ofList_toList]

theorem comma_mem_toText (x y : Js) (xs : List Js) : ',' ∈ (arr (x :: y :: xs)).toText.toList := by
  rw [Js.toText, Js.joinTexts, Js.joinTexts, String.toList_intercalate]
  simp [List.intercalate]

/-- **The bytes behind a claimed leaf.**  When the text of the claim is that of a digest, its bytes
are the digest, except for a one-element array, which stands for one byte. -/
theorem toBuf_of_lowerHex_eq {H : Host} {x : Js} {d : Digest} {b : Bytes}
    (h : lowerHex H x = toHex d.bytes) (hb : x.toBuf = some b) :
    b = d.bytes ∨ ∃ y β, x = arr [y] ∧ toUint8 y = some β ∧ b = [β] := by
  cases x with
  | str s =>
    left
    rw [toBuf_str] at hb
    rw [← Option.some.inj hb]
    exact hexDecode_of_toLowerCase_eq_toHex h
  | arr xs =>
    match xs with
    | [] =>
      have hlen := congrArg List.length
        (hexDecode_of_toLowerCase_eq_toHex (s := (arr []).elemText) h)
      rw [Digest.length_bytes] at hlen
      exact absurd hlen (by decide)
    | [y] =>
      right
      obtain ⟨β, hβ, rfl⟩ : ∃ β, toUint8 y = some β ∧ b = [β] := by
        have hall := Loop.mapM_eq_some_iff.1 (show [y].mapM toUint8 = some b from hb)
        obtain ⟨β, bs, hβ, hbs, rfl⟩ := List.forall₂_cons_left_iff.1 hall
        exact ⟨β, hβ, by rw [List.forall₂_nil_left_iff.1 hbs]⟩
      exact ⟨y, β, rfl, hβ, rfl⟩
    | y :: z :: rest =>
      exact absurd (comma_mem_toText y z rest)
        (notMem_of_toLowerCase_eq_toHex (s := (arr (y :: z :: rest)).toText) h (by decide))
  | obj fs =>
    exact absurd (show '[' ∈ "[object Object]".toList by decide)
      (notMem_of_toLowerCase_eq_toHex (s := "[object Object]")
        (by simpa [lowerHex, Js.elemText, Js.toText, Js.isNullish] using h) (by decide))
  | _ => cases hb

end XChainSdk
