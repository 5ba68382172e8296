import Mathlib.Data.List.Basic
import Mathlib.Data.List.DropRight

/-!
# Delimited text

A list of tokens without the delimiter is recovered from its delimited text.

* `Tokens.join` : tokens with a delimiter between them.
* `Tokens.join_inj` : equal texts of delimiter-free tokens have equal tokens.
* `Tokens.trimTrailing` : the tokens without the empty ones at the end; a reader for whom a missing
  token is an empty one reads the same of them (`Tokens.getD_trimTrailing`).
-/

namespace Tokens

/-- The tokens with the character `c` between them. -/
def join (c : Char) (ts : List String) : String := (String.singleton c).intercalate ts

/-- No token has the delimiter. -/
def Free (c : Char) (ts : List String) : Prop := ∀ t ∈ ts, c ∉ t.toList

variable {c : Char} {ts ts' : List String}

@[simp] theorem join_singleton (t : String) : join c [t] = t := by simp [join]

theorem join_append (h : ts ≠ []) (h' : ts' ≠ []) :
    join c (ts ++ ts') = join c ts ++ String.singleton c ++ join c ts' :=
  String.intercalate_append_of_ne_nil h h'

theorem join_cons (t : String) (h : ts ≠ []) :
    join c (t :: ts) = t ++ String.singleton c ++ join c ts :=
  String.intercalate_cons_of_ne_nil h

@[simp] theorem free_append : Free c (ts ++ ts') ↔ Free c ts ∧ Free c ts' := by
  simp only [Free, List.mem_append, or_imp, forall_and]

theorem splitOn_join (h : ts ≠ []) (hts : Free c ts) :
    (join c ts).toList.splitOn c = ts.map String.toList := by
  rw [join, String.toList_intercalate, String.toList_singleton]
  refine List.splitOn_intercalate c (fun l hl => ?_) (by simpa using h)
  obtain ⟨t, ht, rfl⟩ := List.mem_map.1 hl
  exact hts t ht

theorem join_inj (h : ts ≠ []) (h' : ts' ≠ []) (hts : Free c ts) (hts' : Free c ts')
    (he : join c ts = join c ts') : ts = ts' := by
  have hmap : ts.map String.toList = ts'.map String.toList := by
    rw [← splitOn_join h hts, ← splitOn_join h' hts', he]
  exact List.map_injective_iff.2 (fun _ _ => String.toList_inj.1) hmap

/-! ### Empty tokens at the end -/

/-- Drops the empty tokens at the end, down to `keep` of them. -/
def trimTrailing (keep : ℕ) (ts : List String) : List String :=
  ts.take keep ++ (ts.drop keep).rdropWhile (· == "")

@[simp] theorem trimTrailing_nil (keep : ℕ) : trimTrailing keep [] = [] := by
  simp [trimTrailing, List.rdropWhile]

/-- What is dropped is empty. -/
theorem exists_trimTrailing (keep : ℕ) (ts : List String) :
    ∃ n, trimTrailing keep ts ++ List.replicate n "" = ts := by
  have hdrop : ∃ n, (ts.drop keep).rdropWhile (· == "") ++ List.replicate n "" = ts.drop keep := by
    induction ts.drop keep using List.reverseRecOn with
    | nil => exact ⟨0, rfl⟩
    | append_singleton us t ih =>
      by_cases ht : t = ""
      · obtain ⟨n, hn⟩ := ih
        refine ⟨n + 1, ?_⟩
        rw [List.rdropWhile_concat_pos _ _ _ (by simpa using ht), List.replicate_succ',
          ← List.append_assoc, hn, ht]
      · refine ⟨0, ?_⟩
        rw [List.rdropWhile_concat_neg _ _ _ (by simpa using ht)]
        simp
  obtain ⟨n, hn⟩ := hdrop
  refine ⟨n, ?_⟩
  rw [trimTrailing, List.append_assoc, hn, List.take_append_drop]

theorem getD_append_replicate_empty (ts : List String) (n i : ℕ) :
    (ts ++ List.replicate n "").getD i "" = ts.getD i "" := by
  simp only [List.getD_eq_getElem?_getD, List.getElem?_append]
  split_ifs with hi
  · rfl
  · rw [List.getElem?_eq_none (Nat.le_of_not_lt hi), List.getElem?_replicate]
    split_ifs <;> rfl

/-- A missing token reads as an empty one. -/
theorem getD_trimTrailing (keep : ℕ) (ts : List String) (i : ℕ) :
    (trimTrailing keep ts).getD i "" = ts.getD i "" := by
  obtain ⟨n, hn⟩ := exists_trimTrailing keep ts
  conv_rhs => rw [← hn, getD_append_replicate_empty]

/-- Nothing is dropped after a token that says something. -/
theorem trimTrailing_of_getLast? {keep : ℕ} (h : ts.getLast? ≠ some "") :
    trimTrailing keep ts = ts := by
  rw [trimTrailing, List.rdropWhile_eq_self_iff.2, List.take_append_drop]
  intro hne hlast
  refine h ?_
  have hts : ts ≠ [] := by
    rintro rfl
    simp at hne
  rw [List.getLast?_eq_some_getLast hts, ← List.getLast_drop hne]
  exact congrArg some (by simpa using hlast)

theorem free_trimTrailing {keep : ℕ} (h : Free c ts) : Free c (trimTrailing keep ts) := by
  obtain ⟨n, hn⟩ := exists_trimTrailing keep ts
  rw [← hn] at h
  exact (free_append.1 h).1

theorem trimTrailing_cons (keep : ℕ) (t : String) (ts : List String) :
    trimTrailing (keep + 1) (t :: ts) = t :: trimTrailing keep ts := rfl

/-- A token stands unless it is empty and nothing stands behind it. -/
theorem trimTrailing_zero_cons (t : String) (ts : List String) : trimTrailing 0 (t :: ts) =
    if trimTrailing 0 ts = [] ∧ t = "" then [] else t :: trimTrailing 0 ts := by
  simp only [trimTrailing, List.take_zero, List.drop_zero, List.nil_append]
  induction ts using List.reverseRecOn with
  | nil =>
    by_cases ht : t = ""
    · simp [ht, List.rdropWhile]
    · simp [ht, List.rdropWhile]
  | append_singleton us u ih =>
    rw [← List.cons_append]
    by_cases hu : u = ""
    · rw [List.rdropWhile_concat_pos _ _ _ (by simpa using hu),
        List.rdropWhile_concat_pos _ _ _ (by simpa using hu), ih]
    · rw [List.rdropWhile_concat_neg _ _ _ (by simpa using hu),
        List.rdropWhile_concat_neg _ _ _ (by simpa using hu), if_neg (by simp)]
      rfl

end Tokens
