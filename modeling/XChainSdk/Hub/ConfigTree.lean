import XChainSdk.Js.Value
import XChainSdk.Lib.Dict
import Mathlib.Data.List.Dedup

/-!
# Configuration trees

A hub serves its configuration rows as a tree of objects, by coin, network, module and parameter.

* `Js.«at»` : the value under a path of keys.
* `mergeConfigDelta` : a tree of changed rows is folded into a cached tree.
* `configAt_mergeConfigDelta` : a path of the merged tree has the value of the changed rows, when
  they have one, and that of the cached tree otherwise.
* `treeOf` : the tree of rows.
-/

namespace XChainSdk

namespace Js

/-- The value under a path of keys; only plain objects have members. -/
def «at» : Js → List String → Option Js
  | x, [] => some x
  | obj fs, k :: ks => (fs.lookup k).bind fun x => x.at ks
  | _, _ :: _ => none

/-- `x[k] = v` of an object. -/
def setKey (x : Js) (k : String) (v : Js) : Js :=
  match x with
  | obj fs => obj (Loop.setEntry fs k v)
  | x => x

end Js

open Js

/-- Names that reach `Object.prototype` or a constructor. -/
def PROTOTYPE_KEYS : List String := ["__proto__", "constructor", "prototype"]

def isUnsafeConfigKey (key : String) : Bool := PROTOTYPE_KEYS.contains key

/-- Own keys of a level, minus prototype-sensitive ones; none for what is no object. -/
def safeConfigKeys : Js → List String
  | obj fs => (fs.map Prod.fst).dedup.filter fun key => !isUnsafeConfigKey key
  | _ => []

/-- The child map at a key, an own plain object or a fresh one. -/
def ownConfigBranch (x : Js) (key : String) : Js :=
  match x.at [key] with
  | some (obj fs) => obj fs
  | _ => obj []

/-- The loops of `mergeConfigDelta`, by the levels that are left. -/
def mergeLevels : ℕ → Js → Js → Js
  | 0, _, delta => delta
  | d + 1, base, delta =>
    (safeConfigKeys delta).foldl
      (fun base key => base.setKey key (mergeLevels d (ownConfigBranch base key) (delta.field key)))
      base

/-- `mergeConfigDelta`: coins, networks, modules and parameters. -/
def mergeConfigDelta (base delta : Js) : Js := mergeLevels 4 base delta

/-! ### What a merge changes -/

theorem at_setKey (fs : List (String × Js)) (k : String) (v : Js) (j : String)
    (js : List String) : ((obj fs).setKey k v).at (j :: js) =
      if j = k then v.at js else (obj fs).at (j :: js) := by
  simp only [setKey, Js.at, Loop.lookup_setEntry]
  split <;> rfl

/-- Plain objects. -/
def IsObj (x : Js) : Prop := ∃ fs, x = obj fs

theorem IsObj.setKey {x : Js} (h : IsObj x) (k : String) (v : Js) : IsObj (x.setKey k v) := by
  obtain ⟨fs, rfl⟩ := h
  exact ⟨_, rfl⟩

theorem isObj_ownConfigBranch (x : Js) (key : String) : IsObj (ownConfigBranch x key) := by
  unfold ownConfigBranch
  split <;> exact ⟨_, rfl⟩

/-- A branch has the paths of its key, the empty one apart. -/
theorem at_ownConfigBranch (x : Js) (key : String) (js : List String) (hjs : js ≠ []) :
    (ownConfigBranch x key).at js = x.at (key :: js) := by
  obtain ⟨j, js, rfl⟩ := List.exists_cons_of_ne_nil hjs
  unfold ownConfigBranch
  cases x with
  | obj fs =>
    simp only [Js.at]
    cases hv : fs.lookup key with
    | none => simp [Js.at]
    | some v => cases v <;> simp [Js.at]
  | _ => simp [Js.at]

/-- One level: a key that the loop visits gets its new child, another keeps its own. -/
theorem foldl_setKey {f : Js → String → Js} {keys : List String} {base : Js} (hbase : IsObj base)
    (hnodup : keys.Nodup) (hf : ∀ x k v j, j ≠ k → IsObj x → f (x.setKey k v) j = f x j) :
    IsObj (keys.foldl (fun x k => x.setKey k (f x k)) base) ∧
      ∀ j js, (keys.foldl (fun x k => x.setKey k (f x k)) base).at (j :: js) =
        if j ∈ keys then (f base j).at js else base.at (j :: js) := by
  induction keys generalizing base with
  | nil => exact ⟨hbase, fun j js => by simp⟩
  | cons k keys ih =>
    rw [List.nodup_cons] at hnodup
    obtain ⟨hobj, hat⟩ := ih (hbase.setKey k (f base k)) hnodup.2
    refine ⟨hobj, fun j js => ?_⟩
    rw [List.foldl_cons, hat]
    obtain ⟨fs, rfl⟩ := hbase
    by_cases hj : j = k
    · subst hj
      rw [if_neg hnodup.1, at_setKey, if_pos rfl, if_pos (List.mem_cons_self ..)]
    · rw [at_setKey, if_neg hj, hf _ _ _ _ hj ⟨fs, rfl⟩]
      simp [hj]

/-- A path starts with a member. -/
theorem at_cons (x : Js) (j : String) (js : List String) :
    x.at (j :: js) = (x.at [j]).bind fun v => v.at js := by
  cases x with
  | obj fs =>
    simp only [Js.at]
    cases fs.lookup j <;> rfl
  | _ => rfl

theorem field_of_at {x v : Js} {j : String} (h : x.at [j] = some v) : x.field j = v := by
  cases x with
  | obj fs =>
    simp only [Js.at] at h
    cases hv : fs.lookup j with
    | none => simp [hv] at h
    | some w =>
      rw [hv] at h
      obtain rfl : w = v := by simpa [Js.at] using h
      simp [member, hv]
  | _ => simp [Js.at] at h

theorem mem_safeConfigKeys {x : Js} {key : String} :
    key ∈ safeConfigKeys x ↔ (∃ v, x.at [key] = some v) ∧ isUnsafeConfigKey key = false := by
  cases x with
  | obj fs =>
    have hkey : key ∈ fs.map Prod.fst ↔ ∃ v, fs.lookup key = some v := by
      constructor
      · intro hmem
        cases hv : fs.lookup key with
        | some v => exact ⟨v, rfl⟩
        | none =>
          obtain ⟨⟨k, v⟩, he, rfl⟩ := List.mem_map.1 hmem
          have := List.lookup_eq_none_iff.1 hv (k, v) he
          simp at this
      · rintro ⟨v, hv⟩
        obtain ⟨l, r, he, -⟩ := List.lookup_eq_some_iff.1 hv
        rw [he]
        simp
    simp [safeConfigKeys, Js.at, hkey]
  | _ => simp [safeConfigKeys, Js.at]

theorem nodup_safeConfigKeys (x : Js) : (safeConfigKeys x).Nodup := by
  cases x with
  | obj fs => exact (List.nodup_dedup _).filter _
  | _ => exact List.nodup_nil

theorem ownConfigBranch_setKey (x : Js) (k : String) (v : Js) (j : String) (h : j ≠ k)
    (hx : IsObj x) : ownConfigBranch (x.setKey k v) j = ownConfigBranch x j := by
  obtain ⟨fs, rfl⟩ := hx
  simp only [ownConfigBranch, at_setKey, if_neg h]

/-- One key of a path: the merged child when the changed rows have one, or the old one. -/
theorem at_mergeLevels_succ {d : ℕ} {base delta : Js} (hbase : IsObj base) (j : String)
    (js : List String) : (mergeLevels (d + 1) base delta).at (j :: js) =
      if j ∈ safeConfigKeys delta then
        (mergeLevels d (ownConfigBranch base j) (delta.field j)).at js
      else base.at (j :: js) :=
  (foldl_setKey (f := fun x k => mergeLevels d (ownConfigBranch x k) (delta.field k)) hbase
    (nodup_safeConfigKeys delta)
    fun x k v i hi hx => by rw [ownConfigBranch_setKey x k v i hi hx]).2 j js

/-- A path without prototype-sensitive names has the value of the changed rows, when they have one,
and that of the cached tree otherwise. -/
theorem at_mergeLevels {d : ℕ} {base delta : Js} {path : List String} (hlen : path.length = d)
    (hbase : d ≠ 0 → IsObj base) (hsafe : ∀ k ∈ path, isUnsafeConfigKey k = false) :
    (mergeLevels d base delta).at path = (delta.at path).or (base.at path) := by
  -- the induction follows the levels
  induction d generalizing base delta path with
  | zero =>
    obtain rfl := List.length_eq_zero_iff.1 hlen
    rfl
  | succ d ih =>
    obtain ⟨j, js, rfl⟩ : ∃ j js, path = j :: js := List.exists_cons_of_length_eq_add_one hlen
    have hj : isUnsafeConfigKey j = false := hsafe j (List.mem_cons_self ..)
    rw [at_mergeLevels_succ (hbase (by omega))]
    split
    · next hmem =>
      obtain ⟨⟨v, hv⟩, -⟩ := mem_safeConfigKeys.1 hmem
      rw [ih (by simpa using hlen) (fun _ => isObj_ownConfigBranch _ _)
        (fun k hk => hsafe k (List.mem_cons_of_mem _ hk)), field_of_at hv, at_cons delta, hv,
        Option.bind_some]
      -- at the last level the value of the changed rows replaces the old one
      cases js with
      | nil => simp [Js.at]
      | cons j' js => rw [at_ownConfigBranch _ _ _ (List.cons_ne_nil _ _)]
    · next hmem =>
      have hnone : delta.at [j] = none := by
        cases hv : delta.at [j] with
        | none => rfl
        | some v => exact absurd (mem_safeConfigKeys.2 ⟨⟨v, hv⟩, hj⟩) hmem
      rw [at_cons delta, hnone, Option.bind_none, Option.none_or]

/-- A path with a prototype-sensitive name is left as it is. -/
theorem at_mergeLevels_of_sensitive {d : ℕ} {base delta : Js} {path : List String}
    (hlen : path.length = d) (hbase : d ≠ 0 → IsObj base)
    (hsensitive : ∃ k ∈ path, isUnsafeConfigKey k = true) :
    (mergeLevels d base delta).at path = base.at path := by
  induction d generalizing base delta path with
  | zero =>
    obtain rfl := List.length_eq_zero_iff.1 hlen
    obtain ⟨k, hk, -⟩ := hsensitive
    cases hk
  | succ d ih =>
    obtain ⟨j, js, rfl⟩ : ∃ j js, path = j :: js := List.exists_cons_of_length_eq_add_one hlen
    rw [at_mergeLevels_succ (hbase (by omega))]
    split
    · next hmem =>
      obtain ⟨k, hk, hun⟩ := hsensitive
      have hjs : k ∈ js := by
        rcases List.mem_cons.1 hk with rfl | hk
        · rw [(mem_safeConfigKeys.1 hmem).2] at hun
          cases hun
        · exact hk
      rw [ih (by simpa using hlen) (fun _ => isObj_ownConfigBranch _ _) ⟨k, hjs, hun⟩,
        at_ownConfigBranch _ _ _ (List.ne_nil_of_mem hjs)]
    · rfl

/-! ### Rows -/

/-- The place of a parameter. -/
structure ConfigPath where
  coin : String
  network : String
  module : String
  param : String
  deriving DecidableEq

def ConfigPath.keys (p : ConfigPath) : List String := [p.coin, p.network, p.module, p.param]

/-- No name of the path is prototype-sensitive. -/
def ConfigPath.Safe (p : ConfigPath) : Prop := ∀ k ∈ p.keys, isUnsafeConfigKey k = false

instance (p : ConfigPath) : Decidable p.Safe := inferInstanceAs (Decidable (∀ k ∈ p.keys, _))

/-- The value of a parameter in a tree. -/
def configAt (tree : Js) (p : ConfigPath) : Option Js := tree.at p.keys

theorem configAt_mergeConfigDelta {base delta : Js} (hbase : IsObj base) {p : ConfigPath}
    (hp : p.Safe) :
    configAt (mergeConfigDelta base delta) p = (configAt delta p).or (configAt base p) :=
  at_mergeLevels rfl (fun _ => hbase) hp

theorem configAt_mergeConfigDelta_of_sensitive {base : Js} (hbase : IsObj base) (delta : Js)
    {p : ConfigPath} (hp : ¬p.Safe) :
    configAt (mergeConfigDelta base delta) p = configAt base p := by
  refine at_mergeLevels_of_sensitive rfl (fun _ => hbase) ?_
  by_contra hnone
  push Not at hnone
  exact hp fun k hk => by simpa using hnone k hk

theorem isObj_mergeConfigDelta {base : Js} (hbase : IsObj base) (delta : Js) :
    IsObj (mergeConfigDelta base delta) := by
  refine (foldl_setKey hbase (nodup_safeConfigKeys delta) fun x k v i hi hx => ?_).1
  rw [ownConfigBranch_setKey x k v i hi hx]

/-- A row: a value, and the second of its last update. -/
structure ConfigRow where
  value : Js
  updatedAt : ℕ

/-- The value under a path is set, through fresh objects where there is none. -/
def setAt : List String → Js → Js → Js
  | [], _, v => v
  | k :: ks, x, v => x.setKey k (setAt ks (ownConfigBranch x k) v)

/-- The tree of rows, as a hub serves it. -/
def treeOf (rows : List (ConfigPath × ConfigRow)) : Js :=
  rows.foldl (fun tree row => setAt row.1.keys tree row.2.value) (.obj [])

theorem at_setAt {ks ks' : List String} {x v : Js} (hlen : ks.length = ks'.length)
    (hx : ks ≠ [] → IsObj x) :
    (setAt ks x v).at ks' = if ks' = ks then some v else x.at ks' := by
  induction ks generalizing x ks' with
  | nil =>
    obtain rfl := List.length_eq_zero_iff.1 hlen.symm
    rfl
  | cons k ks ih =>
    obtain ⟨j, js, rfl⟩ := List.exists_cons_of_length_eq_add_one hlen.symm
    obtain ⟨fs, rfl⟩ := hx (List.cons_ne_nil _ _)
    rw [setAt, at_setKey]
    by_cases hj : j = k
    · subst hj
      rw [if_pos rfl, ih (by simpa using hlen) fun _ => isObj_ownConfigBranch _ _]
      by_cases hjs : js = ks
      · simp [hjs]
      · have hne : js ≠ [] ∨ js = [] := ne_or_eq js []
        rcases hne with hne | rfl
        · simp [hjs, at_ownConfigBranch _ _ _ hne]
        · have : ks = [] := by simpa using hlen
          exact absurd this.symm hjs
    · simp [hj]

theorem isObj_setAt {tree : Js} (htree : IsObj tree) (p : ConfigPath) (v : Js) :
    IsObj (setAt p.keys tree v) := htree.setKey _ _

theorem ConfigPath.keys_injective {p q : ConfigPath} (h : p.keys = q.keys) : p = q := by
  cases p
  cases q
  simpa [ConfigPath.keys] using h

theorem configAt_setAt {tree : Js} (htree : IsObj tree) (p q : ConfigPath) (v : Js) :
    configAt (setAt q.keys tree v) p = if p = q then some v else configAt tree p := by
  have hlen : q.keys.length = p.keys.length := rfl
  rw [configAt, at_setAt hlen fun _ => htree]
  by_cases hp : p = q
  · rw [if_pos (congrArg ConfigPath.keys hp), if_pos hp]
  · rw [if_neg fun h => hp (ConfigPath.keys_injective h), if_neg hp, configAt]

/-- The tree of rows has their values. -/
theorem configAt_treeOf {rows : List (ConfigPath × ConfigRow)}
    (hnodup : (rows.map Prod.fst).Nodup) (p : ConfigPath) :
    configAt (treeOf rows) p = (rows.lookup p).map ConfigRow.value := by
  -- the rows are set one after the other on what is there
  have hgen : ∀ tree, IsObj tree → configAt (rows.foldl (fun tree row =>
      setAt row.1.keys tree row.2.value) tree) p =
        ((rows.lookup p).map ConfigRow.value).or (configAt tree p) := by
    induction rows with
    | nil =>
      intro tree _
      simp
    | cons row rows ih =>
      intro tree htree
      rw [List.map_cons, List.nodup_cons] at hnodup
      rw [List.foldl_cons, ih hnodup.2 _ (isObj_setAt htree _ _), configAt_setAt htree,
        Loop.lookup_cons]
      by_cases hp : p = row.1
      · subst hp
        have hnone : rows.lookup row.1 = none := by
          rw [List.lookup_eq_none_iff]
          intro e he
          have hne : row.1 ≠ e.1 := by
            intro heq
            rw [heq] at hnodup
            exact hnodup.1 (List.mem_map_of_mem he)
          simpa using hne
        simp [hnone]
      · rw [if_neg hp, if_neg hp]
  rw [treeOf, hgen _ ⟨[], rfl⟩]
  simp [configAt, ConfigPath.keys, Js.at]

theorem isObj_treeOf (rows : List (ConfigPath × ConfigRow)) : IsObj (treeOf rows) := by
  unfold treeOf
  generalize hstart : (Js.obj [] : Js) = start
  have hobj : IsObj start := ⟨[], hstart.symm⟩
  clear hstart
  induction rows generalizing start with
  | nil => exact hobj
  | cons row rows ih => exact ih _ (isObj_setAt hobj _ _)

end XChainSdk
