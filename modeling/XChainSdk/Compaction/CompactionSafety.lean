import XChainSdk.Compaction.IssueVersion

/-!
# What compaction keeps

* `Registry`, `Chain` : what things are called, by their names and by their ids.
* `Reached` : the caches that lookups lead to, in whatever order they settle.
* `Change` : the changes that keep what an action refers to.
* `TickResolver.resolveActionParams_spec`, `AddressResolver.resolveActionParams_spec` : each
  resolver makes such changes only.
* `compaction_preserves` : **so do both, and an issuance that may create a token keeps its name
  unless two keys spell its version**.
-/

namespace XChainSdk

open Js

variable {ι ν : Type} {H : Host} {M : MathJs}

/-! ### What things are called -/

/-- Things by their names and by their ids. -/
structure Registry (ι : Type) where
  ofName : String → Option ι
  ofId : String → Option ι

/-- A name and an id of one thing. -/
def Registry.Same (R : Registry ι) (name id : String) : Prop :=
  ∃ t, R.ofName name = some t ∧ R.ofId id = some t

/-- The tokens and the addresses of the chains. -/
structure Chain (H : Host) (ι : Type) where
  tokens : Registry ι
  addresses : Registry ι
  /-- the tokens on the chain of a coin -/
  coinTokens : String → Registry ι
  /-- the type of the list that an action made, by its index -/
  listType : String → String
  /-- the case of a token's name does not matter -/
  fold_case : ∀ a b, H.toLowerCase a = H.toLowerCase b → tokens.ofName a = tokens.ofName b
  fold_case_coin : ∀ coin a b, H.toLowerCase a = H.toLowerCase b →
    (coinTokens coin).ofName a = (coinTokens coin).ofName b

/-! ### Lookups -/

/-- The caches that lookups lead to.  A lookup is asked with one cache and settles with another. -/
inductive Reached (idField : String) (keyOf : ν → String) (Same : ν → String → Prop) :
    RefCache → Prop
  | start : Reached idField keyOf Same .empty
  | settled {x : ν} {w : Await} {wired : Bool} : Reached idField keyOf Same w.before →
      Reached idField keyOf Same w.after →
      (∀ id, w.answer.bind (readId idField) = some id → Same x id) →
      Reached idField keyOf Same (lookupId idField wired (keyOf x) w).1

/-- A lookup that meets reached caches and an explorer that answers right, or not at all. -/
structure Await.Met (idField : String) (keyOf : ν → String) (Same : ν → String → Prop) (x : ν)
    (w : Await) : Prop where
  before : Reached idField keyOf Same w.before
  after : Reached idField keyOf Same w.after
  answer : ∀ id, w.answer.bind (readId idField) = some id → Same x id

section Lookup

variable {idField : String} {keyOf : ν → String} {Same : ν → String → Prop} {cache : RefCache}
  {x : ν} {w : Await} {id : String} {wired : Bool}

/-- What a lookup gives is in the cache before it or in the answer; it adds nothing else. -/
theorem lookupId_cases (key : String) :
    (∀ id, (lookupId idField wired key w).2 = some id →
      w.before.get? key = some id ∨ w.answer.bind (readId idField) = some id) ∧
    ((lookupId idField wired key w).1 = w.before ∨ (lookupId idField wired key w).1 = w.after ∨
      ∃ id, w.answer.bind (readId idField) = some id ∧
        (lookupId idField wired key w).1 = w.after.set key id) := by
  rw [lookupId]
  split
  · rename_i id hid
    exact ⟨fun id' h => .inl (by rw [hid]; exact h), .inl rfl⟩
  · split_ifs
    · split
      · rename_i id hid
        exact ⟨fun id' h => .inr (by rw [hid]; exact h), .inr (.inr ⟨id, hid, rfl⟩)⟩
      · exact ⟨fun id h => (by cases h), .inr (.inl rfl)⟩
    · exact ⟨fun id h => (by cases h), .inl rfl⟩

/-- A reached cache holds ids of the things that were looked up. -/
theorem Reached.sound (hcongr : ∀ x y id, keyOf x = keyOf y → Same x id → Same y id)
    (h : Reached idField keyOf Same cache) :
    ∀ x id, cache.get? (keyOf x) = some id → Same x id := by
  induction h with
  | start => exact fun x id hget => by cases hget
  | @settled y w wired _ _ hanswer ihb iha =>
    intro x id hget
    rcases (@lookupId_cases idField w wired (keyOf y)).2 with
      heq | heq | ⟨id', hid, heq⟩
    · rw [heq] at hget
      exact ihb x id hget
    · rw [heq] at hget
      exact iha x id hget
    · rw [heq, Dict.get?_set] at hget
      split_ifs at hget with hkey
      · cases hget
        exact hcongr y x _ hkey.symm (hanswer _ hid)
      · exact iha x id hget

theorem Await.Met.same (hcongr : ∀ x y id, keyOf x = keyOf y → Same x id → Same y id)
    (hw : w.Met idField keyOf Same x) (h : (lookupId idField wired (keyOf x) w).2 = some id) :
    Same x id := by
  rcases (lookupId_cases (keyOf x)).1 id h with hget | hanswer
  · exact hw.before.sound hcongr x id hget
  · exact hw.answer id hanswer

end Lookup

/-! ### One value -/

/-- The name is left as it is, or it becomes the id of the same thing. -/
theorem RefKind.resolve_spec {k : RefKind} {Same : String → String → Prop}
    (hcongr : ∀ x y id, k.key x = k.key y → Same x id → Same y id) {opts : ResolverOptions}
    {w : Await} {value : Js} (hw : w.Met k.idField k.key Same value.toText) :
    (k.resolve opts w value).2 = value ∨ k.kept value.toText = false ∧
      ∃ id, (k.resolve opts w value).2 = .str ("^" ++ id) ∧ Same value.toText id := by
  rw [RefKind.resolve]
  split_ifs with hkept
  · exact .inl rfl
  · simp only [Bool.or_eq_true, not_or, Bool.not_eq_true] at hkept
    cases hlookup : lookupId k.idField opts.wired (k.key value.toText) w with
    | mk cache found =>
      cases found with
      | none => exact .inl rfl
      | some id => exact .inr ⟨hkept.2, id, rfl, hw.same hcongr (by rw [hlookup])⟩

theorem RefKind.resolve_of_kept {k : RefKind} {opts : ResolverOptions} {w : Await} {value : Js}
    (h : k.kept value.toText = true) : (k.resolve opts w value).2 = value := by
  rw [RefKind.resolve, h, Bool.or_true, if_pos rfl]

/-- The coins whose tokens are looked up. -/
def LookupItem : Type := {p : TickCoinItem // p.coin ∈ ["BTC", "LTC", "DOGE"]}

/-- The key of an item in the cache. -/
def LookupItem.key (H : Host) (p : LookupItem) : String := p.1.coin ++ ":" ++ H.toLowerCase p.1.rest

/-- Items under one key are of one coin, and their names differ in case only. -/
theorem LookupItem.key_eq {p q : LookupItem} (h : p.key H = q.key H) :
    p.1.coin = q.1.coin ∧ H.toLowerCase p.1.rest = H.toLowerCase q.1.rest := by
  obtain ⟨⟨coin, rest⟩, hp⟩ := p
  obtain ⟨⟨coin', rest'⟩, hq⟩ := q
  simp only [List.mem_cons, List.not_mem_nil, or_false] at hp hq
  have hl := congrArg String.toList h
  rcases hp with rfl | rfl | rfl <;> rcases hq with rfl | rfl | rfl <;>
    simp [LookupItem.key] at hl ⊢ <;> exact String.ext hl

variable (C : Chain H ι)

/-- The token of an item on its coin's chain, by its id. -/
def Chain.SameItem (p : LookupItem) (id : String) : Prop := (C.coinTokens p.1.coin).Same p.1.rest id

variable {C}

theorem Chain.same_of_lower {x y id : String} (h : H.toLowerCase x = H.toLowerCase y)
    (hx : C.tokens.Same x id) : C.tokens.Same y id := by
  obtain ⟨t, hname, hid⟩ := hx
  exact ⟨t, (C.fold_case x y h).symm.trans hname, hid⟩

theorem Chain.sameItem_of_key {p q : LookupItem} {id : String} (h : p.key H = q.key H)
    (hp : C.SameItem p id) : C.SameItem q id := by
  obtain ⟨hcoin, hrest⟩ := LookupItem.key_eq h
  obtain ⟨t, hname, hid⟩ := hp
  rw [hcoin] at hname hid
  exact ⟨t, (C.fold_case_coin _ _ _ hrest).symm.trans hname, hid⟩

/-- The lookup of an item meets an explorer of its coin that answers right. -/
def ItemMet (C : Chain H ι) (item : Js) (w : Await) : Prop :=
  ∀ p : LookupItem, parseTickCoinItem H item = some p.1 →
    w.Met "tick_id" (LookupItem.key H) C.SameItem p

theorem compactTickItem_spec {w : Await} {item : Js} (hw : ItemMet C item w) :
    compactTickItem H w item = item ∨ ∃ p id, parseTickCoinItem H item = some p ∧
      p.rest.toList.head? ≠ some '^' ∧ compactTickItem H w item = .str (p.coin ++ ":^" ++ id) ∧
      (C.coinTokens p.coin).Same p.rest id := by
  rw [compactTickItem]
  cases hp : parseTickCoinItem H item with
  | none => exact .inl rfl
  | some p =>
    simp only
    split_ifs with hskip
    · exact .inl rfl
    · simp only [Bool.or_eq_true, not_or, Bool.not_eq_true, Bool.not_eq_false'] at hskip
      have hcoin : p.coin ∈ ["BTC", "LTC", "DOGE"] := by simpa using hskip.1.1
      cases hid : (coinTickLookup H p w).2.bind canonicalLookupId with
      | none => exact .inl rfl
      | some id =>
        obtain ⟨id', hlookup, hcanonical⟩ := Option.bind_eq_some_iff.1 hid
        have hsame : id' = id := by
          rw [canonicalLookupId] at hcanonical
          split_ifs at hcanonical
          obtain ⟨n, -, hn⟩ := Option.map_eq_some_iff.1 hcanonical
          exact hn
        subst hsame
        have hitem : C.SameItem ⟨p, hcoin⟩ id' :=
          (hw ⟨p, hcoin⟩ hp).same (fun _ _ _ => Chain.sameItem_of_key) hlookup
        exact .inr ⟨p, id', rfl, by simpa using hskip.1.2, rfl, hitem⟩

/-! ### Changes -/

/-- A change of an item of a list that keeps what it refers to. -/
inductive ItemChange (C : Chain H ι) (listType : String) : Js → Js → Prop
  | same (item : Js) : ItemChange C listType item item
  | token {item : Js} {p : TickCoinItem} {id : String} : listType = "1" →
      parseTickCoinItem H item = some p → p.rest.toList.head? ≠ some '^' →
      (C.coinTokens p.coin).Same p.rest id →
      ItemChange C listType item (.str (p.coin ++ ":^" ++ id))
  | address {item : Js} {id : String} : listType = "2" → isReference item.toText = false →
      C.addresses.Same item.toText id → ItemChange C listType item (.str ("^" ++ id))

/-- A change of a field that keeps what it refers to. -/
inductive Change (C : Chain H ι) (action field listType : String) : Js → Js → Prop
  | same (v : Js) : Change C action field listType v v
  | token {v : Js} {id : String} : field ∈ TICK_REF_FIELDS → isSkipped v = false →
      isReference v.toText = false → C.tokens.Same v.toText id →
      Change C action field listType v (.str ("^" ++ id))
  | address {v : Js} {id : String} : field ∈ compactableOf action → isSkipped v = false →
      isReference v.toText = false → C.addresses.Same v.toText id →
      Change C action field listType v (.str ("^" ++ id))
  | item {v v' : Js} : action = "LIST" → field = "ITEM" → (∀ xs, v ≠ .arr xs) →
      ItemChange C listType v v' → Change C action field listType v v'
  | items {xs ys : List Js} : action = "LIST" → field = "ITEM" →
      List.Forall₂ (ItemChange C listType) xs ys →
      Change C action field listType (.arr xs) (.arr ys)

theorem isReference_id (id : String) : isReference ("^" ++ id) = true := by
  simp [isReference]

/-- An item with an id names none. -/
theorem rest_of_parseTickCoinItem_id {item : Js} {p q : TickCoinItem} {id : String}
    (hp : parseTickCoinItem H item = some p)
    (hq : parseTickCoinItem H (.str (p.coin ++ ":^" ++ id)) = some q) :
    q.rest.toList.head? = some '^' := by
  have hcoin : p.coin ∈ FULL_NAME_TO_TICK.map Prod.snd ++ RESERVED_FUTURE_ROOTS := by
    cases item with
    | str text =>
      rw [parseTickCoinItem] at hp
      split_ifs at hp with hparts hroot
      cases hp
      simpa [-List.map_cons] using hroot
    | _ => cases hp
  have hcolon : ∀ coin ∈ FULL_NAME_TO_TICK.map Prod.snd ++ RESERVED_FUTURE_ROOTS,
      ':' ∉ coin.toList := by decide
  have hpre : ∀ c ∈ p.coin.toList, (c != LIST_TICK_COIN_SEPARATOR) = true := fun c hc =>
    bne_iff_ne.2 fun h => hcolon _ hcoin (show LIST_TICK_COIN_SEPARATOR ∈ _ from h ▸ hc)
  have htext : (p.coin ++ ":^" ++ id).toList = p.coin.toList ++ ':' :: '^' :: id.toList := by
    simp
  rw [parseTickCoinItem, htext, List.dropWhile_append_of_pos hpre, List.takeWhile_append_of_pos hpre] at hq
  split_ifs at hq
  cases hq
  simp [List.dropWhile, LIST_TICK_COIN_SEPARATOR]

variable {action field listType : String} {u v v' v'' : Js}

theorem ItemChange.trans (h : ItemChange C listType v v') (h' : ItemChange C listType v' v'') :
    ItemChange C listType v v'' := by
  cases h with
  | same => exact h'
  | token htype hp hrest hsame =>
    cases h' with
    | same => exact .token htype hp hrest hsame
    | token _ hq hrest' _ => exact absurd (rest_of_parseTickCoinItem_id hp hq) hrest'
    | address htype' _ _ => exact absurd (htype.symm.trans htype') (by decide)
  | address htype href hsame =>
    cases h' with
    | same => exact .address htype href hsame
    | token htype' _ _ _ => exact absurd (htype.symm.trans htype') (by decide)
    | address _ href' _ => exact absurd href' (by simp [Js.toText, isReference_id])

theorem ItemChange.trans_items {xs ys zs : List Js} (h : List.Forall₂ (ItemChange C listType) xs ys)
    (h' : List.Forall₂ (ItemChange C listType) ys zs) :
    List.Forall₂ (ItemChange C listType) xs zs := by
  induction h generalizing zs with
  | nil => exact h'
  | cons hitem _ ih =>
    cases h' with
    | cons hitem' hitems' => exact .cons (hitem.trans hitem') (ih hitems')

theorem notMem_compactableOf {name : String}
    (hname : ∀ e ∈ SDK_COMPACTABLE_BY_ACTION, name ∉ e.2) (action : String) :
    name ∉ compactableOf action := by
  intro h
  rw [compactableOf] at h
  cases hl : SDK_COMPACTABLE_BY_ACTION.lookup action with
  | none =>
    rw [hl] at h
    cases h
  | some fields =>
    rw [hl] at h
    exact hname _ (Loop.mem_of_lookup hl) h

/-- The items of a list are no field that is compacted by itself. -/
theorem notMem_compactableOf_item (action : String) : "ITEM" ∉ compactableOf action :=
  notMem_compactableOf (by decide) action

/-- A value that became an id is changed no further. -/
theorem Change.of_id {id : String} (hfield : field ≠ "ITEM")
    (h : Change C action field listType (.str ("^" ++ id)) v) : v = .str ("^" ++ id) := by
  cases h with
  | same => rfl
  | token _ _ href _ => exact absurd href (by simp [Js.toText, isReference_id])
  | address _ _ href _ => exact absurd href (by simp [Js.toText, isReference_id])
  | item _ hitem _ _ => exact absurd hitem hfield

/-- Changes follow each other. -/
theorem Change.trans (h : Change C action field listType v v')
    (h' : Change C action field listType v' v'') : Change C action field listType v v'' := by
  cases h with
  | same => exact h'
  | token hfield hskip href hsame =>
    have hne : field ≠ "ITEM" := fun h => absurd (h ▸ hfield) (by decide)
    rw [h'.of_id hne]
    exact .token hfield hskip href hsame
  | address hfield hskip href hsame =>
    have hne : field ≠ "ITEM" := fun h => notMem_compactableOf_item action (h ▸ hfield)
    rw [h'.of_id hne]
    exact .address hfield hskip href hsame
  | item haction hfield harr hchange =>
    subst hfield
    cases h' with
    | same => exact .item haction rfl harr hchange
    | token hfield _ _ _ => exact absurd hfield (by decide)
    | address hfield _ _ _ => exact absurd hfield (notMem_compactableOf_item action)
    | item _ _ _ hchange' => exact .item haction rfl harr (hchange.trans hchange')
    | items _ _ _ =>
      cases hchange with
      | same => exact absurd rfl (harr _)
  | items haction hfield hchange =>
    subst hfield
    cases h' with
    | same => exact .items haction rfl hchange
    | token hfield _ _ _ => exact absurd hfield (by decide)
    | address hfield _ _ _ => exact absurd hfield (notMem_compactableOf_item action)
    | item _ _ harr _ => exact absurd rfl (harr _)
    | items _ _ hchange' =>
      exact .items haction rfl (ItemChange.trans_items hchange hchange')

/-- A field that is compacted nowhere keeps its value. -/
theorem Change.eq_of_notMem (htick : field ∉ TICK_REF_FIELDS) (hitem : field ≠ "ITEM")
    (haddress : ∀ e ∈ SDK_COMPACTABLE_BY_ACTION, field ∉ e.2)
    (h : Change C action field listType v v') : v' = v := by
  cases h with
  | same => rfl
  | token hfield _ _ _ => exact absurd hfield htick
  | address hfield _ _ _ => exact absurd hfield (notMem_compactableOf haddress action)
  | item _ hfield _ _ => exact absurd hfield hitem
  | items _ hfield _ => exact absurd hfield hitem

/-- The items under a key. -/
def itemsUnder (data : Dict String Js) (key : String) : List Js :=
  match (data.get? key).getD .undefined with
  | .arr items => items
  | item => [item]

theorem mapWithLimit_eq {limit : ℕ} {items out : List Js} {fn : ℕ → Js → Js}
    {moves : List WorkerPool.Move} (h : mapWithLimit limit items fn moves = some out) :
    out = items.mapIdx fn := by
  rw [mapWithLimit] at h
  obtain ⟨r, hr, hout⟩ := Option.bind_eq_some_iff.1 h
  obtain ⟨s, hs, hr⟩ := Option.bind_eq_some_iff.1 hr
  rw [WorkerPool.outcome_of_total (fun i a _ => rfl) hs hr] at hout
  exact (Option.some.inj hout).symm

theorem forall₂_mapIdx {R : Js → Js → Prop} {items : List Js} {fn : ℕ → Js → Js}
    (h : ∀ i item, items[i]? = some item → R item (fn i item)) :
    List.Forall₂ R items (items.mapIdx fn) := by
  refine List.forall₂_iff_get.2 ⟨List.length_mapIdx.symm, fun i hi hi' => ?_⟩
  simp only [List.get_eq_getElem, List.getElem_mapIdx]
  exact h i items[i] (List.getElem?_eq_getElem hi)

/-- The items of a list change one by one, in their order. -/
theorem compactUnder_spec {C : Chain H ι} {listType : String} {data out : Dict String Js}
    {key : String} {v : Js} {fn : ℕ → Js → Js} {moves : List WorkerPool.Move}
    (h : compactUnder data key fn moves = some out) (hv : data.get? key = some v)
    (hfn : ∀ i item, (itemsUnder data key)[i]? = some item →
      ItemChange C listType item (fn i item)) :
    ∃ v', out = data.set key v' ∧ Change C "LIST" "ITEM" listType v v' := by
  rw [compactUnder] at h
  rw [itemsUnder] at hfn
  simp only [hv, Option.getD_some] at h hfn
  split at h
  · obtain ⟨ys, hys, rfl⟩ := Option.map_eq_some_iff.1 h
    rw [mapWithLimit_eq hys]
    exact ⟨_, rfl, .items rfl rfl (forall₂_mapIdx hfn)⟩
  · rename_i hne
    obtain ⟨ys, hys, rfl⟩ := Option.map_eq_some_iff.1 h
    rw [mapWithLimit_eq hys]
    refine ⟨_, rfl, .item rfl rfl hne (hfn 0 v ?_)⟩
    split
    · exact absurd rfl (hne _)
    · rfl

/-- A name is read from a key that spells it. -/
theorem fieldKeys_spec {data : Dict String Js} {name key : String}
    (h : (fieldKeys H data).get? name = some key) :
    camelToUpperSnake H key = name ∧ ∃ v, data.get? key = some v := by
  have hinv := Loop.foldl_inv (f := fun (fields : Dict String String) key =>
      fields.set (camelToUpperSnake H key) key) (b := .empty)
    (fun pre fields => ∀ name key, fields.get? name = some key →
      camelToUpperSnake H key = name ∧ key ∈ pre) (fun _ _ hget => by cases hget)
    (fun pre k fields hpre name key hget => by
      rw [Dict.get?_set] at hget
      split_ifs at hget with hname
      · cases hget
        exact ⟨hname.symm, by simp⟩
      · exact ⟨(hpre name key hget).1, List.mem_append_left _ (hpre name key hget).2⟩) data.keys
  obtain ⟨hname, hkey⟩ := hinv name key h
  exact ⟨hname, Dict.mem_keys.1 hkey⟩

theorem get?_updateEach (data : Dict String Js) (f : String → Js → Js) (key : String) :
    (updateEach data f).get? key = (data.get? key).map (f key) := by
  obtain ⟨entries, nodup⟩ := data
  simp only [updateEach, Dict.get?]
  induction entries with
  | nil => rfl
  | cons e entries ih =>
    obtain ⟨k, v⟩ := e
    rw [List.map_cons, Loop.lookup_cons, Loop.lookup_cons]
    by_cases hk : key = k
    · rw [if_pos hk, if_pos hk, hk]
      rfl
    · rw [if_neg hk, if_neg hk]
      exact ih (List.nodup_cons.1 nodup).2

theorem keys_updateEach (data : Dict String Js) (f : String → Js → Js) :
    (updateEach data f).keys = data.keys := by
  simp [updateEach, Dict.keys, Function.comp_def]

/-! ### The two resolvers -/

section Resolvers

variable {C : Chain H ι} {opts : ResolverOptions} {action : String} {params : Dict String Js}
  {w : ParamsAwait} {call : ParamsCall}

/-- The type of the list that the parameters write. -/
def Chain.listTypeOf (C : Chain H ι) (params : Dict String Js) : String :=
  let keys := fieldKeys H params
  let named := (keys.get? "TYPE").map fun key => (params.get? key).getD .undefined
  match named.getD .null, keys.get? "LIST_ACTION_INDEX" with
  | .null, some key => C.listType ((params.get? key).getD .undefined).toText
  | listType, _ => listType.toText

/-- The lookup of the list that is edited meets an explorer that answers right, or not at all. -/
def ListAwait.Met (C : Chain H ι) (params : Dict String Js) (w : ListAwait) : Prop :=
  ∀ key, (fieldKeys H params).get? "LIST_ACTION_INDEX" = some key → ∀ wired,
    readParentListType wired ((params.get? key).getD .undefined) w.parent = .null ∨
    (readParentListType wired ((params.get? key).getD .undefined) w.parent).toText =
      C.listType ((params.get? key).getD .undefined).toText

/-- The type that is read is that of the list, where one is read. -/
theorem listTypeOf_spec {list : ListAwait} (hw : list.Met C params) {listType : String}
    (hne : listType ≠ "null") (h : (listTypeOf H params opts.wired list).toText = listType) :
    C.listTypeOf params = listType := by
  rw [listTypeOf] at h
  split at h
  · rename_i key hnamed hkey
    rcases hw key hkey opts.wired with hnull | htype
    · rw [hnull] at h
      exact absurd h.symm hne
    · simp only [Chain.listTypeOf, hnamed, hkey]
      exact htype.symm.trans h
  · rename_i hnot
    rw [Chain.listTypeOf]
    split
    · rename_i key hnamed hkey
      exact absurd hkey (hnot key hnamed)
    · exact h

/-- The lookups of the tick resolver meet explorers that answer right. -/
structure ParamsAwait.MetTicks (C : Chain H ι) (params : Dict String Js) (w : ParamsAwait) :
    Prop where
  list : w.list.Met C params
  fields : ∀ key v, params.get? key = some v →
    (w.fields key).Met "tick_id" H.toLowerCase C.tokens.Same v.toText
  items : ∀ key, (fieldKeys H params).get? "ITEM" = some key → ∀ i item,
    (itemsUnder params key)[i]? = some item → ItemMet C item (w.list.items i)

/-- The lookups of the address resolver meet an explorer that answers right. -/
structure ParamsAwait.MetAddresses (C : Chain H ι) (params : Dict String Js) (w : ParamsAwait) :
    Prop where
  list : w.list.Met C params
  fields : ∀ key v, params.get? key = some v →
    (w.fields key).Met "address_id" id C.addresses.Same v.toText
  items : ∀ key, (fieldKeys H params).get? "ITEM" = some key → ∀ i item,
    (itemsUnder params key)[i]? = some item →
      (w.list.items i).Met "address_id" id C.addresses.Same item.toText

/-- What the step for lists may do: nothing, or change the items as the type of the list says. -/
def ListStep (C : Chain H ι) (action : String) (params out : Dict String Js) : Prop :=
  out = params ∨ action = "LIST" ∧ ∃ key v v', camelToUpperSnake H key = "ITEM" ∧
    params.get? key = some v ∧ out = params.set key v' ∧
    Change C "LIST" "ITEM" (C.listTypeOf params) v v'

theorem compactListTickItems_spec (hw : w.MetTicks C params) {out : Dict String Js}
    (h : compactListTickItems H opts params w.list = some out) :
    ListStep C "LIST" params out := by
  rw [compactListTickItems] at h
  cases hkey : (fieldKeys H params).get? "ITEM" with
  | none =>
    rw [hkey] at h
    cases h
    exact .inl rfl
  | some key =>
    rw [hkey] at h
    simp only at h
    obtain ⟨hname, v, hv⟩ := fieldKeys_spec hkey
    split_ifs at h with hgate
    · simp only [Bool.and_eq_true, beq_iff_eq] at hgate
      have hitems : ∀ i item, (itemsUnder params key)[i]? = some item →
          ItemChange C (C.listTypeOf params) item
            (compactTickItem H (w.list.items i) item) := fun i item hi => by
        rcases compactTickItem_spec (hw.items key hkey i item hi) with
          heq | ⟨p, id, hp, hrest, heq, hsame⟩
        · rw [heq]
          exact .same item
        · rw [heq]
          exact .token (listTypeOf_spec hw.list (by decide) hgate.1.2) hp hrest hsame
      obtain ⟨v', hout, hchange⟩ := compactUnder_spec h hv hitems
      exact .inr ⟨rfl, key, v, v', hname, hv, hout, hchange⟩
    · cases h
      exact .inl rfl

theorem isReference_of_addressKind {text : String} (h : addressKind.kept text = false) :
    isReference text = false :=
  (Bool.or_eq_false_iff.1 (Bool.or_eq_false_iff.1 h).1).1

theorem compactListItems_spec (hw : w.MetAddresses C params) {out : Dict String Js}
    (h : compactListItems H opts params w.list = some out) :
    ListStep C "LIST" params out := by
  rw [compactListItems] at h
  cases hkey : (fieldKeys H params).get? "ITEM" with
  | none =>
    rw [hkey] at h
    cases h
    exact .inl rfl
  | some key =>
    rw [hkey] at h
    simp only at h
    obtain ⟨hname, v, hv⟩ := fieldKeys_spec hkey
    split_ifs at h with hgate
    · simp only [Bool.and_eq_true, beq_iff_eq] at hgate
      have hitems : ∀ i item, (itemsUnder params key)[i]? = some item →
          ItemChange C (C.listTypeOf params) item
            (addressKind.resolve opts (w.list.items i) item).2 := fun i item hi => by
        rcases addressKind.resolve_spec (fun x y id (hxy : x = y) hs => hxy ▸ hs)
          (hw.items key hkey i item hi) with heq | ⟨hkept, id, heq, hsame⟩
        · rw [heq]
          exact .same item
        · rw [heq]
          exact .address (listTypeOf_spec hw.list (by decide) hgate.2)
            (isReference_of_addressKind hkept) hsame
      obtain ⟨v', hout, hchange⟩ := compactUnder_spec h hv hitems
      exact .inr ⟨rfl, key, v, v', hname, hv, hout, hchange⟩
    · cases h
      exact .inl rfl

/-- Objects with the same keys in the same order, whose values differ by changes that keep what they
refer to. -/
def Changes (C : Chain H ι) (action : String) (params out : Dict String Js) : Prop :=
  out.keys = params.keys ∧ ∀ key v v', params.get? key = some v → out.get? key = some v' →
    Change C action (camelToUpperSnake H key) (C.listTypeOf params) v v'

theorem Changes.refl : Changes C action params params :=
  ⟨rfl, fun key v v' hv hv' => by
    rw [hv] at hv'
    cases hv'
    exact .same v⟩

/-- A key that holds items keeps what the step for lists made of it; the fields that are resolved
are others. -/
theorem ListStep.change {out : Dict String Js} {f : String → Js → Js}
    (h : ListStep C action params out)
    (hitem : ∀ key v, camelToUpperSnake H key = "ITEM" → f key v = v)
    (hf : ∀ key v, params.get? key = some v →
      Change C action (camelToUpperSnake H key) (C.listTypeOf params) v (f key v)) :
    Changes C action params (updateEach out f) := by
  rw [Changes]
  rw [keys_updateEach]
  rcases h with rfl | ⟨rfl, k, u, u', hk, hu, rfl, hchange⟩
  · refine ⟨rfl, fun key v v' hv hv' => ?_⟩
    rw [get?_updateEach, hv] at hv'
    cases hv'
    exact hf key v hv
  · refine ⟨Dict.keys_set (Dict.mem_keys.2 ⟨u, hu⟩) u', fun key v v' hv hv' => ?_⟩
    rw [get?_updateEach, Dict.get?_set] at hv'
    split_ifs at hv' with hkey
    · subst hkey
      rw [hu] at hv
      cases hv
      cases hv'
      rw [hitem key u' hk, hk]
      exact hchange
    · rw [hv] at hv'
      cases hv'
      exact hf key v hv

/-- The tick resolver leaves the caller's object alone and makes changes that keep what the action
refers to. -/
theorem TickResolver.resolveActionParams_spec (hw : w.MetTicks C params)
    (h : TickResolver.resolveActionParams H opts action params w = some call) :
    call.params = params ∧ Changes C (H.toUpperCase action) params call.out := by
  rw [TickResolver.resolveActionParams] at h
  split_ifs at h
  · cases h
    exact ⟨rfl, .refl⟩
  obtain ⟨out, hout, rfl⟩ := Option.map_eq_some_iff.1 h
  have hstep : ListStep C (H.toUpperCase action) params out := by
    split_ifs at hout with hlist
    · rw [hlist]
      exact compactListTickItems_spec hw hout
    · cases hout
      exact .inl rfl
  refine ⟨rfl, hstep.change (fun key v hitem => ?_) fun key v hv => ?_⟩
  · have hnot : isTickRef H (H.toUpperCase action) out key = false := by
      rw [isTickRef, hitem]
      rfl
    rw [hnot]
    rfl
  · split_ifs with hc
    · rw [Bool.and_eq_true, Bool.not_eq_true'] at hc
      have hcongr : ∀ x y id, (tickKind H).key x = (tickKind H).key y →
          C.tokens.Same x id → C.tokens.Same y id := fun _ _ _ => Chain.same_of_lower
      rcases (tickKind H).resolve_spec hcongr (hw.fields key v hv) with
        heq | ⟨hkept, id, heq, hsame⟩
      · rw [heq]
        exact .same v
      · rw [heq]
        refine .token ?_ hc.2 hkept hsame
        simpa using (Bool.and_eq_true_iff.1 hc.1).1
    · exact .same v

/-- The address resolver leaves the caller's object alone and makes changes that keep what the
action refers to. -/
theorem AddressResolver.resolveActionParams_spec (hw : w.MetAddresses C params)
    (h : AddressResolver.resolveActionParams H opts action params w = some call) :
    call.params = params ∧ Changes C (H.toUpperCase action) params call.out := by
  rw [AddressResolver.resolveActionParams] at h
  split_ifs at h
  · cases h
    exact ⟨rfl, .refl⟩
  obtain ⟨out, hout, rfl⟩ := Option.map_eq_some_iff.1 h
  have hstep : ListStep C (H.toUpperCase action) params out := by
    split_ifs at hout with hlist
    · rw [hlist]
      exact compactListItems_spec hw hout
    · cases hout
      exact .inl rfl
  refine ⟨rfl, hstep.change (fun key v hitem => ?_) fun key v hv => ?_⟩
  · rw [hitem, List.contains_eq_mem, decide_eq_false (notMem_compactableOf_item _)]
    rfl
  · split_ifs with hc
    · rw [Bool.and_eq_true, Bool.not_eq_true'] at hc
      rcases addressKind.resolve_spec (fun x y id (hxy : x = y) hs => hxy ▸ hs)
        (hw.fields key v hv) with heq | ⟨hkept, id, heq, hsame⟩
      · rw [heq]
        exact .same v
      · rw [heq]
        exact .address (by simpa using hc.1) hc.2 (isReference_of_addressKind hkept) hsame
    · exact .same v

/-! ### The defining tick of an issuance -/

/-- A caller's tick that may be compacted: one name. -/
def NamesTick (H : Host) (params : Dict String Js) : Prop :=
  ∃ key v, params.get? key = some v ∧ camelToUpperSnake H key = "TICK" ∧ isSkipped v = false ∧
    isReference v.toText = false

/-- The fields whose names are not resolved are composed from the same values. -/
theorem get?_normalizeFields_updateEach {data : Dict String Js} {f : String → Js → Js}
    {name : String} (hf : ∀ key v, camelToUpperSnake H key = name → f key v = v) :
    (normalizeFields H (updateEach data f)).get? name = (normalizeFields H data).get? name := by
  have hfold : ∀ (entries : List (String × Js)) (d d' : Dict String Js),
      d.get? name = d'.get? name →
      ((entries.map fun e => (e.1, f e.1 e.2)).foldl
        (fun normalized e => normalized.set (camelToUpperSnake H e.1) e.2) d).get? name =
      (entries.foldl
        (fun normalized e => normalized.set (camelToUpperSnake H e.1) e.2) d').get? name := by
    intro entries
    induction entries with
    | nil => exact fun d d' h => h
    | cons e entries ih =>
      intro d d' h
      refine ih _ _ ?_
      simp only [Dict.get?_set, h]
      split_ifs with hname
      · rw [hf e.1 e.2 hname.symm]
      · rfl
  exact hfold data.entries .empty .empty rfl

/-- For an action that is no list, the tick resolver resolves fields one by one. -/
theorem TickResolver.exists_updateEach (hlist : H.toUpperCase action ≠ "LIST")
    (h : TickResolver.resolveActionParams H opts action params w = some call) :
    ∃ f, call.out = updateEach params f ∧ ∀ key v, f key v ≠ v →
      isTickRef H (H.toUpperCase action) params key = true ∧ isSkipped v = false ∧
        isReference v.toText = false := by
  rw [TickResolver.resolveActionParams] at h
  split_ifs at h
  · cases h
    refine ⟨fun _ v => v, ?_, fun key v hne => absurd rfl hne⟩
    simp [updateEach]
  simp only [if_neg hlist, Option.map_some] at h
  cases h
  refine ⟨fun key value => if isTickRef H (H.toUpperCase action) params key && !isSkipped value then
    ((tickKind H).resolve opts (w.fields key) value).2 else value, rfl, fun key v hne => ?_⟩
  simp only at hne
  split_ifs at hne with hc
  · rw [Bool.and_eq_true, Bool.not_eq_true'] at hc
    refine ⟨hc.1, hc.2, ?_⟩
    by_contra hkept
    exact hne (RefKind.resolve_of_kept (by simpa [tickKind] using hkept))
  · exact absurd rfl hne

/-- For an action that is no list, the address resolver resolves fields one by one. -/
theorem AddressResolver.exists_updateEach (hlist : H.toUpperCase action ≠ "LIST")
    (h : AddressResolver.resolveActionParams H opts action params w = some call) :
    ∃ f, call.out = updateEach params f ∧ ∀ key v, f key v ≠ v →
      camelToUpperSnake H key ∈ compactableOf (H.toUpperCase action) := by
  rw [AddressResolver.resolveActionParams] at h
  split_ifs at h
  · cases h
    refine ⟨fun _ v => v, ?_, fun key v hne => absurd rfl hne⟩
    simp [updateEach]
  simp only [if_neg hlist, Option.map_some] at h
  cases h
  refine ⟨fun key value => if (compactableOf (H.toUpperCase action)).contains
      (camelToUpperSnake H key) && !isSkipped value then
    (addressKind.resolve opts (w.fields key) value).2 else value, rfl, fun key v hne => ?_⟩
  simp only at hne
  split_ifs at hne with hc
  · rw [Bool.and_eq_true] at hc
    simpa using hc.1
  · exact absurd rfl hne

theorem mayCreate_congr {data data' : Dict String Js} {version : Js}
    (h : ∀ name ∈ "VERSION" :: EDIT_ONLY_FIELDS,
      (normalizeFields H data').get? name = (normalizeFields H data).get? name) :
    MayCreate H data' version ↔ MayCreate H data version := by
  have hmember : ∀ name ∈ "VERSION" :: EDIT_ONLY_FIELDS,
      member (normalizeFields H data').entries name =
        member (normalizeFields H data).entries name := fun name hname => by
    rw [member_entries, member_entries, h name hname]
  have hnamed : namedVersion H data' version = namedVersion H data version := by
    rw [namedVersion, namedVersion, foldVersion, foldVersion, hmember "VERSION" (by simp)]
    split_ifs
    · rw [member_entries, member_entries, Dict.get?_set, Dict.get?_set, if_pos rfl, if_pos rfl]
    · exact hmember "VERSION" (by simp)
  rw [MayCreate, MayCreate, hnamed]
  split_ifs
  · exact Iff.rfl
  · exact forall₂_congr fun field hfield => by rw [hmember field (List.mem_cons_of_mem _ hfield)]

/-- The resolver takes the version for one that edits, and the name for that of a token, where the
composer may take a format that creates it. -/
def Misread (H : Host) (action : String) (params : Dict String Js) (version : Js) : Prop :=
  H.toUpperCase action = "ISSUE" ∧
    (issueVersion H params).any ISSUE_TICK_COMPACT_FORMATS.contains = true ∧
    NamesTick H params ∧ MayCreate H params version

theorem Changes.trans {mid out : Dict String Js} (h : Changes C action params mid)
    (h' : Changes C action mid out) (htype : C.listTypeOf mid = C.listTypeOf params) :
    Changes C action params out := by
  refine ⟨h'.1.trans h.1, fun key v v'' hv hv'' => ?_⟩
  obtain ⟨v', hv'⟩ : ∃ v', mid.get? key = some v' :=
    Dict.mem_keys.1 (h.1 ▸ Dict.mem_keys.2 ⟨v, hv⟩)
  have hchange := h'.2 key v' v'' hv' hv''
  rw [htype] at hchange
  exact (h.2 key v v' hv hv').trans hchange

/-- A field that is compacted nowhere is read as before. -/
theorem Changes.get?_eq {out : Dict String Js} (h : Changes C action params out) {name key : String}
    (htick : name ∉ TICK_REF_FIELDS) (hitem : name ≠ "ITEM")
    (haddress : ∀ e ∈ SDK_COMPACTABLE_BY_ACTION, name ∉ e.2)
    (hkey : camelToUpperSnake H key = name) : out.get? key = params.get? key := by
  subst hkey
  cases hv : params.get? key with
  | none =>
    cases hv' : out.get? key with
    | none => rfl
    | some v' =>
      obtain ⟨v, hget⟩ := Dict.mem_keys.1 (h.1 ▸ Dict.mem_keys.2 ⟨v', hv'⟩)
      rw [hv] at hget
      cases hget
  | some v =>
    obtain ⟨v', hv'⟩ := Dict.mem_keys.1 (h.1.symm ▸ Dict.mem_keys.2 ⟨v, hv⟩)
    rw [hv', (h.2 key v v' hv hv').eq_of_notMem htick hitem haddress]

/-- The list that is written is of the same type. -/
theorem Changes.listTypeOf_eq {out : Dict String Js} (h : Changes C action params out) :
    C.listTypeOf out = C.listTypeOf params := by
  have hkeys : fieldKeys H out = fieldKeys H params := by
    rw [fieldKeys, fieldKeys, h.1]
  have htype : ∀ key, (fieldKeys H params).get? "TYPE" = some key →
      out.get? key = params.get? key := fun key hkey =>
    h.get?_eq (by decide) (by decide) (by decide) (fieldKeys_spec hkey).1
  have hindex : ∀ key, (fieldKeys H params).get? "LIST_ACTION_INDEX" = some key →
      out.get? key = params.get? key := fun key hkey =>
    h.get?_eq (by decide) (by decide) (by decide) (fieldKeys_spec hkey).1
  rw [Chain.listTypeOf, Chain.listTypeOf, hkeys]
  cases htypeKey : (fieldKeys H params).get? "TYPE" with
  | none =>
    cases hindexKey : (fieldKeys H params).get? "LIST_ACTION_INDEX" with
    | none => rfl
    | some key =>
      simp only [Option.map_none, Option.getD_none]
      rw [hindex key hindexKey]
  | some key =>
    simp only [Option.map_some, Option.getD_some]
    rw [htype key htypeKey]
    cases hindexKey : (fieldKeys H params).get? "LIST_ACTION_INDEX" with
    | none => cases (params.get? key).getD .undefined <;> rfl
    | some key' =>
      cases (params.get? key).getD .undefined with
      | null =>
        simp only
        rw [hindex key' hindexKey]
      | _ => rfl

/-- **The two resolvers leave the caller's objects alone, keep every key, and make changes only that
keep what the action refers to; unless the version is misread, an issuance whose name is compacted
is composed with a format that only edits.** -/
theorem compaction_preserves {tickOpts addressOpts : ResolverOptions} {wt wa : ParamsAwait}
    {tick address : ParamsCall} {version : Js}
    (ht : TickResolver.resolveActionParams H tickOpts action params wt = some tick)
    (ha : AddressResolver.resolveActionParams H addressOpts action tick.out wa = some address)
    (hmt : wt.MetTicks C params) (hma : wa.MetAddresses C tick.out)
    (hwhen : ¬Misread H action params version) :
    tick.params = params ∧ address.params = tick.out ∧
      Changes C (H.toUpperCase action) params address.out ∧
      (H.toUpperCase action = "ISSUE" → ∀ key, camelToUpperSnake H key = "TICK" →
        address.out.get? key ≠ params.get? key → ∀ ver,
          composeIssueVersion H M address.out version = .ok ver → ver = 6 ∨ ver = 7) := by
  obtain ⟨hparams, hticks⟩ := TickResolver.resolveActionParams_spec hmt ht
  obtain ⟨hmid, haddresses⟩ := AddressResolver.resolveActionParams_spec hma ha
  refine ⟨hparams, hmid, hticks.trans haddresses hticks.listTypeOf_eq, ?_⟩
  intro hissue key hname hne ver hver
  have hlist : H.toUpperCase action ≠ "LIST" := by
    rw [hissue]
    decide
  obtain ⟨f, hf, htick⟩ := TickResolver.exists_updateEach hlist ht
  obtain ⟨g, hg, haddress⟩ := AddressResolver.exists_updateEach hlist ha
  rw [hissue] at htick haddress
  -- the address resolver does not touch a tick, so the tick resolver changed it
  have hkept : ∀ v, g key v = v := fun v => by
    by_contra hchange
    have hmem := haddress key v hchange
    rw [hname] at hmem
    exact absurd hmem (by decide)
  obtain ⟨v, hv, hchange⟩ : ∃ v, params.get? key = some v ∧ f key v ≠ v := by
    rw [hg, hf, get?_updateEach, get?_updateEach] at hne
    cases hv : params.get? key with
    | none =>
      rw [hv] at hne
      exact absurd rfl hne
    | some v =>
      rw [hv, Option.map_some, Option.map_some, hkept] at hne
      exact ⟨v, rfl, fun h => hne (by rw [h])⟩
  obtain ⟨href, hskip, htext⟩ := htick key v hchange
  have hversion : (issueVersion H params).any ISSUE_TICK_COMPACT_FORMATS.contains = true := by
    rw [isTickRef, hname] at href
    have hboth : "TICK" ∈ TICK_REF_FIELDS ∧
        (issueVersion H params).any ISSUE_TICK_COMPACT_FORMATS.contains = true := by
      simpa using href
    exact hboth.2
  have hmay : ¬MayCreate H params version := fun hmay =>
    hwhen ⟨hissue, hversion, ⟨key, v, hv, hname, hskip, htext⟩, hmay⟩
  refine edits_of_not_mayCreate hver fun hmay' => hmay ?_
  -- the version and the fields of the editing formats are composed as they were
  have hsame : ∀ name ∈ "VERSION" :: EDIT_ONLY_FIELDS,
      (normalizeFields H address.out).get? name = (normalizeFields H params).get? name := by
    intro name hmem
    have hother : name ∉ TICK_REF_FIELDS ∧ name ∉ compactableOf "ISSUE" := by
      have hall : ∀ name ∈ "VERSION" :: EDIT_ONLY_FIELDS,
          name ∉ TICK_REF_FIELDS ∧ name ∉ compactableOf "ISSUE" := by decide
      exact hall name hmem
    rw [hg, hf, get?_normalizeFields_updateEach, get?_normalizeFields_updateEach]
    · intro key v hkey
      by_contra hchange
      have hin := (Bool.and_eq_true_iff.1 (htick key v hchange).1).1
      rw [hkey] at hin
      exact hother.1 (by simpa using hin)
    · intro key v hkey
      by_contra hchange
      exact hother.2 (hkey ▸ haddress key v hchange)
  exact (mayCreate_congr hsame).1 hmay'

end Resolvers

/-! ### A token under two versions -/

/-- One token, with a name in any case. -/
def jdog : Registry ℕ where
  ofName name := if plainHost.toLowerCase name = "jdog" then some 1234 else none
  ofId id := if id = "1234" then some 1234 else none

/-- A chain with one token, which every coin's chain has, and one address. -/
def oneTokenChain : Chain plainHost ℕ where
  tokens := jdog
  addresses := ⟨fun name => if name = "bc1qheir" then some 7 else none,
    fun id => if id = "7" then some 7 else none⟩
  coinTokens _ := jdog
  listType _ := "1"
  fold_case a b h := by simp only [jdog, h]
  fold_case_coin _ a b h := by simp only [jdog, h]

/-- A lookup that is not answered. -/
def unanswered : Await := ⟨.empty, none, .empty⟩

/-- The answer of an explorer that knows an id. -/
def answeredWith (idField : String) (id : ℚ) : Await :=
  ⟨.empty, some (.obj [("info", .obj [(idField, .num (.fin id))])]), .empty⟩

/-- Only the tick is looked up, and found. -/
def tickFound : ParamsAwait where
  fields key := if key = "TICK" then answeredWith "tick_id" 1234 else unanswered
  list := ⟨⟨none, "BTC", none⟩, none, fun _ => unanswered, []⟩

/-- Nothing is found. -/
def nothingFound : ParamsAwait := { tickFound with fields _ := unanswered }

def onlineOptions : ResolverOptions := ⟨true, true, "bitcoin-mainnet"⟩

theorem unanswered_met {idField : String} {keyOf : ν → String} {Same : ν → String → Prop} (x : ν) :
    unanswered.Met idField keyOf Same x :=
  ⟨.start, .start, fun _ h => by cases h⟩

theorem answeredWith_met {idField : String} {keyOf : ν → String} {Same : ν → String → Prop} {x : ν}
    {n : ℚ} {name : String} (hread : readId idField (.obj [("info", .obj [(idField, .num (.fin n))])]) =
      some name) (hsame : Same x name) : (answeredWith idField n).Met idField keyOf Same x where
  before := .start
  after := .start
  answer id h := by
    rw [answeredWith, Option.bind_some, hread] at h
    cases h
    exact hsame

theorem unanswered_listMet {C : Chain H ι} {params : Dict String Js} {list : ListAwait}
    (h : list.parent = none) : list.Met C params := by
  intro key hkey wired
  rw [h, readParentListType]
  exact .inl (by split_ifs <;> rfl)

theorem nothingFound_met (params : Dict String Js) :
    nothingFound.MetAddresses oneTokenChain params where
  list := unanswered_listMet rfl
  fields _ _ _ := unanswered_met _
  items _ _ _ _ _ := unanswered_met _

theorem tickFound_met {params : Dict String Js} (h : params.get? "TICK" = some (.str "JDOG")) :
    tickFound.MetTicks oneTokenChain params where
  list := unanswered_listMet rfl
  fields key v hv := by
    by_cases hkey : key = "TICK"
    · subst hkey
      rw [h] at hv
      cases hv
      exact @answeredWith_met _ _ _ _ _ 1234 "1234" (by decide) ⟨1234, by decide, by decide⟩
    · simp only [tickFound, if_neg hkey]
      exact unanswered_met _
  items _ _ _ _ _ _ _ := unanswered_met _

/-- An issuance whose version is written twice. -/
def twoVersions : Dict String Js where
  entries := [("version", .str "6"), ("VERSION", .str "0"), ("TICK", .str "JDOG")]
  nodup := by decide

/-- The parameters with the id in place of the name. -/
def twoVersionsCompacted : Dict String Js where
  entries := [("version", .str "6"), ("VERSION", .str "0"), ("TICK", .str "^1234")]
  nodup := by decide

theorem compaction_of_twoVersions :
    TickResolver.resolveActionParams plainHost onlineOptions "ISSUE" twoVersions tickFound =
      some ⟨twoVersions, twoVersionsCompacted⟩ ∧
    AddressResolver.resolveActionParams plainHost onlineOptions "ISSUE" twoVersionsCompacted
      nothingFound = some ⟨twoVersionsCompacted, twoVersionsCompacted⟩ ∧
    tickFound.MetTicks oneTokenChain twoVersions ∧
    nothingFound.MetAddresses oneTokenChain twoVersionsCompacted ∧
    twoVersionsCompacted.get? "TICK" ≠ twoVersions.get? "TICK" ∧
    (composeIssueVersion plainHost plainMath twoVersionsCompacted .undefined).toOption = some 0 := by
  refine ⟨rfl, rfl, tickFound_met rfl, nothingFound_met _, fun h => ?_, by decide +kernel⟩
  have htexts : Js.str "^1234" = .str "JDOG" := Option.some.inj h
  exact absurd (Js.str.inj htexts) (by decide)

/-- Only the destination is looked up, and found. -/
def heirFound : ParamsAwait :=
  { nothingFound with fields := fun key =>
      if key = "DESTINATION" then answeredWith "address_id" 7 else unanswered }

/-- The first item of a list is found, and the second is compacted before it. -/
def itemFound : ParamsAwait where
  fields _ := unanswered
  list := ⟨⟨some 0, "BTC", some (.obj [("last_block", .obj [("BTC", .num (.fin 5))])])⟩, none,
    fun i => if i = 0 then answeredWith "tick_id" 1234 else unanswered,
    [.take, .take, .settle 1, .settle 0]⟩

theorem heirFound_met {params : Dict String Js}
    (h : params.get? "DESTINATION" = some (.str "bc1qheir")) :
    heirFound.MetAddresses oneTokenChain params where
  list := unanswered_listMet rfl
  fields key v hv := by
    by_cases hkey : key = "DESTINATION"
    · subst hkey
      rw [h] at hv
      cases hv
      exact @answeredWith_met _ _ _ _ _ 7 "7" (by decide) ⟨7, by decide, by decide⟩
    · simp only [heirFound, if_neg hkey]
      exact unanswered_met _
  items _ _ _ _ _ := unanswered_met _

/-- An issuance that edits. -/
def editOnly : Dict String Js where
  entries := [("VERSION", .str "6"), ("TICK", .str "JDOG")]
  nodup := by decide

/-- A mint for somebody else. -/
def mintFor : Dict String Js where
  entries := [("TICK", .str "JDOG"), ("DESTINATION", .str "bc1qheir")]
  nodup := by decide

/-- A list of tokens; the second is an id already. -/
def tokenList : Dict String Js where
  entries := [("TYPE", .str "1"), ("ITEM", .arr [.str "btc:JDOG", .str "LTC:^9"])]
  nodup := by decide

def tokenListCompacted : Dict String Js where
  entries := [("TYPE", .str "1"), ("ITEM", .arr [.str "BTC:^1234", .str "LTC:^9"])]
  nodup := by decide

theorem itemFound_met : itemFound.MetTicks oneTokenChain tokenList where
  list := unanswered_listMet rfl
  fields _ _ _ := unanswered_met _
  items key hkey i item hitem p hp := by
    have hitems : itemsUnder tokenList "ITEM" = [.str "btc:JDOG", .str "LTC:^9"] := rfl
    have hname : (fieldKeys plainHost tokenList).get? "ITEM" = some "ITEM" := by decide
    cases hname.symm.trans hkey
    rw [hitems] at hitem
    rcases i with _ | n
    · cases hitem
      have hparsed : parseTickCoinItem plainHost (.str "btc:JDOG") = some ⟨"BTC", "JDOG"⟩ := rfl
      have hp' : p.1 = ⟨"BTC", "JDOG"⟩ := Option.some.inj (hp.symm.trans hparsed)
      refine @answeredWith_met _ _ _ _ _ 1234 "1234" (by decide) ?_
      rw [Chain.SameItem, hp']
      exact ⟨1234, by decide, by decide⟩
    · simp only [itemFound, if_neg (Nat.succ_ne_zero n)]
      exact unanswered_met _

theorem compactTickItem_jdog :
    compactTickItem plainHost (itemFound.list.items 0) (.str "btc:JDOG") = .str "BTC:^1234" := by
  have hparsed : parseTickCoinItem plainHost (.str "btc:JDOG") = some ⟨"BTC", "JDOG"⟩ := rfl
  have hfound : (coinTickLookup plainHost ⟨"BTC", "JDOG"⟩ (itemFound.list.items 0)).2 =
      some "1234" := rfl
  have hcanonical : canonicalLookupId "1234" = some "1234" := by decide +kernel
  rw [compactTickItem, hparsed]
  simp only [hfound, Option.bind_some, hcanonical]
  rfl

theorem resolveActionParams_tokenList :
    TickResolver.resolveActionParams plainHost onlineOptions "LIST" tokenList itemFound =
      some ⟨tokenList, tokenListCompacted⟩ := by
  have hactive : itemFound.list.activation.active = true := by decide +kernel
  have hkey : (fieldKeys plainHost tokenList).get? "ITEM" = some "ITEM" := by decide
  have hitems : mapWithLimit 8 [.str "btc:JDOG", .str "LTC:^9"]
      (fun i => compactTickItem plainHost (itemFound.list.items i)) itemFound.list.moves =
        some [compactTickItem plainHost (itemFound.list.items 0) (.str "btc:JDOG"), .str "LTC:^9"] := rfl
  rw [compactTickItem_jdog] at hitems
  have hlist : compactListTickItems plainHost onlineOptions tokenList itemFound.list =
      some tokenListCompacted := by
    rw [compactListTickItems, hkey]
    simp only [hactive]
    rw [if_pos (by decide), compactUnder]
    exact congrArg (Option.map fun items => tokenList.set "ITEM" (.arr items)) hitems
  have hname : plainHost.toUpperCase "LIST" = "LIST" := by decide
  rw [TickResolver.resolveActionParams, if_neg (by decide), ParamsCall.copy]
  simp only [hname, if_true, hlist]
  rfl

theorem compaction_preserves_resolved :
    (∃ tick address,
      TickResolver.resolveActionParams plainHost onlineOptions "ISSUE" editOnly tickFound = some tick ∧
      AddressResolver.resolveActionParams plainHost onlineOptions "ISSUE" tick.out nothingFound =
        some address ∧ address.out.entries = [("VERSION", .str "6"), ("TICK", .str "^1234")] ∧
      tick.params = editOnly ∧ address.params = tick.out ∧
      Changes oneTokenChain "ISSUE" editOnly address.out ∧
      ∀ ver, composeIssueVersion plainHost plainMath address.out .undefined = .ok ver →
        ver = 6 ∨ ver = 7) ∧
    (∃ tick address,
      TickResolver.resolveActionParams plainHost onlineOptions "MINT" mintFor tickFound = some tick ∧
      AddressResolver.resolveActionParams plainHost onlineOptions "MINT" tick.out heirFound =
        some address ∧ address.out.entries = [("TICK", .str "^1234"), ("DESTINATION", .str "^7")] ∧
      tick.params = mintFor ∧ address.params = tick.out ∧
      Changes oneTokenChain "MINT" mintFor address.out) ∧
    ∃ tick address,
      TickResolver.resolveActionParams plainHost onlineOptions "LIST" tokenList itemFound = some tick ∧
      AddressResolver.resolveActionParams plainHost onlineOptions "LIST" tick.out nothingFound =
        some address ∧ address.out = tokenListCompacted ∧
      tick.params = tokenList ∧ address.params = tick.out ∧
      Changes oneTokenChain "LIST" tokenList address.out := by
  refine ⟨?_, ?_, ?_⟩
  · have h := @compaction_preserves _ _ plainMath oneTokenChain "ISSUE" editOnly onlineOptions
      onlineOptions tickFound nothingFound _ _ .undefined rfl rfl (tickFound_met rfl)
      (nothingFound_met _) ?_
    · obtain ⟨hparams, hmid, hchanges, hissue⟩ := h
      refine ⟨_, _, rfl, rfl, rfl, hparams, hmid, hchanges, hissue (by decide) "TICK" (by decide) ?_⟩
      intro heq
      exact absurd (Js.str.inj (Option.some.inj heq)) (by decide)
    · rintro ⟨-, -, -, hmay⟩
      have hsix : (canonicalVersion (namedVersion plainHost editOnly .undefined)).bind JsNum.safeNat? =
          some 6 := by decide +kernel
      rw [MayCreate, if_pos (by decide +kernel), hsix] at hmay
      obtain ⟨n, hn, heq⟩ := hmay
      cases heq
      omega
  · obtain ⟨hparams, hmid, hchanges, -⟩ := @compaction_preserves _ _ plainMath oneTokenChain "MINT"
      mintFor onlineOptions onlineOptions tickFound heirFound _ _ .undefined rfl rfl
      (tickFound_met rfl) (heirFound_met rfl) fun h => absurd h.1 (by decide)
    exact ⟨_, _, rfl, rfl, rfl, hparams, hmid, hchanges⟩
  · obtain ⟨hparams, hmid, hchanges, -⟩ := @compaction_preserves _ _ plainMath oneTokenChain "LIST"
      tokenList onlineOptions onlineOptions itemFound nothingFound ⟨tokenList, tokenListCompacted⟩
      ⟨tokenListCompacted, tokenListCompacted⟩ .undefined resolveActionParams_tokenList rfl
      itemFound_met (nothingFound_met _) fun h => absurd h.1 (by decide)
    exact ⟨_, _, resolveActionParams_tokenList, rfl, rfl, hparams, hmid, hchanges⟩

end XChainSdk
