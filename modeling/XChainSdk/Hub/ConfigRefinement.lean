import XChainSdk.Hub.ConfigSync
import XChainSdk.Lib.Runs

/-!
# Deltas refine full fetches

* `Grows` : a table comes from another by writes at its watermark or later; writes make it so.
* `treeOf_merge_since` : the rows since a cursor, merged into the tree of an earlier table of the
  same history, give the tree of the later one.
* `FoldsRight` : what an answer needs of the cache that it is folded into.
* `getAllConfig_fullTree` : in a run whose answers meet it, every call returns the full tree that
  the answering hub had, and no hub's rows get into another's tree.
* `getAllConfig_fullTree_of_sequential` : calls that do not overlap meet it.
-/

namespace XChainSdk

open Js

/-! ### Tables -/

/-- `A` comes from `T` by writes that are not older than the newest row of `T`. -/
def Grows (T A : HubTable) : Prop :=
  ∀ p, A.get? p = T.get? p ∨ ∃ row, A.get? p = some row ∧ T.watermark ≤ row.updatedAt

theorem le_maxUpdatedAt {rows : List (ConfigPath × ConfigRow)} {row : ConfigPath × ConfigRow}
    (h : row ∈ rows) : row.2.updatedAt ≤ maxUpdatedAt rows := by
  induction rows with
  | nil => cases h
  | cons r rows ih =>
    rcases List.mem_cons.1 h with rfl | h
    · exact le_max_left _ _
    · exact (ih h).trans (le_max_right _ _)

theorem Grows.refl (T : HubTable) : Grows T T := fun _ => .inl rfl

theorem Grows.upsert (T : HubTable) (p : ConfigPath) (row : ConfigRow) :
    Grows T (T.upsert p row) := by
  unfold HubTable.upsert
  split
  · next hle =>
    intro q
    rw [Dict.get?_set]
    split
    · exact .inr ⟨row, rfl, hle⟩
    · exact .inl rfl
  · exact Grows.refl T

/-- The watermark of a table does not fall when the table grows. -/
theorem watermark_le_of_get? {T : HubTable} {p : ConfigPath} {row : ConfigRow}
    (h : T.get? p = some row) : row.updatedAt ≤ T.watermark :=
  le_maxUpdatedAt (Dict.mem_entries_of_get? h)

theorem exists_maxUpdatedAt {rows : List (ConfigPath × ConfigRow)} (h : 0 < maxUpdatedAt rows) :
    ∃ row ∈ rows, row.2.updatedAt = maxUpdatedAt rows := by
  induction rows with
  | nil => cases h
  | cons r rows ih =>
    have hmax : maxUpdatedAt (r :: rows) = max r.2.updatedAt (maxUpdatedAt rows) := rfl
    rcases le_total (maxUpdatedAt rows) r.2.updatedAt with hle | hle
    · exact ⟨r, List.mem_cons_self .., by rw [hmax, max_eq_left hle]⟩
    · rw [hmax, max_eq_right hle] at h ⊢
      obtain ⟨row, hmem, heq⟩ := ih h
      exact ⟨row, List.mem_cons_of_mem _ hmem, heq⟩

theorem Grows.watermark_le {T A : HubTable} (h : Grows T A) : T.watermark ≤ A.watermark := by
  rcases Nat.eq_zero_or_pos T.watermark with hz | hpos
  · omega
  obtain ⟨⟨p, row⟩, hmem, hrow⟩ := exists_maxUpdatedAt hpos
  rcases h p with heq | ⟨row', hp, hle⟩
  · rw [Dict.get?_of_mem hmem] at heq
    have hle := watermark_le_of_get? heq
    rw [HubTable.watermark, ← hrow]
    exact hle
  · exact hle.trans (watermark_le_of_get? hp)

theorem Grows.trans {T A B : HubTable} (h : Grows T A) (h' : Grows A B) : Grows T B := by
  intro p
  rcases h' p with heq | ⟨row, hp, hle⟩
  · rcases h p with heq' | ⟨row, hp, hle⟩
    · exact .inl (heq.trans heq')
    · exact .inr ⟨row, heq.trans hp, hle⟩
  · exact .inr ⟨row, hp, h.watermark_le.trans hle⟩

theorem nodup_since (T : HubTable) (cursor : ℕ) : ((T.since cursor).map Prod.fst).Nodup :=
  T.nodup.sublist (List.filter_sublist.map _)

/-- The rows since a cursor, by their paths. -/
theorem lookup_since (T : HubTable) (cursor : ℕ) (p : ConfigPath) :
    (T.since cursor).lookup p = (T.get? p).filter fun row => cursor ≤ row.updatedAt := by
  cases h : (T.since cursor).lookup p with
  | some row =>
    have hmem : (p, row) ∈ T.since cursor := by
      obtain ⟨l, r, he, -⟩ := List.lookup_eq_some_iff.1 h
      rw [he]
      simp
    obtain ⟨hentry, hle⟩ := List.mem_filter.1 hmem
    rw [Dict.get?_of_mem hentry]
    simpa [Option.filter] using hle
  | none =>
    cases hget : T.get? p with
    | none => rfl
    | some row =>
      have hentry := Dict.mem_entries_of_get? hget
      rw [List.lookup_eq_none_iff] at h
      have hlt : ¬cursor ≤ row.updatedAt := by
        intro hle
        have hmem : (p, row) ∈ T.since cursor := List.mem_filter.2 ⟨hentry, by simpa using hle⟩
        simpa using h _ hmem
      simp [Option.filter, hlt]

/-- The tree has the values of the rows of a table. -/
def TreeOf (tree : Js) (T : HubTable) : Prop :=
  ∀ p, configAt tree p = (T.get? p).map ConfigRow.value

theorem treeOf_since_all {T : HubTable} {cursor : ℕ}
    (h : ∀ row ∈ T.entries, cursor ≤ row.2.updatedAt) : TreeOf (treeOf (T.since cursor)) T := by
  intro p
  rw [configAt_treeOf (nodup_since T cursor), lookup_since]
  cases hget : T.get? p with
  | none => rfl
  | some row => simp [Option.filter, h _ (Dict.mem_entries_of_get? hget)]

/-- The rows since a cursor bring the tree of an earlier table up to the later one. -/
theorem treeOf_merge_since {base : Js} {T A : HubTable} {cursor : ℕ} (hbase : IsObj base)
    (htree : TreeOf base T) (hgrows : Grows T A) (hcursor : cursor ≤ T.watermark)
    (hsafe : ∀ row ∈ A.since cursor, row.1.Safe) :
    TreeOf (mergeConfigDelta base (treeOf (A.since cursor))) A := by
  intro p
  by_cases hp : p.Safe
  · rw [configAt_mergeConfigDelta hbase hp, configAt_treeOf (nodup_since A cursor), lookup_since,
      htree p]
    rcases hgrows p with heq | ⟨row, hrow, hle⟩
    · -- a row that is not asked again is as it was
      rw [heq]
      cases hget : T.get? p with
      | none => rfl
      | some row => by_cases hc : cursor ≤ row.updatedAt <;> simp [Option.filter, hc]
    · rw [hrow]
      simp [Option.filter, hcursor.trans hle]
  · rw [configAt_mergeConfigDelta_of_sensitive hbase _ hp, htree p]
    rcases hgrows p with heq | ⟨row, hrow, hle⟩
    · rw [heq]
    · have hmem : (p, row) ∈ A.since cursor :=
        List.mem_filter.2 ⟨Dict.mem_entries_of_get? hrow, by simpa using hcursor.trans hle⟩
      exact absurd (hsafe _ hmem) hp

/-! ### Runs -/

/-- What an answer needs of the cache that it is folded into: the cache is the tree of the same hub
at an earlier time, and not older than the cursor; or there is none, and the answer is the full
tree. -/
def FoldsRight (s : SyncState) (idx : ℕ) (a : Served) : Prop :=
  if s.connector.merges then
    ∃ T, s.cached = some (idx, T) ∧ Grows T a.table ∧ a.since ≤ T.watermark ∧
      ∀ row ∈ a.table.since a.since, row.1.Safe
  else ∀ row ∈ a.table.entries, a.since ≤ row.2.updatedAt

/-- What a step needs of the state before it. -/
def Synchronized (s : SyncState) : SyncEvent → Prop
  | .resume c => ∀ i idx a, s.calls c = some (.resuming i idx a) → FoldsRight s idx a
  | _ => True

/-- A call returns the full tree of the hub that answered, and no other hub's rows are in it. -/
structure Returned.Right (r : Returned) : Prop where
  tree : TreeOf r.tree r.table
  base : r.base = none ∨ r.base = some r.endpoint

/-- What holds in every state that such steps reach. -/
structure SyncInv (s : SyncState) : Prop where
  cached : ∀ tree, s.connector.configs = some tree →
    IsObj tree ∧ ∃ idx T, s.cached = some (idx, T) ∧ TreeOf tree T
  returned : ∀ r ∈ s.returned, r.Right

variable {n : ℕ} {s : SyncState}

theorem SyncInv.setCall (h : SyncInv s) (c : ℕ) (call : ConfigCall) : SyncInv (s.setCall c call) :=
  ⟨h.cached, h.returned⟩

theorem SyncInv.attempt (h : SyncInv s) (c i : ℕ) : SyncInv (s.attempt n c i) := by
  unfold SyncState.attempt
  split
  · exact h.setCall _ _
  · exact h.setCall _ _

theorem SyncInv.drop (h : SyncInv s) :
    SyncInv { s with connector := s.connector.drop, cached := none } where
  cached := by
    intro tree htree
    cases htree
  returned := h.returned

theorem appliedTree_of_merges {c : HubConnector} {base : Js} (hbase : c.configs = some base)
    (h : c.merges = true) (a : Served) :
    c.appliedTree a.result = mergeConfigDelta base (treeOf (a.table.since a.since)) := by
  simp only [HubConnector.appliedTree, Served.result, hbase, h, if_true]

theorem appliedTree_of_not_merges {c : HubConnector} (h : c.merges = false) (a : Served) :
    c.appliedTree a.result = treeOf (a.table.since a.since) := by
  cases hbase : c.configs <;>
    simp [HubConnector.appliedTree, Served.result, hbase, h]

/-- An answer that is folded into the right cache. -/
theorem SyncInv.fold {idx : ℕ} {a : Served} (h : SyncInv s) (hright : FoldsRight s idx a) :
    SyncInv (s.fold idx a) := by
  have htree : IsObj (s.connector.appliedTree a.result) ∧
      TreeOf (s.connector.appliedTree a.result) a.table ∧
      ((if s.connector.merges then s.cached.map Prod.fst else none) = none ∨
        (if s.connector.merges then s.cached.map Prod.fst else none) = some idx) := by
    unfold FoldsRight at hright
    cases hm : s.connector.merges with
    | true =>
      rw [hm, if_pos rfl] at hright
      obtain ⟨T, hcached, hgrows, hcursor, hsafe⟩ := hright
      obtain ⟨base, hbase⟩ : ∃ base, s.connector.configs = some base := by
        rw [HubConnector.merges, Bool.and_eq_true] at hm
        exact Option.isSome_iff_exists.1 hm.2
      obtain ⟨hobj, idx', T', hcached', htree⟩ := h.cached base hbase
      obtain ⟨rfl, rfl⟩ : idx' = idx ∧ T' = T := by
        rw [hcached'] at hcached
        simpa using hcached
      rw [appliedTree_of_merges hbase hm, hcached]
      exact ⟨isObj_mergeConfigDelta hobj _,
        treeOf_merge_since hobj htree hgrows hcursor hsafe, .inr rfl⟩
    | false =>
      rw [hm] at hright
      rw [appliedTree_of_not_merges hm]
      exact ⟨isObj_treeOf _, treeOf_since_all hright, .inl rfl⟩
  refine ⟨?_, ?_⟩
  · intro tree heq
    obtain rfl : s.connector.appliedTree a.result = tree := Option.some.inj heq
    exact ⟨htree.1, idx, a.table, rfl, htree.2.1⟩
  · intro r hr
    rcases List.mem_append.1 hr with hr | hr
    · exact h.returned r hr
    · obtain rfl := List.mem_singleton.1 hr
      exact ⟨htree.2.1, htree.2.2⟩

theorem syncStep_inv (s : SyncState) (e : SyncEvent) (h : SyncInv s) (he : Synchronized s e) :
    SyncInv (syncStep n s e) := by
  cases e with
  | call c =>
    unfold syncStep
    dsimp only
    split
    · exact h.attempt _ _
    · exact h
  | serve c seq =>
    unfold syncStep
    dsimp only
    split
    · exact h.setCall _ _
    · exact h.setCall _ _
    · exact h
  | arrive c =>
    unfold syncStep
    dsimp only
    split
    · split
      · exact h.drop.setCall _ _
      · split
        · exact h.drop.setCall _ _
        · exact h.setCall _ _
    · exact h.setCall _ _
    · exact h
  | fail c =>
    unfold syncStep
    dsimp only
    split
    · exact h.attempt _ _
    · exact h.attempt _ _
    · exact h
  | resume c =>
    unfold syncStep
    dsimp only
    split
    · next i idx a hcall => exact (h.fold (he i idx a hcall)).setCall _ _
    · exact h
  | upsert idx p row => exact ⟨h.cached, h.returned⟩
  | restore idx table => exact ⟨h.cached, h.returned⟩

/-- **Deltas refine full fetches**: when every answer is folded into the right cache, every call
returns the full tree that the answering hub had when it answered. -/
theorem getAllConfig_fullTree (n : ℕ) (hubs : ℕ → HubTable) (es : List SyncEvent)
    (hrun : Runs.Along (syncStep n) Synchronized { hubs } es) :
    ∀ r ∈ (syncRun n { hubs } es).returned, r.Right :=
  (Runs.Along.inv syncStep_inv ⟨by simp, by simp⟩ hrun).returned

/-! ### One call after the other -/

/-- The call is under way. -/
def ConfigCall.active : ConfigCall → Bool
  | .asking .. | .refetching .. | .resuming .. => true
  | .done | .failed => false

/-- The hub of the cached tree has only been written since, or it shows that it has restarted. -/
def Continues (s : SyncState) (idx : ℕ) (a : Served) : Prop :=
  s.connector.hubConfigRegressed a.result = true ∨
    ∃ T, s.cached = some (idx, T) ∧ Grows T a.table ∧ ∀ row ∈ a.table.since a.since, row.1.Safe

/-- One call at a time, to hubs that continue what they have served. -/
def Sequential (s : SyncState) : SyncEvent → Prop
  | .call _ => ∀ c call, s.calls c = some call → call.active = false
  | .serve c seq => ∀ i idx since, s.calls c = some (.asking i idx since true none) →
    Continues s idx ⟨since, s.hubs idx, seq⟩
  | _ => True

/-- What is known of a call that is alone. -/
def CallOk (s : SyncState) : ConfigCall → Prop
  | .asking _ idx since cursorValid answer =>
    (cursorValid = false → since = 0) ∧
      (cursorValid = true → s.connector.merges = true ∧
        ∃ T, s.cached = some (idx, T) ∧ since ≤ T.watermark) ∧
      ∀ a, answer = some a → a.since = since ∧ (cursorValid = true → Continues s idx a)
  | .refetching _ _ answer =>
    s.connector.merges = false ∧ ∀ a, answer = some a → a.since = 0
  | .resuming _ idx a => FoldsRight s idx a
  | .done | .failed => True

/-- The cursor is the time of the cached tree, and its endpoint is the one it came from. -/
structure CursorInv (s : SyncState) : Prop where
  dropped : s.connector.configs = none → s.connector.lastWatermark = 0
  cursor : ∀ idx T, s.cached = some (idx, T) → s.connector.configs.isSome = true →
    s.connector.lastWatermark = T.watermark ∧ s.connector.watermarkEndpointIdx = some idx

structure SequentialInv (s : SyncState) : Prop where
  sync : SyncInv s
  cursor : CursorInv s
  alone : ∀ c c' call call', s.calls c = some call → s.calls c' = some call' →
    call.active = true → call'.active = true → c = c'
  calls : ∀ c call, s.calls c = some call → CallOk s call

theorem maxUpdatedAt_since {T : HubTable} {cursor : ℕ} (h : cursor ≤ T.watermark) :
    maxUpdatedAt (T.since cursor) = T.watermark := by
  refine le_antisymm ?_ ?_
  · rcases Nat.eq_zero_or_pos (maxUpdatedAt (T.since cursor)) with hz | hpos
    · omega
    · obtain ⟨row, hmem, heq⟩ := exists_maxUpdatedAt hpos
      rw [← heq]
      exact le_maxUpdatedAt (List.mem_of_mem_filter hmem)
  · rcases Nat.eq_zero_or_pos T.watermark with hz | hpos
    · omega
    · obtain ⟨row, hmem, heq⟩ := exists_maxUpdatedAt hpos
      have hsince : row ∈ T.since cursor := by
        refine List.mem_filter.2 ⟨hmem, ?_⟩
        rw [heq]
        exact decide_eq_true h
      rw [HubTable.watermark, ← heq]
      exact le_maxUpdatedAt hsince

/-- A step of the one call that is under way. -/
theorem SequentialInv.of_call {s s' : SyncState} {c : ℕ} {call : ConfigCall}
    (hothers : ∀ c' call', s.calls c' = some call' → c' ≠ c → call'.active = false)
    (hsync : SyncInv s') (hcursor : CursorInv s')
    (hcalls : s'.calls = Function.update s.calls c (some call)) (hok : CallOk s' call) :
    SequentialInv s' := by
  have hcases : ∀ c' call', s'.calls c' = some call' →
      (c' = c ∧ call' = call) ∨ call'.active = false := by
    intro c' call' h
    rw [hcalls, Function.update_apply] at h
    split at h
    · next heq => exact .inl ⟨heq, (Option.some.inj h).symm⟩
    · next hne => exact .inr (hothers c' call' h hne)
  refine ⟨hsync, hcursor, ?_, ?_⟩
  · intro c₁ c₂ call₁ call₂ h₁ h₂ ha₁ ha₂
    rcases hcases c₁ call₁ h₁ with ⟨rfl, -⟩ | hno
    · rcases hcases c₂ call₂ h₂ with ⟨rfl, -⟩ | hno
      · rfl
      · rw [hno] at ha₂
        cases ha₂
    · rw [hno] at ha₁
      cases ha₁
  · intro c' call' h
    rcases hcases c' call' h with ⟨-, rfl⟩ | hno
    · exact hok
    · cases call' with
      | done => exact trivial
      | failed => exact trivial
      | _ => cases hno

/-- While a call is under way no other is. -/
theorem SequentialInv.others (h : SequentialInv s) {c : ℕ} {call : ConfigCall}
    (hcall : s.calls c = some call) (hactive : call.active = true) (c' : ℕ) (call' : ConfigCall)
    (hcall' : s.calls c' = some call') (hne : c' ≠ c) : call'.active = false := by
  cases hact : call'.active with
  | false => rfl
  | true => exact absurd (h.alone c' c call' call hcall' hcall hact hactive) hne

theorem CursorInv.setCall (h : CursorInv s) (c : ℕ) (call : ConfigCall) :
    CursorInv (s.setCall c call) := ⟨h.dropped, h.cursor⟩

theorem CursorInv.attempt (h : CursorInv s) (hsync : SyncInv s) (c i : ℕ) (others :
    ∀ c' call', s.calls c' = some call' → c' ≠ c → call'.active = false) :
    SequentialInv (s.attempt n c i) := by
  unfold SyncState.attempt
  split
  · refine SequentialInv.of_call others (hsync.setCall _ _) (h.setCall _ _) rfl ?_
    refine ⟨?_, ?_, fun a ha => by cases ha⟩
    · intro hvalid
      rw [hvalid]
      rfl
    · intro hvalid
      rw [hvalid]
      simp only [Bool.and_eq_true, decide_eq_true_eq, beq_iff_eq] at hvalid
      obtain ⟨hpos, hidx⟩ := hvalid
      cases hconfigs : s.connector.configs with
      | none =>
        have := h.dropped hconfigs
        omega
      | some tree =>
        obtain ⟨-, idx', T, hcached, -⟩ := hsync.cached tree hconfigs
        obtain ⟨hwatermark, hendpoint⟩ := h.cursor idx' T hcached (by rw [hconfigs]; rfl)
        rw [hidx] at hendpoint
        obtain rfl := Option.some.inj hendpoint
        refine ⟨?_, T, hcached, ?_⟩
        · change (decide (0 < s.connector.lastWatermark) && s.connector.configs.isSome) = true
          simp [hpos, hconfigs]
        · change s.connector.lastWatermark - 1 ≤ T.watermark
          omega
  · exact SequentialInv.of_call others (hsync.setCall _ _) (h.setCall _ _) rfl trivial

theorem CursorInv.drop (s : SyncState) :
    CursorInv { s with connector := s.connector.drop, cached := none } where
  dropped := fun _ => rfl
  cursor := by
    intro idx T hcached
    cases hcached

/-- The cursor that a folded answer leaves is the time of its table. -/
theorem CursorInv.fold {idx : ℕ} {a : Served} (hright : FoldsRight s idx a) :
    CursorInv (s.fold idx a) where
  dropped := by
    intro h
    cases h
  cursor := by
    rintro idx' T hcached -
    obtain ⟨rfl, rfl⟩ : idx = idx' ∧ a.table = T := by
      have := Option.some.inj hcached
      simpa using this
    refine ⟨?_, rfl⟩
    change maxUpdatedAt (a.table.since a.since) = a.table.watermark
    unfold FoldsRight at hright
    split at hright
    · obtain ⟨T, -, hgrows, hcursor, -⟩ := hright
      exact maxUpdatedAt_since (hcursor.trans hgrows.watermark_le)
    · have hall : a.table.since a.since = a.table.entries :=
        List.filter_eq_self.2 fun row hrow => by simpa using hright row hrow
      rw [hall]
      rfl

theorem foldsRight_of_dropped {idx : ℕ} {a : Served} (hm : s.connector.merges = false)
    (hsince : a.since = 0) : FoldsRight s idx a := by
  rw [FoldsRight, hm, if_neg Bool.false_ne_true, hsince]
  exact fun _ _ => Nat.zero_le _

/-- The answer of a hub that continues its history. -/
theorem foldsRight_of_continues {idx since : ℕ} {a : Served} {T : HubTable}
    (hm : s.connector.merges = true) (hcached : s.cached = some (idx, T))
    (hcursor : since ≤ T.watermark) (hsince : a.since = since) (hcontinues : Continues s idx a)
    (hregressed : ¬s.connector.hubConfigRegressed a.result = true) : FoldsRight s idx a := by
  rcases hcontinues with hreg | ⟨T', hcached', hgrows, hsafe⟩
  · exact absurd hreg hregressed
  · rw [FoldsRight, hm, if_pos rfl]
    obtain rfl : T = T' := by
      rw [hcached] at hcached'
      simpa using hcached'
    exact ⟨T, hcached, hgrows, hsince.trans_le hcursor, hsafe⟩

theorem SequentialInv.arrive (h : SequentialInv s) {c i idx since : ℕ} {cursorValid : Bool}
    {a : Served} (hcall : s.calls c = some (.asking i idx since cursorValid (some a))) :
    SequentialInv (syncStep n s (.arrive c)) := by
  have hothers := h.others hcall rfl
  obtain ⟨hfull, hdelta, hanswer⟩ := h.calls c _ hcall
  obtain ⟨hsince, hcontinues⟩ := hanswer a rfl
  unfold syncStep
  simp only [hcall]
  split
  · next hvalid =>
    refine .of_call hothers (h.sync.drop.setCall _ _) ((CursorInv.drop s).setCall _ _) rfl ?_
    exact foldsRight_of_dropped rfl (hsince.trans (hfull (by simpa using hvalid)))
  · next hvalid =>
    have hvalid : cursorValid = true := by simpa using hvalid
    split
    · refine .of_call hothers (h.sync.drop.setCall _ _) ((CursorInv.drop s).setCall _ _) rfl ?_
      refine ⟨rfl, ?_⟩
      intro a ha
      cases ha
    · next hregressed =>
      obtain ⟨hm, T, hcached, hcursor⟩ := hdelta hvalid
      refine .of_call hothers (h.sync.setCall _ _) (h.cursor.setCall _ _) rfl ?_
      exact foldsRight_of_continues hm hcached hcursor hsince (hcontinues hvalid) hregressed

theorem sequentialInv_step (h : SequentialInv s) {e : SyncEvent} (he : Sequential s e) :
    Synchronized s e ∧ SequentialInv (syncStep n s e) := by
  cases e with
  | call c =>
    refine ⟨trivial, ?_⟩
    unfold syncStep
    dsimp only
    split
    · exact h.cursor.attempt h.sync c 0 fun c' call' hcall' _ => he c' call' hcall'
    · exact h
  | serve c seq =>
    refine ⟨trivial, ?_⟩
    unfold syncStep
    dsimp only
    split
    · next i idx since cursorValid hcall =>
      -- The served table continues the cached one, by the condition on the step.
      obtain ⟨hfull, hdelta, -⟩ := h.calls c _ hcall
      refine .of_call (h.others hcall rfl) (h.sync.setCall _ _) (h.cursor.setCall _ _) rfl ?_
      refine ⟨hfull, hdelta, fun a ha => ?_⟩
      obtain rfl := Option.some.inj ha
      refine ⟨rfl, fun hvalid => ?_⟩
      subst hvalid
      exact he i idx since hcall
    · next i idx hcall =>
      obtain ⟨hm, -⟩ := h.calls c _ hcall
      refine .of_call (h.others hcall rfl) (h.sync.setCall _ _) (h.cursor.setCall _ _) rfl ⟨hm, ?_⟩
      intro a ha
      obtain rfl := Option.some.inj ha
      rfl
    · exact h
  | arrive c =>
    refine ⟨trivial, ?_⟩
    cases hcall : s.calls c with
    | none => simpa [syncStep, hcall] using h
    | some call =>
      cases call with
      | asking i idx since cursorValid answer =>
        cases answer with
        | none => simpa [syncStep, hcall] using h
        | some a => exact h.arrive hcall
      | refetching i idx answer =>
        cases answer with
        | none => simpa [syncStep, hcall] using h
        | some a =>
          obtain ⟨hm, hanswer⟩ := h.calls c _ hcall
          have hstep : syncStep n s (.arrive c) = s.setCall c (.resuming i idx a) := by
            simp only [syncStep, hcall]
          rw [hstep]
          refine .of_call (h.others hcall rfl) (h.sync.setCall _ _) (h.cursor.setCall _ _) rfl ?_
          exact foldsRight_of_dropped hm (hanswer a rfl)
      | resuming i idx a => simpa [syncStep, hcall] using h
      | done => simpa [syncStep, hcall] using h
      | failed => simpa [syncStep, hcall] using h
  | fail c =>
    refine ⟨trivial, ?_⟩
    unfold syncStep
    dsimp only
    split
    · next hcall => exact h.cursor.attempt h.sync c _ (h.others hcall rfl)
    · next hcall => exact h.cursor.attempt h.sync c _ (h.others hcall rfl)
    · exact h
  | resume c =>
    have hright : Synchronized s (.resume c) := fun i idx a hcall => h.calls c _ hcall
    refine ⟨hright, ?_⟩
    unfold syncStep
    dsimp only
    split
    · next i idx a hcall =>
      -- The fold is the one step that puts a table into the cache.
      refine .of_call (h.others hcall rfl) ((h.sync.fold (hright i idx a hcall)).setCall _ _) ?_ rfl
        trivial
      exact (CursorInv.fold (hright i idx a hcall)).setCall _ _
    · exact h
  | upsert idx p row =>
    exact ⟨trivial, ⟨h.sync.cached, h.sync.returned⟩, ⟨h.cursor.dropped, h.cursor.cursor⟩, h.alone,
      h.calls⟩
  | restore idx table =>
    exact ⟨trivial, ⟨h.sync.cached, h.sync.returned⟩, ⟨h.cursor.dropped, h.cursor.cursor⟩, h.alone,
      h.calls⟩

theorem sequentialInv_start (hubs : ℕ → HubTable) : SequentialInv { hubs } where
  sync := ⟨by simp, by simp⟩
  cursor := ⟨by simp, by simp⟩
  alone := by simp
  calls := by simp

/-- Calls that do not overlap fold every answer into the right cache, through failovers and through
restarts that show. -/
theorem along_synchronized {es : List SyncEvent} (h : SequentialInv s)
    (hrun : Runs.Along (syncStep n) Sequential s es) :
    Runs.Along (syncStep n) Synchronized s es := by
  induction es generalizing s with
  | nil => trivial
  | cons e es ih =>
    obtain ⟨he, hs⟩ := sequentialInv_step h hrun.1
    exact ⟨he, ih hs hrun.2⟩

/-- Calls that do not overlap return full trees. -/
theorem getAllConfig_fullTree_of_sequential (n : ℕ) (hubs : ℕ → HubTable) (es : List SyncEvent)
    (hrun : Runs.Along (syncStep n) Sequential { hubs } es) :
    ∀ r ∈ (syncRun n { hubs } es).returned, r.Right :=
  (Runs.Along.inv syncStep_inv (sequentialInv_start hubs).sync
    (along_synchronized (sequentialInv_start hubs) hrun)).returned

/-! ### Runs of two sample hubs -/

def sampleConfigPath (module : String) : ConfigPath := ⟨"bitcoin", "mainnet", module, "url"⟩

/-- One hub has one row of second 5, the other one of second 3. -/
def sampleHubs (idx : ℕ) : HubTable :=
  if idx = 0 then Dict.empty.set (sampleConfigPath "encoder") ⟨str "a", 5⟩
  else Dict.empty.set (sampleConfigPath "explorer") ⟨str "b", 3⟩

/-- A full fetch, a write, and a delta. -/
def samplePolls : List SyncEvent :=
  [.call 0, .serve 0 1, .arrive 0, .resume 0,
    .upsert 0 (sampleConfigPath "decoder") ⟨str "c", 5⟩,
    .call 1, .serve 1 2, .arrive 1, .resume 1]

theorem synchronized_samplePolls :
    Runs.Along (syncStep 2) Synchronized { hubs := sampleHubs } samplePolls := by
  refine ⟨trivial, trivial, trivial, ?_, trivial, trivial, trivial, trivial, ?_, trivial⟩
  · intro i idx a h
    obtain ⟨rfl, rfl, rfl⟩ := ConfigCall.resuming.inj (Option.some.inj h)
    exact foldsRight_of_dropped rfl rfl
  · intro i idx a h
    obtain ⟨rfl, rfl, rfl⟩ := ConfigCall.resuming.inj (Option.some.inj h)
    have hgrows := Grows.upsert (sampleHubs 0) (sampleConfigPath "decoder") ⟨str "c", 5⟩
    exact ⟨sampleHubs 0, rfl, hgrows, by decide, by decide⟩

theorem getAllConfig_fullTree_samplePolls :
    (syncRun 2 { hubs := sampleHubs } samplePolls).returned.length = 2 ∧
      ∀ r ∈ (syncRun 2 { hubs := sampleHubs } samplePolls).returned, r.Right :=
  ⟨rfl, getAllConfig_fullTree 2 sampleHubs samplePolls synchronized_samplePolls⟩

/-- While one call waits for its delta from the first hub, another fails over to the second. -/
def sampleOverlap : List SyncEvent :=
  [.call 0, .serve 0 1, .arrive 0, .resume 0,
    .call 1, .call 2, .fail 2, .serve 2 1, .arrive 2, .resume 2,
    .serve 1 1, .arrive 1, .resume 1]

/-- Rows of the first hub are merged into the tree of the second. -/
theorem getAllConfig_mergesAcross :
    ¬∀ r ∈ (syncRun 2 { hubs := sampleHubs } sampleOverlap).returned, r.Right := by
  intro h
  have hlast : ∃ r ∈ (syncRun 2 { hubs := sampleHubs } sampleOverlap).returned,
      r.endpoint = 0 ∧ r.base = some 1 := ⟨_, List.mem_of_getLast? rfl, rfl, rfl⟩
  obtain ⟨r, hr, hendpoint, hbase⟩ := hlast
  rcases (h r hr).base with hnone | hsame
  · rw [hbase] at hnone
    cases hnone
  · rw [hbase, hendpoint] at hsame
    cases hsame

end XChainSdk
