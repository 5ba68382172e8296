import Mathlib
import XChainSdk.Js.Decimal
import XChainSdk.Lib.Runs
import XChainSdk.WebSocket.CatchUp

/-!
# A catch-up leaves no silent gap

* `CursorStep` : the cursor moves up to an index that a frame named, down to just below a rollback,
  and, when a catch-up ends with its last subscription, to the highest index that it noted.
* `ClearFrom` : no rollback at or below an index since it was delivered.
* `CatchUpInv` : the invariant of a client and its catch-up.
* `catchUp_safe` : over every run, the cursor moves like that, the indexes that are asked from were
  not rolled back before the catch-up, and every queued subscription ends in one of three ways.
-/

namespace XChainSdk

open CatchUpClient

/-! ### What frames name -/

/-- The index that a frame names as delivered. -/
def deliveredText (msg : Js) : Option String :=
  if (msg.field "data").truthy then (deliveredIndex msg).bind indexText else none

/-- The index that a `WELCOME` seeds a cursor with. -/
def seedText (msg : Js) : Option String :=
  if (msg.field "data").truthy ∧ (msg.field "type").str? = some "WELCOME" then
    indexText ((msg.field "data").field "latest_action_index")
  else none

/-- The first invalid index of a rollback, above 0. -/
def rollback (msg : Js) : Option ℕ :=
  if (msg.field "data").truthy ∧ (msg.field "type").str? = some "REORG" then
    match indexText ((msg.field "data").field "first_invalid_action_index") with
    | some f => if indexValue f = 0 then none else some (indexValue f)
    | none => none
  else none

/-- The frame names an index. -/
def Names (msg : Js) : Prop := deliveredText msg ≠ none ∨ seedText msg ≠ none

/-- Every rollback at or below `v` among the first frames, that a client with a cursor received, was
followed by the delivery of `v` or a higher index. -/
def ClearFrom (received : List Js) (limit v : ℕ) : Prop :=
  ∀ before msg after f, received = before ++ msg :: after → before.length < limit →
    (∃ m ∈ before, Names m) → rollback msg = some f → f ≤ v →
    ∃ m ∈ after, ∃ i, deliveredText m = some i ∧ v ≤ indexValue i

/-- The index was named by one of the frames, or a rollback among them undercut a higher one that
was. -/
def Seen (frames : List Js) (c : String) : Prop :=
  (∃ m ∈ frames, deliveredText m = some c) ∨
    ∃ before msg after f, frames = before ++ msg :: after ∧ rollback msg = some f ∧
      c = toString (f - 1) ∧ ∃ m ∈ before, ∃ i, deliveredText m = some i ∧ f ≤ indexValue i

theorem isIndex_of_indexText {raw : Js} {i : String} (h : indexText raw = some i) :
    isIndex i = true := by
  unfold indexText at h
  split_ifs at h with h1 h2
  cases h
  exact h2

theorem indexText_str {i : String} (h : isIndex i = true) : indexText (.str i) = some i := by
  simp [indexText, Js.isNullish, Js.toText, h]

theorem isIndex_of_deliveredText {msg : Js} {i : String} (h : deliveredText msg = some i) :
    isIndex i = true := by
  unfold deliveredText at h
  split_ifs at h
  obtain ⟨raw, -, hraw⟩ := Option.bind_eq_some_iff.1 h
  exact isIndex_of_indexText hraw

theorem isIndex_of_seedText {msg : Js} {i : String} (h : seedText msg = some i) :
    isIndex i = true := by
  unfold seedText at h
  split_ifs at h
  exact isIndex_of_indexText h

theorem toList_toString (n : ℕ) : (toString n).toList = Nat.toDigits 10 n := by
  rw [Nat.toString_eq_ofList_toDigits, String.toList_ofList]

theorem isIndex_toString (n : ℕ) : isIndex (toString n) = true := by
  have hne : toString n ≠ "" := by
    intro h
    have hlist := congrArg String.toList h
    rw [toList_toString] at hlist
    exact Nat.toDigits_ne_nil hlist
  simp only [isIndex, Bool.and_eq_true, bne_iff_ne, ne_eq, toList_toString]
  exact ⟨hne, List.all_eq_true.2 (allDigits_toDigits n)⟩

theorem indexValue_toString (n : ℕ) : indexValue (toString n) = n := by
  rw [indexValue, toList_toString]
  exact Nat.ofDigitChars_toDigits (by decide) (by decide)

/-- A frame that names a delivered index is no rollback. -/
theorem rollback_of_deliveredText {msg : Js} {i : String} (h : deliveredText msg = some i) :
    rollback msg = none := by
  unfold deliveredText at h
  split_ifs at h
  obtain ⟨raw, hraw, -⟩ := Option.bind_eq_some_iff.1 h
  unfold rollback
  rw [if_neg]
  rintro ⟨-, htype⟩
  unfold deliveredIndex at hraw
  split at hraw
  · next ht => simp [ht, Js.str?] at htype
  · next ht => simp [ht, Js.str?] at htype
  · cases hraw

theorem rollback_of_seedText {msg : Js} {i : String} (h : seedText msg = some i) :
    rollback msg = none := by
  unfold seedText at h
  split_ifs at h with hw
  unfold rollback
  rw [if_neg]
  rintro ⟨-, htype⟩
  rw [hw.2] at htype
  simp at htype

/-- A rollback lowers an index that it voids, and leaves the others. -/
theorem belowIndex_cases {msg : Js} (hdata : (msg.field "data").truthy = true)
    (htype : msg.field "type" = .str "REORG") (c : Option String) :
    let c' := belowIndex c ((msg.field "data").field "first_invalid_action_index")
    (c' = c ∧ ∀ v f, c = some v → rollback msg = some f → indexValue v < f) ∨
      ∃ v f, c = some v ∧ rollback msg = some f ∧ f ≤ indexValue v ∧ c' = some (toString (f - 1)) := by
  have hroll : rollback msg =
      match indexText ((msg.field "data").field "first_invalid_action_index") with
      | some f => if indexValue f = 0 then none else some (indexValue f)
      | none => none := by
    rw [rollback, if_pos ⟨hdata, by rw [htype]; rfl⟩]
  rw [hroll]
  cases hf : indexText ((msg.field "data").field "first_invalid_action_index") with
  | none =>
    refine .inl ⟨?_, fun _ _ _ h => by cases h⟩
    cases c <;> simp [belowIndex, hf]
  | some f =>
    cases c with
    | none => exact .inl ⟨by simp [belowIndex], fun _ _ h => by cases h⟩
    | some c =>
      by_cases hzero : indexValue f = 0
      · exact .inl ⟨by simp [belowIndex, hf, hzero], fun _ _ _ h => by simp [hzero] at h⟩
      · by_cases hlt : indexValue f - 1 < indexValue c
        · refine .inr ⟨c, indexValue f, rfl, by simp [hzero], by omega, ?_⟩
          simp [belowIndex, hf, hzero, hlt]
        · refine .inl ⟨by simp [belowIndex, hf, hzero, hlt], ?_⟩
          intro v g hv hg
          cases hv
          have hfg : indexValue f = g := by simpa [hzero] using hg
          omega

/-- The larger index is the present one, or the new one above it. -/
theorem maxIndex_cases (c : Option String) (raw : Js) :
    (maxIndex c raw = c ∧ ∀ i, indexText raw = some i →
      ∃ v, c = some v ∧ indexValue i ≤ indexValue v) ∨
      ∃ i, indexText raw = some i ∧ maxIndex c raw = some i ∧
        ∀ v, c = some v → indexValue v < indexValue i := by
  unfold maxIndex
  cases hi : indexText raw with
  | none => exact .inl ⟨by cases c <;> rfl, fun _ h => by cases h⟩
  | some i =>
    cases c with
    | none => exact .inr ⟨i, rfl, rfl, fun _ h => by cases h⟩
    | some c =>
      by_cases hlt : indexValue c < indexValue i
      · exact .inr ⟨i, rfl, by simp [hlt], fun v hv => by cases hv; exact hlt⟩
      · refine .inl ⟨by simp [hlt], fun j hj => ?_⟩
        cases hj
        exact ⟨c, rfl, by omega⟩

theorem rollback_ne_zero {msg : Js} {f : ℕ} (h : rollback msg = some f) : f ≠ 0 := by
  unfold rollback at h
  split_ifs at h
  split at h
  · split_ifs at h with hzero
    cases h
    exact hzero
  · cases h

/-! ### Rollbacks and deliveries -/

namespace ClearFrom

variable {received : List Js} {limit v w : ℕ} {msg : Js}

/-- A lower index was voided by fewer rollbacks. -/
theorem lower (h : ClearFrom received limit v) (hwv : w ≤ v) : ClearFrom received limit w := by
  intro before m after f hsplit hlimit hseeded hroll hf
  obtain ⟨d, hd, i, hi, hv⟩ := h before m after f hsplit hlimit hseeded hroll (hf.trans hwv)
  exact ⟨d, hd, i, hi, hwv.trans hv⟩

theorem mono (h : ClearFrom received limit v) {limit' : ℕ} (hle : limit' ≤ limit) :
    ClearFrom received limit' v := by
  intro before m after f hsplit hlimit
  exact h before m after f hsplit (hlimit.trans_le hle)

/-- A split of the frames, the last of which is new. -/
theorem split_append {before after : List Js} {m : Js}
    (h : received ++ [msg] = before ++ m :: after) :
    (after = [] ∧ m = msg ∧ before = received) ∨
      ∃ after', after = after' ++ [msg] ∧ received = before ++ m :: after' := by
  rcases List.eq_nil_or_concat after with rfl | ⟨after', x, rfl⟩
  · obtain ⟨h1, h2⟩ := List.append_inj' h rfl
    cases h2
    exact .inl ⟨rfl, rfl, h1.symm⟩
  · rw [List.concat_eq_append] at h ⊢
    rw [← List.cons_append, ← List.append_assoc] at h
    obtain ⟨h1, h2⟩ := List.append_inj' h rfl
    cases h2
    exact .inr ⟨after', rfl, h1⟩

/-- A new frame voids nothing that is below the limit already. -/
theorem append (h : ClearFrom received limit v) (hlimit : limit ≤ received.length) :
    ClearFrom (received ++ [msg]) limit v := by
  intro before m after f hsplit hbefore hseeded hroll hf
  rcases split_append hsplit with ⟨rfl, rfl, rfl⟩ | ⟨after', rfl, hreceived⟩
  · omega
  · obtain ⟨d, hd, i, hi, hv⟩ := h before m after' f hreceived hbefore hseeded hroll hf
    exact ⟨d, List.mem_append_left _ hd, i, hi, hv⟩

/-- A new frame that rolls nothing back at or below the index. -/
theorem append_all (h : ClearFrom received received.length v)
    (hroll : ∀ f, rollback msg = some f → v < f) :
    ClearFrom (received ++ [msg]) (received ++ [msg]).length v := by
  intro before m after f hsplit hbefore hseeded hf hle
  rcases split_append hsplit with ⟨rfl, rfl, rfl⟩ | ⟨after', rfl, hreceived⟩
  · exact absurd (hroll f hf) (by omega)
  · obtain ⟨d, hd, i, hi, hv⟩ := h before m after' f hreceived (by rw [hreceived]; simp) hseeded hf hle
    exact ⟨d, List.mem_append_left _ hd, i, hi, hv⟩

/-- An index that was just delivered is clear. -/
theorem delivered {i : String} (hi : deliveredText msg = some i) :
    ClearFrom (received ++ [msg]) (received ++ [msg]).length (indexValue i) := by
  intro before m after f hsplit hbefore hseeded hf hle
  rcases split_append hsplit with ⟨rfl, rfl, rfl⟩ | ⟨after', rfl, hreceived⟩
  · rw [rollback_of_deliveredText hi] at hf
    cases hf
  · exact ⟨msg, by simp, i, hi, le_rfl⟩

/-- Before the first frame that names an index there is nothing to void. -/
theorem unseeded (hnone : ∀ m ∈ received, ¬ Names m) (hroll : rollback msg = none) :
    ClearFrom (received ++ [msg]) (received ++ [msg]).length v := by
  rintro before m after f hsplit hbefore ⟨d, hd, hnames⟩ hf hle
  rcases split_append hsplit with ⟨rfl, rfl, rfl⟩ | ⟨after', rfl, hreceived⟩
  · rw [hroll] at hf
    cases hf
  · exact absurd hnames (hnone d (by rw [hreceived]; simp [hd]))

end ClearFrom

namespace Seen

variable {frames : List Js} {c : String} {msg : Js}

theorem append (h : Seen frames c) : Seen (frames ++ [msg]) c := by
  rcases h with ⟨m, hm, hc⟩ | ⟨before, m, after, f, rfl, hf, hc, hhigher⟩
  · exact .inl ⟨m, List.mem_append_left _ hm, hc⟩
  · exact .inr ⟨before, m, after ++ [msg], f, by simp, hf, hc, hhigher⟩

theorem delivered (h : deliveredText msg = some c) : Seen (frames ++ [msg]) c :=
  .inl ⟨msg, by simp, h⟩

/-- A rollback undercuts an index that was seen, hence one that was named. -/
theorem rollback {f : ℕ} (h : Seen frames c) (hf : XChainSdk.rollback msg = some f)
    (hle : f ≤ indexValue c) : Seen (frames ++ [msg]) (toString (f - 1)) := by
  refine .inr ⟨frames, msg, [], f, rfl, hf, rfl, ?_⟩
  rcases h with ⟨m, hm, hc⟩ | ⟨before, m, after, g, rfl, hg, rfl, d, hd, i, hi, hgi⟩
  · exact ⟨m, hm, c, hc, hle⟩
  · rw [indexValue_toString] at hle
    exact ⟨d, by simp [hd], i, hi, by omega⟩

end Seen

/-! ### The invariant -/

/-- A subscription is completed by a round that is not truncated, or by a frame that spent it; or it
is given up with an event that names it. -/
def EndingOk (received : List Js) (emitted : List CatchUpEvent)
    (e : PendingCatchUp × CatchUpEnding) : Prop :=
  match e.2 with
  | .completed frame => frame ∈ received ∧ frame.field "id" = .str e.1.id ∧
      frame.field "type" = .str "CATCH_UP_COMPLETE" ∧
      (isTrue ((frame.field "data").field "truncated") = false ∨
        spentOnce e.1.sub (frame.field "data") = true)
  | .resync event => event ∈ emitted ∧ ∃ code message fork first,
      event = .resyncRequired code message e.1.sub.channels e.1.since fork first

theorem EndingOk.mono {received received' : List Js} {emitted emitted' : List CatchUpEvent}
    {e : PendingCatchUp × CatchUpEnding} (h : EndingOk received emitted e)
    (hreceived : received ⊆ received') (hemitted : emitted ⊆ emitted') :
    EndingOk received' emitted' e := by
  obtain ⟨p, ending⟩ := e
  cases ending with
  | completed frame => exact ⟨hreceived h.1, h.2⟩
  | resync event => exact ⟨hemitted h.1, h.2⟩

/-- The index that a subscribe carries was not rolled back before its catch-up. -/
def SentClear (received : List Js) (x : SentCatchUp) : Prop :=
  ∀ i, indexText x.since = some i → ClearFrom (received.take x.received) x.started (indexValue i)

/-- Every subscription that a catch-up had to replay ended, unless the whole catch-up was dropped,
with a cursor that is not above the one it started from. -/
structure ClosedOk (received : List Js) (emitted : List CatchUpEvent) (x : ClosedCatchUp) : Prop where
  queued : x.queued = x.ended.map (fun e => e.1.sub) ++ x.dropped
  ended : ∀ e ∈ x.ended, EndingOk received emitted e
  below : ∃ c, x.lastActionIndex = some c ∧ indexValue c ≤ indexValue x.cursor

/-- What the history of a client says about its cursor, and about the catch-ups before. -/
structure HistoryInv (s : CatchUpClient) : Prop where
  unseeded : s.lastActionIndex = none → ∀ m ∈ s.received, ¬ Names m
  cursor : ∀ c, s.lastActionIndex = some c →
    isIndex c = true ∧ ClearFrom s.received s.received.length (indexValue c)
  sent : ∀ x ∈ s.sent, x.received ≤ s.received.length ∧ SentClear s.received x
  closed : ∀ x ∈ s.closed, ClosedOk s.received s.emitted x

/-- What holds of a catch-up between two of its requests. -/
structure CatchUpCore (s : CatchUpClient) (st : CatchUp) : Prop where
  started : st.started ≤ s.received.length
  index : isIndex st.cursor = true
  below : ∃ c, s.lastActionIndex = some c ∧ indexValue c ≤ indexValue st.cursor
  clear : ClearFrom s.received st.started (indexValue st.cursor)
  seen : ∀ c, st.maxSeen = some c → isIndex c = true ∧
    ClearFrom s.received s.received.length (indexValue c) ∧ Seen (s.received.drop st.started) c
  ended : ∀ e ∈ st.ended, EndingOk s.received s.emitted e

/-- What holds of a catch-up whose request waits for its answer. -/
structure RunningInv (s : CatchUpClient) (st : CatchUp) : Prop extends CatchUpCore s st where
  since : ∀ i, indexText st.current.since = some i →
    ClearFrom s.received st.started (indexValue i)
  retry : ∀ since, st.timer = .retry since → since = st.current.since
  queued : st.queued = st.ended.map (fun e => e.1.sub) ++ st.current.sub :: st.queue

/-- The invariant of a client. -/
structure CatchUpInv (s : CatchUpClient) : Prop extends HistoryInv s where
  running : ∀ st, s.catchUp = some st → RunningInv s st

section Steps

variable {s s' : CatchUpClient} {st : CatchUp} {msg : Js}

/-- The part of the invariant that the catch-up in progress has no say in. -/
theorem HistoryInv.congr (h : HistoryInv s) (hlast : s'.lastActionIndex = s.lastActionIndex)
    (hreceived : s'.received = s.received) (hsent : s'.sent = s.sent)
    (hemitted : s.emitted ⊆ s'.emitted) (hclosed : s'.closed = s.closed) : HistoryInv s' where
  unseeded hnone := hreceived ▸ h.unseeded (hlast ▸ hnone)
  cursor c hc := hreceived ▸ h.cursor c (hlast ▸ hc)
  sent := hsent ▸ hreceived ▸ h.sent
  closed x hx := by
    obtain ⟨hqueued, hended, hbelow⟩ := h.closed x (hclosed ▸ hx)
    refine ⟨hqueued, fun e he => (hended e he).mono ?_ hemitted, hbelow⟩
    rw [hreceived]
    exact List.Subset.refl _

theorem CatchUpCore.emit (h : CatchUpCore s st) (event : CatchUpEvent) :
    CatchUpCore { s with emitted := s.emitted ++ [event] } st :=
  ⟨h.started, h.index, h.below, h.clear, h.seen, fun e he =>
    (h.ended e he).mono (List.Subset.refl _) (List.subset_append_left _ _)⟩

/-- The subscription that is sent carries a clear index. -/
theorem sendCatchUp_inv (h : HistoryInv s) (hst : CatchUpCore s st) {since : Js}
    (hsince : ∀ i, indexText since = some i → ClearFrom s.received st.started (indexValue i))
    (hqueued : st.queued = st.ended.map (fun e => e.1.sub) ++ st.current.sub :: st.queue) :
    CatchUpInv (s.sendCatchUp st since) := by
  refine ⟨⟨h.unseeded, h.cursor, fun x hx => ?_, h.closed⟩, fun st' hst' => ?_⟩
  · rcases List.mem_append.1 hx with hx | hx
    · exact h.sent x hx
    · rw [List.mem_singleton.1 hx]
      refine ⟨le_rfl, fun i hi => ?_⟩
      simp only [sendCatchUp, List.take_length]
      exact hsince i hi
  · cases hst'
    exact ⟨⟨hst.started, hst.index, hst.below, hst.clear, hst.seen, hst.ended⟩, hsince,
      fun _ hr => (nomatch hr), hqueued⟩

/-- A catch-up that ends applies an index that is clear. -/
theorem finishCatchUp_inv (h : HistoryInv s) (hst : CatchUpCore s st)
    (hqueued : st.queued = st.ended.map fun e => e.1.sub) : CatchUpInv (s.finishCatchUp st) := by
  obtain ⟨c, hc, hbelow⟩ := hst.below
  have hlast := maxIndex_cases s.lastActionIndex ((st.maxSeen.map Js.str).getD .null)
  refine ⟨⟨fun hnone => ?_, fun d hd => ?_, h.sent, fun x hx => ?_⟩, fun _ hst' => nomatch hst'⟩
  · rcases hlast with ⟨hsame, -⟩ | ⟨i, -, hi, -⟩
    · change maxIndex s.lastActionIndex _ = none at hnone
      rw [hsame, hc] at hnone
      cases hnone
    · simp [finishCatchUp, hi] at hnone
  · rcases hlast with ⟨hsame, -⟩ | ⟨i, hseen, hi, -⟩
    · exact h.cursor d (by simpa [finishCatchUp, hsame] using hd)
    · have hdi : d = i := by simpa [finishCatchUp, hi] using hd.symm
      cases hmax : st.maxSeen with
      | none => simp [hmax, indexText, Js.isNullish] at hseen
      | some m =>
        obtain ⟨hm, hclear, -⟩ := hst.seen m hmax
        have hmi : m = i := by simpa [hmax, indexText_str hm] using hseen
        rw [hdi, ← hmi]
        exact ⟨hm, hclear⟩
  · rcases List.mem_append.1 hx with hx | hx
    · exact h.closed x hx
    · rw [List.mem_singleton.1 hx]
      exact ⟨by simpa using hqueued, hst.ended, c, hc, hbelow⟩

/-- The next subscription is sent, or the catch-up ends. -/
theorem nextCatchUp_inv (h : HistoryInv s) (hst : CatchUpCore s st)
    (hqueued : st.queued = st.ended.map (fun e => e.1.sub) ++ st.queue) :
    CatchUpInv (s.nextCatchUp st) := by
  unfold nextCatchUp
  split
  · next hq => exact finishCatchUp_inv h hst (by simpa [hq] using hqueued)
  · next sub queue hq =>
    have hnext : CatchUpCore s { st with queue, current := ⟨sub, 0, "", .null, 0⟩ } :=
      ⟨hst.started, hst.index, hst.below, hst.clear, hst.seen, hst.ended⟩
    refine sendCatchUp_inv h hnext (fun i hi => ?_) (by simpa [hq] using hqueued)
    rw [indexText_str hst.index] at hi
    cases hi
    exact hst.clear

/-- A refused subscription ends with the event that names it. -/
theorem refuseCatchUp_inv (h : HistoryInv s) (hst : CatchUpCore s st)
    (hqueued : st.queued = st.ended.map (fun e => e.1.sub) ++ st.current.sub :: st.queue)
    (code message detail : Js) : CatchUpInv (s.refuseCatchUp st code message detail) := by
  unfold refuseCatchUp
  refine nextCatchUp_inv (h.congr rfl rfl rfl (List.subset_append_left _ _) rfl) ?_
    (by simpa [endCurrent] using hqueued)
  obtain ⟨hstarted, hindex, hbelow, hclear, hseen, hended⟩ := hst.emit
    (.resyncRequired (code.or .null) (message.or .null) st.current.sub.channels st.current.since
      (detail.field "fork_block_index") (detail.field "first_invalid_action_index"))
  refine ⟨hstarted, hindex, hbelow, hclear, hseen, fun e he => ?_⟩
  rcases List.mem_append.1 he with he | he
  · exact hended e he
  · rw [List.mem_singleton.1 he]
    exact ⟨by simp, _, _, _, _, rfl⟩

/-- A catch-up that is dropped leaves the cursor where it is. -/
theorem dropCatchUp_inv (h : CatchUpInv s) : CatchUpInv s.dropCatchUp := by
  unfold dropCatchUp
  split
  · exact h
  · next st hst =>
    have hrun := h.running st hst
    refine ⟨⟨h.unseeded, h.cursor, h.sent, fun x hx => ?_⟩, fun _ h => nomatch h⟩
    rcases List.mem_append.1 hx with hx | hx
    · exact h.closed x hx
    · rw [List.mem_singleton.1 hx]
      exact ⟨hrun.queued, hrun.ended, hrun.below⟩

theorem catchUp_dropCatchUp : s.dropCatchUp.catchUp = none := by
  unfold dropCatchUp
  split
  · next hst => exact hst
  · rfl

theorem resumeCursor_eq_some {c : String} (h : s.resumeCursor = some c) :
    s.lastActionIndex = some c := by
  unfold resumeCursor at h
  split at h
  · next c' hc =>
    split_ifs at h
    cases h
    exact hc
  · cases h

theorem lastActionIndex_dropCatchUp : s.dropCatchUp.lastActionIndex = s.lastActionIndex := by
  unfold dropCatchUp
  split <;> rfl

theorem lastActionIndex_resubscribe : s.resubscribe.lastActionIndex = s.lastActionIndex := by
  have hdrop := lastActionIndex_dropCatchUp (s := s)
  unfold resubscribe
  dsimp only
  split
  · exact hdrop
  · split <;> exact hdrop

theorem received_dropCatchUp : s.dropCatchUp.received = s.received := by
  unfold dropCatchUp
  split <;> rfl

theorem received_resubscribe : s.resubscribe.received = s.received := by
  have hdrop := received_dropCatchUp (s := s)
  unfold resubscribe
  dsimp only
  split
  · exact hdrop
  · split <;> exact hdrop

/-- A reconnect with a cursor queues every tracked subscription that needs a catch-up. -/
theorem queued_resubscribe {c : String} (hc : s.lastActionIndex = some c) (hpos : 0 < indexValue c)
    (hsubs : (s.subscriptions.filter fun sub => needsCatchUp sub.channels) ≠ []) :
    ∃ st, s.resubscribe.catchUp = some st ∧ st.cursor = c ∧
      st.queued = s.subscriptions.filter fun sub => needsCatchUp sub.channels := by
  have hlast : s.dropCatchUp.lastActionIndex = some c := by rw [lastActionIndex_dropCatchUp, hc]
  have hdrop : s.dropCatchUp.subscriptions = s.subscriptions := by
    unfold dropCatchUp
    split <;> rfl
  have hcursor : s.dropCatchUp.resumeCursor = some c := by simp [resumeCursor, hlast, hpos]
  simp only [resubscribe, hcursor, hdrop]
  split
  · next hq => exact absurd hq hsubs
  · exact ⟨_, rfl, rfl, rfl⟩

/-- A reconnect starts from the cursor, which is clear. -/
theorem resubscribe_inv (h : CatchUpInv s) : CatchUpInv s.resubscribe := by
  have hdrop := dropCatchUp_inv h
  have hnone := catchUp_dropCatchUp (s := s)
  simp only [resubscribe]
  generalize s.dropCatchUp = t at hdrop hnone ⊢
  have hquiet (n : ℕ) : CatchUpInv { t with nextId := n } :=
    ⟨hdrop.toHistoryInv.congr rfl rfl rfl (List.Subset.refl _) rfl,
      fun st hst => by rw [hnone] at hst; cases hst⟩
  cases hcursor : t.resumeCursor with
  | none => exact hquiet _
  | some cursor =>
    have hlast := resumeCursor_eq_some hcursor
    obtain ⟨hindex, hclear⟩ := hdrop.cursor cursor hlast
    dsimp only
    generalize hq : (t.subscriptions.filter fun sub => needsCatchUp sub.channels) = queued
    cases queued with
    | nil => exact hquiet _
    | cons sub queue =>
      refine sendCatchUp_inv (hquiet _).toHistoryInv ?_ (fun i hi => ?_) (by simp)
      · exact ⟨le_rfl, hindex, ⟨cursor, hlast, le_rfl⟩, hclear, fun c hc => (nomatch hc),
          fun e he => (nomatch he)⟩
      · rw [indexText_str hindex] at hi
        cases hi
        exact hclear

/-- The timer sends the pending request again, or gives it up. -/
theorem fireTimer_inv (h : CatchUpInv s) : CatchUpInv s.fireTimer := by
  unfold fireTimer
  split
  · exact h
  · next st hst =>
    have hrun := h.running st hst
    split
    · exact refuseCatchUp_inv h.toHistoryInv hrun.toCatchUpCore hrun.queued _ _ _
    · next since hr =>
      rw [hrun.retry since hr]
      exact sendCatchUp_inv h.toHistoryInv hrun.toCatchUpCore hrun.since hrun.queued

/-- What one frame does to the cursor, or to the index that the running catch-up has noted. -/
inductive Tracked (s : CatchUpClient) (msg : Js) : CatchUpClient → Prop
  | ignored (hroll : rollback msg = none) (hseeded : s.lastActionIndex = none → ¬ Names msg) :
      Tracked s msg s
  | seeded {i : String} (hi : seedText msg = some i) (hnone : s.lastActionIndex = none) :
      Tracked s msg { s with lastActionIndex := some i }
  | rolled (hdata : (msg.field "data").truthy = true) (htype : msg.field "type" = .str "REORG") :
      Tracked s msg { s with
        lastActionIndex := belowIndex s.lastActionIndex
          ((msg.field "data").field "first_invalid_action_index")
        catchUp := s.catchUp.map fun st => { st with
          maxSeen := belowIndex st.maxSeen
            ((msg.field "data").field "first_invalid_action_index") } }
  | noted {st : CatchUp} {i : String} (hst : s.catchUp = some st) (hi : deliveredText msg = some i) :
      Tracked s msg { s with catchUp := some { st with maxSeen := some i } }
  | advanced {i : String} (hst : s.catchUp = none) (hi : deliveredText msg = some i)
      (hup : ∀ c, s.lastActionIndex = some c → indexValue c < indexValue i) :
      Tracked s msg { s with lastActionIndex := some i }

theorem Tracked.received (h : Tracked s msg s') : s'.received = s.received := by
  cases h <;> rfl

/-- A frame that is not tracked rolls nothing back, and names nothing that an unseeded client would
take as its cursor. -/
theorem trackCursor_tracked (hseeded : s.catchUp ≠ none → s.lastActionIndex ≠ none) :
    Tracked s msg (s.trackCursor msg) := by
  unfold trackCursor
  cases hdata : (msg.field "data").truthy with
  | false =>
    exact .ignored (by simp [rollback, hdata]) fun _ => by simp [Names, deliveredText, seedText, hdata]
  | true =>
    simp only [Bool.true_eq_false, if_false]
    split
    · next htype =>
      -- WELCOME seeds a cursor that is not set.
      have hroll : rollback msg = none := by simp [rollback, htype, Js.str?]
      have hdelivered : deliveredText msg = none := by
        simp [deliveredText, deliveredIndex, htype]
      have hseed : seedText msg = indexText ((msg.field "data").field "latest_action_index") := by
        simp [seedText, hdata, htype, Js.str?]
      split
      · next hnone =>
        unfold advanceCursor
        rcases maxIndex_cases s.lastActionIndex ((msg.field "data").field "latest_action_index")
          with ⟨hsame, hlow⟩ | ⟨i, hi, hmax, -⟩
        · rw [hsame]
          refine .ignored hroll fun _ => ?_
          rintro (hd | hs)
          · exact hd hdelivered
          · obtain ⟨i, hi⟩ := Option.ne_none_iff_exists'.1 hs
            obtain ⟨v, hv, -⟩ := hlow i (hseed ▸ hi)
            rw [hnone] at hv
            cases hv
        · rw [hmax]
          exact .seeded (hseed ▸ hi) hnone
      · next c hc => exact .ignored hroll fun hnone => by rw [hnone] at hc; cases hc
    -- REORG lowers both cursors.
    · next htype => exact .rolled hdata htype
    · next hwelcome hreorg =>
      -- Any other frame carries an index or none; during catch-up it moves `maxSeen` only.
      have hroll : rollback msg = none := by
        rw [rollback, if_neg]
        rintro ⟨-, hr⟩
        exact hreorg (by cases ht : msg.field "type" <;> simp_all [Js.str?])
      have hseed : seedText msg = none := by
        rw [seedText, if_neg]
        rintro ⟨-, hr⟩
        exact hwelcome (by cases ht : msg.field "type" <;> simp_all [Js.str?])
      have hdelivered : deliveredText msg = (deliveredIndex msg).bind indexText := by
        simp [deliveredText, hdata]
      split
      · next hnone =>
        exact .ignored hroll fun _ => by simp [Names, hdelivered, hnone, hseed]
      · next raw st hraw hst =>
        rcases maxIndex_cases st.maxSeen raw with ⟨hsame, -⟩ | ⟨i, hi, hmax, -⟩
        · rw [hsame]
          have hs : { s with catchUp := some { st with maxSeen := st.maxSeen } } = s := by
            rw [← hst]
          rw [hs]
          exact .ignored hroll fun hnone => absurd hnone (hseeded (by simp [hst]))
        · rw [hmax]
          exact .noted hst (by rw [hdelivered, hraw]; exact hi)
      · next raw hraw hst =>
        unfold advanceCursor
        rcases maxIndex_cases s.lastActionIndex raw with ⟨hsame, hlow⟩ | ⟨i, hi, hmax, hup⟩
        · rw [hsame]
          refine .ignored hroll fun hnone => ?_
          rintro (hd | hs)
          · obtain ⟨i, hi⟩ := Option.ne_none_iff_exists'.1 hd
            rw [hdelivered, hraw] at hi
            obtain ⟨v, hv, -⟩ := hlow i hi
            rw [hnone] at hv
            cases hv
          · exact hs hseed
        · rw [hmax]
          exact .advanced hst (by rw [hdelivered, hraw]; exact hi) hup

/-- What was sent and closed before a frame says nothing about it. -/
theorem HistoryInv.receive (h : HistoryInv s) {last : Option String} {run : Option CatchUp}
    (hunseeded : last = none → ∀ m ∈ s.received ++ [msg], ¬ Names m)
    (hcursor : ∀ c, last = some c → isIndex c = true ∧
      ClearFrom (s.received ++ [msg]) (s.received ++ [msg]).length (indexValue c)) :
    HistoryInv { s with
      received := s.received ++ [msg], lastActionIndex := last, catchUp := run } := by
  refine ⟨hunseeded, hcursor, fun x hx => ?_, fun x hx => ?_⟩
  · obtain ⟨hle, hclear⟩ := h.sent x hx
    refine ⟨by simpa using hle.trans (Nat.le_succ _), fun i hi => ?_⟩
    rw [List.take_append_of_le_length hle]
    exact hclear i hi
  · obtain ⟨hqueued, hended, hbelow⟩ := h.closed x hx
    exact ⟨hqueued, fun e he => (hended e he).mono (List.subset_append_left _ _)
      (List.Subset.refl _), hbelow⟩

/-- A catch-up that runs while a frame arrives, with what it notes of the frame. -/
theorem RunningInv.receive (h : RunningInv s st) {last : Option String} {max : Option String}
    {run : Option CatchUp}
    (hbelow : ∃ c, last = some c ∧ indexValue c ≤ indexValue st.cursor)
    (hseen : ∀ c, max = some c → isIndex c = true ∧
      ClearFrom (s.received ++ [msg]) (s.received ++ [msg]).length (indexValue c) ∧
      Seen (s.received.drop st.started ++ [msg]) c) :
    RunningInv { s with
      received := s.received ++ [msg], lastActionIndex := last, catchUp := run }
      { st with maxSeen := max } := by
  refine ⟨⟨?_, h.index, hbelow, h.clear.append h.started, fun c hc => ?_, fun e he => ?_⟩,
    fun i hi => (h.since i hi).append h.started, h.retry, h.queued⟩
  · exact h.started.trans (by simp)
  · rw [List.drop_append_of_le_length h.started]
    exact hseen c hc
  · exact (h.ended e he).mono (List.subset_append_left _ _) (List.Subset.refl _)

/-- A frame that rolls nothing back leaves what was noted. -/
theorem RunningInv.seen_append (h : RunningInv s st) (hroll : rollback msg = none) (c : String)
    (hc : st.maxSeen = some c) : isIndex c = true ∧
      ClearFrom (s.received ++ [msg]) (s.received ++ [msg]).length (indexValue c) ∧
      Seen (s.received.drop st.started ++ [msg]) c := by
  obtain ⟨hindex, hclear, hseen⟩ := h.seen c hc
  exact ⟨hindex, hclear.append_all (by simp [hroll]), hseen.append⟩

theorem HistoryInv.cursor_append (h : HistoryInv s) (hroll : rollback msg = none) (c : String)
    (hc : s.lastActionIndex = some c) : isIndex c = true ∧
      ClearFrom (s.received ++ [msg]) (s.received ++ [msg]).length (indexValue c) :=
  ⟨(h.cursor c hc).1, (h.cursor c hc).2.append_all (by simp [hroll])⟩

/-- One frame keeps the invariant. -/
theorem tracked_inv (h : CatchUpInv s)
    (ht : Tracked { s with received := s.received ++ [msg] } msg s') : CatchUpInv s' := by
  cases ht with
  | ignored hroll hseeded =>
    refine ⟨h.receive (fun hnone m hm => ?_) (h.cursor_append hroll), fun st hst => ?_⟩
    · rcases List.mem_append.1 hm with hm | hm
      · exact h.unseeded hnone m hm
      · rw [List.mem_singleton.1 hm]
        exact hseeded hnone
    · have hrun := h.running st hst
      exact hrun.receive hrun.below (hrun.seen_append hroll)
  | @seeded i hi hnone =>
    refine ⟨h.receive (fun hn => nomatch hn) (fun c hc => ?_), fun st hst => ?_⟩
    · cases hc
      exact ⟨isIndex_of_seedText hi,
        ClearFrom.unseeded (h.unseeded hnone) (rollback_of_seedText hi)⟩
    · obtain ⟨c, hc, -⟩ := (h.running st hst).below
      rw [show s.lastActionIndex = none from hnone] at hc
      cases hc
  | rolled hdata htype =>
    -- A rollback frame is not itself an index that the cursor could take.
    have hnames : ¬ Names msg := by
      rintro (hd | hs)
      · obtain ⟨i, hi⟩ := Option.ne_none_iff_exists'.1 hd
        simp [deliveredText, deliveredIndex, htype] at hi
      · obtain ⟨i, hi⟩ := Option.ne_none_iff_exists'.1 hs
        simp [seedText, htype, Js.str?] at hi
    refine ⟨h.receive (fun hn m hm => ?_) (fun c hc => ?_), fun st hst => ?_⟩
    · rcases List.mem_append.1 hm with hm | hm
      · refine h.unseeded ?_ m hm
        rcases belowIndex_cases hdata htype s.lastActionIndex with ⟨hsame, -⟩ | ⟨_, _, _, _, _, hlow⟩
        · rw [← hsame]
          exact hn
        · rw [show belowIndex _ _ = none from hn] at hlow
          cases hlow
      · rw [List.mem_singleton.1 hm]
        exact hnames
    -- The cursor is lowered below the rollback, or was below it already.
    · rcases belowIndex_cases hdata htype s.lastActionIndex with
        ⟨hsame, hlt⟩ | ⟨v, f, hv, hf, hle, hlow⟩
      · have hc' : s.lastActionIndex = some c := hsame.symm.trans hc
        exact ⟨(h.cursor c hc').1, (h.cursor c hc').2.append_all fun f hf => hlt c f hc' hf⟩
      · cases hlow.symm.trans hc
        refine ⟨isIndex_toString _, ?_⟩
        rw [indexValue_toString]
        refine ((h.cursor v hv).2.lower (by omega)).append_all fun g hg => ?_
        cases hf.symm.trans hg
        have hpos : f ≠ 0 := rollback_ne_zero hf
        omega
    · obtain ⟨st₀, hst₀, rfl⟩ := Option.map_eq_some_iff.1 hst
      have hrun := h.running st₀ hst₀
      -- The same for the run under way: its floor by the cursor, then its highest index.
      refine hrun.receive ?_ fun c hc => ?_
      · obtain ⟨c, hc, hbelow⟩ := hrun.below
        rcases belowIndex_cases hdata htype s.lastActionIndex with
          ⟨hsame, -⟩ | ⟨v, f, hv, -, hle, hlow⟩
        · exact ⟨c, hsame.trans hc, hbelow⟩
        · cases hc.symm.trans hv
          exact ⟨_, hlow, by rw [indexValue_toString]; omega⟩
      · rcases belowIndex_cases hdata htype st₀.maxSeen with
          ⟨hsame, hlt⟩ | ⟨v, f, hv, hf, hle, hlow⟩
        · have hc' : st₀.maxSeen = some c := hsame.symm.trans hc
          obtain ⟨hindex, hclear, hseen⟩ := hrun.seen c hc'
          exact ⟨hindex, hclear.append_all fun f hf => hlt c f hc' hf, hseen.append⟩
        · cases hlow.symm.trans hc
          obtain ⟨-, hclear, hseen⟩ := hrun.seen v hv
          refine ⟨isIndex_toString _, ?_, hseen.rollback hf hle⟩
          rw [indexValue_toString]
          refine (hclear.lower (by omega)).append_all fun g hg => ?_
          cases hf.symm.trans hg
          have hpos : f ≠ 0 := rollback_ne_zero hf
          omega
  | @noted st i hst hi =>
    have hroll := rollback_of_deliveredText hi
    have hrun := h.running st hst
    refine ⟨h.receive (fun hn => ?_) (h.cursor_append hroll), fun st' hst' => ?_⟩
    · obtain ⟨c, hc, -⟩ := hrun.below
      rw [show s.lastActionIndex = none from hn] at hc
      cases hc
    · cases hst'
      refine hrun.receive hrun.below fun c hc => ?_
      cases hc
      exact ⟨isIndex_of_deliveredText hi, ClearFrom.delivered hi, Seen.delivered hi⟩
  | @advanced i hst hi hup =>
    refine ⟨h.receive (fun hn => nomatch hn) (fun c hc => ?_), fun st' hst' => ?_⟩
    · cases hc
      exact ⟨isIndex_of_deliveredText hi, ClearFrom.delivered hi⟩
    · rw [show s.catchUp = none from hst] at hst'
      cases hst'

theorem markCatchingUp_eq (s : CatchUpClient) (msg : Js) :
    ∃ b, s.markCatchingUp msg = { s with catchingUp := b } := by
  unfold markCatchingUp
  split_ifs
  · exact ⟨_, rfl⟩
  · exact ⟨_, rfl⟩
  · exact ⟨_, rfl⟩
  · exact ⟨s.catchingUp, rfl⟩

/-- A truncated answer names the index that the next round is asked from. -/
theorem deliveredText_of_truncated {i : String} (htype : msg.field "type" = .str "CATCH_UP_COMPLETE")
    (htruncated : isTrue ((msg.field "data").field "truncated") = true)
    (hi : indexText ((msg.field "data").field "latest_action_index") = some i) :
    deliveredText msg = some i := by
  have hdata : (msg.field "data").truthy = true := by
    generalize msg.field "data" = data at htruncated
    cases data with
    | obj fields => rfl
    | arr xs => rfl
    | _ => simp [CatchUpClient.isTrue, Js.field, Js.get] at htruncated
  simp [deliveredText, hdata, deliveredIndex, htype, hi]

theorem RunningInv.nextRound (h : RunningInv s st) :
    RunningInv s { st with current := { st.current with rounds := st.current.rounds + 1 } } :=
  ⟨⟨h.started, h.index, h.below, h.clear, h.seen, h.ended⟩, h.since, h.retry, h.queued⟩

/-- An answer keeps the invariant: the next round is asked from an index that was just delivered. -/
theorem answerCatchUp_inv (h : CatchUpInv s) (hmsg : msg ∈ s.received)
    (hdelivered : ∀ i, deliveredText msg = some i →
      ClearFrom s.received s.received.length (indexValue i)) :
    CatchUpInv (s.answerCatchUp msg) := by
  unfold answerCatchUp
  split
  · next st id hst hid htype =>
    have hrun := h.running st hst
    split_ifs with hne
    · exact h
    · dsimp only
      split_ifs
      · refine ⟨h.toHistoryInv.congr rfl rfl rfl (List.Subset.refl _) rfl, fun st' hst' => ?_⟩
        cases hst'
        exact ⟨⟨hrun.started, hrun.index, hrun.below, hrun.clear, hrun.seen, hrun.ended⟩,
          hrun.since, fun since hr => by cases hr; rfl, hrun.queued⟩
      · exact refuseCatchUp_inv h.toHistoryInv hrun.toCatchUpCore hrun.queued _ _ _
  · next st id hst hid htype =>
    have hrun := h.running st hst
    split_ifs with hne
    · exact h
    · dsimp only
      split_ifs with htruncated hrounds
      · exact refuseCatchUp_inv h.toHistoryInv hrun.nextRound.toCatchUpCore hrun.nextRound.queued
          _ _ _
      · refine sendCatchUp_inv h.toHistoryInv hrun.nextRound.toCatchUpCore (fun i hi => ?_)
          hrun.nextRound.queued
        exact (hdelivered i (deliveredText_of_truncated htype htruncated.1 hi)).mono hrun.started
      · -- the round is final, and ends the subscription
        refine nextCatchUp_inv (h.toHistoryInv.congr rfl rfl rfl (List.subset_append_left _ _) rfl)
          ⟨hrun.started, hrun.index, hrun.below, hrun.clear, hrun.seen, fun e he => ?_⟩
          (by simpa [endCurrent] using hrun.queued)
        rcases List.mem_append.1 he with he | he
        · exact (hrun.ended e he).mono (List.Subset.refl _) (List.subset_append_left _ _)
        · rw [List.mem_singleton.1 he]
          refine ⟨hmsg, by rw [hid, not_not.1 hne], htype, ?_⟩
          rw [not_and_or] at htruncated
          rcases htruncated with ht | ht
          · exact .inl (by simpa using ht)
          · exact .inr (by simpa using ht)
  · exact h

/-- A client whose catch-up runs has a cursor. -/
theorem CatchUpInv.seeded_of_running (h : CatchUpInv s) (hne : s.catchUp ≠ none) :
    s.lastActionIndex ≠ none := by
  intro hnone
  obtain ⟨st, hst⟩ := Option.ne_none_iff_exists'.1 hne
  obtain ⟨c, hc, -⟩ := (h.running st hst).below
  rw [hnone] at hc
  cases hc

/-- The flag that the client shows is none of the invariant. -/
theorem CatchUpInv.mark (h : CatchUpInv s) (b : Bool) : CatchUpInv { s with catchingUp := b } := by
  refine ⟨h.toHistoryInv.congr rfl rfl rfl (List.Subset.refl _) rfl, fun st hst => ?_⟩
  obtain ⟨⟨h1, h2, h3, h4, h5, h6⟩, h7, h8, h9⟩ := h.running st hst
  exact ⟨⟨h1, h2, h3, h4, h5, h6⟩, h7, h8, h9⟩

theorem onMessage_inv (h : CatchUpInv s) (msg : Js) : CatchUpInv (s.onMessage msg) := by
  have hseeded := h.seeded_of_running
  have htracked : Tracked { s with received := s.received ++ [msg] } msg
      ({ s with received := s.received ++ [msg] }.trackCursor msg) := trackCursor_tracked hseeded
  have hreceived : ({ s with received := s.received ++ [msg] }.trackCursor msg).received
      = s.received ++ [msg] := htracked.received
  have hinv := tracked_inv h htracked
  unfold onMessage
  generalize { s with received := s.received ++ [msg] }.trackCursor msg = t at hreceived hinv ⊢
  obtain ⟨b, hb⟩ := markCatchingUp_eq t msg
  rw [hb]
  refine answerCatchUp_inv (hinv.mark b) (by simp [hreceived]) fun i hi => ?_
  change ClearFrom t.received t.received.length _
  rw [hreceived]
  exact ClearFrom.delivered hi

theorem catchUpStep_inv (h : CatchUpInv s) (op : CatchUpOp) : CatchUpInv (catchUpStep s op) := by
  cases op with
  | frame msg => exact onMessage_inv h msg
  | timer => exact fireTimer_inv h
  | close => exact dropCatchUp_inv h
  | reconnected => exact resubscribe_inv h
  | track subs requests =>
    refine ⟨h.toHistoryInv.congr rfl rfl rfl (List.Subset.refl _) rfl, fun st hst => ?_⟩
    obtain ⟨⟨h1, h2, h3, h4, h5, h6⟩, h7, h8, h9⟩ := h.running st hst
    exact ⟨⟨h1, h2, h3, h4, h5, h6⟩, h7, h8, h9⟩

theorem catchUpInv_new : CatchUpInv .new :=
  ⟨⟨fun _ _ h => (nomatch h), fun _ h => (nomatch h), fun _ h => (nomatch h),
    fun _ h => (nomatch h)⟩, fun _ h => nomatch h⟩

theorem catchUpRun_inv (ops : List CatchUpOp) : CatchUpInv (catchUpRun ops) := by
  have hrun : Runs.Along catchUpStep (fun _ _ => True) .new ops := Runs.along_true
  exact hrun.inv (fun _ op h _ => catchUpStep_inv h op) catchUpInv_new

/-! ### Where the cursor moves -/

/-- How one event moves the cursor. -/
inductive CursorStep (s : CatchUpClient) (op : CatchUpOp) (s' : CatchUpClient) (c : String) : Prop
  /-- a frame that seeds it, or names a higher index while no catch-up runs -/
  | named {msg : Js} (hop : op = .frame msg) (hrunning : s.catchUp = none)
      (hnames : deliveredText msg = some c ∨ (s.lastActionIndex = none ∧ seedText msg = some c))
      (hup : ∀ d, s.lastActionIndex = some d → indexValue d < indexValue c)
  /-- a rollback, to just below it -/
  | rolled {msg : Js} {d : String} {f : ℕ} (hop : op = .frame msg) (hf : rollback msg = some f)
      (hd : s.lastActionIndex = some d) (hle : f ≤ indexValue d) (hc : c = toString (f - 1))
  /-- the end of a catch-up all of whose subscriptions ended, to what it saw -/
  | finished {st : CatchUp} {x : ClosedCatchUp} {d : String} (hst : s.catchUp = some st)
      (hclosed : s'.closed = s.closed ++ [x]) (hx : x.dropped = [])
      (hd : s.lastActionIndex = some d) (hup : indexValue d < indexValue c)
      (hseen : Seen (s'.received.drop st.started) c)

/-- The cursor stays, or the catch-up ends with all of its subscriptions and applies what it saw. -/
def Finishes (s : CatchUpClient) (st : CatchUp) (s' : CatchUpClient) : Prop :=
  s'.received = s.received ∧ (s'.lastActionIndex = s.lastActionIndex ∨
    ∃ x i, s'.closed = s.closed ++ [x] ∧ x.dropped = [] ∧ st.maxSeen = some i ∧
      s'.lastActionIndex = some i ∧ ∀ v, s.lastActionIndex = some v → indexValue v < indexValue i)

theorem nextCatchUp_finishes (s : CatchUpClient) (st : CatchUp) :
    Finishes s st (s.nextCatchUp st) := by
  unfold nextCatchUp
  split
  · refine ⟨rfl, ?_⟩
    rcases maxIndex_cases s.lastActionIndex ((st.maxSeen.map Js.str).getD .null) with
      ⟨hsame, -⟩ | ⟨i, hi, hmax, hup⟩
    · exact .inl hsame
    · refine .inr ⟨_, i, rfl, rfl, ?_, hmax, hup⟩
      cases hm : st.maxSeen with
      | none => simp [hm, indexText, Js.isNullish] at hi
      | some m =>
        simp only [hm, Option.map_some, Option.getD_some, indexText, Js.isNullish, Js.toText,
          Bool.false_eq_true, if_false] at hi
        split_ifs at hi
        exact hi
  · exact ⟨rfl, .inl rfl⟩

theorem refuseCatchUp_finishes (s : CatchUpClient) (st : CatchUp) (code message detail : Js) :
    Finishes s st (s.refuseCatchUp st code message detail) :=
  nextCatchUp_finishes { s with emitted := _ } (endCurrent st _)

theorem answerCatchUp_finishes (hst : s.catchUp = some st) (msg : Js) :
    Finishes s st (s.answerCatchUp msg) := by
  unfold answerCatchUp
  split
  · next st' id hst' _ _ =>
    cases hst.symm.trans hst'
    split_ifs
    · exact ⟨rfl, .inl rfl⟩
    · dsimp only
      split_ifs
      · exact ⟨rfl, .inl rfl⟩
      · exact refuseCatchUp_finishes _ _ _ _ _
  · next st' id hst' _ _ =>
    cases hst.symm.trans hst'
    split_ifs
    · exact ⟨rfl, .inl rfl⟩
    · dsimp only
      split_ifs
      · exact refuseCatchUp_finishes s { st with current := _ } _ _ _
      · exact ⟨rfl, .inl rfl⟩
      · exact nextCatchUp_finishes { s with emitted := _ } (endCurrent st _)
  · exact ⟨rfl, .inl rfl⟩

theorem fireTimer_finishes (hst : s.catchUp = some st) : Finishes s st s.fireTimer := by
  unfold fireTimer
  rw [hst]
  dsimp only
  split
  · exact refuseCatchUp_finishes _ _ _ _ _
  · exact ⟨rfl, .inl rfl⟩

theorem answerCatchUp_eq_self (h : s.catchUp = none ∨ msg.field "type" = .str "REORG") :
    s.answerCatchUp msg = s := by
  unfold answerCatchUp
  split
  · next hst _ htype => rcases h with h | h <;> simp_all
  · next hst _ htype => rcases h with h | h <;> simp_all
  · rfl

/-- An index that a catch-up applies when it ends. -/
theorem cursorStep_of_finishes {t : CatchUpClient} {st st' : CatchUp} {op : CatchUpOp} {c : String}
    (ht : CatchUpInv t) (hst : s.catchUp = some st) (hlast : t.lastActionIndex = s.lastActionIndex)
    (hclosed : t.closed = s.closed) (hstarted : st'.started = st.started)
    (hst' : t.catchUp = some st') (hfin : Finishes t st' s') (hc : s'.lastActionIndex = some c)
    (hne : s.lastActionIndex ≠ some c) : CursorStep s op s' c := by
  obtain ⟨hreceived, hsame | ⟨x, i, hx, hdropped, hmax, hi, hup⟩⟩ := hfin
  · exact absurd (hlast.symm.trans (hsame.symm.trans hc)) hne
  · cases hi.symm.trans hc
    have hrun := ht.running st' hst'
    obtain ⟨d, hd, -⟩ := hrun.below
    refine .finished hst (by rw [hx, hclosed]) hdropped (hlast.symm.trans hd) (hup d hd) ?_
    rw [hreceived, ← hstarted]
    exact (hrun.seen c hmax).2.2

theorem received_fireTimer : s.fireTimer.received = s.received := by
  cases hst : s.catchUp with
  | none => simp [fireTimer, hst]
  | some st => exact (fireTimer_finishes hst).1

theorem received_onMessage (h : CatchUpInv s) (msg : Js) :
    (s.onMessage msg).received = s.received ++ [msg] := by
  have htracked : Tracked { s with received := s.received ++ [msg] } msg
      ({ s with received := s.received ++ [msg] }.trackCursor msg) :=
    trackCursor_tracked h.seeded_of_running
  have hreceived := htracked.received
  unfold onMessage
  generalize { s with received := s.received ++ [msg] }.trackCursor msg = t at hreceived ⊢
  obtain ⟨b, hb⟩ := markCatchingUp_eq t msg
  rw [hb]
  by_cases hno : t.catchUp = none
  · have hno' : { t with catchingUp := b }.catchUp = none ∨ msg.field "type" = .str "REORG" :=
      .inl hno
    rw [answerCatchUp_eq_self hno']
    exact hreceived
  · obtain ⟨st, hst⟩ := Option.ne_none_iff_exists'.1 hno
    have hrun : { t with catchingUp := b }.catchUp = some st := hst
    exact (answerCatchUp_finishes hrun msg).1.trans hreceived

/-- **What moves the cursor in one event.** -/
theorem cursorStep (h : CatchUpInv s) (op : CatchUpOp) {c : String}
    (hc : (catchUpStep s op).lastActionIndex = some c) (hne : s.lastActionIndex ≠ some c) :
    CursorStep s op (catchUpStep s op) c := by
  cases op with
  | frame msg =>
    have hseeded := h.seeded_of_running
    have htracked : Tracked { s with received := s.received ++ [msg] } msg
        ({ s with received := s.received ++ [msg] }.trackCursor msg) := trackCursor_tracked hseeded
    have hinv := tracked_inv h htracked
    change (s.onMessage msg).lastActionIndex = some c at hc
    change CursorStep s _ (s.onMessage msg) c
    unfold onMessage at hc ⊢
    generalize { s with received := s.received ++ [msg] }.trackCursor msg = t at htracked hinv hc ⊢
    obtain ⟨b, hb⟩ := markCatchingUp_eq t msg
    rw [hb] at hc ⊢
    have hinv' : CatchUpInv { t with catchingUp := b } := hinv.mark b
    -- Without a run, or on a REORG, the answer to the frame leaves the cursor alone.
    have hquiet (hno : t.catchUp = none ∨ msg.field "type" = .str "REORG") :
        ({ t with catchingUp := b }.answerCatchUp msg).lastActionIndex = t.lastActionIndex := by
      have hno' : { t with catchingUp := b }.catchUp = none ∨ msg.field "type" = .str "REORG" := hno
      rw [answerCatchUp_eq_self hno']
    -- With a run, only its end moves the cursor.
    have hfinish {st st' : CatchUp} (hst : s.catchUp = some st)
        (hlast : t.lastActionIndex = s.lastActionIndex) (hclosed : t.closed = s.closed)
        (hst' : t.catchUp = some st') (hstarted : st'.started = st.started) :
        CursorStep s (.frame msg) ({ t with catchingUp := b }.answerCatchUp msg) c := by
      have hrun : { t with catchingUp := b }.catchUp = some st' := hst'
      exact cursorStep_of_finishes hinv' hst hlast hclosed hstarted hrun
        (answerCatchUp_finishes hrun msg) hc hne
    cases htracked with
    | ignored hroll hno =>
      by_cases hno : s.catchUp = none
      · exact absurd ((hquiet (.inl hno)).symm.trans hc) hne
      · obtain ⟨st, hst⟩ := Option.ne_none_iff_exists'.1 hno
        exact hfinish hst rfl rfl hst rfl
    | @seeded i hi hnone =>
      have hst : s.catchUp = none := by
        by_contra hrun
        exact hseeded hrun hnone
      cases (hquiet (.inl hst)).symm.trans hc
      exact .named rfl hst (.inr ⟨hnone, hi⟩) fun d hd => by
        rw [show s.lastActionIndex = none from hnone] at hd
        cases hd
    | rolled hdata htype =>
      have hlast := (hquiet (.inr htype)).symm.trans hc
      rcases belowIndex_cases hdata htype s.lastActionIndex with
        ⟨hsame, -⟩ | ⟨v, f, hv, hf, hle, hlow⟩
      · exact absurd (hsame.symm.trans hlast) hne
      · cases hlow.symm.trans hlast
        exact .rolled rfl hf hv hle rfl
    | @noted st i hst hi =>
      exact hfinish hst rfl rfl rfl rfl
    | @advanced i hst hi hup =>
      cases (hquiet (.inl hst)).symm.trans hc
      exact .named rfl hst (.inl hi) hup
  | timer =>
    change s.fireTimer.lastActionIndex = some c at hc
    cases hst : s.catchUp with
    | none =>
      simp only [fireTimer, hst] at hc
      exact absurd hc hne
    | some st => exact cursorStep_of_finishes h hst rfl rfl rfl hst (fireTimer_finishes hst) hc hne
  | close =>
    change s.dropCatchUp.lastActionIndex = some c at hc
    rw [lastActionIndex_dropCatchUp] at hc
    exact absurd hc hne
  | reconnected =>
    change s.resubscribe.lastActionIndex = some c at hc
    rw [lastActionIndex_resubscribe] at hc
    exact absurd hc hne
  | track subs requests => exact absurd hc hne

end Steps

/-- The frames of a run are received in their order. -/
theorem catchUpRun_received (ops : List CatchUpOp) :
    (catchUpRun ops).received = ops.filterMap CatchUpOp.frame? := by
  induction ops using List.reverseRecOn with
  | nil => rfl
  | append_singleton ops op ih =>
    have hstep : catchUpRun (ops ++ [op]) = catchUpStep (catchUpRun ops) op := by simp [catchUpRun]
    rw [hstep, List.filterMap_append, ← ih]
    cases op with
    | frame msg => exact received_onMessage (catchUpRun_inv ops) msg
    | timer =>
      change (catchUpRun ops).fireTimer.received = _
      rw [received_fireTimer]
      simp [CatchUpOp.frame?]
    | close =>
      change (catchUpRun ops).dropCatchUp.received = _
      rw [received_dropCatchUp]
      simp [CatchUpOp.frame?]
    | reconnected =>
      change (catchUpRun ops).resubscribe.received = _
      rw [received_resubscribe]
      simp [CatchUpOp.frame?]
    | track subs requests => simp [catchUpStep, CatchUpOp.frame?]

/-- A run is safe: the cursor moves as it may; every index that is asked from was not rolled back
before its catch-up; a reconnect queues its subscriptions, a running catch-up waits for one of them,
and every subscription of a closed one ended, or was dropped with the cursor below the gap. -/
structure CatchUpSafe (ops : List CatchUpOp) : Prop where
  moves : ∀ before op after c, ops = before ++ [op] ++ after →
    (catchUpRun (before ++ [op])).lastActionIndex = some c →
    (catchUpRun before).lastActionIndex ≠ some c →
    CursorStep (catchUpRun before) op (catchUpRun (before ++ [op])) c
  sent : ∀ x ∈ (catchUpRun ops).sent, SentClear (catchUpRun ops).received x
  queued : ∀ before after c, ops = before ++ [.reconnected] ++ after →
    (catchUpRun before).lastActionIndex = some c → 0 < indexValue c →
    ((catchUpRun before).subscriptions.filter fun sub => needsCatchUp sub.channels) ≠ [] →
    ∃ st, (catchUpRun (before ++ [.reconnected])).catchUp = some st ∧ st.cursor = c ∧
      st.queued = (catchUpRun before).subscriptions.filter fun sub => needsCatchUp sub.channels
  running : ∀ st, (catchUpRun ops).catchUp = some st →
    st.queued = st.ended.map (fun e => e.1.sub) ++ st.current.sub :: st.queue ∧
      ∀ e ∈ st.ended, EndingOk (catchUpRun ops).received (catchUpRun ops).emitted e
  closed : ∀ x ∈ (catchUpRun ops).closed,
    ClosedOk (catchUpRun ops).received (catchUpRun ops).emitted x

/-- **Every run of a client is safe.** -/
theorem catchUp_safe (ops : List CatchUpOp) : CatchUpSafe ops := by
  have hinv := catchUpRun_inv ops
  have hstep (before : List CatchUpOp) (op : CatchUpOp) :
      catchUpRun (before ++ [op]) = catchUpStep (catchUpRun before) op := by simp [catchUpRun]
  refine ⟨fun before op after c _ hc hne => ?_, fun x hx => (hinv.sent x hx).2,
    fun before after c _ hc hpos hsubs => ?_,
    fun st hst => ⟨(hinv.running st hst).queued, (hinv.running st hst).ended⟩, hinv.closed⟩
  · rw [hstep] at hc ⊢
    exact cursorStep (catchUpRun_inv before) op hc hne
  · rw [hstep]
    exact queued_resubscribe hc hpos hsubs

/-! ### A rollback during a replay -/

/-- A frame with one member in its data. -/
def wireFrame (type key value : String) : Js :=
  .obj [("type", .str type), ("data", .obj [(key, .str value)])]

/-- The end of a replay. -/
def completeFrame (id latest : String) : Js :=
  .obj [("type", .str "CATCH_UP_COMPLETE"), ("id", .str id),
    ("data", .obj [("latest_action_index", .str latest)])]

/-- Two subscriptions are replayed from index 100.  Index 200 arrives meanwhile, and is rolled back to
150.  After a second reconnect a rollback to 50 arrives while the first of them is replayed. -/
def rolledBackMidReplay : List CatchUpOp := [
  .frame (wireFrame "WELCOME" "latest_action_index" "100"),
  .track [⟨.arr [.str "actions"], .obj []⟩, ⟨.arr [.str "blocks"], .obj []⟩] 2,
  .close,
  .reconnected,
  .frame (wireFrame "NEW_ACTION" "action_index" "200"),
  .frame (wireFrame "REORG" "first_invalid_action_index" "150"),
  .frame (completeFrame "catchup-3" "120"),
  .frame (completeFrame "catchup-4" "120"),
  .close,
  .reconnected,
  .frame (wireFrame "REORG" "first_invalid_action_index" "50"),
  .frame (completeFrame "catchup-5" "30")]

/-- The first catch-up ends with the cursor at 149, which no frame named; and in the second one a
subscription is asked from 149 although everything from 50 on was rolled back before. -/
theorem rolledBackMidReplay_gap :
    (catchUpRun (rolledBackMidReplay.take 7)).lastActionIndex = some "100" ∧
      (catchUpRun (rolledBackMidReplay.take 8)).lastActionIndex = some "149" ∧
      (∀ m ∈ (catchUpRun rolledBackMidReplay).received, deliveredText m ≠ some "149") ∧
      ∃ x ∈ (catchUpRun rolledBackMidReplay).sent, ∃ i, indexText x.since = some i ∧
        ¬ ClearFrom ((catchUpRun rolledBackMidReplay).received.take x.received) x.received
          (indexValue i) := by
  have hreceived := catchUpRun_received rolledBackMidReplay
  have hsent : (some "149", 5, 7) ∈
      (catchUpRun rolledBackMidReplay).sent.map fun x => (x.since.str?, x.started, x.received) := by
    decide +kernel
  obtain ⟨⟨since, started, received⟩, hx, hxe⟩ := List.mem_map.1 hsent
  simp only [Prod.mk.injEq] at hxe
  obtain ⟨hsince, rfl, rfl⟩ := hxe
  have hstr : since = .str "149" := by
    cases since <;> simp_all [Js.str?]
  refine ⟨by decide, by decide +kernel, by rw [hreceived]; decide, _, hx, "149", ?_,
    fun hclear => ?_⟩
  · rw [hstr]
    decide
  · obtain ⟨m, hm, i, hi, hle⟩ := hclear
      [wireFrame "WELCOME" "latest_action_index" "100", wireFrame "NEW_ACTION" "action_index" "200",
        wireFrame "REORG" "first_invalid_action_index" "150", completeFrame "catchup-3" "120",
        completeFrame "catchup-4" "120"]
      (wireFrame "REORG" "first_invalid_action_index" "50") [completeFrame "catchup-5" "30"] 50
      (by rw [hreceived]; rfl) (by simp) ⟨_, List.mem_cons_self, .inr (by decide)⟩
      (by decide) (by decide)
    rw [List.mem_singleton.1 hm] at hi
    have h30 : deliveredText (completeFrame "catchup-5" "30") = some "30" := by decide
    cases h30.symm.trans hi
    revert hle
    decide

end XChainSdk
