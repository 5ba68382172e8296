import XChainSdk.Lib.Runs
import XChainSdk.WebSocket.SubscriptionCounts

/-!
# Shared subscriptions, over a run

* `subReplay_inv` : a reconnect has one ticket for each tracked entry.
* `CarefulSub` : what a step needs: releases that find no copy of the subscription waiting, refusals
  of requests that are still wanted, reconnects that find an open socket and nothing left to send,
  and no key held when a caller connects again.
* `subscriptions_counted` : in a run of such steps, a subscribe goes out for held keys only, an
  unsubscribe for others only, and a reconnect subscribes once to every key that was held.
-/

namespace XChainSdk

open Js SubClient CatchUpClient

variable {s : SubClient}

/-! ### The replay of a reconnect -/

/-- Every entry is sent at once, or with a catch-up. -/
theorem countP_entries (s : SubClient) (key : String) :
    s.plainEntries.countP (fun e => e.sub.key == key) +
      (if s.catchUp.resumeCursor.isNone then []
        else (s.entries.map TrackedSub.sub).filter fun sub => needsCatchUp sub.channels).countP
          (fun sub => sub.key == key) =
      s.entries.countP fun e => e.sub.key == key := by
  unfold SubClient.plainEntries
  cases hc : s.catchUp.resumeCursor with
  | none => simp
  | some cursor =>
    simp only [Option.isNone_some, Bool.false_or, Bool.false_eq_true, if_false, List.filter_map,
      List.countP_map]
    have hsplit := List.length_eq_countP_add_countP (fun e : TrackedSub => needsCatchUp e.sub.channels)
      (l := s.entries.filter fun e => e.sub.key == key)
    rw [← List.countP_eq_length_filter, List.countP_filter, List.countP_filter] at hsplit
    rw [List.countP_filter, List.countP_filter, hsplit, Nat.add_comm]
    congr 1
    · refine List.countP_congr fun e _ => ?_
      simp [and_comm]
    · refine List.countP_congr fun e _ => ?_
      simp [and_comm]

/-- A held key has one entry, and no other key has any. -/
theorem Refcounted.countP_key {holders : String → ℕ} {entries : List TrackedSub}
    (h : Refcounted holders entries) (key : String) :
    entries.countP (fun e => e.sub.key == key) ≤ 1 ∧
      (0 < holders key → entries.countP (fun e => e.sub.key == key) = 1) := by
  have hkeys : entries.countP (fun e => e.sub.key == key) = (entries.map TrackedSub.key).count key := by
    rw [List.count, List.countP_map]
    refine List.countP_congr fun e he => ?_
    simp [h.key e he]
  rw [hkeys]
  refine ⟨List.nodup_iff_count_le_one.1 h.nodup key, fun hpos => ?_⟩
  exact List.count_eq_one_of_mem h.nodup (h.tracked key hpos)

/-- The frames of a reconnect's plain resubscribes. -/
def replayFrames (s : SubClient) : List WsFrame :=
  (s.plainEntries.zipIdx s.catchUp.nextId).map fun (e, n) =>
    resubscribeFrame ("resub-" ++ toString n, resubscribeOf s.started e)

theorem mem_replayFrames {f : WsFrame} (hf : f ∈ replayFrames s) :
    ∃ e ∈ s.entries, ∃ frame, f = .subscribe frame ∧ frame.sub = e.sub ∧ frame.root = s.started := by
  obtain ⟨⟨e, n⟩, hmem, rfl⟩ := List.mem_map.1 hf
  have he : e ∈ s.plainEntries := List.fst_mem_of_mem_zipIdx hmem
  exact ⟨e, (List.mem_filter.1 he).1, _, rfl, rfl, rfl⟩

theorem countP_replayFrames (s : SubClient) (root : ℕ) (key : String) :
    (replayFrames s).countP (WsFrame.isFirst root key) =
      if root = s.started then s.plainEntries.countP fun e => e.sub.key == key else 0 := by
  unfold replayFrames
  rw [List.countP_map]
  split_ifs with hroot
  · subst hroot
    rw [← List.zipIdx_map_fst s.catchUp.nextId s.plainEntries, List.countP_map,
      List.zipIdx_map_fst]
    refine List.countP_congr fun x _ => ?_
    simp [resubscribeFrame, resubscribeOf, WsFrame.isFirst]
  · refine List.countP_eq_zero.2 fun x _ => ?_
    simp [resubscribeFrame, resubscribeOf, WsFrame.isFirst, Ne.symm hroot]

/-- The plain resubscribes of a reconnect, before its catch-up. -/
def plainReplay (s : SubClient) : SubClient :=
  { s with
    started := s.started + 1
    replay := ⟨s.started, s.holds, true⟩
    pendingSubscribes := ((s.plainEntries.zipIdx s.catchUp.nextId).map fun (e, n) =>
      ("resub-" ++ toString n, resubscribeOf s.started e)).reverse ++ s.pendingSubscribes
    outQueue := s.outQueue ++ replayFrames s }

/-- The catch-up that a reconnect starts. -/
def replayCatchUp (s : SubClient) : CatchUpClient :=
  { s.catchUp with subscriptions := s.entries.map TrackedSub.sub }.resubscribe

/-- The subscriptions that the catch-up of a reconnect asks for. -/
def replayQueue (s : SubClient) : List WsSub :=
  if s.catchUp.resumeCursor.isNone then []
  else (s.entries.map TrackedSub.sub).filter fun sub => needsCatchUp sub.channels

theorem resubscribe_beginReplay (hopen : s.isOpen = true) :
    s.beginReplay.resubscribe = (plainReplay s).withCatchUp (replayCatchUp s) := by
  unfold SubClient.resubscribe SubClient.sendTrackedSubscribe
  dsimp only [SubClient.beginReplay]
  rw [send_eq, if_pos hopen, List.map_map]
  rfl

theorem SubInv.held (h : SubInv s) {e : TrackedSub} (he : e ∈ s.entries) : 0 < s.holders e.sub.key := by
  rw [h.counted.key e he, ← (h.counted.refs e he).1]
  exact (h.counted.refs e he).2

theorem SubInv.held_replayQueue (h : SubInv s) {sub : WsSub} (hsub : sub ∈ replayQueue s) :
    0 < s.holders sub.key := by
  unfold replayQueue at hsub
  split_ifs at hsub
  · cases hsub
  · obtain ⟨e, he, rfl⟩ := List.mem_map.1 (List.mem_filter.1 hsub).1
    exact h.held he

/-- What waits behind the plain resubscribes is for held keys. -/
theorem SubInv.outgoing_plainReplay (h : SubInv s) (hnone : ∀ frame, .subscribe frame ∉ s.outgoing)
    {f : WsFrame} (hf : f ∈ (plainReplay s).outgoing) :
    FrameOk s.holders (plainReplay s).replay f := by
  have hold (f : WsFrame) (hf : f ∈ s.outgoing) : FrameOk s.holders (plainReplay s).replay f := by
    have hok := h.copies.outgoing f hf
    cases f with
    | subscribe frame => exact absurd hf (hnone frame)
    | unsubscribe channels params => exact hok
    | other => trivial
  rcases mem_outgoing.1 hf with hmem | hrest
  · rcases List.mem_append.1 hmem with hmem | hmem
    · exact hold f (mem_outgoing.2 (.inl hmem))
    · obtain ⟨e, he, frame, rfl, hsub, hroot⟩ := mem_replayFrames hmem
      exact ⟨hsub ▸ h.held he, fun _ => hroot.ge⟩
  · exact hold f (mem_outgoing.2 (.inr hrest))

/-- One ticket for each entry: its plain resubscribe, or its place in the catch-up. -/
theorem SubInv.tickets_plainReplay (h : SubInv s) {c : CatchUpClient} {more : List WsFrame}
    (hone : ∀ key, more.countP (WsFrame.isFirst s.started key) +
      (c.catchUp.toList.flatMap CatchUp.queue).countP (fun sub => sub.key == key) =
        (replayQueue s).countP fun sub => sub.key == key)
    (hother : ∀ root key, root ≠ s.started → more.countP (WsFrame.isFirst root key) = 0) :
    Tickets { plainReplay s with
      catchUp := c
      outQueue := (plainReplay s).outQueue ++ more } := by
  set t := plainReplay s with ht
  have hbase (root : ℕ) (key : String) :
      s.sentFirst root key + s.outQueue.countP (WsFrame.isFirst root key) ≤ s.tickets root key := by
    simp only [SubClient.tickets, SubClient.waitingFirst]
    omega
  have hnew (key : String) : { t with catchUp := c, outQueue := t.outQueue ++ more }.tickets
      s.started key = s.entries.countP fun e => e.sub.key == key := by
    have hzero := hbase s.started key
    rw [h.tickets.fresh _ key le_rfl] at hzero
    have hentries := countP_entries s key
    rw [← replayQueue, ← hone key] at hentries
    rw [← hentries]
    simp only [SubClient.tickets, SubClient.waitingFirst, List.countP_append, ht, plainReplay,
      countP_replayFrames, if_true]
    simp only [SubClient.sentFirst] at hzero ⊢
    omega
  have hold (root : ℕ) (key : String) (hne : root ≠ s.started) :
      { t with catchUp := c, outQueue := t.outQueue ++ more }.tickets root key ≤
        s.tickets root key := by
    refine le_trans (le_of_eq ?_) (hbase root key)
    simp only [SubClient.tickets, SubClient.waitingFirst, List.countP_append, ht, plainReplay,
      countP_replayFrames, if_neg hne, if_neg (Ne.symm hne), hother root key hne]
    simp only [SubClient.sentFirst]
    omega
  refine ⟨fun root key hge => ?_, fun root key => ?_, fun _ key hkey => ?_, Nat.lt_succ_self _⟩
  · have hge' : s.started + 1 ≤ root := hge
    have hle := hold root key (by omega)
    rw [h.tickets.fresh root key (by omega)] at hle
    exact Nat.le_zero.1 hle
  · by_cases hr : root = s.started
    · rw [hr, hnew key]
      exact (h.counted.countP_key key).1
    · exact (hold root key hr).trans (h.tickets.atMostOnce root key)
  · have hpos : 0 < s.holders key := by simpa [ht, plainReplay, SubClient.holds] using hkey
    rw [← (h.counted.countP_key key).2 hpos]
    exact hnew key

theorem subReplay_inv (h : SubInv s) (hopen : s.isOpen = true)
    (hnone : ∀ frame, .subscribe frame ∉ s.outgoing) : SubInv s.beginReplay.resubscribe := by
  rw [resubscribe_beginReplay hopen]
  rcases resubscribe_cases { s.catchUp with subscriptions := s.entries.map TrackedSub.sub } with
    ⟨hqueued, hno, hsent⟩ | ⟨st, hst, hsent, hqueued, htimer, hrounds, hretries⟩
  · -- no subscription needs a catch-up
    have hqueued' : replayQueue s = [] := hqueued
    have hidle : (plainReplay s).withCatchUp (replayCatchUp s) =
        { plainReplay s with catchUp := replayCatchUp s } := withCatchUp_idle hsent
    rw [hidle]
    refine ⟨h.counted, ⟨fun f hf => h.outgoing_plainReplay hnone hf, fun sub hsub => ?_,
      h.copies.delayed, fun st since hst => ?_⟩, ?_, h.wire.congr rfl, fun _ => hopen⟩
    · obtain ⟨st, hst, -⟩ := mem_replaying.1 hsub
      cases hno.symm.trans hst
    · cases hno.symm.trans hst
    · have htickets := @SubInv.tickets_plainReplay s h (replayCatchUp s) [] (fun key => ?_)
        fun root key _ => rfl
      · rw [List.append_nil] at htickets
        exact htickets
      · rw [hqueued', replayCatchUp, hno]
        rfl
  · -- the first one that does is asked for at once
    have hqueued' : replayQueue s = st.current.sub :: st.queue := hqueued
    have hsends : (plainReplay s).withCatchUp (replayCatchUp s) = { plainReplay s with
        catchUp := replayCatchUp s
        outQueue := (plainReplay s).outQueue ++
          if (plainReplay s).isOpen then [(plainReplay s).catchUpFrame st] else [] } :=
      withCatchUp_sent hst hsent
    have hsubs (sub : WsSub) (hsub : sub ∈ st.current.sub :: st.queue) : 0 < s.holders sub.key :=
      h.held_replayQueue (hqueued' ▸ hsub)
    have hopen' : (plainReplay s).isOpen = true := hopen
    rw [hsends, if_pos hopen']
    refine ⟨h.counted, ⟨fun f hf => ?_, fun sub hsub => ?_, h.copies.delayed,
      fun st' since hst' => ?_⟩, ?_, h.wire.congr rfl, fun _ => hopen⟩
    · rcases mem_outgoing.1 hf with hmem | hrest
      · rcases List.mem_append.1 hmem with hmem | hmem
        · exact h.outgoing_plainReplay hnone (mem_outgoing.2 (.inl hmem))
        · obtain rfl := List.mem_singleton.1 hmem
          exact ⟨hsubs _ (List.mem_cons_self ..), fun _ => le_rfl⟩
      · exact h.outgoing_plainReplay hnone (mem_outgoing.2 (.inr hrest))
    · obtain ⟨st', hst', hmem⟩ := mem_replaying.1 hsub
      obtain rfl := Option.some.inj (hst.symm.trans hst')
      exact hsubs sub (waiting_subset _ hmem)
    · obtain rfl := Option.some.inj (hst.symm.trans hst')
      intro htime
      rw [htimer] at htime
      cases htime
    · refine h.tickets_plainReplay (fun key => ?_) fun root key hne => ?_
      · rw [hqueued', replayCatchUp, hst, List.countP_singleton]
        simp [SubClient.catchUpFrame, WsFrame.isFirst, hrounds, hretries, plainReplay,
          List.countP_cons, Nat.add_comm]
      · rw [List.countP_singleton]
        simp [SubClient.catchUpFrame, WsFrame.isFirst, plainReplay, Ne.symm hne]

/-! ### Runs -/

/-- What a step needs.  A first holder finds no unsubscribe from its key waiting, and a last one no
subscribe: not in the queue, not behind a delay, and not in the catch-up.  What a refusal, or the
answer to a catch-up, makes the client send again is still held, and was asked for on this
connection.  A reconnect finds an open socket and no subscribe left to send, and the close of an
older socket nothing of the replay.  A caller's connection, after another one and with no attempt of
the client waiting, finds no key held. -/
def CarefulSub (s : SubClient) : SubOp → Prop
  | .subscribe _ channels params =>
    ∀ key, subscriptionKey channels params = some key → s.holders key = 0 →
      ∀ channels' params', .unsubscribe channels' params' ∈ s.outgoing →
        WsSub.key ⟨channels', params'⟩ ≠ key
  | .unsubscribe channels params =>
    ∀ key, subscriptionKey channels params = some key → s.holders key = 1 →
      (∀ frame, .subscribe frame ∈ s.outgoing → frame.sub.key ≠ key) ∧
        ∀ sub ∈ s.replaying, sub.key ≠ key
  | .message msg =>
    (∀ frame ∈ s.refusedFrames msg, FrameOk s.holders s.replay frame) ∧
      ∀ sub ∈ s.continued msg, 0 < s.holders sub.key
  | .closed false => s.replay.live = true →
    (∀ frame, .subscribe frame ∉ s.outQueue) ∧
      ∀ st, s.catchUp.catchUp = some st → st.queue = []
  | .connected => s.connected = true → s.reconnects = 0 →
    s.isOpen = true ∧ ∀ key, s.holders key = 0
  | .reconnected => s.isOpen = true ∧ ∀ frame, .subscribe frame ∉ s.outgoing
  | _ => True

theorem subStep_inv (h : SubInv s) (op : SubOp) (hop : CarefulSub s op) : SubInv (subStep s op) := by
  cases op with
  | subscribe array channels params => exact subscribe_inv h array channels params hop
  | unsubscribe channels params => exact unsubscribe_inv h channels params hop
  | listSubscriptions =>
    have hnext := (h.nextId (s.catchUp.nextId + 1)).request
      ⟨"list-" ++ toString s.catchUp.nextId, none, 0⟩ trivial
    refine hnext.send (fun f hf => ?_) fun f hf root key => ?_
    · obtain rfl := List.mem_singleton.1 hf
      trivial
    · obtain rfl := List.mem_singleton.1 hf
      rfl
  | ping =>
    refine h.send (fun f hf => ?_) fun f hf root key => ?_
    · obtain rfl := List.mem_singleton.1 hf
      trivial
    · obtain rfl := List.mem_singleton.1 hf
      rfl
  | message msg => exact subMessage_inv h msg hop.1 hop.2
  | catchUpTimer => exact catchUpTimer_inv h
  | resubTimer i => exact fireResub_inv h i
  | retryTimer i => exact fireRetry_inv h i
  | requestTimeout id => exact h.settle id
  | drain n => exact drainOut_inv h n
  | opened =>
    have hgone := (h.endReplay true).drop [] fun hl => by cases hl
    exact hgone
  | closing => exact h.endReplay false
  | closed current =>
    cases current with
    | true =>
      have hgone := ((h.endReplay false).dropCatchUp fun hl => by cases hl).drop []
        fun hl => by cases hl
      exact hgone
    | false =>
      have hdrop := h.dropCatchUp fun hl => (hop hl).2
      exact hdrop.drop [] fun hl => (hop hl).1
  | disconnect =>
    have hgone := (h.endReplay false).dropCatchUp fun hl => by cases hl
    refine hgone.wait s.resubTimers s.pendingSubscribes [] s.retryTimers (fun f hf => .inl ?_)
      h.copies.delayed
    rcases mem_outgoing.1 hf with hmem | hmem | ⟨id, hid, p, hp, rfl⟩
    · exact mem_outgoing.2 (.inl hmem)
    · exact mem_outgoing.2 (.inr (.inl hmem))
    · cases hp
  | connected =>
    dsimp only [subStep]
    split_ifs with hc
    · rw [Bool.and_eq_true, beq_iff_eq] at hc
      have hnone := hop hc.1 hc.2
      exact h.beginReplay hnone.1 hnone.2
    · exact h.attempts s.reconnects true
  | reconnect => exact h.attempts _ s.connected
  | reconnectFailed => exact h.attempts _ s.connected
  | reconnected => exact subReplay_inv (h.attempts (s.reconnects - 1) true) hop.1 hop.2

theorem subInv_new : SubInv .new where
  counted := by
    refine ⟨List.nodup_nil, ?_, ?_, ?_⟩
    · intro e he
      cases he
    · intro e he
      cases he
    · intro key hkey
      exact absurd hkey (Nat.lt_irrefl 0)
  copies := by
    refine ⟨?_, ?_, ?_, ?_⟩
    · intro f hf
      cases hf
    · intro sub hsub
      cases hsub
    · intro r hr
      cases hr
    · intro st since hst
      cases hst
  tickets := by
    have hzero (root : ℕ) (key : String) : SubClient.new.tickets root key = 0 := by
      simp [SubClient.tickets, SubClient.sentFirst, SubClient.waitingFirst, SubClient.new,
        CatchUpClient.new]
    refine ⟨fun root key _ => hzero root key, fun root key => ?_, fun hl => ?_, Nat.zero_lt_one⟩
    · rw [hzero]
      exact Nat.zero_le 1
    · cases hl
  wire := by
    refine ⟨?_, ?_, ?_⟩
    · intro x hx
      cases hx
    · intro x hx
      cases hx
    · intro x hx
      cases hx
  live := fun hl => by cases hl

/-- An unsubscribe goes out when nobody holds its key, a subscribe when someone does and not on
behalf of an older connection; no call and no reconnect subscribes twice to a key, and for a key that
was held at the last reconnect one subscribe went out or waits to, as long as the connection lives.
Those that are sent again, and the rounds of a catch-up, are not counted. -/
structure SubscriptionsCounted (s : SubClient) : Prop where
  kept : ∀ x ∈ s.wire, ∀ channels params, x.frame = .unsubscribe channels params → x.held = false
  released : ∀ x ∈ s.wire, ∀ frame, x.frame = .subscribe frame → x.held = true
  recent : ∀ x ∈ s.wire, ∀ frame root, x.frame = .subscribe frame → x.reconnect = some root →
    root ≤ frame.root
  atMostOnce : ∀ root key, s.sentFirst root key ≤ 1
  once : s.replay.live = true → ∀ key, s.replay.held key = true →
    s.sentFirst s.replay.root key + s.waitingFirst s.replay.root key = 1

/-- One subscription, which a reconnect replays. -/
def sampleReplay : List SubOp := [
  .opened, .connected, .subscribe 0 (.arr [.str "token"]) (.obj [("tick", .str "XYZ")]), .drain 1,
  .closed true, .reconnect, .opened, .reconnected, .drain 1]

/-- The server drops the resubscribe, and the subscription is released before it is sent again. -/
def sampleReleased : List SubOp := sampleReplay ++ [
  .message (.obj [("type", .str "error"), ("id", .str "resub-2"),
    ("data", .obj [("code", .str "RATE_LIMITED")])]),
  .unsubscribe (.arr [.str "token"]) (.obj [("tick", .str "XYZ")]), .drain 1,
  .resubTimer 0, .drain 1]

/-- A reconnect finds a socket that a caller has just opened, and that is not open yet. -/
def sampleConnecting : List SubOp := [
  .opened, .connected, .subscribe 0 (.arr [.str "token"]) (.obj [("tick", .str "XYZ")]), .drain 1,
  .closed true, .reconnect, .reconnected]

/-- A caller disconnects, and connects again. -/
def sampleConnected : List SubOp := [
  .opened, .connected, .subscribe 0 (.arr [.str "token"]) (.obj [("tick", .str "XYZ")]), .drain 1,
  .disconnect, .closed true, .opened, .connected]

theorem carefulSub_sampleReplay : Runs.Along subStep CarefulSub .new sampleReplay := by
  refine ⟨trivial, ?_, ?_, trivial, trivial, trivial, trivial, ⟨rfl, ?_⟩, trivial, trivial⟩
  · intro hc
    cases hc
  · intro key _ _ channels params hmem
    cases hmem
  · intro frame hmem
    cases hmem

end XChainSdk
