import Mathlib.Data.List.Nodup
import XChainSdk.WebSocket.CatchUpMoves
import XChainSdk.WebSocket.Subscriptions

/-!
# Shared subscriptions, one step

* `Refcounted` : every held key is tracked once, with the number of its holders.
* `Copies` : whatever waits to be sent is for a key that is held.
* `tickets` : the first frames of a call or a reconnect, those that went out and those that wait.
* `SubInv` : the invariant of a client, which the calls, the answers and the timers keep.
-/

namespace XChainSdk

open Js SubClient CatchUpClient

/-! ### The tracked entries -/

theorem or_or (x y : Js) : (x.or y).or y = x.or y := by
  unfold Js.or
  by_cases hx : x.truthy = true
  · simp [hx]
  · simp [hx]

/-- The key of what a call tracks is the key of the call. -/
theorem key_of_subscriptionKey {channels params : Js} {key : String}
    (h : subscriptionKey channels params = some key) :
    WsSub.key ⟨channels, params⟩ = key ∧ WsSub.key ⟨channels, params.or (.obj [])⟩ = key := by
  have hor : subscriptionKey channels (params.or (.obj [])) = some key := by
    rw [subscriptionKey, or_or]
    exact h
  exact ⟨by rw [WsSub.key, h]; rfl, by rw [WsSub.key, hor]; rfl⟩

/-- Every held key is tracked by one entry, which counts its holders. -/
structure Refcounted (holders : String → ℕ) (entries : List TrackedSub) : Prop where
  nodup : (entries.map TrackedSub.key).Nodup
  refs : ∀ e ∈ entries, e.refs = holders e.key ∧ 0 < e.refs
  key : ∀ e ∈ entries, e.sub.key = e.key
  tracked : ∀ key, 0 < holders key → key ∈ entries.map TrackedSub.key

namespace TrackedSub

variable {key : String} {entries : List TrackedSub}

theorem find_eq_none : find key entries = none ↔ key ∉ entries.map TrackedSub.key := by
  rw [find, List.find?_eq_none]
  simp

theorem find_eq_some {e : TrackedSub} (h : find key entries = some e) :
    e ∈ entries ∧ e.key = key :=
  ⟨List.mem_of_find?_eq_some h, by simpa using List.find?_some h⟩

theorem map_key_join : (join key entries).map TrackedSub.key = entries.map TrackedSub.key := by
  induction entries with
  | nil => rfl
  | cons e es ih =>
    unfold join
    split_ifs
    · rfl
    · rw [List.map_cons, List.map_cons, ih]

/-- The entries after a join: the one with the key has one holder more. -/
theorem mem_join (hnodup : (entries.map TrackedSub.key).Nodup) {e : TrackedSub}
    (h : e ∈ join key entries) :
    (e ∈ entries ∧ e.key ≠ key) ∨
      ∃ e' ∈ entries, e'.key = key ∧ e = { e' with refs := e'.refs + 1 } := by
  induction entries with
  | nil => cases h
  | cons x xs ih =>
    rw [List.map_cons, List.nodup_cons] at hnodup
    unfold join at h
    split_ifs at h with hx
    · rcases List.mem_cons.1 h with rfl | hmem
      · exact .inr ⟨x, List.mem_cons_self .., hx, rfl⟩
      · refine .inl ⟨List.mem_cons_of_mem _ hmem, fun hkey => hnodup.1 ?_⟩
        rw [hx, ← hkey]
        exact List.mem_map_of_mem hmem
    · rcases List.mem_cons.1 h with rfl | hmem
      · exact .inl ⟨List.mem_cons_self .., hx⟩
      · rcases ih hnodup.2 hmem with ⟨h1, h2⟩ | ⟨e', h1, h2⟩
        · exact .inl ⟨List.mem_cons_of_mem _ h1, h2⟩
        · exact .inr ⟨e', List.mem_cons_of_mem _ h1, h2⟩

/-- The keys after a release: the key stays as long as there is another holder. -/
theorem map_key_release (hnodup : (entries.map TrackedSub.key).Nodup) :
    ((release key entries).map TrackedSub.key).Sublist (entries.map TrackedSub.key) ∧
      ∀ k, k ∈ (release key entries).map TrackedSub.key ↔
        k ∈ entries.map TrackedSub.key ∧
          (k = key → ∃ e ∈ entries, e.key = key ∧ 1 < e.refs) := by
  induction entries with
  | nil => exact ⟨List.Sublist.refl _, fun k => by simp [release]⟩
  | cons x xs ih =>
    rw [List.map_cons, List.nodup_cons] at hnodup
    obtain ⟨ih1, ih2⟩ := ih hnodup.2
    unfold release
    split_ifs with hx hrefs
    · refine ⟨List.Sublist.refl _, fun k => ⟨fun hk => ⟨hk, fun _ => ?_⟩, fun hk => hk.1⟩⟩
      exact ⟨x, List.mem_cons_self .., hx, by omega⟩
    · refine ⟨List.sublist_cons_self .., fun k => ⟨fun hk => ⟨List.mem_cons_of_mem _ hk, ?_⟩, ?_⟩⟩
      · rintro rfl
        exact absurd (hx ▸ hk) hnodup.1
      · rintro ⟨hk, hlast⟩
        rcases List.mem_cons.1 hk with rfl | hmem
        · obtain ⟨e, he, hekey, herefs⟩ := hlast hx
          rcases List.mem_cons.1 he with rfl | he
          · omega
          · exact absurd (hekey.trans hx.symm ▸ List.mem_map_of_mem (f := TrackedSub.key) he) hnodup.1
        · exact hmem
    · refine ⟨ih1.cons_cons _, fun k => ?_⟩
      rw [List.map_cons, List.mem_cons, ih2 k, List.map_cons, List.mem_cons]
      constructor
      · rintro (rfl | ⟨hk, hlast⟩)
        · exact ⟨.inl rfl, fun heq => absurd heq hx⟩
        · refine ⟨.inr hk, fun heq => ?_⟩
          obtain ⟨e, he, hrest⟩ := hlast heq
          exact ⟨e, List.mem_cons_of_mem _ he, hrest⟩
      · rintro ⟨rfl | hk, hlast⟩
        · exact .inl rfl
        · refine .inr ⟨hk, fun heq => ?_⟩
          obtain ⟨e, he, hekey, hrest⟩ := hlast heq
          rcases List.mem_cons.1 he with rfl | he
          · exact absurd hekey hx
          · exact ⟨e, he, hekey, hrest⟩

/-- The entries after a release. -/
theorem mem_release (hnodup : (entries.map TrackedSub.key).Nodup) {e : TrackedSub}
    (h : e ∈ release key entries) :
    (e ∈ entries ∧ e.key ≠ key) ∨
      ∃ e' ∈ entries, e'.key = key ∧ 1 < e'.refs ∧ e = { e' with refs := e'.refs - 1 } := by
  induction entries with
  | nil => cases h
  | cons x xs ih =>
    rw [List.map_cons, List.nodup_cons] at hnodup
    have hlater {y : TrackedSub} (hx : x.key = key) (hy : y ∈ xs) : y.key ≠ key := by
      intro hkey
      refine hnodup.1 ?_
      rw [hx, ← hkey]
      exact List.mem_map_of_mem hy
    unfold release at h
    split_ifs at h with hx hrefs
    · rcases List.mem_cons.1 h with rfl | hmem
      · exact .inr ⟨x, List.mem_cons_self .., hx, by omega, rfl⟩
      · exact .inl ⟨List.mem_cons_of_mem _ hmem, hlater hx hmem⟩
    · exact .inl ⟨List.mem_cons_of_mem _ h, hlater hx h⟩
    · rcases List.mem_cons.1 h with rfl | hmem
      · exact .inl ⟨List.mem_cons_self .., hx⟩
      · rcases ih hnodup.2 hmem with ⟨h1, h2⟩ | ⟨e', h1, h2⟩
        · exact .inl ⟨List.mem_cons_of_mem _ h1, h2⟩
        · exact .inr ⟨e', List.mem_cons_of_mem _ h1, h2⟩

end TrackedSub

namespace Refcounted

variable {holders : String → ℕ} {entries : List TrackedSub} {key : String}

theorem join (h : Refcounted holders entries) (hkey : key ∈ entries.map TrackedSub.key) :
    Refcounted (Function.update holders key (holders key + 1)) (TrackedSub.join key entries) where
  nodup := by rw [TrackedSub.map_key_join]; exact h.nodup
  refs := by
    intro e he
    rcases TrackedSub.mem_join h.nodup he with ⟨hmem, hne⟩ | ⟨e', hmem, rfl, rfl⟩
    · rw [Function.update_of_ne hne]
      exact h.refs e hmem
    · refine ⟨?_, Nat.succ_pos _⟩
      rw [Function.update_self, (h.refs e' hmem).1]
  key := by
    intro e he
    rcases TrackedSub.mem_join h.nodup he with ⟨hmem, hne⟩ | ⟨e', hmem, rfl, rfl⟩
    · exact h.key e hmem
    · exact h.key e' hmem
  tracked := by
    intro k hk
    rw [TrackedSub.map_key_join]
    by_cases heq : k = key
    · rw [heq]
      exact hkey
    · rw [Function.update_of_ne heq] at hk
      exact h.tracked k hk

theorem release (h : Refcounted holders entries) :
    Refcounted (Function.update holders key (holders key - 1)) (TrackedSub.release key entries) where
  nodup := h.nodup.sublist (TrackedSub.map_key_release h.nodup).1
  refs := by
    intro e he
    rcases TrackedSub.mem_release h.nodup he with ⟨hmem, hne⟩ | ⟨e', hmem, rfl, hrefs, rfl⟩
    · rw [Function.update_of_ne hne]
      exact h.refs e hmem
    · refine ⟨?_, ?_⟩
      · rw [Function.update_self, (h.refs e' hmem).1]
      · change 0 < e'.refs - 1
        omega
  key := by
    intro e he
    rcases TrackedSub.mem_release h.nodup he with ⟨hmem, hne⟩ | ⟨e', hmem, rfl, hrefs, rfl⟩
    · exact h.key e hmem
    · exact h.key e' hmem
  tracked := by
    intro k hk
    by_cases heq : k = key
    · subst heq
      rw [Function.update_self] at hk
      have hmem := h.tracked k (by omega)
      refine ((TrackedSub.map_key_release h.nodup).2 k).2 ⟨hmem, fun _ => ?_⟩
      obtain ⟨e, he, hekey⟩ := List.mem_map.1 hmem
      refine ⟨e, he, hekey, ?_⟩
      rw [(h.refs e he).1, hekey]
      omega
    · rw [Function.update_of_ne heq] at hk
      exact ((TrackedSub.map_key_release h.nodup).2 k).2 ⟨h.tracked k hk, fun hc => absurd hc heq⟩

theorem add (h : Refcounted holders entries) (hkey : key ∉ entries.map TrackedSub.key) (array : ℕ)
    {sub : WsSub} (hsub : sub.key = key) :
    Refcounted (Function.update holders key (holders key + 1))
      (entries ++ [⟨key, array, sub, 1⟩]) where
  nodup := by
    rw [List.map_append, List.nodup_append]
    refine ⟨h.nodup, by simp, fun k hk k' hk' heq => hkey ?_⟩
    rw [List.map_singleton, List.mem_singleton] at hk'
    rw [heq.trans hk'] at hk
    exact hk
  refs := by
    intro e he
    rcases List.mem_append.1 he with hmem | hmem
    · have hne : e.key ≠ key := fun heq => hkey (heq ▸ List.mem_map_of_mem hmem)
      rw [Function.update_of_ne hne]
      exact h.refs e hmem
    · obtain rfl := List.mem_singleton.1 hmem
      have hzero : holders key = 0 := by
        by_contra hne
        exact hkey (h.tracked key (by omega))
      refine ⟨?_, Nat.one_pos⟩
      rw [Function.update_self, hzero]
  key := by
    intro e he
    rcases List.mem_append.1 he with hmem | hmem
    · exact h.key e hmem
    · obtain rfl := List.mem_singleton.1 hmem
      exact hsub
  tracked := by
    intro k hk
    rw [List.map_append, List.mem_append]
    by_cases heq : k = key
    · exact .inr (by simp [heq])
    · rw [Function.update_of_ne heq] at hk
      exact .inl (h.tracked k hk)

end Refcounted

/-! ### What waits -/

/-- The call or reconnect is not older than the last reconnect, as long as its connection lives. -/
def Replay.Recent (r : Replay) (root : ℕ) : Prop := r.live = true → r.root ≤ root

/-- A subscribe is for a held key, and belongs to this connection; an unsubscribe is for another
key. -/
def FrameOk (holders : String → ℕ) (replay : Replay) : WsFrame → Prop
  | .subscribe frame => 0 < holders frame.sub.key ∧ replay.Recent frame.root
  | .unsubscribe channels params => holders (WsSub.key ⟨channels, params⟩) = 0
  | .other => True

/-- The subscriptions that a catch-up is going to ask for: its queue, and the current one if it waits
to be sent again. -/
def CatchUp.waiting (st : CatchUp) : List WsSub :=
  match st.timer with
  | .retry _ => st.current.sub :: st.queue
  | .backstop => st.queue

namespace SubClient

/-- The request that is sent again under its id. -/
def requestOf (s : SubClient) (id : String) : Option PendingRequest :=
  s.pending.find? fun p => p.id == id

/-- Frames that wait: in the queue, or for the end of a delay. -/
def outgoing (s : SubClient) : List WsFrame :=
  s.outQueue ++ s.resubTimers.map (fun r => resubscribeFrame ("", r)) ++
    s.retryTimers.filterMap fun id => (s.requestOf id).map PendingRequest.frame

/-- The subscriptions that the catch-up is going to ask for. -/
def replaying (s : SubClient) : List WsSub := s.catchUp.catchUp.toList.flatMap CatchUp.waiting

/-- The frames that a refusal makes the client send again. -/
def refusedFrames (s : SubClient) (msg : Js) : List WsFrame :=
  if isRateLimited msg then
    ((s.answeredSubscribe msg).toList.filter s.retries).map (fun r => resubscribeFrame ("", r)) ++
      ((s.answeredRequest msg).toList.filter fun p => p.retries < RATE_RETRIES).map
        PendingRequest.frame
  else []

/-- The subscription that the answer to a catch-up request makes the client ask for again. -/
def continued (s : SubClient) (msg : Js) : List WsSub :=
  (s.catchUp.catchUp.toList.filter fun st => st.current.again msg).map fun st => st.current.sub

end SubClient

/-- What waits is for held keys. -/
structure Copies (s : SubClient) : Prop where
  outgoing : ∀ frame ∈ s.outgoing, FrameOk s.holders s.replay frame
  replaying : ∀ sub ∈ s.replaying, 0 < s.holders sub.key
  delayed : ∀ r ∈ s.resubTimers, 0 < r.attempt
  retrying : ∀ st since, s.catchUp.catchUp = some st → st.timer = .retry since →
    0 < st.current.rateRetries

/-! ### Tickets -/

/-- The first frame of a call or reconnect for a key. -/
def WsFrame.isFirst (root : ℕ) (key : String) : WsFrame → Bool
  | subscribe frame => frame.first && frame.root == root && frame.sub.key == key
  | _ => false

namespace SubClient

/-- The first frames of a call or reconnect for a key that went out. -/
def sentFirst (s : SubClient) (root : ℕ) (key : String) : ℕ :=
  (s.wire.map SentFrame.frame).countP (WsFrame.isFirst root key)

/-- Those that wait in the queue, or are to be made by the catch-up. -/
def waitingFirst (s : SubClient) (root : ℕ) (key : String) : ℕ :=
  s.outQueue.countP (WsFrame.isFirst root key) +
    if s.replay.root = root then
      (s.catchUp.catchUp.toList.flatMap CatchUp.queue).countP fun sub => sub.key == key
    else 0

/-- All of them. -/
def tickets (s : SubClient) (root : ℕ) (key : String) : ℕ :=
  s.sentFirst root key + s.waitingFirst root key

end SubClient

/-- A call or a reconnect has one first frame at most for a key, and the last reconnect has one for
each key that was held, as long as its connection lives. -/
structure Tickets (s : SubClient) : Prop where
  fresh : ∀ root key, s.started ≤ root → s.tickets root key = 0
  atMostOnce : ∀ root key, s.tickets root key ≤ 1
  once : s.replay.live = true → ∀ key, s.replay.held key = true → s.tickets s.replay.root key = 1
  root : s.replay.root < s.started

/-- What went out. -/
structure WireOk (s : SubClient) : Prop where
  released : ∀ x ∈ s.wire, ∀ frame, x.frame = .subscribe frame → x.held = true
  kept : ∀ x ∈ s.wire, ∀ channels params, x.frame = .unsubscribe channels params → x.held = false
  recent : ∀ x ∈ s.wire, ∀ frame root, x.frame = .subscribe frame → x.reconnect = some root →
    root ≤ frame.root

/-- The invariant of a client. -/
structure SubInv (s : SubClient) : Prop where
  counted : Refcounted s.holders s.entries
  copies : Copies s
  tickets : Tickets s
  wire : WireOk s
  live : s.replay.live = true → s.isOpen = true

variable {s s' : SubClient}

/-! ### One step -/

theorem send_eq (s : SubClient) (frames : List WsFrame) :
    s.send frames = { s with outQueue := s.outQueue ++ if s.isOpen then frames else [] } := by
  unfold SubClient.send
  split_ifs
  · rfl
  · rw [List.append_nil]

theorem withCatchUp_idle {c : CatchUpClient} (hsent : c.sent.length = s.catchUp.sent.length) :
    s.withCatchUp c = { s with catchUp := c } := by
  unfold SubClient.withCatchUp
  rw [if_pos hsent]

theorem withCatchUp_sent {c : CatchUpClient} {st : CatchUp} (hst : c.catchUp = some st)
    (hsent : c.sent.length = s.catchUp.sent.length + 1) :
    s.withCatchUp c = { s with
      catchUp := c
      outQueue := s.outQueue ++ if s.isOpen then [s.catchUpFrame st] else [] } := by
  unfold SubClient.withCatchUp
  rw [if_neg (by omega), send_eq, hst]
  rfl

theorem mem_outgoing {frame : WsFrame} : frame ∈ s.outgoing ↔
    frame ∈ s.outQueue ∨ (∃ r ∈ s.resubTimers, resubscribeFrame ("", r) = frame) ∨
      ∃ id ∈ s.retryTimers, ∃ p, s.requestOf id = some p ∧ p.frame = frame := by
  simp [SubClient.outgoing]

theorem mem_replaying {sub : WsSub} :
    sub ∈ s.replaying ↔ ∃ st, s.catchUp.catchUp = some st ∧ sub ∈ st.waiting := by
  simp [SubClient.replaying]

theorem queue_subset_waiting (st : CatchUp) : st.queue ⊆ st.waiting := by
  intro sub hsub
  unfold CatchUp.waiting
  split
  · exact List.mem_cons_of_mem _ hsub
  · exact hsub

theorem waiting_subset (st : CatchUp) : st.waiting ⊆ st.current.sub :: st.queue := by
  intro sub hsub
  unfold CatchUp.waiting at hsub
  split at hsub
  · exact hsub
  · exact List.mem_cons_of_mem _ hsub

theorem frameOk_endReplay {holders : String → ℕ} {replay : Replay} {frame : WsFrame}
    (h : FrameOk holders replay frame) : FrameOk holders { replay with live := false } frame := by
  cases frame with
  | subscribe frame => exact ⟨h.1, fun hlive => by cases hlive⟩
  | unsubscribe channels params => exact h
  | other => trivial

/-- A frame is no worse when a key has one holder more, unless it unsubscribes from that key. -/
theorem frameOk_raise {holders : String → ℕ} {replay : Replay} {frame : WsFrame} {key : String}
    (h : FrameOk holders replay frame)
    (hne : ∀ channels params, frame = .unsubscribe channels params →
      WsSub.key ⟨channels, params⟩ ≠ key) :
    FrameOk (Function.update holders key (holders key + 1)) replay frame := by
  cases frame with
  | subscribe frame =>
    refine ⟨?_, h.2⟩
    by_cases heq : frame.sub.key = key
    · rw [heq, Function.update_self]
      omega
    · rw [Function.update_of_ne heq]
      exact h.1
  | unsubscribe channels params =>
    change Function.update holders key (holders key + 1) _ = 0
    rw [Function.update_of_ne (hne channels params rfl)]
    exact h
  | other => trivial

/-- A frame is no worse when a key has one holder less, unless it subscribes to that key and this
was the last one. -/
theorem frameOk_lower {holders : String → ℕ} {replay : Replay} {frame : WsFrame} {key : String}
    (h : FrameOk holders replay frame)
    (hne : holders key = 1 → ∀ f, frame = .subscribe f → f.sub.key ≠ key) :
    FrameOk (Function.update holders key (holders key - 1)) replay frame := by
  cases frame with
  | subscribe frame =>
    refine ⟨?_, h.2⟩
    by_cases heq : frame.sub.key = key
    · rw [heq, Function.update_self]
      have hpos : 0 < holders key := heq ▸ h.1
      have hlast : holders key ≠ 1 := fun hone => hne hone frame rfl heq
      omega
    · rw [Function.update_of_ne heq]
      exact h.1
  | unsubscribe channels params =>
    change Function.update holders key (holders key - 1) _ = 0
    change holders _ = 0 at h
    by_cases heq : WsSub.key ⟨channels, params⟩ = key
    · rw [heq, Function.update_self, ← heq, h]
    · rw [Function.update_of_ne heq]
      exact h
  | other => trivial

theorem Copies.mono (h : Copies s) (hholders : s'.holders = s.holders)
    (hreplay : s'.replay = s.replay) (houtgoing : ∀ f ∈ s'.outgoing, f ∈ s.outgoing ∨ f = .other)
    (hdelayed : s'.resubTimers ⊆ s.resubTimers) (hcatchUp : ∀ st, s'.catchUp.catchUp = some st →
      s.catchUp.catchUp = some st) : Copies s' where
  outgoing := by
    intro f hf
    rw [hholders, hreplay]
    rcases houtgoing f hf with hmem | rfl
    · exact h.outgoing f hmem
    · trivial
  replaying := by
    intro sub hsub
    obtain ⟨st, hst, hmem⟩ := mem_replaying.1 hsub
    rw [hholders]
    exact h.replaying sub (mem_replaying.2 ⟨st, hcatchUp st hst, hmem⟩)
  delayed := fun r hr => h.delayed r (hdelayed hr)
  retrying := fun st since hst => h.retrying st since (hcatchUp st hst)

theorem Tickets.mono (h : Tickets s) (hstarted : s'.started = s.started)
    (hroot : s'.replay.root = s.replay.root)
    (hle : ∀ root key, s'.tickets root key ≤ s.tickets root key)
    (hlive : s'.replay.live = true → s.replay.live = true ∧ s'.replay.held = s.replay.held ∧
      ∀ root key, s'.tickets root key = s.tickets root key) : Tickets s' where
  fresh := by
    intro root key hge
    rw [hstarted] at hge
    exact Nat.le_zero.1 ((hle root key).trans (h.fresh root key hge).le)
  atMostOnce := fun root key => (hle root key).trans (h.atMostOnce root key)
  once := by
    intro hl key hkey
    obtain ⟨hl', hheld, heq⟩ := hlive hl
    rw [hheld] at hkey
    rw [heq, hroot]
    exact h.once hl' key hkey
  root := by
    rw [hroot, hstarted]
    exact h.root

theorem WireOk.congr (h : WireOk s) (hwire : s'.wire = s.wire) : WireOk s' := by
  refine ⟨?_, ?_, ?_⟩
  · rw [hwire]
    exact h.released
  · rw [hwire]
    exact h.kept
  · rw [hwire]
    exact h.recent

/-- Queued frames bring the tickets that they are. -/
theorem tickets_append (s : SubClient) (frames : List WsFrame) (root : ℕ) (key : String) :
    { s with outQueue := s.outQueue ++ frames }.tickets root key =
      s.tickets root key + frames.countP (WsFrame.isFirst root key) := by
  simp only [SubClient.tickets, SubClient.sentFirst, SubClient.waitingFirst, List.countP_append]
  omega

theorem SubInv.queue (h : SubInv s) {frames : List WsFrame}
    (hok : ∀ f ∈ frames, FrameOk s.holders s.replay f)
    (hfirst : ∀ f ∈ frames, ∀ root key, f.isFirst root key = false) :
    SubInv { s with outQueue := s.outQueue ++ frames } where
  counted := h.counted
  copies := by
    refine ⟨fun f hf => ?_, h.copies.replaying, h.copies.delayed, h.copies.retrying⟩
    rcases mem_outgoing.1 hf with hmem | hrest
    · rcases List.mem_append.1 hmem with hmem | hmem
      · exact h.copies.outgoing f (mem_outgoing.2 (.inl hmem))
      · exact hok f hmem
    · exact h.copies.outgoing f (mem_outgoing.2 (.inr hrest))
  tickets := by
    have heq (root : ℕ) (key : String) :
        { s with outQueue := s.outQueue ++ frames }.tickets root key = s.tickets root key := by
      rw [tickets_append, List.countP_eq_zero.2 fun f hf => by simp [hfirst f hf], Nat.add_zero]
    exact h.tickets.mono rfl rfl (fun root key => (heq root key).le) fun hlive => ⟨hlive, rfl, heq⟩
  wire := h.wire.congr rfl
  live := h.live

theorem SubInv.send (h : SubInv s) {frames : List WsFrame}
    (hok : ∀ f ∈ frames, FrameOk s.holders s.replay f)
    (hfirst : ∀ f ∈ frames, ∀ root key, f.isFirst root key = false) :
    SubInv (s.send frames) := by
  rw [send_eq]
  by_cases hopen : s.isOpen = true
  · rw [if_pos hopen]
    exact h.queue hok hfirst
  · rw [if_neg hopen]
    exact h.queue (fun f hf => by cases hf) fun f hf => by cases hf

/-! ### The catch-up goes on -/

/-- The catch-up changes, and what it has queued stays. -/
theorem SubInv.setCatchUp {c : CatchUpClient} (h : SubInv s)
    (hwaiting : ∀ st, c.catchUp = some st → ∀ sub ∈ st.waiting, 0 < s.holders sub.key)
    (hretrying : ∀ st since, c.catchUp = some st → st.timer = .retry since →
      0 < st.current.rateRetries)
    (hqueue : c.catchUp.toList.flatMap CatchUp.queue =
      s.catchUp.catchUp.toList.flatMap CatchUp.queue) : SubInv { s with catchUp := c } := by
  refine ⟨h.counted, ⟨h.copies.outgoing, fun sub hsub => ?_, h.copies.delayed, hretrying⟩, ?_,
    h.wire.congr rfl, h.live⟩
  · obtain ⟨st, hst, hmem⟩ := mem_replaying.1 hsub
    exact hwaiting st hst sub hmem
  · have heq (root : ℕ) (key : String) :
        { s with catchUp := c }.tickets root key = s.tickets root key := by
      simp only [SubClient.tickets, SubClient.sentFirst, SubClient.waitingFirst, hqueue]
    exact h.tickets.mono rfl rfl (fun root key => (heq root key).le) fun hl => ⟨hl, rfl, heq⟩

/-- The next subscription of the queue is asked for: its ticket moves from the catch-up to the
outbound queue. -/
theorem SubInv.nextCatchUp {c : CatchUpClient} {st st' : CatchUp} (h : SubInv s)
    (hst : s.catchUp.catchUp = some st) (hst' : c.catchUp = some st')
    (hqueue : st.queue = st'.current.sub :: st'.queue) (htimer : st'.timer = .backstop)
    (hrounds : st'.current.rounds = 0) (hretries : st'.current.rateRetries = 0) :
    SubInv { s with
      catchUp := c
      outQueue := s.outQueue ++ if s.isOpen then [s.catchUpFrame st'] else [] } := by
  have hqueued (sub : WsSub) (hsub : sub ∈ st.queue) : 0 < s.holders sub.key :=
    h.copies.replaying sub (mem_replaying.2 ⟨st, hst, queue_subset_waiting st hsub⟩)
  have hmoved (root : ℕ) (key : String) : { s with catchUp := c }.tickets root key +
      [s.catchUpFrame st'].countP (WsFrame.isFirst root key) = s.tickets root key := by
    have hone : [s.catchUpFrame st'].countP (WsFrame.isFirst root key) =
        if s.replay.root = root then if st'.current.sub.key = key then 1 else 0 else 0 := by
      rw [List.countP_singleton]
      by_cases hr : s.replay.root = root
      · simp [SubClient.catchUpFrame, WsFrame.isFirst, hrounds, hretries, hr]
      · simp [SubClient.catchUpFrame, WsFrame.isFirst, hr]
    simp only [SubClient.tickets, SubClient.sentFirst, SubClient.waitingFirst, hst', hst, hone,
      hqueue, Option.toList_some, List.flatMap_singleton, List.countP_cons, beq_iff_eq]
    split_ifs
    · omega
    · omega
    · omega
  have hle (root : ℕ) (key : String) : { s with catchUp := c, outQueue := s.outQueue ++
      if s.isOpen then [s.catchUpFrame st'] else [] }.tickets root key ≤ s.tickets root key := by
    rw [tickets_append { s with catchUp := c }, ← hmoved root key]
    split_ifs
    · exact le_rfl
    · exact Nat.add_le_add_left (Nat.zero_le _) _
  have heq (hopen : s.isOpen = true) (root : ℕ) (key : String) :
      { s with catchUp := c, outQueue := s.outQueue ++
        if s.isOpen then [s.catchUpFrame st'] else [] }.tickets root key = s.tickets root key := by
    rw [tickets_append { s with catchUp := c }, if_pos hopen, hmoved]
  refine ⟨h.counted, ⟨?_, ?_, h.copies.delayed, ?_⟩, ?_, h.wire.congr rfl, h.live⟩
  · intro f hf
    rcases mem_outgoing.1 hf with hmem | hrest
    · rcases List.mem_append.1 hmem with hmem | hmem
      · exact h.copies.outgoing f (mem_outgoing.2 (.inl hmem))
      · split_ifs at hmem
        · obtain rfl := List.mem_singleton.1 hmem
          exact ⟨hqueued _ (hqueue ▸ List.mem_cons_self ..), fun _ => le_rfl⟩
        · cases hmem
    · exact h.copies.outgoing f (mem_outgoing.2 (.inr hrest))
  · intro sub hmem
    obtain ⟨x, hx, hmem⟩ := mem_replaying.1 hmem
    obtain rfl := Option.some.inj (hst'.symm.trans hx)
    simp only [CatchUp.waiting, htimer] at hmem
    exact hqueued sub (hqueue ▸ List.mem_cons_of_mem _ hmem)
  · intro x since hx htime
    obtain rfl := Option.some.inj (hst'.symm.trans hx)
    rw [htimer] at htime
    cases htime
  · exact h.tickets.mono rfl rfl hle fun hl => ⟨hl, rfl, heq (h.live hl)⟩

/-- What a catch-up is going to ask for, and for which keys it does so for the first time. -/
theorem SubInv.withCatchUp {c : CatchUpClient} {st : CatchUp} {again : Prop} (h : SubInv s)
    (hst : s.catchUp.catchUp = some st) (hmove : CatchUpMove again s.catchUp st c)
    (hagain : again → 0 < s.holders st.current.sub.key) : SubInv (s.withCatchUp c) := by
  have hwaiting (sub : WsSub) (hsub : sub ∈ st.waiting) : 0 < s.holders sub.key :=
    h.copies.replaying sub (mem_replaying.2 ⟨st, hst, hsub⟩)
  cases hmove with
  | @kept st' hst' hsent hqueue hcurrent htimer =>
    rw [withCatchUp_idle hsent]
    have hsame : st'.waiting = st.waiting := by
      simp only [CatchUp.waiting, hqueue, hcurrent, htimer]
    refine h.setCatchUp (fun x hx sub hsub => ?_) (fun x since hx htime => ?_)
      (by simp [hst', hst, hqueue])
    · obtain rfl := Option.some.inj (hst'.symm.trans hx)
      exact hwaiting sub (hsame ▸ hsub)
    · obtain rfl := Option.some.inj (hst'.symm.trans hx)
      rw [hcurrent]
      exact h.copies.retrying st since hst (htimer ▸ htime)
  | @delayed st' hst' hsent hag hqueue hsub hretries =>
    rw [withCatchUp_idle hsent]
    refine h.setCatchUp (fun x hx sub hmem => ?_) (fun x since hx htime => ?_)
      (by simp [hst', hst, hqueue])
    · obtain rfl := Option.some.inj (hst'.symm.trans hx)
      rcases List.mem_cons.1 (waiting_subset _ hmem) with rfl | hmem
      · rw [hsub]
        exact hagain hag
      · exact hwaiting sub (queue_subset_waiting st (hqueue ▸ hmem))
    · obtain rfl := Option.some.inj (hst'.symm.trans hx)
      exact hretries
  | @resent st' hst' hsent hag hqueue hsub htimer hlater =>
    rw [withCatchUp_sent hst' hsent]
    have hset : SubInv { s with catchUp := c } := by
      refine h.setCatchUp (fun x hx sub hmem => ?_) (fun x since hx htime => ?_)
        (by simp [hst', hst, hqueue])
      · obtain rfl := Option.some.inj (hst'.symm.trans hx)
        simp only [CatchUp.waiting, htimer] at hmem
        exact hwaiting sub (queue_subset_waiting st (hqueue ▸ hmem))
      · obtain rfl := Option.some.inj (hst'.symm.trans hx)
        rw [htimer] at htime
        cases htime
    have hframe : SubInv ({ s with catchUp := c }.send [s.catchUpFrame st']) := by
      refine hset.send (fun f hf => ?_) fun f hf root key => ?_
      · obtain rfl := List.mem_singleton.1 hf
        exact ⟨by rw [hsub]; exact hagain hag, fun _ => le_rfl⟩
      · obtain rfl := List.mem_singleton.1 hf
        rcases hlater with hl | hl
        · simp [SubClient.catchUpFrame, WsFrame.isFirst, hl.ne']
        · simp [SubClient.catchUpFrame, WsFrame.isFirst, hl.ne']
    rw [send_eq] at hframe
    exact hframe
  | next hst' hsent hqueue htimer hrounds hretries =>
    rw [withCatchUp_sent hst' hsent]
    exact h.nextCatchUp hst hst' hqueue htimer hrounds hretries
  | finished hst' hsent hqueue =>
    rw [withCatchUp_idle hsent]
    refine h.setCatchUp (fun x hx => ?_) (fun x since hx => ?_) (by simp [hst', hst, hqueue])
    · cases hst'.symm.trans hx
    · cases hst'.symm.trans hx

theorem onMessage_catchUp_inv (h : SubInv s) (msg : Js)
    (hagain : ∀ sub ∈ s.continued msg, 0 < s.holders sub.key) :
    SubInv (s.withCatchUp (s.catchUp.onMessage msg)) := by
  cases hst : s.catchUp.catchUp with
  | none =>
    obtain ⟨hnone, hsent⟩ := onMessage_idle hst msg
    rw [withCatchUp_idle (by rw [hsent])]
    refine h.setCatchUp (fun x hx => ?_) (fun x since hx => ?_) (by simp [hnone, hst])
    · cases hnone.symm.trans hx
    · cases hnone.symm.trans hx
  | some st =>
    refine h.withCatchUp hst (onMessage_move hst msg) fun hag => hagain st.current.sub ?_
    simp [SubClient.continued, hst, hag]

theorem catchUpTimer_inv (h : SubInv s) : SubInv (s.withCatchUp s.catchUp.fireTimer) := by
  cases hst : s.catchUp.catchUp with
  | none =>
    rw [fireTimer_idle hst, withCatchUp_idle rfl]
    exact h
  | some st =>
    refine h.withCatchUp hst (fireTimer_move hst fun since => h.copies.retrying st since hst) ?_
    rintro ⟨since, htimer⟩
    refine h.copies.replaying _ (mem_replaying.2 ⟨st, hst, ?_⟩)
    simp [CatchUp.waiting, htimer]

/-! ### Answers and timers -/

/-- What waits changes, and nothing else of the client does. -/
theorem SubInv.wait (h : SubInv s) (timers : List Resubscribe) (resubs : List (String × Resubscribe))
    (pending : List PendingRequest) (ids : List String)
    (hok : ∀ f ∈ SubClient.outgoing { s with
        resubTimers := timers, pendingSubscribes := resubs, pending, retryTimers := ids },
      f ∈ s.outgoing ∨ FrameOk s.holders s.replay f)
    (hdelayed : ∀ r ∈ timers, 0 < r.attempt) :
    SubInv { s with
      resubTimers := timers, pendingSubscribes := resubs, pending, retryTimers := ids } where
  counted := h.counted
  copies := by
    refine ⟨fun f hf => ?_, h.copies.replaying, hdelayed, h.copies.retrying⟩
    rcases hok f hf with hmem | hf
    · exact h.copies.outgoing f hmem
    · exact hf
  tickets := h.tickets.mono rfl rfl (fun _ _ => le_rfl) fun hl => ⟨hl, rfl, fun _ _ => rfl⟩
  wire := h.wire.congr rfl
  live := h.live

theorem answerTrackedSubscribe_inv (h : SubInv s) (msg : Js)
    (hok : ∀ r, s.answeredSubscribe msg = some r → isRateLimited msg = true →
      s.retries r = true → FrameOk s.holders s.replay (resubscribeFrame ("", r))) :
    SubInv (s.answerTrackedSubscribe msg) := by
  unfold SubClient.answerTrackedSubscribe
  split
  · exact h
  · next r hr =>
    dsimp only
    split_ifs with hretry
    · simp only [Bool.and_eq_true] at hretry
      refine h.wait _ _ s.pending s.retryTimers (fun f hf => ?_) fun r' hr' => ?_
      · rcases mem_outgoing.1 hf with hmem | ⟨r', hr', rfl⟩ | hmem
        · exact .inl (mem_outgoing.2 (.inl hmem))
        · rcases List.mem_append.1 hr' with hr' | hr'
          · exact .inl (mem_outgoing.2 (.inr (.inl ⟨r', hr', rfl⟩)))
          · obtain rfl := List.mem_singleton.1 hr'
            exact .inr (hok r hr hretry.1 hretry.2)
        · exact .inl (mem_outgoing.2 (.inr (.inr hmem)))
      · rcases List.mem_append.1 hr' with hr' | hr'
        · exact h.copies.delayed r' hr'
        · obtain rfl := List.mem_singleton.1 hr'
          exact Nat.succ_pos _
    · exact h.wait s.resubTimers _ s.pending s.retryTimers (fun f hf => .inl hf) h.copies.delayed

/-- The request of an id, when those of another one are settled. -/
theorem find_filter_ne (pending : List PendingRequest) (id id' : String) :
    ((pending.filter fun q => q.id != id).find? fun q => q.id == id') =
      if id' = id then none else pending.find? fun q => q.id == id' := by
  rw [List.find?_filter]
  split_ifs with heq
  · subst heq
    rw [List.find?_eq_none]
    intro q _
    by_cases hq : q.id = id'
    · simp [hq]
    · simp [hq]
  · congr 1
    funext q
    by_cases hq : q.id = id'
    · simp [hq, heq]
    · simp [hq]

/-- Requests that are settled leave no more to send. -/
theorem SubInv.settle (h : SubInv s) (id : String) :
    SubInv { s with pending := s.pending.filter fun q => q.id != id } := by
  refine h.wait s.resubTimers s.pendingSubscribes _ s.retryTimers (fun f hf => .inl ?_)
    h.copies.delayed
  rcases mem_outgoing.1 hf with hmem | hmem | ⟨id', hid', p, hp, rfl⟩
  · exact mem_outgoing.2 (.inl hmem)
  · exact mem_outgoing.2 (.inr (.inl hmem))
  · refine mem_outgoing.2 (.inr (.inr ⟨id', hid', p, ?_, rfl⟩))
    rw [SubClient.requestOf, find_filter_ne] at hp
    split_ifs at hp
    exact hp

theorem answerRequest_inv (h : SubInv s) (msg : Js)
    (hok : ∀ p, s.answeredRequest msg = some p → isRateLimited msg = true →
      p.retries < RATE_RETRIES → FrameOk s.holders s.replay p.frame) :
    SubInv (s.answerRequest msg) := by
  unfold SubClient.answerRequest
  split
  · exact h
  · next p hp =>
    dsimp only
    split_ifs with hretry
    · simp only [Bool.and_eq_true, decide_eq_true_eq] at hretry
      refine h.wait s.resubTimers s.pendingSubscribes _ _ (fun f hf => ?_) h.copies.delayed
      rcases mem_outgoing.1 hf with hmem | hmem | ⟨id, hid, q, hq, rfl⟩
      · exact .inl (mem_outgoing.2 (.inl hmem))
      · exact .inl (mem_outgoing.2 (.inr (.inl hmem)))
      · by_cases heq : p.id = id
        · rw [SubClient.requestOf, List.find?_cons_of_pos (by simp [heq])] at hq
          obtain rfl := Option.some.inj hq
          exact .inr (hok p hp hretry.1 hretry.2)
        · rw [SubClient.requestOf, List.find?_cons_of_neg (by simp [heq]), find_filter_ne,
            if_neg (Ne.symm heq)] at hq
          rcases List.mem_append.1 hid with hid | hid
          · exact .inl (mem_outgoing.2 (.inr (.inr ⟨id, hid, q, hq, rfl⟩)))
          · exact absurd (List.mem_singleton.1 hid).symm heq
    · exact h.settle p.id

theorem subMessage_inv (h : SubInv s) (msg : Js)
    (hrefused : ∀ f ∈ s.refusedFrames msg, FrameOk s.holders s.replay f)
    (hagain : ∀ sub ∈ s.continued msg, 0 < s.holders sub.key) : SubInv (s.onMessage msg) := by
  have hsame : ∃ frames, s.withCatchUp (s.catchUp.onMessage msg) =
      { s with catchUp := s.catchUp.onMessage msg, outQueue := s.outQueue ++ frames } := by
    unfold SubClient.withCatchUp
    dsimp only
    split_ifs
    · exact ⟨[], by rw [List.append_nil]⟩
    · exact ⟨_, send_eq _ _⟩
  have hcatchUp := onMessage_catchUp_inv h msg hagain
  unfold SubClient.onMessage
  obtain ⟨frames, hframes⟩ := hsame
  rw [hframes] at hcatchUp ⊢
  have htracked := answerTrackedSubscribe_inv hcatchUp msg fun r hr hrate hretry => by
    refine hrefused _ ?_
    unfold SubClient.refusedFrames
    rw [if_pos hrate]
    refine List.mem_append_left _ (List.mem_map.2 ⟨r, List.mem_filter.2 ⟨?_, hretry⟩, rfl⟩)
    exact Option.mem_toList.2 hr
  refine answerRequest_inv htracked msg fun p hp hrate hretry => ?_
  -- the answer to a plain resubscribe leaves the requests and the holders alone
  have hkeep (t : SubClient) : (t.answerTrackedSubscribe msg).answeredRequest msg =
      t.answeredRequest msg ∧ (t.answerTrackedSubscribe msg).holders = t.holders ∧
      (t.answerTrackedSubscribe msg).replay = t.replay := by
    unfold SubClient.answerTrackedSubscribe
    split
    · exact ⟨rfl, rfl, rfl⟩
    · dsimp only
      split_ifs
      · exact ⟨rfl, rfl, rfl⟩
      · exact ⟨rfl, rfl, rfl⟩
  obtain ⟨hans, hholders, hreplay⟩ := hkeep _
  rw [hholders, hreplay]
  refine hrefused _ ?_
  unfold SubClient.refusedFrames
  rw [if_pos hrate]
  refine List.mem_append_right _ (List.mem_map.2 ⟨p, List.mem_filter.2 ⟨?_, by simpa using hretry⟩, rfl⟩)
  exact Option.mem_toList.2 (hans.symm.trans hp)

/-- An id is taken. -/
theorem SubInv.nextId (h : SubInv s) (n : ℕ) :
    SubInv { s with catchUp := { s.catchUp with nextId := n } } where
  counted := h.counted
  copies := h.copies.mono rfl rfl (fun _ hf => .inl hf) (fun _ hr => hr) fun _ hst => hst
  tickets := h.tickets.mono rfl rfl (fun _ _ => le_rfl) fun hl => ⟨hl, rfl, fun _ _ => rfl⟩
  wire := h.wire.congr rfl
  live := h.live

theorem fireResub_inv (h : SubInv s) (i : ℕ) : SubInv (s.fireResub i) := by
  unfold SubClient.fireResub
  split
  · exact h
  · next r hr =>
    have hmem : r ∈ s.resubTimers := List.mem_of_getElem? hr
    unfold SubClient.sendTrackedSubscribe
    have hset := h.wait (s.resubTimers.eraseIdx i)
      ([("resub-" ++ toString s.catchUp.nextId, r)].reverse ++ s.pendingSubscribes) s.pending
      s.retryTimers (fun f hf => .inl ?_) fun r' hr' => h.copies.delayed r' (List.mem_of_mem_eraseIdx hr')
    · refine (hset.nextId (s.catchUp.nextId + 1)).send ?_ ?_
      · intro f hf
        obtain rfl := List.mem_singleton.1 hf
        have hok := h.copies.outgoing _ (mem_outgoing.2 (.inr (.inl ⟨r, hmem, rfl⟩)))
        exact hok
      · intro f hf root key
        obtain rfl := List.mem_singleton.1 hf
        have hne : r.attempt ≠ 0 := (h.copies.delayed r hmem).ne'
        simp [resubscribeFrame, WsFrame.isFirst, hne]
    · rcases mem_outgoing.1 hf with hmem | ⟨r', hr', rfl⟩ | hmem
      · exact mem_outgoing.2 (.inl hmem)
      · exact mem_outgoing.2 (.inr (.inl ⟨r', List.mem_of_mem_eraseIdx hr', rfl⟩))
      · exact mem_outgoing.2 (.inr (.inr hmem))

theorem fireRetry_inv (h : SubInv s) (i : ℕ) : SubInv (s.fireRetry i) := by
  unfold SubClient.fireRetry
  split
  · exact h
  · next id hid =>
    have hmem : id ∈ s.retryTimers := List.mem_of_getElem? hid
    have hset := h.wait s.resubTimers s.pendingSubscribes s.pending (s.retryTimers.eraseIdx i)
      (fun f hf => .inl ?_) h.copies.delayed
    · dsimp only
      split
      · next p hp =>
        refine hset.send (fun f hf => ?_) fun f hf root key => ?_
        · obtain rfl := List.mem_singleton.1 hf
          exact h.copies.outgoing _ (mem_outgoing.2 (.inr (.inr ⟨id, hmem, p, hp, rfl⟩)))
        · obtain rfl := List.mem_singleton.1 hf
          unfold PendingRequest.frame
          split
          · rfl
          · rfl
      · exact hset
    · rcases mem_outgoing.1 hf with hmem | hmem | ⟨id', hid', hrest⟩
      · exact mem_outgoing.2 (.inl hmem)
      · exact mem_outgoing.2 (.inr (.inl hmem))
      · exact mem_outgoing.2 (.inr (.inr ⟨id', List.mem_of_mem_eraseIdx hid', hrest⟩))

/-! ### Sockets -/

/-- Frames of the queue, tickets included, are dropped. -/
theorem SubInv.drop (h : SubInv s) (resubs : List (String × Resubscribe))
    (hnone : s.replay.live = true → ∀ frame, .subscribe frame ∉ s.outQueue) :
    SubInv { s with outQueue := [], pendingSubscribes := resubs } where
  counted := h.counted
  copies := by
    refine h.copies.mono rfl rfl (fun f hf => .inl ?_) (fun _ hr => hr) fun _ hst => hst
    rcases mem_outgoing.1 hf with hmem | hrest
    · cases hmem
    · exact mem_outgoing.2 (.inr hrest)
  tickets := by
    refine h.tickets.mono rfl rfl (fun root key => ?_) fun hl => ⟨hl, rfl, fun root key => ?_⟩
    · simp only [SubClient.tickets, SubClient.sentFirst, SubClient.waitingFirst, List.countP_nil]
      omega
    · have hzero : s.outQueue.countP (WsFrame.isFirst root key) = 0 := by
        refine List.countP_eq_zero.2 fun f hf => ?_
        cases f with
        | subscribe frame => exact absurd hf (hnone hl frame)
        | unsubscribe channels params => simp [WsFrame.isFirst]
        | other => simp [WsFrame.isFirst]
      simp only [SubClient.tickets, SubClient.sentFirst, SubClient.waitingFirst, List.countP_nil,
        hzero]
  wire := h.wire.congr rfl
  live := h.live

/-- The connection of the last reconnect goes. -/
theorem SubInv.endReplay (h : SubInv s) (b : Bool) : SubInv { s.endReplay with isOpen := b } where
  counted := h.counted
  copies := ⟨fun f hf => frameOk_endReplay (h.copies.outgoing f hf), h.copies.replaying,
    h.copies.delayed, h.copies.retrying⟩
  tickets := h.tickets.mono rfl rfl (fun _ _ => le_rfl) fun hl => by cases hl
  wire := h.wire.congr rfl
  live := fun hl => by cases hl

/-- The attempts to reconnect are counted, and the connections. -/
theorem SubInv.attempts (h : SubInv s) (reconnects : ℕ) (connected : Bool) :
    SubInv { s with reconnects, connected } where
  counted := h.counted
  copies := h.copies.mono rfl rfl (fun _ hf => .inl hf) (fun _ hr => hr) fun _ hst => hst
  tickets := h.tickets.mono rfl rfl (fun _ _ => le_rfl) fun hl => ⟨hl, rfl, fun _ _ => rfl⟩
  wire := h.wire.congr rfl
  live := h.live

/-- A reconnect when nobody holds a key: nothing is left to send, and there is nothing to replay. -/
theorem SubInv.beginReplay (h : SubInv s) (hopen : s.isOpen = true)
    (hnone : ∀ key, s.holders key = 0) : SubInv s.beginReplay := by
  have hqueue : s.catchUp.catchUp.toList.flatMap CatchUp.queue = [] := by
    refine List.eq_nil_iff_forall_not_mem.2 fun sub hsub => ?_
    obtain ⟨st, hst, hmem⟩ := List.mem_flatMap.1 hsub
    have hpos := h.copies.replaying sub (List.mem_flatMap.2 ⟨st, hst, queue_subset_waiting st hmem⟩)
    exact absurd (hnone sub.key) hpos.ne'
  have htickets (root : ℕ) (key : String) : s.beginReplay.tickets root key = s.tickets root key := by
    simp only [SubClient.tickets, SubClient.sentFirst, SubClient.waitingFirst,
      SubClient.beginReplay, hqueue, List.countP_nil, ite_self]
  refine ⟨h.counted, ⟨fun f hf => ?_, h.copies.replaying, h.copies.delayed, h.copies.retrying⟩,
    ⟨fun root key hge => ?_, fun root key => ?_, fun _ key hkey => ?_, Nat.lt_succ_self _⟩,
    h.wire.congr rfl, fun _ => hopen⟩
  · have hok := h.copies.outgoing f hf
    cases f with
    | subscribe frame => exact absurd (hnone frame.sub.key) hok.1.ne'
    | unsubscribe channels params => exact hok
    | other => trivial
  · have hge' : s.started + 1 ≤ root := hge
    rw [htickets]
    exact h.tickets.fresh root key (by omega)
  · rw [htickets]
    exact h.tickets.atMostOnce root key
  · have hpos : 0 < s.holders key := by simpa [SubClient.beginReplay, SubClient.holds] using hkey
    exact absurd (hnone key) hpos.ne'

/-- The catch-up is abandoned. -/
theorem SubInv.dropCatchUp (h : SubInv s)
    (hnone : s.replay.live = true → ∀ st, s.catchUp.catchUp = some st → st.queue = []) :
    SubInv { s with catchUp := s.catchUp.dropCatchUp } := by
  have hgone : s.catchUp.dropCatchUp.catchUp = none := by
    unfold CatchUpClient.dropCatchUp
    split
    · next hst => exact hst
    · rfl
  refine ⟨h.counted, h.copies.mono rfl rfl (fun f hf => .inl hf) (fun _ hr => hr) ?_, ?_,
    h.wire.congr rfl, h.live⟩
  · intro st hst
    cases hgone.symm.trans hst
  · refine h.tickets.mono rfl rfl (fun root key => ?_) fun hl => ⟨hl, rfl, fun root key => ?_⟩
    · simp only [SubClient.tickets, SubClient.sentFirst, SubClient.waitingFirst, hgone,
        Option.toList_none, List.flatMap_nil, List.countP_nil, ite_self]
      omega
    · have hempty : s.catchUp.catchUp.toList.flatMap CatchUp.queue = [] := by
        cases hst : s.catchUp.catchUp with
        | none => rfl
        | some st => simpa using hnone hl st hst
      simp only [SubClient.tickets, SubClient.sentFirst, SubClient.waitingFirst, hgone, hempty,
        Option.toList_none, List.flatMap_nil]

theorem drainOut_inv (h : SubInv s) (n : ℕ) : SubInv (s.drainOut n) := by
  unfold SubClient.drainOut
  split_ifs with hopen
  · have hqueue (f : WsFrame) (hf : f ∈ s.outQueue) : FrameOk s.holders s.replay f :=
      h.copies.outgoing f (mem_outgoing.2 (.inl hf))
    refine ⟨h.counted, ?_, ?_, ?_, h.live⟩
    · refine h.copies.mono rfl rfl (fun f hf => .inl ?_) (fun _ hr => hr) fun _ hst => hst
      rcases mem_outgoing.1 hf with hmem | hrest
      · exact mem_outgoing.2 (.inl (List.mem_of_mem_drop hmem))
      · exact mem_outgoing.2 (.inr hrest)
    · -- a ticket that goes out is one less in the queue
      have heq (root : ℕ) (key : String) : { s with
          wire := s.wire ++ (s.outQueue.take n).map s.note
          outQueue := s.outQueue.drop n }.tickets root key = s.tickets root key := by
        have hframes : (s.wire ++ (s.outQueue.take n).map s.note).map SentFrame.frame =
            s.wire.map SentFrame.frame ++ s.outQueue.take n := by
          rw [List.map_append, List.map_map]
          congr 1
          exact List.map_id _
        have hsplit := congrArg (List.countP (WsFrame.isFirst root key)) (List.take_append_drop n s.outQueue)
        rw [List.countP_append] at hsplit
        simp only [SubClient.tickets, SubClient.sentFirst, SubClient.waitingFirst, hframes,
          List.countP_append]
        omega
      exact h.tickets.mono rfl rfl (fun root key => (heq root key).le) fun hl => ⟨hl, rfl, heq⟩
    · refine ⟨fun x hx frame hframe => ?_, fun x hx channels params hframe => ?_,
        fun x hx frame root hframe hroot => ?_⟩
      · rcases List.mem_append.1 hx with hx | hx
        · exact h.wire.released x hx frame hframe
        · obtain ⟨f, hf, rfl⟩ := List.mem_map.1 hx
          obtain rfl : f = .subscribe frame := hframe
          have hok := (hqueue _ (List.mem_of_mem_take hf)).1
          simpa [SubClient.note, WsFrame.key?, SubClient.holds] using hok
      · rcases List.mem_append.1 hx with hx | hx
        · exact h.wire.kept x hx channels params hframe
        · obtain ⟨f, hf, rfl⟩ := List.mem_map.1 hx
          obtain rfl : f = .unsubscribe channels params := hframe
          have hok := hqueue _ (List.mem_of_mem_take hf)
          change s.holders _ = 0 at hok
          simp [SubClient.note, WsFrame.key?, SubClient.holds, hok]
      · rcases List.mem_append.1 hx with hx | hx
        · exact h.wire.recent x hx frame root hframe hroot
        · obtain ⟨f, hf, rfl⟩ := List.mem_map.1 hx
          obtain rfl : f = .subscribe frame := hframe
          have hok := (hqueue _ (List.mem_of_mem_take hf)).2
          simp only [SubClient.note] at hroot
          split_ifs at hroot with hl
          obtain rfl := Option.some.inj hroot
          exact hok hl
  · exact h.drop s.pendingSubscribes fun hl => absurd (h.live hl) hopen

/-! ### The calls -/

/-- A key has one holder more. -/
theorem SubInv.raise (h : SubInv s) {key : String} {entries : List TrackedSub}
    (hcounted : Refcounted (Function.update s.holders key (s.holders key + 1)) entries)
    (hne : s.holders key = 0 → ∀ channels params, .unsubscribe channels params ∈ s.outgoing →
      WsSub.key ⟨channels, params⟩ ≠ key) :
    SubInv { s with holders := Function.update s.holders key (s.holders key + 1), entries } where
  counted := hcounted
  copies := by
    refine ⟨fun f hf => frameOk_raise (h.copies.outgoing f hf) ?_, fun sub hsub => ?_,
      h.copies.delayed, h.copies.retrying⟩
    · rintro channels params rfl heq
      have hzero : s.holders (WsSub.key ⟨channels, params⟩) = 0 := h.copies.outgoing _ hf
      exact hne (heq ▸ hzero) channels params hf heq
    · have hpos := h.copies.replaying sub hsub
      change 0 < Function.update s.holders key (s.holders key + 1) sub.key
      by_cases heq : sub.key = key
      · rw [heq, Function.update_self]
        omega
      · rw [Function.update_of_ne heq]
        exact hpos
  tickets := h.tickets.mono rfl rfl (fun _ _ => le_rfl) fun hl => ⟨hl, rfl, fun _ _ => rfl⟩
  wire := h.wire.congr rfl
  live := h.live

/-- A key has one holder less. -/
theorem SubInv.lower (h : SubInv s) {key : String}
    (hqueued : s.holders key = 1 → ∀ frame, .subscribe frame ∈ s.outgoing → frame.sub.key ≠ key)
    (hreplaying : s.holders key = 1 → ∀ sub ∈ s.replaying, sub.key ≠ key) :
    SubInv { s with
      holders := Function.update s.holders key (s.holders key - 1)
      entries := TrackedSub.release key s.entries } where
  counted := h.counted.release
  copies := by
    refine ⟨fun f hf => frameOk_lower (h.copies.outgoing f hf) ?_, fun sub hsub => ?_,
      h.copies.delayed, h.copies.retrying⟩
    · rintro hone frame rfl
      exact hqueued hone frame hf
    · have hpos := h.copies.replaying sub hsub
      change 0 < Function.update s.holders key (s.holders key - 1) sub.key
      by_cases heq : sub.key = key
      · have hlast : s.holders key ≠ 1 := fun hone => hreplaying hone sub hsub heq
        rw [heq] at hpos
        rw [heq, Function.update_self]
        omega
      · rw [Function.update_of_ne heq]
        exact hpos
  tickets := h.tickets.mono rfl rfl (fun _ _ => le_rfl) fun hl => ⟨hl, rfl, fun _ _ => rfl⟩
  wire := h.wire.congr rfl
  live := h.live

/-- A new request. -/
theorem SubInv.request (h : SubInv s) (p : PendingRequest)
    (hok : FrameOk s.holders s.replay p.frame) : SubInv { s with pending := p :: s.pending } := by
  refine h.wait s.resubTimers s.pendingSubscribes _ s.retryTimers (fun f hf => ?_) h.copies.delayed
  rcases mem_outgoing.1 hf with hmem | hmem | ⟨id, hid, q, hq, rfl⟩
  · exact .inl (mem_outgoing.2 (.inl hmem))
  · exact .inl (mem_outgoing.2 (.inr (.inl hmem)))
  · by_cases heq : p.id = id
    · rw [SubClient.requestOf, List.find?_cons_of_pos (by simp [heq])] at hq
      obtain rfl := Option.some.inj hq
      exact .inr hok
    · rw [SubClient.requestOf, List.find?_cons_of_neg (by simp [heq])] at hq
      exact .inl (mem_outgoing.2 (.inr (.inr ⟨id, hid, q, hq, rfl⟩)))

/-- The first frame of a new call. -/
theorem SubInv.start (h : SubInv s) (frame : SubscribeFrame) (hroot : frame.root = s.started)
    (hheld : 0 < s.holders frame.sub.key) :
    SubInv { s with
      started := s.started + 1
      outQueue := s.outQueue ++ if s.isOpen then [.subscribe frame] else [] } := by
  have hcount (root : ℕ) (key : String) :
      (if s.isOpen then [WsFrame.subscribe frame] else []).countP (WsFrame.isFirst root key) ≤ 1 ∧
        (root ≠ s.started → (if s.isOpen then [WsFrame.subscribe frame] else []).countP
          (WsFrame.isFirst root key) = 0) := by
    refine ⟨?_, fun hne => ?_⟩
    · refine List.countP_le_length.trans ?_
      split_ifs
      · exact le_rfl
      · exact Nat.zero_le _
    · refine List.countP_eq_zero.2 fun f hf => ?_
      split_ifs at hf
      · obtain rfl := List.mem_singleton.1 hf
        simp [WsFrame.isFirst, hroot, hne.symm]
      · cases hf
  have htickets (root : ℕ) (key : String) : { s with
      started := s.started + 1
      outQueue := s.outQueue ++ if s.isOpen then [WsFrame.subscribe frame] else [] }.tickets root key =
        s.tickets root key + (if s.isOpen then [WsFrame.subscribe frame] else []).countP
          (WsFrame.isFirst root key) := tickets_append s _ root key
  refine ⟨h.counted, ?_, ⟨fun root key hge => ?_, fun root key => ?_, fun hl key hkey => ?_, ?_⟩,
    h.wire.congr rfl, h.live⟩
  · refine ⟨fun f hf => ?_, h.copies.replaying, h.copies.delayed, h.copies.retrying⟩
    rcases mem_outgoing.1 hf with hmem | hrest
    · rcases List.mem_append.1 hmem with hmem | hmem
      · exact h.copies.outgoing f (mem_outgoing.2 (.inl hmem))
      · split_ifs at hmem
        · obtain rfl := List.mem_singleton.1 hmem
          exact ⟨hheld, fun _ => hroot ▸ h.tickets.root.le⟩
        · cases hmem
    · exact h.copies.outgoing f (mem_outgoing.2 (.inr hrest))
  · have hge' : s.started + 1 ≤ root := hge
    rw [htickets, h.tickets.fresh root key (by omega), (hcount root key).2 (by omega)]
  · rw [htickets]
    by_cases hr : root = s.started
    · rw [h.tickets.fresh root key (by omega), Nat.zero_add]
      exact (hcount root key).1
    · rw [(hcount root key).2 hr]
      exact h.tickets.atMostOnce root key
  · rw [htickets, (hcount _ key).2 (Nat.ne_of_lt h.tickets.root)]
    exact h.tickets.once hl key hkey
  · exact Nat.lt_succ_of_lt h.tickets.root

theorem subscribe_inv (h : SubInv s) (array : ℕ) (channels params : Js)
    (hne : ∀ key, subscriptionKey channels params = some key → s.holders key = 0 →
      ∀ channels' params', .unsubscribe channels' params' ∈ s.outgoing →
        WsSub.key ⟨channels', params'⟩ ≠ key) : SubInv (s.subscribe array channels params) := by
  unfold SubClient.subscribe
  split
  · exact h
  · next key hkey =>
    dsimp only
    split
    · next e he =>
      obtain ⟨hmem, rfl⟩ := TrackedSub.find_eq_some he
      exact h.raise (h.counted.join (List.mem_map_of_mem hmem)) (hne e.key hkey)
    · next hnone =>
      have hsub := (key_of_subscriptionKey hkey).2
      have hraise := h.raise (h.counted.add (TrackedSub.find_eq_none.1 hnone) array hsub)
        (hne key hkey)
      have hpos : 0 < Function.update s.holders key (s.holders key + 1)
          (WsSub.key ⟨channels, params.or (.obj [])⟩) := by
        rw [hsub, Function.update_self]
        exact Nat.succ_pos _
      have hnext := (hraise.nextId (s.catchUp.nextId + 1)).request
        ⟨"sub-" ++ toString s.catchUp.nextId, some ⟨"sub-" ++ toString s.catchUp.nextId, channels,
          params, ⟨channels, params.or (.obj [])⟩, s.started, true⟩, 0⟩
        ⟨hpos, fun _ => h.tickets.root.le⟩
      have hstart := hnext.start ⟨"sub-" ++ toString s.catchUp.nextId, channels, params,
        ⟨channels, params.or (.obj [])⟩, s.started, true⟩ rfl hpos
      rw [send_eq]
      exact hstart

theorem unsubscribe_inv (h : SubInv s) (channels params : Js)
    (hlast : ∀ key, subscriptionKey channels params = some key → s.holders key = 1 →
      (∀ frame, .subscribe frame ∈ s.outgoing → frame.sub.key ≠ key) ∧
        ∀ sub ∈ s.replaying, sub.key ≠ key) : SubInv (s.unsubscribe channels params) := by
  unfold SubClient.unsubscribe
  split
  · exact h
  · next key hkey =>
    have hlower := h.lower (fun hone => (hlast key hkey hone).1) fun hone => (hlast key hkey hone).2
    have hsend (hle : s.holders key ≤ 1) :
        SubInv (SubClient.send { s with
          holders := Function.update s.holders key (s.holders key - 1)
          entries := TrackedSub.release key s.entries } [.unsubscribe channels params]) := by
      refine hlower.send (fun f hf => ?_) fun f hf root k => ?_
      · obtain rfl := List.mem_singleton.1 hf
        change Function.update s.holders key (s.holders key - 1) _ = 0
        rw [(key_of_subscriptionKey hkey).1, Function.update_self]
        omega
      · obtain rfl := List.mem_singleton.1 hf
        rfl
    dsimp only
    split
    · next e he =>
      obtain ⟨hmem, rfl⟩ := TrackedSub.find_eq_some he
      split_ifs with hrefs
      · exact hlower
      · refine hsend ?_
        rw [← (h.counted.refs e hmem).1]
        omega
    · next hnone =>
      refine hsend ?_
      by_contra hgt
      exact TrackedSub.find_eq_none.1 hnone (h.counted.tracked key (by omega))

end XChainSdk
