import XChainSdk.WebSocket.CatchUpSafety
import XChainSdk.WebSocket.Client

/-!
# A client that was welcomed does not die silently

From the first `WELCOME` until the caller disconnects, the current socket is not closed, or an attempt
is scheduled or waits for its hook, or `connection_lost` was emitted; and no event of a socket that
was superseded clears the state of the current one. This holds as long as the last attempt of a
client does not fail before its `WELCOME`, and a superseded socket neither opens, closes nor is
welcomed.

* `Alive` : the states that a welcomed client may be in.
* `ClientMeets` : the condition on one event.
* `ClientInv` : the invariant of the sockets and their flags.
* `neverSilent_of_meets` : the two properties over every run whose events meet the condition.
-/

namespace XChainSdk

open WsClient

/-- The current socket is not closed. -/
def HasSocket (s : WsClient) : Prop := ∃ k, s.ws = some k ∧ (s.sockets k).ready ≠ .closed

/-- Something goes on without the current socket. -/
def Elsewhere (s : WsClient) : Prop := 0 < s.timers ∨ s.hooks ≠ [] ∨ s.lost ≠ none

/-- A socket is there or on its way, or the caller was told that there is none. -/
def Alive (s : WsClient) : Prop := HasSocket s ∨ Elsewhere s

/-- The failure of an attempt, were it to fail now, is not the failure of the last one. -/
def MayFail (s : WsClient) : Prop := s.welcomed = true → Alive s

/-- The socket is the current one, or there is none and the client is not to reconnect. -/
def IsCurrent (s : WsClient) (k : ℕ) : Prop :=
  s.ws = some k ∨ (s.ws = none ∧ (s.intentionalClose = true ∨ s.welcomed = false))

/-- The condition on one event: no attempt fails as the last one, and no superseded socket opens,
closes or is welcomed. -/
def ClientMeets (cfg : WsConfig) (s : WsClient) : ClientOp → Prop
  | .setBase constructs => s.connected = true → s.isOpen = true →
      cfg.readyHook = true ∨ constructs = true ∨ (s.welcomed = true → Elsewhere s)
  | .reconnectTimer constructs => s.isBusy = true ∨ cfg.readyHook = true ∨ constructs = true ∨
      MayFail { s with timers := s.timers - 1 }
  | .hook i ok constructs => (ok = true ∧ constructs = true) ∨
      MayFail { s with hooks := s.hooks.eraseIdx i }
  | .socket k .opened => IsCurrent s k
  | .socket k .closed => IsCurrent s k ∧
      ((s.sockets k).welcomed = false → s.welcomed = true → Elsewhere s)
  | .socket k (.message msg) => s.isWelcome k msg = true → IsCurrent s k
  | _ => True

/-- The invariant of the sockets and their flags. -/
structure ClientInv (cfg : WsConfig) (s : WsClient) : Prop where
  alive : s.welcomed = true → Alive s
  lost : s.welcomed = true → ∀ n, s.lost = some n → cfg.maxReconnectAttempts.le (.fin n) = true
  /-- the current socket is not meant to close -/
  current : ∀ k, s.ws = some k → k < s.opened ∧ s.intentionalClose = false
  /-- the attempts are counted from the opening of the current socket -/
  attempts : ∀ k, s.ws = some k → (s.sockets k).ready = .opened ∨ (s.sockets k).ready = .closing →
    s.reconnectAttempts = 0
  /-- a socket that was welcomed was opened -/
  opened : ∀ k, (s.sockets k).welcomed = true → (s.sockets k).ready ≠ .connecting

/-- Nothing but the catch-up, the outbound queue, the pings and the flag of the connection differs. -/
structure SameSockets (s s' : WsClient) : Prop where
  sockets : s'.sockets = s.sockets
  opened : s'.opened = s.opened
  ws : s'.ws = s.ws
  intentionalClose : s'.intentionalClose = s.intentionalClose
  reconnectAttempts : s'.reconnectAttempts = s.reconnectAttempts
  timers : s'.timers = s.timers
  hooks : s'.hooks = s.hooks
  welcomed : s'.welcomed = s.welcomed
  failures : s'.failures = s.failures
  lost : s'.lost = s.lost

namespace SameSockets

variable {s s' s'' : WsClient}

theorem refl (s : WsClient) : SameSockets s s := ⟨rfl, rfl, rfl, rfl, rfl, rfl, rfl, rfl, rfl, rfl⟩

theorem trans (h : SameSockets s s') (h' : SameSockets s' s'') : SameSockets s s'' :=
  ⟨h'.1.trans h.1, h'.2.trans h.2, h'.3.trans h.3, h'.4.trans h.4, h'.5.trans h.5, h'.6.trans h.6,
    h'.7.trans h.7, h'.8.trans h.8, h'.9.trans h.9, h'.10.trans h.10⟩

theorem alive (h : SameSockets s s') (ha : Alive s) : Alive s' := by
  rcases ha with ⟨k, hk, hready⟩ | ha
  · exact .inl ⟨k, h.ws ▸ hk, h.sockets ▸ hready⟩
  · refine .inr ?_
    unfold Elsewhere
    rw [h.timers, h.hooks, h.lost]
    exact ha

theorem inv {cfg : WsConfig} (h : SameSockets s s') (hinv : ClientInv cfg s) : ClientInv cfg s' where
  alive hw := h.alive (hinv.alive (h.welcomed ▸ hw))
  lost hw n hn := hinv.lost (h.welcomed ▸ hw) n (h.lost ▸ hn)
  current k hk := by
    rw [h.opened, h.intentionalClose]
    exact hinv.current k (h.ws ▸ hk)
  attempts k hk hready := by
    rw [h.reconnectAttempts]
    exact hinv.attempts k (h.ws ▸ hk) (h.sockets ▸ hready)
  opened := h.sockets ▸ hinv.opened

theorem send (s : WsClient) (frames : List OutFrame) : SameSockets s (s.send frames) := by
  unfold WsClient.send
  split_ifs
  · exact ⟨rfl, rfl, rfl, rfl, rfl, rfl, rfl, rfl, rfl, rfl⟩
  · exact refl s

theorem withCatchUp (s : WsClient) (c : CatchUpClient) : SameSockets s (s.withCatchUp c) :=
  have h : SameSockets s { s with catchUp := c } :=
    ⟨rfl, rfl, rfl, rfl, rfl, rfl, rfl, rfl, rfl, rfl⟩
  h.trans (send _ _)

theorem resubscribe (s : WsClient) : SameSockets s s.resubscribe :=
  (send _ _).trans (withCatchUp _ _)

end SameSockets

/-! ### One lemma for each method -/

section Methods

variable {cfg : WsConfig} {s : WsClient}

theorem hasSocket_of_isBusy (h : s.isBusy = true) : HasSocket s := by
  simp only [isBusy, isOpen, ready, Bool.or_eq_true, decide_eq_true_eq, Option.map_eq_some_iff] at h
  rcases h with ⟨k, hk, hready⟩ | ⟨k, hk, hready⟩
  · exact ⟨k, hk, by simp [hready]⟩
  · exact ⟨k, hk, by simp [hready]⟩

theorem alive_iff_of_ws_eq_none (h : s.ws = none) : Alive s ↔ Elsewhere s := by
  refine ⟨?_, .inr⟩
  rintro (⟨k, hk, -⟩ | he)
  · rw [h] at hk
    cases hk
  · exact he

/-- A socket is opened, or the attempt fails and something else goes on. -/
theorem openWebSocket_inv (a : ConnectCall) {constructs : Bool}
    (hlost : s.welcomed = true → ∀ n, s.lost = some n → cfg.maxReconnectAttempts.le (.fin n) = true)
    (hcurrent : ∀ k, s.ws = some k → k < s.opened)
    (hattempts : ∀ k, s.ws = some k →
      (s.sockets k).ready = .opened ∨ (s.sockets k).ready = .closing → s.reconnectAttempts = 0)
    (hopened : ∀ k, (s.sockets k).welcomed = true → (s.sockets k).ready ≠ .connecting)
    (hmay : constructs = true ∨ MayFail s) : ClientInv cfg (s.openWebSocket a constructs) := by
  unfold openWebSocket
  cases constructs with
  | true =>
    refine ⟨fun _ => .inl ⟨s.opened, rfl, by simp [setSocket]⟩, hlost, fun k hk => ?_,
      fun k hk hready => ?_, fun k hk => ?_⟩
    · cases hk
      exact ⟨Nat.lt_succ_self _, rfl⟩
    · cases hk
      simp [setSocket] at hready
    · change (Function.update s.sockets s.opened ⟨.connecting, false, some a⟩ k).welcomed = true
        at hk
      change (Function.update s.sockets s.opened ⟨.connecting, false, some a⟩ k).ready ≠ _
      by_cases hnew : k = s.opened
      · simp [hnew] at hk
      · rw [Function.update_of_ne hnew] at hk ⊢
        exact hopened k hk
  | false =>
    have hmay' : MayFail s := by simpa using hmay
    exact ⟨hmay', hlost, fun k hk => ⟨hcurrent k hk, rfl⟩, hattempts, hopened⟩

/-- `connect` keeps the invariant, unless its constructor throws as the last attempt. -/
theorem connect_inv (a : ConnectCall) {constructs : Bool} (h : s.isBusy = true → ClientInv cfg s)
    (hlost : s.welcomed = true → ∀ n, s.lost = some n → cfg.maxReconnectAttempts.le (.fin n) = true)
    (hcurrent : ∀ k, s.ws = some k → k < s.opened ∧ s.intentionalClose = false)
    (hattempts : ∀ k, s.ws = some k →
      (s.sockets k).ready = .opened ∨ (s.sockets k).ready = .closing → s.reconnectAttempts = 0)
    (hopened : ∀ k, (s.sockets k).welcomed = true → (s.sockets k).ready ≠ .connecting)
    (hmay : s.isBusy = true ∨ cfg.readyHook = true ∨ constructs = true ∨ MayFail s) :
    ClientInv cfg (s.connect cfg a constructs) := by
  unfold connect
  split_ifs with hbusy hre hhook
  · exact (SameSockets.resubscribe s).inv (h hbusy)
  · exact h hbusy
  · exact ⟨fun _ => .inr (.inr (.inl (by simp))), hlost, hcurrent, hattempts, hopened⟩
  · refine openWebSocket_inv a hlost (fun k hk => (hcurrent k hk).1) hattempts hopened ?_
    rcases hmay with hb | hk | hmay
    · exact absurd hb hbusy
    · exact absurd hk hhook
    · exact hmay

/-- `disconnect` leaves no current socket. -/
theorem disconnect_ws : s.disconnect.ws = none := by
  unfold disconnect
  dsimp only
  split
  · rfl
  · next h => exact h

theorem disconnect_rest : s.disconnect.timers = s.timers ∧ s.disconnect.hooks = s.hooks ∧
    s.disconnect.lost = s.lost ∧ s.disconnect.welcomed = s.welcomed := by
  unfold disconnect
  dsimp only
  split
  · unfold closeSocket
    split <;> exact ⟨rfl, rfl, rfl, rfl⟩
  · exact ⟨rfl, rfl, rfl, rfl⟩

theorem disconnect_opened (h : ClientInv cfg s) (k : ℕ) :
    (s.disconnect.sockets k).welcomed = true → (s.disconnect.sockets k).ready ≠ .connecting := by
  unfold disconnect
  dsimp only
  split
  · next j _ =>
    unfold closeSocket
    split_ifs
    · exact h.opened k
    · simp only [setSocket, Function.update_apply]
      split_ifs
      · simp
      · exact h.opened k
  · exact h.opened k

/-- A socket that closes makes the client reconnect, or give up. -/
theorem reconnect_inv (hcurrent : ∀ k, s.ws = some k → k < s.opened ∧ s.intentionalClose = false)
    (hclosed : ∀ k, s.ws = some k → (s.sockets k).ready = .closed)
    (halive : s.intentionalClose = true → s.welcomed = true → Alive s)
    (hlost : s.welcomed = true → ∀ n, s.lost = some n → cfg.maxReconnectAttempts.le (.fin n) = true)
    (hzero : s.intentionalClose = false → s.welcomed = true → s.reconnectAttempts = 0)
    (hopened : ∀ k, (s.sockets k).welcomed = true → (s.sockets k).ready ≠ .connecting) :
    ClientInv cfg (s.reconnect cfg) := by
  have hattempts (n : ℕ) : ∀ k, s.ws = some k →
      (s.sockets k).ready = .opened ∨ (s.sockets k).ready = .closing → n = 0 := by
    intro k hk hready
    rw [hclosed k hk] at hready
    simp at hready
  unfold reconnect
  split_ifs with hint hmax
  · exact ⟨halive hint, hlost, hcurrent, hattempts _, hopened⟩
  · refine ⟨fun _ => .inr (.inr (.inr (by simp))), fun hw n hn => ?_, hcurrent, hattempts _, hopened⟩
    -- no attempt was made since the socket opened, so the bound is at most 0
    cases hn
    rw [hzero (by simpa using hint) hw] at hmax
    exact JsNum.le_fin_trans hmax (by exact_mod_cast Nat.zero_le _)
  · exact ⟨fun _ => .inr (.inl (Nat.succ_pos _)), hlost, hcurrent, hattempts _, hopened⟩

theorem setSocket_ready (k : ℕ) (socket : Socket) (j : ℕ) :
    ((s.setSocket k socket).sockets j).ready
      = if j = k then socket.ready else (s.sockets j).ready := by
  simp only [setSocket, Function.update_apply]
  split_ifs <;> rfl

/-- The ready state of a socket apart, what changes of it says nothing about the client. -/
theorem setSocket_inv (h : ClientInv cfg s) {k : ℕ} {socket : Socket}
    (hready : socket.ready = (s.sockets k).ready)
    (hopened : socket.welcomed = true → socket.ready ≠ .connecting) :
    ClientInv cfg (s.setSocket k socket) := by
  have hsame (j : ℕ) : ((s.setSocket k socket).sockets j).ready = (s.sockets j).ready := by
    rw [setSocket_ready]
    split_ifs with hj
    · rw [hready, hj]
    · rfl
  refine ⟨fun hw => ?_, h.lost, h.current, fun j hj hopen => ?_, fun j hj => ?_⟩
  · rcases h.alive hw with ⟨j, hj, hopen⟩ | he
    · exact .inl ⟨j, hj, by rwa [hsame]⟩
    · exact .inr he
  · rw [hsame] at hopen
    exact h.attempts j hj hopen
  · by_cases hjk : j = k
    · simp only [setSocket, hjk, Function.update_self] at hj ⊢
      exact hopened hj
    · simp only [setSocket, Function.update_of_ne hjk] at hj ⊢
      exact h.opened j hj

theorem attemptFailed_inv (h : ClientInv cfg s) : ClientInv cfg s.attemptFailed :=
  ⟨h.alive, h.lost, h.current, h.attempts, h.opened⟩

theorem reject_inv (h : ClientInv cfg s) (k : ℕ) : ClientInv cfg (s.reject k) := by
  unfold reject
  split
  · exact attemptFailed_inv (setSocket_inv h rfl (h.opened k))
  · exact h

/-- A socket that opens, or whose peer starts to close it, is there as it was before. -/
theorem setReady_inv (h : ClientInv cfg s) {k n : ℕ} {ready : ReadyState}
    (hready : ready = .opened ∨ ready = .closing)
    (hn : ∀ j, s.ws = some j → (s.sockets j).ready = .opened ∨ (s.sockets j).ready = .closing ∨
      j = k → n = 0) :
    ClientInv cfg { s.setSocket k { s.sockets k with ready } with reconnectAttempts := n } := by
  refine ⟨fun hw => ?_, h.lost, h.current, fun j hj hopen => hn j hj ?_, fun j hj => ?_⟩
  · rcases h.alive hw with ⟨j, hj, hopen⟩ | he
    · refine .inl ⟨j, hj, ?_⟩
      rw [setSocket_ready]
      split_ifs
      · rcases hready with rfl | rfl <;> simp
      · exact hopen
    · exact .inr he
  · rw [setSocket_ready] at hopen
    split_ifs at hopen with hjk
    · exact .inr (.inr hjk)
    · rcases hopen with ho | ho
      · exact .inl ho
      · exact .inr (.inl ho)
  · change ((s.setSocket k { s.sockets k with ready }).sockets j).ready ≠ _
    rw [setSocket_ready]
    split_ifs with hjk
    · rcases hready with rfl | rfl <;> simp
    · refine h.opened j ?_
      simpa only [setSocket, Function.update_of_ne hjk] using hj

theorem onOpen_inv (h : ClientInv cfg s) (k : ℕ) : ClientInv cfg (s.onOpen k) := by
  unfold onOpen
  split_ifs
  · have hopen := setReady_inv (k := k) (n := 0) h (.inl rfl) fun _ _ _ => rfl
    exact ⟨hopen.alive, hopen.lost, hopen.current, hopen.attempts, hopen.opened⟩
  · exact h

theorem onClosing_inv (h : ClientInv cfg s) (k : ℕ) : ClientInv cfg (s.onClosing k) := by
  unfold onClosing
  split_ifs with hready
  · refine setReady_inv h (.inr rfl) fun j hj hopen => h.attempts j hj ?_
    rcases hopen with ho | ho | rfl
    · exact .inl ho
    · exact .inr ho
    · exact .inl hready
  · exact h

theorem onError_inv (h : ClientInv cfg s) (k : ℕ) : ClientInv cfg (s.onError k) := by
  unfold onError
  split_ifs
  · exact h
  · exact reject_inv h k

theorem noteWelcome_inv (h : ClientInv cfg s) {k : ℕ} (hready : (s.sockets k).ready ≠ .closed) :
    ClientInv cfg (s.noteWelcome k) := by
  unfold noteWelcome
  split_ifs with hk
  · exact ⟨fun _ => .inl ⟨k, hk, hready⟩, fun _ _ hn => (nomatch hn), h.current, h.attempts, h.opened⟩
  · exact h

/-- The first `WELCOME` of the current socket finds it open. -/
theorem welcome_inv (h : ClientInv cfg s) {k : ℕ}
    (hready : (s.sockets k).ready = .opened ∨ (s.sockets k).ready = .closing) :
    ClientInv cfg (s.welcome k) := by
  have hset : ClientInv cfg (s.setSocket k { s.sockets k with welcomed := true, promise := none }) :=
    setSocket_inv h rfl fun _ => by rcases hready with hr | hr <;> simp [hr]
  have hnote := noteWelcome_inv (k := k) hset (by
    rw [setSocket_ready, if_pos rfl]
    rcases hready with hr | hr <;> simp [hr])
  unfold welcome
  dsimp only
  split_ifs
  · exact (SameSockets.resubscribe _).inv hnote
  · exact hnote

theorem onSocketMessage_inv (h : ClientInv cfg s) (k : ℕ) (msg : Js) :
    ClientInv cfg (s.onSocketMessage k msg) := by
  have hmsg := (SameSockets.withCatchUp s (s.catchUp.onMessage msg)).inv h
  have hready : ((s.withCatchUp (s.catchUp.onMessage msg)).sockets k).ready = (s.sockets k).ready := by
    rw [(SameSockets.withCatchUp s (s.catchUp.onMessage msg)).sockets]
  unfold onSocketMessage
  split
  · next hopen =>
    dsimp only
    split_ifs
    · exact welcome_inv hmsg (.inl (hready.trans hopen))
    · exact hmsg
  · next hopen =>
    dsimp only
    split_ifs
    · exact welcome_inv hmsg (.inr (hready.trans hopen))
    · exact hmsg
  · exact h

/-- The close of the current socket makes the client reconnect, or is the failure of an attempt that
is not the last one. -/
theorem onClose_inv (h : ClientInv cfg s) {k : ℕ} (hcurrent : IsCurrent s k)
    (hlast : (s.sockets k).welcomed = false → s.welcomed = true → Elsewhere s) :
    ClientInv cfg (s.onClose cfg k) := by
  have hclosed : ∀ j, s.ws = some j →
      ((s.setSocket k { s.sockets k with ready := .closed }).sockets j).ready = .closed := by
    intro j hj
    rcases hcurrent with hk | ⟨hnone, -⟩
    · cases hj.symm.trans hk
      rw [setSocket_ready, if_pos rfl]
    · rw [hnone] at hj
      cases hj
  have hopened : ∀ j, ((s.setSocket k { s.sockets k with ready := .closed }).sockets j).welcomed
      = true → ((s.setSocket k { s.sockets k with ready := .closed }).sockets j).ready ≠
        .connecting := by
    intro j hj
    rw [setSocket_ready]
    split_ifs with hjk
    · simp
    · exact h.opened j (by simpa only [setSocket, Function.update_of_ne hjk] using hj)
  have hwelcomed : ((s.setSocket k { s.sockets k with ready := .closed }).sockets k).welcomed
      = (s.sockets k).welcomed := by
    simp only [setSocket, Function.update_self]
  unfold onClose
  split_ifs with hready
  · exact h
  · dsimp only
    rw [hwelcomed]
    split_ifs with hw
    · refine reconnect_inv h.current hclosed (fun hint hwel => .inr ?_) h.lost
        (fun hint hwel => ?_) hopened
      · rcases hcurrent with hk | ⟨hnone, -⟩
        · have hnot := (h.current k hk).2
          rw [show s.intentionalClose = true from hint] at hnot
          cases hnot
        · exact (alive_iff_of_ws_eq_none hnone).1 (h.alive hwel)
      · rcases hcurrent with hk | ⟨-, hint' | hw'⟩
        · refine h.attempts k hk ?_
          have hconnecting := h.opened k hw
          cases hr : (s.sockets k).ready <;> simp_all
        · rw [show s.intentionalClose = false from hint] at hint'
          cases hint'
        · rw [show s.welcomed = true from hwel] at hw'
          cases hw'
    · have hfailed : ClientInv cfg { s.setSocket k { s.sockets k with ready := .closed } with
          connected := false, pinging := false, catchUp := s.catchUp.dropCatchUp,
          outQueue := [] } := by
        refine ⟨fun hwel => .inr ?_, h.lost, h.current, fun j hj hopen => ?_, hopened⟩
        · exact hlast (by simpa using hw) hwel
        · have hj' := hclosed j hj
          rw [show (s.setSocket k { s.sockets k with ready := .closed }).sockets j = _ from rfl] at hj'
          simp [hj'] at hopen
      exact reject_inv hfailed k

/-- **One event keeps the invariant.** -/
theorem clientStep_inv (h : ClientInv cfg s) (op : ClientOp) (hmeets : ClientMeets cfg s op) :
    ClientInv cfg (clientStep cfg s op) := by
  cases op with
  | connect constructs =>
    exact connect_inv .caller (fun _ => h) h.lost h.current h.attempts h.opened
      (.inr (.inr (.inr h.alive)))
  | disconnect =>
    have hnone : s.disconnect.ws = none := disconnect_ws
    -- `disconnect` forgets the socket and the welcome, so nothing is owed.
    refine ⟨fun hw => (nomatch hw), fun hw => (nomatch hw), fun k hk => ?_, fun k hk => ?_, ?_⟩
    · rw [show s.disconnect.ws = some k from hk] at hnone
      cases hnone
    · rw [show s.disconnect.ws = some k from hk] at hnone
      cases hnone
    · exact disconnect_opened h
  | setBase constructs =>
    change ClientInv cfg (s.setBase cfg constructs)
    unfold setBase
    split_ifs with hopen
    · rw [Bool.and_eq_true] at hopen
      have hnone : s.disconnect.ws = none := disconnect_ws
      obtain ⟨htimers, hhooks, hlost, hwelcomed⟩ := disconnect_rest (s := s)
      -- `setBase` disconnects an open client and connects to the new base at once.
      refine connect_inv .setBase (fun hbusy => ?_) (fun hw n hn => ?_) (fun k hk => ?_)
        (fun k hk => ?_) (disconnect_opened h) (.inr ?_)
      · obtain ⟨k, hk, -⟩ := hasSocket_of_isBusy hbusy
        rw [hnone] at hk
        cases hk
      · exact h.lost (hwelcomed ▸ hw) n (hlost ▸ hn)
      · rw [hnone] at hk
        cases hk
      · rw [hnone] at hk
        cases hk
      · rcases hmeets hopen.1 hopen.2 with hhook | hc | he
        · exact .inl hhook
        · exact .inr (.inl hc)
        · refine .inr (.inr fun hw => .inr ?_)
          unfold Elsewhere
          rw [htimers, hhooks, hlost]
          exact he (hwelcomed ▸ hw)
    · exact h
  | socket k event =>
    cases event with
    | opened => exact onOpen_inv h k
    | message msg => exact onSocketMessage_inv h k msg
    | error => exact onError_inv h k
    | closing => exact onClosing_inv h k
    | closed => exact onClose_inv h hmeets.1 hmeets.2
  | reconnectTimer constructs =>
    change ClientInv cfg (s.fireReconnect cfg constructs)
    unfold fireReconnect
    split
    · exact h
    · next n hn =>
      have hbusy : { s with timers := n }.isBusy = s.isBusy := rfl
      -- The timer is used up by the attempt that it starts.
      refine connect_inv .reconnect (fun hb => ?_) h.lost h.current h.attempts h.opened ?_
      · exact ⟨fun _ => .inl (hasSocket_of_isBusy hb), h.lost, h.current, h.attempts, h.opened⟩
      · have hmeets' : s.isBusy = true ∨ cfg.readyHook = true ∨ constructs = true ∨
            MayFail { s with timers := s.timers - 1 } := hmeets
        rw [hn] at hmeets'
        exact hmeets'
  | hook i ok constructs =>
    change ClientInv cfg (s.hookDone i ok constructs)
    unfold hookDone
    split
    · exact h
    · next a ha =>
      have hmeets' : (ok = true ∧ constructs = true) ∨
          MayFail { s with hooks := s.hooks.eraseIdx i } := hmeets
      dsimp only
      -- A hook that answers opens the socket; one that throws is a failed attempt.
      split_ifs with hok
      · refine openWebSocket_inv a h.lost (fun k hk => (h.current k hk).1) h.attempts h.opened ?_
        exact hmeets'.imp_left And.right
      · rcases hmeets' with ⟨hok', -⟩ | hmay
        · exact absurd hok' hok
        · exact attemptFailed_inv ⟨hmay, h.lost, h.current, h.attempts, h.opened⟩
  | catchUpTimer => exact (SameSockets.withCatchUp s _).inv h
  | track subs frames =>
    have htrack : SameSockets s
        { s with catchUp := catchUpStep s.catchUp (.track subs frames.length) } :=
      ⟨rfl, rfl, rfl, rfl, rfl, rfl, rfl, rfl, rfl, rfl⟩
    exact (htrack.trans (SameSockets.send _ _)).inv h
  | ping =>
    change ClientInv cfg (if s.pinging then s.send [.ping] else s)
    split_ifs
    · exact (SameSockets.send s _).inv h
    · exact h
  | drain n => exact ⟨h.alive, h.lost, h.current, h.attempts, h.opened⟩

end Methods

/-! ### Events of superseded sockets -/

/-- The state of the connection is not cleared: the flag stays set, the queued frames stay queued, and
no subscription of a catch-up is given up. -/
structure NotCleared (s s' : WsClient) : Prop where
  connected : s.connected = true → s'.connected = true
  outQueue : s.outQueue <+: s'.outQueue
  catchUp : ∃ closed, s'.catchUp.closed = s.catchUp.closed ++ closed ∧ ∀ x ∈ closed, x.dropped = []

section Superseded

variable {s s' s'' : WsClient} {c : CatchUpClient}

theorem NotCleared.refl (s : WsClient) : NotCleared s s :=
  ⟨id, List.prefix_rfl, [], by simp⟩

theorem NotCleared.trans (h : NotCleared s s') (h' : NotCleared s' s'') : NotCleared s s'' := by
  obtain ⟨xs, hxs, hdropped⟩ := h.catchUp
  obtain ⟨ys, hys, hdropped'⟩ := h'.catchUp
  refine ⟨fun hc => h'.connected (h.connected hc), h.outQueue.trans h'.outQueue, xs ++ ys, ?_, ?_⟩
  · rw [hys, hxs, List.append_assoc]
  · intro x hx
    rcases List.mem_append.1 hx with hx | hx
    · exact hdropped x hx
    · exact hdropped' x hx

theorem notCleared_send (s : WsClient) (frames : List OutFrame) : NotCleared s (s.send frames) := by
  unfold WsClient.send
  split_ifs
  · exact ⟨id, List.prefix_append _ _, [], by simp⟩
  · exact .refl s

theorem notCleared_reject (s : WsClient) (k : ℕ) : NotCleared s (s.reject k) := by
  unfold reject
  split
  · exact ⟨id, List.prefix_rfl, [], by simp [attemptFailed, setSocket]⟩
  · exact .refl s

/-- What closes gives up nothing. -/
def ClosesOnly (c c' : CatchUpClient) : Prop :=
  ∃ closed, c'.closed = c.closed ++ closed ∧ ∀ x ∈ closed, x.dropped = []

theorem nextCatchUp_closesOnly (c : CatchUpClient) (st : CatchUp) :
    ClosesOnly c (c.nextCatchUp st) := by
  unfold CatchUpClient.nextCatchUp
  split
  · exact ⟨[_], rfl, by simp⟩
  · exact ⟨[], by simp [CatchUpClient.sendCatchUp]⟩

theorem answerCatchUp_closesOnly (c : CatchUpClient) (msg : Js) :
    ClosesOnly c (c.answerCatchUp msg) := by
  have hself : ClosesOnly c c := ⟨[], by simp⟩
  unfold CatchUpClient.answerCatchUp
  split
  · split_ifs
    · exact hself
    · dsimp only
      split_ifs
      · exact ⟨[], by simp⟩
      · exact nextCatchUp_closesOnly { c with emitted := _ } _
  · split_ifs
    · exact hself
    · dsimp only
      split_ifs
      · exact nextCatchUp_closesOnly { c with emitted := _ } _
      · exact ⟨[], by simp [CatchUpClient.sendCatchUp]⟩
      · exact nextCatchUp_closesOnly { c with emitted := _ } _
  · exact hself

theorem closed_trackCursor (c : CatchUpClient) (msg : Js) : (c.trackCursor msg).closed = c.closed := by
  unfold CatchUpClient.trackCursor
  split_ifs
  · rfl
  · split
    · split <;> rfl
    · rfl
    · split <;> rfl

theorem onMessage_closesOnly (c : CatchUpClient) (msg : Js) : ClosesOnly c (c.onMessage msg) := by
  unfold CatchUpClient.onMessage
  obtain ⟨b, hb⟩ := markCatchingUp_eq ({ c with received := c.received ++ [msg] }.trackCursor msg) msg
  rw [hb]
  obtain ⟨closed, hclosed, hdropped⟩ := answerCatchUp_closesOnly
    { { c with received := c.received ++ [msg] }.trackCursor msg with catchingUp := b } msg
  refine ⟨closed, hclosed.trans ?_, hdropped⟩
  change ({ c with received := c.received ++ [msg] }.trackCursor msg).closed ++ closed = _
  rw [closed_trackCursor]

theorem notCleared_withCatchUp (h : ClosesOnly s.catchUp c) : NotCleared s (s.withCatchUp c) := by
  have hset : NotCleared s { s with catchUp := c } := ⟨id, List.prefix_rfl, h⟩
  exact hset.trans (notCleared_send _ _)

/-- An event of a superseded socket, of those that the condition admits, clears nothing. -/
theorem notCleared_superseded {cfg : WsConfig} {k j : ℕ} {event : SocketEvent} (hws : s.ws = some j)
    (hk : j ≠ k) (hmeets : ClientMeets cfg s (.socket k event)) :
    NotCleared s (clientStep cfg s (.socket k event)) := by
  have hnot : ¬ IsCurrent s k := by
    rintro (h | ⟨h, -⟩)
    · exact hk (Option.some.inj (hws.symm.trans h))
    · rw [hws] at h
      cases h
  cases event with
  | opened => exact absurd hmeets hnot
  | closed => exact absurd hmeets.1 hnot
  | error =>
    change NotCleared s (s.onError k)
    unfold onError
    split_ifs
    · exact .refl s
    · exact notCleared_reject s k
  | closing =>
    change NotCleared s (s.onClosing k)
    unfold onClosing
    split_ifs
    · exact ⟨id, List.prefix_rfl, [], by simp [setSocket]⟩
    · exact .refl s
  | message msg =>
    change NotCleared s (s.onSocketMessage k msg)
    have hsame := SameSockets.withCatchUp s (s.catchUp.onMessage msg)
    have hwelcome : (s.withCatchUp (s.catchUp.onMessage msg)).isWelcome k msg = false := by
      have hno : s.isWelcome k msg ≠ true := fun h => hnot (hmeets h)
      unfold isWelcome at hno ⊢
      rw [hsame.sockets]
      simpa using hno
    have hclear := notCleared_withCatchUp (onMessage_closesOnly s.catchUp msg)
    unfold onSocketMessage
    split
    · dsimp only
      rw [if_neg (by simp [hwelcome])]
      exact hclear
    · dsimp only
      rw [if_neg (by simp [hwelcome])]
      exact hclear
    · exact .refl s

end Superseded

/-! ### Whole runs -/

/-- The sockets of a new client. -/
theorem clientInv_new (cfg : WsConfig) : ClientInv cfg .new :=
  ⟨fun h => (nomatch h), fun h => (nomatch h), fun _ h => (nomatch h), fun _ h => (nomatch h),
    fun _ h => (nomatch h)⟩

/-- A run is never silent: once welcomed a client has a socket or is getting one, or emitted
`connection_lost` after as many failed attempts as it may make; and no event of a superseded socket
clears the state of the current one. -/
structure NeverSilent (cfg : WsConfig) (ops : List ClientOp) : Prop where
  alive : (clientRun cfg ops).welcomed = true → Alive (clientRun cfg ops)
  lost : (clientRun cfg ops).welcomed = true → ∀ n, (clientRun cfg ops).lost = some n →
    cfg.maxReconnectAttempts.le (.fin n) = true
  superseded : ∀ before k event after, ops = before ++ [.socket k event] ++ after →
    ∀ j, (clientRun cfg before).ws = some j → j ≠ k →
      NotCleared (clientRun cfg before) (clientRun cfg (before ++ [.socket k event]))

/-- **A client that was welcomed does not die silently**, in every run in which no attempt fails
before its `WELCOME` as the last one, and no superseded socket opens, closes or is welcomed. -/
theorem neverSilent_of_meets (cfg : WsConfig) (ops : List ClientOp)
    (hmeets : Runs.Along (clientStep cfg) (ClientMeets cfg) .new ops) : NeverSilent cfg ops := by
  have hinv : ClientInv cfg (clientRun cfg ops) :=
    hmeets.inv (fun _ op h hop => clientStep_inv h op hop) (clientInv_new cfg)
  refine ⟨hinv.alive, hinv.lost, fun before k event after hops j hj hjk => ?_⟩
  rw [hops] at hmeets
  have hlast := (Runs.along_append.1 hmeets.of_append).2.1
  have hstep : clientRun cfg (before ++ [.socket k event])
      = clientStep cfg (clientRun cfg before) (.socket k event) := by
    simp [clientRun]
  rw [hstep]
  exact notCleared_superseded hj hjk hlast

/-! ### Two clients, one of which reconnects in vain -/

/-- The frame that a socket is welcomed with. -/
def welcomeFrame : Js := .obj [("type", .str "WELCOME"), ("data", .obj [])]

/-- A client that is connected. -/
def connectedOps : List ClientOp :=
  [.connect true, .socket 0 .opened, .socket 0 (.message welcomeFrame)]

/-- The socket of a client closes, and the next one is welcomed. -/
def reconnectedOps : List ClientOp :=
  connectedOps ++ [.socket 0 .closed, .reconnectTimer true, .socket 1 .opened,
    .socket 1 (.message welcomeFrame)]

theorem neverSilent_reconnected : NeverSilent {} reconnectedOps ∧
    (clientRun {} reconnectedOps).welcomed = true := by
  refine ⟨neverSilent_of_meets {} reconnectedOps ?_, by decide⟩
  have h0 : IsCurrent (clientRun {} [.connect true]) 0 := .inl rfl
  have h1 : IsCurrent (clientRun {} (reconnectedOps.take 5)) 1 := .inl (by decide)
  have hwelcomed : ((clientRun {} connectedOps).sockets 0).welcomed = true := by decide
  refine ⟨trivial, h0, fun _ => h0, ⟨.inl (by decide), fun h => ?_⟩, .inr (.inr (.inl rfl)),
    h1, fun _ => .inl (by decide), trivial⟩
  rw [show ((clientRun {} connectedOps).sockets 0).welcomed = false from h] at hwelcomed
  cases hwelcomed

/-- The socket of a client closes, and the one that it reconnects with closes before its
`WELCOME`. -/
def failedOps : List ClientOp :=
  connectedOps ++ [.socket 0 .closed, .reconnectTimer true, .socket 1 .error, .socket 1 .closed]

/-- A client is repointed to another endpoint, and its first socket closes when the second one was
welcomed and has queued a request. -/
def repointedOps : List ClientOp :=
  connectedOps ++ [.setBase true, .socket 1 .opened, .socket 1 (.message welcomeFrame),
    .track [] [.null]]

/-- The first client is left with no socket, no timer and no report, after one attempt of ten; and
the late close clears the flag and the queue of the second one. -/
theorem failed_repointed_silent :
    ¬ NeverSilent {} failedOps ∧ ¬ NeverSilent {} (repointedOps ++ [.socket 0 .closed]) ∧
      (clientRun {} failedOps).reconnectAttempts = 1 := by
  refine ⟨fun h => ?_, fun h => ?_, by decide⟩
  · have halive := h.alive (by decide)
    have hws : (clientRun {} failedOps).ws = some 1 := by decide
    have hready : ((clientRun {} failedOps).sockets 1).ready = .closed := by decide
    rcases halive with ⟨k, hk, hopen⟩ | he
    · cases hws.symm.trans hk
      exact hopen hready
    · revert he
      unfold Elsewhere
      decide
  · have hclear := h.superseded repointedOps 0 .closed [] (by simp) 1 (by decide) (by simp)
    have hconnected := hclear.connected (by decide)
    revert hconnected
    decide

end XChainSdk
