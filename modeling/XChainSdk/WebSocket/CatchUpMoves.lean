import Mathlib.Tactic.SplitIfs
import XChainSdk.WebSocket.CatchUp

/-!
# What one event does to a catch-up

* `CatchUpMove` : the catch-up waits on, asks again, asks for the next subscription, or is finished.
* `onMessage_move`, `fireTimer_move` : a frame and a timer are such moves.
* `resubscribe_cases` : the start of a catch-up.
-/

namespace XChainSdk

open Js CatchUpClient

/-- Does the answer make the client ask for the subscription again? -/
def PendingCatchUp.again (p : PendingCatchUp) (msg : Js) : Bool :=
  let data := msg.field "data"
  match msg.field "id", msg.field "type" with
  | .str id, .str "error" =>
    let code := (data.field "code").str?
    decide (id = p.id ∧ (code = some "RATE_LIMITED" ∨ code = some "CATCH_UP_NOT_READY") ∧
      p.rateRetries < RATE_RETRIES)
  | .str id, .str "CATCH_UP_COMPLETE" =>
    decide (id = p.id ∧ CatchUpClient.isTrue (data.field "truncated") = true ∧
      spentOnce p.sub data = false ∧ p.rounds + 1 < MAX_ROUNDS)
  | _, _ => false

/-- What one event does to a catch-up: it waits on, or is asked for again, or goes on with the next
subscription of its queue, or is finished. -/
inductive CatchUpMove (again : Prop) (s : CatchUpClient) (st : CatchUp) (s' : CatchUpClient) : Prop
  | kept {st' : CatchUp} (hst : s'.catchUp = some st') (hsent : s'.sent.length = s.sent.length)
      (hqueue : st'.queue = st.queue) (hcurrent : st'.current = st.current)
      (htimer : st'.timer = st.timer)
  | delayed {st' : CatchUp} (hst : s'.catchUp = some st')
      (hsent : s'.sent.length = s.sent.length) (hagain : again) (hqueue : st'.queue = st.queue)
      (hsub : st'.current.sub = st.current.sub) (hretries : 0 < st'.current.rateRetries)
  | resent {st' : CatchUp} (hst : s'.catchUp = some st')
      (hsent : s'.sent.length = s.sent.length + 1) (hagain : again) (hqueue : st'.queue = st.queue)
      (hsub : st'.current.sub = st.current.sub) (htimer : st'.timer = .backstop)
      (hlater : 0 < st'.current.rounds ∨ 0 < st'.current.rateRetries)
  | next {st' : CatchUp} (hst : s'.catchUp = some st')
      (hsent : s'.sent.length = s.sent.length + 1)
      (hqueue : st.queue = st'.current.sub :: st'.queue) (htimer : st'.timer = .backstop)
      (hrounds : st'.current.rounds = 0) (hretries : st'.current.rateRetries = 0)
  | finished (hst : s'.catchUp = none) (hsent : s'.sent.length = s.sent.length)
      (hqueue : st.queue = [])

namespace CatchUpClient

variable {s : CatchUpClient} {st : CatchUp} {msg : Js} {again : Prop}

theorem nextCatchUp_move (t : CatchUpClient) (st st' : CatchUp) (hsent : t.sent = s.sent)
    (hqueue : st'.queue = st.queue) : CatchUpMove again s st (t.nextCatchUp st') := by
  unfold nextCatchUp
  split
  · next hnil => exact .finished rfl (by rw [← hsent]; rfl) (hqueue.symm.trans hnil)
  · next sub queue hcons =>
      refine .next rfl ?_ (hqueue.symm.trans hcons) rfl rfl rfl
      simp [sendCatchUp, hsent]

theorem refuseCatchUp_move (s : CatchUpClient) (st st' : CatchUp) (hqueue : st'.queue = st.queue)
    (code message detail : Js) : CatchUpMove again s st (s.refuseCatchUp st' code message detail) :=
  nextCatchUp_move { s with emitted := _ } st (endCurrent st' _) rfl hqueue

theorem answerCatchUp_move (hst : s.catchUp = some st) (msg : Js) :
    CatchUpMove (st.current.again msg = true) s st (s.answerCatchUp msg) := by
  have hkept : CatchUpMove (st.current.again msg = true) s st s :=
    .kept hst rfl rfl rfl rfl
  unfold answerCatchUp
  split
  · next st' id hst' hid htype =>
    cases hst.symm.trans hst'
    split_ifs with hne
    · exact hkept
    · dsimp only
      split_ifs with hretry
      · -- dropped over the rate, or not ready: it is sent again after a delay
        refine .delayed rfl rfl ?_ rfl rfl (Nat.succ_pos _)
        simp only [Bool.or_eq_true, decide_eq_true_eq] at hretry
        simp [PendingCatchUp.again, hid, htype, not_not.1 hne, hretry.1, hretry.2]
      · exact refuseCatchUp_move s st st rfl _ _ _
  · next st' id hst' hid htype =>
    cases hst.symm.trans hst'
    split_ifs with hne
    · exact hkept
    · dsimp only
      split_ifs with htruncated hrounds
      · exact refuseCatchUp_move s st
          { st with current := { st.current with rounds := st.current.rounds + 1 } } rfl _ _ _
      · refine .resent rfl (by simp [sendCatchUp]) ?_ rfl rfl rfl (.inl (Nat.succ_pos _))
        have hlt : st.current.rounds + 1 < MAX_ROUNDS := not_le.1 hrounds
        simp [PendingCatchUp.again, hid, htype, not_not.1 hne, htruncated.1, htruncated.2, hlt]
      · exact nextCatchUp_move { s with emitted := _ } st (endCurrent st _) rfl rfl
  · exact hkept

/-- A frame that is no answer changes only what the catch-up noted. -/
theorem trackCursor_catchUp (s : CatchUpClient) (msg : Js) :
    (s.trackCursor msg).sent = s.sent ∧
      ∃ note : CatchUp → Option String,
        (s.trackCursor msg).catchUp = s.catchUp.map fun st => { st with maxSeen := note st } := by
  have hself : ∃ note : CatchUp → Option String,
      s.catchUp = s.catchUp.map fun st => { st with maxSeen := note st } :=
    ⟨CatchUp.maxSeen, by cases s.catchUp <;> rfl⟩
  unfold trackCursor
  split
  · exact ⟨rfl, hself⟩
  · split
    · split
      · exact ⟨rfl, hself⟩
      · exact ⟨rfl, hself⟩
    · exact ⟨rfl, _, rfl⟩
    · split
      · exact ⟨rfl, hself⟩
      · next raw st hraw hst =>
        exact ⟨rfl, fun st => maxIndex st.maxSeen raw, by rw [hst]; rfl⟩
      · exact ⟨rfl, hself⟩

theorem markCatchingUp_catchUp (s : CatchUpClient) (msg : Js) :
    (s.markCatchingUp msg).sent = s.sent ∧ (s.markCatchingUp msg).catchUp = s.catchUp := by
  unfold markCatchingUp
  dsimp only
  split_ifs <;> exact ⟨rfl, rfl⟩

theorem onMessage_move (hst : s.catchUp = some st) (msg : Js) :
    CatchUpMove (st.current.again msg = true) s st (s.onMessage msg) := by
  set t := ({ s with received := s.received ++ [msg] }.trackCursor msg).markCatchingUp msg with ht
  obtain ⟨hsent, note, hcatchUp⟩ := trackCursor_catchUp { s with received := s.received ++ [msg] } msg
  obtain ⟨hsent', hcatchUp'⟩ :=
    markCatchingUp_catchUp ({ s with received := s.received ++ [msg] }.trackCursor msg) msg
  have htsent : t.sent = s.sent := hsent'.trans hsent
  have htst : t.catchUp = some { st with maxSeen := note st } := by
    rw [ht, hcatchUp', hcatchUp, hst]
    rfl
  have hmove := answerCatchUp_move htst msg
  change CatchUpMove _ s st (t.answerCatchUp msg)
  -- the note is no part of what a move is about
  cases hmove with
  | kept h1 h2 h3 h4 h5 => exact .kept h1 (by rw [h2, htsent]) h3 h4 h5
  | delayed h1 h2 h3 h4 h5 h6 => exact .delayed h1 (by rw [h2, htsent]) h3 h4 h5 h6
  | resent h1 h2 h3 h4 h5 h6 h7 => exact .resent h1 (by rw [h2, htsent]) h3 h4 h5 h6 h7
  | next h1 h2 h3 h4 h5 h6 => exact .next h1 (by rw [h2, htsent]) h3 h4 h5 h6
  | finished h1 h2 h3 => exact .finished h1 (by rw [h2, htsent]) h3

theorem onMessage_idle (hst : s.catchUp = none) (msg : Js) :
    (s.onMessage msg).catchUp = none ∧ (s.onMessage msg).sent = s.sent := by
  set t := ({ s with received := s.received ++ [msg] }.trackCursor msg).markCatchingUp msg with ht
  obtain ⟨hsent, note, hcatchUp⟩ := trackCursor_catchUp { s with received := s.received ++ [msg] } msg
  obtain ⟨hsent', hcatchUp'⟩ :=
    markCatchingUp_catchUp ({ s with received := s.received ++ [msg] }.trackCursor msg) msg
  have htst : t.catchUp = none := by
    rw [ht, hcatchUp', hcatchUp, hst]
    rfl
  have hself : t.answerCatchUp msg = t := by
    unfold answerCatchUp
    split
    · next hst' _ _ => cases htst.symm.trans hst'
    · next hst' _ _ => cases htst.symm.trans hst'
    · rfl
  change (t.answerCatchUp msg).catchUp = none ∧ (t.answerCatchUp msg).sent = s.sent
  rw [hself]
  exact ⟨htst, hsent'.trans hsent⟩

theorem fireTimer_move (hst : s.catchUp = some st)
    (hretries : ∀ since, st.timer = .retry since → 0 < st.current.rateRetries) :
    CatchUpMove (∃ since, st.timer = .retry since) s st s.fireTimer := by
  unfold fireTimer
  rw [hst]
  dsimp only
  split
  · exact refuseCatchUp_move s st st rfl _ _ _
  · next since hsince =>
    exact .resent rfl (by simp [sendCatchUp]) ⟨since, hsince⟩ rfl rfl rfl
      (.inr (hretries since hsince))

theorem fireTimer_idle (hst : s.catchUp = none) : s.fireTimer = s := by
  unfold fireTimer
  rw [hst]

/-- What a reconnect asks for with a catch-up: nothing, or the first of the subscriptions. -/
theorem resubscribe_cases (c : CatchUpClient) :
    let queued := if c.resumeCursor.isNone then []
      else c.subscriptions.filter fun sub => needsCatchUp sub.channels
    (queued = [] ∧ c.resubscribe.catchUp = none ∧ c.resubscribe.sent.length = c.sent.length) ∨
      ∃ st, c.resubscribe.catchUp = some st ∧ c.resubscribe.sent.length = c.sent.length + 1 ∧
        queued = st.current.sub :: st.queue ∧ st.timer = .backstop ∧ st.current.rounds = 0 ∧
        st.current.rateRetries = 0 := by
  have hdrop : c.dropCatchUp.resumeCursor = c.resumeCursor ∧
      c.dropCatchUp.subscriptions = c.subscriptions ∧ c.dropCatchUp.sent = c.sent ∧
      c.dropCatchUp.catchUp = none := by
    unfold CatchUpClient.dropCatchUp
    split
    · next hst => exact ⟨rfl, rfl, rfl, hst⟩
    · exact ⟨rfl, rfl, rfl, rfl⟩
  obtain ⟨hcursor, hsubs, hsent, hnone⟩ := hdrop
  dsimp only
  unfold CatchUpClient.resubscribe
  simp only [hcursor, hsubs]
  cases hc : c.resumeCursor with
  | none => exact .inl ⟨rfl, hnone, congrArg List.length hsent⟩
  | some cursor =>
    simp only [Option.isNone_some, Bool.false_eq_true, if_false]
    cases hq : c.subscriptions.filter fun sub => needsCatchUp sub.channels with
    | nil => exact .inl ⟨rfl, hnone, congrArg List.length hsent⟩
    | cons sub queue =>
      refine .inr ⟨_, rfl, ?_, rfl, rfl, rfl, rfl⟩
      simp [CatchUpClient.sendCatchUp, hsent]

end CatchUpClient

end XChainSdk
