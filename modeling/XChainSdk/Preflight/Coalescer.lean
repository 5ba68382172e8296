import Mathlib.Data.List.Lex
import XChainSdk.Lib.Loop
import XChainSdk.Lib.Runs
import XChainSdk.Preflight.Report

/-!
# Calls that share a report

Calls of one client whose chain, action string, source and local deltas spell the same key share
the promise of the first one while it is in flight.

* `PreflightSession`, `preflightStep` : calls, cancellations, and the await points of producers.
* `Transparent` : every call gets what it would get alone.
* `CallsAgree` : the condition on a step; `preflight_transparent` is the result on runs.
-/

namespace XChainSdk

open Runs

/-! ### The coalescer -/

/-- The options of a call; a signal is named by a number. -/
structure PreflightOptions where
  preflight : Js := .undefined
  chain : Js := .undefined
  chainId : Js := .undefined
  source : Js := .undefined
  feeMode : Js := .undefined
  encoding : Js := .undefined
  localDeltas : Js := .undefined
  timeoutMs : Js := .undefined
  bypassCache : Bool := false
  signal : Option ℕ := none

/-- `DEFAULT_TIMEOUT_MS` -/
def DEFAULT_TIMEOUT_MS : Js := .num (.fin 4000)

/-- The client: its default mode and network. -/
structure PreflightSdk where
  mode : PreflightMode
  network : Js

/-- One delta as the key spells it. -/
def deltaText (d : Js) : String := (d.getIf "tick").toText ++ ":" ++ (d.getIf "amount").toText

/-- `key(chainId, actionString, source, localDeltas)` -/
def coalescerKey (sdk : PreflightSdk) (parsed : NormalizedAction) (opts : PreflightOptions) :
    String :=
  let chain := ((opts.chain.or opts.chainId).or sdk.network).or .null
  let deltas := match opts.localDeltas with
    | .arr ds => ",".intercalate ((ds.map deltaText).mergeSort
        fun s t => decide (utf16Units s ≤ utf16Units t))
    | _ => ""
  chain.toText ++ "\x00" ++ parsed.actionString ++ "\x00" ++ (opts.source.or (.str "")).toText ++
    "\x00" ++ deltas

/-- What a call's own producer closes over. -/
def inputOf (parsed : NormalizedAction) (opts : PreflightOptions) (mode : PreflightMode) :
    PreflightInput where
  parsed := parsed
  source := opts.source
  feeMode := opts.feeMode
  encoding := opts.encoding
  localDeltas := opts.localDeltas
  timeoutMs := opts.timeoutMs.or DEFAULT_TIMEOUT_MS
  isLocal := mode == .localOnly

/-- A running producer, and its report once it has settled. -/
structure Producer where
  input : PreflightInput
  signal : Option ℕ
  stage : ℕ
  abortedAt : Option ℕ
  report : Option (Except String PreflightReport)

/-- How a call stands. -/
inductive CallResult where
  | pending
  | skipped
  | returned (report : PreflightReport)
  /-- an `SDKPreflightError` with the report -/
  | rejected (report : PreflightReport)
  | failed (message : String)
  | aborted

/-- A call, with the producer that it waits for. -/
structure PreflightCall where
  mode : PreflightMode
  input : PreflightInput
  signal : Option ℕ
  producer : ℕ
  result : CallResult

/-- The coalescer, and the history of its calls. -/
structure PreflightSession where
  inflight : List (String × ℕ)
  producers : List Producer
  calls : List PreflightCall
  fired : List ℕ

/-- What can happen next. -/
inductive PreflightEvent where
  | call (parsed : NormalizedAction) (opts : PreflightOptions)
  | abort (signal : ℕ)
  /-- the producer passes an await point -/
  | advance (producer : ℕ)
  | settle (producer : ℕ)
  /-- the map drops the settled promise -/
  | clear (producer : ℕ)
  /-- the awaiting call resumes -/
  | deliver (call : ℕ)

/-- The signal has fired. -/
def PreflightSession.hasFired (s : PreflightSession) (signal : Option ℕ) : Bool :=
  signal.any fun i => decide (i ∈ s.fired)

/-- A client without calls. -/
def PreflightSession.empty : PreflightSession := ⟨[], [], [], []⟩

/-- `producer()` -/
def newProducer (s : PreflightSession) (input : PreflightInput) (signal : Option ℕ) : Producer where
  input := input
  signal := signal
  stage := 0
  abortedAt := if s.hasFired signal then some 0 else none
  report := none

/-- `runPreflight` up to its await, and `Coalescer.run`. -/
def startCall (sdk : PreflightSdk) (s : PreflightSession) (parsed : NormalizedAction)
    (opts : PreflightOptions) : PreflightSession :=
  let mode := resolveMode opts.preflight sdk.mode
  let input := inputOf parsed opts mode
  let call (producer : ℕ) : PreflightCall :=
    ⟨mode, input, opts.signal, producer, if s.hasFired opts.signal then .aborted else .pending⟩
  if mode = .skip then { s with calls := s.calls ++ [⟨mode, input, opts.signal, 0, .skipped⟩] }
  else if opts.bypassCache then
    { s with
      producers := s.producers ++ [newProducer s input opts.signal]
      calls := s.calls ++ [call s.producers.length] }
  else
    let key := coalescerKey sdk parsed opts
    match s.inflight.lookup key with
    | some i => { s with calls := s.calls ++ [call i] }
    | none =>
      { s with
        inflight := (key, s.producers.length) :: s.inflight
        producers := s.producers ++ [newProducer s input opts.signal]
        calls := s.calls ++ [call s.producers.length] }

/-- A signal reaches a producer. -/
def Producer.abort (signal : ℕ) (p : Producer) : Producer :=
  if p.report.isNone ∧ p.abortedAt = none ∧ p.signal = some signal then
    { p with abortedAt := some p.stage }
  else p

/-- A signal reaches a call. -/
def PreflightCall.abort (signal : ℕ) (c : PreflightCall) : PreflightCall :=
  match c.result with
  | .pending => if c.signal = some signal then { c with result := .aborted } else c
  | _ => c

/-- The producer's promise resolves. -/
def Producer.settle (W : PreflightWorld) (p : Producer) : Producer :=
  match p.report with
  | none => { p with report := some (produceReport W p.input p.abortedAt) }
  | some _ => p

/-- The end of `runPreflight`. -/
def PreflightMode.finish (mode : PreflightMode) : Except String PreflightReport → CallResult
  | .error e => .failed e
  | .ok r => if mode = .enforce ∧ r.verdict = .fail then .rejected r else .returned r

/-- The call resumes with the report of its producer. -/
def PreflightCall.deliver (producers : List Producer) (c : PreflightCall) : PreflightCall :=
  match c.result, (producers[c.producer]?).bind Producer.report with
  | .pending, some report => { c with result := c.mode.finish report }
  | _, _ => c

/-- One event. -/
def preflightStep (sdk : PreflightSdk) (W : PreflightWorld) (s : PreflightSession) :
    PreflightEvent → PreflightSession
  | .call parsed opts => startCall sdk s parsed opts
  | .abort signal =>
    { s with
      producers := s.producers.map (Producer.abort signal)
      calls := s.calls.map (PreflightCall.abort signal)
      fired := signal :: s.fired }
  | .advance i =>
    { s with producers := s.producers.modify i fun p => { p with stage := p.stage + 1 } }
  | .settle i => { s with producers := s.producers.modify i (Producer.settle W) }
  | .clear i =>
    if ((s.producers[i]?).bind Producer.report).isSome then
      { s with inflight := s.inflight.filter fun e => e.2 != i }
    else s
  | .deliver c => { s with calls := s.calls.modify c (PreflightCall.deliver s.producers) }

/-- A run of one client. -/
def preflightRun (sdk : PreflightSdk) (W : PreflightWorld) (events : List PreflightEvent) :
    PreflightSession :=
  events.foldl (preflightStep sdk W) .empty

/-! ### The purpose -/

/-- What a call has got is what its own producer makes of the same answers, undisturbed. -/
def PreflightCall.GetsOwn (W : PreflightWorld) (fired : List ℕ) (c : PreflightCall) : Prop :=
  match c.result with
  | .pending | .skipped => True
  | .aborted => ∃ signal ∈ fired, c.signal = some signal
  | .returned report => produceReport W c.input none = .ok report ∧
      ¬ (c.mode = .enforce ∧ report.verdict = .fail)
  | .rejected report => produceReport W c.input none = .ok report ∧ c.mode = .enforce ∧
      report.verdict = .fail
  | .failed message => produceReport W c.input none = .error message

/-- **Sharing cannot be told.** -/
def Transparent (W : PreflightWorld) (s : PreflightSession) : Prop :=
  ∀ c ∈ s.calls, c.GetsOwn W s.fired

/-! ### The condition -/

/-- A call that finds a promise under its key agrees with it, and a signal that reaches a producer
is that of everyone who waits for it. -/
def CallsAgree (sdk : PreflightSdk) (s : PreflightSession) : PreflightEvent → Prop
  | .call parsed opts =>
    let mode := resolveMode opts.preflight sdk.mode
    mode ≠ .skip → opts.bypassCache = false → s.hasFired opts.signal = false →
      ∀ i, s.inflight.lookup (coalescerKey sdk parsed opts) = some i →
        ∀ p, s.producers[i]? = some p → p.input = inputOf parsed opts mode ∧ p.abortedAt = none
  | .abort signal =>
    ∀ c ∈ s.calls, c.result = .pending →
      ∀ p, s.producers[c.producer]? = some p → p.report = none → p.signal = some signal →
        c.signal = some signal
  | _ => True

/-! ### The invariant -/

/-- A waiting call waits for a producer of its own input, which no signal has reached. -/
def PreflightCall.WaitsWell (producers : List Producer) (c : PreflightCall) : Prop :=
  c.result = .pending → ∃ p, producers[c.producer]? = some p ∧ p.input = c.input ∧
    p.abortedAt = none

/-- The invariant of a client. -/
structure SharingInv (W : PreflightWorld) (s : PreflightSession) : Prop where
  gets : Transparent W s
  waits : ∀ c ∈ s.calls, c.WaitsWell s.producers
  settled : ∀ p ∈ s.producers, ∀ report, p.report = some report →
    report = produceReport W p.input p.abortedAt
  inflight : ∀ e ∈ s.inflight, e.2 < s.producers.length

variable {sdk : PreflightSdk} {W : PreflightWorld} {s : PreflightSession} {c : PreflightCall}
  {fired fired' : List ℕ} {ps qs : List Producer}

theorem PreflightCall.GetsOwn.mono (h : c.GetsOwn W fired) (hsub : ∀ i ∈ fired, i ∈ fired') :
    c.GetsOwn W fired' := by
  unfold PreflightCall.GetsOwn at h ⊢
  split <;> rename_i hresult <;> simp only [hresult] at h
  · trivial
  · trivial
  · obtain ⟨signal, hmem, hsignal⟩ := h
    exact ⟨signal, hsub signal hmem, hsignal⟩
  all_goals exact h

/-- A producer is replaced by one of the same input that no further signal has reached. -/
theorem PreflightCall.WaitsWell.mono (h : c.WaitsWell ps)
    (hsub : ∀ p, ps[c.producer]? = some p → ∃ q, qs[c.producer]? = some q ∧ q.input = p.input ∧
      q.abortedAt = p.abortedAt) : c.WaitsWell qs := by
  intro hpending
  obtain ⟨p, hp, hinput, habort⟩ := h hpending
  obtain ⟨q, hq, hqinput, hqabort⟩ := hsub p hp
  exact ⟨q, hq, hqinput.trans hinput, hqabort.trans habort⟩

theorem PreflightCall.WaitsWell.append (h : c.WaitsWell ps) : c.WaitsWell (ps ++ qs) :=
  h.mono fun p hp =>
    ⟨p, by rw [List.getElem?_append_left (List.getElem?_eq_some_iff.1 hp).1, hp], rfl, rfl⟩

theorem PreflightCall.WaitsWell.modify {f : Producer → Producer} (h : c.WaitsWell ps)
    (hinput : ∀ p, (f p).input = p.input) (habort : ∀ p, (f p).abortedAt = p.abortedAt) (i : ℕ) :
    c.WaitsWell (ps.modify i f) := by
  refine h.mono fun p hp => ⟨if i = c.producer then f p else p, ?_, ?_, ?_⟩
  · simp [List.getElem?_modify, hp]
  · split <;> simp [hinput]
  · split <;> simp [habort]

/-- What an element that is modified keeps, all elements keep. -/
theorem forall_mem_modify {α : Type*} {P : α → Prop} {xs : List α} {f : α → α} (i : ℕ)
    (h : ∀ x ∈ xs, P x) (hf : ∀ x ∈ xs, P (f x)) : ∀ x ∈ xs.modify i f, P x := by
  intro x hx
  obtain ⟨j, hj⟩ := List.mem_iff_getElem?.1 hx
  rw [List.getElem?_modify] at hj
  obtain ⟨y, hy, rfl⟩ := Option.map_eq_some_iff.1 hj
  have hmem := List.mem_of_getElem? hy
  split
  · exact hf y hmem
  · exact h y hmem

theorem sharingInv_empty : SharingInv W .empty where
  gets := fun c hc => by cases hc
  waits := fun c hc => by cases hc
  settled := fun p hp => by cases hp
  inflight := fun e he => by cases he

/-! ### What an event keeps -/

/-- A call starts, perhaps with a producer of its own. -/
theorem SharingInv.push (h : SharingInv W s) {inflight : List (String × ℕ)}
    (new : List Producer) (hgets : c.GetsOwn W s.fired) (hwaits : c.WaitsWell (s.producers ++ new))
    (hnew : ∀ p ∈ new, p.report = none)
    (hinflight : ∀ e ∈ inflight, e.2 < (s.producers ++ new).length) :
    SharingInv W ⟨inflight, s.producers ++ new, s.calls ++ [c], s.fired⟩ where
  gets := by
    intro c' hc'
    rcases List.mem_append.1 hc' with hold | hold
    · exact h.gets c' hold
    · rwa [List.mem_singleton.1 hold]
  waits := by
    intro c' hc'
    rcases List.mem_append.1 hc' with hold | hold
    · exact (h.waits c' hold).append
    · rwa [List.mem_singleton.1 hold]
  settled := by
    intro p hp report hreport
    rcases List.mem_append.1 hp with hold | hold
    · exact h.settled p hold report hreport
    · simp [hnew p hold] at hreport
  inflight := hinflight

/-- A call that starts is waiting, or its signal has fired already. -/
theorem getsOwn_fresh {mode : PreflightMode} {input : PreflightInput} {signal : Option ℕ} {i : ℕ} :
    PreflightCall.GetsOwn W s.fired
      ⟨mode, input, signal, i, if s.hasFired signal then .aborted else .pending⟩ := by
  cases hfired : s.hasFired signal with
  | false => trivial
  | true =>
    cases signal with
    | none => cases hfired
    | some j => exact ⟨j, of_decide_eq_true hfired, rfl⟩

/-- A fresh producer is waited for by the call that it belongs to. -/
theorem waitsWell_fresh {mode : PreflightMode} {input : PreflightInput} {signal : Option ℕ} :
    PreflightCall.WaitsWell (s.producers ++ [newProducer s input signal])
      ⟨mode, input, signal, s.producers.length,
        if s.hasFired signal then .aborted else .pending⟩ := by
  intro hpending
  refine ⟨newProducer s input signal, by simp, rfl, ?_⟩
  cases hfired : s.hasFired signal with
  | false => simp [newProducer, hfired]
  | true => simp [hfired] at hpending

theorem SharingInv.startCall (h : SharingInv W s) {parsed : NormalizedAction}
    {opts : PreflightOptions}
    (hagree : CallsAgree sdk s (.call parsed opts)) :
    SharingInv W (startCall sdk s parsed opts) := by
  have hfresh (input : PreflightInput) : ∀ p ∈ [newProducer s input opts.signal],
      p.report = none := by
    intro p hp
    rw [List.mem_singleton.1 hp]
    rfl
  have hlonger (e : String × ℕ) (he : e ∈ s.inflight) (new : List Producer) :
      e.2 < (s.producers ++ new).length := by
    have hlt := h.inflight e he
    rw [List.length_append]
    omega
  unfold XChainSdk.startCall
  by_cases hskip : resolveMode opts.preflight sdk.mode = .skip
  · simp only [hskip, if_true]
    have hpush := h.push (c := ⟨.skip, inputOf parsed opts .skip, opts.signal, 0, .skipped⟩)
      [] trivial (fun hpending => by cases hpending) (by simp)
      (fun e he => hlonger e he [])
    simpa using hpush
  · by_cases hbypass : opts.bypassCache = true
    · simp only [hskip, hbypass, if_true, if_false]
      exact h.push _ getsOwn_fresh waitsWell_fresh (hfresh _) fun e he => hlonger e he _
    · rw [Bool.not_eq_true] at hbypass
      simp only [hskip, hbypass, if_false, Bool.false_eq_true]
      cases hlookup : s.inflight.lookup (coalescerKey sdk parsed opts) with
      | none =>
        refine h.push _ getsOwn_fresh waitsWell_fresh (hfresh _) fun e he => ?_
        rcases List.mem_cons.1 he with rfl | hold
        · simp
        · exact hlonger e hold _
      | some i =>
        -- the promise that is found was made for the same input
        have hwaits : PreflightCall.WaitsWell (s.producers ++ [])
            ⟨resolveMode opts.preflight sdk.mode,
              inputOf parsed opts (resolveMode opts.preflight sdk.mode), opts.signal, i,
              if s.hasFired opts.signal then .aborted else .pending⟩ := by
          intro hpending
          have hfired : s.hasFired opts.signal = false := by
            by_contra hne
            rw [Bool.not_eq_false] at hne
            simp [hne] at hpending
          have hlt : i < s.producers.length := h.inflight _ (Loop.mem_of_lookup hlookup)
          have hget := List.getElem?_eq_getElem hlt
          obtain ⟨hinput, habort⟩ := hagree hskip hbypass hfired i hlookup _ hget
          exact ⟨s.producers[i], by rw [List.append_nil, hget], hinput, habort⟩
        have hpush := h.push [] getsOwn_fresh hwaits (by simp) (fun e he => hlonger e he [])
        simpa using hpush

theorem Producer.abort_of_report {signal : ℕ} {p : Producer} {report}
    (h : p.report = some report) : p.abort signal = p := by
  simp [Producer.abort, h]

theorem Producer.abort_report (signal : ℕ) (p : Producer) :
    (p.abort signal).report = p.report := by
  unfold Producer.abort
  split <;> rfl

theorem Producer.abort_input (signal : ℕ) (p : Producer) : (p.abort signal).input = p.input := by
  unfold Producer.abort
  split <;> rfl

theorem PreflightCall.abort_getsOwn {signal : ℕ} (h : c.GetsOwn W s.fired) :
    (c.abort signal).GetsOwn W (signal :: s.fired) := by
  have hmono : c.GetsOwn W (signal :: s.fired) := h.mono fun i hi => List.mem_cons_of_mem _ hi
  unfold PreflightCall.abort
  split
  · split
    next hsignal => exact ⟨signal, List.mem_cons_self, hsignal⟩
    next => exact hmono
  · exact hmono

theorem SharingInv.abort (h : SharingInv W s) {signal : ℕ}
    (hagree : CallsAgree sdk s (.abort signal)) :
    SharingInv W (preflightStep sdk W s (.abort signal)) where
  gets := by
    intro c hc
    obtain ⟨d, hd, rfl⟩ := List.mem_map.1 hc
    exact d.abort_getsOwn (h.gets d hd)
  waits := by
    intro c hc hpending
    obtain ⟨d, hd, rfl⟩ := List.mem_map.1 hc
    -- a call that is still waiting was waiting, under another signal
    have hresult : d.result = .pending ∧ d.signal ≠ some signal ∧ d.abort signal = d := by
      unfold PreflightCall.abort at hpending ⊢
      split at hpending
      next hd' =>
        split at hpending
        next => cases hpending
        next hsignal => exact ⟨hd', hsignal, by simp [hsignal]⟩
      next hd' => exact absurd hpending (hd' ·)
    obtain ⟨hwaiting, hsignal, hsame⟩ := hresult
    rw [hsame]
    obtain ⟨p, hp, hinput, habort⟩ := h.waits d hd hwaiting
    refine ⟨p.abort signal, by simp [preflightStep, hp], (p.abort_input signal).trans hinput, ?_⟩
    unfold Producer.abort
    split
    next hreached =>
      obtain ⟨hreport, -, hown⟩ := hreached
      exact absurd (hagree d hd hwaiting p hp (Option.isNone_iff_eq_none.1 hreport) hown) hsignal
    next => exact habort
  settled := by
    intro p hp report hreport
    obtain ⟨q, hq, rfl⟩ := List.mem_map.1 hp
    rw [Producer.abort_report] at hreport
    rw [Producer.abort_of_report hreport]
    exact h.settled q hq report hreport
  inflight := by
    intro e he
    simpa [preflightStep] using h.inflight e he

theorem SharingInv.modify (h : SharingInv W s) {f : Producer → Producer} (i : ℕ)
    (hinput : ∀ p, (f p).input = p.input) (habort : ∀ p, (f p).abortedAt = p.abortedAt)
    (hreport : ∀ p, (f p).report = p.report ∨
      (f p).report = some (produceReport W p.input p.abortedAt)) :
    SharingInv W { s with producers := s.producers.modify i f } where
  gets := h.gets
  waits := fun c hc => (h.waits c hc).modify hinput habort i
  settled := by
    refine forall_mem_modify i h.settled fun p hp report hr => ?_
    rw [hinput, habort]
    rcases hreport p with hsame | hnew
    · exact h.settled p hp report (hsame ▸ hr)
    · rw [hnew] at hr
      exact (Option.some.inj hr).symm
  inflight := by
    intro e he
    simpa using h.inflight e he

theorem Producer.settle_eq (W : PreflightWorld) (p : Producer) :
    p.settle W = { p with report := (p.settle W).report } := by
  unfold Producer.settle
  split <;> rfl

/-- A report that was made for the input of the call ends it the way a call alone ends. -/
theorem getsOwn_finish {report : Except String PreflightReport}
    (h : report = produceReport W c.input none) :
    PreflightCall.GetsOwn W fired { c with result := c.mode.finish report } := by
  subst h
  unfold PreflightMode.finish PreflightCall.GetsOwn
  cases hown : produceReport W c.input none with
  | error e => simp
  | ok r => by_cases hfail : c.mode = .enforce ∧ r.verdict = .fail <;> simp [hfail]

/-- A call that waits for a settled producer gets its own report. -/
theorem SharingInv.deliver_eq (h : SharingInv W s) (hc : c ∈ s.calls)
    (hpending : c.result = .pending)
    {report} (hreport : (s.producers[c.producer]?).bind Producer.report = some report) :
    c.deliver s.producers = { c with result := c.mode.finish (produceReport W c.input none) } := by
  obtain ⟨p, hp, hinput, habort⟩ := h.waits c hc hpending
  rw [hp, Option.bind_some] at hreport
  have hown := h.settled p (List.mem_of_getElem? hp) report hreport
  rw [hinput, habort] at hown
  simp [PreflightCall.deliver, hpending, hp, hreport, hown]

theorem SharingInv.deliver (h : SharingInv W s) (i : ℕ) :
    SharingInv W (preflightStep sdk W s (.deliver i)) where
  gets := by
    refine forall_mem_modify i h.gets fun c hc => ?_
    unfold PreflightCall.deliver
    split
    next report hpending hreport =>
      have hdeliver := h.deliver_eq hc hpending hreport
      simp only [PreflightCall.deliver, hpending, hreport] at hdeliver
      rw [hdeliver]
      exact getsOwn_finish rfl
    next => exact h.gets c hc
  waits := by
    refine forall_mem_modify i h.waits fun c hc hpending => ?_
    have hsame : c.deliver s.producers = c := by
      unfold PreflightCall.deliver at hpending ⊢
      split at hpending
      next report hwaiting hreport =>
        unfold PreflightMode.finish at hpending
        cases report with
        | error e => cases hpending
        | ok r => simp only at hpending; split at hpending <;> cases hpending
      next => rfl
    rw [hsame] at hpending ⊢
    exact h.waits c hc hpending
  settled := h.settled
  inflight := h.inflight

theorem SharingInv.step (h : SharingInv W s) (e : PreflightEvent) (hagree : CallsAgree sdk s e) :
    SharingInv W (preflightStep sdk W s e) := by
  cases e with
  | call parsed opts => exact h.startCall hagree
  | abort signal => exact h.abort hagree
  | advance i =>
    exact h.modify i (fun _ => rfl) (fun _ => rfl) fun _ => .inl rfl
  | settle i =>
    refine h.modify i (fun p => ?_) (fun p => ?_) fun p => ?_
    · rw [Producer.settle_eq]
    · rw [Producer.settle_eq]
    · unfold Producer.settle
      split
      · exact .inr rfl
      · exact .inl rfl
  | clear i =>
    simp only [preflightStep]
    split
    · exact ⟨h.gets, h.waits, h.settled, fun e he => h.inflight e (List.mem_filter.1 he).1⟩
    · exact h
  | deliver i => exact h.deliver i

/-- **Sharing cannot be told**, in every run of calls, cancellations and answers where the calls
that share a report agree; and a call that waits gets its own report once its producer settles. -/
theorem preflight_transparent (sdk : PreflightSdk) (W : PreflightWorld)
    (events : List PreflightEvent)
    (hagree : Along (preflightStep sdk W) (CallsAgree sdk) .empty events) :
    Transparent W (preflightRun sdk W events) ∧
      ∀ i c, (preflightRun sdk W events).calls[i]? = some c → c.result = .pending →
        ((preflightRun sdk W (events ++ [.settle c.producer, .deliver i])).calls[i]?).map
          PreflightCall.result = some (c.mode.finish (produceReport W c.input none)) := by
  have hinv : SharingInv W (preflightRun sdk W events) :=
    hagree.inv (fun s e hs he => hs.step e he) sharingInv_empty
  refine ⟨hinv.gets, fun i c hc hpending => ?_⟩
  have hsettle : SharingInv W (preflightStep sdk W (preflightRun sdk W events)
      (.settle c.producer)) := hinv.step (.settle c.producer) trivial
  obtain ⟨p, hp, -, -⟩ := hinv.waits c (List.mem_of_getElem? hc) hpending
  obtain ⟨report, hreport⟩ : ∃ report, (p.settle W).report = some report := by
    unfold Producer.settle
    cases hr : p.report with
    | none => exact ⟨_, rfl⟩
    | some report => exact ⟨report, hr⟩
  have hdeliver := hsettle.deliver_eq (List.mem_of_getElem? hc) hpending
    (by simp only [preflightStep, List.getElem?_modify_eq, hp]; exact hreport)
  rw [preflightRun, List.foldl_append]
  simp only [List.foldl_cons, List.foldl_nil]
  rw [← preflightRun]
  generalize preflightRun sdk W events = s at *
  have hcalls : (preflightStep sdk W s (.settle c.producer)).calls = s.calls := rfl
  have hget : (preflightStep sdk W (preflightStep sdk W s (.settle c.producer))
      (.deliver i)).calls[i]? =
        some (c.deliver (preflightStep sdk W s (.settle c.producer)).producers) := by
    simp [preflightStep, hc]
  rw [hget, hdeliver]
  rfl

/-! ### Overlapping calls -/

/-- A network that rejects every action, and checks that find nothing. -/
def rejectingWorld : PreflightWorld where
  dryRun _ _ := ⟨some ⟨none, .ok (.obj [("valid", .bool false)])⟩, none⟩
  checks _ _ _ := .ok ⟨[], [], []⟩

/-- A client under its defaults. -/
def defaultSdk : PreflightSdk := ⟨.enforce, .str "mainnet"⟩

/-- A transfer that is being checked. -/
def transferAction : NormalizedAction := ⟨"SEND", "SEND|0|XCHAIN|1|addr", .undefined⟩

/-- The client after its first call. -/
def firstCall (opts : PreflightOptions) : PreflightSession where
  inflight := [(coalescerKey defaultSdk transferAction opts, 0)]
  producers := [newProducer .empty
    (inputOf transferAction opts (resolveMode opts.preflight .enforce)) opts.signal]
  calls := [⟨resolveMode opts.preflight .enforce,
    inputOf transferAction opts (resolveMode opts.preflight .enforce), opts.signal, 0, .pending⟩]
  fired := []

/-- Two calls for one transfer share a report, and both throw. -/
theorem preflight_transparent_twice : Transparent rejectingWorld
    (preflightRun defaultSdk rejectingWorld
      [.call transferAction {}, .call transferAction {}, .settle 0, .deliver 0, .deliver 1]) := by
  refine (preflight_transparent defaultSdk rejectingWorld
    [.call transferAction {}, .call transferAction {}, .settle 0, .deliver 0, .deliver 1]
    ⟨?_, ?_, trivial, trivial, trivial, trivial⟩).1
  · intro _ _ _ i hi
    cases hi
  · intro _ _ _ i hi p hp
    have hstart : preflightStep defaultSdk rejectingWorld .empty (.call transferAction {}) =
        firstCall {} := rfl
    rw [hstart] at hi hp
    have hzero : 0 = i := by simpa [firstCall] using hi
    subst hzero
    cases hp
    exact ⟨rfl, rfl⟩

/-- A call that finds a promise under its key waits for it. -/
theorem startCall_of_lookup {parsed : NormalizedAction} {opts : PreflightOptions} {i : ℕ}
    (hskip : resolveMode opts.preflight sdk.mode ≠ .skip) (hbypass : opts.bypassCache = false)
    (hlookup : s.inflight.lookup (coalescerKey sdk parsed opts) = some i) :
    startCall sdk s parsed opts = { s with
      calls := s.calls ++ [⟨resolveMode opts.preflight sdk.mode,
        inputOf parsed opts (resolveMode opts.preflight sdk.mode), opts.signal, i,
        if s.hasFired opts.signal then .aborted else .pending⟩] } := by
  simp [startCall, hskip, hbypass, hlookup]

/-- A call that enforces joins one that asks for the local checks only. -/
theorem preflight_not_transparent :
    ¬ ∀ sdk W events, Transparent W (preflightRun sdk W events) := by
  intro h
  have hall := h defaultSdk rejectingWorld [.call transferAction { preflight := .str "local" },
    .call transferAction {}, .settle 0, .deliver 1]
  have hstart : preflightStep defaultSdk rejectingWorld .empty
      (.call transferAction { preflight := .str "local" }) =
        firstCall { preflight := .str "local" } := rfl
  have hkey : (firstCall { preflight := .str "local" }).inflight.lookup
      (coalescerKey defaultSdk transferAction {}) = some 0 := by
    have hsame : coalescerKey defaultSdk transferAction {} =
      coalescerKey defaultSdk transferAction { preflight := .str "local" } := rfl
    rw [hsame]
    simp [firstCall]
  have hjoin := startCall_of_lookup (by decide) rfl hkey
  rw [preflightRun, List.foldl_cons, hstart, List.foldl_cons] at hall
  simp only [preflightStep, hjoin] at hall
  obtain ⟨hown, -⟩ := hall ⟨.enforce, inputOf transferAction {} .enforce, none, 0, .returned _⟩
    (List.mem_cons_of_mem _ List.mem_cons_self)
  have hverdict := congrArg (fun r => r.toOption.map PreflightReport.verdict) hown
  exact absurd hverdict (by decide)

end XChainSdk
