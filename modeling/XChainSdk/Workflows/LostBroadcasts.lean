import XChainSdk.Lib.Checks
import XChainSdk.Workflows.ContractDeploy

/-!
# What the error of a composite call keeps

A call that makes several submissions throws one error.  What was broadcast before it should be
found in it, and so should the reveal of a submission that stopped half-way.

* `Js.Mentions` : a text is found in a value.
* `Keeps` : an error names what a submission broadcast, and brings the reveal that it did not.
* `LegAnswers`, `parallel_keeps_iff` : **what each leg must answer for that**, whatever the others do.
* `Recipe.Accounts` : what a recipe keeps is the results of its finished steps.
* `StepAnswers`, `recipes_keep_iff` : **what each step must answer**.
* `compositeCalls_keep_iff` : all three calls.
-/

namespace XChainSdk

open Js

/-! ### What is found in a value -/

/-- A text is found somewhere in a value. -/
inductive Js.Mentions (t : String) : Js → Prop
  | text {s : String} : t.toList <:+: s.toList → Js.Mentions t (.str s)
  | item {x : Js} {xs : List Js} : x ∈ xs → Js.Mentions t x → Js.Mentions t (.arr xs)
  | field {k : String} {v : Js} {fs : List (String × Js)} : (k, v) ∈ fs → Js.Mentions t v →
      Js.Mentions t (.obj fs)

section Mentions

variable {t : String} {x v : Js} {fs fs' : List (String × Js)}

theorem Js.mentions_obj : Js.Mentions t (.obj fs) ↔ ∃ e ∈ fs, Js.Mentions t e.2 := by
  constructor
  · intro h
    cases h with
    | field hmem h => exact ⟨_, hmem, h⟩
  · rintro ⟨⟨k, v⟩, hmem, h⟩
    exact .field hmem h

theorem Js.mentions_arr {xs : List Js} : Js.Mentions t (.arr xs) ↔ ∃ x ∈ xs, Js.Mentions t x := by
  constructor
  · intro h
    cases h with
    | item hmem h => exact ⟨_, hmem, h⟩
  · rintro ⟨x, hmem, h⟩
    exact .item hmem h

/-- What is found in a member is found in the object. -/
theorem Js.Mentions.of_field {k : String} (h : Js.Mentions t (x.field k)) : Js.Mentions t x := by
  cases x with
  | obj fs =>
    cases hk : fs.lookup k with
    | none =>
      simp only [Js.field, Js.get, member, hk, Option.getD_none, Option.getD_some] at h
      cases h
    | some v =>
      simp only [Js.field, Js.get, member, hk, Option.getD_some] at h
      exact .field (Loop.mem_of_lookup hk) h
  | str s =>
    simp only [Js.field, Js.get, Option.getD_some] at h
    split_ifs at h <;> cases h
  | arr xs =>
    simp only [Js.field, Js.get, Option.getD_some] at h
    split_ifs at h <;> cases h
  | _ => cases h

/-- What is found in an object is found when members are added. -/
theorem Js.Mentions.assign (h : Js.Mentions t x) : Js.Mentions t (x.assign fs) := by
  cases h with
  | text h => exact .text h
  | item hmem h => exact .item hmem h
  | field hmem h => exact .field (List.mem_append_right _ hmem) h

end Mentions

/-! ### What an error should keep -/

/-- A submission stopped when its first transaction was broadcast and its reveal was not. -/
def StoppedBetween {α : Type} (x : Submit α) : Prop :=
  (∃ signed, .accepted .transaction signed ∈ x.trace) ∧
    ∃ tx signed, tx ≠ .transaction ∧ .signed tx signed ∈ x.trace ∧ .accepted tx signed ∉ x.trace

/-- An error names every transaction that a submission broadcast, and brings the signed reveal that
the error of one that stopped before it holds. -/
structure Keeps {α : Type} (x : Submit α) (e : Js) : Prop where
  broadcast : ∀ tx signed, .accepted tx signed ∈ x.trace → Js.Mentions signed.txid e
  reveal : ∀ own, x.outcome = .error own → StoppedBetween x → ∀ hex,
    (own.field "details").field "revealTxHex" = str hex → Js.Mentions hex e

/-- A run of hexadecimal digits, as a txid and a signed transaction are. -/
def IsHexRun (t : String) : Prop :=
  16 ≤ t.toList.length ∧ ∀ c ∈ t.toList, (digitIn 16 c).isSome = true

/-- No sixteen hexadecimal digits follow each other. -/
def hexRunFree (cs : List Char) : Bool :=
  cs.tails.all fun l => !(decide (16 ≤ l.length) && (l.take 16).all fun c => (digitIn 16 c).isSome)

theorem IsHexRun.not_infix {t : String} (ht : IsHexRun t) {cs : List Char}
    (h : hexRunFree cs = true) : ¬t.toList <:+: cs := by
  rintro ⟨pre, post, rfl⟩
  rw [hexRunFree, List.all_eq_true] at h
  have htail := h (t.toList ++ post) ((List.mem_tails _ _).2 ⟨pre, by rw [List.append_assoc]⟩)
  have hlen : 16 ≤ (t.toList ++ post).length := by
    rw [List.length_append]
    exact Nat.le_add_right_of_le ht.1
  have hall : ((t.toList ++ post).take 16).all (fun c => (digitIn 16 c).isSome) = true := by
    rw [List.take_append_of_le_length ht.1, List.all_eq_true]
    exact fun c hc => ht.2 c (List.take_subset 16 _ hc)
  rw [hall, Bool.and_true, Bool.not_eq_true', decide_eq_false_iff_not] at htail
  exact htail hlen

/-- The txids and the reveals of submissions are runs of hexadecimal digits. -/
structure HexAnswers (A : Set (Submit SubmitResult)) : Prop where
  txid : ∀ x ∈ A, ∀ tx signed, .accepted tx signed ∈ x.trace → IsHexRun signed.txid
  reveal : ∀ x ∈ A, ∀ own, x.outcome = .error own → ∀ hex,
    (own.field "details").field "revealTxHex" = str hex → IsHexRun hex

/-! ### Legs -/

section Parallel

variable {legs : List CrossLeg} {t : String}

/-- The texts that every error of `parallel` has. -/
def parallelTexts (legs : List CrossLeg) : List String :=
  ["SDKActionError", partialFailureMessage
    ((legs.map CrossLeg.settled).filter fun s => !s.2.isOk).length
    (legs.map CrossLeg.settled).length "actions", "CROSS_CHAIN_PARTIAL_FAILURE"]

/-- A text is found in the result of a finished leg, in the message of a failed one, in the name of
a chain, or in what every error says. -/
def NamedByLegs (legs : List CrossLeg) (t : String) : Prop :=
  (∃ s ∈ parallelTexts legs, t.toList <:+: s.toList) ∨
    ∃ leg ∈ legs, Js.Mentions t leg.chain ∨
      (∃ r, leg.submit.outcome = .ok r ∧ Js.Mentions t r.entry) ∨
      ∃ e, leg.submit.outcome = .error e ∧ Js.Mentions t (settledMessage e)

theorem mentions_settledEntry {leg : CrossLeg} :
    Js.Mentions t (settledEntry leg.settled.1 leg.settled.2) ↔ Js.Mentions t leg.chain ∨
      (∃ r, leg.submit.outcome = .ok r ∧ Js.Mentions t r.entry) ∨
      ∃ e, leg.submit.outcome = .error e ∧ Js.Mentions t (settledMessage e) := by
  have hbool : ∀ b, ¬Js.Mentions t (.bool b) := fun b h => by cases h
  have hnone : ¬Js.Mentions t .undefined := fun h => by cases h
  rw [CrossLeg.settled]
  cases leg.submit.outcome with
  | ok r => simp [Except.map, settledEntry, Js.mentions_obj, hbool, hnone]
  | error e => simp [Except.map, settledEntry, Js.mentions_obj, hbool, hnone]

/-- A text is found in the error of `parallel` when the legs name it. -/
theorem mentions_parallelError :
    Js.Mentions t (actionError "CROSS_CHAIN_PARTIAL_FAILURE" (partialFailureMessage
      ((legs.map CrossLeg.settled).filter fun s => !s.2.isOk).length
      (legs.map CrossLeg.settled).length "actions")
      [("results", .arr ((legs.map CrossLeg.settled).map fun s => settledEntry s.1 s.2))]) ↔
      NamedByLegs legs t := by
  have htext : ∀ s, Js.Mentions t (str s) ↔ t.toList <:+: s.toList := fun s =>
    ⟨fun h => by cases h; assumption, .text⟩
  have hentries : Js.Mentions t
      (.arr ((legs.map CrossLeg.settled).map fun s => settledEntry s.1 s.2)) ↔
      ∃ leg ∈ legs, Js.Mentions t leg.chain ∨
        (∃ r, leg.submit.outcome = .ok r ∧ Js.Mentions t r.entry) ∨
        ∃ e, leg.submit.outcome = .error e ∧ Js.Mentions t (settledMessage e) := by
    rw [Js.mentions_arr, List.map_map]
    simp only [List.mem_map, Function.comp_apply, exists_exists_and_eq_and, mentions_settledEntry]
  rw [NamedByLegs, ← hentries, actionError, Js.mentions_obj]
  simp [parallelTexts, htext, Js.mentions_obj, or_assoc]

/-- The settled legs of a call whose sessions are made. -/
theorem parallel_of_sessions (hsdk : firstError (legs.map CrossLeg.sdk) = none)
    (hsession : firstError (legs.map CrossLeg.session) = none) :
    parallel legs = ⟨resolveSettled (legs.map CrossLeg.settled) "CROSS_CHAIN_PARTIAL_FAILURE"
      "actions", legs⟩ := by
  rw [parallel, hsdk]
  simp only [hsession]

/-- A call fails with its legs. -/
theorem resolveSettled_legs {e : Js} :
    resolveSettled (legs.map CrossLeg.settled) "CROSS_CHAIN_PARTIAL_FAILURE" "actions" = .error e ↔
      (∃ leg ∈ legs, leg.submit.outcome.isOk = false) ∧
        e = actionError "CROSS_CHAIN_PARTIAL_FAILURE" (partialFailureMessage
          ((legs.map CrossLeg.settled).filter fun s => !s.2.isOk).length
          (legs.map CrossLeg.settled).length "actions")
          [("results", .arr ((legs.map CrossLeg.settled).map fun s => settledEntry s.1 s.2))] := by
  have hisOk : ∀ leg : CrossLeg, leg.settled.2.isOk = leg.submit.outcome.isOk := fun leg => by
    rw [CrossLeg.settled]
    cases leg.submit.outcome <;> rfl
  have hfailed : ((legs.map CrossLeg.settled).filter fun s => !s.2.isOk) = [] ↔
      ¬∃ leg ∈ legs, leg.submit.outcome.isOk = false := by
    simp [List.filter_eq_nil_iff, hisOk]
  rw [resolveSettled]
  split_ifs with h
  · exact ⟨fun h' => (by cases h'), fun h' => absurd h'.1 (hfailed.1 h)⟩
  · refine ⟨fun h' => ⟨?_, (Except.error.inj h').symm⟩, fun h' => congrArg Except.error h'.2.symm⟩
    by_contra hnot
    exact h (hfailed.2 hnot)

/-- What a leg of `parallel` may be: its submission is in `A`, and the error of its session in `S`. -/
structure CrossLeg.From (A : Set (Submit SubmitResult)) (S : Set Js) (leg : CrossLeg) : Prop where
  submit : leg.submit ∈ A
  session : ∀ e, leg.session = .error e → e ∈ S

/-- What the legs of `parallel` must answer, each by itself. -/
structure LegAnswers (A : Set (Submit SubmitResult)) (S : Set Js) : Prop where
  /-- the message of a failed leg names what the leg broadcast, and brings its reveal -/
  failed : ∀ y ∈ A, ∀ e, y.outcome = .error e → Keeps y (settledMessage e)
  /-- the result of a finished leg names what it broadcast, unless the message of any other that
  fails does so -/
  finished : ∀ x ∈ A, ∀ r, x.outcome = .ok r → ∀ y ∈ A, ∀ e, y.outcome = .error e →
    ∀ tx signed, .accepted tx signed ∈ x.trace →
      Js.Mentions signed.txid r.entry ∨ Js.Mentions signed.txid (settledMessage e)
  /-- the error of a session that cannot be made ends the call before the others settle -/
  session : ∀ e ∈ S, ∀ x ∈ A, Keeps x e

theorem exists_of_firstError {checks : List (Except Js Unit)} {e : Js}
    (h : firstError checks = some e) : .error e ∈ checks := by
  obtain ⟨check, hmem, hcheck⟩ := List.exists_of_findSome?_eq_some h
  cases check with
  | ok _ => cases hcheck
  | error e' =>
    cases hcheck
    exact hmem

/-- Whatever legs are put together: what each answers for itself is enough. -/
theorem parallel_keeps {A : Set (Submit SubmitResult)} {S : Set Js} (h : LegAnswers A S)
    (hlegs : ∀ leg ∈ legs, leg.From A S) {e : Js} (he : (parallel legs).outcome = .error e)
    {leg : CrossLeg} (hleg : leg ∈ (parallel legs).begun) : Keeps leg.submit e := by
  cases hsdk : firstError (legs.map CrossLeg.sdk) with
  | some e' =>
    rw [parallel, hsdk] at hleg
    cases hleg
  | none =>
    cases hsession : firstError (legs.map CrossLeg.session) with
    | some e' =>
      have hrun : parallel legs = ⟨.error e', legs.takeWhile fun leg => leg.session.isOk⟩ := by
        rw [parallel, hsdk]
        simp only [hsession]
      rw [hrun] at he hleg
      cases he
      obtain ⟨refused, hrefused, herror⟩ := List.mem_map.1 (exists_of_firstError hsession)
      exact h.session e ((hlegs refused hrefused).session e herror) leg.submit
        (hlegs leg ((List.takeWhile_prefix _).subset hleg)).submit
    | none =>
      rw [parallel_of_sessions hsdk hsession] at he hleg
      obtain ⟨⟨failed, hfailed, hnot⟩, rfl⟩ := resolveSettled_legs.1 he
      obtain ⟨e, herror⟩ : ∃ e, failed.submit.outcome = .error e := by
        cases hout : failed.submit.outcome with
        | ok r =>
          rw [hout] at hnot
          cases hnot
        | error e => exact ⟨e, rfl⟩
      have hother := (hlegs failed hfailed).submit
      have hin := (hlegs leg hleg).submit
      refine ⟨fun tx signed hmem => mentions_parallelError.2 (.inr ?_), fun own hown hstopped hex hhex =>
        mentions_parallelError.2 (.inr ⟨leg, hleg, .inr (.inr ⟨own, hown, ?_⟩)⟩)⟩
      · cases hout : leg.submit.outcome with
        | ok r =>
          rcases h.finished _ hin r hout _ hother e herror tx signed hmem with hr | hm
          · exact ⟨leg, hleg, .inr (.inl ⟨r, hout, hr⟩)⟩
          · exact ⟨failed, hfailed, .inr (.inr ⟨e, herror, hm⟩)⟩
        | error own =>
          exact ⟨leg, hleg, .inr (.inr ⟨own, hout, (h.failed _ hin own hout).broadcast tx signed hmem⟩)⟩
      · exact (h.failed _ hin own hown).reveal own hown hstopped hex hhex

/-- A leg without a name whose session is made. -/
def madeLeg (x : Submit SubmitResult) : CrossLeg := ⟨.undefined, .ok (), .ok (), x⟩

/-- What is found in the error of such legs is found in their own answers. -/
theorem named_madeLegs {xs : List (Submit SubmitResult)} (ht : IsHexRun t)
    (hfixed : ∀ s ∈ parallelTexts (xs.map madeLeg), hexRunFree s.toList = true)
    (h : NamedByLegs (xs.map madeLeg) t) :
    ∃ x ∈ xs, (∃ r, x.outcome = .ok r ∧ Js.Mentions t r.entry) ∨
      ∃ e, x.outcome = .error e ∧ Js.Mentions t (settledMessage e) := by
  rcases h with ⟨s, hs, hinfix⟩ | ⟨leg, hleg, hnamed⟩
  · exact absurd hinfix (ht.not_infix (hfixed s hs))
  · obtain ⟨x, hx, rfl⟩ := List.mem_map.1 hleg
    rcases hnamed with hchain | hown
    · cases hchain
    · exact ⟨x, hx, hown⟩

theorem from_madeLeg {A : Set (Submit SubmitResult)} {S : Set Js} {l : List (Submit SubmitResult)}
    (h : ∀ x ∈ l, x ∈ A) : ∀ leg ∈ l.map madeLeg, leg.From A S := by
  intro leg hleg
  obtain ⟨x, hx, rfl⟩ := List.mem_map.1 hleg
  exact ⟨h x hx, fun e he => by cases he⟩

/-- The error of made legs of which one fails. -/
theorem outcome_madeLegs {l : List (Submit SubmitResult)} {y : Submit SubmitResult} {e : Js}
    (hy : y ∈ l) (hout : y.outcome = .error e) :
    ∃ e', (parallel (l.map madeLeg)).outcome = .error e' ∧
      (parallel (l.map madeLeg)).begun = l.map madeLeg ∧
      ∀ t, Js.Mentions t e' ↔ NamedByLegs (l.map madeLeg) t := by
  have hnone : ∀ f : CrossLeg → Except Js Unit, (∀ x, f (madeLeg x) = .ok ()) →
      firstError ((l.map madeLeg).map f) = none := by
    intro f hf
    refine List.findSome?_eq_none_iff.2 fun check hcheck => ?_
    obtain ⟨leg, hleg, rfl⟩ := List.mem_map.1 hcheck
    obtain ⟨x, -, rfl⟩ := List.mem_map.1 hleg
    rw [hf]
  have hrun := parallel_of_sessions (hnone CrossLeg.sdk fun _ => rfl)
    (hnone CrossLeg.session fun _ => rfl)
  have hfailed : ∃ leg ∈ l.map madeLeg, leg.submit.outcome.isOk = false :=
    ⟨madeLeg y, List.mem_map_of_mem hy, by rw [madeLeg, hout]; rfl⟩
  rw [hrun]
  exact ⟨_, resolveSettled_legs.2 ⟨hfailed, rfl⟩, rfl, fun t => mentions_parallelError⟩

/-- **The error of `parallel` keeps what was broadcast, in every call with legs that may be any in
`A`, exactly when each of them answers for itself.** -/
theorem parallel_keeps_iff {A : Set (Submit SubmitResult)} {S : Set Js} (hA : HexAnswers A) :
    (∀ legs : List CrossLeg, (∀ leg ∈ legs, leg.From A S) →
      ∀ e, (parallel legs).outcome = .error e → ∀ leg ∈ (parallel legs).begun, Keeps leg.submit e) ↔
      LegAnswers A S := by
  refine ⟨fun hall => ⟨fun y hy e hout => ?_, fun x hx r hok y hy e hout tx signed hmem => ?_,
    fun e he x hx => ?_⟩, fun h legs hlegs e he leg hleg => parallel_keeps h hlegs he hleg⟩
  · -- the leg alone
    obtain ⟨e', he', hbegun, hnamed⟩ := outcome_madeLegs (List.mem_singleton_self y) hout
    have hkeeps := hall _ (from_madeLeg (by simpa using hy)) e' he' (madeLeg y)
      (by rw [hbegun]; exact List.mem_singleton_self _)
    have hfixed : ∀ s ∈ parallelTexts ([y].map madeLeg), hexRunFree s.toList = true := by
      have htexts : parallelTexts ([y].map madeLeg) = ["SDKActionError",
          partialFailureMessage 1 1 "actions", "CROSS_CHAIN_PARTIAL_FAILURE"] := by
        simp [parallelTexts, CrossLeg.settled, madeLeg, hout, Except.map, Except.isOk, Except.toBool]
      rw [htexts]
      decide +kernel
    have hown : ∀ t, IsHexRun t → Js.Mentions t e' → Js.Mentions t (settledMessage e) := by
      intro t ht hm
      obtain ⟨x, hx, hanswer⟩ := named_madeLegs ht hfixed ((hnamed t).1 hm)
      cases List.mem_singleton.1 hx
      rcases hanswer with ⟨r, hok, -⟩ | ⟨own, hown, hm⟩
      · rw [hout] at hok
        cases hok
      · rw [hout] at hown
        cases hown
        exact hm
    exact ⟨fun tx signed hmem => hown _ (hA.txid y hy tx signed hmem)
        (hkeeps.broadcast tx signed hmem),
      fun own how hstopped hex hhex => hown _ (hA.reveal y hy own how hex hhex)
        (hkeeps.reveal own how hstopped hex hhex)⟩
  · -- a finished leg and a failed one
    obtain ⟨e', he', hbegun, hnamed⟩ := outcome_madeLegs (l := [x, y]) (by simp) hout
    have hkeeps := hall _ (from_madeLeg (by simpa using ⟨hx, hy⟩)) e' he' (madeLeg x)
      (by rw [hbegun]; exact List.mem_cons_self)
    have hfixed : ∀ s ∈ parallelTexts ([x, y].map madeLeg), hexRunFree s.toList = true := by
      have htexts : parallelTexts ([x, y].map madeLeg) = ["SDKActionError",
          partialFailureMessage 1 2 "actions", "CROSS_CHAIN_PARTIAL_FAILURE"] := by
        simp [parallelTexts, CrossLeg.settled, madeLeg, hok, hout, Except.map, Except.isOk,
          Except.toBool]
      rw [htexts]
      decide +kernel
    obtain ⟨z, hz, hanswer⟩ := named_madeLegs (hA.txid x hx tx signed hmem) hfixed
      ((hnamed _).1 (hkeeps.broadcast tx signed hmem))
    rcases List.mem_cons.1 hz with rfl | hz
    · rcases hanswer with ⟨r', hr', hm⟩ | ⟨own, hown, -⟩
      · rw [hok] at hr'
        cases hr'
        exact .inl hm
      · rw [hok] at hown
        cases hown
    · cases List.mem_singleton.1 hz
      rcases hanswer with ⟨r', hr', -⟩ | ⟨own, hown, hm⟩
      · rw [hout] at hr'
        cases hr'
      · rw [hout] at hown
        cases hown
        exact .inr hm
  · -- a leg that is begun before a session that cannot be made
    let refused : CrossLeg := ⟨.undefined, .ok (), .error e, x⟩
    have hlegs : ∀ leg ∈ [madeLeg x, refused], leg.From A S := by
      intro leg hleg
      rcases List.mem_cons.1 hleg with rfl | hleg
      · exact ⟨hx, fun e he => by cases he⟩
      · rw [List.mem_singleton.1 hleg]
        exact ⟨hx, fun e' he' => by cases he'; exact he⟩
    exact hall _ hlegs e rfl (madeLeg x) List.mem_cons_self

end Parallel

/-! ### Recipes -/

/-- Every step that ran is kept with its result, or it is the one that failed. -/
structure Recipe.Accounts {α : Type} (before : List SubmitResult) (keep : α → List SubmitResult)
    (w : Recipe α) : Prop where
  finished : ∀ a, w.outcome = .ok a → before ⊆ keep a ∧
    ∀ x ∈ w.trace, ∃ r ∈ keep a, x.outcome = .ok r
  failed : ∀ e p, w.outcome = .error (e, p) → before ⊆ p.results ∧
    ∀ x ∈ w.trace, (∃ r ∈ p.results, x.outcome = .ok r) ∨ x.outcome = .error e

namespace Recipe

variable {α β : Type} {before : List SubmitResult} {keep : α → List SubmitResult}
  {keep' : β → List SubmitResult} {p : DeployPartial} {w : Recipe α} {f : α → Recipe β} {a : α}

theorem accounts_pure (h : before ⊆ keep a) : Accounts before keep (pure a) where
  finished _ h' := by
    cases h'
    exact ⟨h, fun _ hx => by cases hx⟩
  failed _ _ h' := by cases h'

theorem accounts_between {r : Except Js α} (h : before ⊆ p.results) :
    Accounts before (fun _ => p.results) (between p r) where
  finished _ _ := ⟨h, fun _ hx => by cases hx⟩
  failed e q h' := by
    cases r with
    | ok a => cases h'
    | error e' =>
      cases h'
      exact ⟨h, fun _ hx => by cases hx⟩

theorem accounts_step {x : Submit SubmitResult} (h : before ⊆ p.results) :
    Accounts before (fun r => p.results ++ [r]) (step p x) where
  finished r h' := by
    have hx : x.outcome = .ok r := by
      rw [step, Traced.outcome_call] at h'
      exact Checks.mapError_eq_ok.1 h'
    refine ⟨List.Subset.trans h (List.subset_append_left _ _), fun y hy => ?_⟩
    rw [step, Traced.trace_call, List.mem_singleton] at hy
    exact ⟨r, by simp, hy ▸ hx⟩
  failed e q h' := by
    rw [step, Traced.outcome_call] at h'
    cases hx : x.outcome with
    | ok r =>
      rw [hx] at h'
      cases h'
    | error e' =>
      rw [hx] at h'
      cases h'
      refine ⟨h, fun y hy => ?_⟩
      rw [step, Traced.trace_call, List.mem_singleton] at hy
      exact .inr (hy ▸ hx)

/-- What a part keeps, the whole keeps. -/
theorem Accounts.bind_of_ok (hw : Accounts before keep w)
    (hf : ∀ a, w.outcome = .ok a → Accounts (keep a) keep' (f a)) :
    Accounts before keep' (w >>= f) where
  finished b hb := by
    obtain ⟨a, ha, hb⟩ := Traced.bind_eq_ok.1 hb
    obtain ⟨hbefore, hsteps⟩ := hw.finished a ha
    obtain ⟨hkeep, hsteps'⟩ := (hf a ha).finished b hb
    refine ⟨List.Subset.trans hbefore hkeep, fun x hx => ?_⟩
    rcases Traced.mem_trace_bind.1 hx with hx | ⟨a', ha', hx⟩
    · obtain ⟨r, hr, hxr⟩ := hsteps x hx
      exact ⟨r, hkeep hr, hxr⟩
    · rw [ha] at ha'
      cases ha'
      exact hsteps' x hx
  failed e p h := by
    rcases Traced.bind_eq_error.1 h with h | ⟨a, ha, h⟩
    · obtain ⟨hbefore, hsteps⟩ := hw.failed e p h
      refine ⟨hbefore, fun x hx => ?_⟩
      rcases Traced.mem_trace_bind.1 hx with hx | ⟨a', ha', hx⟩
      · exact hsteps x hx
      · rw [h] at ha'
        cases ha'
    · obtain ⟨hbefore, hsteps⟩ := hw.finished a ha
      obtain ⟨hkeep, hsteps'⟩ := (hf a ha).failed e p h
      refine ⟨List.Subset.trans hbefore hkeep, fun x hx => ?_⟩
      rcases Traced.mem_trace_bind.1 hx with hx | ⟨a', ha', hx⟩
      · obtain ⟨r, hr, hxr⟩ := hsteps x hx
        exact .inl ⟨r, hkeep hr, hxr⟩
      · rw [ha] at ha'
        cases ha'
        exact hsteps' x hx

theorem Accounts.bind (hw : Accounts before keep w) (hf : ∀ a, Accounts (keep a) keep' (f a)) :
    Accounts before keep' (w >>= f) :=
  hw.bind_of_ok fun a _ => hf a

/-- The legs of a loop keep what they do. -/
theorem accounts_foldlM {γ : Type} {g : DeployPartial → γ → Recipe DeployPartial}
    (hg : ∀ p leg, Accounts p.results DeployPartial.results (g p leg)) (legs : List γ)
    (p : DeployPartial) : Accounts p.results DeployPartial.results (legs.foldlM g p) := by
  induction legs generalizing p with
  | nil => exact accounts_pure (List.Subset.refl _)
  | cons leg legs ih =>
    rw [List.foldlM_cons]
    exact (hg p leg).bind ih

end Recipe

section Recipes

open Recipe

variable {W : DeployWorld} {p : DeployPartial} {deposits : List Js}

theorem accounts_depositLeg (contractActionIndex : Js) (p : DeployPartial) (leg : Js × ℕ) :
    Accounts p.results DeployPartial.results (depositLeg W contractActionIndex p leg) := by
  refine (accounts_between (List.Subset.refl _)).bind fun tick => ?_
  refine (accounts_between (List.Subset.refl _)).bind fun quantity => ?_
  refine (accounts_step (List.Subset.refl _)).bind fun result => accounts_pure ?_
  simp [DeployPartial.results]

theorem accounts_fundContract {recipe : String} {contractActionIndex : Js} :
    Accounts p.results DeployPartial.results
      (fundContract W recipe contractActionIndex deposits p) := by
  rw [fundContract]
  split_ifs
  · exact accounts_pure (List.Subset.refl _)
  · refine ⟨fun _ h => (by cases h), fun e q h => ?_⟩
    exact (accounts_between (List.Subset.refl _)).failed e q h
  · exact accounts_foldlM (accounts_depositLeg contractActionIndex) _ p

theorem accounts_fundSteps (deployParams : Js) :
    Accounts [] DeployPartial.results (fundSteps W deployParams deposits) := by
  refine (accounts_step (p := {}) (List.nil_subset _)).bind fun deploy => ?_
  split_ifs
  · exact accounts_pure (by simp [DeployPartial.results])
  · refine (accounts_between (by simp [DeployPartial.results])).bind fun contractActionIndex => ?_
    exact accounts_fundContract

theorem accounts_chunkLeg (plan : DeployPlan) (p : DeployPartial) (leg : String × ℕ) :
    Accounts p.results DeployPartial.results (chunkLeg W plan p leg) := by
  refine (accounts_between (List.Subset.refl _)).bind fun encoderOpts => ?_
  refine (accounts_step (List.Subset.refl _)).bind fun result => accounts_pure fun r hr => ?_
  simp only [DeployPartial.results, List.mem_append, List.mem_singleton] at hr ⊢
  tauto

/-- The carriers make no deploy. -/
theorem deploy_of_chunkLegs {plan : DeployPlan} {legs : List (String × ℕ)} {q : DeployPartial}
    (h : (legs.foldlM (chunkLeg W plan) p).outcome = .ok q) : q.deploy = p.deploy := by
  induction legs generalizing p with
  | nil =>
    cases h
    rfl
  | cons leg legs ih =>
    rw [List.foldlM_cons] at h
    obtain ⟨p', hp', h⟩ := Traced.bind_eq_ok.1 h
    rw [ih h]
    obtain ⟨encoderOpts, -, hp'⟩ := Traced.bind_eq_ok.1 hp'
    obtain ⟨result, -, hp'⟩ := Traced.bind_eq_ok.1 hp'
    cases hp'
    rfl

theorem accounts_inlineSteps (deployParams : Js) :
    Accounts [] DeployPartial.results (inlineSteps W deployParams) := by
  refine (accounts_between (p := {}) (List.nil_subset _)).bind fun encoderOpts => ?_
  refine (accounts_step (List.Subset.refl _)).bind fun deploy => ?_
  refine (accounts_between (by simp [DeployPartial.results])).bind fun contractActionIndex => ?_
  exact accounts_pure (by simp [DeployPartial.results])

theorem accounts_assembleSteps (assembleParams : Js) (hp : p.deploy = none) :
    Accounts p.results DeployPartial.results (assembleSteps W assembleParams p) := by
  have hkept : ∀ deploy, p.results ++ [deploy] ⊆
      DeployPartial.results { p with deploy := some deploy } := fun deploy r hr => by
    simp only [DeployPartial.results, hp, Option.toList_none, Option.toList_some, List.append_nil,
      List.mem_append, List.mem_singleton] at hr ⊢
    tauto
  refine (accounts_between (List.Subset.refl _)).bind fun encoderOpts => ?_
  refine (accounts_step (List.Subset.refl _)).bind fun deploy => ?_
  refine (accounts_between (hkept deploy)).bind fun assembler => ?_
  split_ifs
  · exact accounts_pure (List.Subset.refl _)
  · refine (accounts_between (List.Subset.refl _)).bind fun contractActionIndex => ?_
    exact accounts_pure (List.Subset.refl _)

theorem accounts_executeDeploy (deployParams : Js) (prepared : PreparedDeploy) :
    Accounts [] DeployPartial.results (executeDeploy W deployParams deposits prepared) := by
  rw [executeDeploy]
  split_ifs
  · exact (accounts_inlineSteps deployParams).bind fun p => accounts_fundContract
  · refine (accounts_foldlM (accounts_chunkLeg prepared.plan) _ {}).bind_of_ok fun p hp => ?_
    exact (accounts_assembleSteps _ (deploy_of_chunkLegs hp)).bind fun p => accounts_fundContract

theorem mentions_attachPartial {frozen : Js → Bool} {kept e : Js} {t : String} :
    Js.Mentions t (attachPartial frozen kept e) ↔
      Js.Mentions t e ∨ attaches frozen e = true ∧ Js.Mentions t kept := by
  rw [attachPartial]
  split_ifs with h
  · cases e with
    | obj fs => simp [Js.assign, Js.mentions_obj, h, or_comm]
    | _ => cases h
  · simp [h]

/-- The errors that a recipe makes itself. -/
inductive RecipeError : Js → Prop
  | member : RecipeError typeError
  | unavailable (recipe : String) : RecipeError (plainError (recipe ++
      ": DEPLOY action_index unavailable; submit with waitForIndexer enabled"))
  | refused (assembler : Js) (status : String) :
      RecipeError (deployedContractFailure assembler status)
  | timeout (assembler : Js) (timeout : ℕ) (observed : Option String) (lastError : Option Js) :
      RecipeError (deploymentTimeoutError assembler timeout observed lastError)

/-- An error that was just made takes what is kept. -/
theorem RecipeError.attaches {frozen : Js → Bool} (hfresh : ∀ e, RecipeError e → frozen e = false)
    {e : Js} (h : RecipeError e) : attaches frozen e = true := by
  have hobj : ∀ fs, e = .obj fs → (Js.obj fs).field "partial" = .undefined →
      XChainSdk.attaches frozen e = true := by
    rintro fs rfl hpartial
    rw [XChainSdk.attaches, hpartial, hfresh _ h]
    rfl
  cases h with
  | member => exact hobj _ rfl rfl
  | unavailable recipe => exact hobj _ rfl rfl
  | refused assembler status => exact hobj _ rfl rfl
  | timeout assembler timeout observed lastError => cases lastError <;> exact hobj _ rfl rfl

theorem eq_typeError_of_memberOf {x : Js} {k : String} {e : Js} (h : memberOf x k = .error e) :
    e = typeError := by
  rw [memberOf] at h
  cases hk : x.get k with
  | some v =>
    rw [hk] at h
    cases h
  | none =>
    rw [hk] at h
    exact (Except.error.inj h).symm

theorem eq_typeError_of_actionIndexOf {indexed e : Js} (h : actionIndexOf indexed = .error e) :
    e = typeError := by
  unfold actionIndexOf at h
  split_ifs at h
  split at h
  · exact eq_typeError_of_memberOf h
  · cases h

theorem recipeError_of_inspect {detail assembler e : Js}
    (h : inspectDeploymentDetail detail assembler = .error e) : RecipeError e := by
  unfold inspectDeploymentDetail at h
  dsimp only at h
  split_ifs at h <;>
    · cases h
      exact .refused _ _

theorem recipeError_of_resolve {assembler e : Js} {timeout : ℕ} {reads : List (Except Js Js)}
    {observed : Option String} {lastError : Option Js}
    (h : resolveDeployedContract assembler timeout reads observed lastError = .error e) :
    RecipeError e := by
  induction reads generalizing observed lastError with
  | nil =>
    cases h
    exact .timeout _ _ _ _
  | cons read reads ih =>
    cases read with
    | error e' => exact ih h
    | ok body =>
      unfold resolveDeployedContract at h
      dsimp only at h
      split_ifs at h
      · exact ih h
      · cases hdetail : inspectDeploymentDetail (actionDetail body) assembler with
        | error e' =>
          rw [hdetail] at h
          cases h
          exact recipeError_of_inspect hdetail
        | ok inspected =>
          rw [hdetail] at h
          cases inspected with
          | contract index => cases h
          | observed status => exact ih h

/-! ### Where the errors of a recipe come from -/

/-- The submissions of a recipe are in `A`, and its error is the one of such a submission, one in `B`
or one that the recipe makes. -/
structure Recipe.From {α : Type} (A : Set (Submit SubmitResult)) (B : Set Js) (w : Recipe α) :
    Prop where
  steps : Traced.Each (· ∈ A) w
  error : ∀ e p, w.outcome = .error (e, p) →
    (∃ y ∈ A, y.outcome = .error e) ∨ e ∈ B ∨ RecipeError e

/-- What a session and an explorer answer is in `A`, and the errors of `nativeFee` are in `B`. -/
structure DeployWorld.From (A : Set (Submit SubmitResult)) (B : Set Js) (W : DeployWorld) : Prop where
  deploy : ∀ params opts, W.deploy params opts ∈ A
  deployChunk : ∀ params opts, W.deployChunk params opts ∈ A
  deposit : ∀ i params, W.deposit i params ∈ A
  nativeFee : ∀ params e, W.nativeFee params = .error e → e ∈ B

section From

variable {α β : Type} {A : Set (Submit SubmitResult)} {B : Set Js} {w : Recipe α}
  {f : α → Recipe β}

theorem from_pure (a : α) : Recipe.From A B (pure a) := ⟨Traced.each_pure, fun _ _ h => by cases h⟩

theorem from_between {r : Except Js α} (h : ∀ e, r = .error e → e ∈ B ∨ RecipeError e) :
    Recipe.From A B (between p r) where
  steps := Traced.each_lift _
  error e q h' := by
    cases r with
    | ok a => cases h'
    | error e' =>
      cases h'
      exact .inr (h e rfl)

theorem from_step {x : Submit SubmitResult} (h : x ∈ A) : Recipe.From A B (Recipe.step p x) where
  steps := (Traced.each_call _).2 h
  error e q h' := by
    rw [Recipe.step, Traced.outcome_call] at h'
    cases hx : x.outcome with
    | ok r =>
      rw [hx] at h'
      cases h'
    | error e' =>
      rw [hx] at h'
      cases h'
      exact .inl ⟨x, h, hx⟩

theorem Recipe.From.bind (hw : Recipe.From A B w) (hf : ∀ a, Recipe.From A B (f a)) :
    Recipe.From A B (w >>= f) where
  steps := hw.steps.bind fun a => (hf a).steps
  error e p h := by
    rcases Traced.bind_eq_error.1 h with h | ⟨a, -, h⟩
    · exact hw.error e p h
    · exact (hf a).error e p h

theorem from_foldlM {γ : Type} {g : DeployPartial → γ → Recipe DeployPartial}
    (hg : ∀ p leg, Recipe.From A B (g p leg)) (legs : List γ) (p : DeployPartial) :
    Recipe.From A B (legs.foldlM g p) := by
  induction legs generalizing p with
  | nil => exact from_pure p
  | cons leg legs ih =>
    rw [List.foldlM_cons]
    exact (hg p leg).bind ih

theorem from_memberOf {x : Js} {k : String} : Recipe.From A B (between p (memberOf x k)) :=
  from_between fun _ h => .inr (eq_typeError_of_memberOf h ▸ .member)

theorem from_actionIndexOf {indexed : Js} : Recipe.From A B (between p (actionIndexOf indexed)) :=
  from_between fun _ h => .inr (eq_typeError_of_actionIndexOf h ▸ .member)

variable (hW : W.From A B)
include hW

theorem from_nativeFee {params : Js} : Recipe.From A B (between p (W.nativeFee params)) :=
  from_between fun _ h => .inl (hW.nativeFee _ _ h)

theorem from_fundContract {recipe : String} {contractActionIndex : Js} :
    Recipe.From A B (fundContract W recipe contractActionIndex deposits p) := by
  rw [fundContract]
  split_ifs
  · exact from_pure p
  · exact from_between fun e h => by
      cases h
      exact .inr (.unavailable recipe)
  · refine from_foldlM (fun p leg => ?_) _ p
    refine from_memberOf.bind fun tick => from_memberOf.bind fun quantity => ?_
    exact (from_step (hW.deposit _ _)).bind fun result => from_pure _

theorem from_fundSteps (deployParams : Js) :
    Recipe.From A B (fundSteps W deployParams deposits) := by
  refine (from_step (hW.deploy _ _)).bind fun deploy => ?_
  split_ifs
  · exact from_pure _
  · exact from_actionIndexOf.bind fun contractActionIndex => from_fundContract hW

theorem from_executeDeploy (deployParams : Js) (prepared : PreparedDeploy) :
    Recipe.From A B (executeDeploy W deployParams deposits prepared) := by
  rw [executeDeploy]
  split_ifs
  · refine Recipe.From.bind ?_ fun p => from_fundContract hW
    refine (from_nativeFee hW).bind fun opts => (from_step (hW.deploy _ _)).bind fun deploy => ?_
    exact from_actionIndexOf.bind fun contractActionIndex => from_pure _
  · refine Recipe.From.bind (from_foldlM (fun p leg => ?_) _ _) fun p =>
      Recipe.From.bind ?_ fun p => from_fundContract hW
    · refine (from_nativeFee hW).bind fun opts => ?_
      exact (from_step (hW.deployChunk _ _)).bind fun result => from_pure _
    · refine (from_nativeFee hW).bind fun opts => (from_step (hW.deploy _ _)).bind fun deploy => ?_
      refine from_actionIndexOf.bind fun assembler => ?_
      split_ifs
      · exact from_pure _
      · exact (from_between fun e h => .inr (recipeError_of_resolve h)).bind fun _ => from_pure _

end From

/-! ### What the entries keep -/

/-- A deposit adds no carrier. -/
theorem chunks_depositLeg {c : Js} {leg : Js × ℕ} :
    (∀ q, (depositLeg W c p leg).outcome = .ok q → q.chunks = p.chunks) ∧
      ∀ e q, (depositLeg W c p leg).outcome = .error (e, q) → q.chunks = p.chunks := by
  unfold depositLeg
  cases htick : memberOf leg.1 "tick" with
  | error e => exact ⟨fun q h => (by cases h), fun e q h => (by cases h; rfl)⟩
  | ok tick =>
    cases hquantity : memberOf leg.1 "quantity" with
    | error e => exact ⟨fun q h => (by cases h), fun e q h => (by cases h; rfl)⟩
    | ok quantity =>
      refine ⟨fun q h => ?_, fun e q h => ?_⟩
      · obtain ⟨tick', -, h⟩ := Traced.bind_eq_ok.1 h
        obtain ⟨quantity', -, h⟩ := Traced.bind_eq_ok.1 h
        obtain ⟨result, -, h⟩ := Traced.bind_eq_ok.1 h
        cases h
        rfl
      · rcases Traced.bind_eq_error.1 h with h | ⟨tick', -, h⟩
        · cases h
        rcases Traced.bind_eq_error.1 h with h | ⟨quantity', -, h⟩
        · cases h
        rcases Traced.bind_eq_error.1 h with h | ⟨result, -, h⟩
        · rw [Recipe.step, Traced.outcome_call] at h
          cases hx : (W.deposit leg.2 (.obj [("contractActionIndex", c), ("tick", tick'),
            ("quantity", quantity')])).outcome with
          | ok r =>
            rw [hx] at h
            cases h
          | error e' =>
            rw [hx] at h
            cases h
            rfl
        · cases h

theorem chunks_depositLegs {c : Js} {legs : List (Js × ℕ)} {e : Js} {q : DeployPartial}
    (h : (legs.foldlM (depositLeg W c) p).outcome = .error (e, q)) : q.chunks = p.chunks := by
  induction legs generalizing p with
  | nil => cases h
  | cons leg legs ih =>
    rw [List.foldlM_cons] at h
    rcases Traced.bind_eq_error.1 h with h | ⟨p', hp', h⟩
    · exact chunks_depositLeg.2 e q h
    · rw [ih h, chunks_depositLeg.1 p' hp']

/-- `deployAndFund` has no carriers to keep. -/
theorem chunks_fundSteps {deployParams e : Js} {q : DeployPartial}
    (h : (fundSteps W deployParams deposits).outcome = .error (e, q)) : q.chunks = [] := by
  rcases Traced.bind_eq_error.1 h with h | ⟨deploy, -, h⟩
  · rw [Recipe.step, Traced.outcome_call] at h
    cases hx : (W.deploy deployParams (.obj [])).outcome with
    | ok r =>
      rw [hx] at h
      cases h
    | error e' =>
      rw [hx] at h
      cases h
      rfl
  · dsimp only at h
    split_ifs at h
    rcases Traced.bind_eq_error.1 h with h | ⟨index, -, h⟩
    · cases hindex : actionIndexOf deploy.indexed with
      | ok index =>
        rw [hindex] at h
        cases h
      | error e' =>
        rw [hindex] at h
        cases h
        rfl
    · rw [fundContract] at h
      split_ifs at h
      · cases h
        rfl
      · exact chunks_depositLegs h

theorem mentions_fundEntry {r : SubmitResult} {t : String} (hp : p.chunks = []) (hr : r ∈ p.results)
    (h : Js.Mentions t r.entry) : Js.Mentions t p.fundEntry := by
  simp only [DeployPartial.results, hp, List.nil_append, List.mem_append, Option.mem_toList] at hr
  rcases hr with hdeploy | hr
  · rw [DeployPartial.fundEntry, hdeploy]
    exact .field (k := "deploy") List.mem_cons_self h
  · exact .field (k := "deposits") (.tail _ (.head _)) (.item (List.mem_map_of_mem hr) h)

theorem mentions_deployEntry {r : SubmitResult} {t : String} (hr : r ∈ p.results)
    (h : Js.Mentions t r.entry) : Js.Mentions t p.deployEntry := by
  simp only [DeployPartial.results, List.mem_append, Option.mem_toList] at hr
  rcases hr with (hr | hdeploy) | hr
  · exact .field (k := "chunks") (.tail _ (.head _)) (.item (List.mem_map_of_mem hr) h)
  · rw [DeployPartial.deployEntry, hdeploy]
    exact .field (k := "deploy") List.mem_cons_self h
  · exact .field (k := "deposits") (.tail _ (.tail _ (.head _))) (.item (List.mem_map_of_mem hr) h)

/-! ### What each step must answer -/

/-- What the steps of a recipe must answer, each by itself. -/
structure StepAnswers (A : Set (Submit SubmitResult)) (B : Set Js) (frozen : Js → Bool) : Prop where
  /-- the error of a failed step names what the step broadcast -/
  failed : ∀ y ∈ A, ∀ e, y.outcome = .error e → ∀ tx signed, .accepted tx signed ∈ y.trace →
    Js.Mentions signed.txid e
  /-- the result of a finished step names what it broadcast -/
  finished : ∀ x ∈ A, ∀ r, x.outcome = .ok r → ∀ tx signed, .accepted tx signed ∈ x.trace →
    Js.Mentions signed.txid r.entry
  /-- an error that ends a recipe behind a finished step is an object that takes a partial, or it
  names what that step broadcast -/
  attached : ∀ e, (∃ y ∈ A, y.outcome = .error e) ∨ e ∈ B → attaches frozen e = false →
    ∀ x ∈ A, ∀ r, x.outcome = .ok r → ∀ tx signed, .accepted tx signed ∈ x.trace →
      Js.Mentions signed.txid e

section Answers

variable {A : Set (Submit SubmitResult)} {B : Set Js} {frozen : Js → Bool}

/-- Whatever the steps are that end a recipe: what each answers for itself is enough.  The reveal that
the failed step's own error holds is always kept. -/
theorem withPartial_keeps {entry : DeployPartial → Js} {w : Recipe DeployPartial}
    (hfresh : ∀ e, RecipeError e → frozen e = false) (h : StepAnswers A B frozen)
    (hw : Accounts [] DeployPartial.results w) (hfrom : Recipe.From A B w)
    (hentry : ∀ e p, w.outcome = .error (e, p) → ∀ r ∈ p.results, ∀ t, Js.Mentions t r.entry →
      Js.Mentions t (entry p))
    {thrown : Js} (hthrown : withPartial frozen entry w = .error thrown) {x : Submit SubmitResult}
    (hx : x ∈ w.trace) : Keeps x thrown := by
  cases hout : w.outcome with
  | ok p =>
    rw [withPartial, hout] at hthrown
    cases hthrown
  | error ep =>
    obtain ⟨e, p⟩ := ep
    rw [withPartial, hout] at hthrown
    cases hthrown
    have hin := hfrom.steps x hx
    rcases (hw.failed e p hout).2 x hx with ⟨r, hr, hok⟩ | herror
    · refine ⟨fun tx signed hmem => mentions_attachPartial.2 ?_, fun own hown => ?_⟩
      · have hnamed := h.finished x hin r hok tx signed hmem
        cases hattach : attaches frozen e with
        | true => exact .inr ⟨rfl, hentry e p hout r hr _ hnamed⟩
        | false =>
          rcases hfrom.error e p hout with hy | hB | hmade
          · exact .inl (h.attached e (.inl hy) hattach x hin r hok tx signed hmem)
          · exact .inl (h.attached e (.inr hB) hattach x hin r hok tx signed hmem)
          · rw [hmade.attaches hfresh] at hattach
            cases hattach
      · rw [hok] at hown
        cases hown
    · refine ⟨fun tx signed hmem => mentions_attachPartial.2
        (.inl (h.failed x hin e herror tx signed hmem)), fun own hown _ hex hhex => ?_⟩
      rw [herror] at hown
      cases hown
      have htext : Js.Mentions hex ((e.field "details").field "revealTxHex") := by
        rw [hhex]
        exact .text List.infix_rfl
      exact mentions_attachPartial.2 (.inl htext.of_field.of_field)

theorem deployAndFund_keeps (hfresh : ∀ e, RecipeError e → frozen e = false)
    (h : StepAnswers A B frozen) (hW : W.From A B) (hfrozen : W.frozen = frozen)
    (hsession : W.session = .ok ()) {deployParams e : Js}
    (he : deployAndFund W deployParams deposits = .error e) {x : Submit SubmitResult}
    (hx : x ∈ (fundSteps W deployParams deposits).trace) : Keeps x e := by
  rw [deployAndFund, hsession, hfrozen] at he
  exact withPartial_keeps hfresh h (accounts_fundSteps deployParams) (from_fundSteps hW deployParams)
    (fun _ _ hout _ hr _ hm => mentions_fundEntry (chunks_fundSteps hout) hr hm) he hx

theorem deployContract_keeps (hfresh : ∀ e, RecipeError e → frozen e = false)
    (h : StepAnswers A B frozen) (hW : W.From A B) (hfrozen : W.frozen = frozen)
    (hsession : W.session = .ok ()) {deployParams e : Js} {prepared : PreparedDeploy}
    (he : deployContract W deployParams deposits (.ok prepared) = .error e)
    {x : Submit SubmitResult}
    (hx : x ∈ (executeDeploy W deployParams deposits prepared).trace) : Keeps x e := by
  unfold deployContract at he
  rw [hsession] at he
  dsimp only at he
  rw [hfrozen] at he
  exact withPartial_keeps hfresh h (accounts_executeDeploy deployParams prepared)
    (from_executeDeploy hW deployParams prepared)
    (fun _ _ _ _ hr _ hm => mentions_deployEntry hr hm) he hx

/-- Every call is answered by `x`. -/
def constWorld (frozen : Js → Bool) (x : Submit SubmitResult) : DeployWorld where
  session := .ok ()
  nativeFee _ := .ok .null
  deploy _ _ := x
  deployChunk _ _ := x
  deposit _ _ := x
  timeout := 0
  reads := []
  frozen

/-- The first carrier is answered by `x`, and the second one by a fee or by `y`. -/
def chunkWorld (frozen : Js → Bool) (x y : Submit SubmitResult) (fee : Except Js Js) : DeployWorld :=
  { constWorld frozen x with
    nativeFee := fun params => if (params.field "chunkIndex").toText = "1" then fee else .ok .null
    deployChunk := fun params _ => if (params.field "chunkIndex").toText = "1" then y else x }

/-- A deploy in two carriers. -/
def twoChunks : PreparedDeploy := ⟨⟨"c", false, some ["p", "q"], 2⟩, .null⟩

theorem from_constWorld {x : Submit SubmitResult} (hx : x ∈ A) : (constWorld frozen x).From A B :=
  ⟨fun _ _ => hx, fun _ _ => hx, fun _ _ => hx, fun _ _ h => by cases h⟩

theorem from_chunkWorld {x y : Submit SubmitResult} {fee : Except Js Js} (hx : x ∈ A) (hy : y ∈ A)
    (hfee : ∀ e, fee = .error e → e ∈ B) : (chunkWorld frozen x y fee).From A B where
  deploy _ _ := hx
  deployChunk params _ := by
    rw [chunkWorld]
    dsimp only
    split_ifs
    · exact hy
    · exact hx
  deposit _ _ := hx
  nativeFee params e h := by
    rw [chunkWorld] at h
    dsimp only at h
    split_ifs at h
    exact hfee e h

/-- A deploy that fails ends the recipe with its own error. -/
theorem deployAndFund_constWorld {y : Submit SubmitResult} {e : Js} (hout : y.outcome = .error e) :
    deployAndFund (constWorld frozen y) .null [] = .error (attachPartial frozen
        (DeployPartial.fundEntry {}) e) ∧ y ∈ (fundSteps (constWorld frozen y) .null []).trace := by
  have hstep : (Recipe.step {} y).outcome = .error (e, {}) := by
    rw [Recipe.step, Traced.outcome_call, hout]
    rfl
  have hrun : fundSteps (constWorld frozen y) .null [] = ⟨.error (e, {}), [y]⟩ :=
    Traced.bind_of_error hstep
  refine ⟨?_, by rw [hrun]; exact List.mem_singleton_self y⟩
  rw [deployAndFund, constWorld]
  dsimp only
  rw [← constWorld, withPartial, hrun]
  rfl

/-- The error of a recipe without a deposit's fields says nothing of what was broadcast. -/
theorem deployAndFund_null {x : Submit SubmitResult} {r : SubmitResult} (hok : x.outcome = .ok r) :
    x ∈ (fundSteps (constWorld frozen x) .null [.null]).trace ∧
      ∃ e, deployAndFund (constWorld frozen x) .null [.null] = .error (attachPartial frozen
          (DeployPartial.fundEntry { deploy := some r }) e) ∧
        ∀ t, IsHexRun t → ¬Js.Mentions t e := by
  let p : DeployPartial := { deploy := some r }
  have hstep : (Recipe.step {} x).outcome = .ok r := by
    rw [Recipe.step, Traced.outcome_call, hok]
    rfl
  let rest : Recipe DeployPartial := do
    let contractActionIndex ← between p (actionIndexOf r.indexed)
    fundContract (constWorld frozen x) "deployAndFund" contractActionIndex [.null] p
  have hrun : fundSteps (constWorld frozen x) .null [.null] = ⟨rest.outcome, [x] ++ rest.trace⟩ :=
    Traced.bind_of_ok hstep
  have hfree : ∀ e : Js, e = typeError ∨ e = plainError ("deployAndFund" ++
      ": DEPLOY action_index unavailable; submit with waitForIndexer enabled") →
      ∀ t, IsHexRun t → ¬Js.Mentions t e := by
    have hstr : ∀ s : String, hexRunFree s.toList = true → ∀ t, IsHexRun t → ¬Js.Mentions t (str s) :=
      fun s hs t ht hm => by
        cases hm with
        | text hinfix => exact ht.not_infix hs hinfix
    rintro e (rfl | rfl) t ht hm
    · obtain ⟨m, hmem, hm⟩ := Js.mentions_obj.1 hm
      rw [List.mem_singleton.1 hmem] at hm
      exact hstr "TypeError" (by decide) t ht hm
    · obtain ⟨m, hmem, hm⟩ := Js.mentions_obj.1 hm
      rcases List.mem_cons.1 hmem with rfl | hmem
      · exact hstr "Error" (by decide) t ht hm
      · rw [List.mem_singleton.1 hmem] at hm
        exact hstr _ (by decide +kernel) t ht hm
  obtain ⟨e, he, hcases⟩ : ∃ e, rest.outcome = .error (e, p) ∧ (e = typeError ∨ e = plainError
      ("deployAndFund" ++ ": DEPLOY action_index unavailable; submit with waitForIndexer enabled")) := by
    cases hindex : actionIndexOf r.indexed with
    | error e =>
      refine ⟨e, ?_, .inl (eq_typeError_of_actionIndexOf hindex)⟩
      exact Traced.bind_eq_error.2 (.inl (by rw [hindex]; rfl))
    | ok index =>
      have hrest : rest.outcome =
          (fundContract (constWorld frozen x) "deployAndFund" index [.null] p).outcome := by
        have hbetween : (between p (actionIndexOf r.indexed)).outcome = .ok index := by
          rw [hindex]
          rfl
        exact congrArg Traced.outcome (Traced.bind_of_ok hbetween)
      rw [hrest, fundContract, if_neg (List.cons_ne_nil _ _)]
      cases hnull : index.isNullish with
      | true => exact ⟨_, rfl, .inr rfl⟩
      | false => exact ⟨_, rfl, .inl rfl⟩
  refine ⟨by rw [hrun]; exact List.mem_cons_self, e, ?_, hfree e hcases⟩
  rw [deployAndFund, constWorld]
  dsimp only
  rw [← constWorld, withPartial, hrun, he]
  rfl

theorem nativeFee_chunkWorld {x y : Submit SubmitResult} {fee : Except Js Js} (params : Js) :
    (chunkWorld frozen x y fee).nativeFee params =
      if (params.field "chunkIndex").toText = "1" then fee else .ok .null := rfl

theorem deployChunk_chunkWorld {x y : Submit SubmitResult} {fee : Except Js Js} (params opts : Js) :
    (chunkWorld frozen x y fee).deployChunk params opts =
      if (params.field "chunkIndex").toText = "1" then y else x := rfl

theorem chunkLeg_eq {plan : DeployPlan} {leg : String × ℕ} {opts : Js} {r : SubmitResult}
    (hfee : W.nativeFee (.obj (chunkParams plan leg.1 leg.2 ++ [("VERSION", str "4")])) = .ok opts)
    (hok : (W.deployChunk (.obj (chunkParams plan leg.1 leg.2)) opts).outcome = .ok r) :
    chunkLeg W plan p leg = ⟨.ok { p with chunks := p.chunks ++ [r] },
      [W.deployChunk (.obj (chunkParams plan leg.1 leg.2)) opts]⟩ := by
  have hbetween : (between p (W.nativeFee (.obj (chunkParams plan leg.1 leg.2 ++
      [("VERSION", str "4")])))).outcome = .ok opts := by
    rw [hfee]
    rfl
  have hstep : (Recipe.step p (W.deployChunk (.obj (chunkParams plan leg.1 leg.2)) opts)).outcome =
      .ok r := by
    rw [Recipe.step, Traced.outcome_call, hok]
    rfl
  rw [chunkLeg, Traced.bind_of_ok hbetween, Traced.bind_of_ok hstep]
  rfl

/-- A second carrier that fails ends the recipe behind the first one. -/
theorem deployContract_chunkWorld {x y : Submit SubmitResult} {fee : Except Js Js} {r : SubmitResult}
    {e : Js} (hok : x.outcome = .ok r)
    (hsecond : fee = .error e ∨ fee = .ok .null ∧ y.outcome = .error e) :
    deployContract (chunkWorld frozen x y fee) .null [] (.ok twoChunks) =
        .error (attachPartial frozen (DeployPartial.deployEntry { chunks := [r] }) e) ∧
      x ∈ (executeDeploy (chunkWorld frozen x y fee) .null [] twoChunks).trace := by
  set W := chunkWorld frozen x y fee with hW
  -- The world tells the two carriers apart by their `chunkIndex`.
  have htext : ∀ (fs : List (String × Js)) (part : String) (i : ℕ), i ≤ 1 →
      ((Js.obj (chunkParams twoChunks.plan part i ++ fs)).field "chunkIndex").toText = natText i := by
    intro fs part i hi
    have hfield : (Js.obj (chunkParams twoChunks.plan part i ++ fs)).field "chunkIndex" =
        .num (.fin i) := rfl
    rw [hfield, Js.toText, numberToString_natCast (hi.trans (by decide))]
    rfl
  have hfirst : chunkLeg W twoChunks.plan {} ("p", 0) = ⟨.ok { chunks := [r] }, [x]⟩ := by
    have hchunk : ∀ opts, W.deployChunk (.obj (chunkParams twoChunks.plan "p" 0)) opts = x := by
      intro opts
      have h0 := htext [] "p" 0 (by decide)
      rw [List.append_nil] at h0
      rw [hW, deployChunk_chunkWorld, h0, if_neg (by decide)]
    have hfee : W.nativeFee (.obj (chunkParams twoChunks.plan "p" 0 ++ [("VERSION", str "4")])) =
        .ok .null := by
      rw [hW, nativeFee_chunkWorld, htext _ "p" 0 (by decide), if_neg (by decide)]
    rw [chunkLeg_eq hfee (by rw [hchunk, hok]), hchunk]
    rfl
  -- The second leg fails on its fee or on its submission, and keeps the first one's answer.
  have hrest : (chunkLeg W twoChunks.plan { chunks := [r] } ("q", 1)).outcome =
      .error (e, { chunks := [r] }) := by
    have hfee : W.nativeFee (.obj (chunkParams twoChunks.plan "q" 1 ++ [("VERSION", str "4")])) =
        fee := by
      rw [hW, nativeFee_chunkWorld, htext _ "q" 1 (by decide), if_pos (by decide)]
    refine Traced.bind_eq_error.2 ?_
    dsimp only
    rw [hfee]
    rcases hsecond with rfl | ⟨rfl, hout⟩
    · exact .inl rfl
    · refine .inr ⟨.null, rfl, Traced.bind_eq_error.2 (.inl ?_)⟩
      have hchunk : W.deployChunk (.obj (chunkParams twoChunks.plan "q" 1)) .null = y := by
        have h1 := htext [] "q" 1 (by decide)
        rw [List.append_nil] at h1
        rw [hW, deployChunk_chunkWorld, h1, if_pos (by decide)]
      rw [hchunk, Recipe.step, Traced.outcome_call, hout]
      rfl
  have hrun : (executeDeploy W .null [] twoChunks).outcome = .error (e, { chunks := [r] }) ∧
      x ∈ (executeDeploy W .null [] twoChunks).trace := by
    have hlegs : ((twoChunks.plan.parts.getD []).zipIdx.foldlM (chunkLeg W twoChunks.plan) {}).outcome
        = .error (e, { chunks := [r] }) ∧
        x ∈ ((twoChunks.plan.parts.getD []).zipIdx.foldlM (chunkLeg W twoChunks.plan) {}).trace := by
      change (chunkLeg W twoChunks.plan {} ("p", 0) >>= fun p => chunkLeg W twoChunks.plan p ("q", 1)
        >>= pure).outcome = _ ∧ x ∈ (chunkLeg W twoChunks.plan {} ("p", 0) >>= fun p =>
          chunkLeg W twoChunks.plan p ("q", 1) >>= pure).trace
      rw [hfirst]
      exact ⟨Traced.bind_eq_error.2 (.inr ⟨_, rfl, Traced.bind_eq_error.2 (.inl hrest)⟩),
        Traced.mem_trace_of_left (List.mem_singleton_self x)⟩
    rw [executeDeploy, if_neg (by decide)]
    exact ⟨Traced.bind_eq_error.2 (.inl hlegs.1), Traced.mem_trace_of_left hlegs.2⟩
  refine ⟨?_, hrun.2⟩
  change withPartial frozen DeployPartial.deployEntry (executeDeploy W .null [] twoChunks) = _
  rw [withPartial, hrun.1]
  rfl

/-- **The errors of `deployAndFund` and `deployContract` keep what was broadcast, in every run whose
submissions may be any in `A` and whose fees fail with errors in `B`, exactly when each of them
answers for itself.** -/
theorem recipes_keep_iff (hA : HexAnswers A) (hfresh : ∀ e, RecipeError e → frozen e = false) :
    (∀ (W : DeployWorld) (deployParams : Js) (deposits : List Js) (prepared : PreparedDeploy),
      W.From A B → W.frozen = frozen → W.session = .ok () →
        (∀ e, deployAndFund W deployParams deposits = .error e →
          ∀ x ∈ (fundSteps W deployParams deposits).trace, Keeps x e) ∧
        (∀ e, deployContract W deployParams deposits (.ok prepared) = .error e →
          ∀ x ∈ (executeDeploy W deployParams deposits prepared).trace, Keeps x e)) ↔
      StepAnswers A B frozen := by
  constructor
  · intro hall
    refine ⟨fun y hy e hout tx signed hmem => ?_, fun x hx r hok tx signed hmem => ?_,
      fun e he hattach x hx r hok tx signed hmem => ?_⟩
    · -- the first step of the recipe
      obtain ⟨hrun, hin⟩ := deployAndFund_constWorld hout
      have hkeeps := (hall (constWorld frozen y) .null [] twoChunks (from_constWorld hy) rfl rfl).1
        _ hrun y hin
      rcases mentions_attachPartial.1 (hkeeps.broadcast tx signed hmem) with h | ⟨-, h⟩
      · exact h
      · obtain ⟨m, hmem, hm⟩ := Js.mentions_obj.1 h
        rcases List.mem_cons.1 hmem with rfl | hmem
        · cases hm
        · rw [List.mem_singleton.1 hmem] at hm
          obtain ⟨z, hz, -⟩ := Js.mentions_arr.1 hm
          cases hz
    · -- a deposit without fields, behind the deploy
      obtain ⟨hin, e, hrun, hfree⟩ := deployAndFund_null hok
      have hkeeps := (hall (constWorld frozen x) .null [.null] twoChunks (from_constWorld hx) rfl
        rfl).1 _ hrun x hin
      rcases mentions_attachPartial.1 (hkeeps.broadcast tx signed hmem) with h | ⟨-, h⟩
      · exact absurd h (hfree _ (hA.txid x hx tx signed hmem))
      · obtain ⟨m, hmem, hm⟩ := Js.mentions_obj.1 h
        rcases List.mem_cons.1 hmem with rfl | hmem
        · exact hm
        · rw [List.mem_singleton.1 hmem] at hm
          obtain ⟨z, hz, -⟩ := Js.mentions_arr.1 hm
          cases hz
    · -- the second carrier
      have hnamed : ∀ thrown, Keeps x thrown → thrown = attachPartial frozen
          (DeployPartial.deployEntry { chunks := [r] }) e → Js.Mentions signed.txid e := by
        rintro _ hkeeps rfl
        rcases mentions_attachPartial.1 (hkeeps.broadcast tx signed hmem) with h | ⟨htrue, -⟩
        · exact h
        · rw [hattach] at htrue
          cases htrue
      rcases he with ⟨y, hy, hout⟩ | hB
      · obtain ⟨hrun, hin⟩ := deployContract_chunkWorld hok
          (.inr ⟨rfl, hout⟩)
        exact hnamed _ ((hall _ .null [] twoChunks (from_chunkWorld hx hy fun _ h => by cases h) rfl
          rfl).2 _ hrun x hin) rfl
      · obtain ⟨hrun, hin⟩ := deployContract_chunkWorld (y := x) hok
          (.inl (rfl : (.error e : Except Js Js) = .error e))
        exact hnamed _ ((hall _ .null [] twoChunks (from_chunkWorld hx hx fun _ h => by
          cases h; exact hB) rfl rfl).2 _ hrun x hin) rfl
  · intro h W deployParams deposits prepared hW hfrozen hsession
    exact ⟨fun e he x hx => deployAndFund_keeps hfresh h hW hfrozen hsession he hx,
      fun e he x hx => deployContract_keeps hfresh h hW hfrozen hsession he hx⟩

end Answers

end Recipes

/-! ### The three calls -/

/-- **The error of a call that makes several submissions names all that was broadcast, and brings
the reveal of one that stopped before it, in every call with any number of legs, carriers and deposits
that are answered from `A`, exactly when each answer says so by itself.** -/
theorem compositeCalls_keep_iff (A : Set (Submit SubmitResult)) (S B : Set Js) (frozen : Js → Bool)
    (hA : HexAnswers A) (hfresh : ∀ e, RecipeError e → frozen e = false) :
    ((∀ legs : List CrossLeg, (∀ leg ∈ legs, leg.From A S) →
      ∀ e, (parallel legs).outcome = .error e → ∀ leg ∈ (parallel legs).begun, Keeps leg.submit e) ↔
      LegAnswers A S) ∧
    ((∀ (W : DeployWorld) (deployParams : Js) (deposits : List Js) (prepared : PreparedDeploy),
      W.From A B → W.frozen = frozen → W.session = .ok () →
        (∀ e, deployAndFund W deployParams deposits = .error e →
          ∀ x ∈ (fundSteps W deployParams deposits).trace, Keeps x e) ∧
        (∀ e, deployContract W deployParams deposits (.ok prepared) = .error e →
          ∀ x ∈ (executeDeploy W deployParams deposits prepared).trace, Keeps x e)) ↔
      StepAnswers A B frozen) :=
  ⟨parallel_keeps_iff hA, recipes_keep_iff hA hfresh⟩

/-- The txid of a deploy that is broadcast. -/
def sentTxid : String := String.ofList (List.replicate 64 'a')

/-- Its result. -/
def sentDeploy : SubmitResult where
  txid := sentTxid
  actionString := str "DEPLOY|0|c"
  action := str "DEPLOY"
  version := .num (.fin 0)
  encoding := str "OP_RETURN"
  signed := ⟨"01", sentTxid⟩
  spentInputs := []
  changeOutputs := []
  indexed := .obj [("action_index", .num (.fin 5))]

/-- A submission that is broadcast. -/
def sentSubmit : Submit SubmitResult :=
  ⟨.ok sentDeploy, [.broadcast .transaction "01", .accepted .transaction ⟨"01", sentTxid⟩]⟩

/-- A submission that is refused before anything is broadcast. -/
def refusedSubmit : Submit SubmitResult := ⟨.error (plainError "refused"), []⟩

/-- A session that makes the deploy and refuses the deposit. -/
def refusingWorld : DeployWorld where
  session := .ok ()
  nativeFee _ := .ok (.obj [])
  deploy _ _ := sentSubmit
  deployChunk _ _ := refusedSubmit
  deposit _ _ := refusedSubmit
  timeout := 1
  reads := []
  frozen _ := false

/-- Its answers. -/
def refusingAnswers : Set (Submit SubmitResult) := {sentSubmit, refusedSubmit}

theorem accepted_refusingAnswers {x : Submit SubmitResult} (hx : x ∈ refusingAnswers)
    {tx : SubmissionTx} {signed : SignedTx} (hmem : .accepted tx signed ∈ x.trace) :
    x = sentSubmit ∧ signed.txid = sentTxid := by
  rcases hx with rfl | rfl
  · refine ⟨rfl, ?_⟩
    have hboth : tx = .transaction ∧ signed = ⟨"01", sentTxid⟩ := by
      simpa [sentSubmit] using hmem
    rw [hboth.2]
  · cases hmem

/-- The errors of these calls bring the deploy: with the deposit refused, and with a leg refused. -/
theorem compositeCalls_keep_iff_refused :
    (∀ e, deployAndFund refusingWorld .null [.obj [("tick", str "T"), ("quantity", str "1")]] =
        .error e → ∀ x ∈ (fundSteps refusingWorld .null
          [.obj [("tick", str "T"), ("quantity", str "1")]]).trace, Keeps x e) ∧
      ∀ e, (parallel [madeLeg sentSubmit, madeLeg refusedSubmit]).outcome = .error e →
        ∀ leg ∈ (parallel [madeLeg sentSubmit, madeLeg refusedSubmit]).begun,
          Keeps leg.submit e := by
  have hhex : HexAnswers refusingAnswers := by
    refine ⟨fun x hx tx signed hmem => ?_, fun x hx own hown hex hhex => ?_⟩
    · rw [(accepted_refusingAnswers hx hmem).2]
      exact ⟨by decide +kernel, List.all_eq_true.1 (by decide +kernel)⟩
    · rcases hx with rfl | rfl
      · cases hown
      · cases hown
        cases hhex
  have hresult : Js.Mentions sentTxid sentDeploy.entry :=
    .field (k := "txid") List.mem_cons_self (.text List.infix_rfl)
  have hfailed : ∀ y ∈ refusingAnswers, ∀ e, y.outcome = .error e → y = refusedSubmit := by
    rintro y (rfl | rfl) e h
    · cases h
    · rfl
  have hnone : ∀ tx signed, .accepted tx signed ∉ refusedSubmit.trace := fun _ _ => List.not_mem_nil
  have hboth := compositeCalls_keep_iff refusingAnswers ∅ ∅ (fun _ => false) hhex fun _ _ => rfl
  constructor
  · refine fun e he => (hboth.2.2 ⟨fun y hy e h tx signed hmem => ?_, fun x hx r h tx signed hmem => ?_,
      fun e he hattach => ?_⟩ refusingWorld .null _ twoChunks ?_ rfl rfl).1 e he
    · rw [hfailed y hy e h] at hmem
      exact absurd hmem (hnone tx signed)
    · obtain ⟨rfl, htxid⟩ := accepted_refusingAnswers hx hmem
      cases h
      rw [htxid]
      exact hresult
    · rcases he with ⟨y, hy, h⟩ | he
      · rw [hfailed y hy e h] at h
        cases h
        cases hattach
      · cases he
    · exact ⟨fun _ _ => .inl rfl, fun _ _ => .inr rfl, fun _ _ => .inr rfl, fun _ _ h => by cases h⟩
  · refine hboth.1.2 ⟨fun y hy e h => ?_, fun x hx r h y hy e _ tx signed hmem => .inl ?_,
      fun e he => by cases he⟩ [madeLeg sentSubmit, madeLeg refusedSubmit]
      (from_madeLeg (l := [sentSubmit, refusedSubmit]) fun x hx => ?_)
    · obtain rfl := hfailed y hy e h
      refine ⟨fun tx signed hmem => absurd hmem (hnone tx signed), fun own hown hstopped => ?_⟩
      obtain ⟨⟨signed, hmem⟩, -⟩ := hstopped
      exact absurd hmem (hnone _ signed)
    · obtain ⟨rfl, htxid⟩ := accepted_refusingAnswers hx hmem
      cases h
      rw [htxid]
      exact hresult
    · simpa [refusingAnswers] using hx

/-! ### A reveal that is lost -/

/-- The error of an envelope whose reveal the network refused, with its message. -/
def envelopeRefused (commit reveal : SignedTx) (recovery : Js) : Js :=
  actionError "ENVELOPE_REVEAL_BROADCAST_FAILED" ("commit " ++ commit.txid ++
      " is broadcast but the reveal was rejected: refused. " ++
      "Retry the reveal broadcast, or cancel " ++
      "the commit via the key path using the recovery record.")
    [("commitTxid", str commit.txid), ("recovery", recovery), ("revealTxHex", str reveal.txHex),
      ("cause", plainError "refused")]

/-- A leg whose envelope stopped between its two broadcasts. -/
def stoppedLeg : CrossLeg where
  chain := str "BTC"
  sdk := .ok ()
  session := .ok ()
  submit := ⟨.error (envelopeRefused ⟨"01", "a1"⟩ ⟨"0203", "b2"⟩ (.obj [("key", str "k")])),
    [.signed .transaction ⟨"01", "a1"⟩, .signed .envelopeReveal ⟨"0203", "b2"⟩,
      .broadcast .transaction "01", .accepted .transaction ⟨"01", "a1"⟩,
      .broadcast .envelopeReveal "0203"]⟩

/-- **The error of `parallel` does not bring the reveal.** -/
theorem parallel_drops_reveal : ¬∀ e, (parallel [stoppedLeg]).outcome = .error e →
    ∀ leg ∈ (parallel [stoppedLeg]).begun, Keeps leg.submit e := by
  intro h
  have hstopped : StoppedBetween stoppedLeg.submit :=
    ⟨⟨⟨"01", "a1"⟩, by simp [stoppedLeg]⟩, .envelopeReveal, ⟨"0203", "b2"⟩, by decide,
      by simp [stoppedLeg], by simp [stoppedLeg]⟩
  have hrun := @parallel_of_sessions [stoppedLeg] rfl rfl
  rw [hrun] at h
  have hkeeps := h _ (resolveSettled_legs.2 ⟨⟨stoppedLeg, List.mem_cons_self, rfl⟩, rfl⟩) stoppedLeg
    List.mem_cons_self
  have hnamed := mentions_parallelError.1 (hkeeps.reveal _ rfl hstopped "0203" rfl)
  have htexts : ∀ s ∈ parallelTexts [stoppedLeg], ¬"0203".toList <:+: s.toList := by
    decide +kernel
  have hmessage : ¬"0203".toList <:+: ("commit " ++ "a1" ++
      " is broadcast but the reveal was rejected: refused. " ++
      "Retry the reveal broadcast, or cancel " ++
      "the commit via the key path using the recovery record.").toList := by
    decide +kernel
  have hchain : ¬"0203".toList <:+: "BTC".toList := by decide
  rcases hnamed with ⟨s, hs, hinfix⟩ | ⟨leg, hleg, hentry⟩
  · exact htexts s hs hinfix
  · obtain rfl : leg = stoppedLeg := by simpa using hleg
    rcases hentry with hfound | ⟨r, hr, -⟩ | ⟨e, he, hfound⟩
    · cases hfound with
      | text hinfix => exact hchain hinfix
    · cases hr
    · cases he
      cases hfound with
      | text hinfix => exact hmessage hinfix

end XChainSdk
