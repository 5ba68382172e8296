import XChainSdk.Preflight.Tier1

/-!
# When the network outranks a client error

* `Precedence` : what a report must keep of the client's findings under the answer of the network.
* `CoversFindings` : the answer says enough about the commands that the findings are about.
* `tier1Precedence_iff` : the two come to the same.
-/

namespace XChainSdk

variable {commands : Option ℕ} {findings : List Finding} {tier1 : Tier1}

/-! ### The purpose -/

/-- The verdicts on single commands in an answer. -/
def Tier1.subVerdicts : Tier1 → Option (List SubCommand)
  | .verdict _ _ _ _ _ subCommands _ => subCommands
  | _ => none

/-- The network answered `valid`. -/
def Tier1.Approves : Tier1 → Prop
  | .verdict valid _ _ _ _ _ _ => valid = true
  | _ => False

/-- The network did not judge the action. -/
def Tier1.Silent : Tier1 → Prop
  | .verdict _ _ _ _ _ _ _ => False
  | _ => True

/-- Some entry says otherwise of the command at a position. -/
def Contradicted (subs : List SubCommand) (position : ℚ) : Prop :=
  ∃ s ∈ subs, s.position = position ∧ s.outcome = .invalid

/-- The answer judges the command at a position valid, and no entry of it says otherwise. -/
def JudgedValid (tier1 : Tier1) (position : ℚ) : Prop :=
  ∃ subs, tier1.subVerdicts = some subs ∧ position ∈ acceptedPositions subs ∧
    ¬ Contradicted subs position

/-- The network judged what a finding is about: the command that it is tagged with, or else every
command of the batch. -/
def JudgedFor (tier1 : Tier1) (n : ℕ) (f : Finding) : Prop :=
  match f.commandIndex with
  | some ci => JudgedValid tier1 ci ∧ ∃ k < n, ci = (k : ℕ)
  | none => ∀ k < n, JudgedValid tier1 (k : ℕ)

/-- **The precedence of the network's answer over the client's findings.**  A finding keeps its
place in the report. -/
structure Precedence (commands : Option ℕ) (findings : List Finding) (tier1 : Tier1) : Prop where
  /-- every finding is in the report -/
  kept : ∀ (i : ℕ) (f : Finding), findings[i]? = some f → ∃ g,
    (applyTier1 findings tier1)[i]? = some g ∧ g.code = f.code ∧ g.message = f.message ∧
      g.data = f.data ∧ g.source = f.source
  /-- a demoted error is one that the network judged -/
  demoted : ∀ (i : ℕ) (f g : Finding), findings[i]? = some f → f.IsClientError →
    (applyTier1 findings tier1)[i]? = some g → g.severity ≠ .error →
      tier1.Approves ∧ ∀ n, commands = some n → JudgedFor tier1 n f
  /-- what depends on the caller's own unconfirmed spends stays a warning at least -/
  localDelta : ∀ (i : ℕ) (f g : Finding), findings[i]? = some f → f.localOnly = true →
    f.severity ≠ .info → (applyTier1 findings tier1)[i]? = some g → g.severity ≠ .info
  /-- without a verdict the findings stand, and that is disclosed -/
  silent : tier1.Silent → ∃ d, applyTier1 findings tier1 = findings ++ [d] ∧
    d.code = .DRYRUN_UNAVAILABLE ∧ d.severity = .info ∧ d.source = .dryrun
  /-- the report fails when an error is left -/
  verdict : computeVerdict (applyTier1 findings tier1) = .fail ↔
    ∃ f ∈ applyTier1 findings tier1, f.severity = .error

/-! ### The condition -/

/-- The entries of an answer are enough for a finding on a batch of `n` commands. -/
def CoversFinding (n : ℕ) (subs : List SubCommand) (f : Finding) : Prop :=
  match f.commandIndex with
  | some ci => ci ∈ acceptedPositions subs → ¬ Contradicted subs ci ∧ ∃ k < n, ci = (k : ℕ)
  | none => allAccepted subs = true → ∀ k < n, ((k : ℕ) : ℚ) ∈ acceptedPositions subs

/-- An approval of a batch has enough entries for every error of the client. -/
def CoversFindings (commands : Option ℕ) (findings : List Finding) (tier1 : Tier1) : Prop :=
  ∀ n, commands = some n → tier1.Approves → ∀ f ∈ findings, f.IsClientError →
    match tier1.subVerdicts with
    | some subs => CoversFinding n subs f
    | none => f.commandIndex = none ∧ n = 0

/-! ### One finding -/

theorem getElem?_applyValidVerdict (subs : Option (List SubCommand))
    (fees : Option (List (String × Js))) {i : ℕ} {f : Finding} (h : findings[i]? = some f) :
    (applyValidVerdict findings subs fees)[i]? = some (demote subs f) := by
  have hlt := (List.getElem?_eq_some_iff.1 h).1
  rw [applyValidVerdict, List.getElem?_map, List.getElem?_append_left hlt, h, Option.map_some]

theorem getElem?_append_of_some {α : Type} {xs ys : List α} {i : ℕ} {x : α}
    (h : xs[i]? = some x) : (xs ++ ys)[i]? = some x := by
  rw [List.getElem?_append_left (List.getElem?_eq_some_iff.1 h).1, h]

/-- Only an approval touches a finding. -/
theorem getElem?_applyTier1 {i : ℕ} {f : Finding} (h : findings[i]? = some f)
    (hnot : ¬ tier1.Approves) : (applyTier1 findings tier1)[i]? = some f := by
  cases tier1 with
  | verdict valid status error height quote subs fees =>
    cases valid with
    | true => exact absurd rfl hnot
    | false =>
      rw [applyTier1, applyInvalidVerdict, List.append_assoc]
      exact getElem?_append_of_some h
  | noVerdict reason denied quote => exact getElem?_append_of_some h
  | unavailable reason => exact getElem?_append_of_some h

theorem getElem?_applyTier1_of_approves {i : ℕ} {f : Finding} (h : findings[i]? = some f)
    (happ : tier1.Approves) :
    (applyTier1 findings tier1)[i]? = some (demote tier1.subVerdicts f) := by
  cases tier1 with
  | verdict valid status error height quote subs fees =>
    cases valid with
    | true => exact getElem?_applyValidVerdict subs fees h
    | false => exact absurd happ (by simp [Tier1.Approves])
  | noVerdict reason denied quote => exact absurd happ id
  | unavailable reason => exact absurd happ id

/-- Which errors are demoted. -/
theorem demote_severity_ne_error_iff {subs : Option (List SubCommand)} {f : Finding}
    (h : f.IsClientError) : (demote subs f).severity ≠ .error ↔ outranked subs f = true := by
  obtain ⟨hsev, hsrc⟩ := h
  rw [demote, hsev, hsrc]
  cases outranked subs f with
  | false => simp [hsev]
  | true => cases f.localOnly <;> simp

theorem demote_kept (subs : Option (List SubCommand)) (f : Finding) :
    (demote subs f).code = f.code ∧ (demote subs f).message = f.message ∧
      (demote subs f).data = f.data ∧ (demote subs f).source = f.source := by
  rw [demote]
  split_ifs <;> exact ⟨rfl, rfl, rfl, rfl⟩

theorem demote_localOnly {subs : Option (List SubCommand)} {f : Finding}
    (hlocal : f.localOnly = true) (hinfo : f.severity ≠ .info) :
    (demote subs f).severity ≠ .info := by
  rw [demote]
  split_ifs with h
  · simp
  · exact hinfo

/-! ### The two come to the same -/

/-- A demotion is covered exactly when it was judged. -/
theorem judgedFor_iff {n : ℕ} {f : Finding} :
    (outranked tier1.subVerdicts f = true → JudgedFor tier1 n f) ↔
      match tier1.subVerdicts with
      | some subs => CoversFinding n subs f
      | none => f.commandIndex = none ∧ n = 0 := by
  have hjudged (position : ℚ) : JudgedValid tier1 position ↔
      ∃ subs, tier1.subVerdicts = some subs ∧ position ∈ acceptedPositions subs ∧
        ¬ Contradicted subs position := Iff.rfl
  cases hsubs : tier1.subVerdicts with
  | none =>
    have hnone (position : ℚ) : ¬ JudgedValid tier1 position := by simp [hjudged, hsubs]
    cases hci : f.commandIndex with
    | none =>
      simp only [outranked, JudgedFor, hci, hnone, true_and, forall_const]
      constructor
      · intro h
        by_contra hn
        exact h 0 (by omega)
      · rintro rfl k hk
        omega
    | some ci => simp [outranked, JudgedFor, hci, hnone]
  | some subs =>
    have hsome (position : ℚ) : JudgedValid tier1 position ↔
        position ∈ acceptedPositions subs ∧ ¬ Contradicted subs position := by
      simp [hjudged, hsubs]
    cases hci : f.commandIndex with
    | none =>
      simp only [outranked, JudgedFor, CoversFinding, hci, hsome]
      refine imp_congr_right fun hall => forall_congr' fun k => imp_congr_right fun _ => ?_
      -- entries that all say valid contradict nothing
      refine and_iff_left ?_
      rintro ⟨s, hs, -, hinvalid⟩
      have hvalid : s.outcome = .valid := by simpa using List.all_eq_true.1 hall s hs
      rw [hvalid] at hinvalid
      cases hinvalid
    | some ci =>
      simp only [outranked, JudgedFor, CoversFinding, hci, hsome, decide_eq_true_eq]
      exact imp_congr_right fun hmem => by simp [hmem]

theorem applyTier1_of_silent (h : tier1.Silent) : ∃ d, applyTier1 findings tier1 = findings ++ [d] ∧
    d.code = .DRYRUN_UNAVAILABLE ∧ d.severity = .info ∧ d.source = .dryrun := by
  cases tier1 with
  | verdict valid status error height quote subs fees => exact absurd h id
  | noVerdict reason denied quote => exact ⟨_, rfl, rfl, rfl, rfl⟩
  | unavailable reason => exact ⟨_, rfl, rfl, rfl, rfl⟩

/-- **When the network outranks only what it judged**, for every answer to a dry run. -/
theorem tier1Precedence_iff (action : String) (run : DryRun) (commands : Option ℕ)
    (findings : List Finding) :
    Precedence commands findings (runTier1 action run) ↔
      CoversFindings commands findings (runTier1 action run) := by
  generalize runTier1 action run = tier1
  constructor
  · intro h n hn happ f hf herr
    obtain ⟨i, hi⟩ := List.getElem?_of_mem hf
    rw [← judgedFor_iff]
    intro hout
    have hget := getElem?_applyTier1_of_approves hi happ
    have hsev := (demote_severity_ne_error_iff herr).2 hout
    exact (h.demoted i f _ hi herr hget hsev).2 n hn
  · intro h
    refine ⟨?_, ?_, ?_, applyTier1_of_silent, computeVerdict_eq_fail_iff⟩
    · intro i f hi
      by_cases happ : tier1.Approves
      · exact ⟨_, getElem?_applyTier1_of_approves hi happ, demote_kept _ f⟩
      · exact ⟨f, getElem?_applyTier1 hi happ, rfl, rfl, rfl, rfl⟩
    · intro i f g hi herr hg hsev
      by_cases happ : tier1.Approves
      · rw [getElem?_applyTier1_of_approves hi happ] at hg
        cases hg
        refine ⟨happ, fun n hn => ?_⟩
        have hcover := h n hn happ f (List.mem_of_getElem? hi) herr
        rw [← judgedFor_iff] at hcover
        exact hcover ((demote_severity_ne_error_iff herr).1 hsev)
      · rw [getElem?_applyTier1 hi happ] at hg
        cases hg
        exact absurd herr.1 hsev
    · intro i f g hi hlocal hinfo hg
      by_cases happ : tier1.Approves
      · rw [getElem?_applyTier1_of_approves hi happ] at hg
        cases hg
        exact demote_localOnly hlocal hinfo
      · rw [getElem?_applyTier1 hi happ] at hg
        cases hg
        exact hinfo

/-- A batch of two commands that is sent to a network with one answer. -/
def answered (quote : Js) : DryRun := ⟨some ⟨some (.ok quote), .ok quote⟩, none⟩

/-- An error of the client that is tagged with the first command. -/
def taggedError : Finding where
  code := .TOKEN_NOT_FOUND
  severity := .error
  message := "Token NOSUCH does not exist."
  data := [("tick", .str "NOSUCH"), ("commandIndex", .num (.fin 0))]
  source := .client
  overridable := some true

/-- An answer with the verdicts of both commands covers the finding. -/
theorem tier1Precedence_listed : Precedence (some 2) [taggedError]
    (runTier1 "BATCH" (answered (.obj [("valid", .bool true), ("subCommands", .arr
      [.obj [("position", .num (.fin 0)), ("status", .str "invalid: TICK (unknown)")],
        .obj [("position", .num (.fin 1)), ("status", .str "valid")]])]))) := by
  rw [tier1Precedence_iff]
  intro n hn happ f hf herr
  rw [List.mem_singleton.1 hf]
  intro hmem
  exact absurd hmem (by decide)

/-- An answer without the verdicts of the commands demotes the error on one of them. -/
theorem tier1Precedence_unlisted : ¬ Precedence (some 2) [taggedError]
    (runTier1 "BATCH" (answered (.obj [("valid", .bool true)]))) := by
  intro h
  have hout : (applyTier1 [taggedError]
      (runTier1 "BATCH" (answered (.obj [("valid", .bool true)]))))[0]? =
        some (demote none taggedError) := rfl
  obtain ⟨-, hjudged⟩ := h.demoted 0 taggedError _ rfl ⟨rfl, rfl⟩ hout (by decide)
  obtain ⟨⟨subs, hsubs, -⟩, -⟩ := hjudged 2 rfl
  cases hsubs

end XChainSdk
