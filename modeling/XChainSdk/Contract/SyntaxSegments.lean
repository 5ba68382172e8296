import XChainSdk.Contract.SyntaxDepth

/-!
# Stretches of tokens in the depth scan

What tokens do to the frame that they stand in, whatever was read before them.

* `Reader` : the scan's state between tokens.
* `Grows`, `Keeps` : what a stretch adds to the running segment, and what a frame holds.
* `Segment`, `Content` : the same as statements about labels; `Segment.append` composes them.
* `delimited` : the parts between two delimiters count once more, with the constant of their frame.
* `Segment.fresh` : a part after a statement end starts over.
-/

namespace XChainSdk

namespace SyntaxDepth

/-! ### Reading -/

/-- The scan between two tokens. -/
structure Reader where
  scan : Scan
  prev : Option String
  prevPrev : Option String

namespace Reader

/-- The running chain: what the open segment is worth without its children. -/
def chain (r : Reader) : ℕ := r.scan.top.heads + r.scan.top.ops

/-- What the frame is worth. -/
def worth (r : Reader) : ℕ := max r.scan.top.best r.scan.top.value

def read (r : Reader) (token : LintToken) : Reader where
  scan := ((r.scan.settle token.label).applyToken token r.prev r.prevPrev).1
  prev := some token.label
  prevPrev := r.prev

def readAll (r : Reader) (tokens : List LintToken) : Reader := tokens.foldl read r

/-- The reader once the statement end before a token is settled. -/
def settled (r : Reader) (label : String) : Reader := { r with scan := r.scan.settle label }

end Reader

/-- The running chain grows by `w`, and the running segment is worth `h` more than the chain was. -/
structure Grows (w h : ℕ) (r r' : Reader) : Prop where
  outer : r'.scan.outer = r.scan.outer
  kind : r'.scan.top.kind = r.scan.top.kind
  best : r.scan.top.best ≤ r'.scan.top.best
  child : r.scan.top.child ≤ r'.scan.top.child
  chain : r.chain + w ≤ r'.chain
  gain : r.chain + h ≤ r'.chain + r'.scan.top.child

/-- The frame stays, and is worth what it was and `h`. -/
structure Keeps (h : ℕ) (r r' : Reader) : Prop where
  outer : r'.scan.outer = r.scan.outer
  kind : r'.scan.top.kind = r.scan.top.kind
  worth : r.worth ≤ r'.worth
  holds : h ≤ r'.worth

theorem Grows.trans {w₁ h₁ w₂ h₂ : ℕ} {r r' r'' : Reader} (h : Grows w₁ h₁ r r')
    (h' : Grows w₂ h₂ r' r'') : Grows (w₁ + w₂) (max (h₁ + w₂) (w₁ + h₂)) r r'' where
  outer := h'.outer.trans h.outer
  kind := h'.kind.trans h.kind
  best := h.best.trans h'.best
  child := h.child.trans h'.child
  chain := by
    have := h.chain
    have := h'.chain
    omega
  gain := by
    have := h.chain
    have := h.gain
    have := h'.chain
    have := h'.gain
    have := h'.child
    omega

theorem Grows.mono {w h w' h' : ℕ} {r r' : Reader} (hg : Grows w h r r') (hw : w' ≤ w)
    (hh : h' ≤ h) : Grows w' h' r r' where
  outer := hg.outer
  kind := hg.kind
  best := hg.best
  child := hg.child
  chain := (Nat.add_le_add_left hw _).trans hg.chain
  gain := (Nat.add_le_add_left hh _).trans hg.gain

theorem Grows.keeps {w h : ℕ} {r r' : Reader} (hg : Grows w h r r') : Keeps h r r' where
  outer := hg.outer
  kind := hg.kind
  worth := by
    have hbest := hg.best
    have hchild := hg.child
    have hchain := hg.chain
    simp only [Reader.worth, Frame.value, Reader.chain] at hchain ⊢
    omega
  holds := by
    have hgain := hg.gain
    simp only [Reader.worth, Frame.value, Reader.chain] at hgain ⊢
    omega

theorem Keeps.refl (r : Reader) : Keeps 0 r r := ⟨rfl, rfl, le_rfl, Nat.zero_le _⟩

theorem Keeps.trans {h₁ h₂ : ℕ} {r r' r'' : Reader} (h : Keeps h₁ r r') (h' : Keeps h₂ r' r'') :
    Keeps (max h₁ h₂) r r'' where
  outer := h'.outer.trans h.outer
  kind := h'.kind.trans h.kind
  worth := h.worth.trans h'.worth
  holds := max_le (h.holds.trans h'.worth) h'.holds

theorem Keeps.mono {h h' : ℕ} {r r' : Reader} (hk : Keeps h r r') (hle : h' ≤ h) : Keeps h' r r' :=
  { hk with holds := hle.trans hk.holds }

/-! ### What may be pending -/

/-- No statement end is open. -/
def Settled (r : Reader) : Prop := r.scan.top.pending = .none

/-- At most the `}` of an object or a function is open. -/
def Calm (r : Reader) : Prop := r.scan.top.pending ≠ .semi

/-- A statement may start: a label is told from a property by the token before it. -/
def Start (r : Reader) : Prop := Settled r ∧ r.prev ∈ LABEL_LEADERS

/-- A statement has ended. -/
def Ended (r : Reader) : Prop := r.scan.top.pending ≠ .none ∧ r.prev ∈ LABEL_LEADERS

theorem Settled.calm {r : Reader} (h : Settled r) : Calm r := by
  unfold Calm
  rw [h]
  decide

/-- The label goes on with the expression that a `}` may have ended. -/
def Continuing (label : String) : Prop :=
  label ∉ NEW_STATEMENT_LABELS ∧ label ∉ CONTINUE_LABELS ∧ label ≠ "while"

instance (label : String) : Decidable (Continuing label) :=
  inferInstanceAs (Decidable (_ ∧ _ ∧ _))

/-- The frame stack without an open statement end. -/
def Reader.calmed (r : Reader) : Scan :=
  ⟨{ r.scan.top with pending := .none }, r.scan.outer⟩

theorem settle_of_settled {r : Reader} (h : Settled r) (label : String) :
    r.scan.settle label = r.calmed := by
  have hscan : r.scan = r.calmed := by
    rw [Reader.calmed, ← h]
  exact (if_pos h).trans hscan

/-- Before a continuing token only the open end goes. -/
theorem settle_of_calm {r : Reader} (h : Calm r) {label : String} (hl : Continuing label) :
    r.scan.settle label = r.calmed := by
  obtain ⟨hnew, hcontinue, hwhile⟩ := hl
  by_cases hnone : Settled r
  · exact settle_of_settled hnone label
  · have hbrace : r.scan.top.pending = .brace := by
      cases hp : r.scan.top.pending with
      | none => exact absurd hp hnone
      | semi => exact absurd hp h
      | brace => rfl
    have hsettle : r.scan.settle label = ⟨r.scan.top.settlePending label, r.scan.outer⟩ :=
      if_neg hnone
    rw [hsettle]
    simp [Frame.settlePending, Reader.calmed, hbrace, hnew, hcontinue, hwhile]

/-- A token that carries the statement on keeps the segment. -/
theorem settle_of_continue (r : Reader) {label : String} (hl : label ∈ CONTINUE_LABELS)
    (hwhile : label ≠ "while") : r.scan.settle label = r.calmed := by
  by_cases hnone : Settled r
  · exact settle_of_settled hnone label
  · have hsettle : r.scan.settle label = ⟨r.scan.top.settlePending label, r.scan.outer⟩ :=
      if_neg hnone
    rw [hsettle]
    simp [Frame.settlePending, Reader.calmed, hl, hwhile]

theorem settled_settle (s : Scan) (label : String) : (s.settle label).top.pending = .none := by
  unfold Scan.settle Frame.settlePending
  split_ifs with h
  · exact h
  · dsimp only
    split_ifs <;> rfl

/-- Settling twice is settling once. -/
theorem settle_settle (s : Scan) (label : String) :
    (s.settle label).settle label = s.settle label :=
  if_pos (settled_settle s label)

/-! ### Stretches of tokens -/

/-- What the tokens of a part do to the running segment, from every state in `P`. -/
def Segment (labels : List String) (w h : ℕ) (P Q : Reader → Prop) : Prop :=
  ∀ tokens : List LintToken, tokens.map LintToken.label = labels → ∀ r, P r →
    Grows w h r (r.readAll tokens) ∧
      (r.readAll tokens).scan.top.openDo = r.scan.top.openDo ∧ Q (r.readAll tokens)

/-- What the tokens between two delimiters do to the frame. -/
def Content (labels : List String) (h : ℕ) (P : Reader → Prop) : Prop :=
  ∀ tokens : List LintToken, tokens.map LintToken.label = labels → ∀ r, P r →
    Keeps h r (r.readAll tokens)

variable {labels labels' : List String} {w h w' h' : ℕ} {P Q R P' Q' : Reader → Prop}

theorem readAll_append (r : Reader) (xs ys : List LintToken) :
    r.readAll (xs ++ ys) = (r.readAll xs).readAll ys := List.foldl_append

theorem Segment.append (hs : Segment labels w h P Q) (hs' : Segment labels' w' h' Q R) :
    Segment (labels ++ labels') (w + w') (max (h + w') (w + h')) P R := by
  intro tokens htokens r hr
  obtain ⟨xs, ys, rfl, hxs, hys⟩ := List.map_eq_append_iff.1 htokens
  obtain ⟨hgrows, hdo, hq⟩ := hs xs hxs r hr
  obtain ⟨hgrows', hdo', hr'⟩ := hs' ys hys _ hq
  rw [readAll_append]
  exact ⟨hgrows.trans hgrows', hdo'.trans hdo, hr'⟩

theorem Segment.mono (hs : Segment labels w h P Q) (hw : w' ≤ w) (hh : h' ≤ h)
    (hp : ∀ r, P' r → P r) (hq : ∀ r, Q r → Q' r) : Segment labels w' h' P' Q' := by
  intro tokens htokens r hr
  obtain ⟨hgrows, hdo, hpost⟩ := hs tokens htokens r (hp r hr)
  exact ⟨hgrows.mono hw hh, hdo, hq _ hpost⟩

/-- From fewer states. -/
theorem Segment.pre (hs : Segment labels w h P Q) (hp : ∀ r, P' r → P r) :
    Segment labels w h P' Q := hs.mono le_rfl le_rfl hp fun _ hr => hr

/-- Into more states. -/
theorem Segment.post (hs : Segment labels w h P Q) (hq : ∀ r, Q r → Q' r) :
    Segment labels w h P Q' := hs.mono le_rfl le_rfl (fun _ hr => hr) hq

/-- What the segment is worth is what is left of a stretch. -/
theorem Segment.weaken (hs : Segment labels w h P Q) (hh : h' ≤ h) : Segment labels 0 h' P Q :=
  hs.mono (Nat.zero_le w) hh (fun _ hr => hr) fun _ hr => hr

theorem Segment.content (hs : Segment labels w h P Q) : Content labels h P :=
  fun tokens htokens r hr => (hs tokens htokens r hr).1.keeps

theorem Segment.content_append (hs : Segment labels w h P Q) (hc : Content labels' h' Q) :
    Content (labels ++ labels') (max h h') P := by
  intro tokens htokens r hr
  obtain ⟨xs, ys, rfl, hxs, hys⟩ := List.map_eq_append_iff.1 htokens
  obtain ⟨hgrows, -, hq⟩ := hs xs hxs r hr
  rw [readAll_append]
  exact hgrows.keeps.trans (hc ys hys _ hq)

theorem Content.mono (hc : Content labels h P) (hh : h' ≤ h) : Content labels h' P :=
  fun tokens htokens r hr => (hc tokens htokens r hr).mono hh

/-- A stretch of one token. -/
theorem segment_single {label : String}
    (h1 : ∀ token : LintToken, token.label = label → ∀ r, P r →
      Grows w h r (r.read token) ∧ (r.read token).scan.top.openDo = r.scan.top.openDo ∧
        Q (r.read token)) : Segment [label] w h P Q := by
  intro tokens htokens r hr
  obtain ⟨token, rfl, hlabel⟩ := List.map_eq_singleton_iff.1 htokens
  exact h1 token hlabel r hr

/-! ### Single tokens -/

/-- The label is no delimiter, separator, statement head or colon. -/
def Plain (label : String) : Prop :=
  openerKind label = none ∧ label ∉ CLOSERS ∧ label ≠ "," ∧ label ≠ ";" ∧ label ∉ PREFIX_LABELS ∧
    label ≠ ":"

instance (label : String) : Decidable (Plain label) :=
  inferInstanceAs (Decidable (_ ∧ _ ∧ _ ∧ _ ∧ _ ∧ _))

/-- The frame stack after a token that counts `a` heads and `b` levels and settles all. -/
def Reader.counted (r : Reader) (a b openDo : ℕ) : Scan :=
  ⟨{ r.calmed.top with
      heads := r.calmed.top.heads + a, ops := r.calmed.top.ops + b, openDo }, r.scan.outer⟩

/-- The running chain is longer by what the token counts. -/
theorem grows_of_counted {r r' : Reader} {a b openDo : ℕ} (h : r'.scan = r.counted a b openDo) :
    Grows (a + b) (a + b) r r' ∧ r'.scan.top.openDo = openDo ∧ Settled r' := by
  have hchain : r'.chain = r.chain + (a + b) := by
    simp only [Reader.chain, h, Reader.counted, Reader.calmed]
    omega
  have hchild : r'.scan.top.child = r.scan.top.child := by
    rw [h]
    rfl
  refine ⟨⟨?_, ?_, ?_, hchild.ge, hchain.ge, ?_⟩, ?_, ?_⟩
  · rw [h]
    rfl
  · rw [h]
    rfl
  · rw [h]
    exact le_rfl
  · omega
  · rw [h]
    rfl
  · unfold Settled
    rw [h]
    rfl

/-- The token before the next one leaves room for a statement. -/
theorem read_prev_mem {token : LintToken} {label : String} {leaders : List (Option String)}
    (hlabel : token.label = label) (h : some label ∈ leaders) (r : Reader) :
    (r.read token).prev ∈ leaders := by
  change some token.label ∈ leaders
  rwa [hlabel]

/-- A plain token adds its weight, which may be none. -/
theorem read_plain {token : LintToken} (hplain : Plain token.label) {r : Reader}
    (hsettle : r.scan.settle token.label = r.calmed) :
    ∃ k, (r.read token).scan = r.counted 0 k r.scan.top.openDo ∧
      (token.label ∈ OP_LABELS → k = opWeight token.label) := by
  obtain ⟨hopen, hclose, hcomma, hsemi, hhead, hcolon⟩ := hplain
  simp only [Reader.read, hsettle, Scan.applyToken, hopen, hclose, hcomma, hsemi, hhead, hcolon,
    if_false]
  split_ifs with hop
  · exact ⟨opWeight token.label, rfl, fun _ => rfl⟩
  · exact ⟨0, rfl, fun h => absurd (.inl h) hop⟩

/-- A plain token that counts at least `w`. -/
theorem grows_of_plain {r r' : Reader} {k : ℕ} (hw : w ≤ k)
    (h : r'.scan = r.counted 0 k r.scan.top.openDo) :
    Grows w w r r' ∧ r'.scan.top.openDo = r.scan.top.openDo ∧ Settled r' := by
  obtain ⟨hgrows, hdo, hsettled⟩ := grows_of_counted h
  exact ⟨hgrows.mono (by omega) (by omega), hdo, hsettled⟩

theorem segment_op {label : String} (hplain : Plain label) (hop : label ∈ OP_LABELS) :
    Segment [label] (opWeight label) (opWeight label) Settled Settled :=
  segment_single fun token hlabel r hr => by
    subst hlabel
    obtain ⟨k, hscan, hk⟩ := read_plain hplain (settle_of_settled hr _)
    exact grows_of_plain (hk hop).ge hscan

theorem segment_op_calm {label : String} (hplain : Plain label) (hop : label ∈ OP_LABELS)
    (hl : Continuing label) :
    Segment [label] (opWeight label) (opWeight label) Calm Settled :=
  segment_single fun token hlabel r hr => by
    subst hlabel
    obtain ⟨k, hscan, hk⟩ := read_plain hplain (settle_of_calm hr hl)
    exact grows_of_plain (hk hop).ge hscan

theorem segment_plain {label : String} (hplain : Plain label) :
    Segment [label] 0 0 Settled Settled :=
  segment_single fun token hlabel r hr => by
    subst hlabel
    obtain ⟨k, hscan, -⟩ := read_plain hplain (settle_of_settled hr _)
    exact grows_of_plain (Nat.zero_le k) hscan

/-- A statement head is one level, in the frame that the statement end before it has left. -/
theorem read_head {token : LintToken} (hhead : token.label ∈ PREFIX_LABELS) (r : Reader) :
    (r.read token).scan =
      ⟨(r.scan.settle token.label).top.headed token.label, r.scan.outer⟩ := by
  have hother : ∀ label ∈ PREFIX_LABELS, openerKind label = none ∧ label ∉ CLOSERS ∧ label ≠ "," ∧
      label ≠ ";" := by decide
  obtain ⟨hopen, hclose, hcomma, hsemi⟩ := hother _ hhead
  simp only [Reader.read, Scan.applyToken, hopen, hclose, hcomma, hsemi, hhead, if_false, if_true,
    Scan.settle_outer]

/-- A head after which the statement is in a delimiter or starts at once. -/
theorem segment_head {label : String} (hhead : label ∈ PREFIX_LABELS) (hdo : label ≠ "do")
    (hP : ∀ r, P r → r.scan.settle label = r.calmed) :
    Segment [label] 1 1 P fun r => Settled r ∧ r.prev = some label :=
  segment_single fun token hlabel r hr => by
    subst hlabel
    have hscan : (r.read token).scan = r.counted 1 0 r.scan.top.openDo := by
      rw [read_head hhead, hP r hr, Frame.headed, if_neg hdo]
      rfl
    obtain ⟨hgrows, hopen, hsettled⟩ := grows_of_counted hscan
    exact ⟨hgrows, hopen, hsettled, rfl⟩

/-- A colon is one level after a label, and else none. -/
theorem read_colon {token : LintToken} (hlabel : token.label = ":") {r : Reader} (hr : Calm r) :
    (r.read token).scan =
      r.counted (if r.prev = some "name" ∧ r.prevPrev ∈ LABEL_LEADERS then 1 else 0) 0
        r.scan.top.openDo := by
  simp only [Reader.read, hlabel, settle_of_calm hr (show Continuing ":" by decide)]
  simp only [Scan.applyToken, hlabel, show openerKind ":" = none from by decide,
    show ":" ∉ CLOSERS from by decide, show ":" ∉ PREFIX_LABELS from by decide, if_false,
    if_true, show (":" : String) ≠ "," from by decide, show (":" : String) ≠ ";" from by decide]
  split_ifs <;> rfl

/-- A colon may be a label's, and ends nothing. -/
theorem segment_colon : Segment [":"] 0 0 Calm Start :=
  segment_single fun token hlabel r hr => by
    obtain ⟨hgrows, hdo, hsettled⟩ := grows_of_counted (read_colon hlabel hr)
    exact ⟨hgrows.mono (Nat.zero_le _) (Nat.zero_le _), hdo, hsettled,
      read_prev_mem hlabel (by decide) r⟩

/-- A semicolon records the segment and leaves the statement end open. -/
theorem segment_semi : Segment [";"] 0 0 Calm Ended :=
  segment_single fun token hlabel r hr => by
    have hscan : (r.read token).scan =
        ⟨{ r.calmed.top.closeSegment with pending := .semi }, r.scan.outer⟩ := by
      simp only [Reader.read, hlabel, settle_of_calm hr (show Continuing ";" by decide)]
      simp only [Scan.applyToken, hlabel, show openerKind ";" = none from by decide,
        show ";" ∉ CLOSERS from by decide, if_false, if_true,
        show (";" : String) ≠ "," from by decide]
      rfl
    have hbest : r.scan.top.best ≤ max r.scan.top.best r.calmed.top.value := le_max_left _ _
    refine ⟨⟨by rw [hscan], by rw [hscan]; rfl, by rw [hscan]; exact hbest,
      by rw [hscan]; exact le_rfl, ?_, ?_⟩, by rw [hscan]; rfl, ?_, ?_⟩
    · simp only [Reader.chain, hscan, Reader.calmed, Frame.closeSegment]
      omega
    · simp only [Reader.chain, hscan, Reader.calmed, Frame.closeSegment]
      omega
    · rw [hscan]
      change Pending.semi ≠ Pending.none
      decide
    · exact read_prev_mem hlabel (by decide) r

/-- A comma records the segment; the frame is worth what it was. -/
theorem content_comma (hc : Content labels h Settled) : Content ([","] ++ labels) h Calm := by
  intro tokens htokens r hr
  obtain ⟨xs, ys, rfl, hxs, hys⟩ := List.map_eq_append_iff.1 htokens
  obtain ⟨token, rfl, hlabel⟩ := List.map_eq_singleton_iff.1 hxs
  have hscan : (r.read token).scan =
      ⟨{ r.calmed.top.closeSegment with ops := 0, child := 0 }, r.scan.outer⟩ := by
    simp only [Reader.read, hlabel, settle_of_calm hr (show Continuing "," by decide)]
    simp only [Scan.applyToken, hlabel, show openerKind "," = none from by decide,
      show "," ∉ CLOSERS from by decide, if_false, if_true]
    rfl
  have hkeeps : Keeps 0 r (r.read token) := by
    refine ⟨by rw [hscan], by rw [hscan]; rfl, ?_, Nat.zero_le _⟩
    have hbest : (r.read token).scan.top.best = max r.scan.top.best r.scan.top.value := by
      rw [hscan]
      rfl
    unfold Reader.worth
    rw [hbest]
    exact le_max_left _ _
  have hsettled : Settled (r.read token) := by
    unfold Settled
    rw [hscan]
    rfl
  rw [readAll_append]
  exact (hkeeps.trans (hc ys hys _ hsettled)).mono (le_max_right _ _)

/-! ### Delimiters -/

/-- What an opener adds around the frame that it opens. -/
def openWeight (label : String) : ℕ := if label = "(" ∨ label = "[" then opWeight label else 0

theorem opened_eq (f : Frame) (label : String) :
    f.opened label = { f with ops := f.ops + openWeight label } := by
  unfold Frame.opened openWeight
  split_ifs <;> rfl

/-- **The parts between two delimiters count once more, with the constant of their frame.** -/
theorem delimited {lo lc : String} {kind : FrameKind} (hopen : openerKind lo = some kind)
    (hlc : lc ∈ CLOSERS) (hP : ∀ r, P r → r.scan.settle lo = r.calmed)
    (hc : Content labels h fun r => Settled r ∧ r.prev = some lo) :
    Segment ([lo] ++ (labels ++ [lc])) (openWeight lo) (openWeight lo + FRAME_CONSTANT kind + h) P
      fun r => r.prev = some lc ∧
        r.scan.top.pending = if kind = .brace then .brace else .none := by
  intro tokens htokens r hr
  obtain ⟨xs, ys, rfl, hxs, hys⟩ := List.map_eq_append_iff.1 htokens
  obtain ⟨first, rfl, hlo⟩ := List.map_eq_singleton_iff.1 hxs
  obtain ⟨inner, ys, rfl, hinner, hys⟩ := List.map_eq_append_iff.1 hys
  obtain ⟨last, rfl, hlast⟩ := List.map_eq_singleton_iff.1 hys
  -- the opener
  have hopened : (r.read first).scan = ⟨{ kind }, r.calmed.top.opened lo :: r.scan.outer⟩ := by
    simp only [Reader.read, hlo, hP r hr]
    simp only [Scan.applyToken, hlo, hopen]
    rfl
  have hinside : Settled (r.read first) ∧ (r.read first).prev = some lo := by
    refine ⟨?_, congrArg some hlo⟩
    unfold Settled
    rw [hopened]
  -- what is between the delimiters
  have hkeeps := hc inner hinner _ hinside
  generalize hmid : (r.read first).readAll inner = mid at hkeeps
  have houter : (mid.scan.settle lc).outer = r.calmed.top.opened lo :: r.scan.outer := by
    rw [Scan.settle_outer, hkeeps.outer, hopened]
  have hkind : mid.scan.top.kind = kind := by
    rw [hkeeps.kind, hopened]
  have hweight : FRAME_CONSTANT kind + h ≤ (mid.scan.settle lc).top.weight := by
    have hmono := mid.scan.weight_le_settle lc
    have hholds := hkeeps.holds
    rw [Frame.weight_eq mid.scan.top, hkind] at hmono
    unfold Reader.worth at hholds
    omega
  -- the closer
  have hnopen : ∀ label ∈ CLOSERS, openerKind label = none := by decide
  have hclosed : (mid.read last).scan =
      ⟨(r.calmed.top.opened lo).popped (mid.scan.settle lc).top, r.scan.outer⟩ := by
    simp only [Reader.read, hlast, Scan.applyToken, hnopen lc hlc, hlc, if_true, houter]
  rw [opened_eq, Frame.popped_eq, Scan.settle_kind, hkind] at hclosed
  have hchain : (mid.read last).chain = r.chain + openWeight lo := by
    simp only [Reader.chain, hclosed, Frame.absorb, Reader.calmed]
    omega
  have hchild : (mid.read last).scan.top.child =
      max r.scan.top.child (mid.scan.settle lc).top.weight := by
    rw [hclosed]
    rfl
  have hall : r.readAll ([first] ++ (inner ++ [last])) = mid.read last := by
    rw [readAll_append, readAll_append, ← hmid]
    rfl
  rw [hall]
  refine ⟨⟨?_, ?_, ?_, ?_, hchain.ge, ?_⟩, ?_, congrArg some hlast, ?_⟩
  · rw [hclosed]
  · rw [hclosed]
    rfl
  · rw [hclosed]
    exact le_rfl
  · rw [hchild]
    exact le_max_left _ _
  · rw [hchain, hchild]
    omega
  · rw [hclosed]
    rfl
  · rw [hclosed]
    rfl

theorem parens (hc : Content labels h Settled) :
    Segment (["("] ++ (labels ++ [")"])) 2 (4 + h) Calm Start :=
  (delimited (P := Calm) (show openerKind "(" = some .paren by decide) (by decide)
    (fun _ hr => settle_of_calm hr (by decide))
    fun tokens htokens r hr => hc tokens htokens r hr.1).mono (by decide) le_rfl (fun _ hr => hr)
    fun _ hr => ⟨hr.2, by rw [hr.1]; decide⟩

theorem brackets (hc : Content labels h Settled) :
    Segment (["["] ++ (labels ++ ["]"])) 1 (3 + h) Calm Settled :=
  (delimited (P := Calm) (show openerKind "[" = some .bracket by decide) (by decide)
    (fun _ hr => settle_of_calm hr (by decide))
    fun tokens htokens r hr => hc tokens htokens r hr.1).mono (by decide) le_rfl (fun _ hr => hr)
    fun _ hr => hr.2

/-- The token before has left room for a statement. -/
def Leads (r : Reader) : Prop := r.prev ∈ LABEL_LEADERS

theorem braces (hc : Content labels h fun r => Settled r ∧ Leads r) :
    Segment (["\x7b"] ++ (labels ++ ["\x7d"])) 0 (4 + h) Calm fun r => Ended r ∧ Calm r :=
  (delimited (P := Calm) (show openerKind "\x7b" = some .brace by decide) (by decide)
    (fun _ hr => settle_of_calm hr (by decide))
    fun tokens htokens r hr => hc tokens htokens r ⟨hr.1, by unfold Leads; rw [hr.2]; decide⟩).mono
    (by decide) (by rw [openWeight, if_neg (by decide), Nat.zero_add]; rfl) (fun _ hr => hr)
    fun r hr => by
      have hpending : r.scan.top.pending = .brace := hr.2
      refine ⟨⟨by rw [hpending]; decide, by rw [hr.1]; decide⟩, ?_⟩
      unfold Calm
      rw [hpending]
      decide

theorem templateBraces (hc : Content labels h Settled) :
    Segment (["$\x7b"] ++ (labels ++ ["\x7d"])) 0 (2 + h) Settled Settled :=
  (delimited (P := Settled) (show openerKind "$\x7b" = some .dollarBrace by decide) (by decide)
    (fun _ hr => settle_of_settled hr _)
    fun tokens htokens r hr => hc tokens htokens r hr.1).mono (by decide)
    (by rw [openWeight, if_neg (by decide), Nat.zero_add]; rfl) (fun _ hr => hr) fun _ hr => hr.2

/-! ### Statements in a row -/

theorem read_settled (r : Reader) (token : LintToken) :
    (r.settled token.label).read token = r.read token := by
  unfold Reader.read Reader.settled
  rw [settle_settle]

/-- A part that starts over: the statement end before it is settled at its first token. -/
theorem Segment.fresh (hs : Segment labels w h P Q) (hne : labels ≠ [])
    (hP : ∀ r, Settled r → Leads r → P r) {tokens : List LintToken}
    (htokens : tokens.map LintToken.label = labels) {r : Reader} (hr : Leads r) :
    Keeps h r (r.readAll tokens) ∧ Q (r.readAll tokens) := by
  obtain ⟨token, rest, rfl⟩ := List.exists_cons_of_ne_nil (l := tokens) (by
    rintro rfl
    exact hne htokens.symm)
  have hfirst : r.readAll (token :: rest) = (r.settled token.label).readAll (token :: rest) := by
    change (r.read token).readAll rest = ((r.settled token.label).read token).readAll rest
    rw [read_settled]
  obtain ⟨hgrows, -, hpost⟩ := hs (token :: rest) htokens (r.settled token.label)
    (hP _ (settled_settle r.scan token.label) hr)
  have hsettle : Keeps 0 r (r.settled token.label) := by
    refine ⟨r.scan.settle_outer _, r.scan.settle_kind _, ?_, Nat.zero_le _⟩
    have hweight := r.scan.weight_le_settle token.label
    rw [Frame.weight_eq, Frame.weight_eq, Scan.settle_kind] at hweight
    exact Nat.le_of_add_le_add_left hweight
  rw [hfirst]
  exact ⟨(hsettle.trans hgrows.keeps).mono (le_max_right _ _), hpost⟩

/-- A part records what it is worth before the next one starts over. -/
theorem Segment.fresh_append (hs : Segment labels w h P Ended) (hne : labels ≠ [])
    (hP : ∀ r, Settled r → Leads r → P r) (hc : Content labels' h' Leads) :
    Content (labels ++ labels') (max h h') Leads := by
  intro tokens htokens r hr
  obtain ⟨xs, ys, rfl, hxs, hys⟩ := List.map_eq_append_iff.1 htokens
  obtain ⟨hkeeps, -, hleads⟩ := hs.fresh hne hP hxs hr
  rw [readAll_append]
  exact hkeeps.trans (hc ys hys _ hleads)

/-! ### Every part -/

theorem one_le_opWeight (label : String) : 1 ≤ opWeight label := by
  unfold opWeight
  split_ifs <;> decide

theorem Start.calm {r : Reader} (h : Start r) : Calm r := h.1.calm

/-- The end of a do loop's body, its test and the semicolon. -/
theorem segment_doWhile {body test : List String} {b t : ℕ}
    (hbody : Segment body 0 b Start Ended) (htest : Content test t Settled) :
    Segment (["do"] ++ (body ++ (["while"] ++ ((["("] ++ (test ++ [")"])) ++ [";"])))) 4
      (max (1 + b) (6 + t)) Start Ended := by
  intro tokens htokens r hr
  obtain ⟨xs, ys, rfl, hxs, hys⟩ := List.map_eq_append_iff.1 htokens
  obtain ⟨first, rfl, hfirst⟩ := List.map_eq_singleton_iff.1 hxs
  obtain ⟨inner, ys, rfl, hinner, hys⟩ := List.map_eq_append_iff.1 hys
  obtain ⟨xs, last, rfl, hxs, hlast⟩ := List.map_eq_append_iff.1 hys
  obtain ⟨second, rfl, hsecond⟩ := List.map_eq_singleton_iff.1 hxs
  have hdo : (r.read first).scan = r.counted 1 0 (r.scan.top.openDo + 1) := by
    rw [read_head (by rw [hfirst]; decide), hfirst, settle_of_settled hr.1]
    rfl
  obtain ⟨hgrows, hopen, hsettled⟩ := grows_of_counted hdo
  obtain ⟨hgrows', hopen', hended⟩ := hbody inner hinner (r.read first)
    ⟨hsettled, read_prev_mem hfirst (by decide) r⟩
  generalize hmid : (r.read first).readAll inner = mid at *
  -- the loop's own `while` closes the open do and keeps the segment
  have hsettle : mid.scan.settle "while" =
      ⟨{ mid.calmed.top with openDo := r.scan.top.openDo }, mid.scan.outer⟩ := by
    have hif : mid.scan.settle "while" =
        ⟨mid.scan.top.settlePending "while", mid.scan.outer⟩ := if_neg hended.1
    rw [hopen] at hopen'
    rw [hif]
    simp [Frame.settlePending, Reader.calmed, hopen']
  have hwhile : (mid.read second).scan = mid.counted 1 0 r.scan.top.openDo := by
    rw [read_head (by rw [hsecond]; decide), hsecond, hsettle]
    rfl
  obtain ⟨hgrows'', hdo'', hsettled''⟩ := grows_of_counted hwhile
  obtain ⟨htail, htailDo, htailEnded⟩ :=
    ((parens htest).append (segment_semi.pre fun _ hr => Start.calm hr)) last hlast
      (mid.read second) hsettled''.calm
  have hall : r.readAll ([first] ++ (inner ++ ([second] ++ last))) =
      (mid.read second).readAll last := by
    rw [readAll_append, readAll_append, readAll_append, ← hmid]
    rfl
  rw [hall]
  exact ⟨(((hgrows.trans hgrows').trans hgrows'').trans htail).mono (by omega) (by omega),
    htailDo.trans hdo'', htailEnded⟩

theorem segment_among (labels : List String) {label : String} (hl : label ∈ labels)
    (hall : ∀ l ∈ labels, Plain l ∧ l ∈ OP_LABELS ∧ Continuing l) :
    Segment [label] 1 1 Calm Settled :=
  (segment_op_calm (hall label hl).1 (hall label hl).2.1 (hall label hl).2.2).mono
    (one_le_opWeight label) (one_le_opWeight label) (fun _ hr => hr) fun _ hr => hr

theorem segment_first (labels : List String) {label : String} (hl : label ∈ labels)
    (hall : ∀ l ∈ labels, Plain l ∧ l ∈ OP_LABELS) : Segment [label] 1 1 Settled Settled :=
  (segment_op (hall label hl).1 (hall label hl).2).mono
    (one_le_opWeight label) (one_le_opWeight label) (fun _ hr => hr) fun _ hr => hr

/-- A label at the start of a statement is one level. -/
theorem segment_label : Segment (["name"] ++ [":"]) 1 1 Start Start := by
  intro tokens htokens r hr
  obtain ⟨xs, ys, rfl, hxs, hys⟩ := List.map_eq_append_iff.1 htokens
  obtain ⟨first, rfl, hfirst⟩ := List.map_eq_singleton_iff.1 hxs
  obtain ⟨last, rfl, hlast⟩ := List.map_eq_singleton_iff.1 hys
  obtain ⟨k, hscan, -⟩ := read_plain (by rw [hfirst]; decide) (settle_of_settled hr.1 first.label)
  obtain ⟨hgrows, hdo, hsettled⟩ := grows_of_plain (Nat.zero_le k) hscan
  -- the token before the name leaves room for a statement, so that the colon counts
  have hcolon := read_colon hlast hsettled.calm
  rw [if_pos ⟨congrArg some hfirst, hr.2⟩] at hcolon
  obtain ⟨hgrows', hdo', hsettled'⟩ := grows_of_counted hcolon
  have hall : r.readAll ([first] ++ [last]) = (r.read first).read last := rfl
  rw [hall]
  exact ⟨(hgrows.trans hgrows').mono (by omega) (by omega), hdo'.trans hdo, hsettled',
    read_prev_mem hlast (by decide) _⟩

/-- The head of a statement that starts here. -/
theorem segment_start (label : String) (hhead : label ∈ PREFIX_LABELS) (hdo : label ≠ "do") :
    Segment [label] 1 1 Start Calm :=
  (segment_head (P := Start) hhead hdo fun _ hr => settle_of_settled hr.1 _).post
    fun _ hr => Settled.calm hr.1

/-- A head that goes on with a statement. -/
theorem segment_continue (label : String) (hl : label ∈ CONTINUE_LABELS) :
    Segment [label] 1 1 Ended fun r => Settled r ∧ r.prev = some label := by
  have hall : ∀ l ∈ CONTINUE_LABELS, l ∈ PREFIX_LABELS ∧ l ≠ "do" ∧ l ≠ "while" := by decide
  obtain ⟨hhead, hdo, hwhile⟩ := hall label hl
  exact segment_head hhead hdo fun r _ => settle_of_continue r hl hwhile

theorem segment_name : Segment ["name"] 0 0 Settled Settled := segment_plain (by decide)

end SyntaxDepth

end XChainSdk
