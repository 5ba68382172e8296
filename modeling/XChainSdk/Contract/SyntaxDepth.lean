import Mathlib.Algebra.BigOperators.Group.List.Basic
import Mathlib.Data.List.Basic
import Mathlib.Data.Nat.Basic
import Mathlib.Tactic.Linarith
import XChainSdk.Js.Number

/-!
# The depth scan before a contract is parsed

The parser and every later pass recurse once for each level of the syntax tree, so a source is
refused before any of them runs when the depth of its tokens passes a limit.  The scan keeps a frame
for each open delimiter and stops at the first closing point whose running bound passes the limit.

* `Frame`, `Scan`, `applyToken`, `scanSyntaxDepth` : the scan over the tokens of the source.
* `findNestingDepth` : the scan that counts delimiters only.
* `finalDepth_settle`, `finalDepth_applyToken` : no token lowers the depth that the source would have
  if it ended there.
* `depthNow_le_finalDepth` : the running bound is a lower bound of it.
* `findSyntaxDepth_iff_measure` : stopping early decides as the full measure does.
* `syntaxDepthFinding_eq_none` : what the linter passes.
-/

namespace XChainSdk

/-- A token: its label, its text for names, and its line. -/
structure LintToken where
  label : String
  value : String := ""
  line : ℕ

namespace SyntaxDepth

/-! ### The tables -/

/-- What opens a frame. -/
inductive FrameKind where
  | top
  | brace
  | paren
  | bracket
  | dollarBrace
  deriving DecidableEq

def FRAME_CONSTANT : FrameKind → ℕ
  | .top => 4
  | .brace => 4
  | .paren => 2
  | .bracket => 2
  | .dollarBrace => 2

def OP_LABELS : List String :=
  ["=", "_=", "++/--", "!/~", "||", "&&", "??", "|", "^", "&", "==/!=/===/!==",
   "</>/<=/>=", "<</>>/>>>", "+/-", "%", "*", "/", "**",
   "?", "?.", ".", "=>", "...", "\x60",
   "new", "typeof", "void", "delete", "in", "instanceof", "function", "class",
   "extends", "return", "throw", "var", "const", "case", "default", "import"]

/-- `OP_WEIGHT[label] || 1` -/
def opWeight (label : String) : ℕ :=
  if label = "=>" then 3 else if label = "(" then 2 else 1

def OP_NAMES : List String := ["yield", "await"]

def PREFIX_LABELS : List String :=
  ["if", "else", "while", "for", "do", "with", "switch", "try", "catch", "finally"]

def CONTINUE_LABELS : List String := ["else", "catch", "finally"]

def NEW_STATEMENT_LABELS : List String :=
  ["name", "num", "string", "regexp", "bigint", "privateId",
   "this", "null", "true", "false", "super", "import", "export",
   "new", "typeof", "void", "delete", "!/~",
   "if", "for", "while", "do", "with", "switch", "try", "var", "const", "return",
   "throw", "break", "continue", "debugger", "function", "class", "case", "default"]

/-- `LABEL_LEADERS`; `none` is the start of the source. -/
def LABEL_LEADERS : List (Option String) :=
  [none, some ";", some "\x7d", some ")", some ":", some "\x7b", some "else", some "do"]

/-- `OPENERS`, with the frame that each opens. -/
def openerKind (label : String) : Option FrameKind :=
  if label = "(" then some .paren
  else if label = "[" then some .bracket
  else if label = "\x7b" then some .brace
  else if label = "$\x7b" then some .dollarBrace
  else none

def CLOSERS : List String := [")", "]", "\x7d"]

/-- A statement end that the next token settles. -/
inductive Pending where
  | none
  | semi
  | brace
  deriving DecidableEq

/-! ### Frames -/

/-- An open delimiter.  The running segment is worth `prefix + ops + child`. -/
structure Frame where
  kind : FrameKind
  heads : ℕ := 0
  ops : ℕ := 0
  child : ℕ := 0
  best : ℕ := 0
  openDo : ℕ := 0
  pending : Pending := .none

namespace Frame

/-- The value of the running segment. -/
def value (f : Frame) : ℕ := f.heads + f.ops + f.child

def closeSegment (f : Frame) : Frame := { f with best := max f.best f.value }

def resetSegment (f : Frame) : Frame := { f with heads := 0, ops := 0, child := 0 }

/-- The weight of a frame that closes now. -/
def weight (f : Frame) : ℕ := FRAME_CONSTANT f.kind + f.closeSegment.best

/-- A child frame of the weight closes inside the frame. -/
def absorb (f : Frame) (weight : ℕ) : Frame := { f with child := max f.child weight }

/-- The frame after a child has closed inside it; the `}` of a block may end a statement. -/
def popped (parent frame : Frame) : Frame :=
  let parent := parent.absorb frame.weight
  if frame.kind = .brace then { parent with pending := .brace } else parent

/-- The frame when a delimiter opens inside it: a call or an index is a level of its own. -/
def opened (f : Frame) (label : String) : Frame :=
  if label = "(" ∨ label = "[" then { f with ops := f.ops + opWeight label } else f

/-- The frame after a statement head. -/
def headed (f : Frame) (label : String) : Frame :=
  { f with heads := f.heads + 1, openDo := if label = "do" then f.openDo + 1 else f.openDo }

/-- `settlePending` -/
def settlePending (f : Frame) (label : String) : Frame :=
  let fromBrace := f.pending = .brace
  let f := { f with pending := .none }
  -- the `while` of an open `do` goes on with that statement
  let endsDo := label = "while" ∧ 0 < f.openDo
  let carry := label ∈ CONTINUE_LABELS ∨ endsDo
  let f := if endsDo then { f with openDo := f.openDo - 1 } else f
  -- the `}` of an object or a function ends nothing unless a statement starts after it
  if ¬ carry ∧ (¬ fromBrace ∨ label ∈ NEW_STATEMENT_LABELS) then f.closeSegment.resetSegment else f

end Frame

/-! ### The scan -/

/-- The frame stack: the innermost frame, and the frames around it from the inside out. -/
structure Scan where
  top : Frame
  outer : List Frame

namespace Scan

def init : Scan := ⟨{ kind := .top }, []⟩

/-- `depthNow` -/
def depthNow (s : Scan) : ℕ :=
  (s.outer.map fun f => FRAME_CONSTANT f.kind + f.heads + f.ops).sum +
    (FRAME_CONSTANT s.top.kind + max s.top.best s.top.value)

/-- The pops of `finalDepth`. -/
def finalFrom (f : Frame) : List Frame → ℕ
  | [] => FRAME_CONSTANT .top + f.closeSegment.best
  | parent :: outer => finalFrom (parent.absorb f.weight) outer

/-- `finalDepth` -/
def finalDepth (s : Scan) : ℕ := finalFrom s.top s.outer

/-- `settlePending`, when a statement end is open. -/
def settle (s : Scan) (label : String) : Scan :=
  if s.top.pending = .none then s else { s with top := s.top.settlePending label }

/-- `applyToken`, with whether a segment or a frame has just closed. -/
def applyToken (s : Scan) (token : LintToken) (prev prevPrev : Option String) : Scan × Bool :=
  let label := token.label
  let frame := s.top
  match openerKind label with
  | some kind => (⟨{ kind }, frame.opened label :: s.outer⟩, false)
  | none =>
    if label ∈ CLOSERS then
      match s.outer with
      -- the top frame stays: a closer too many is for the parser to report
      | [] => (s, false)
      | parent :: outer => (⟨parent.popped frame, outer⟩, true)
    else if label = "," then
      -- the statement's heads go on past the comma
      (⟨{ frame.closeSegment with ops := 0, child := 0 }, s.outer⟩, true)
    else if label = ";" then
      (⟨{ frame.closeSegment with pending := .semi }, s.outer⟩, true)
    else if label ∈ PREFIX_LABELS then
      (⟨frame.headed label, s.outer⟩, false)
    else if label = ":" then
      if prev = some "name" ∧ prevPrev ∈ LABEL_LEADERS then
        (⟨{ frame with heads := frame.heads + 1 }, s.outer⟩, false)
      else (s, false)
    else if label ∈ OP_LABELS ∨ (label = "name" ∧ token.value ∈ OP_NAMES) then
      (⟨{ frame with ops := frame.ops + opWeight label }, s.outer⟩, false)
    else (s, false)

end Scan

/-- A line and the depth there. -/
structure Depth where
  line : ℕ
  depth : ℕ
  deriving DecidableEq

/-- The running bound passes the limit; `none` is `Infinity`. -/
def passes (depth : ℕ) : Option ℕ → Bool
  | none => false
  | some limit => limit < depth

/-- The loop of `scanSyntaxDepth`.  Where the tokenizer throws the tokens end. -/
def scanFrom (limit : Option ℕ) (s : Scan) (line : ℕ) (prev prevPrev : Option String) :
    List LintToken → Depth
  | [] => ⟨line, s.finalDepth⟩
  | token :: tokens =>
    let s := s.settle token.label
    if token.label = "eof" then ⟨token.line, s.finalDepth⟩
    else
      match s.applyToken token prev prevPrev with
      | (s, closed) =>
        -- the bound is first exceeded where a segment or a frame closes
        if closed && passes s.depthNow limit then ⟨token.line, s.depthNow⟩
        else scanFrom limit s token.line (some token.label) prev tokens

/-- `scanSyntaxDepth` of the tokens of a source. -/
def scanSyntaxDepth (tokens : List LintToken) (limit : Option ℕ) : Depth :=
  scanFrom limit .init 1 none none tokens

def MAX_SYNTAX_DEPTH : ℕ := 200

def MAX_NESTING_DEPTH : ℕ := 64

/-- `findSyntaxDepth` -/
def findSyntaxDepth (tokens : List LintToken) (limit : ℕ := MAX_SYNTAX_DEPTH) : Option Depth :=
  let hit := scanSyntaxDepth tokens (some limit)
  if limit < hit.depth then some hit else none

/-- `measureSyntaxDepth` -/
def measureSyntaxDepth (tokens : List LintToken) : ℕ := (scanSyntaxDepth tokens none).depth

/-- The loop of `findNestingDepth`, with the number of open delimiters. -/
def nestingFrom (limit : ℕ) (depth : ℕ) : List LintToken → Option Depth
  | [] => none
  | token :: tokens =>
    if (openerKind token.label).isSome then
      if limit < depth + 1 then some ⟨token.line, depth + 1⟩
      else nestingFrom limit (depth + 1) tokens
    else if token.label = "eof" then none
    else nestingFrom limit (if token.label ∈ CLOSERS then depth - 1 else depth) tokens

/-- `findNestingDepth` -/
def findNestingDepth (tokens : List LintToken) (limit : ℕ := MAX_NESTING_DEPTH) : Option Depth :=
  nestingFrom limit 0 tokens

/-- What the linter says of a source that it refuses. -/
structure LintFinding where
  rule : String
  message : String
  line : ℕ
  severity : String
  deriving DecidableEq

/-- A finding about a depth that passes its limit. -/
def depthFinding (what : String) (limit : ℕ) (hit : Depth) : LintFinding where
  rule := "nesting-depth"
  message := what ++ " depth exceeds limit (" ++ natText limit ++ ") at line " ++ natText hit.line
  line := hit.line
  severity := "error"

/-- `syntaxDepthFinding` -/
def syntaxDepthFinding (tokens : List LintToken) : Option LintFinding :=
  (findSyntaxDepth tokens).map (depthFinding "syntax" MAX_SYNTAX_DEPTH)

/-- `nestingDepthFinding` -/
def nestingDepthFinding (tokens : List LintToken) : Option LintFinding :=
  (findNestingDepth tokens).map (depthFinding "nesting" MAX_NESTING_DEPTH)

/-! ### Frames grow -/

namespace Frame

variable {f g : Frame}

@[simp] theorem closeSegment_best : f.closeSegment.best = max f.best f.value := rfl

theorem weight_eq (f : Frame) : f.weight = FRAME_CONSTANT f.kind + max f.best f.value := rfl

/-- The frame `g` is worth at least `f` whatever child closes inside it. -/
structure Le (f g : Frame) : Prop where
  kind : f.kind = g.kind
  best : ∀ w, max f.best (f.absorb w).value ≤ max g.best (g.absorb w).value

theorem Le.refl (f : Frame) : f.Le f := ⟨rfl, fun _ => le_rfl⟩

theorem Le.trans {h : Frame} (hfg : f.Le g) (hgh : g.Le h) : f.Le h :=
  ⟨hfg.kind.trans hgh.kind, fun w => (hfg.best w).trans (hgh.best w)⟩

theorem Le.weight_absorb (h : f.Le g) {v w : ℕ} (hvw : v ≤ w) :
    (f.absorb v).weight ≤ (g.absorb w).weight := by
  have hv := h.best v
  have hw : (g.absorb v).value ≤ (g.absorb w).value := by
    simp only [absorb, value]
    omega
  simp only [weight_eq]
  have hkind : (f.absorb v).kind = (g.absorb w).kind := h.kind
  have hbest : (f.absorb v).best = f.best := rfl
  have hbest' : (g.absorb w).best = g.best := rfl
  rw [hkind, hbest, hbest']
  omega

theorem absorb_zero (f : Frame) : f.absorb 0 = f := by
  simp [absorb]

theorem Le.weight (h : f.Le g) : f.weight ≤ g.weight := by
  have hle := h.weight_absorb (le_refl 0)
  rwa [absorb_zero, absorb_zero] at hle

/-- More in the running segment is worth more. -/
theorem le_of_segment (hkind : f.kind = g.kind) (hbest : f.best ≤ g.best)
    (hchain : f.heads + f.ops ≤ g.heads + g.ops) (hchild : f.child ≤ g.child) : f.Le g := by
  refine ⟨hkind, fun w => ?_⟩
  simp only [absorb, value]
  omega

/-- A frame keeps its best segment and may start over. -/
theorem weight_le_of_best (hkind : f.kind = g.kind) (hbest : f.closeSegment.best ≤ g.best) :
    f.weight ≤ g.weight := by
  rw [weight_eq g, weight_eq f, hkind]
  rw [closeSegment_best] at hbest
  omega

/-- A child that closes changes what the parent holds and what is pending in it. -/
theorem popped_eq (parent frame : Frame) :
    parent.popped frame = { parent.absorb frame.weight with
      pending := if frame.kind = .brace then .brace else parent.pending } := by
  unfold popped
  dsimp only
  split_ifs <;> rfl

theorem popped_kind (parent frame : Frame) : (parent.popped frame).kind = parent.kind := by
  rw [popped_eq]
  rfl

theorem weight_popped (parent frame : Frame) :
    (parent.popped frame).weight = (parent.absorb frame.weight).weight := by
  rw [popped_eq]
  rfl

theorem opened_kind (f : Frame) (label : String) : (f.opened label).kind = f.kind := by
  unfold opened
  split_ifs <;> rfl

theorem le_opened (f : Frame) (label : String) : f.Le (f.opened label) := by
  unfold opened
  split_ifs
  · exact le_of_segment rfl le_rfl (by dsimp only; omega) le_rfl
  · exact .refl f

theorem settlePending_kind (label : String) : (f.settlePending label).kind = f.kind := by
  unfold settlePending
  dsimp only
  split_ifs <;> rfl

/-- Settling a statement end keeps the worth of the frame. -/
theorem weight_le_settlePending (f : Frame) (label : String) :
    f.weight ≤ (f.settlePending label).weight := by
  unfold settlePending
  dsimp only
  split_ifs
  · exact weight_le_of_best rfl le_rfl
  · exact weight_le_of_best rfl le_rfl
  · exact le_rfl
  · exact le_rfl

end Frame

/-! ### The depth that the source would have if it ended -/

namespace Scan

/-- The bottom frame is the top-level one. -/
def Rooted (s : Scan) : Prop := ((s.top :: s.outer).getLast (List.cons_ne_nil _ _)).kind = .top

/-- The pops are monotone in the innermost frame. -/
theorem finalFrom_mono {f g : Frame} (outer : List Frame) (hkind : f.kind = g.kind)
    (h : f.weight ≤ g.weight) : finalFrom f outer ≤ finalFrom g outer := by
  induction outer generalizing f g with
  | nil =>
    rw [Frame.weight_eq, Frame.weight_eq, hkind] at h
    simp only [finalFrom, Frame.closeSegment_best]
    omega
  | cons parent outer ih =>
    exact ih rfl ((Frame.Le.refl parent).weight_absorb h)

/-- **The running bound is a lower bound of the depth.** -/
theorem depthNow_le_finalDepth {s : Scan} (h : s.Rooted) : s.depthNow ≤ s.finalDepth := by
  obtain ⟨f, outer⟩ := s
  induction outer generalizing f with
  | nil =>
    have hkind : f.kind = .top := h
    simp [depthNow, finalDepth, finalFrom, hkind]
  | cons parent outer ih =>
    have hrooted : Rooted ⟨parent.absorb f.weight, outer⟩ := by
      unfold Rooted at h ⊢
      rw [List.getLast_cons (List.cons_ne_nil _ _)] at h
      cases outer with
      | nil => exact h
      | cons parent' outer =>
        rw [List.getLast_cons (List.cons_ne_nil _ _)] at h ⊢
        exact h
    have hnow : depthNow ⟨f, parent :: outer⟩ ≤ depthNow ⟨parent.absorb f.weight, outer⟩ := by
      have hchild : parent.heads + parent.ops + f.weight ≤ (parent.absorb f.weight).value := by
        simp only [Frame.absorb, Frame.value]
        omega
      have hkind : (parent.absorb f.weight).kind = parent.kind := rfl
      simp only [depthNow, List.map_cons, List.sum_cons, hkind]
      rw [Frame.weight_eq] at hchild ⊢
      omega
    exact hnow.trans (ih _ hrooted)

/-- Settling leaves the frames around alone. -/
theorem settle_outer (s : Scan) (label : String) : (s.settle label).outer = s.outer := by
  unfold settle
  split_ifs <;> rfl

theorem settle_kind (s : Scan) (label : String) : (s.settle label).top.kind = s.top.kind := by
  unfold settle
  split_ifs
  · rfl
  · exact Frame.settlePending_kind label

theorem weight_le_settle (s : Scan) (label : String) :
    s.top.weight ≤ (s.settle label).top.weight := by
  unfold settle
  split_ifs
  · exact le_rfl
  · exact s.top.weight_le_settlePending label

theorem finalDepth_settle (s : Scan) (label : String) :
    s.finalDepth ≤ (s.settle label).finalDepth := by
  rw [finalDepth, finalDepth, settle_outer]
  exact finalFrom_mono _ (s.settle_kind label).symm (s.weight_le_settle label)

/-- **No token lowers the depth.** -/
theorem finalDepth_applyToken (s : Scan) (token : LintToken) (prev prevPrev : Option String) :
    s.finalDepth ≤ (s.applyToken token prev prevPrev).1.finalDepth := by
  have hgrow {g : Frame} (hkind : s.top.kind = g.kind) (hbest : s.top.best ≤ g.best)
      (hchain : s.top.heads + s.top.ops ≤ g.heads + g.ops) (hchild : s.top.child ≤ g.child) :
      s.finalDepth ≤ finalDepth ⟨g, s.outer⟩ :=
    finalFrom_mono _ hkind (Frame.le_of_segment hkind hbest hchain hchild).weight
  unfold applyToken
  dsimp only
  cases openerKind token.label with
  | some kind =>
    -- the frame around the new one keeps its segment
    refine finalFrom_mono s.outer (Frame.opened_kind s.top token.label).symm ?_
    have hweight :=
      (s.top.le_opened token.label).weight_absorb (Nat.zero_le (Frame.weight { kind }))
    rwa [Frame.absorb_zero] at hweight
  | none =>
    dsimp only
    split_ifs
    · cases houter : s.outer with
      | nil => exact le_rfl
      | cons parent outer =>
        -- closing a frame is the first pop
        have hpop : s.finalDepth = finalFrom (parent.absorb s.top.weight) outer := by
          rw [finalDepth, houter, finalFrom]
        rw [hpop]
        exact finalFrom_mono outer (Frame.popped_kind parent s.top).symm
          (Frame.weight_popped parent s.top).ge
    · exact finalFrom_mono _ rfl (Frame.weight_le_of_best rfl le_rfl)
    · exact finalFrom_mono _ rfl (Frame.weight_le_of_best rfl le_rfl)
    · exact hgrow rfl le_rfl (by dsimp only [Frame.headed]; omega) le_rfl
    · exact hgrow rfl le_rfl (by dsimp only; omega) le_rfl
    · exact le_rfl
    · exact hgrow rfl le_rfl (by dsimp only; omega) le_rfl
    · exact le_rfl

/-! ### The bottom frame -/

theorem rooted_init : init.Rooted := rfl

theorem rooted_of_kind {f g : Frame} {outer : List Frame} (h : Rooted ⟨f, outer⟩)
    (hkind : g.kind = f.kind) : Rooted ⟨g, outer⟩ := by
  unfold Rooted at h ⊢
  cases outer with
  | nil => exact hkind.trans h
  | cons parent outer =>
    rw [List.getLast_cons (List.cons_ne_nil _ _)] at h ⊢
    exact h

theorem rooted_settle {s : Scan} (h : s.Rooted) (label : String) : (s.settle label).Rooted := by
  have hroot : Rooted ⟨(s.settle label).top, s.outer⟩ := rooted_of_kind h (s.settle_kind label)
  rwa [← s.settle_outer label] at hroot

theorem rooted_push {f g h : Frame} {outer : List Frame} (hroot : Rooted ⟨f, outer⟩)
    (hkind : g.kind = f.kind) : Rooted ⟨h, g :: outer⟩ := by
  have hg := rooted_of_kind hroot hkind
  unfold Rooted at hg ⊢
  rwa [List.getLast_cons (List.cons_ne_nil _ _)]

theorem rooted_pop {f g parent : Frame} {outer : List Frame}
    (hroot : Rooted ⟨f, parent :: outer⟩) (hkind : g.kind = parent.kind) : Rooted ⟨g, outer⟩ := by
  have hparent : Rooted ⟨parent, outer⟩ := by
    unfold Rooted at hroot ⊢
    rwa [List.getLast_cons (List.cons_ne_nil _ _)] at hroot
  exact rooted_of_kind hparent hkind

theorem rooted_applyToken {s : Scan} (h : s.Rooted) (token : LintToken)
    (prev prevPrev : Option String) : (s.applyToken token prev prevPrev).1.Rooted := by
  unfold applyToken
  dsimp only
  cases openerKind token.label with
  | some kind => exact rooted_push h (Frame.opened_kind _ _)
  | none =>
    dsimp only
    split_ifs
    · obtain ⟨top, outer⟩ := s
      cases outer with
      | nil => exact h
      | cons parent outer => exact rooted_pop h (Frame.popped_kind _ _)
    · exact rooted_of_kind h rfl
    · exact rooted_of_kind h rfl
    · exact rooted_of_kind h rfl
    · exact rooted_of_kind h rfl
    · exact h
    · exact rooted_of_kind h rfl
    · exact h

end Scan

/-! ### Stopping early -/

theorem scanFrom_none_cons (s : Scan) (line : ℕ) (prev prevPrev : Option String)
    (token : LintToken) (tokens : List LintToken) :
    scanFrom none s line prev prevPrev (token :: tokens) =
      if token.label = "eof" then ⟨token.line, (s.settle token.label).finalDepth⟩
      else scanFrom none ((s.settle token.label).applyToken token prev prevPrev).1 token.line
        (some token.label) prev tokens := by
  simp [scanFrom, passes]

/-- The full measure is at least the depth at any point before it. -/
theorem finalDepth_le_scanFrom (s : Scan) (line : ℕ) (prev prevPrev : Option String)
    (tokens : List LintToken) :
    s.finalDepth ≤ (scanFrom none s line prev prevPrev tokens).depth := by
  induction tokens generalizing s line prev prevPrev with
  | nil => exact le_rfl
  | cons token tokens ih =>
    have hsettle := s.finalDepth_settle token.label
    rw [scanFrom_none_cons]
    split_ifs with heof
    · exact hsettle
    · exact hsettle.trans ((Scan.finalDepth_applyToken _ token prev prevPrev).trans (ih ..))

/-- A scan with a limit either reads every token as the full one does, or stops where the full
measure passes the limit too. -/
theorem scanFrom_limit (limit : ℕ) {s : Scan} (hs : s.Rooted) (line : ℕ)
    (prev prevPrev : Option String) (tokens : List LintToken) :
    let full := scanFrom none s line prev prevPrev tokens
    let stopped := scanFrom (some limit) s line prev prevPrev tokens
    stopped = full ∨ (limit < stopped.depth ∧ stopped.depth ≤ full.depth) := by
  dsimp only
  induction tokens generalizing s line prev prevPrev with
  | nil => exact .inl rfl
  | cons token tokens ih =>
    have hroot := Scan.rooted_applyToken (Scan.rooted_settle hs token.label) token prev prevPrev
    rw [scanFrom_none_cons, scanFrom]
    dsimp only
    split_ifs with heof hstop
    · exact .inl rfl
    · -- the running bound passes the limit and the measure only grows from there
      refine .inr ⟨?_, ?_⟩
      · exact of_decide_eq_true (Bool.and_eq_true_iff.1 hstop).2
      · exact (Scan.depthNow_le_finalDepth hroot).trans (finalDepth_le_scanFrom ..)
    · exact ih hroot ..

/-! ### Delimiters -/

namespace Scan

theorem two_le_FRAME_CONSTANT (kind : FrameKind) : 2 ≤ FRAME_CONSTANT kind := by
  cases kind <;> decide

/-- Each open frame counts. -/
theorem length_outer_le_depthNow {s : Scan} (h : s.Rooted) :
    2 * s.outer.length + 4 ≤ s.depthNow := by
  have hconst (f : Frame) (outer : List Frame) (hroot : Rooted ⟨f, outer⟩) :
      2 * outer.length + 4 ≤
        (outer.map fun f => FRAME_CONSTANT f.kind + f.heads + f.ops).sum +
          FRAME_CONSTANT f.kind := by
    induction outer generalizing f with
    | nil =>
      have hkind : f.kind = .top := hroot
      simp [hkind, FRAME_CONSTANT]
    | cons parent outer ih =>
      have hparent := ih parent (rooted_pop hroot rfl)
      have hf := two_le_FRAME_CONSTANT f.kind
      simp only [List.map_cons, List.sum_cons, List.length_cons]
      omega
  have hle := hconst s.top s.outer h
  unfold depthNow
  omega

theorem length_outer_applyToken (s : Scan) (token : LintToken) (prev prevPrev : Option String) :
    (s.applyToken token prev prevPrev).1.outer.length =
      if (openerKind token.label).isSome then s.outer.length + 1
      else if token.label ∈ CLOSERS then s.outer.length - 1 else s.outer.length := by
  unfold applyToken
  dsimp only
  cases openerKind token.label with
  | some kind => simp
  | none =>
    dsimp only
    rw [Option.isSome_none, if_neg Bool.false_ne_true]
    by_cases hclose : token.label ∈ CLOSERS
    · rw [if_pos hclose, if_pos hclose]
      cases houter : s.outer with
      | nil => simp [houter]
      | cons parent outer => simp
    · rw [if_neg hclose, if_neg hclose]
      split_ifs <;> rfl

end Scan

/-- **The depth bounds the delimiters**: where the delimiter scan reports a depth, the full measure
is at least twice it. -/
theorem nestingFrom_le_scanFrom {limit : ℕ} {s : Scan} (hs : s.Rooted) {tokens : List LintToken}
    {hit : Depth} (h : nestingFrom limit s.outer.length tokens = some hit) (line : ℕ)
    (prev prevPrev : Option String) :
    2 * hit.depth + 4 ≤ (scanFrom none s line prev prevPrev tokens).depth := by
  induction tokens generalizing s line prev prevPrev with
  | nil => cases h
  | cons token tokens ih =>
    have hroot := Scan.rooted_applyToken (Scan.rooted_settle hs token.label) token prev prevPrev
    have hlength := Scan.length_outer_applyToken (s.settle token.label) token prev prevPrev
    rw [Scan.settle_outer] at hlength
    rw [scanFrom_none_cons]
    rw [nestingFrom] at h
    by_cases hopen : (openerKind token.label).isSome = true
    · have heof : token.label ≠ "eof" := by
        intro heq
        rw [heq] at hopen
        exact absurd hopen (by decide)
      rw [if_pos hopen] at h hlength
      rw [if_neg heof]
      split_ifs at h with hlimit
      · -- the frame is open now, and later tokens only raise the measure
        cases h
        have hnow := Scan.length_outer_le_depthNow hroot
        rw [hlength] at hnow
        exact hnow.trans ((Scan.depthNow_le_finalDepth hroot).trans (finalDepth_le_scanFrom ..))
      · exact ih hroot (hlength ▸ h) ..
    · rw [if_neg hopen] at h hlength
      split_ifs at h with heof hclose
      · rw [if_neg heof]
        rw [if_pos hclose] at hlength
        exact ih hroot (hlength ▸ h) ..
      · rw [if_neg heof]
        rw [if_neg hclose] at hlength
        exact ih hroot (hlength ▸ h) ..

/-- The scan with a limit reads to the end, or stops at a depth between the limit and the full
measure. -/
theorem scanSyntaxDepth_limit (tokens : List LintToken) (limit : ℕ) :
    scanSyntaxDepth tokens (some limit) = scanSyntaxDepth tokens none ∨
      (limit < (scanSyntaxDepth tokens (some limit)).depth ∧
        (scanSyntaxDepth tokens (some limit)).depth ≤ measureSyntaxDepth tokens) :=
  scanFrom_limit limit Scan.rooted_init 1 none none tokens

theorem limit_lt_depth_iff (tokens : List LintToken) (limit : ℕ) :
    limit < (scanSyntaxDepth tokens (some limit)).depth ↔ limit < measureSyntaxDepth tokens := by
  rcases scanSyntaxDepth_limit tokens limit with h | h
  · rw [h]
    rfl
  · exact iff_of_true h.1 (h.1.trans_le h.2)

theorem findSyntaxDepth_eq_none {tokens : List LintToken} {limit : ℕ} :
    findSyntaxDepth tokens limit = none ↔ measureSyntaxDepth tokens ≤ limit := by
  unfold findSyntaxDepth
  rw [← not_lt, ← limit_lt_depth_iff]
  simp

end SyntaxDepth

open SyntaxDepth

/-- **Stopping early decides as the full measure does**: a source is reported exactly when its full
depth passes the limit, with a depth between the two, and a source that is not reported is measured
to the end. -/
theorem findSyntaxDepth_iff_measure (tokens : List LintToken) (limit : ℕ) :
    ((findSyntaxDepth tokens limit).isSome ↔ limit < measureSyntaxDepth tokens) ∧
      (∀ hit, findSyntaxDepth tokens limit = some hit →
        limit < hit.depth ∧ hit.depth ≤ measureSyntaxDepth tokens) ∧
      (findSyntaxDepth tokens limit = none →
        scanSyntaxDepth tokens (some limit) = scanSyntaxDepth tokens none) := by
  refine ⟨?_, ?_, ?_⟩
  · rw [Option.isSome_iff_ne_none, ne_eq, findSyntaxDepth_eq_none, not_le]
  · intro hit hhit
    unfold findSyntaxDepth at hhit
    dsimp only at hhit
    split_ifs at hhit with hlt
    cases hhit
    refine ⟨hlt, ?_⟩
    rcases scanSyntaxDepth_limit tokens limit with h | h
    · rw [h]
      rfl
    · exact h.2
  · intro hnone
    have hle := findSyntaxDepth_eq_none.1 hnone
    rcases scanSyntaxDepth_limit tokens limit with h | h
    · exact h
    · exact absurd (h.1.trans_le h.2) (not_lt.2 hle)

/-- **The depth bounds the delimiters**: a source that the depth scan passes has no delimiter nest
deeper than half the limit. -/
theorem nesting_le_of_not_found (tokens : List LintToken) (limit nesting : ℕ) (hit : Depth)
    (hnesting : findNestingDepth tokens nesting = some hit)
    (h : findSyntaxDepth tokens limit = none) : 2 * hit.depth + 4 ≤ limit :=
  (nestingFrom_le_scanFrom Scan.rooted_init hnesting 1 none none).trans
    (findSyntaxDepth_eq_none.1 h)

/-- The linter passes a source exactly when its full depth is at most 200, and no delimiter of it
nests deeper than 98 then. -/
theorem syntaxDepthFinding_eq_none (tokens : List LintToken) :
    (syntaxDepthFinding tokens = none ↔ measureSyntaxDepth tokens ≤ MAX_SYNTAX_DEPTH) ∧
      (syntaxDepthFinding tokens = none → ∀ nesting hit,
        findNestingDepth tokens nesting = some hit → hit.depth ≤ 98) := by
  rw [syntaxDepthFinding, Option.map_eq_none_iff]
  refine ⟨findSyntaxDepth_eq_none, fun h nesting hit hnesting => ?_⟩
  have hdepth := nesting_le_of_not_found tokens MAX_SYNTAX_DEPTH nesting hit hnesting h
  rw [MAX_SYNTAX_DEPTH] at hdepth
  omega

end XChainSdk
