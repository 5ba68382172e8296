import XChainSdk.Contract.SyntaxSegments
import XChainSdk.Contract.SyntaxTree

/-!
# The scanned depth bounds the depth of the tree

What the scan is for: every pass behind it recurses along the syntax tree, and the scan sees tokens
only.  Its depth is at least the height of the tree, for every tree of the grammar.

* `ReadsExpr`, `ReadsStmt`, `ReadsList`, `ReadsBody` : tokens that are worth a height.
* `reads_binary`, `reads_ifElse`, … : one lemma for each form; `Expr.reads` and `Stmt.reads` follow
  the tree.
* `height_le_of_not_found` : a source that is not reported has a tree within the limit.
-/

namespace XChainSdk

namespace SyntaxDepth

/-- The tokens of an expression of the height. -/
def ReadsExpr (labels : List String) (n : ℕ) : Prop := Segment labels 0 (n - 1) Settled Calm

/-- The tokens of a statement of the height. -/
def ReadsStmt (labels : List String) (n : ℕ) : Prop := Segment labels 0 (n - 2) Start Ended

/-- The tokens of expressions between commas, and of those after the first. -/
def ReadsList (labels more : List String) (n : ℕ) : Prop :=
  Content labels (n - 1) Settled ∧ Content more (n - 1) Calm

/-- The tokens of statements in a row. -/
def ReadsBody (labels : List String) (n : ℕ) : Prop := Content labels (n - 2) Leads

section Expressions

variable {l l₁ l₂ l₃ more : List String} {n n₁ n₂ n₃ : ℕ}

theorem ReadsList.inside (h : ReadsList l more n) : Content l (n - 1) Settled := h.1

theorem ReadsBody.inside (h : ReadsBody l n) :
    Content l (n - 2) fun r => Settled r ∧ Leads r :=
  fun tokens htokens r hr => h tokens htokens r hr.2

theorem reads_leaf (label : Among LEAF_LABELS) : ReadsExpr [label.val] 1 := by
  have hall : ∀ l ∈ LEAF_LABELS, Plain l := by decide
  exact (segment_plain (hall _ label.property)).post fun _ hr => hr.calm

theorem reads_unary (op : Among UNARY_LABELS) (he : ReadsExpr l n) :
    ReadsExpr ([op.val] ++ l) (1 + n) :=
  ((segment_first UNARY_LABELS op.property (by decide)).append he).weaken (by omega)

theorem reads_update (he : ReadsExpr l n) : ReadsExpr (l ++ ["++/--"]) (1 + n) := by
  have hop := segment_among ["++/--"] (List.mem_singleton_self _) (by decide)
  exact (Segment.append he hop).mono (Nat.zero_le _) (by omega) (fun _ hr => hr)
    fun _ hr => hr.calm

theorem reads_binary (op : Among BINARY_LABELS) (ha : ReadsExpr l₁ n₁) (hb : ReadsExpr l₂ n₂) :
    ReadsExpr (l₁ ++ ([op.val] ++ l₂)) (1 + max n₁ n₂) := by
  have hop := segment_among BINARY_LABELS op.property (by decide)
  exact (Segment.append ha (hop.append hb)).weaken (by omega)

theorem reads_conditional (ht : ReadsExpr l₁ n₁) (ha : ReadsExpr l₂ n₂) (hb : ReadsExpr l₃ n₃) :
    ReadsExpr (l₁ ++ (["?"] ++ (l₂ ++ ([":"] ++ l₃)))) (1 + max n₁ (max n₂ n₃)) := by
  have hop := segment_among ["?"] (List.mem_singleton_self _) (by decide)
  have hcolon := segment_colon.post fun _ hr => And.left hr
  exact (Segment.append ht (hop.append (Segment.append ha (hcolon.append hb)))).weaken (by omega)

theorem reads_member (op : Among MEMBER_LABELS) (he : ReadsExpr l n) :
    ReadsExpr (l ++ ([op.val] ++ ["name"])) (1 + n) := by
  have hop := segment_among MEMBER_LABELS op.property (by decide)
  exact (Segment.append he (hop.append segment_name)).mono (Nat.zero_le _) (by omega)
    (fun _ hr => hr) fun _ hr => hr.calm

theorem reads_index (he : ReadsExpr l₁ n₁) (hi : ReadsExpr l₂ n₂) :
    ReadsExpr (l₁ ++ (["["] ++ (l₂ ++ ["]"]))) (1 + max n₁ n₂) :=
  (Segment.append he (brackets hi.content)).mono (Nat.zero_le _) (by omega) (fun _ hr => hr)
    fun _ hr => hr.calm

theorem reads_call (hf : ReadsExpr l₁ n₁) (hargs : ReadsList l₂ more n₂) :
    ReadsExpr (l₁ ++ (["("] ++ (l₂ ++ [")"]))) (1 + max n₁ n₂) :=
  (Segment.append hf (parens hargs.inside)).mono (Nat.zero_le _) (by omega) (fun _ hr => hr)
    fun _ hr => hr.calm

theorem reads_group (hes : ReadsList l more n) : ReadsExpr (["("] ++ (l ++ [")"])) (1 + n) :=
  (parens hes.inside).mono (Nat.zero_le _) (by omega) (fun _ hr => hr.calm) fun _ hr => hr.calm

theorem reads_array (hes : ReadsList l more n) : ReadsExpr (["["] ++ (l ++ ["]"])) (1 + n) :=
  (brackets hes.inside).mono (Nat.zero_le _) (by omega) (fun _ hr => hr.calm) fun _ hr => hr.calm

theorem reads_property (he : ReadsExpr l n) : ReadsExpr (["name"] ++ ([":"] ++ l)) n := by
  have hname := segment_name.post fun _ hr => hr.calm
  have hcolon := segment_colon.post fun _ hr => And.left hr
  exact (hname.append (hcolon.append he)).weaken (by omega)

theorem reads_object (hes : ReadsList l more n) :
    ReadsExpr (["\x7b"] ++ (l ++ ["\x7d"])) (2 + n) :=
  (braces fun tokens htokens r hr => hes.inside tokens htokens r hr.1).mono (Nat.zero_le _)
    (by omega) (fun _ hr => hr.calm) fun _ hr => hr.2

theorem reads_template (hparts : Segment l 0 (n - 1) Settled Settled) :
    ReadsExpr (["\x60"] ++ (["template"] ++ (l ++ ["\x60"]))) (1 + n) := by
  have hquote := segment_first ["\x60"] (List.mem_singleton_self _) (by decide)
  have hchunk : Segment ["template"] 0 0 Settled Settled := segment_plain (by decide)
  exact (hquote.append (hchunk.append (hparts.append hquote))).mono (Nat.zero_le _) (by omega)
    (fun _ hr => hr) fun _ hr => hr.calm

/-- Parameters before an arrow or a body. -/
theorem segment_params (hparams : ReadsList l more n) :
    Segment (["("] ++ (l ++ [")"])) 2 (4 + (n - 1)) Calm Calm :=
  (parens hparams.inside).post fun _ hr => Start.calm hr

theorem reads_arrow (hparams : ReadsList l₁ more n₁) (hbody : ReadsExpr l₂ n₂) :
    ReadsExpr ((["("] ++ (l₁ ++ [")"])) ++ (["=>"] ++ l₂)) (1 + max n₁ n₂) := by
  have hop := segment_among ["=>"] (List.mem_singleton_self _) (by decide)
  exact ((segment_params hparams).append (hop.append hbody)).mono (Nat.zero_le _) (by omega)
    (fun _ hr => hr.calm) fun _ hr => hr

theorem reads_arrowBlock (hparams : ReadsList l₁ more n₁) (hbody : ReadsBody l₂ n₂) :
    ReadsExpr ((["("] ++ (l₁ ++ [")"])) ++ (["=>"] ++ (["\x7b"] ++ (l₂ ++ ["\x7d"]))))
      (1 + max n₁ (1 + n₂)) := by
  have hop := (segment_among ["=>"] (List.mem_singleton_self _) (by decide)).post
    fun _ hr => Settled.calm hr
  exact ((segment_params hparams).append (hop.append (braces hbody.inside))).mono (Nat.zero_le _)
    (by omega) (fun _ hr => hr.calm) fun _ hr => hr.2

theorem reads_function (hparams : ReadsList l₁ more n₁) (hbody : ReadsBody l₂ n₂) :
    ReadsExpr (["function"] ++ ((["("] ++ (l₁ ++ [")"])) ++ (["\x7b"] ++ (l₂ ++ ["\x7d"]))))
      (1 + max n₁ (1 + n₂)) := by
  have hop := (segment_first ["function"] (List.mem_singleton_self _) (by decide)).post
    fun _ hr => Settled.calm hr
  exact (hop.append ((segment_params hparams).append (braces hbody.inside))).mono (Nat.zero_le _)
    (by omega) (fun _ hr => hr) fun _ hr => hr.2

theorem reads_cons (he : ReadsExpr l₁ n₁) (hes : ReadsList l₂ more n₂) :
    ReadsList (l₁ ++ more) ([","] ++ (l₁ ++ more)) (max n₁ n₂) := by
  have hall := Segment.content_append he hes.2
  exact ⟨hall.mono (by omega), (content_comma hall).mono (by omega)⟩

theorem reads_part (he : ReadsExpr l₁ n₁) (hes : Segment l₂ 0 (n₂ - 1) Settled Settled) :
    Segment ((["$\x7b"] ++ (l₁ ++ ["\x7d"])) ++ (["template"] ++ l₂)) 0 (max n₁ n₂ - 1)
      Settled Settled := by
  have hchunk : Segment ["template"] 0 0 Settled Settled := segment_plain (by decide)
  exact ((templateBraces he.content).append (hchunk.append hes)).weaken (by omega)

end Expressions

section Statements

variable {l l₁ l₂ l₃ l₄ more : List String} {n n₁ n₂ n₃ n₄ : ℕ}

theorem reads_expression (he : ReadsExpr l n) : ReadsStmt (l ++ [";"]) (1 + n) :=
  (Segment.append he segment_semi).mono le_rfl (by omega) (fun _ hr => hr.1) fun _ hr => hr

theorem reads_block (hbody : ReadsBody l n) : ReadsStmt (["\x7b"] ++ (l ++ ["\x7d"])) (1 + n) :=
  (braces hbody.inside).mono le_rfl (by omega) (fun _ hr => hr.calm) fun _ hr => hr.1

/-- `if` and `while` with their test. -/
theorem reads_headed {label : String} (hhead : label ∈ PREFIX_LABELS) (hdo : label ≠ "do")
    (ht : ReadsExpr l₁ n₁) (hs : ReadsStmt l₂ n₂) :
    ReadsStmt ([label] ++ ((["("] ++ (l₁ ++ [")"])) ++ l₂)) (1 + max n₁ n₂) :=
  ((segment_start label hhead hdo).append ((parens ht.content).append hs)).weaken (by omega)

theorem reads_ifElse (ht : ReadsExpr l₁ n₁) (hs : ReadsStmt l₂ n₂) (hs' : ReadsStmt l₃ n₃) :
    ReadsStmt (["if"] ++ ((["("] ++ (l₁ ++ [")"])) ++ (l₂ ++ (["else"] ++ l₃))))
      (1 + max n₁ (max n₂ n₃)) := by
  have hhead := segment_start "if" (by decide) (by decide)
  have helse : Segment ["else"] 1 1 Ended Start :=
    (segment_continue "else" (by decide)).post fun _ hr => ⟨hr.1, by rw [hr.2]; decide⟩
  exact (hhead.append ((parens ht.content).append (Segment.append hs (helse.append hs')))).weaken
    (by omega)

theorem reads_doWhile (hs : ReadsStmt l₁ n₁) (ht : ReadsExpr l₂ n₂) :
    ReadsStmt (["do"] ++ (l₁ ++ (["while"] ++ ((["("] ++ (l₂ ++ [")"])) ++ [";"]))))
      (1 + max n₁ n₂) :=
  (segment_doWhile hs ht.content).weaken (by omega)

theorem reads_forLoop (h₁ : ReadsExpr l₁ n₁) (h₂ : ReadsExpr l₂ n₂) (h₃ : ReadsExpr l₃ n₃)
    (hne : l₃ ≠ []) (hs : ReadsStmt l₄ n₄) :
    ReadsStmt (["for"] ++ ((["("] ++ (((l₁ ++ [";"]) ++ ((l₂ ++ [";"]) ++ l₃)) ++ [")"])) ++ l₄))
      (1 + max (max n₁ (max n₂ n₃)) n₄) := by
  have hhead := segment_start "for" (by decide) (by decide)
  -- each part starts over after the semicolon before it
  have hupdate : Content l₃ (n₃ - 1) Leads := fun _ htokens _ hr =>
    (Segment.fresh h₃ hne (fun _ h _ => h) htokens hr).1
  have htest := (Segment.append h₂ segment_semi).fresh_append (by simp) (fun _ h _ => h) hupdate
  have hstart := (Segment.append h₁ segment_semi).post fun _ hr => And.right hr
  have hall := hstart.content_append htest
  exact (hhead.append ((parens hall).append hs)).weaken (by omega)

theorem reads_labelled (hs : ReadsStmt l n) : ReadsStmt ((["name"] ++ [":"]) ++ l) (1 + n) :=
  (segment_label.append hs).weaken (by omega)

theorem reads_jump (label : Among JUMP_LABELS) (he : ReadsExpr l n) :
    ReadsStmt ([label.val] ++ (l ++ [";"])) (1 + n) := by
  have hop : Segment [label.val] 1 1 Start Settled :=
    (segment_first JUMP_LABELS label.property (by decide)).pre fun _ hr => And.left hr
  exact (hop.append (Segment.append he segment_semi)).weaken (by omega)

theorem reads_declare (label : Among DECLARE_LABELS) (he : ReadsExpr l n) :
    ReadsStmt ([label.val] ++ (["name"] ++ (["="] ++ (l ++ [";"])))) (2 + n) := by
  have hop : Segment [label.val] 1 1 Start Settled :=
    (segment_first DECLARE_LABELS label.property (by decide)).pre fun _ hr => And.left hr
  have heq := segment_first ["="] (List.mem_singleton_self _) (by decide)
  exact (hop.append (segment_name.append (heq.append (Segment.append he segment_semi)))).weaken
    (by omega)

/-- The block after `try`, up to the clause that goes on with it. -/
theorem segment_try (hbody : ReadsBody l n) :
    Segment (["try"] ++ (["\x7b"] ++ (l ++ ["\x7d"]))) 1 (5 + (n - 2)) Start Ended := by
  have hhead := segment_start "try" (by decide) (by decide)
  exact (hhead.append (braces hbody.inside)).mono (by omega) (by omega) (fun _ hr => hr)
    fun _ hr => And.left hr

theorem reads_tryCatch (hbody : ReadsBody l₁ n₁) (hhandler : ReadsBody l₂ n₂) :
    ReadsStmt ((["try"] ++ (["\x7b"] ++ (l₁ ++ ["\x7d"]))) ++ (["catch"] ++
      ((["("] ++ (["name"] ++ [")"])) ++ (["\x7b"] ++ (l₂ ++ ["\x7d"])))))
      (1 + max (1 + n₁) (2 + n₂)) := by
  have hcatch := (segment_continue "catch" (by decide)).post fun _ hr => Settled.calm hr.1
  have hparam := (parens segment_name.content).post fun _ hr => Start.calm hr
  exact ((segment_try hbody).append (hcatch.append (hparam.append
    (braces hhandler.inside)))).mono (Nat.zero_le _) (by omega) (fun _ hr => hr) fun _ hr => hr.1

theorem reads_tryFinally (hbody : ReadsBody l₁ n₁) (hfinal : ReadsBody l₂ n₂) :
    ReadsStmt ((["try"] ++ (["\x7b"] ++ (l₁ ++ ["\x7d"]))) ++ (["finally"] ++
      (["\x7b"] ++ (l₂ ++ ["\x7d"])))) (1 + max (1 + n₁) (1 + n₂)) := by
  have hfinally := (segment_continue "finally" (by decide)).post fun _ hr => Settled.calm hr.1
  exact ((segment_try hbody).append (hfinally.append (braces hfinal.inside))).mono
    (Nat.zero_le _) (by omega) (fun _ hr => hr) fun _ hr => hr.1

theorem reads_functionDeclaration (hparams : ReadsList l₁ more n₁) (hbody : ReadsBody l₂ n₂) :
    ReadsStmt (["function"] ++ (["name"] ++ ((["("] ++ (l₁ ++ [")"])) ++
      (["\x7b"] ++ (l₂ ++ ["\x7d"]))))) (1 + max n₁ (1 + n₂)) := by
  have hop : Segment ["function"] 1 1 Start Settled :=
    (segment_first ["function"] (List.mem_singleton_self _) (by decide)).pre
      fun _ hr => And.left hr
  have hname := segment_name.post fun _ hr => hr.calm
  exact (hop.append (hname.append ((segment_params hparams).append (braces hbody.inside)))).mono
    (Nat.zero_le _) (by omega) (fun _ hr => hr) fun _ hr => hr.1

theorem reads_row (hs : ReadsStmt l₁ n₁) (hne : l₁ ≠ []) (hrest : ReadsBody l₂ n₂) :
    ReadsBody (l₁ ++ l₂) (max n₁ n₂) :=
  (Segment.fresh_append hs hne (fun _ h hl => ⟨h, hl⟩) hrest).mono (by omega)

end Statements

theorem content_nil : Content [] 0 P := fun tokens htokens r _ => by
  obtain rfl := List.map_eq_nil_iff.1 htokens
  exact Keeps.refl r

mutual

/-- **An expression is worth its height to the segment that it stands in.** -/
theorem Expr.reads : (e : Expr) → ReadsExpr e.labels e.height
  | .leaf label => reads_leaf label
  | .unary op e => reads_unary op e.reads
  | .update e => reads_update e.reads
  | .binary a op b => reads_binary op a.reads b.reads
  | .conditional test a b => reads_conditional test.reads a.reads b.reads
  | .member e op => reads_member op e.reads
  | .index e i => reads_index e.reads i.reads
  | .call f args => reads_call f.reads args.reads
  | .group es => reads_group es.reads
  | .array es => reads_array es.reads
  | .property value => reads_property value.reads
  | .object properties => reads_object properties.reads
  | .template parts => reads_template parts.reads_parts
  | .arrow params body => reads_arrow params.reads body.reads
  | .arrowBlock params body => reads_arrowBlock params.reads body.reads
  | .function params body => reads_function params.reads body.reads

/-- Expressions between commas hold their height in the frame. -/
theorem Exprs.reads : (es : Exprs) → ReadsList es.labels es.moreLabels es.height
  | .nil => ⟨content_nil, content_nil⟩
  | .cons e es => reads_cons e.reads es.reads

theorem Exprs.reads_parts : (es : Exprs) →
    Segment es.partLabels 0 (es.height - 1) Settled Settled
  | .nil => fun tokens htokens r hr => by
    obtain rfl := List.map_eq_nil_iff.1 htokens
    exact ⟨⟨rfl, rfl, le_rfl, le_rfl, le_rfl, Nat.le_add_right _ _⟩, rfl, hr⟩
  | .cons e es => reads_part e.reads es.reads_parts

/-- **A statement is worth its height to the segment that it stands in.** -/
theorem Stmt.reads : (s : Stmt) → ReadsStmt s.labels s.height
  | .expression e => reads_expression e.reads
  | .block body => reads_block body.reads
  | .ifThen test s => reads_headed (by decide) (by decide) test.reads s.reads
  | .ifElse test s t => reads_ifElse test.reads s.reads t.reads
  | .whileLoop test s => reads_headed (by decide) (by decide) test.reads s.reads
  | .doWhile s test => reads_doWhile s.reads test.reads
  | .forLoop start test update s =>
    reads_forLoop start.reads test.reads update.reads update.labels_ne_nil s.reads
  | .labelled s => reads_labelled s.reads
  | .jump label e => reads_jump label e.reads
  | .declare label e => reads_declare label e.reads
  | .tryCatch body handler => reads_tryCatch body.reads handler.reads
  | .tryFinally body final => reads_tryFinally body.reads final.reads
  | .function params body => reads_functionDeclaration params.reads body.reads

/-- Statements in a row hold their height in the frame. -/
theorem Stmts.reads : (rest : Stmts) → ReadsBody rest.labels rest.height
  | .nil => content_nil
  | .cons s rest => reads_row s.reads s.labels_ne_nil rest.reads

end

/-! ### The whole source -/

/-- The full measure is at least the depth after any tokens that it starts with. -/
theorem finalDepth_readAll_le (r : Reader) (line : ℕ) {tokens : List LintToken}
    (h : ∀ token ∈ tokens, token.label ≠ "eof") (rest : List LintToken) :
    (r.readAll tokens).scan.finalDepth ≤
      (scanFrom none r.scan line r.prev r.prevPrev (tokens ++ rest)).depth := by
  induction tokens generalizing r line with
  | nil => exact finalDepth_le_scanFrom ..
  | cons token tokens ih =>
    rw [List.cons_append, scanFrom_none_cons, if_neg (h token List.mem_cons_self)]
    exact ih (r.read token) token.line fun t ht => h t (List.mem_cons_of_mem _ ht)

end SyntaxDepth

open SyntaxDepth

/-- **A source that is not reported has a tree within the limit**: no pass that recurses along the
tree goes deeper than the limit, for every program of the grammar and every spelling of its
tokens. -/
theorem height_le_of_not_found (program : Stmts) (tokens : List LintToken) (limit : ℕ)
    (htokens : tokens.map LintToken.label = program.labels ++ ["eof"])
    (h : findSyntaxDepth tokens limit = none) : 1 + program.height ≤ limit := by
  obtain ⟨body, last, rfl, hbody, hlast⟩ := List.map_eq_append_iff.1 htokens
  have heof : ∀ token ∈ body, token.label ≠ "eof" := by
    intro token htoken heq
    refine program.eof_notMem ?_
    rw [← hbody, ← heq]
    exact List.mem_map_of_mem htoken
  let start : Reader := ⟨.init, none, none⟩
  have hkeeps := program.reads body hbody start (show Leads start by
    unfold Leads
    decide)
  have hfinal : FRAME_CONSTANT .top + (start.readAll body).worth =
      (start.readAll body).scan.finalDepth := by
    rw [Scan.finalDepth, hkeeps.outer]
    rfl
  have hmeasure := finalDepth_readAll_le start 1 heof last
  have hle := findSyntaxDepth_eq_none.1 h
  have hholds := hkeeps.holds
  have htop : FRAME_CONSTANT .top = 4 := rfl
  unfold measureSyntaxDepth scanSyntaxDepth at hle
  change _ ≤ (scanFrom none Scan.init 1 none none (body ++ last)).depth at hmeasure
  omega

/-- A name in an expression. -/
def nameLeaf : Expr := .leaf ⟨"name", by decide⟩

/-- `function f(a) { for (a = 1; a < 9; a++) { if (g(a, -a)) return [a]; else try { g(h[a]); }
finally { throw a; } } var b = (a) => { g(a ? a : b); }; }` -/
def nestedProgram : Stmts :=
  let call := fun args => Expr.call nameLeaf args
  let loop := Stmt.forLoop (.binary nameLeaf ⟨"=", by decide⟩ (.leaf ⟨"num", by decide⟩))
    (.binary nameLeaf ⟨"</>/<=/>=", by decide⟩ (.leaf ⟨"num", by decide⟩)) (.update nameLeaf)
    (.block (.cons (.ifElse (call (.cons nameLeaf (.cons (.unary ⟨"+/-", by decide⟩ nameLeaf) .nil)))
      (.jump ⟨"return", by decide⟩ (.array (.cons nameLeaf .nil)))
      (.tryFinally (.cons (.expression (call (.cons (.index nameLeaf nameLeaf) .nil))) .nil)
        (.cons (.jump ⟨"throw", by decide⟩ nameLeaf) .nil))) .nil))
  let arrow := Stmt.declare ⟨"var", by decide⟩ (.arrowBlock (.cons nameLeaf .nil)
    (.cons (.expression (call (.cons (.conditional nameLeaf nameLeaf nameLeaf) .nil))) .nil))
  .cons (.function (.cons nameLeaf .nil) (.cons loop (.cons arrow .nil))) .nil

/-- Its tokens, on one line. -/
def nestedTokens : List LintToken := (nestedProgram.labels ++ ["eof"]).map fun label => ⟨label, "", 1⟩

theorem height_le_of_not_found_nested :
    1 + nestedProgram.height ≤ measureSyntaxDepth nestedTokens ∧
      1 + nestedProgram.height ≤ MAX_SYNTAX_DEPTH := by
  have htokens : nestedTokens.map LintToken.label = nestedProgram.labels ++ ["eof"] := by
    rw [nestedTokens, List.map_map]
    exact List.map_id _
  exact ⟨height_le_of_not_found _ _ _ htokens (findSyntaxDepth_eq_none.2 le_rfl),
    height_le_of_not_found _ _ _ htokens (by decide +kernel)⟩

example : nestedProgram.height = 11 ∧ measureSyntaxDepth nestedTokens = 37 := by decide +kernel

end XChainSdk
