import FluxFront.Proofs.DeclProductions

/-!
# What statements build

The productions of statements.  Variables that are declared by a statement turn into statements and
keep their labels; any other declaration is wrapped in one.
-/

namespace FluxFront.Grammar

open Token (Kind)

variable {strict : Prop} {inner : Level}

/-! ## Declarations and expressions as statements -/

theorem declarationStatement_makes {s s₀ : State} (before : List Node) {decl : Decl}
    (h : Builds strict s₀ (before ++ [.declaration decl]) s) :
    After (declarationStatement decl) s fun stmt s' =>
      Builds strict s₀ (before ++ [.statement stmt]) s' := by
  obtain ⟨form, span, id⟩ := decl
  unfold declarationStatement
  dsimp only
  split
  · exact .pure (.demote before h)
  · refine (reads_reportStructural _ _ _ _).andThen fun _ s₁ h₁ => .nodeAt ?_
    exact .wrap before _ (h.andThen h₁) rfl rfl rfl

theorem declarationStatements_make {s s₀ : State} {decls : List Decl}
    (h : Builds strict s₀ (decls.map .declaration) s) :
    After (decls.mapM declarationStatement) s fun stmts s' =>
      Builds strict s₀ (stmts.map .statement) s' ∧ stmts.length = decls.length :=
  replacements_make (I := fun _ => True)
    (fun _ before _ _ h' => (declarationStatement_makes before h').mono fun _ _ h'' => ⟨trivial, h''⟩)
    decls trivial h

theorem expressionStatement_makes (hi : inner.Makes strict) :
    Makes strict (expressionStatement inner) fun stmt => [.statement stmt] := by
  intro s
  refine .here <| (hi.expression s).andThen fun expr s₁ h₁ => ?_
  refine (reads_expectSemicolon _ _).andThen fun _ s₂ h₂ => .node ?_
  exact .around _ (h₁.andThen h₂) rfl rfl (by simp [Node.children, Node.ofStmt])

/-! ## Branches and loops -/

theorem condition_makes (hi : inner.Makes strict) (keyword : String) :
    Makes strict (condition inner keyword) fun e => [.expression e] := by
  intro s
  refine (reads_consume _ _ _).andThen fun _ s₁ h₁ => ?_
  refine (hi.expression _).andThen fun expr s₂ h₂ => ?_
  exact (reads_consume _ _ _).andThen fun _ s₃ h₃ => .pure ((h₂.andThen h₃).behind h₁)

theorem ifStatement_makes (hi : inner.Makes strict) (context : Context) {s : State}
    (hk : s.current.kind ≠ .eof) :
    After (ifStatement inner context) s fun stmt s' => Builds strict s [.statement stmt] s' := by
  refine .here <| .advance <| (condition_makes hi _ _).andThen fun condition s₁ h₁ => ?_
  refine (hi.statement context _).andThen fun thenBranch s₂ h₂ => ?_
  have close : ∀ (elseBranch : Option Stmt) s₃,
      Builds strict s₂ (elseBranch.toList.map .statement) s₃ →
      After (node (Stmt.mk (.ifElse condition thenBranch elseBranch)) s.here) s₃
        fun stmt s' => Builds strict s [.statement stmt] s' :=
    fun _ s₃ h₃ => .node <| .read _ (h₁.append (h₂.append h₃)) hk rfl rfl
  refine .accept (fun _ => ?_) fun _ => close none _ (.idle _)
  refine .bind <| .map <| (hi.statement context _).mono fun stmt s₃ h₃ => close (some stmt) s₃ ?_
  exact h₃.behind (.advance s₂)

theorem whileStatement_makes (hi : inner.Makes strict) (context : Context) {s : State}
    (hk : s.current.kind ≠ .eof) :
    After (whileStatement inner context) s fun stmt s' => Builds strict s [.statement stmt] s' := by
  refine .here <| .advance <| (condition_makes hi _ _).andThen fun condition s₁ h₁ => ?_
  refine (hi.statement _ _).andThen fun body s₂ h₂ => .node ?_
  exact .read _ (h₁.append h₂) hk rfl rfl

theorem doStatement_makes (hi : inner.Makes strict) (context : Context) {s : State}
    (hk : s.current.kind ≠ .eof) :
    After (doStatement inner context) s fun stmt s' => Builds strict s [.statement stmt] s' := by
  refine .here <| .advance <| (hi.statement _ _).andThen fun body s₁ h₁ => ?_
  refine (reads_consume _ _ _).andThen fun _ s₂ h₂ => ?_
  refine (condition_makes hi _ _).andThen fun condition s₃ h₃ => ?_
  refine (reads_expectSemicolon _ _).andThen fun _ s₄ h₄ => .node ?_
  exact .read _ ((h₁.andThen h₂).append (h₃.andThen h₄)) hk rfl rfl

theorem reads_rangeNames : Reads rangeNames := by
  refine reads_position.bind fun before => (reads_check _).bind fun _ => .ite ?_ (.pure _)
  refine reads_advance.bind fun _ => ?_
  have close : ∀ var index, Reads (do
      if ← accept .kwIn then
        noteCommitted "range loop header" before
        return some (var, index)
      else return none : Parser (Option (String × Option String))) := fun _ _ =>
    (reads_accept _).bind fun _ => .ite ((reads_noteCommitted _ _).bind fun _ => .pure _) (.pure _)
  refine (reads_check _).bind fun _ => (reads_kindAt _).bind fun _ => .ite ?_ (close _ none)
  exact reads_advance.bind fun _ => reads_advance.bind fun _ => close _ _

theorem reads_rangeHeader : Reads rangeHeader := by
  intro s
  show Steps s (attempt rangeNames s).2
  rw [attempt_eq steady_rangeNames]
  cases (rangeNames s).1 with
  | some names => exact reads_rangeNames s
  | none => exact .single (.quiet rfl rfl rfl rfl)

theorem forInit_makes (hi : inner.Makes strict) (context : Context) :
    Makes strict (forInit inner context) (List.map .statement) := by
  intro s
  refine .accept (fun _ => .pure (.steps (.advance s))) fun _ => ?_
  refine (declarationBody_makes hi context s).andThen fun o s₁ h₁ => ?_
  cases o with
  | some decls => exact (declarationStatements_make h₁.1).mono fun _ _ h => h.1
  | none =>
    exact (expressionStatement_makes hi _).andThen fun stmt s₂ h₂ => .pure (h₁.1.append h₂)

theorem forStatement_makes (hi : inner.Makes strict) (context : Context) {s : State}
    (hk : s.current.kind ≠ .eof) :
    After (forStatement inner context) s fun stmt s' => Builds strict s [.statement stmt] s' := by
  refine .here <| .advance <| (reads_consume _ _ _).andThen fun _ s₁ h₁ => ?_
  refine (reads_rangeHeader _).andThen fun header s₂ h₂ => ?_
  cases header with
  | some names =>
    refine (hi.expression _).andThen fun range s₃ h₃ => ?_
    refine (reads_consume _ _ _).andThen fun _ s₄ h₄ => ?_
    refine (hi.statement _ _).andThen fun body s₅ h₅ => .node ?_
    exact .read _ (((h₃.andThen h₄).append h₅).behind (h₁.trans h₂)) hk rfl rfl
  | none =>
    refine (forInit_makes hi context _).andThen fun init s₃ h₃ => ?_
    have close : ∀ (condition increment : Option Expr) s₄,
        Builds strict s.advanced (init.map .statement ++ condition.toList.map .expression
          ++ increment.toList.map .expression) s₄ →
        After (do
          consume .rightParen "Expected ')' after for clauses"
          let body ← inner.statement context.looping
          node (Stmt.mk (.forLoop init condition increment body)) s.here) s₄
          fun stmt s' => Builds strict s [.statement stmt] s' := by
      intro condition increment s₄ h₄
      refine (reads_consume _ _ _).andThen fun _ s₅ h₅ => ?_
      refine (hi.statement _ _).andThen fun body s₆ h₆ => .node ?_
      exact .read _ ((h₄.andThen h₅).append h₆) hk rfl rfl
    have step : ∀ (condition : Option Expr) s₄,
        Builds strict s₃ (condition.toList.map .expression) s₄ →
        After (do
          consume .semicolon "Expected ';' after loop condition"
          let increment ← do
            if ← check .rightParen then pure none else some <$> inner.expression
          consume .rightParen "Expected ')' after for clauses"
          let body ← inner.statement context.looping
          node (Stmt.mk (.forLoop init condition increment body)) s.here) s₄
          fun stmt s' => Builds strict s [.statement stmt] s' := by
      intro condition s₄ h₄
      refine (reads_consume _ _ _).andThen fun _ s₅ h₅ => ?_
      have h := ((h₃.behind (h₁.trans h₂)).append h₄).andThen h₅
      refine .check (fun _ => close condition none _ (by simpa using h)) fun _ => ?_
      refine .bind <| .map <| (hi.expression _).mono fun e s₆ h₆ => close condition (some e) s₆ ?_
      exact h.append h₆
    refine .check (fun _ => step none _ (.idle _)) fun _ => ?_
    exact .bind <| .map <| (hi.expression _).mono fun e s₄ h₄ => step (some e) s₄ h₄

/-! ## Switches -/

/-- The nodes of a case. -/
def Case.nodes (c : Case) : List Node := c.pattern.toList.map .expression ++ Node.ofBlock c.body

theorem switchCase_makes (hi : inner.Makes strict) (context : Context) :
    Makes strict (switchCase inner context) Case.nodes := by
  intro s
  refine .here <| .advance <| (reads_consume _ _ _).andThen fun _ s₁ h₁ => ?_
  have close : ∀ (pattern : Option Expr) s₂,
      Builds strict s₁ (pattern.toList.map .expression) s₂ →
      After (do
        consume .rightParen "Expected ')' after case pattern"
        let body ← block inner context
        let _ ← accept .semicolon
        return { pattern, body, span := ← spanFrom s.here : Case }) s₂
        fun c s' => Builds strict s (Case.nodes c) s' := by
    intro pattern s₂ h₂
    refine (reads_consume _ _ _).andThen fun _ s₃ h₃ => ?_
    refine (block_makes hi context _).andThen fun body s₄ h₄ => ?_
    refine (reads_accept _ _).andThen fun _ s₅ h₅ => .spanFrom <| .pure ?_
    exact ((h₂.andThen h₃).append (h₄.andThen h₅)).behind ((Steps.advance s).trans h₁)
  refine .accept (fun _ => close none _ (.steps (.advance s₁))) fun _ => ?_
  exact .bind <| .map <| (hi.expression _).mono fun e s₂ h₂ => close (some e) s₂ h₂

theorem nextCases_makes (hi : inner.Makes strict) (context : Context) {s s₀ : State}
    {cases : List Case} (h : Builds strict s₀ (cases.flatMap Case.nodes) s) :
    After (nextCases inner context cases) s fun cs s' =>
      Builds strict s₀ (cs.flatMap Case.nodes) s' := by
  refine .check (fun _ => ?_) fun _ => ?_
  · refine (switchCase_makes hi context _).andThen fun case s₁ h₁ => ?_
    have h' : Builds strict s₀ ((cases ++ [case]).flatMap Case.nodes) s₁ := by
      simpa using h.append h₁
    refine .ite (fun _ => ?_) fun _ => .pure h'
    exact (reads_reportStructural _ _ _ _).andThen fun _ s₂ h₂ => .pure (h'.andThen h₂)
  · exact (reads_reportUnexpected _ _).andThen fun _ s₁ h₁ => .pure (h.andThen h₁)

theorem switchCases_makes (hi : inner.Makes strict) (context : Context) :
    Makes strict (switchCases inner context) (List.flatMap Case.nodes) := by
  intro s
  refine .iterate (I := fun (cs : List Case) s' => Builds strict s (cs.flatMap Case.nodes) s')
    (fun cases s₁ h₁ => ?_) (.idle s)
  refine .checkOrEnd fun b => ?_
  cases b with
  | true => exact .pure h₁
  | false =>
    refine .position <| (nextCases_makes hi context h₁).andThen fun next s₂ h₂ => ?_
    exact (reads_recoverAfterItem _ _).andThen fun _ s₃ h₃ => .pure (h₂.andThen h₃)

theorem switchStatement_makes (hi : inner.Makes strict) (context : Context) {s : State}
    (hk : s.current.kind ≠ .eof) :
    After (switchStatement inner context) s fun stmt s' =>
      Builds strict s [.statement stmt] s' := by
  refine .here <| .advance <| (condition_makes hi _ _).andThen fun subject s₁ h₁ => ?_
  refine (reads_consume _ _ _).andThen fun _ s₂ h₂ => ?_
  refine (switchCases_makes hi _ _).andThen fun cases s₃ h₃ => ?_
  refine (reads_consume _ _ _).andThen fun _ s₄ h₄ => .bind <| .node ?_
  have h := Builds.read (.statement ⟨.switch subject cases, s₄.spanFrom s.here, s₄.nextId⟩)
    ((h₁.andThen h₂).append (h₃.andThen h₄)) hk rfl rfl
  refine .ite (fun _ => .pure h) fun _ => ?_
  exact (reads_reportStructural _ _ _ _).andThen fun _ s₅ h₅ => .pure (h.andThen h₅)

/-! ## Jumps -/

theorem returnStatement_makes (hi : inner.Makes strict) {s : State} (hk : s.current.kind ≠ .eof) :
    After (returnStatement inner) s fun stmt s' => Builds strict s [.statement stmt] s' := by
  have close : ∀ (value : Option Expr) s₁,
      Builds strict s.advanced (value.toList.map .expression) s₁ →
      After (do
        expectSemicolon "return value"
        node (Stmt.mk (.returnValue value)) s.here) s₁
        fun stmt s' => Builds strict s [.statement stmt] s' := by
    intro value s₁ h₁
    refine (reads_expectSemicolon _ _).andThen fun _ s₂ h₂ => .node ?_
    exact .read _ (h₁.andThen h₂) hk rfl rfl
  refine .here <| .advance <| .checkAny fun b => ?_
  cases b
  · exact .bind <| .map <| (hi.expression _).mono fun e s₁ h₁ => close (some e) s₁ h₁
  · exact close none _ (.idle _)

theorem breakStatement_makes (context : Context) {s : State} (hk : s.current.kind ≠ .eof) :
    After (breakStatement context) s fun stmt s' => Builds strict s [.statement stmt] s' := by
  refine .here <| .advance <| (reads_expectSemicolon _ _).andThen fun _ s₁ h₁ => .bind <| .node ?_
  have h : Builds strict s [.statement ⟨.breakLoop, s₁.spanFrom s.here, s₁.nextId⟩] s₁.stamped :=
    .read _ (.steps h₁) hk rfl rfl
  refine .ite (fun _ => .pure h) fun _ => ?_
  exact (reads_reportStructural _ _ _ _).andThen fun _ s₂ h₂ => .pure (h.andThen h₂)

theorem continueStatement_makes (context : Context) {s : State} (hk : s.current.kind ≠ .eof) :
    After (continueStatement context) s fun stmt s' => Builds strict s [.statement stmt] s' := by
  refine .here <| .advance <| (reads_expectSemicolon _ _).andThen fun _ s₁ h₁ => .bind <| .node ?_
  have h : Builds strict s [.statement ⟨.continueLoop, s₁.spanFrom s.here, s₁.nextId⟩]
      s₁.stamped := .read _ (.steps h₁) hk rfl rfl
  refine .ite (fun _ => .pure h) fun _ => ?_
  exact (reads_reportStructural _ _ _ _).andThen fun _ s₂ h₂ => .pure (h.andThen h₂)

/-! ## Exceptions, assertions, locks -/

theorem handlerException_makes (hi : inner.Makes strict) :
    Makes strict (handlerException inner) fun e => e.1.toList.map .type := by
  intro s
  refine .accept (fun _ => ?_) fun _ => .pure (Builds.idle s)
  refine (hi.type _).andThen fun exception s₁ h₁ => ?_
  have close : ∀ binding s₂, Steps s₁ s₂ →
      After (do
        consume .rightParen "Expected ')' after catch parameter"
        return (some exception, binding) : Parser (Option Ty × Option String)) s₂
        fun e s' => Builds strict s (e.1.toList.map .type) s' := by
    intro binding s₂ h₂
    refine (reads_consume _ _ _).andThen fun _ s₃ h₃ => .pure ?_
    exact (h₁.andThen (h₂.trans h₃)).behind (.advance s)
  exact .check (fun _ => .advance <| close _ _ (.advance s₁)) fun _ => close none _ (.refl s₁)

/-- The nodes of a handler. -/
def Handler.nodes (h : Handler) : List Node := h.exception.toList.map .type ++ Node.ofBlock h.body

theorem handler_makes (hi : inner.Makes strict) (context : Context) :
    Makes strict (handler? inner context) fun o => o.toList.flatMap Handler.nodes := by
  intro s
  refine .here <| .accept (fun _ => ?_) fun _ => .pure (Builds.idle s)
  refine (handlerException_makes hi _).andThen fun exception s₁ h₁ => ?_
  refine (block_makes hi context _).andThen fun body s₂ h₂ => .spanFrom <| .pure ?_
  simpa [Handler.nodes] using (h₁.append h₂).behind (.advance s)

theorem tryStatement_makes (hi : inner.Makes strict) (context : Context) {s : State}
    (hk : s.current.kind ≠ .eof) :
    After (tryStatement inner context) s fun stmt s' => Builds strict s [.statement stmt] s' := by
  refine .here <| .advance <| (block_makes hi context _).andThen fun body s₁ h₁ => ?_
  refine ((handler_makes hi context).many _).andThen fun handlers s₂ h₂ => ?_
  have h := h₁.append h₂
  refine .ite (fun _ => ?_) fun _ => .node <| .read _ h hk rfl rfl
  refine (reads_reportUnexpected _ _).andThen fun _ s₃ h₃ => .node ?_
  exact .read _ (h.andThen h₃) hk rfl rfl

theorem closedBlock_makes (hi : inner.Makes strict) (context : Context) :
    Makes strict (closedBlock inner context) Node.ofBlock := by
  intro s
  refine (block_makes hi context s).andThen fun body s₁ h₁ => ?_
  exact (reads_accept _ _).andThen fun _ s₂ h₂ => .pure (h₁.andThen h₂)

theorem throwStatement_makes (hi : inner.Makes strict) (context : Context) {s : State}
    (hk : s.current.kind ≠ .eof) :
    After (throwStatement inner context) s fun stmt s' => Builds strict s [.statement stmt] s' := by
  refine .here <| .advance <| .accept (fun _ => .node ?_) fun _ => ?_
  · exact .read _ (.steps (.advance _)) hk rfl rfl
  refine .check (fun _ => ?_) fun _ => ?_
  · refine (closedBlock_makes hi context _).andThen fun body s₁ h₁ => .node ?_
    exact .read _ (by simpa [Node.children, Node.ofStmt] using h₁) hk rfl rfl
  refine (hi.expression _).andThen fun message s₁ h₁ => .check (fun _ => ?_) fun _ => ?_
  · have close : ∀ message, Builds strict s.advanced [.expression message] s₁ →
        After (do
          let body ← closedBlock inner context
          node (Stmt.mk (.throwValue (some message) (some body))) s.here) s₁
          fun stmt s' => Builds strict s [.statement stmt] s' := by
      intro message h₁
      refine (closedBlock_makes hi context _).andThen fun body s₂ h₂ => .node ?_
      refine .read _ ?_ hk rfl rfl
      simpa [Node.children, Node.ofStmt] using h₁.append h₂
    refine close _ ?_
    obtain ⟨form, span, id⟩ := message
    dsimp only
    split
    · exact .ungroup [] h₁
    · exact h₁
  · refine (reads_expectSemicolon _ _).andThen fun _ s₂ h₂ => .node ?_
    exact .read _ (h₁.andThen h₂) hk rfl rfl

theorem assertStatement_makes (hi : inner.Makes strict) {s : State} (hk : s.current.kind ≠ .eof) :
    After (assertStatement inner) s fun stmt s' => Builds strict s [.statement stmt] s' := by
  refine .here <| .advance <| (reads_consume _ _ _).andThen fun _ s₁ h₁ => ?_
  refine (hi.expression _).andThen fun condition s₂ h₂ => ?_
  refine (reads_consume _ _ _).andThen fun _ s₃ h₃ => ?_
  refine (reads_expectSemicolon _ _).andThen fun _ s₄ h₄ => .node ?_
  exact .read _ ((h₂.andThen (h₃.trans h₄)).behind h₁) hk rfl rfl

theorem asmStatement_makes {s : State} (hk : s.current.kind ≠ .eof) :
    After asmStatement s fun stmt s' => Builds strict s [.statement stmt] s' :=
  .here <| (asmBody_moves s hk).andThen fun _ _ h => .node <| .leaf _ h.1 rfl rfl rfl h.2

theorem lockStatement_makes (hi : inner.Makes strict) (context : Context) (which : LockKind)
    {s : State} (hk : s.current.kind ≠ .eof) :
    After (lockStatement inner context which) s fun stmt s' =>
      Builds strict s [.statement stmt] s' := by
  refine .here <| .advance <| (reads_qualifiedName _ _).andThen fun scope s₁ h₁ => ?_
  have close : ∀ (body : Option Block) s₂, Builds strict s₁ (body.toList.flatMap Node.ofBlock) s₂ →
      After (node (Stmt.mk (.lock which scope body)) s.here) s₂
        fun stmt s' => Builds strict s [.statement stmt] s' :=
    fun _ _ h₂ => .node <| .read _ (h₂.behind h₁) hk rfl rfl
  refine .check (fun _ => ?_) fun _ => ?_
  · refine .bind <| .map <| (closedBlock_makes hi context _).mono fun body s₂ h₂ => ?_
    exact close (some body) s₂ (by simpa using h₂)
  · exact (reads_expectSemicolon _ _).andThen fun _ s₂ h₂ => close none s₂ (.steps h₂)

theorem blockStatement_makes (hi : inner.Makes strict) (context : Context) :
    Makes strict (blockStatement inner context) fun stmt => [.statement stmt] := by
  intro s
  refine (block_builds hi context s).andThen fun body s₁ h₁ => .nodeAt ?_
  cases h₁ with
  | read h span moved => exact .node [] _ h span rfl fun _ => .inl moved
  | missing s₂ h hs statements span =>
    rw [hs]
    refine .behind h <| .missing _ ?_ span rfl
    simp [Node.children, Node.ofStmt, Node.ofBlock, statements]

/-! ## Statements -/

theorem keywordStatement_makes (hi : inner.Makes strict) (context : Context) :
    Makes strict (keywordStatement inner context) fun o => o.toList.map .statement := by
  intro s
  refine .kind ?_
  split
  case h_1 hk => exact .map (ifStatement_makes hi context (by rw [hk]; decide))
  case h_2 hk => exact .map (whileStatement_makes hi context (by rw [hk]; decide))
  case h_3 hk => exact .map (doStatement_makes hi context (by rw [hk]; decide))
  case h_4 hk => exact .map (forStatement_makes hi context (by rw [hk]; decide))
  case h_5 hk => exact .map (switchStatement_makes hi context (by rw [hk]; decide))
  case h_6 hk => exact .map (returnStatement_makes hi (by rw [hk]; decide))
  case h_7 hk => exact .map (breakStatement_makes context (by rw [hk]; decide))
  case h_8 hk => exact .map (continueStatement_makes context (by rw [hk]; decide))
  case h_9 hk => exact .map (tryStatement_makes hi context (by rw [hk]; decide))
  case h_10 hk => exact .map (throwStatement_makes hi context (by rw [hk]; decide))
  case h_11 hk => exact .map (assertStatement_makes hi (by rw [hk]; decide))
  case h_12 hk => exact .map (asmStatement_makes (by rw [hk]; decide))
  case h_13 hk | h_14 hk | h_15 hk =>
    exact .map (lockStatement_makes hi context _ (by rw [hk]; decide))
  case h_16 => exact .map (blockStatement_makes hi context s)
  case h_17 => exact .pure (Builds.idle s)

theorem plainStatement_makes (hi : inner.Makes strict) (context : Context) :
    Makes strict (plainStatement inner context) fun stmt => [.statement stmt] := by
  intro s
  refine (keywordStatement_makes hi context s).andThen fun o s₁ h₁ => ?_
  cases o with
  | some stmt => exact .pure h₁
  | none => exact (expressionStatement_makes hi s₁).mono fun _ _ h₂ => h₁.append h₂

theorem blockItem_makes (hi : inner.Makes strict) (context : Context) (s : State) :
    After (blockItem inner context) s fun stmts s' =>
      Builds strict s (stmts.map .statement) s' ∧ stmts ≠ [] := by
  refine (keywordStatement_makes hi context s).andThen fun o s₁ h₁ => ?_
  cases o with
  | some stmt => exact .pure ⟨h₁, List.cons_ne_nil _ _⟩
  | none =>
    refine (declarationBody_makes hi context s₁).andThen fun o s₂ h₂ => ?_
    cases o with
    | some decls =>
      refine (declarationStatements_make h₂.1).mono fun stmts s₃ h₃ => ⟨h₁.append h₃.1, ?_⟩
      rintro rfl
      exact h₂.2 (congrArg some (List.length_eq_zero_iff.1 h₃.2.symm))
    | none =>
      refine (expressionStatement_makes hi s₂).andThen fun stmt s₃ h₃ => .pure ⟨?_, ?_⟩
      · exact h₁.append (h₂.1.append h₃)
      · exact List.cons_ne_nil _ _

theorem itemsBody_makes (hi : inner.Makes strict) (context : Context) :
    Makes strict (itemsBody inner context) (List.map .statement) := by
  refine Makes.singles (.bodyItems fun s => ?_)
  refine (blockItem_makes hi context s).mono fun stmts s₁ h₁ => ?_
  rw [← List.map_eq_flatMap]
  exact h₁.1

theorem statementBody_makes (hi : inner.Makes strict) (context : Context) :
    Makes strict (statementBody inner context) fun stmt => [.statement stmt] := by
  intro s
  refine .here <| (blockItem_makes hi context s).andThen fun stmts s₁ h₁ => ?_
  dsimp only
  split
  · exact .pure h₁.1
  · refine .spanFrom <| .nodeAt <| .around _ h₁.1 rfl rfl ?_
    simpa [Node.children, Node.ofStmt, Node.ofBlock] using h₁.2

end FluxFront.Grammar
