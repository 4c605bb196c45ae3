import FluxFront.Proofs.DeclMarks

/-!
# The marks of statements and programs

Statements leave their marks for the enclosure that their context describes: a loop or a switch says
so to what is inside it, and every other statement hands on what it was told.

* **Base**: the level without room counts an error, so its results need no account.
* **Run**: from level to level, and so for every program (`marks_program`).
-/

namespace FluxFront.Grammar

open Token (Kind)

variable {inner : Level} (e : Enclosure)

/-! ## Declarations and expressions as statements -/

theorem marks_declarationStatements {s s₀ : State} {decls : List Decl}
    (h : Marked s₀ (decls.flatMap fun d => (Node.declaration d).trace e) s) :
    After (decls.mapM declarationStatement) s fun stmts s' =>
      Marked s₀ (stmts.flatMap fun stmt => (Node.statement stmt).trace e) s' := by
  refine marks_replacements e [] (fun d ms s hms h => ?_) h
  obtain ⟨form, span, id⟩ := d
  unfold declarationStatement
  dsimp only
  split
  · rename_i var
    have htrace : (Node.statement ⟨.variable var, span, id⟩).trace e
        = (Node.declaration ⟨.variable var, span, id⟩).trace e := by
      rw [Node.trace_eq, Node.trace_eq]
      rfl
    refine .pure ⟨h.covers (.of_iff fun m => ?_), fun m hm => by rwa [htrace]⟩
    rw [List.mem_append, htrace]
    exact ⟨fun hm => hm.elim (fun h => h) (hms m), .inl⟩
  · have htrace : ∀ decl m span id, m ∈ (Node.statement ⟨.misplaced decl, span, id⟩).trace e
        ↔ m = .fault .misplacedDeclaration ∨ m ∈ (Node.declaration decl).trace e := by
      intro decl m span id
      rw [Node.trace_eq]
      simp
    refine (marks_reportStructural rfl _ _ _).andThen fun _ s₁ h₁ => .nodeAt ⟨?_, fun m hm => ?_⟩
    · refine ((h.append h₁).covers (.of_iff fun m => ?_)).andThen (.stamp s₁)
      rw [List.mem_append, htrace, List.mem_append, List.mem_singleton]
      exact ⟨fun hm => hm.elim .inl (Or.symm ∘ Or.imp_right (hms m)), Or.imp_right .inl⟩
    · exact (htrace _ _ _ _).2 (.inr hm)

theorem marks_expressionStatement (hi : inner.Marks) :
    Marks (expressionStatement inner) fun stmt => (Node.statement stmt).trace e := by
  intro s
  refine .here <| (hi.expression e s).andThen fun expr s₁ h₁ => ?_
  refine (unmarked_expectSemicolon _ _).andThen fun _ s₂ h₂ => .node ?_
  exact (h₁.andThen h₂).node fun m => by simp

/-! ## Branches and loops -/

theorem marks_condition (hi : inner.Marks) (keyword : String) :
    Marks (condition inner keyword) fun x => (Node.expression x).trace e := by
  intro s
  refine (unmarked_consume _ _ _).andThen fun _ s₁ h₁ => ?_
  refine (hi.expression e _).andThen fun expr s₂ h₂ => ?_
  refine (unmarked_consume _ _ _).andThen fun _ s₃ h₃ => .pure ?_
  exact h₁.before (h₂.andThen h₃)

variable (context : Context)

theorem marks_ifStatement (hi : inner.Marks) : Marks (ifStatement inner context) fun stmt =>
    (Node.statement stmt).trace context.enclosure := by
  intro s
  refine .here <| .advance <| (marks_condition context.enclosure hi _ _).andThen
    fun condition s₁ h₁ => ?_
  refine (hi.statement context _).andThen fun thenBranch s₂ h₂ => ?_
  have close : ∀ (elseBranch : Option Stmt) s₃,
      Marked s₂ (elseBranch.toList.flatMap fun b => (Node.statement b).trace context.enclosure) s₃ →
      After (Grammar.node (Stmt.mk (.ifElse condition thenBranch elseBranch)) s.here) s₃
        fun stmt s' => Marked s ((Node.statement stmt).trace context.enclosure) s' :=
    fun _ s₃ h₃ => .node <| ((Marked.advance s).before (h₁.append (h₂.append h₃))).node
      fun m => by simp
  refine .accept (fun _ => ?_) fun _ => close none _ (.refl _)
  refine .bind <| .map <| (hi.statement context _).mono fun stmt s₃ h₃ => close (some stmt) s₃ ?_
  simpa using (Marked.advance s₂).before h₃

theorem marks_whileStatement (hi : inner.Marks) : Marks (whileStatement inner context) fun stmt =>
    (Node.statement stmt).trace context.enclosure := by
  intro s
  refine .here <| .advance <| (marks_condition context.looping.enclosure hi _ _).andThen
    fun condition s₁ h₁ => ?_
  refine (hi.statement context.looping _).andThen fun body s₂ h₂ => .node ?_
  exact ((Marked.advance s).before (h₁.append h₂)).node fun m => by simp

theorem marks_doStatement (hi : inner.Marks) : Marks (doStatement inner context) fun stmt =>
    (Node.statement stmt).trace context.enclosure := by
  intro s
  refine .here <| .advance <| (hi.statement context.looping _).andThen fun body s₁ h₁ => ?_
  refine (unmarked_consume _ _ _).andThen fun _ s₂ h₂ => ?_
  refine (marks_condition context.looping.enclosure hi _ _).andThen fun condition s₃ h₃ => ?_
  refine (unmarked_expectSemicolon _ _).andThen fun _ s₄ h₄ => .node ?_
  have h := (h₁.andThen h₂).append (h₃.andThen h₄)
  exact ((Marked.advance s).before h).node fun m => by simp

/-- The names in the header of a loop over a range. -/
def headerNames (header : Option (String × Option String)) : List String :=
  header.toList.flatMap fun names => names.1 :: names.2.toList

theorem marks_rangeNames (s : State) : After rangeNames s fun o s' =>
    o.isSome → Marked s (blanks (headerNames o)) s' := by
  have close : ∀ (var : String) (index : Option String) s₁,
      Marked s (blanks (var :: index.toList)) s₁ → After (do
        if ← accept .kwIn then
          noteCommitted "range loop header" s.position
          return some (var, index)
        else return none : Parser (Option (String × Option String))) s₁ fun o s' =>
          o.isSome → Marked s (blanks (headerNames o)) s' := by
    intro var index s₁ h₁
    refine .accept (fun _ => ?_) fun _ => .pure nofun
    refine (unmarked_noteCommitted _ _ _).andThen fun _ s₂ h₂ => .pure fun _ => ?_
    simpa [headerNames] using (h₁.andThen (.advance s₁)).andThen h₂
  refine .position <| .check (fun hk => .advance ?_) fun _ => .pure nofun
  have hvar : Marked s (blanks [s.current.lexeme]) s.advanced := .word (by rw [hk]; decide)
  refine .check (fun hc => .kindAt ?_) fun _ => .kindAt ?_
  · refine .ite (fun hn => .advance <| .advance ?_) fun _ => close _ none _ hvar
    have hname : s.advanced.advanced.current.kind ≠ .eof := by
      rw [State.kind_advanced (by rw [hc]; decide)]
      intro he
      simp [he] at hn
    have h := (hvar.andThen (.advance _)).append (.word hname)
    exact close _ (some _) _ (h.covers (.of_iff fun m => by grind))
  · exact .ite (fun h => absurd h (by simp)) fun _ => close _ none _ hvar

theorem marks_rangeHeader : Marks rangeHeader fun o => blanks (headerNames o) := by
  intro s
  have hn := marks_rangeNames s
  show Marked s (blanks (headerNames (attempt rangeNames s).1)) (attempt rangeNames s).2
  rw [attempt_eq steady_rangeNames]
  cases ho : (rangeNames s).1 with
  | some names =>
    have h := hn (by rw [ho]; rfl)
    rwa [ho] at h
  | none =>
    -- what was read for a header is undone
    exact .quiet rfl rfl rfl rfl rfl rfl

theorem marks_forInit (hi : inner.Marks) : Marks (forInit inner context)
    (List.flatMap fun stmt => (Node.statement stmt).trace e) := by
  intro s
  refine .accept (fun _ => .pure (.advance s)) fun _ => ?_
  refine (marks_declarationBody e hi context s).andThen fun o s₁ h₁ => ?_
  cases o with
  | some decls => exact marks_declarationStatements e h₁
  | none =>
    refine (marks_expressionStatement e hi _).andThen fun stmt s₂ h₂ => .pure ?_
    simpa using h₁.append h₂

theorem marks_forStatement (hi : inner.Marks) : Marks (forStatement inner context) fun stmt =>
    (Node.statement stmt).trace context.enclosure := by
  intro s
  refine .here <| .advance <| (unmarked_consume _ _ _).andThen fun _ s₁ h₁ => ?_
  refine (marks_rangeHeader _).andThen fun header s₂ h₂ => ?_
  have head := (Marked.advance s).before (h₁.before h₂)
  cases header with
  | some names =>
    refine (hi.expression context.looping.enclosure _).andThen fun range s₃ h₃ => ?_
    refine (unmarked_consume _ _ _).andThen fun _ s₄ h₄ => ?_
    refine (hi.statement context.looping _).andThen fun body s₅ h₅ => .node ?_
    exact (head.append ((h₃.andThen h₄).append h₅)).node fun m => by simp [headerNames]
  | none =>
    -- nothing that the clauses can hold depends on what stands around it
    refine (marks_forInit context.looping.enclosure context hi _).andThen fun init s₃ h₃ => ?_
    have close : ∀ (condition increment : Option Expr) s₄,
        Marked s ((init.flatMap fun stmt => (Node.statement stmt).trace context.looping.enclosure)
          ++ (condition.toList.flatMap fun x =>
            (Node.expression x).trace context.looping.enclosure)
          ++ increment.toList.flatMap fun x =>
            (Node.expression x).trace context.looping.enclosure) s₄ →
        After (do
          consume .rightParen "Expected ')' after for clauses"
          let body ← inner.statement context.looping
          Grammar.node (Stmt.mk (.forLoop init condition increment body)) s.here) s₄
          fun stmt s' => Marked s ((Node.statement stmt).trace context.enclosure) s' := by
      intro condition increment s₄ h₄
      refine (unmarked_consume _ _ _).andThen fun _ s₅ h₅ => ?_
      refine (hi.statement context.looping _).andThen fun body s₆ h₆ => .node ?_
      exact ((h₄.andThen h₅).append h₆).node fun m => by simp
    have step : ∀ (condition : Option Expr) s₄, Marked s₃ (condition.toList.flatMap fun x =>
          (Node.expression x).trace context.looping.enclosure) s₄ →
        After (do
          consume .semicolon "Expected ';' after loop condition"
          let increment ← do
            if ← check .rightParen then pure none else some <$> inner.expression
          consume .rightParen "Expected ')' after for clauses"
          let body ← inner.statement context.looping
          Grammar.node (Stmt.mk (.forLoop init condition increment body)) s.here) s₄
          fun stmt s' => Marked s ((Node.statement stmt).trace context.enclosure) s' := by
      intro condition s₄ h₄
      refine (unmarked_consume _ _ _).andThen fun _ s₅ h₅ => ?_
      have h := (head.before (h₃.append h₄)).andThen h₅
      refine .check (fun _ => close condition none _ (by simpa using h)) fun _ => ?_
      refine .bind <| .map <| (hi.expression context.looping.enclosure _).mono fun x s₆ h₆ =>
        close condition (some x) s₆ ?_
      simpa using h.append h₆
    refine .check (fun _ => step none _ (.refl _)) fun _ => ?_
    refine .bind <| .map <| (hi.expression context.looping.enclosure _).mono fun x s₄ h₄ =>
      step (some x) s₄ ?_
    simpa using h₄

/-! ## Switches -/

/-- The marks of a case. -/
def caseMarks (c : Case) : List Mark :=
  (c.pattern.toList.flatMap fun x => (Node.expression x).trace e)
    ++ c.body.statements.flatMap fun stmt => (Node.statement stmt).trace e

theorem marks_switchCase (hi : inner.Marks) :
    Marks (switchCase inner context) (caseMarks context.enclosure) := by
  intro s
  refine .here <| .advance <| (unmarked_consume _ _ _).andThen fun _ s₁ h₁ => ?_
  have close : ∀ (pattern : Option Expr) s₂, Marked s₁
      (pattern.toList.flatMap fun x => (Node.expression x).trace context.enclosure) s₂ →
      After (do
        consume .rightParen "Expected ')' after case pattern"
        let body ← block inner context
        let _ ← accept .semicolon
        return { pattern, body, span := ← spanFrom s.here : Case }) s₂
        fun c s' => Marked s (caseMarks context.enclosure c) s' := by
    intro pattern s₂ h₂
    refine (unmarked_consume _ _ _).andThen fun _ s₃ h₃ => ?_
    refine (marks_block hi context _).andThen fun body s₄ h₄ => ?_
    refine (unmarked_accept _ _).andThen fun _ s₅ h₅ => .spanFrom <| .pure ?_
    exact (Marked.advance s).before (h₁.before ((h₂.andThen h₃).append (h₄.andThen h₅)))
  refine .accept (fun _ => close none _ (.advance s₁)) fun _ => ?_
  refine .bind <| .map <| (hi.expression context.enclosure _).mono fun x s₂ h₂ =>
    close (some x) s₂ ?_
  simpa using h₂

/-- The marks of the cases of a switch that is not closed yet. -/
def casesMarks (cases : List Case) : List Mark :=
  cases.flatMap (caseMarks e)
    ++ if 2 ≤ cases.countP Case.isDefault then [.fault .duplicateDefaultCase] else []

theorem any_isDefault_iff (cases : List Case) :
    cases.any Case.isDefault = true ↔ 0 < cases.countP Case.isDefault := by
  rw [List.countP_pos_iff, List.any_eq_true]

/-- A default case is one too many exactly if there was one before. -/
theorem two_le_countP_append (cases : List Case) (c : Case) :
    2 ≤ (cases ++ [c]).countP Case.isDefault ↔ 2 ≤ cases.countP Case.isDefault
      ∨ (c.isDefault && cases.any Case.isDefault) = true := by
  rw [Bool.and_eq_true, any_isDefault_iff, List.countP_append]
  -- the count goes up by one with a default case and stays with any other
  by_cases hc : c.isDefault
  · rw [List.countP_singleton, if_pos hc]
    simp only [hc, true_and]
    omega
  · rw [List.countP_singleton, if_neg hc]
    simp [hc]

theorem marks_nextCases (hi : inner.Marks) {s s₀ : State} {cases : List Case}
    (h : Marked s₀ (casesMarks context.enclosure cases) s) :
    After (nextCases inner context cases) s fun cs s' =>
      Marked s₀ (casesMarks context.enclosure cs) s' := by
  refine .check (fun _ => ?_) fun _ => ?_
  · refine (marks_switchCase context hi _).andThen fun case s₁ h₁ => ?_
    refine .ite (fun hd => ?_) fun hd => .pure ?_
    · refine (marks_reportStructural rfl _ _ _).andThen fun _ s₂ h₂ => .pure ?_
      refine ((h.append h₁).append h₂).covers (.of_iff fun m => ?_)
      grind [casesMarks, two_le_countP_append]
    · refine (h.append h₁).covers (.of_iff fun m => ?_)
      grind [casesMarks, two_le_countP_append]
  · exact ((fails_reportUnexpected _).unmarked _).andThen fun _ s₁ h₁ => .pure (h.andThen h₁)

theorem marks_switchCases (hi : inner.Marks) :
    Marks (switchCases inner context) (casesMarks context.enclosure) := by
  intro s
  refine .iterate (I := fun cs s' => Marked s (casesMarks context.enclosure cs) s')
    (fun cases s₁ h₁ => .checkOrEnd fun b => ?_) (.refl s)
  cases b with
  | true => exact .pure h₁
  | false =>
    refine .position <| (marks_nextCases context hi h₁).andThen fun next s₂ h₂ => ?_
    exact (unmarked_recoverAfterItem _ _).andThen fun _ s₃ h₃ => .pure (h₂.andThen h₃)

theorem marks_switchStatement (hi : inner.Marks) : Marks (switchStatement inner context) fun stmt =>
    (Node.statement stmt).trace context.enclosure := by
  intro s
  refine .here <| .advance <| (marks_condition context.switching.enclosure hi _ _).andThen
    fun subject s₁ h₁ => ?_
  refine (unmarked_consume _ _ _).andThen fun _ s₂ h₂ => ?_
  refine (marks_switchCases context.switching hi _).andThen fun cases s₃ h₃ => ?_
  refine (unmarked_consume _ _ _).andThen fun _ s₄ h₄ => .bind <| .node ?_
  have h := ((Marked.advance s).before ((h₁.andThen h₂).append (h₃.andThen h₄))).andThen
    (.stamp s₄)
  have hany := any_isDefault_iff cases
  -- a default case too many was recorded when it was read, a missing one is recorded now
  refine .ite (fun hd => .pure ?_) fun hd => ?_
  · have hfaults : (Case.faults cases).map Mark.fault
        = if 2 ≤ cases.countP Case.isDefault then [.fault .duplicateDefaultCase] else [] := by
      have hpos := hany.1 hd
      rw [Case.faults, if_neg (by omega)]
      split <;> rfl
    refine h.around fun m => ?_
    simp [casesMarks, caseMarks, hfaults, exists_or, and_or_left, or_left_comm, or_comm]
  · have hzero : cases.countP Case.isDefault = 0 := by
      rw [hany] at hd
      omega
    have hfaults : (Case.faults cases).map Mark.fault = [.fault .missingDefaultCase] := by
      rw [Case.faults, hzero]
      rfl
    refine (marks_reportStructural rfl _ _ _).andThen fun _ s₅ h₅ => .pure ?_
    refine (h.append h₅).around fun m => ?_
    simp [casesMarks, caseMarks, hfaults, hzero, exists_or, and_or_left, or_left_comm, or_comm]

/-! ## Jumps -/

theorem marks_returnStatement (hi : inner.Marks) :
    Marks (returnStatement inner) fun stmt => (Node.statement stmt).trace e := by
  intro s
  have close : ∀ (value : Option Expr) s₁,
      Marked s.advanced (value.toList.flatMap fun x => (Node.expression x).trace e) s₁ →
      After (do
        expectSemicolon "return value"
        Grammar.node (Stmt.mk (.returnValue value)) s.here) s₁
        fun stmt s' => Marked s ((Node.statement stmt).trace e) s' := by
    intro value s₁ h₁
    refine (unmarked_expectSemicolon _ _).andThen fun _ s₂ h₂ => .node ?_
    exact ((Marked.advance s).before (h₁.andThen h₂)).node fun m => by simp
  refine .here <| .advance <| .checkAny fun b => ?_
  cases b
  · refine .bind <| .map <| (hi.expression e _).mono fun x s₁ h₁ => close (some x) s₁ ?_
    simpa using h₁
  · exact close none _ (.refl _)

theorem marks_breakStatement : Marks (breakStatement context) fun stmt =>
    (Node.statement stmt).trace context.enclosure := by
  intro s
  refine .here <| .advance <| (unmarked_expectSemicolon _ _).andThen fun _ s₁ h₁ => .bind <| .node ?_
  have h := ((Marked.advance s).before h₁).andThen (.stamp s₁)
  refine .ite (fun hc => .pure ?_) fun hc => ?_
  · exact h.around fun m => by simp_all [Context.enclosure]
  · refine (marks_reportStructural rfl _ _ _).andThen fun _ s₂ h₂ => .pure ?_
    exact (h.before h₂).around fun m => by simp_all [Context.enclosure]

theorem marks_continueStatement : Marks (continueStatement context) fun stmt =>
    (Node.statement stmt).trace context.enclosure := by
  intro s
  refine .here <| .advance <| (unmarked_expectSemicolon _ _).andThen fun _ s₁ h₁ => .bind <| .node ?_
  have h := ((Marked.advance s).before h₁).andThen (.stamp s₁)
  refine .ite (fun hc => .pure ?_) fun hc => ?_
  · exact h.around fun m => by simp_all [Context.enclosure]
  · refine (marks_reportStructural rfl _ _ _).andThen fun _ s₂ h₂ => .pure ?_
    exact (h.before h₂).around fun m => by simp_all [Context.enclosure]

/-! ## Exceptions, assertions, locks -/

/-- The marks of the exception that a handler names. -/
def exceptionMarks (exception : Option Ty) (binding : Option String) : List Mark :=
  (exception.toList.flatMap fun t => (Node.type t).trace e) ++ blanks binding.toList

theorem marks_handlerException (hi : inner.Marks) :
    Marks (handlerException inner) fun r => exceptionMarks e r.1 r.2 := by
  intro s
  refine .accept (fun _ => ?_) fun _ => .pure (.refl s)
  refine (hi.type e _).andThen fun exception s₁ h₁ => ?_
  have close : ∀ (binding : Option String) s₂, Marked s₁ (blanks binding.toList) s₂ →
      After (do
        consume .rightParen "Expected ')' after catch parameter"
        return (some exception, binding) : Parser (Option Ty × Option String)) s₂
        fun r s' => Marked s (exceptionMarks e r.1 r.2) s' := by
    intro binding s₂ h₂
    refine (unmarked_consume _ _ _).andThen fun _ s₃ h₃ => .pure ?_
    simpa [exceptionMarks] using (Marked.advance s).before (h₁.append (h₂.andThen h₃))
  refine .check (fun hk => .advance <| close (some _) _ (.word ?_)) fun _ => close none _ (.refl s₁)
  rw [hk]
  decide

/-- The marks of a handler. -/
def handlerMarks (h : Handler) : List Mark := exceptionMarks e h.exception h.binding
  ++ h.body.statements.flatMap fun stmt => (Node.statement stmt).trace e

theorem marks_handler (hi : inner.Marks) : Marks (handler? inner context) fun o =>
    o.toList.flatMap (handlerMarks context.enclosure) := by
  intro s
  refine .here <| .accept (fun _ => ?_) fun _ => .pure (.refl s)
  refine (marks_handlerException context.enclosure hi _).andThen fun exception s₁ h₁ => ?_
  refine (marks_block hi context _).andThen fun body s₂ h₂ => .spanFrom <| .pure ?_
  simpa [handlerMarks] using (Marked.advance s).before (h₁.append h₂)

theorem marks_tryStatement (hi : inner.Marks) : Marks (tryStatement inner context) fun stmt =>
    (Node.statement stmt).trace context.enclosure := by
  intro s
  refine .here <| .advance <| (marks_block hi context _).andThen fun body s₁ h₁ => ?_
  refine ((marks_handler context hi).many _).andThen fun handlers s₂ h₂ => ?_
  have close : ∀ s₃, Marked s₂ [] s₃ →
      After (Grammar.node (Stmt.mk (.tryCatch body handlers)) s.here) s₃ fun stmt s' =>
        Marked s ((Node.statement stmt).trace context.enclosure) s' := by
    intro s₃ h₃
    refine .node <| ((Marked.advance s).before ((h₁.append h₂).andThen h₃)).node fun m => ?_
    simp [handlerMarks, exceptionMarks, and_or_left, exists_or, or_assoc, or_left_comm, or_comm]
  refine .ite (fun _ => ?_) fun _ => close _ (.refl _)
  exact ((fails_reportUnexpected _).unmarked _).andThen fun _ s₃ h₃ => close s₃ h₃

theorem marks_closedBlock (hi : inner.Marks) : Marks (closedBlock inner context) fun b =>
    b.statements.flatMap fun stmt => (Node.statement stmt).trace context.enclosure := by
  intro s
  refine (marks_block hi context s).andThen fun body s₁ h₁ => ?_
  exact (unmarked_accept _ _).andThen fun _ s₂ h₂ => .pure (h₁.andThen h₂)

theorem marks_throwStatement (hi : inner.Marks) : Marks (throwStatement inner context) fun stmt =>
    (Node.statement stmt).trace context.enclosure := by
  intro s
  refine .here <| .advance <| .accept (fun _ => .node ?_) fun _ => ?_
  · exact ((Marked.advance s).before (.advance _)).node fun m => by simp
  refine .check (fun _ => ?_) fun _ => ?_
  · refine (marks_closedBlock context hi _).andThen fun body s₁ h₁ => .node ?_
    exact ((Marked.advance s).before h₁).node fun m => by simp
  refine (hi.expression context.enclosure _).andThen fun message s₁ h₁ => ?_
  refine .check (fun _ => ?_) fun _ => ?_
  · have close : ∀ message,
        Marked s.advanced ((Node.expression message).trace context.enclosure) s₁ →
        After (do
          let body ← closedBlock inner context
          Grammar.node (Stmt.mk (.throwValue (some message) (some body))) s.here) s₁
          fun stmt s' => Marked s ((Node.statement stmt).trace context.enclosure) s' := by
      intro message h₁
      refine (marks_closedBlock context hi _).andThen fun body s₂ h₂ => .node ?_
      exact ((Marked.advance s).before (h₁.append h₂)).node fun m => by simp
    refine close _ ?_
    obtain ⟨form, span, id⟩ := message
    dsimp only
    split
    · -- parentheses have no marks of their own
      refine h₁.covers (.of_iff fun m => ?_)
      simp [Node.trace_eq _ (.expression ⟨.group _, _, _⟩)]
    · exact h₁
  · refine (unmarked_expectSemicolon _ _).andThen fun _ s₂ h₂ => .node ?_
    exact ((Marked.advance s).before (h₁.andThen h₂)).node fun m => by simp

theorem marks_assertStatement (hi : inner.Marks) :
    Marks (assertStatement inner) fun stmt => (Node.statement stmt).trace e := by
  intro s
  refine .here <| .advance <| (unmarked_consume _ _ _).andThen fun _ s₁ h₁ => ?_
  refine (hi.expression e _).andThen fun condition s₂ h₂ => ?_
  refine (unmarked_consume _ _ _).andThen fun _ s₃ h₃ => ?_
  refine (unmarked_expectSemicolon _ _).andThen fun _ s₄ h₄ => .node ?_
  have h := h₁.before (h₂.andThen (h₃.before h₄))
  exact ((Marked.advance s).before h).node fun m => by simp

theorem marks_asmStatement : Marks asmStatement fun stmt => (Node.statement stmt).trace e := fun s =>
  .here <| (unmarked_asmBody s).andThen fun _ _ h => .node <| h.node fun m => by simp

theorem marks_lockStatement (hi : inner.Marks) (which : LockKind) :
    Marks (lockStatement inner context which) fun stmt =>
      (Node.statement stmt).trace context.enclosure := by
  intro s
  refine .here <| .advance <| (marks_qualifiedName _ _).andThen fun scope s₁ h₁ => ?_
  have close : ∀ (body : Option Block) s₂, Marked s₁ (body.toList.flatMap fun b =>
        b.statements.flatMap fun stmt => (Node.statement stmt).trace context.enclosure) s₂ →
      After (Grammar.node (Stmt.mk (.lock which scope body)) s.here) s₂
        fun stmt s' => Marked s ((Node.statement stmt).trace context.enclosure) s' :=
    fun _ _ h₂ => .node <| ((Marked.advance s).before (h₁.append h₂)).node fun m => by simp
  refine .check (fun _ => ?_) fun _ => ?_
  · refine .bind <| .map <| (marks_closedBlock context hi _).mono fun body s₂ h₂ => ?_
    exact close (some body) s₂ (by simpa using h₂)
  · exact (unmarked_expectSemicolon _ _).andThen fun _ s₂ h₂ => close none s₂ h₂

theorem marks_blockStatement (hi : inner.Marks) : Marks (blockStatement inner context) fun stmt =>
    (Node.statement stmt).trace context.enclosure := by
  intro s
  refine (marks_block hi context s).andThen fun body s₁ h₁ => .nodeAt ?_
  exact h₁.node fun m => by simp

/-! ## Statements -/

theorem marks_keywordStatement (hi : inner.Marks) :
    Marks (keywordStatement inner context) fun o =>
      o.toList.flatMap fun stmt => (Node.statement stmt).trace context.enclosure := by
  have found : ∀ {p : Parser Stmt},
      (Marks p fun stmt => (Node.statement stmt).trace context.enclosure) →
      Marks (some <$> p) fun o =>
        o.toList.flatMap fun stmt => (Node.statement stmt).trace context.enclosure := fun hp s =>
    .map <| (hp s).mono fun _ _ h => by simpa using h
  intro s
  refine .kind ?_
  split
  case h_1 => exact found (marks_ifStatement context hi) s
  case h_2 => exact found (marks_whileStatement context hi) s
  case h_3 => exact found (marks_doStatement context hi) s
  case h_4 => exact found (marks_forStatement context hi) s
  case h_5 => exact found (marks_switchStatement context hi) s
  case h_6 => exact found (marks_returnStatement _ hi) s
  case h_7 => exact found (marks_breakStatement context) s
  case h_8 => exact found (marks_continueStatement context) s
  case h_9 => exact found (marks_tryStatement context hi) s
  case h_10 => exact found (marks_throwStatement context hi) s
  case h_11 => exact found (marks_assertStatement _ hi) s
  case h_12 => exact found (marks_asmStatement _) s
  case h_13 | h_14 | h_15 => exact found (marks_lockStatement context hi _) s
  case h_16 => exact found (marks_blockStatement context hi) s
  case h_17 => exact .pure (.refl s)

theorem marks_plainStatement (hi : inner.Marks) : Marks (plainStatement inner context) fun stmt =>
    (Node.statement stmt).trace context.enclosure := by
  intro s
  refine (marks_keywordStatement context hi s).andThen fun o s₁ h₁ => ?_
  cases o with
  | some stmt => exact .pure (by simpa using h₁)
  | none => exact (marks_expressionStatement _ hi s₁).mono fun _ _ h₂ => h₁.before h₂

theorem marks_blockItem (hi : inner.Marks) : Marks (blockItem inner context)
    (List.flatMap fun stmt => (Node.statement stmt).trace context.enclosure) := by
  intro s
  refine (marks_keywordStatement context hi s).andThen fun o s₁ h₁ => ?_
  cases o with
  | some stmt => exact .pure (by simpa using h₁)
  | none =>
    refine (marks_declarationBody context.enclosure hi context s₁).andThen fun o s₂ h₂ => ?_
    have h := h₁.before h₂
    cases o with
    | some decls => exact marks_declarationStatements _ h
    | none =>
      refine (marks_expressionStatement context.enclosure hi s₂).andThen fun stmt s₃ h₃ => .pure ?_
      simpa using h.before h₃

theorem marks_itemsBody (hi : inner.Marks) : Marks (itemsBody inner context)
    (List.flatMap fun stmt => (Node.statement stmt).trace context.enclosure) :=
  (marks_blockItem context hi).bodyItems

theorem marks_statementBody (hi : inner.Marks) : Marks (statementBody inner context) fun stmt =>
    (Node.statement stmt).trace context.enclosure := by
  intro s
  refine .here <| (marks_blockItem context hi s).andThen fun stmts s₁ h₁ => ?_
  dsimp only
  split
  · exact .pure (by simpa using h₁)
  · exact .spanFrom <| .nodeAt <| h₁.node fun m => by simp

/-! ## Levels -/

/-- A level over a level that leaves the marks of its results does so. -/
theorem Level.Marks.above {inner : Unit → Level} (h : (inner ()).Marks) :
    (Level.above inner).Marks where
  type e := marks_typeBody e h.expression h.type
  expression e := marks_expressionBody e h
  conditional e := marks_conditionalBody e h
  power e := marks_powerBody e h
  unary e := marks_unaryBody e h
  statement context := marks_statementBody context h
  items context s := .map (marks_itemsBody context h s)
  members context what e s := .map (marks_membersBody e h context what s)
  declaration context e := marks_declarationBody e h context
  skim := steady_typeBody steady_skippedSize h.skim

theorem fails_refuse (limit : Nat) : Fails (refuse limit) := fun s ms =>
  .current <| (fails_report (by decide) _ s ms).andThen fun _ s₁ h₁ =>
    .advance <| .pure (h₁.andThen (.advance s₁))

theorem fails_refuseNode {α : Type} (limit : Nat) (build : Span → NodeId → α) :
    Fails (refuseNode limit build) := fun s ms =>
  .here <| (fails_refuse limit s ms).andThen fun _ s₁ h₁ => .node (h₁.andThen (.stamp s₁))

/-- The level without room counts an error for everything that it is asked for. -/
theorem Level.marks_full (limit : Nat) : (Level.full limit).Marks where
  type _ s := fails_refuseNode limit _ s _
  expression _ s := fails_refuseNode limit _ s _
  conditional _ s := fails_refuseNode limit _ s _
  power _ s := fails_refuseNode limit _ s _
  unary _ s := fails_refuseNode limit _ s _
  statement context s := .here <| (fails_refuse limit s [.hole]).andThen fun _ _ h₁ =>
    .spanFrom <| marks_placeholderStatement context.enclosure h₁ _
  items _ s := (fails_refuse limit s _).andThen fun _ _ h => .pure h
  members _ _ _ s := (fails_refuse limit s _).andThen fun _ _ h => .pure h
  declaration _ _ s := (fails_refuse limit s _).andThen fun _ _ h => .pure h
  skim := steady_refuseNode limit _

theorem marks_grammar (limit room : Nat) : (grammar limit room).Marks := by
  unfold grammar
  induction room with
  | zero => exact Level.marks_full limit
  | succ room ih => exact ih.above

/-! ## Programs -/

theorem marks_topLevelItem (config : Config) (hi : inner.Marks) :
    Marks (topLevelItem config inner) (List.flatMap fun d => (Node.declaration d).trace {}) := by
  intro s
  refine (marks_declarationBody {} hi .topLevel s).andThen fun o s₁ h₁ => ?_
  cases o with
  | some decls => exact .pure h₁
  | none =>
    refine (marks_plainStatement .topLevel hi s₁).andThen fun stmt s₂ h₂ => ?_
    have close : ∀ s₃, Marked s₂ [] s₃ → After (do
        return [← nodeAt (Decl.mk (.statement stmt)) stmt.span]) s₃ fun ds s' =>
          Marked s (ds.flatMap fun d => (Node.declaration d).trace {}) s' := by
      intro s₃ h₃
      refine .bind <| .nodeAt <| .pure ?_
      rw [List.flatMap_singleton]
      exact (h₁.before (h₂.andThen h₃)).node fun m => by simp [Context.enclosure, Context.topLevel]
    refine .ite (fun _ => close _ (.refl _)) fun _ => ?_
    refine (unmarked_reportStructural (by decide) rfl _ _ _).andThen fun _ s₃ h₃ => close s₃ h₃

/-- A program leaves its marks. -/
theorem marks_program (config : Config) : Marks (leveledProgram config) Program.trace := by
  intro s
  refine .here <| ((marks_topLevelItem config (marks_grammar _ _)).bodyItems s).andThen
    fun declarations s₁ h₁ => ?_
  exact .get <| .pure h₁

end FluxFront.Grammar
