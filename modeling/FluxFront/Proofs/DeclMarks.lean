import FluxFront.Proofs.ExprMarks

/-!
# The marks of declarations

Declarations leave the marks of what they declare whatever stands around them: a jump inside one of
them is inside the body of a function or of an operator, where the loops around it do not count.

* **Crux**: marks are there once and for all.  Where a type is copied for the next variable, or the
  names of template parameters go to every declaration behind them, their marks are there already.
-/

namespace FluxFront.Grammar

open Token (Kind)

variable {inner : Level} (e : Enclosure)

/-! ## Bodies of declarations -/

theorem fails_reportNoDeclaration (place : String) : Fails (reportNoDeclaration place) :=
  fun s ms => .current <| fails_report (by decide) _ s ms

theorem marks_memberBody (hi : inner.Marks) (context : Context) (what : String) :
    Marks (memberBody inner context what)
      (List.flatMap fun d => (Node.declaration d).trace e) := by
  intro s
  refine (unmarked_consume _ _ _).andThen fun _ s₁ h₁ => ?_
  refine (hi.members context what e s₁).andThen fun o s₂ h₂ => ?_
  cases o with
  | none => exact .pure (h₁.before h₂)
  | some members =>
    refine (unmarked_consume _ _ _).andThen fun _ s₃ h₃ => .pure ?_
    exact h₁.before (h₂.andThen h₃)

theorem marks_namespaceDecl (hi : inner.Marks) :
    Marks (namespaceDecl inner) fun d => (Node.declaration d).trace e := by
  intro s
  refine .here <| .advance <| (marks_consumeName _ _).andThen fun name s₁ h₁ => ?_
  have close : ∀ (members : List Decl) s₂,
      Marked s₁ (members.flatMap fun d => (Node.declaration d).trace e) s₂ →
      After (Grammar.node (Decl.mk (.namespaceDecl name members)) s.here) s₂
        fun d s' => Marked s ((Node.declaration d).trace e) s' := fun members s₂ h₂ =>
    .node <| ((Marked.advance s).before (h₁.append h₂)).node fun m => by simp
  refine .check (fun _ => ?_) fun _ => ?_
  · refine (marks_memberBody e hi _ _ _).andThen fun members s₂ h₂ => ?_
    exact (unmarked_accept _ _).andThen fun _ s₃ h₃ => close members s₃ (h₂.andThen h₃)
  · exact ((fails_reportUnexpected _).unmarked _).andThen fun _ s₂ h₂ => close [] s₂ h₂

theorem marks_inheritanceEntry (isClass : Bool) :
    Marks (inheritanceEntry isClass) fun entry => blanks entry.2.segments := by
  intro s
  refine .here <| (unmarked_accept _ _).andThen fun excluded s₁ h₁ => ?_
  refine (marks_qualifiedName _ _).andThen fun base s₂ h₂ => .ite (fun _ => .spanFrom ?_) fun _ => ?_
  · refine (unmarked_reportStructural (by decide) rfl _ _ _).andThen fun _ s₃ h₃ => .pure ?_
    exact h₁.before (h₂.andThen h₃)
  · exact .pure (h₁.before h₂)

/-- The names in an inheritance list are among its entries. -/
theorem covers_class (isClass : Bool) (name : String) (entries : List (Bool × QualifiedName))
    (members : List Decl) (isForward : Bool) (span : Span) (id : NodeId) :
    Covers (blanks [name] ++ (entries.flatMap fun entry => blanks entry.2.segments)
        ++ members.flatMap fun d => (Node.declaration d).trace e)
      ((Node.declaration ⟨if isClass then
          .classDecl name ((entries.filter (!·.1)).map (·.2)) ((entries.filter (·.1)).map (·.2))
            members isForward
        else .objectDecl name ((entries.filter (!·.1)).map (·.2)) members isForward,
        span, id⟩).trace e) := by
  rw [Node.trace_eq]
  cases isClass
  · constructor
    · -- an object keeps the entries that are not excluded
      intro m hm
      have hm' : m ∈ blanks [name]
          ∨ (m = .blank ∧ ∃ base, (false, base) ∈ entries ∧ "" ∈ base.segments)
          ∨ m ∈ members.flatMap fun d => (Node.declaration d).trace e := by
        simpa [and_or_left, or_assoc] using hm
      rcases hm' with h | ⟨rfl, base, hbase, hblank⟩ | h
      · exact List.mem_append_left _ (List.mem_append_left _ h)
      · have hentry : .blank ∈ blanks base.segments := mem_blanks.2 ⟨rfl, hblank⟩
        exact List.mem_append_left _ (List.mem_append_right _
          (List.mem_flatMap.2 ⟨(false, base), hbase, hentry⟩))
      · exact List.mem_append_right _ h
    · simp
  · constructor
    · intro m
      simp [and_or_left, or_left_comm, or_comm]
    · simp

theorem marks_classOrObject (hi : inner.Marks) :
    Marks (classOrObject inner) fun d => (Node.declaration d).trace e := by
  intro s
  refine .here <| .advance <| (marks_consumeName _ _).andThen fun name s₁ h₁ => ?_
  generalize (s.current.kind == .kwClass) = isClass
  have body : ∀ (entries : List (Bool × QualifiedName)) s₂,
      Marked s₁ (entries.flatMap fun entry => blanks entry.2.segments) s₂ → After (do
      let bases := (entries.filter (!·.1)).map (·.2)
      let exclusions := (entries.filter (·.1)).map (·.2)
      let isForward ← accept .semicolon
      let members ← do
        if isForward then pure []
        else
          let members ←
            if isClass then memberBody inner (.within .classBody) "class"
            else memberBody inner (.within .objectBody) "object"
          let _ ← accept .semicolon
          pure members
      Grammar.node (Decl.mk (if isClass then .classDecl name bases exclusions members isForward
        else .objectDecl name bases members isForward)) s.here : Parser Decl) s₂
      fun d s' => Marked s ((Node.declaration d).trace e) s' := by
    intro entries s₂ h₂
    have head := (Marked.advance s).before (h₁.append h₂)
    have close : ∀ isForward (members : List Decl) s₃,
        Marked s₂ (members.flatMap fun d => (Node.declaration d).trace e) s₃ → _ :=
      fun isForward members s₃ h₃ =>
        ((head.append h₃).covers (covers_class e isClass name entries members isForward
          (s₃.spanFrom s.here) s₃.nextId)).andThen (.stamp s₃)
    refine .accept (fun _ => .node <| close true [] _ (.advance _)) fun _ => ?_
    cases isClass <;>
      refine (marks_memberBody e hi _ _ _).andThen fun members s₃ h₃ =>
        (unmarked_accept _ _).andThen fun _ s₄ h₄ => .node ?_ <;>
      exact close false members s₄ (h₃.andThen h₄)
  refine .accept (fun _ => ?_) fun _ => body [] _ (.refl _)
  refine ((marks_inheritanceEntry isClass).commaSeparated _).andThen fun entries s₂ h₂ => ?_
  exact body entries s₂ ((Marked.advance s₁).before h₂)

/-! ## Structs, functions, operators -/

/-- A copy of a type has its marks. -/
theorem After.duplicateMarked {β : Type} {s s₀ : State} {ms : List Mark} {t : Ty}
    {q : Ty → Parser β} {R : β → State → Prop} (h : Marked s₀ ms s)
    (hq : ∀ copy s', (Node.type copy).trace e = (Node.type t).trace e →
      Marked s₀ ms s' → After (q copy) s' R) :
    After (Grammar.duplicateType t >>= q) s R :=
  hq _ _ (Node.trace_freshCopy e (.type t) s.nextId) (h.andThen (.quiet rfl rfl rfl rfl rfl rfl))

/-- The marks of a typed name. -/
def bindingMarks (b : Binding) : List Mark := blanks [b.name] ++ (Node.type b.type).trace e

theorem marks_structFields (hi : inner.Marks) :
    Marks (structFields inner) (List.flatMap (bindingMarks e)) := by
  intro s
  refine .here <| (hi.type e s).andThen fun type s₁ h₁ => ?_
  refine (marks_consumeName _ _).andThen fun name s₂ h₂ => .spanFrom ?_
  refine (After.many (I := fun bs s' =>
      Marked s (blanks [name] ++ (Node.type type).trace e ++ bs.flatMap (bindingMarks e)) s')
    (fun bs s₃ h₃ => ?_) ?_).andThen fun more s₃ h₃ => ?_
  · refine .accept (fun _ => ?_) fun _ => .pure (by simpa using h₃)
    refine (marks_consumeName _ _).andThen fun next s₄ h₄ => ?_
    have h := h₃.append ((Marked.advance s₃).before h₄)
    refine .duplicateMarked e h fun copy s₅ hcopy h₅ => .spanFrom <| .pure ?_
    refine h₅.covers (.of_iff fun m => ?_)
    simp [bindingMarks, hcopy, and_or_left, exists_or, or_assoc, or_left_comm, or_comm]
  · refine (h₁.append h₂).covers (.of_iff fun m => ?_)
    simp [or_comm]
  · refine (unmarked_expectSemicolon _ _).andThen fun _ s₄ h₄ => .pure ?_
    exact h₃.andThen h₄

theorem marks_structDecl (hi : inner.Marks) :
    Marks (structDecl inner) fun d => (Node.declaration d).trace e := by
  intro s
  refine .here <| .advance <| (marks_consumeName _ _).andThen fun name s₁ h₁ => ?_
  have head := (Marked.advance s).before h₁
  refine .accept (fun _ => .node ?_) fun _ => ?_
  · exact (head.andThen (.advance s₁)).node fun m => by simp
  · refine (unmarked_consume _ _ _).andThen fun _ s₂ h₂ => ?_
    refine ((marks_structFields e hi).bodyItems _).andThen fun fields s₃ h₃ => ?_
    refine (unmarked_consume _ _ _).andThen fun _ s₄ h₄ => ?_
    refine (unmarked_accept _ _).andThen fun _ s₅ h₅ => .node ?_
    refine ((head.andThen h₂).append (h₃.andThen (h₄.before h₅))).node fun m => ?_
    simp [bindingMarks, and_or_left, exists_or, or_assoc, or_comm]

theorem marks_parameter (hi : inner.Marks) : Marks (parameter inner) (bindingMarks e) := by
  intro s
  refine .here <| (hi.type e s).andThen fun type s₁ h₁ => ?_
  refine (marks_consumeName _ _).andThen fun name s₂ h₂ => .spanFrom <| .pure ?_
  refine (h₁.append h₂).covers (.of_iff fun m => ?_)
  simp [bindingMarks, or_comm]

theorem marks_parameters (hi : inner.Marks) :
    Marks (parameters inner) (List.flatMap (bindingMarks e)) := by
  intro s
  refine (unmarked_consume _ _ _).andThen fun _ s₁ h₁ => ?_
  have close : ∀ params s₂, Marked s₁ (List.flatMap (bindingMarks e) params) s₂ →
      After (do
        consume .rightParen "Expected ')' after parameters"
        return params) s₂ fun params s' => Marked s (params.flatMap (bindingMarks e)) s' := by
    intro params s₂ h₂
    refine (unmarked_consume _ _ _).andThen fun _ s₃ h₃ => .pure ?_
    exact h₁.before (h₂.andThen h₃)
  refine .check (fun _ => close [] _ (.refl _)) fun _ => ?_
  exact ((marks_parameter e hi).commaSeparated _).andThen close

theorem marks_functionDecl (hi : inner.Marks) (context : Context) :
    Marks (functionDecl inner context) fun d => (Node.declaration d).trace e := by
  intro s
  refine .here <| .advance <| (marks_consumeName _ _).andThen fun name s₁ h₁ => ?_
  -- what is inside the function does not know what is around it
  refine (marks_parameters {} hi _).andThen fun params s₂ h₂ => ?_
  refine (marks_resultType {} hi.type _).andThen fun result s₃ h₃ => ?_
  have close : ∀ (body : Option Block) s₄,
      Marked s₃ (body.toList.flatMap fun b =>
        b.statements.flatMap fun s => (Node.statement s).trace {}) s₄ →
      After (do
        let decl ← Grammar.node (Decl.mk (.functionDecl name params result body)) s.here
        if context.container = .classBody then
          reportStructural .functionInClass "Functions cannot be defined in a class; use an object"
            decl.span
        return decl) s₄ fun d s' => Marked s ((Node.declaration d).trace e) s' := by
    intro body s₄ h₄
    refine .bind <| .node ?_
    have h := (Marked.advance s).before (h₁.append (h₂.append (h₃.append h₄)))
    have hn := h.node (e := e) (n := .declaration ⟨.functionDecl name params result body,
      s₄.spanFrom s.here, s₄.nextId⟩) fun m => by
        simp [bindingMarks, and_or_left, exists_or, or_assoc, or_left_comm, or_comm]
    refine .ite (fun _ => ?_) fun _ => .pure hn
    refine (unmarked_reportStructural (by decide) rfl _ _ _).andThen fun _ s₅ h₅ => .pure ?_
    exact hn.andThen h₅
  refine .check (fun _ => ?_) fun _ => .accept (fun _ => ?_) fun _ => ?_
  · refine .bind <| .map <| (marks_block hi _ _).mono fun body s₄ h₄ => close (some body) s₄ ?_
    simpa using h₄
  · exact close none _ (.advance _)
  · exact ((fails_reportUnexpected _).unmarked _).andThen fun _ s₄ h₄ => close none s₄ h₄

theorem marks_operatorDecl (hi : inner.Marks) (context : Context) :
    Marks (operatorDecl inner context) fun d => (Node.declaration d).trace e := by
  intro s
  refine .here <| .advance <| (marks_parameters {} hi _).andThen fun params s₁ h₁ => ?_
  refine (unmarked_consume _ _ _).andThen fun _ s₂ h₂ => ?_
  have close : ∀ symbol s₃, Marked s₂ (blanks [symbol]) s₃ →
      After (do
        consume .rightBracket "Expected ']' after operator symbol"
        let result ← resultType inner.type
        let body ← block inner context.functionBody
        Grammar.node (Decl.mk (.operatorDecl symbol params result body)) s.here) s₃
        fun d s' => Marked s ((Node.declaration d).trace e) s' := by
    intro symbol s₃ h₃
    refine (unmarked_consume _ _ _).andThen fun _ s₄ h₄ => ?_
    refine (marks_resultType {} hi.type _).andThen fun result s₅ h₅ => ?_
    refine (marks_block hi _ _).andThen fun body s₆ h₆ => .node ?_
    have head := (Marked.advance s).before (h₁.andThen h₂)
    have h := head.append ((h₃.andThen h₄).append (h₅.append h₆))
    refine h.node fun m => ?_
    simp [bindingMarks, and_or_left, exists_or, or_assoc, or_left_comm, or_comm]
  refine After.checkAny_eq <| .ite (fun _ => ?_) fun hk => ?_
  · exact (fails_reportUnexpected _ _ _).andThen fun _ s₃ h₃ => close "" s₃ h₃
  · refine .advance <| close _ _ (.word ?_)
    intro he
    simp [he] at hk

/-! ## Imports, enumerations, aliases -/

theorem unmarked_importPath : Unmarked importPath := by
  intro s
  refine .check (fun _ => .advance ?_) fun _ => ?_
  · split <;> exact .pure (.advance s)
  · exact ((fails_reportUnexpected _).unmarked s).andThen fun _ _ h => .pure h

theorem marks_importDecl : Marks importDecl fun d => (Node.declaration d).trace e := by
  intro s
  refine .here <| .advance <| (unmarked_importPath _).andThen fun path s₁ h₁ => ?_
  have close : ∀ (newName : Option String) s₂, Marked s₁ (blanks newName.toList) s₂ →
      After (do
        expectSemicolon "import"
        Grammar.node (Decl.mk (.importFile path newName)) s.here) s₂
        fun d s' => Marked s ((Node.declaration d).trace e) s' := by
    intro newName s₂ h₂
    refine (unmarked_expectSemicolon _ _).andThen fun _ s₃ h₃ => .node ?_
    exact ((Marked.advance s).before (h₁.before (h₂.andThen h₃))).node fun m => by simp
  refine .accept (fun _ => ?_) fun _ => close none _ (.refl _)
  refine .bind <| .map <| (marks_consumeName _ _).mono fun name s₂ h₂ => ?_
  exact close (some name) s₂ ((Marked.advance s₁).before h₂)

theorem marks_usingDecl : Marks usingDecl fun d => (Node.declaration d).trace e := by
  intro s
  refine .here <| .advance <| (marks_qualifiedName _ _).andThen fun path s₁ h₁ => ?_
  refine (unmarked_expectSemicolon _ _).andThen fun _ s₂ h₂ => .node ?_
  exact ((Marked.advance s).before (h₁.andThen h₂)).node fun m => by simp

/-- The marks of a member of an enumeration. -/
def memberMarks (member : EnumMember) : List Mark :=
  blanks [member.name] ++ member.value.toList.flatMap fun x => (Node.expression x).trace e

theorem marks_enumMember (hi : inner.Marks) : Marks (enumMember inner) (memberMarks e) := by
  intro s
  refine .here <| (marks_consumeName _ _).andThen fun name s₁ h₁ => ?_
  have close : ∀ (value : Option Expr) s₂,
      Marked s₁ (value.toList.flatMap fun x => (Node.expression x).trace e) s₂ →
      After (do return { name, value, span := ← spanFrom s.here : EnumMember } : Parser _) s₂
        fun m s' => Marked s (memberMarks e m) s' :=
    fun _ _ h₂ => .spanFrom <| .pure (h₁.append h₂)
  refine .accept (fun _ => ?_) fun _ => close none _ (.refl _)
  refine .bind <| .map <| (hi.expression e _).mono fun value s₂ h₂ => close (some value) s₂ ?_
  simpa using (Marked.advance s₁).before h₂

theorem marks_enumDecl (hi : inner.Marks) :
    Marks (enumDecl inner) fun d => (Node.declaration d).trace e := by
  intro s
  refine .here <| .advance <| (marks_consumeName _ _).andThen fun name s₁ h₁ => ?_
  refine (unmarked_consume _ _ _).andThen fun _ s₂ h₂ => ?_
  refine ((marks_enumMember e hi).commaTerminated _).andThen fun members s₃ h₃ => ?_
  refine (unmarked_consume _ _ _).andThen fun _ s₄ h₄ => ?_
  refine (unmarked_accept _ _).andThen fun _ s₅ h₅ => .node ?_
  have h := (h₁.andThen h₂).append (h₃.andThen (h₄.before h₅))
  refine ((Marked.advance s).before h).node fun m => ?_
  simp [memberMarks, and_or_left, exists_or, or_assoc, or_comm]

theorem marks_typeAlias (hi : inner.Marks) :
    Marks (typeAlias inner) fun d => (Node.declaration d).trace e := by
  intro s
  refine .here <| .advance <| (marks_consumeName _ _).andThen fun name s₁ h₁ => ?_
  refine (unmarked_consume _ _ _).andThen fun _ s₂ h₂ => ?_
  refine (hi.type e _).andThen fun type s₃ h₃ => ?_
  refine (unmarked_expectSemicolon _ _).andThen fun _ s₄ h₄ => .node ?_
  have h := (h₁.andThen h₂).append (h₃.andThen h₄)
  exact ((Marked.advance s).before h).node fun m => by simp

theorem marks_asmDecl : Marks asmDecl fun d => (Node.declaration d).trace e := fun s =>
  .here <| (unmarked_asmBody s).andThen fun _ _ h => .node <| h.node fun m => by simp

theorem marks_dataDecl : Marks dataDecl fun d => (Node.declaration d).trace e := by
  intro s
  refine .here <| (unmarked_dataLayout s).andThen fun layout s₁ h₁ => ?_
  refine (unmarked_consume _ _ _).andThen fun _ s₂ h₂ => ?_
  refine (marks_consumeName _ _).andThen fun name s₃ h₃ => ?_
  refine (unmarked_expectSemicolon _ _).andThen fun _ s₄ h₄ => .node ?_
  exact ((h₁.before h₂).before (h₃.andThen h₄)).node fun m => by simp

/-! ## Templates -/

theorem marks_templateParams : Marks templateParams blanks := by
  intro s
  refine (unmarked_consume _ _ _).andThen fun _ s₁ h₁ => ?_
  have close : ∀ (params : List String) s₂,
      Marked s₁ (params.flatMap fun name => blanks [name]) s₂ →
      After (do
        consumeClosingAngle "Expected '>' after template parameters"
        return params) s₂ fun params s' => Marked s (blanks params) s' := by
    intro params s₂ h₂
    refine (unmarked_consumeClosingAngle _ _).andThen fun _ s₃ h₃ => .pure ?_
    refine (h₁.before (h₂.andThen h₃)).covers (.of_iff fun m => ?_)
    grind
  refine .checkAny fun b => ?_
  cases b
  · exact ((marks_consumeName _).commaSeparated _).andThen close
  · exact close [] _ (.refl _)

/-- What is made of declarations one after the other takes over their marks; marks of names may be
used many times. -/
theorem marks_replacements {α : Type} {s₀ : State} {f : Decl → Parser α} {marks : α → List Mark}
    (names : List String)
    (hf : ∀ d ms s, (∀ m ∈ blanks names ++ (Node.declaration d).trace e, m ∈ ms) →
      Marked s₀ ms s → After (f d) s fun a s' => Marked s₀ (ms ++ marks a) s'
        ∧ ∀ m ∈ (Node.declaration d).trace e, m ∈ marks a)
    {decls : List Decl} {s : State}
    (h : Marked s₀ (blanks names ++ decls.flatMap fun d => (Node.declaration d).trace e) s) :
    After (decls.mapM f) s fun as s' => Marked s₀ (as.flatMap marks) s' := by
  have run : ∀ (decls : List Decl) (ms : List Mark) (s : State), Marked s₀ ms s →
      (∀ m ∈ blanks names ++ decls.flatMap fun d => (Node.declaration d).trace e, m ∈ ms) →
      After (decls.mapM f) s fun as s' => Marked s₀ (ms ++ as.flatMap marks) s'
        ∧ ∀ m ∈ decls.flatMap fun d => (Node.declaration d).trace e, m ∈ as.flatMap marks := by
    intro decls
    induction decls with
    | nil =>
      intro ms s h _
      refine After.pure ⟨?_, fun _ hm => hm⟩
      simpa using h
    | cons d more ih =>
      intro ms s h hm
      simp only [List.flatMap_cons, List.forall_mem_append] at hm
      rw [List.mapM_cons]
      refine (hf d ms s (List.forall_mem_append.2 ⟨hm.1, hm.2.1⟩) h).andThen fun a s₁ h₁ => ?_
      have hmore : ∀ m ∈ blanks names ++ more.flatMap fun d => (Node.declaration d).trace e,
          m ∈ ms ++ marks a :=
        List.forall_mem_append.2 ⟨fun m h => List.mem_append_left _ (hm.1 m h),
          fun m h => List.mem_append_left _ (hm.2.2 m h)⟩
      refine (ih _ s₁ h₁.1 hmore).andThen fun as s₂ h₂ => .pure ⟨?_, ?_⟩
      · simpa using h₂.1
      · simp only [List.flatMap_cons, List.forall_mem_append]
        exact ⟨fun m hm => List.mem_append_left _ (h₁.2 m hm),
          fun m hm => List.mem_append_right _ (h₂.2 m hm)⟩
  refine (run decls _ s h fun _ hm => hm).mono fun as s' h' => h'.1.covers ⟨?_, ?_⟩
  · exact fun m => List.mem_append_right _
  · intro k hk
    simp only [List.mem_append, mem_blanks, reduceCtorEq, false_and, false_or] at hk
    exact hk.elim (h'.2 _) id

theorem marks_placeholderStatement {s s₀ : State} (h : Marked s₀ [.hole] s) (span : Span) :
    After (placeholderStatement span) s fun stmt s' =>
      Marked s₀ ((Node.statement stmt).trace e) s' := by
  have hole : Marked s₀ ((Node.expression ⟨.placeholder, span, s.nextId⟩).trace e) s.stamped :=
    h.node fun m => by simp
  exact .bind <| .nodeAt <| .nodeAt <| hole.node fun m => by simp

theorem marks_templateDecl (hi : inner.Marks) (context : Context) :
    Marks (templateDecl inner context) (List.flatMap fun d => (Node.declaration d).trace e) := by
  intro s
  refine .here <| .advance <| (marks_templateParams _).andThen fun params s₁ h₁ => ?_
  have close : ∀ (decls : List Decl) s₂,
      Marked s₁ (decls.flatMap fun d => (Node.declaration d).trace e) s₂ →
      After (do
        let span ← spanFrom s.here
        decls.mapM fun decl => nodeAt (Decl.mk (.template params decl)) span) s₂
        fun ds s' => Marked s (ds.flatMap fun d => (Node.declaration d).trace e) s' := by
    intro decls s₂ h₂
    have hparams : Marked s (blanks params ++ decls.flatMap fun d => (Node.declaration d).trace e) s₂ :=
      (Marked.advance s).before (h₁.append h₂)
    refine .spanFrom <| marks_replacements e params (fun d ms s₃ hms h₃ => ?_) hparams
    have htrace : ∀ m span id, m ∈ (Node.declaration ⟨.template params d, span, id⟩).trace e
        ↔ m ∈ blanks params ++ (Node.declaration d).trace e := by
      intro m span id
      rw [Node.trace_eq]
      simp
    refine .nodeAt ⟨(h₃.covers ?_).andThen (.stamp s₃), ?_⟩
    · refine .of_iff fun m => ?_
      rw [List.mem_append, htrace]
      exact ⟨fun h => h.elim id (hms m), .inl⟩
    · intro m hm
      rw [htrace]
      exact List.mem_append_right _ hm
  refine (hi.declaration context e _).andThen fun o s₂ h₂ => ?_
  cases o with
  | some decls => exact close decls s₂ h₂
  | none =>
    refine (fails_reportNoDeclaration _ _ [.hole]).andThen fun _ s₃ h₃ => .emptySpan ?_
    have hole : Marked s₁ [.hole] s₃.reached := (h₂.append h₃).andThen (.reach s₃)
    refine (marks_placeholderStatement e hole _).andThen fun stmt s₄ h₄ => .bind <| .nodeAt ?_
    refine close _ _ ?_
    rw [List.flatMap_singleton]
    exact h₄.node fun m => by simp

/-! ## Variables -/

theorem marks_finishFunctionPointer (hi : inner.Marks) {s s₀ : State} {ms : List Mark} {type : Ty}
    (h : Marked s₀ (ms ++ (Node.type type).trace e) s) :
    After (finishFunctionPointer inner type) s fun t s' =>
      Marked s₀ (ms ++ (Node.type t).trace e) s' := by
  obtain ⟨form, span, id⟩ := type
  unfold finishFunctionPointer
  dsimp only
  split
  · rename_i pointee qualifiers
    refine .accept (fun _ => ?_) fun _ => .pure h
    refine (marks_typeList e hi.type _ _).andThen fun params s₁ h₁ => ?_
    refine (unmarked_consume _ _ _).andThen fun _ s₂ h₂ => .spanFrom <| .bind <| .nodeAt <| .pure ?_
    -- what the pointer pointed to is now the result of the function it points to
    have hp := (h.andThen (.advance s)).append (h₁.andThen h₂)
    refine (hp.covers (.of_iff fun m => ?_)).andThen (.stamp s₂)
    rw [Node.trace_eq e (.type ⟨.pointer _ _, _, _⟩), Node.trace_eq e (.type ⟨.pointer _ _, _, _⟩)]
    simp [Node.trace_eq e (.type ⟨.function _ _, _, _⟩), or_comm]
  · exact .pure h

/-- The marks of what a variable is made of, its initial value apart. -/
def variableMarks (type : Ty) (name : String) (instantiation : Option (List Expr)) : List Mark :=
  blanks [name] ++ (Node.type type).trace e
    ++ (instantiation.getD []).flatMap fun x => (Node.expression x).trace e

/-- A variable is made of what is there already and of its initial value. -/
theorem marks_declarator (hi : inner.Marks) {s s₀ : State} {ms : List Mark} (start : Location)
    (qualifiers : Qualifiers) {type : Ty} {name : String} {instantiation : Option (List Expr)}
    (h : Marked s₀ ms s) (hm : ∀ m ∈ variableMarks e type name instantiation, m ∈ ms) :
    After (declarator inner start qualifiers type name instantiation) s fun d s' =>
      Marked s₀ (ms ++ (Node.declaration d).trace e) s'
        ∧ ∀ m ∈ variableMarks e type name instantiation, m ∈ (Node.declaration d).trace e := by
  have close : ∀ (initializer : Option Expr) s₁,
      Marked s (initializer.toList.flatMap fun x => (Node.expression x).trace e) s₁ →
      After (Grammar.node (Decl.mk (.variable { type, name, initializer, qualifiers, instantiation }))
        start) s₁ fun d s' => Marked s₀ (ms ++ (Node.declaration d).trace e) s'
          ∧ ∀ m ∈ variableMarks e type name instantiation, m ∈ (Node.declaration d).trace e := by
    intro initializer s₁ h₁
    have htrace : ∀ m span id, m ∈ (Node.declaration ⟨.variable ⟨type, name, initializer,
        qualifiers, instantiation⟩, span, id⟩).trace e
        ↔ m ∈ variableMarks e type name instantiation
          ++ initializer.toList.flatMap fun x => (Node.expression x).trace e := by
      intro m span id
      rw [Node.trace_eq]
      simp [variableMarks]
    refine .node ⟨((h.append h₁).covers (.of_iff fun m => ?_)).andThen (.stamp s₁), fun m hv => ?_⟩
    · rw [List.mem_append, htrace, List.mem_append, List.mem_append]
      exact ⟨fun h => h.elim .inl (Or.imp_left (hm m)), Or.imp_right .inr⟩
    · rw [htrace]
      exact List.mem_append_left _ hv
  refine .accept (fun _ => ?_) fun _ => close none _ (.refl s)
  refine .bind <| .map <| (hi.expression e _).mono fun value s₁ h₁ => close (some value) s₁ ?_
  simpa using (Marked.advance s).before h₁

theorem marks_finishVariables (hi : inner.Marks) {s s₀ : State} (start : Location)
    (qualifiers : Qualifiers) {type : Ty} {name : String} {instantiation : Option (List Expr)}
    (h : Marked s₀ (variableMarks e type name instantiation) s) :
    After (finishVariables inner start qualifiers type name instantiation) s fun ds s' =>
      Marked s₀ (ds.flatMap fun d => (Node.declaration d).trace e) s' := by
  refine (marks_declarator e hi start qualifiers h fun _ hm => hm).andThen fun first s₁ h₁ => ?_
  have hfirst : Marked s₀ ((Node.declaration first).trace e) s₁ := by
    refine h₁.1.covers ⟨fun m => List.mem_append_right _, fun k hk => ?_⟩
    exact (List.mem_append.1 hk).elim (h₁.2 _) id
  refine (After.many (I := fun ds s' => Marked s₀ ((Node.declaration first).trace e
      ++ ds.flatMap fun d => (Node.declaration d).trace e) s') (fun ds s₂ h₂ => ?_)
    (by simpa using hfirst)).andThen fun more s₂ h₂ => ?_
  · refine .accept (fun _ => ?_) fun _ => .pure (by simpa using h₂)
    refine (marks_consumeName _ _).andThen fun next s₃ h₃ => ?_
    have h := h₂.append ((Marked.advance s₂).before h₃)
    refine .duplicateMarked e h fun copy s₄ hcopy h₄ => ?_
    -- the first variable has the marks of the type
    have hparts : ∀ m ∈ variableMarks e copy next none,
        m ∈ (Node.declaration first).trace e
          ++ (ds.flatMap fun d => (Node.declaration d).trace e) ++ blanks [next] := by
      intro m hm
      have htype : m ∈ (Node.type type).trace e → m ∈ (Node.declaration first).trace e :=
        fun ht => h₁.2 m (by simp [variableMarks, ht])
      grind [variableMarks]
    refine (marks_declarator e hi start qualifiers h₄ hparts).andThen fun d s₅ h₅ => .pure ?_
    refine h₅.1.covers ⟨fun m hm => ?_, fun k hk => ?_⟩
    · grind
    · grind
  · refine (unmarked_expectSemicolon _ _).andThen fun _ s₃ h₃ => .pure ?_
    exact h₂.andThen h₃

theorem marks_variableDecl (hi : inner.Marks) :
    Marks (variableDecl inner) (List.flatMap fun d => (Node.declaration d).trace e) := by
  intro s
  refine .here <| (unmarked_qualifiers s).andThen fun qualifiers s₁ h₁ => ?_
  refine (hi.type e _).andThen fun type s₂ h₂ => ?_
  refine (marks_consumeName _ _).andThen fun name s₃ h₃ => ?_
  have h : Marked s (blanks [name] ++ (Node.type type).trace e) s₃ :=
    (h₁.before (h₂.append h₃)).covers (.of_iff fun m => by simp [or_comm])
  refine (marks_finishFunctionPointer e hi h).andThen fun type s₄ h₄ => ?_
  exact marks_finishVariables e hi _ qualifiers (by simpa [variableMarks] using h₄)

theorem marks_instantiationArgs (hi : inner.Marks) :
    Marks (instantiationArgs inner) (List.flatMap fun x => (Node.expression x).trace e) := by
  intro s
  refine .accept (fun _ => ?_) fun _ => .pure (.refl s)
  refine (marks_arguments e hi _ _).andThen fun args s₁ h₁ => ?_
  refine (unmarked_consume _ _ _).andThen fun _ s₂ h₂ => .pure ?_
  exact (Marked.advance s).before (h₁.andThen h₂)

theorem marks_nameLedDecl (hi : inner.Marks) : Marks (nameLedDecl inner) fun o =>
    (o.getD []).flatMap fun d => (Node.declaration d).trace e := by
  intro s
  refine .unmoved ((probe_declaratorForm hi.skim).state_eq s) fun o => ?_
  cases o with
  | none => exact .current <| (unmarked_note _ _).andThen fun _ s₁ h₁ => .pure h₁
  | some form =>
    refine .here <| .position <| (hi.type e _).andThen fun type s₁ h₁ => ?_
    cases form with
    | named =>
      refine (marks_consumeName _ _).andThen fun name s₂ h₂ => ?_
      have h : Marked s (blanks [name] ++ (Node.type type).trace e) s₂ :=
        (h₁.append h₂).covers (.of_iff fun m => by simp [or_comm])
      refine (marks_finishFunctionPointer e hi h).andThen fun type s₃ h₃ => ?_
      refine (unmarked_noteCommitted _ _ _).andThen fun _ s₄ h₄ => ?_
      have hv : Marked s (variableMarks e type name none) s₄ := by
        simpa [variableMarks] using h₃.andThen h₄
      exact (marks_finishVariables e hi _ _ hv).andThen fun ds s₅ h₅ => .pure h₅
    | instantiation =>
      refine (marks_instantiationArgs e hi _).andThen fun args s₂ h₂ => ?_
      refine (unmarked_consume _ _ _).andThen fun _ s₃ h₃ => ?_
      refine (unmarked_consume _ _ _).andThen fun _ s₄ h₄ => ?_
      refine (marks_consumeName _ _).andThen fun name s₅ h₅ => ?_
      refine (unmarked_noteCommitted _ _ _).andThen fun _ s₆ h₆ => ?_
      have h := ((h₁.append h₂).andThen (h₃.before h₄)).append (h₅.andThen h₆)
      have hv : Marked s (variableMarks e type name (some args)) s₆ := by
        refine h.covers (.of_iff fun m => ?_)
        grind [variableMarks]
      exact (marks_finishVariables e hi _ _ hv).andThen fun ds s₇ h₇ => .pure h₇

/-! ## Declarations -/

theorem marks_declarationBody (hi : inner.Marks) (context : Context) :
    Marks (declarationBody inner context) fun o =>
      (o.getD []).flatMap fun d => (Node.declaration d).trace e := by
  have one : ∀ {decl : Parser Decl}, (Marks decl fun d => (Node.declaration d).trace e) →
      Marks (declarationBody.one decl) fun o =>
        (o.getD []).flatMap fun d => (Node.declaration d).trace e := fun hd s =>
    (hd s).andThen fun _ _ h => .pure (by simpa using h)
  intro s
  refine .get ?_
  dsimp only
  split
  case h_1 => exact one (marks_namespaceDecl e hi) s
  case h_2 | h_3 => exact one (marks_classOrObject e hi) s
  case h_4 => exact one (marks_structDecl e hi) s
  case h_5 => exact one (marks_functionDecl e hi context) s
  case h_6 => exact one (marks_operatorDecl e hi context) s
  case h_7 => exact one (marks_importDecl e) s
  case h_8 => exact one (marks_usingDecl e) s
  case h_9 => exact .map (marks_templateDecl e hi context s)
  case h_10 => exact one (marks_enumDecl e hi) s
  case h_11 => exact one (marks_typeAlias e hi) s
  case h_12 => exact one (marks_asmDecl e) s
  case h_13 => exact marks_nameLedDecl e hi s
  case h_14 =>
    refine .ite (fun _ => one (marks_dataDecl e) s) fun _ => ?_
    exact .ite (fun _ => .map (marks_variableDecl e hi s)) fun _ => .pure (.refl s)

theorem marks_membersBody (hi : inner.Marks) (context : Context) (what : String) :
    Marks (membersBody inner context what)
      (List.flatMap fun d => (Node.declaration d).trace e) := by
  refine .bodyItems fun s => ?_
  refine (marks_declarationBody e hi context s).andThen fun o s₁ h₁ => ?_
  cases o with
  | some decls => exact .pure h₁
  | none =>
    refine ((fails_reportNoDeclaration _).unmarked _).andThen fun _ s₂ h₂ => .pure ?_
    exact h₁.andThen h₂

end FluxFront.Grammar
