import FluxFront.Proofs.ExprProductions

/-!
# What declarations build

The productions of declarations.  A declaration of several variables is built from left to right:
the type goes to the first variable, and every further one takes a copy of it while the variables in
front of it are already there.
-/

namespace FluxFront.Grammar

open Token (Kind)

variable {strict : Prop} {inner : Level}

/-! ## Bodies -/

theorem reads_reportNoDeclaration (place : String) : Reads (reportNoDeclaration place) :=
  reads_current.bind fun _ => reads_report _ _ _

theorem memberBody_makes (hi : inner.Makes strict) (context : Context) (what : String) :
    Makes strict (memberBody inner context what) (List.map .declaration) := by
  intro s
  refine (reads_consume _ _ _).andThen fun _ s₁ h₁ => ?_
  refine (hi.members context what s₁).andThen fun o s₂ h₂ => ?_
  cases o with
  | none => exact .pure (h₂.behind h₁)
  | some members =>
    exact (reads_consume _ _ _).andThen fun _ s₃ h₃ => .pure ((h₂.andThen h₃).behind h₁)

theorem namespaceDecl_makes (hi : inner.Makes strict) {s : State} (hk : s.current.kind ≠ .eof) :
    After (namespaceDecl inner) s fun d s' => Builds strict s [.declaration d] s' := by
  refine .here <| .advance <| (reads_consumeName _ _).andThen fun name s₁ h₁ => ?_
  have close : ∀ members s₂, Builds strict s₁ (members.map .declaration) s₂ →
      After (node (Decl.mk (.namespaceDecl name members)) s.here) s₂
        fun d s' => Builds strict s [.declaration d] s' :=
    fun members s₂ h₂ => .node <| .read _ (h₂.behind h₁) hk rfl rfl
  refine .check (fun _ => ?_) fun _ => ?_
  · refine (memberBody_makes hi _ _ _).andThen fun members s₂ h₂ => ?_
    exact (reads_accept _ _).andThen fun _ s₃ h₃ => close members s₃ (h₂.andThen h₃)
  · exact (reads_reportUnexpected _ _).andThen fun _ s₂ h₂ => close [] s₂ (.steps h₂)

theorem reads_inheritanceEntry (isClass : Bool) : Reads (inheritanceEntry isClass) := by
  refine Reads.bind (.of_same fun _ => rfl) fun start => (reads_accept _).bind fun excluded => ?_
  refine (reads_qualifiedName _).bind fun base => .ite ?_ (.pure _)
  refine Reads.bind (.of_same fun _ => rfl) fun span => ?_
  exact (reads_reportStructural _ _ _).bind fun _ => .pure _

theorem Reads.commaSeparated {α : Type} {item : Parser α} (h : Reads item) :
    Reads (commaSeparated item) := by
  refine h.bind fun first => Reads.bind (.many ((reads_accept _).bind fun b => ?_)) fun _ => .pure _
  cases b
  · exact .pure _
  · exact h.bind fun _ => .pure _

theorem classOrObject_makes (hi : inner.Makes strict) {s : State} (hk : s.current.kind ≠ .eof) :
    After (classOrObject inner) s fun d s' => Builds strict s [.declaration d] s' := by
  refine .here <| .advance <| (reads_consumeName _ _).andThen fun name s₁ h₁ => ?_
  generalize (s.current.kind == .kwClass) = isClass
  have close : ∀ bases exclusions isForward members s₂,
      Builds strict s.advanced (members.map .declaration) s₂ →
      After (node (Decl.mk (if isClass then .classDecl name bases exclusions members isForward
        else .objectDecl name bases members isForward)) s.here) s₂
        fun d s' => Builds strict s [.declaration d] s' := by
    intro bases exclusions isForward members s₂ h₂
    refine .node <| .read _ ?_ hk rfl rfl
    cases isClass <;> exact h₂
  have body : ∀ (entries : List (Bool × QualifiedName)) s₂, Steps s₁ s₂ → After (do
      let bases := (entries.filter (!·.1)).map (·.2)
      let exclusions := (entries.filter (·.1)).map (·.2)
      let isForward ← accept .semicolon
      let members ← do
        if isForward then pure []
        else
          let members ←
            if isClass then memberBody inner (.within .classBody) "class"
            else memberBody inner (.within .objectBody) "object"
          let _ ← accept .semicolon
          pure members
      node (Decl.mk (if isClass then .classDecl name bases exclusions members isForward
        else .objectDecl name bases members isForward)) s.here : Parser Decl) s₂
      fun d s' => Builds strict s [.declaration d] s' := by
    intro entries s₂ h₂
    refine .accept (fun _ => ?_) fun _ => ?_
    · exact close _ _ _ [] _ (.steps ((h₁.trans h₂).trans (.advance _)))
    · cases isClass <;>
        refine (memberBody_makes hi _ _ _).andThen fun members s₃ h₃ =>
          (reads_accept _ _).andThen fun _ s₄ h₄ => close _ _ _ members s₄ ?_ <;>
        exact (h₃.andThen h₄).behind (h₁.trans h₂)
  refine .accept (fun _ => ?_) fun _ => body [] _ (.refl _)
  refine ((reads_inheritanceEntry isClass).commaSeparated _).andThen fun entries s₂ h₂ => ?_
  exact body entries s₂ ((Steps.advance s₁).trans h₂)

/-! ## Structs, functions, operators -/

/-- Copying a type that is there already. -/
theorem After.duplicateType {β : Type} {s s₀ : State} {before : List Node} {t : Ty}
    {q : Ty → Parser β} {R : β → State → Prop} (h : Builds strict s₀ before s)
    (ht : .type t ∈ before.flatMap Descent.full.walk)
    (hq : ∀ copy s', Builds strict s₀ (before ++ [.type copy]) s' → After (q copy) s' R) :
    After (Grammar.duplicateType t >>= q) s R :=
  hq _ _ (.copy h ht)

theorem structFields_makes (hi : inner.Makes strict) :
    Makes strict (structFields inner) (List.flatMap fun b => [.type b.type]) := by
  intro s
  refine .here <| (hi.type s).andThen fun type s₁ h₁ => ?_
  refine (reads_consumeName _ _).andThen fun name s₂ h₂ => .spanFrom ?_
  refine (After.many (I := fun bs s' =>
      Builds strict s (.type type :: bs.flatMap fun b => [.type b.type]) s')
    (fun bs s₃ h₃ => ?_) (h₁.andThen h₂)).andThen fun more s₃ h₃ => ?_
  · refine .accept (fun _ => ?_) fun _ => .pure (by simpa using h₃)
    refine (reads_consumeName _ _).andThen fun name s₄ h₄ => ?_
    refine .duplicateType (h₃.andThen ((Steps.advance s₃).trans h₄)) ?_ fun copy s₅ h₅ => ?_
    · simp only [List.flatMap_cons, List.mem_append]
      exact .inl (Node.mem_walk_self _)
    · exact .spanFrom <| .pure (by simpa using h₅)
  · exact (reads_expectSemicolon _ _).andThen fun _ s₄ h₄ => .pure (h₃.andThen h₄)

theorem structDecl_makes (hi : inner.Makes strict) {s : State} (hk : s.current.kind ≠ .eof) :
    After (structDecl inner) s fun d s' => Builds strict s [.declaration d] s' := by
  refine .here <| .advance <| (reads_consumeName _ _).andThen fun name s₁ h₁ => ?_
  refine .accept (fun _ => .node ?_) fun _ => ?_
  · exact .read _ (.steps (h₁.trans (.advance s₁))) hk rfl rfl
  · refine (reads_consume _ _ _).andThen fun _ s₂ h₂ => ?_
    refine ((structFields_makes hi).bodyItems _).andThen fun fields s₃ h₃ => ?_
    refine (reads_consume _ _ _).andThen fun _ s₄ h₄ => ?_
    refine (reads_accept _ _).andThen fun _ s₅ h₅ => .node ?_
    refine .read _ ?_ hk rfl rfl
    show Builds strict s.advanced (Node.ofBindings fields) s₅
    rw [Node.ofBindings, List.map_eq_flatMap]
    exact (h₃.andThen (h₄.trans h₅)).behind (h₁.trans h₂)

theorem parameter_makes (hi : inner.Makes strict) :
    Makes strict (parameter inner) fun b => [.type b.type] := by
  intro s
  refine .here <| (hi.type s).andThen fun type s₁ h₁ => ?_
  exact (reads_consumeName _ _).andThen fun name s₂ h₂ => .spanFrom <| .pure (h₁.andThen h₂)

theorem parameters_makes (hi : inner.Makes strict) :
    Makes strict (parameters inner) Node.ofBindings := by
  intro s
  refine (reads_consume _ _ _).andThen fun _ s₁ h₁ => ?_
  have close : ∀ params s₂, Builds strict s₁ (Node.ofBindings params) s₂ →
      After (do
        consume .rightParen "Expected ')' after parameters"
        return params) s₂ fun params s' => Builds strict s (Node.ofBindings params) s' := by
    intro params s₂ h₂
    exact (reads_consume _ _ _).andThen fun _ s₃ h₃ => .pure ((h₂.andThen h₃).behind h₁)
  refine .check (fun _ => close [] _ (.idle _)) fun _ => ?_
  exact ((parameter_makes hi).commaSeparated.singles _).andThen close

theorem functionDecl_makes (hi : inner.Makes strict) (context : Context) {s : State}
    (hk : s.current.kind ≠ .eof) :
    After (functionDecl inner context) s fun d s' => Builds strict s [.declaration d] s' := by
  refine .here <| .advance <| (reads_consumeName _ _).andThen fun name s₁ h₁ => ?_
  refine (parameters_makes hi _).andThen fun params s₂ h₂ => ?_
  refine (resultType_makes hi.type _).andThen fun result s₃ h₃ => ?_
  have close : ∀ (body : Option Block) s₄,
      Builds strict s₃ (body.toList.flatMap Node.ofBlock) s₄ →
      After (do
        let decl ← node (Decl.mk (.functionDecl name params result body)) s.here
        if context.container = .classBody then
          reportStructural .functionInClass "Functions cannot be defined in a class; use an object"
            decl.span
        return decl) s₄ fun d s' => Builds strict s [.declaration d] s' := by
    intro body s₄ h₄
    refine .bind <| .node ?_
    have h := Builds.read (.declaration ⟨.functionDecl name params result body,
      s₄.spanFrom s.here, s₄.nextId⟩) ((h₂.append (h₃.append h₄)).behind h₁) hk rfl rfl
    refine .ite (fun _ => ?_) fun _ => .pure h
    exact (reads_reportStructural _ _ _ _).andThen fun _ s₅ h₅ => .pure (h.andThen h₅)
  refine .check (fun _ => ?_) fun _ => .accept (fun _ => ?_) fun _ => ?_
  · refine .bind <| .map <| (block_makes hi _ _).mono fun body s₄ h₄ => close (some body) s₄ ?_
    simpa using h₄
  · exact close none _ (.steps (.advance _))
  · exact (reads_reportUnexpected _ _).andThen fun _ s₄ h₄ => close none s₄ (.steps h₄)

theorem operatorDecl_makes (hi : inner.Makes strict) (context : Context) {s : State}
    (hk : s.current.kind ≠ .eof) :
    After (operatorDecl inner context) s fun d s' => Builds strict s [.declaration d] s' := by
  refine .here <| .advance <| (parameters_makes hi _).andThen fun params s₁ h₁ => ?_
  refine (reads_consume _ _ _).andThen fun _ s₂ h₂ => ?_
  have close : ∀ symbol s₃, Steps s₂ s₃ →
      After (do
        consume .rightBracket "Expected ']' after operator symbol"
        let result ← resultType inner.type
        let body ← block inner context.functionBody
        node (Decl.mk (.operatorDecl symbol params result body)) s.here) s₃
        fun d s' => Builds strict s [.declaration d] s' := by
    intro symbol s₃ h₃
    refine (reads_consume _ _ _).andThen fun _ s₄ h₄ => ?_
    refine (resultType_makes hi.type _).andThen fun result s₅ h₅ => ?_
    refine (block_makes hi _ _).andThen fun body s₆ h₆ => .node ?_
    exact .read _ ((h₁.andThen ((h₂.trans h₃).trans h₄)).append (h₅.append h₆)) hk rfl rfl
  refine .checkOrEnd fun b => ?_
  cases b
  · exact .advance <| close _ _ (.advance _)
  · exact (reads_reportUnexpected _ _).andThen fun _ s₃ h₃ => close "" s₃ h₃

/-! ## Imports, enumerations, aliases -/

theorem reads_importPath : Reads importPath :=
  (reads_check _).bind fun b => by
    cases b
    · exact (reads_reportUnexpected _).bind fun _ => .pure _
    · refine reads_advance.bind fun token => ?_
      split <;> exact .pure _

theorem importDecl_makes {s : State} (hk : s.current.kind ≠ .eof) :
    After importDecl s fun d s' => Builds strict s [.declaration d] s' := by
  refine .here <| .advance <| (reads_importPath _).andThen fun path s₁ h₁ => ?_
  have close : ∀ newName s₂, Steps s₁ s₂ →
      After (do
        expectSemicolon "import"
        node (Decl.mk (.importFile path newName)) s.here) s₂
        fun d s' => Builds strict s [.declaration d] s' := by
    intro newName s₂ h₂
    refine (reads_expectSemicolon _ _).andThen fun _ s₃ h₃ => .node ?_
    exact .read _ (.steps ((h₁.trans h₂).trans h₃)) hk rfl rfl
  refine .accept (fun _ => ?_) fun _ => close none _ (.refl _)
  refine .bind <| .map <| (reads_consumeName _ _).mono fun name s₂ h₂ => ?_
  exact close (some name) s₂ ((Steps.advance s₁).trans h₂)

theorem usingDecl_makes {s : State} (hk : s.current.kind ≠ .eof) :
    After usingDecl s fun d s' => Builds strict s [.declaration d] s' := by
  refine .here <| .advance <| (reads_qualifiedName _ _).andThen fun path s₁ h₁ => ?_
  refine (reads_expectSemicolon _ _).andThen fun _ s₂ h₂ => .node ?_
  exact .read _ (.steps (h₁.trans h₂)) hk rfl rfl

theorem enumMember_makes (hi : inner.Makes strict) :
    Makes strict (enumMember inner) fun m => m.value.toList.map .expression := by
  intro s
  refine .here <| (reads_consumeName _ _).andThen fun name s₁ h₁ => ?_
  have close : ∀ (value : Option Expr) s₂, Builds strict s₁ (value.toList.map .expression) s₂ →
      After (do return { name, value, span := ← spanFrom s.here : EnumMember } : Parser _) s₂
        fun m s' => Builds strict s (m.value.toList.map .expression) s' :=
    fun _ _ h₂ => .spanFrom <| .pure (h₂.behind h₁)
  refine .accept (fun _ => ?_) fun _ => close none _ (.idle _)
  refine .bind <| .map <| (hi.expression _).mono fun value s₂ h₂ => close (some value) s₂ ?_
  exact h₂.behind (.advance s₁)

theorem enumDecl_makes (hi : inner.Makes strict) {s : State} (hk : s.current.kind ≠ .eof) :
    After (enumDecl inner) s fun d s' => Builds strict s [.declaration d] s' := by
  refine .here <| .advance <| (reads_consumeName _ _).andThen fun name s₁ h₁ => ?_
  refine (reads_consume _ _ _).andThen fun _ s₂ h₂ => ?_
  refine ((enumMember_makes hi).commaTerminated _).andThen fun members s₃ h₃ => ?_
  refine (reads_consume _ _ _).andThen fun _ s₄ h₄ => ?_
  refine (reads_accept _ _).andThen fun _ s₅ h₅ => .node ?_
  exact .read _ ((h₃.andThen (h₄.trans h₅)).behind (h₁.trans h₂)) hk rfl rfl

theorem typeAlias_makes (hi : inner.Makes strict) {s : State} (hk : s.current.kind ≠ .eof) :
    After (typeAlias inner) s fun d s' => Builds strict s [.declaration d] s' := by
  refine .here <| .advance <| (reads_consumeName _ _).andThen fun name s₁ h₁ => ?_
  refine (reads_consume _ _ _).andThen fun _ s₂ h₂ => ?_
  refine (hi.type _).andThen fun type s₃ h₃ => ?_
  refine (reads_expectSemicolon _ _).andThen fun _ s₄ h₄ => .node ?_
  exact .read _ ((h₃.andThen h₄).behind (h₁.trans h₂)) hk rfl rfl

theorem asmDecl_makes {s : State} (hk : s.current.kind ≠ .eof) :
    After asmDecl s fun d s' => Builds strict s [.declaration d] s' :=
  .here <| (asmBody_moves s hk).andThen fun _ _ h => .node <| .leaf _ h.1 rfl rfl rfl h.2

theorem State.kindAt_zero (s : State) : s.kindAt 0 = s.current.kind := by
  unfold State.kindAt State.current
  cases s.rest <;> rfl

theorem dataDecl_makes {s : State} (hk : s.current.kind ∈ [.kwSigned, .kwUnsigned, .kwData]) :
    After dataDecl s fun d s' => Builds strict s [.declaration d] s' := by
  refine .here <| (dataLayout_moves hk).andThen fun layout s₁ h₁ => ?_
  refine (reads_consume _ _ _).andThen fun _ s₂ h₂ => ?_
  refine (reads_consumeName _ _).andThen fun name s₃ h₃ => ?_
  refine (reads_expectSemicolon _ _).andThen fun _ s₄ h₄ => .node ?_
  have h := (h₂.trans h₃).trans h₄
  exact .leaf _ (h₁.1.trans h) rfl rfl rfl (Nat.lt_of_lt_of_le h₁.2 h.position_le)

/-- Where a data layout with a new name lies ahead, the cursor stands at its first keyword. -/
theorem kind_of_dataDeclAhead {s : State} (h : dataDeclAhead s = true) :
    s.current.kind ∈ [.kwSigned, .kwUnsigned, .kwData] := by
  simp only [dataDeclAhead, State.kindAt_zero, Bool.and_eq_true] at h
  obtain ⟨⟨⟨h, -⟩, -⟩, -⟩ := h
  split at h
  · rename_i hsign
    simp only [List.contains_iff_mem, List.mem_cons, List.not_mem_nil, or_false] at hsign
    rcases hsign with h | h <;> simp [h]
  · rw [State.kindAt_zero] at h
    simp [beq_iff_eq.1 h]

/-! ## Templates -/

theorem reads_templateParams : Reads templateParams := by
  have close : ∀ params : List String, Reads (do
      consumeClosingAngle "Expected '>' after template parameters"
      return params) := fun _ => (reads_consumeClosingAngle _).bind fun _ => .pure _
  refine (reads_consume _ _).bind fun _ => (reads_checkAny _).bind fun b => ?_
  cases b
  · exact (reads_consumeName _).commaSeparated.bind close
  · exact close []

/-- A placeholder statement for something that is missing at the cursor. -/
theorem placeholderStatement_makes (strict : Prop) (s : State) :
    After (placeholderStatement (.single s.reached.lastEnd)) s.reached fun stmt s' =>
      Builds strict s [.statement stmt] s' ∧ stmt.span = .single s.reached.lastEnd := by
  refine .bind <| .nodeAt <| .nodeAt ⟨?_, rfl⟩
  have hole : Builds strict s
      [.expression ⟨.placeholder, .single s.reached.lastEnd, s.reached.nextId⟩] s.reached.stamped :=
    .missing _ rfl rfl rfl
  exact .wrap [] _ hole rfl rfl rfl

/-- Declarations are replaced by what is made of them, one after the other. -/
theorem replacements_make {α : Type} {s₀ : State} {f : Decl → Parser α} {node : α → Node}
    {I : State → Prop}
    (hf : ∀ d before s, I s → Builds strict s₀ (before ++ [.declaration d]) s →
      After (f d) s fun a s' => I s' ∧ Builds strict s₀ (before ++ [node a]) s')
    (decls : List Decl) {s : State} (hs : I s)
    (h : Builds strict s₀ (decls.map .declaration) s) :
    After (decls.mapM f) s fun as s' =>
      Builds strict s₀ (as.map node) s' ∧ as.length = decls.length := by
  have run : ∀ (decls : List Decl) (before : List Node) (s : State), I s →
      Builds strict s₀ (before ++ decls.map .declaration) s →
      After (decls.mapM f) s fun as s' =>
        Builds strict s₀ (before ++ as.map node) s' ∧ as.length = decls.length := by
    intro decls
    induction decls with
    | nil => exact fun before s _ h => ⟨h, rfl⟩
    | cons d more ih =>
      intro before s hs h
      rw [List.mapM_cons]
      -- what comes later is moved in front, so that the declaration stands last
      have front : Builds strict s₀ (before ++ more.map .declaration ++ [.declaration d]) s := by
        refine h.perm ?_
        rw [List.append_assoc, List.map_cons]
        exact (List.perm_append_singleton _ _).symm.append_left before
      refine (hf d _ s hs front).andThen fun a s₁ h₁ => ?_
      have back : Builds strict s₀ (before ++ [node a] ++ more.map .declaration) s₁ := by
        refine h₁.2.perm ?_
        rw [List.append_assoc, List.append_assoc]
        exact (List.perm_append_comm).append_left before
      refine (ih _ s₁ h₁.1 back).andThen fun as s₂ h₂ => .pure ⟨?_, ?_⟩
      · simpa using h₂.1
      · simp [h₂.2]
  exact run decls [] s hs h

/-- The declarations behind a parser that found some, or none where it found none. -/
def BuildsDecls (strict : Prop) (s : State) (o : Option (List Decl)) (s' : State) : Prop :=
  Builds strict s ((o.getD []).map .declaration) s' ∧ o ≠ some []

theorem templateDecl_makes (hi : inner.Makes strict) (context : Context) {s : State} :
    After (templateDecl inner context) s fun ds s' => BuildsDecls strict s (some ds) s' := by
  refine .here <| .advance <| (reads_templateParams _).andThen fun params s₁ h₁ => ?_
  have close : ∀ decls s₂, decls ≠ [] → Builds strict s₁ (decls.map .declaration) s₂ →
      After (do
        let span ← spanFrom s.here
        decls.mapM fun decl => nodeAt (Decl.mk (.template params decl)) span) s₂
        fun ds s' => BuildsDecls strict s (some ds) s' := by
    intro decls s₂ hne h₂
    refine .spanFrom ?_
    have h := h₂.behind ((Steps.advance s).trans h₁)
    -- all templates have the span up to where the last declaration ends
    refine (replacements_make (I := fun s₃ => s₃.spanFrom s.here = s₂.spanFrom s.here)
      (fun d before s₃ hs₃ h₃ => ?_) decls rfl h).mono fun ds s₃ h₃ => ⟨h₃.1, ?_⟩
    · refine .nodeAt ⟨hs₃, .node before _ h₃ hs₃.symm rfl fun he => absurd he ?_⟩
      simp [Node.children, Node.ofDecl]
    · rintro ⟨⟩
      exact hne (List.length_eq_zero_iff.1 h₃.2.symm)
  have hdecl : After (inner.declaration context) s₁ fun o s₂ => BuildsDecls strict s₁ o s₂ :=
    ⟨hi.declaration context s₁, hi.declaration_ne context s₁⟩
  refine hdecl.andThen fun o s₂ h₂ => ?_
  cases o with
  | some decls => exact close decls s₂ (fun he => h₂.2 (by rw [he])) h₂.1
  | none =>
    refine (reads_reportNoDeclaration _ _).andThen fun _ s₃ h₃ => .emptySpan ?_
    refine (placeholderStatement_makes strict s₃).andThen fun stmt s₄ h₄ => ?_
    refine .bind <| .nodeAt <| close _ _ (List.cons_ne_nil _ _) ?_
    exact (h₂.1.andThen h₃).append (.wrap [] _ h₄.1 rfl h₄.2.symm rfl)

/-! ## Variables -/

theorem finishFunctionPointer_makes (hi : inner.Makes strict) {s s₀ : State} {type : Ty}
    (h : Builds strict s₀ [.type type] s) :
    After (finishFunctionPointer inner type) s fun t s' => Builds strict s₀ [.type t] s' := by
  obtain ⟨form, span, id⟩ := type
  unfold finishFunctionPointer
  dsimp only
  split
  · refine .accept (fun _ => ?_) fun _ => .pure h
    refine (typeList_makes hi.type _ _).andThen fun params s₁ h₁ => ?_
    refine (reads_consume _ _ _).andThen fun _ s₂ h₂ => .spanFrom <| .bind <| .nodeAt <| .pure ?_
    exact .repoint (h.andThen (.advance s)) (h₁.andThen h₂)
  · exact .pure h

/-- A variable is built over its type and arguments, which stand last. -/
theorem declarator_makes (hi : inner.Makes strict) {s s₀ : State} (before : List Node)
    (qualifiers : Qualifiers) {type : Ty} (name : String) (instantiation : Option (List Expr))
    (h : Builds strict s₀
      (before ++ .type type :: (instantiation.getD []).map .expression) s) :
    After (declarator inner s₀.here qualifiers type name instantiation) s fun d s' =>
      Builds strict s₀ (before ++ [.declaration d]) s'
        ∧ .type type ∈ Descent.full.walk (.declaration d) := by
  have close : ∀ (initializer : Option Expr) s₁,
      Builds strict s (initializer.toList.map .expression) s₁ →
      After (node (Decl.mk (.variable { type, name, initializer, qualifiers, instantiation }))
        s₀.here) s₁ fun d s' => Builds strict s₀ (before ++ [.declaration d]) s'
          ∧ .type type ∈ Descent.full.walk (.declaration d) := by
    intro initializer s₁ h₁
    refine .node ⟨.node before _ ?_ rfl rfl ?_, ?_⟩
    · simpa [Node.children, Node.ofDecl, Node.ofVariable] using h.append h₁
    · exact fun he => absurd he (by simp [Node.children, Node.ofDecl, Node.ofVariable])
    · rw [Descent.walk_eq]
      refine List.mem_cons_of_mem _ (List.mem_flatMap.2 ⟨.type type, ?_, Node.mem_walk_self _⟩)
      exact List.mem_cons_self
  refine .accept (fun _ => ?_) fun _ => close none _ (.idle s)
  refine .bind <| .map <| (hi.expression _).mono fun value s₁ h₁ => close (some value) s₁ ?_
  exact h₁.behind (.advance s)

theorem finishVariables_makes (hi : inner.Makes strict) {s s₀ : State} (qualifiers : Qualifiers)
    {type : Ty} (name : String) (instantiation : Option (List Expr))
    (h : Builds strict s₀ (.type type :: (instantiation.getD []).map .expression) s) :
    After (finishVariables inner s₀.here qualifiers type name instantiation) s fun ds s' =>
      BuildsDecls strict s₀ (some ds) s' := by
  refine (declarator_makes hi [] qualifiers name instantiation h).andThen fun first s₁ h₁ => ?_
  refine (After.many (I := fun ds s' =>
      Builds strict s₀ (.declaration first :: ds.map .declaration) s') (fun ds s₂ h₂ => ?_)
    h₁.1).andThen fun more s₂ h₂ => ?_
  · refine .accept (fun _ => ?_) fun _ => .pure (by simpa using h₂)
    refine (reads_consumeName _ _).andThen fun name s₃ h₃ => ?_
    refine .duplicateType (h₂.andThen ((Steps.advance s₂).trans h₃)) ?_ fun copy s₄ h₄ => ?_
    · rw [List.flatMap_cons]
      exact List.mem_append_left _ h₁.2
    · refine (declarator_makes hi _ qualifiers name none h₄).andThen
        fun d s₅ h₅ => .pure ?_
      simpa using h₅.1
  · refine (reads_expectSemicolon _ _).andThen fun _ s₃ h₃ => .pure ⟨h₂.andThen h₃, ?_⟩
    simp

theorem variableDecl_makes (hi : inner.Makes strict) (s : State) :
    After (variableDecl inner) s fun ds s' => BuildsDecls strict s (some ds) s' := by
  refine .here <| (reads_qualifiers s).andThen fun qualifiers s₁ h₁ => ?_
  refine (hi.type _).andThen fun type s₂ h₂ => ?_
  refine (reads_consumeName _ _).andThen fun name s₃ h₃ => ?_
  refine (finishFunctionPointer_makes hi ((h₂.andThen h₃).behind h₁)).andThen fun type s₄ h₄ => ?_
  exact finishVariables_makes hi qualifiers name none h₄

theorem instantiationArgs_makes (hi : inner.Makes strict) :
    Makes strict (instantiationArgs inner) (List.map .expression) := by
  intro s
  refine .accept (fun _ => ?_) fun _ => .pure (Builds.idle s)
  refine (arguments_makes hi _ _).andThen fun args s₁ h₁ => ?_
  exact (reads_consume _ _ _).andThen fun _ s₂ h₂ => .pure ((h₁.andThen h₂).behind (.advance s))

theorem nameLedDecl_makes (hi : inner.Makes strict) (s : State) :
    After (nameLedDecl inner) s (BuildsDecls strict s) := by
  refine .unmoved ((probe_declaratorForm hi.skim).state_eq s) fun o => ?_
  cases o with
  | none =>
    exact .current <| (reads_note _ _).andThen fun _ s₁ h₁ => .pure ⟨.steps h₁, nofun⟩
  | some form =>
    refine .here <| .position <| (hi.type _).andThen fun type s₁ h₁ => ?_
    cases form with
    | named =>
      refine (reads_consumeName _ _).andThen fun name s₂ h₂ => ?_
      refine (finishFunctionPointer_makes hi (h₁.andThen h₂)).andThen fun type s₃ h₃ => ?_
      refine (reads_noteCommitted _ _ _).andThen fun _ s₄ h₄ => ?_
      exact (finishVariables_makes hi _ _ none (h₃.andThen h₄)).andThen
        fun ds s₅ h₅ => .pure h₅
    | instantiation =>
      refine (instantiationArgs_makes hi _).andThen fun args s₂ h₂ => ?_
      refine (reads_consume _ _ _).andThen fun _ s₃ h₃ => ?_
      refine (reads_consume _ _ _).andThen fun _ s₄ h₄ => ?_
      refine (reads_consumeName _ _).andThen fun name s₅ h₅ => ?_
      refine (reads_noteCommitted _ _ _).andThen fun _ s₆ h₆ => ?_
      have h := (h₁.append h₂).andThen (((h₃.trans h₄).trans h₅).trans h₆)
      exact (finishVariables_makes hi _ _ (some args) h).andThen
        fun ds s₇ h₇ => .pure h₇

/-! ## Declarations -/

theorem one_makes {decl : Parser Decl} {s : State}
    (h : After decl s fun d s' => Builds strict s [.declaration d] s') :
    After (declarationBody.one decl) s (BuildsDecls strict s) :=
  h.andThen fun _ _ h' => .pure ⟨h', by simp⟩

theorem declarationBody_makes (hi : inner.Makes strict) (context : Context) (s : State) :
    After (declarationBody inner context) s (BuildsDecls strict s) := by
  refine .get ?_
  dsimp only
  split
  case h_1 hk => exact one_makes (namespaceDecl_makes hi (by rw [hk]; decide))
  case h_2 hk _ | h_3 hk _ => exact one_makes (classOrObject_makes hi (by rw [hk]; decide))
  case h_4 hk _ => exact one_makes (structDecl_makes hi (by rw [hk]; decide))
  case h_5 hk _ => exact one_makes (functionDecl_makes hi context (by rw [hk]; decide))
  case h_6 hk => exact one_makes (operatorDecl_makes hi context (by rw [hk]; decide))
  case h_7 hk => exact one_makes (importDecl_makes (by rw [hk]; decide))
  case h_8 hk => exact one_makes (usingDecl_makes (by rw [hk]; decide))
  case h_9 => exact .map (templateDecl_makes hi context)
  case h_10 hk => exact one_makes (enumDecl_makes hi (by rw [hk]; decide))
  case h_11 hk => exact one_makes (typeAlias_makes hi (by rw [hk]; decide))
  case h_12 hk => exact one_makes (asmDecl_makes (by rw [hk]; decide))
  case h_13 => exact nameLedDecl_makes hi s
  case h_14 =>
    refine .ite (fun hd => one_makes (dataDecl_makes (kind_of_dataDeclAhead hd))) fun _ => ?_
    refine .ite (fun _ => .map (variableDecl_makes hi s)) fun _ => .pure ⟨.idle s, Option.some_ne_none _ |>.symm⟩

theorem membersBody_makes (hi : inner.Makes strict) (context : Context) (what : String) :
    Makes strict (membersBody inner context what) (List.map .declaration) := by
  refine Makes.singles (.bodyItems fun s => ?_)
  refine (declarationBody_makes hi context s).andThen fun o s₁ h₁ => ?_
  cases o with
  | some decls =>
    refine .pure ?_
    rw [← List.map_eq_flatMap]
    exact h₁.1
  | none =>
    exact (reads_reportNoDeclaration _ _).andThen fun _ s₂ h₂ => .pure (h₁.1.andThen h₂)

end FluxFront.Grammar
