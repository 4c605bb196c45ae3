import FluxFront.Proofs.ExprTexts
import FluxFront.Proofs.Probes

/-!
# What statements are read from

A clean run of a production for statements reads a placid text.

* **Declarations**: in a block only variables may be declared, and the text of their declarations is
  placid.  Of other declarations nothing is asked but that they are other declarations, for each of them
  is reported (`runs_declarationStatements`).
* **Recovery**: a clean item reads a token, so the recovery behind it does nothing.
* **Levels**: what is refused is reported, so the lowest level has no clean runs, and every level above
  one whose entries read such texts is one itself, be types skimmed there or not (`grammarIn_texts`).
-/

set_option synthInstance.maxSize 1000

namespace FluxFront.Grammar

open Token (Kind)

/-! ## Texts of statements -/

theorem Tidy.stmt {b : Brackets} {ts : List Token} (h : Tidy b ts) : StmtText b ts := ⟨h.ne_nil, h.placid⟩

namespace StmtText

variable {b : Brackets} {ts us : List Token}

theorem append (ht : StmtText b ts) (hu : StmtText b us) : StmtText b (ts ++ us) :=
  ⟨List.append_ne_nil_of_left_ne_nil ht.ne_nil _, ht.placid.append hu.placid⟩

theorem cons {t : Token} (h : isQuiet t.kind = true) (hts : StmtText b ts) : StmtText b (t :: ts) :=
  (Tidy.single h).stmt.append hts

theorem semicolon {t : Token} (h : t.kind = .semicolon) : StmtText b [t] :=
  ⟨List.cons_ne_nil _ _, .semicolon h⟩

/-- Something that is tidy or missing, and the semicolon behind it. -/
theorem ended {t : Token} (h : Slack b ts) (ht : t.kind = .semicolon) : StmtText b (ts ++ [t]) := by
  rcases h with rfl | h
  · exact semicolon ht
  · exact h.stmt.append (semicolon ht)

end StmtText

section Statements

variable {b : Brackets} {s : State} {inner : Level} [TwinLevel recording inner inner]

/-! ## Variables -/

section

variable (ht : inner.Texts b)
include ht

theorem runs_finishFunctionPointer {type : Ty} :
    Runs (finishFunctionPointer inner type) s fun _ ts _ => Slack b ts := by
  unfold finishFunctionPointer
  split
  · refine .accept (by decide) (fun hl => ?_) fun _ => .pure .nil
    refine .andThen (runs_typeList ht.type) fun params ts s₁ hts => .consume (by decide) fun hr => ?_
    refine .spanFrom <| .nodeAtThen <| .pure ?_
    exact (Tidy.group (by rw [hl, hr]; rfl) hts.nested).slack
  · exact .pure .nil

/-- The value behind an equals sign, if there is one. -/
theorem runs_declarator {start : Location} {qualifiers : Qualifiers} {type : Ty} {name : String}
    {instantiation : Option (List Expr)} :
    Runs (declarator inner start qualifiers type name instantiation) s fun _ ts _ => Slack b ts := by
  refine .accept (by decide) (fun hk => ?_) fun _ => .node .nil
  refine .mapThen (ht.expression _) fun value ts s₁ hts => .node ?_
  simpa using (Tidy.cons (by rw [hk]; rfl) hts.tidy).slack

theorem runs_finishVariables {start : Location} {qualifiers : Qualifiers} {type : Ty} {name : String}
    {instantiation : Option (List Expr)} :
    Runs (finishVariables inner start qualifiers type name instantiation) s
      fun ds ts _ => ds ≠ [] ∧ StmtText b ts := by
  refine .andThen (runs_declarator ht) fun first ts s₁ hts => ?_
  refine .andThen (.many (fun _ _ _ h => h) (I := fun _ ts _ => Slack b ts) (a := [])
    (fun _ ts s hts => ?_) hts) fun more us s₂ hus => ?_
  · refine .accept (by decide) (fun hcomma => ?_) fun _ => .pure (by simpa using hts)
    refine .consumeName fun hname => .duplicateType fun copy nextId => ?_
    refine .andThen (runs_declarator ht) fun decl us s₁ hus => .pure ?_
    have hnext : Tidy b (s.current :: s.advanced.current :: us) :=
      .cons (by rw [hcomma]; rfl) (hus.tidy_cons (by rw [hname]; rfl))
    simpa using hts.append hnext.slack
  · refine .expectSemicolon fun hsemi => .pure ⟨List.cons_ne_nil _ _, ?_⟩
    simpa using StmtText.ended hus hsemi

theorem runs_variableDecl : Runs (variableDecl inner) s fun ds ts _ => ds ≠ [] ∧ StmtText b ts := by
  refine .here <| .andThen (runs_qualifiers (b := b)) fun qualifiers qs s₁ hqs => ?_
  refine .andThen (ht.type _) fun type ts s₂ hts => .consumeName fun hname => ?_
  refine .andThen (runs_finishFunctionPointer ht) fun type fs s₃ hfs => ?_
  refine (runs_finishVariables ht).mono fun ds us s₄ hus => ⟨hus.1, ?_⟩
  have hhead : Tidy b (ts ++ s₂.current :: fs) := hts.append (hfs.tidy_cons (by rw [hname]; rfl))
  have hall : Tidy b (qs ++ (ts ++ s₂.current :: fs)) := by
    rcases hqs with rfl | hqs
    · exact hhead
    · exact hqs.append hhead
  simpa using hall.stmt.append hus.2

theorem runs_instantiationArgs : Runs (instantiationArgs inner) s fun _ ts _ => Slack b ts := by
  refine .accept (by decide) (fun hl => ?_) fun _ => .pure .nil
  refine .andThen (runs_arguments ht) fun args ts s₁ hts => .consume (by decide) fun hr => .pure ?_
  exact (Tidy.group (by rw [hl, hr]; rfl) hts.1.nested).slack

theorem runs_nameLedDecl (hi : inner.Steady) : Runs (nameLedDecl inner) s fun o ts _ => DeclsText b o ts := by
  refine .unmoved ((probe_declaratorForm hi.skim).state_eq s) fun o => ?_
  cases o with
  | none => exact .current <| .note <| .pure rfl
  | some form =>
    refine .here <| .position ?_
    cases form with
    | named =>
      dsimp only
      refine .andThen (ht.type _) fun type ts s₁ hts => .consumeName fun hname => ?_
      refine .andThen (runs_finishFunctionPointer ht) fun type fs s₂ hfs => .noteCommitted fun _ => ?_
      refine .andThen (runs_finishVariables ht) fun ds us s₃ hus => .pure ?_
      have hhead : Tidy b (ts ++ s₁.current :: fs) := hts.append (hfs.tidy_cons (by rw [hname]; rfl))
      exact ⟨hus.1, fun _ => by simpa using hhead.stmt.append hus.2⟩
    | instantiation =>
      dsimp only
      refine .andThen (ht.type _) fun type ts s₁ hts => ?_
      refine .andThen (runs_instantiationArgs ht) fun args as s₂ has => ?_
      refine .consume (by decide) fun hl => .consume (by decide) fun hr => .consumeName fun hname => ?_
      refine .noteCommitted fun _ => .andThen (runs_finishVariables ht) fun ds us s₃ hus => .pure ?_
      have hbraces : Tidy b (s₂.current :: ([] ++ [s₂.advanced.current])) :=
        .group (by rw [hl, hr]; rfl) .nil
      have hname : Tidy b [s₂.advanced.advanced.current] := .single (by rw [hname]; rfl)
      have hhead : Tidy b ((ts ++ as) ++ (s₂.current :: ([] ++ [s₂.advanced.current]) ++
          [s₂.advanced.advanced.current])) := (hts.behind has).append (hbraces.append hname)
      exact ⟨hus.1, fun _ => by simpa using hhead.stmt.append hus.2⟩

end

/-! ## Other declarations -/

/-- A form of declarations that is not that of variables. -/
class OtherForm (form : Decl.Form) : Prop where
  eq : ∀ span id, isVariable ⟨form, span, id⟩ = false

instance (path : String) (newName : Option String) : OtherForm (.importFile path newName) := ⟨fun _ _ => rfl⟩
instance (path : QualifiedName) : OtherForm (.usingPath path) := ⟨fun _ _ => rfl⟩
instance (name : String) (members : List Decl) : OtherForm (.namespaceDecl name members) := ⟨fun _ _ => rfl⟩
instance (name : String) (bases exclusions : List QualifiedName) (members : List Decl) (isForward : Bool) :
    OtherForm (.classDecl name bases exclusions members isForward) := ⟨fun _ _ => rfl⟩
instance (name : String) (bases : List QualifiedName) (members : List Decl) (isForward : Bool) :
    OtherForm (.objectDecl name bases members isForward) := ⟨fun _ _ => rfl⟩
instance (name : String) (fields : List Binding) (isForward : Bool) :
    OtherForm (.structDecl name fields isForward) := ⟨fun _ _ => rfl⟩
instance (name : String) (params : List Binding) (result : Ty) (body : Option Block) :
    OtherForm (.functionDecl name params result body) := ⟨fun _ _ => rfl⟩
instance (symbol : String) (params : List Binding) (result : Ty) (body : Block) :
    OtherForm (.operatorDecl symbol params result body) := ⟨fun _ _ => rfl⟩
instance (name : String) (members : List EnumMember) : OtherForm (.enumDecl name members) := ⟨fun _ _ => rfl⟩
instance (name : String) (type : Ty) : OtherForm (.typeAlias name type) := ⟨fun _ _ => rfl⟩
instance (name : String) (layout : DataLayout) : OtherForm (.data name layout) := ⟨fun _ _ => rfl⟩
instance (raw : String) : OtherForm (.asm raw) := ⟨fun _ _ => rfl⟩
instance {c : Prop} [Decidable c] {form form' : Decl.Form} [OtherForm form] [OtherForm form'] :
    OtherForm (if c then form else form') := by
  split <;> infer_instance

/-- A parser that never gives the declaration of a variable. -/
class Other (p : Parser Decl) : Prop where
  eq : ∀ s, isVariable (p s).1 = false

instance {α : Type} {p : Parser α} {q : α → Parser Decl} [h : ∀ a, Other (q a)] : Other (p >>= q) :=
  ⟨fun _ => (h _).eq _⟩

instance {c : Prop} [Decidable c] {p q : Parser Decl} [Other p] [Other q] : Other (if c then p else q) := by
  split <;> infer_instance

instance {form : Decl.Form} [h : OtherForm form] (start : Location) : Other (node (Decl.mk form) start) :=
  ⟨fun _ => h.eq _ _⟩

/-- Declarations of something else than variables. -/
theorem DeclsText.others {ds : List Decl} {ts : List Token} (hne : ds ≠ [])
    (hds : ∀ d ∈ ds, isVariable d = false) : DeclsText b (some ds) ts := by
  refine ⟨hne, fun hall => ?_⟩
  obtain ⟨d, ds, rfl⟩ := List.exists_cons_of_ne_nil hne
  have hd := hds d List.mem_cons_self
  rw [hall d List.mem_cons_self] at hd
  exact absurd hd (by decide)

/-- What is reported about a declaration does not change it. -/
instance {form : Decl.Form} [h : OtherForm form] {start : Location} {c : Prop} [Decidable c]
    {p : Decl → Parser Unit} : Other (node (Decl.mk form) start >>= fun decl =>
      if c then p decl >>= fun _ => pure decl else pure decl) where
  eq s := by
    show isVariable ((if c then _ else _ : Parser Decl) _).1 = false
    split <;> exact h.eq _ _

section

omit [TwinLevel recording inner inner]

instance : Other (namespaceDecl inner) := by
  unfold namespaceDecl
  infer_instance

instance : Other (classOrObject inner) := by
  unfold classOrObject
  dsimp only
  infer_instance

instance : Other (structDecl inner) := by
  unfold structDecl
  infer_instance

instance (context : Context) : Other (functionDecl inner context) := by
  unfold functionDecl
  dsimp only
  infer_instance

instance (context : Context) : Other (operatorDecl inner context) := by
  unfold operatorDecl
  infer_instance

instance : Other importDecl := by
  unfold importDecl
  dsimp only
  infer_instance

instance : Other usingDecl := by
  unfold usingDecl
  infer_instance

instance : Other (enumDecl inner) := by
  unfold enumDecl
  infer_instance

instance : Other (typeAlias inner) := by
  unfold typeAlias
  infer_instance

instance : Other asmDecl := by
  unfold asmDecl
  infer_instance

instance : Other dataDecl := by
  unfold dataDecl
  infer_instance

end

theorem runs_one {decl : Parser Decl} [Moving decl] [h : Other decl] :
    Runs (declarationBody.one decl) s fun o ts _ => DeclsText b o ts := by
  refine .andThen (P := fun d _ _ => isVariable d = false) (.moved fun _ => h.eq s) fun d ts _ hd => ?_
  exact .pure (.others (List.cons_ne_nil _ _) (List.forall_mem_singleton.2 hd))

/-- Behind the parameters and the declaration of a template. -/
theorem moving_behindDeclaration (start : Location) (params : List String) (o : Option (List Decl)) :
    Moving (do
      let decls ← match o with
        | some decls => pure decls
        | none =>
          reportNoDeclaration "after template parameters"
          let span ← emptySpan
          let stmt ← placeholderStatement span
          pure [← nodeAt (Decl.mk (.statement stmt)) span]
      let span ← spanFrom start
      decls.mapM fun decl => nodeAt (Decl.mk (.template params decl)) span) := by
  dsimp only
  cases o <;> infer_instance

theorem runs_templateDecl (ht : inner.Texts b) {context : Context} (hk : s.current.kind ≠ .eof) :
    Runs (templateDecl inner context) s fun ds ts _ => DeclsText b (some ds) ts := by
  have next := moving_behindDeclaration
  refine .here <| .advance hk <| .andThen (P := fun _ _ _ => True) (.moved fun _ => trivial) ?_
  refine fun params ps s₁ _ => .andThen (ht.declaration context _) fun o ts s₂ hts => ?_
  cases o with
  | none => exact .assoc (.current .report)
  | some decls =>
    have templates : Runs (decls.mapM fun decl =>
        nodeAt (Decl.mk (.template params decl)) (s₂.spanFrom s.here)) s₂ fun ds us _ =>
          us = [] ∧ ds.length = decls.length ∧ (∀ d ∈ decls, True) ∧ ∀ d ∈ ds, isVariable d = false :=
      .mapM fun decl s => .nodeAt ⟨rfl, trivial, rfl⟩
    refine .pureThen <| .spanFrom <| templates.mono fun ds us s₃ hds => ?_
    refine .others (fun hnil => hts.1 ?_) hds.2.2.2
    rw [hnil] at hds
    exact List.eq_nil_of_length_eq_zero hds.2.1.symm

theorem runs_declarationBody (ht : inner.Texts b) (hi : inner.Steady) {context : Context} :
    Runs (declarationBody inner context) s fun o ts _ => DeclsText b o ts := by
  refine .get ?_
  dsimp only
  split
  case h_9 hk => exact .map (runs_templateDecl ht (by rw [hk]; decide))
  case h_13 => exact runs_nameLedDecl ht hi
  case h_14 =>
    refine .ite (fun _ => runs_one) fun _ => .ite (fun _ => .map ?_) fun _ => .pure rfl
    exact (runs_variableDecl ht).mono fun ds ts _ h => ⟨h.1, fun _ => h.2⟩
  all_goals exact runs_one

/-! ## Declarations and expressions as statements -/

/-- Where declarations are statements, those of something else than variables are reported. -/
theorem runs_declarationStatements {ds : List Decl} :
    Runs (ds.mapM declarationStatement) s fun _ ts _ => ts = [] ∧ ∀ d ∈ ds, isVariable d = true := by
  have single : ∀ d s, Runs (declarationStatement d) s fun _ ts _ => ts = [] ∧ isVariable d = true ∧ True := by
    rintro ⟨form, span, id⟩ s
    cases form with
    | «variable» => exact .pure ⟨rfl, rfl, trivial⟩
    | _ => exact .reportStructural
  exact (Runs.mapM single).mono fun _ _ _ h => ⟨h.1, h.2.2.1⟩

variable (ht : inner.Texts b)
include ht

theorem runs_expressionStatement :
    Runs (expressionStatement inner) s fun _ ts _ => StmtText b ts := by
  refine .here <| .andThen (ht.expression _) fun e ts s₁ hts => .expectSemicolon fun hsemi => .node ?_
  exact .ended hts.tidy.slack hsemi

omit ht in
theorem moving_declarationsOrExpression {context : Context} : Moving (do
    match ← declarationBody inner context with
    | some decls => decls.mapM declarationStatement
    | none => return [← expressionStatement inner]) := by
  refine .andThen inferInstance fun o => ?_
  cases o <;> infer_instance

/-- Declarations or an expression, as a block and the first clause of a loop have them. -/
theorem runs_declarationsOrExpression (hi : inner.Steady) {context : Context} :
    Runs (do
      match ← declarationBody inner context with
      | some decls => decls.mapM declarationStatement
      | none => return [← expressionStatement inner]) s fun _ ts _ => StmtText b ts := by
  refine .andThen (m := fun o => by cases o <;> infer_instance) (runs_declarationBody ht hi)
    fun o ts s₁ hts => ?_
  cases o with
  | some decls =>
    refine runs_declarationStatements.mono fun _ us _ hus => ?_
    simpa [hus.1] using hts.2 hus.2
  | none =>
    obtain rfl : ts = [] := hts
    exact .andThen (runs_expressionStatement ht) fun _ us _ hus => .pure (by simpa using hus)

/-! ## Branches and loops -/

theorem runs_condition {keyword : String} :
    Runs (condition inner keyword) s fun _ ts _ => Tidy b ts := by
  refine .consume (by decide) fun hl => .andThen (ht.expression _) fun e ts s₁ hts => ?_
  exact .consume (by decide) fun hr => .pure (.group (by rw [hl, hr]; rfl) hts.tidy.nested)

section

omit ht [TwinLevel recording inner inner]

/-- The names in front of `in`, if they are there. -/
theorem runs_rangeNames : Runs rangeNames s fun o ts _ => o.isSome = true → Nested b ts := by
  have close : ∀ {var index s₁ us}, Nested b us → Runs (do
      if ← accept .kwIn then
        noteCommitted "range loop header" s.position
        return some (var, index)
      else return none : Parser (Option (String × Option String))) s₁
      fun o vs _ => o.isSome = true → Nested b (us ++ vs) := by
    intro var index s₁ us hus
    refine .accept (by decide) (fun hin => .noteCommitted fun _ => .pure fun _ => ?_) fun _ => .pure nofun
    exact hus.append (.single (by rw [hin]; rfl))
  have name : ∀ {s₁ : State}, s₁.current.kind = .identifier → Nested b [s₁.current] := fun h =>
    .single (by rw [h]; rfl)
  refine .position <| .check (fun hv => .advance (by rw [hv]; decide) ?_) fun _ => .pure nofun
  refine .check (fun hcomma => .kindAt ?_) fun _ => .kindAt ?_
  · refine .ite (fun hn => ?_) fun _ => close (name hv)
    have hne : s.advanced.current.kind ≠ .eof := by rw [hcomma]; decide
    have hi : s.advanced.advanced.current.kind = .identifier := by
      rw [State.kind_advanced hne]
      simpa using hn
    refine .advance hne <| .advance (by rw [hi]; decide) <| .pureThen ?_
    refine (close ((name hv).append (.cons (by rw [hcomma]; rfl) (name hi)))).mono fun _ _ _ h => ?_
    simpa using h
  · exact .ite (fun h => absurd h (by simp)) fun _ => close (name hv)

theorem runs_rangeHeader : Runs rangeHeader s fun o ts _ => o.elim (ts = []) fun _ => Nested b ts := by
  cases ho : (rangeHeader s).1 with
  | none =>
    intro _
    rw [ho, rangeHeader_none ho]
    exact ⟨[], .refl s, rfl⟩
  | some header =>
    have hrun := attempt_eq steady_rangeNames s
    have hnames : (rangeNames s).1 = some header := (congrArg Prod.fst hrun).symm.trans ho
    -- what was found is kept
    have hsame : (rangeHeader s).2 = (rangeNames s).2 := by
      rw [hnames] at hrun
      have hstate := congrArg Prod.snd hrun
      exact hstate
    intro hc
    rw [hsame] at hc ⊢
    obtain ⟨ts, hpass, hts⟩ := runs_rangeNames hc
    rw [ho]
    exact ⟨ts, hpass, hts (by rw [hnames]; rfl)⟩

end

/-- The first clause of a loop. -/
theorem runs_forInit (hi : inner.Steady) {context : Context} :
    Runs (forInit inner context) s fun _ ts _ => Nested b ts := by
  have next : Moving (do
      match ← declarationBody inner context with
      | some decls => decls.mapM declarationStatement
      | none => return [← expressionStatement inner]) := moving_declarationsOrExpression
  refine .accept (by decide) (fun hsemi => .pure (.single (by rw [hsemi]; rfl))) fun _ => ?_
  exact (runs_declarationsOrExpression ht hi).mono fun _ _ _ h => h.placid.nested

variable (hk : isQuiet s.current.kind = true) {context : Context}
include hk

theorem runs_ifStatement : Runs (ifStatement inner context) s fun _ ts _ => StmtText b ts := by
  refine .here <| .advance (ne_eof_of_isQuiet hk) <| .andThen (runs_condition ht) fun c cs s₁ hcs => ?_
  refine .andThen (ht.statement _ _) fun t ts s₂ hts => .accept (by decide) (fun helse => ?_) fun _ => ?_
  · refine .mapThen (ht.statement _ _) fun e es s₃ hes => .node ?_
    have hes : StmtText b (s₂.current :: es) := .cons (by rw [helse]; rfl) hes
    simpa using (hcs.stmt.append (hts.append hes)).cons hk
  · refine .pureThen <| .node ?_
    simpa using (hcs.stmt.append hts).cons hk

theorem runs_whileStatement : Runs (whileStatement inner context) s fun _ ts _ => StmtText b ts := by
  refine .here <| .advance (ne_eof_of_isQuiet hk) <| .andThen (runs_condition ht) fun c cs s₁ hcs => ?_
  refine .andThen (ht.statement _ _) fun body bs s₂ hbs => .node ?_
  simpa using (hcs.stmt.append hbs).cons hk

theorem runs_doStatement : Runs (doStatement inner context) s fun _ ts _ => StmtText b ts := by
  refine .here <| .advance (ne_eof_of_isQuiet hk) <| .andThen (ht.statement _ _) fun body bs s₁ hbs => ?_
  refine .consume (by decide) fun hwhile => .andThen (runs_condition ht) fun c cs s₂ hcs => ?_
  refine .expectSemicolon fun hsemi => .node ?_
  have hend : StmtText b (s₁.current :: (cs ++ [s₂.current])) :=
    .ended (Tidy.cons (by rw [hwhile]; rfl) hcs).slack hsemi
  simpa using (hbs.append hend).cons hk

theorem runs_forStatement (hi : inner.Steady) :
    Runs (forStatement inner context) s fun _ ts _ => StmtText b ts := by
  refine .here <| .advance (m := fun _ => .andThen inferInstance fun _ => .andThen inferInstance fun o => ?_)
    (ne_eof_of_isQuiet hk) <| .consume (m := fun _ => .andThen inferInstance fun o => ?_) (by decide)
    fun hl => .andThen (m := fun o => ?_) (runs_rangeHeader (b := b)) fun o hs s₁ hhs => ?_
  case refine_4 =>
    cases o with
    | some header =>
      refine .andThen (ht.expression _) fun range rs s₂ hrs => .consume (by decide) fun hr => ?_
      refine .andThen (ht.statement _ _) fun body bs s₃ hbs => .node ?_
      have hheader : Tidy b (s.advanced.current :: ((hs ++ rs) ++ [s₂.current])) :=
        .group (by rw [hl, hr]; rfl) (Nested.append hhs hrs.tidy.nested)
      simpa using (hheader.stmt.append hbs).cons hk
    | none =>
      obtain rfl : hs = [] := hhs
      have optional : ∀ k s₂, Runs (do if ← check k then pure none else some <$> inner.expression) s₂
          fun _ ts _ => Nested b ts := fun k s₂ =>
        .check (fun _ => .pure .nil) fun _ => .map ((ht.expression _).mono fun _ _ _ h => h.tidy.nested)
      refine .andThen (runs_forInit ht hi) fun init is s₂ his => .choice ?_
      refine .andThen (optional _ _) fun condition cs s₃ hcs => .consume (by decide) fun hsemi => .choice ?_
      refine .andThen (optional _ _) fun increment us s₄ hus => .consume (by decide) fun hr => ?_
      refine .andThen (ht.statement _ _) fun body bs s₅ hbs => .node ?_
      have hclauses : Nested b (is ++ (cs ++ s₃.current :: us)) :=
        his.append (hcs.append (.cons (by rw [hsemi]; rfl) hus))
      have hheader : Tidy b (s.advanced.current :: ((is ++ (cs ++ s₃.current :: us)) ++ [s₄.current])) :=
        .group (by rw [hl, hr]; rfl) hclauses
      simpa using (hheader.stmt.append hbs).cons hk
  all_goals
    dsimp only
    split <;> infer_instance

/-! ## Switches -/

theorem runs_switchCase : Runs (switchCase inner context) s fun _ ts _ => ts ≠ [] ∧ Nested b ts := by
  have pattern : ∀ s₁, Runs (do if ← accept .kwDefault then pure none else some <$> inner.expression) s₁
      fun _ ts _ => Nested b ts := fun s₁ =>
    .accept (by decide) (fun hd => .pure (.single (by rw [hd]; rfl))) fun _ =>
      .map ((ht.expression _).mono fun _ _ _ h => h.tidy.nested)
  refine .here <| .advance (ne_eof_of_isQuiet hk) <| .consume (by decide) fun hl => .choice ?_
  refine .andThen (pattern _) fun pattern ps s₁ hps => .consume (by decide) fun hr => ?_
  refine .andThen (runs_block ht) fun body bs s₂ hbs => ?_
  have hhead : Tidy b (s.advanced.current :: (ps ++ [s₁.current])) := .group (by rw [hl, hr]; rfl) hps
  have hcase : Tidy b (s.current :: s.advanced.current :: (ps ++ s₁.current :: bs)) := by
    simpa using Tidy.cons hk (hhead.append hbs.tidy)
  refine .accept (by decide) (fun hsemi => .spanFrom <| .pure ⟨List.cons_ne_nil _ _, ?_⟩) fun _ => ?_
  · simpa using hcase.nested.append (.single (t := s₂.current) (by rw [hsemi]; rfl))
  · exact .spanFrom <| .pure (by simpa using hcase.nested)

omit hk in
theorem runs_switchCases : Runs (switchCases inner context) s fun _ ts _ => Nested b ts := by
  have next : ∀ cases s, Runs (nextCases inner context cases) s fun _ ts _ => ts ≠ [] ∧ Nested b ts := by
    intro cases s
    refine .check (fun hk => ?_) fun _ => .reportUnexpected
    refine .andThen (runs_switchCase ht (by rw [hk]; rfl)) fun case ts s₁ hts => ?_
    exact .ite (fun _ => .reportStructural) fun _ => .pure (by simpa using hts)
  have moving : ∀ cases, Moving (switchRound inner context cases) := fun cases => by
    unfold switchRound
    infer_instance
  refine .iterate (I := fun _ ts _ => Nested b ts) (t := []) (fun cases ts s hts => ?_) .nil
  refine .checkOrEnd fun b => .ite (fun _ => .pure (by simpa using hts)) fun _ => .position ?_
  refine .andThen (next cases s).tracked fun cases us s₁ ⟨hpass, hclean, hus⟩ => ?_
  exact .recoverAfterItem hpass hus.1 hclean <| .pure (by simpa using hts.append hus.2)

theorem runs_switchStatement : Runs (switchStatement inner context) s fun _ ts _ => StmtText b ts := by
  refine .here <| .advance (ne_eof_of_isQuiet hk) <| .andThen (runs_condition ht) fun subject ss s₁ hss => ?_
  refine .consume (by decide) fun hl => .andThen (runs_switchCases ht) fun cases cs s₂ hcs => ?_
  refine .consume (by decide) fun hr => .nodeThen <| .ite (fun _ => .pure ?_) fun _ => .reportStructural
  have hbody : Tidy b (s₁.current :: (cs ++ [s₂.current])) := .group (by rw [hl, hr]; rfl) hcs
  simpa using (hss.append hbody).stmt.cons hk

/-! ## Jumps -/

theorem runs_returnStatement : Runs (returnStatement inner) s fun _ ts _ => StmtText b ts := by
  have value : ∀ s₁, Runs (do
      if ← checkAny [.semicolon, .rightBrace] then pure none else some <$> inner.expression) s₁
      fun _ ts _ => Slack b ts := fun s₁ =>
    .checkAny fun _ _ => .ite (fun _ => .pure .nil) fun _ =>
      .map ((ht.expression _).mono fun _ _ _ h => h.tidy.slack)
  refine .here <| .advance (ne_eof_of_isQuiet hk) <| .choice ?_
  refine .andThen (value _) fun value vs s₁ hvs => .expectSemicolon fun hsemi => .node ?_
  simpa using (StmtText.ended hvs hsemi).cons hk

omit ht in
theorem runs_breakStatement : Runs (breakStatement context) s fun _ ts _ => StmtText b ts := by
  refine .here <| .advance (ne_eof_of_isQuiet hk) <| .expectSemicolon fun hsemi => .nodeThen ?_
  exact .ite (fun _ => .pure (.cons hk (.semicolon hsemi))) fun _ => .reportStructural

omit ht in
theorem runs_continueStatement : Runs (continueStatement context) s fun _ ts _ => StmtText b ts := by
  refine .here <| .advance (ne_eof_of_isQuiet hk) <| .expectSemicolon fun hsemi => .nodeThen ?_
  exact .ite (fun _ => .pure (.cons hk (.semicolon hsemi))) fun _ => .reportStructural

/-! ## Exceptions, assertions, locks -/

omit hk in
theorem runs_handlerException : Runs (handlerException inner) s fun _ ts _ => Slack b ts := by
  refine .accept (by decide) (fun hl => ?_) fun _ => .pure .nil
  refine .andThen (ht.type _) fun exception ts s₁ hts => .check (fun hname => ?_) fun _ => ?_
  · refine .advance (by rw [hname]; decide) <| .pureThen <| .consume (by decide) fun hr => .pure ?_
    have hcaught : Nested b (ts ++ [s₁.current]) := hts.nested.append (.single (by rw [hname]; rfl))
    simpa using (Tidy.group (by rw [hl, hr]; rfl) hcaught).slack
  · refine .pureThen <| .consume (by decide) fun hr => .pure ?_
    exact (Tidy.group (by rw [hl, hr]; rfl) hts.nested).slack

omit hk in
theorem runs_handler : Runs (handler? inner context) s fun _ ts _ => Slack b ts := by
  refine .here <| .accept (by decide) (fun hcatch => ?_) fun _ => .pure .nil
  refine .andThen (runs_handlerException ht) fun caught es s₁ hes => ?_
  refine .andThen (runs_block ht) fun body bs s₂ hbs => .spanFrom <| .pure ?_
  have hhandler : Tidy b ((s.current :: es) ++ bs) := (hes.tidy_cons (by rw [hcatch]; rfl)).append hbs.tidy
  simpa using hhandler.slack

theorem runs_tryStatement : Runs (tryStatement inner context) s fun _ ts _ => StmtText b ts := by
  refine .here <| .advance (ne_eof_of_isQuiet hk) <| .andThen (runs_block ht) fun body bs s₁ hbs => ?_
  refine .andThen (.many (fun _ _ _ h => h) (I := fun _ ts _ => Slack b ts) (a := []) (fun _ ts s hts => ?_)
    .nil) fun handlers hs s₂ hhs => .ite (fun _ => .reportUnexpected) fun _ => .node ?_
  · refine (runs_handler ht).mono fun o us s₁ hus => ?_
    cases o <;> exact hts.append hus
  · simpa using (hbs.tidy.behind hhs).stmt.cons hk

omit hk in
/-- A block and a semicolon that may stand behind it. -/
theorem runs_closedBlock : Runs (closedBlock inner context) s fun _ ts _ => StmtText b ts := by
  refine .andThen (runs_block ht) fun body ts s₁ hts => .accept (by decide) (fun hsemi => ?_) fun _ => ?_
  · exact .pure (.ended hts.tidy.slack hsemi)
  · exact .pure (by simpa using hts.tidy.stmt)

theorem runs_throwStatement : Runs (throwStatement inner context) s fun _ ts _ => StmtText b ts := by
  refine .here <| .advance (ne_eof_of_isQuiet hk) <| .accept (by decide) (fun hsemi => ?_) fun _ => ?_
  · exact .node (.cons hk (.semicolon hsemi))
  · refine .check (fun _ => ?_) fun _ => ?_
    · exact .andThen (runs_closedBlock ht) fun body bs s₁ hbs => .node (by simpa using hbs.cons hk)
    · refine .andThen (ht.expression _) fun message ts s₁ hts => .check (fun _ => ?_) fun _ => ?_
      · refine .andThen (runs_closedBlock ht) fun body bs s₂ hbs => .node ?_
        simpa using (hts.tidy.stmt.append hbs).cons hk
      · refine .expectSemicolon fun hsemi => .node ?_
        simpa using (StmtText.ended hts.tidy.slack hsemi).cons hk

theorem runs_assertStatement : Runs (assertStatement inner) s fun _ ts _ => StmtText b ts := by
  refine .here <| .advance (ne_eof_of_isQuiet hk) <| .consume (by decide) fun hl => ?_
  refine .andThen (ht.expression _) fun condition ts s₁ hts => .consume (by decide) fun hr => ?_
  refine .expectSemicolon fun hsemi => .node ?_
  have hcondition : Tidy b (s.advanced.current :: (ts ++ [s₁.current])) :=
    .group (by rw [hl, hr]; rfl) hts.tidy.nested
  simpa using (StmtText.ended hcondition.slack hsemi).cons hk

omit ht [TwinLevel recording inner inner] in
theorem runs_asmBody : Runs asmBody s fun _ ts _ => StmtText b ts := by
  refine .advance (m := fun _ => .andThen inferInstance fun k => ?_) (ne_eof_of_isQuiet hk) <| .kind ?_
  · dsimp only
    split <;> infer_instance
  · split
    case h_1 hasm =>
      refine .advance (by rw [hasm]; decide) ?_
      have hraw : Tidy b [s.current, s.advanced.current] := .cons hk (.single (by rw [hasm]; rfl))
      refine .accept (by decide) (fun hsemi => .pure ?_) fun _ => .pure hraw.stmt
      exact hraw.stmt.append (.semicolon hsemi)
    case h_2 hstring =>
      refine .advance (by rw [hstring]; decide) <| .expectSemicolon fun hsemi => .pure ?_
      exact .cons hk (.cons (by rw [hstring]; rfl) (.semicolon hsemi))
    case h_3 => exact .reportUnexpected

omit ht [TwinLevel recording inner inner] in
theorem runs_asmStatement : Runs asmStatement s fun _ ts _ => StmtText b ts :=
  .here <| .andThen (runs_asmBody hk) fun raw ts s₁ hts => .node (by simpa using hts)

theorem runs_lockStatement {which : LockKind} :
    Runs (lockStatement inner context which) s fun _ ts _ => StmtText b ts := by
  have body : ∀ s₁, Runs (do
      if ← check .leftBrace then some <$> closedBlock inner context
      else
        expectSemicolon "lock scope"
        pure none) s₁ fun _ ts _ => StmtText b ts := fun s₁ =>
    .check (fun _ => .map (runs_closedBlock ht)) fun _ => .expectSemicolon fun hsemi =>
      .pure (.semicolon hsemi)
  refine .here <| .advance (ne_eof_of_isQuiet hk) <| .andThen (runs_qualifiedName (b := b)) ?_
  refine fun scope ts s₁ hts => ?_
  refine .choice <| .andThen (body _) fun body bs s₂ hbs => .node ?_
  simpa using (hts.stmt.append hbs).cons hk

omit hk in
theorem runs_blockStatement : Runs (blockStatement inner context) s fun _ ts _ => StmtText b ts :=
  .andThen (runs_block ht) fun body ts s₁ hts => .nodeAt (by simpa using hts.tidy.stmt)

/-! ## Statements -/

omit hk in
theorem runs_keywordStatement (hi : inner.Steady) : Runs (keywordStatement inner context) s
    fun o ts _ => o.elim (ts = []) fun _ => StmtText b ts := by
  have quiet : ∀ {k : Kind}, s.current.kind = k → isQuiet k = true → isQuiet s.current.kind = true :=
    fun h hq => h ▸ hq
  refine .kind ?_
  split
  case h_1 hk => exact .map (runs_ifStatement ht (quiet hk rfl))
  case h_2 hk => exact .map (runs_whileStatement ht (quiet hk rfl))
  case h_3 hk => exact .map (runs_doStatement ht (quiet hk rfl))
  case h_4 hk => exact .map (runs_forStatement ht (quiet hk rfl) hi)
  case h_5 hk => exact .map (runs_switchStatement ht (quiet hk rfl))
  case h_6 hk => exact .map (runs_returnStatement ht (quiet hk rfl))
  case h_7 hk => exact .map (runs_breakStatement (quiet hk rfl))
  case h_8 hk => exact .map (runs_continueStatement (quiet hk rfl))
  case h_9 hk => exact .map (runs_tryStatement ht (quiet hk rfl))
  case h_10 hk => exact .map (runs_throwStatement ht (quiet hk rfl))
  case h_11 hk => exact .map (runs_assertStatement ht (quiet hk rfl))
  case h_12 hk => exact .map (runs_asmStatement (quiet hk rfl))
  case h_13 hk | h_14 hk | h_15 hk => exact .map (runs_lockStatement ht (quiet hk rfl))
  case h_16 => exact .map (runs_blockStatement ht)
  case h_17 => exact .pure rfl

omit hk in
theorem runs_blockItem (hi : inner.Steady) :
    Runs (blockItem inner context) s fun _ ts _ => StmtText b ts := by
  have next : Moving (do
      match ← declarationBody inner context with
      | some decls => decls.mapM declarationStatement
      | none => return [← expressionStatement inner]) := moving_declarationsOrExpression
  refine .andThen (m := fun o => by cases o <;> infer_instance) (runs_keywordStatement ht hi)
    fun o ts s₁ hts => ?_
  cases o with
  | some stmt => exact .pure (by simpa using hts)
  | none =>
    obtain rfl : ts = [] := hts
    exact runs_declarationsOrExpression ht hi

omit hk in
theorem runs_itemsBody (hi : inner.Steady) :
    Runs (itemsBody inner context) s fun _ ts _ => Placid b ts :=
  .bodyItems (R := fun _ ts => Placid b ts) .nil .append .semicolon fun _ =>
    (runs_blockItem ht hi).mono fun _ _ _ h => ⟨h.ne_nil, h.placid⟩

omit hk in
theorem runs_statementBody (hi : inner.Steady) :
    Runs (statementBody inner context) s fun _ ts _ => StmtText b ts := by
  refine .here <| .andThen (m := fun o => by split <;> infer_instance) (runs_blockItem ht hi)
    fun statements ts s₁ hts => ?_
  split
  · exact .pure (by simpa using hts)
  · exact .spanFrom <| .nodeAt (by simpa using hts)

end Statements

/-! ## Levels over each other -/

theorem Runs.refuse {β : Type} {limit : Nat} {s : State} {q : Unit → Parser β}
    {Q : β → List Token → State → Prop} [∀ u, Moving (q u)] : Runs (Grammar.refuse limit >>= q) s Q :=
  .assoc <| .current <| .assoc .report

theorem Runs.refuseNode {α : Type} {limit : Nat} {build : Span → NodeId → α} {s : State}
    {Q : α → List Token → State → Prop} : Runs (Grammar.refuseNode limit build) s Q := .here .refuse

variable {b : Brackets}

/-- Where nothing is read no run is clean. -/
theorem Level.full_texts (limit : Nat) : (Level.full limit).Texts b where
  type _ := .refuseNode
  expression _ := .refuseNode
  conditional _ := .refuseNode
  power _ := .refuseNode
  unary _ := .refuseNode
  statement _ _ := .here .refuse
  items _ _ := .refuse
  declaration _ _ := .refuse

/-- The sizes of arrays are expressions.  Where they are skipped, brackets are only counted. -/
theorem readsSize_sizeIn {skimming : Bool} (hb : skimming = true → b = .counted) {inner : Level}
    (ht : inner.Texts b) : ReadsSize b (sizeIn skimming inner.expression) := by
  cases skimming with
  | false => exact fun s => (ht.expression s).mono fun _ _ _ h _ => h.tidy.nested
  | true =>
    obtain rfl := hb rfl
    exact readsSize_skippedSize

theorem Level.aboveIn_texts {skimming : Bool} (hb : skimming = true → b = .counted) {inner : Level}
    [TwinLevel recording inner inner] (ht : inner.Texts b) (hi : inner.Steady) :
    (Level.aboveIn skimming fun _ => inner).Texts b where
  type _ := runs_typeBody ht.type (readsSize_sizeIn hb ht)
  expression _ := runs_expressionBody ht hi
  conditional _ := runs_conditionalBody ht hi
  power _ := runs_powerBody ht hi
  unary _ := runs_unaryBody ht hi
  statement _ _ := runs_statementBody ht hi
  items _ _ := .map ((runs_itemsBody ht hi).mono fun _ _ _ h => ⟨rfl, h⟩)
  declaration _ _ := runs_declarationBody ht hi

/-- What the grammar reads without an error, be types skimmed or not. -/
theorem grammarIn_texts {skimming : Bool} (hb : skimming = true → b = .counted) (limit room : Nat) :
    (grammarIn (Level.full limit) skimming room).Texts b := by
  induction room with
  | zero => exact Level.full_texts limit
  | succ room ih => exact Level.aboveIn_texts hb ih (grammarIn_steady (Level.full_steady limit) room)

theorem grammar_texts (limit room : Nat) : (grammar limit room).Texts b := by
  have h := @grammarIn_texts b false nofun limit room
  rwa [grammarIn_false] at h

end FluxFront.Grammar
