import FluxFront.Proofs.CompositionProductions
import FluxFront.Proofs.StmtTexts

/-!
# What declarations are read from

In the text that a clean run of a production for declarations reads, every bracket is closed by its like,
except for one place: the symbol of an operator may be any token but the bracket behind it.

* **Texts**: `Bracketed symbols ts` says that brackets match in a text but for symbols of operators, which
  stand in brackets of their own, and lists those symbols.
* **Trees**: the symbols are those of the declarations that were read (`Decl.symbols`).  Variables have none,
  and other declarations stand in no statement (`runs_declarationStatements`), so only declarations that
  contain declarations pass symbols on.
* **Levels**: `grammar_declTexts`, and from it whole programs (`runs_programOver`).
-/

set_option synthInstance.maxSize 1000

namespace FluxFront

/-! ## The symbols of operators -/

mutual

/-- The symbols of the operators that a declaration declares, those of its members included. -/
def Decl.symbols : Decl → List String
  | ⟨form, _, _⟩ => form.symbols
termination_by structural d => d

/-- The symbols of the operators that a form of declaration declares. -/
def Decl.Form.symbols : Decl.Form → List String
  | .operatorDecl symbol _ _ _ => [symbol]
  | .namespaceDecl _ members | .classDecl _ _ _ members _ | .objectDecl _ _ members _ =>
    Decl.symbolsEach members
  | .template _ inner => inner.symbols
  | _ => []
termination_by structural form => form

/-- The symbols of the operators that some declarations declare. -/
def Decl.symbolsEach : List Decl → List String
  | [] => []
  | decl :: decls => decl.symbols ++ Decl.symbolsEach decls
termination_by structural decls => decls

end

/-- The symbols of the operators that a program declares. -/
def Program.symbols (p : Program) : List String := Decl.symbolsEach p.declarations

theorem Decl.symbolsEach_append (ds es : List Decl) :
    Decl.symbolsEach (ds ++ es) = Decl.symbolsEach ds ++ Decl.symbolsEach es := by
  induction ds with
  | nil => rfl
  | cons d ds ih => simp [Decl.symbolsEach, ih]

theorem Decl.symbolsEach_eq_nil {ds : List Decl} (h : ∀ d ∈ ds, d.symbols = []) :
    Decl.symbolsEach ds = [] := by
  induction ds with
  | nil => rfl
  | cons d ds ih =>
    rw [List.forall_mem_cons] at h
    rw [Decl.symbolsEach, h.1, ih h.2, List.nil_append]

namespace Grammar

open Token (Kind)

theorem symbols_of_isVariable {d : Decl} (h : isVariable d = true) : d.symbols = [] := by
  unfold isVariable at h
  split at h
  · rfl
  · exact absurd h Bool.false_ne_true

/-! ## Texts -/

/-- Every bracket is closed by its like, apart from the given symbols of operators, each of which stands
between brackets of its own. -/
inductive Bracketed : List String → List Token → Prop
  | nested {ts : List Token} (h : Nested .paired ts) : Bracketed [] ts
  | group {symbols : List String} {o c : Token} {ts : List Token} (hoc : closing? o.kind = some c.kind)
      (h : Bracketed symbols ts) : Bracketed symbols (o :: (ts ++ [c]))
  | append {xs ys : List String} {ts us : List Token} (ht : Bracketed xs ts) (hu : Bracketed ys us) :
      Bracketed (xs ++ ys) (ts ++ us)
  | symbol {o t c : Token} (ho : o.kind = .leftBracket) (ht : t.kind ≠ .rightBracket) (hne : t.kind ≠ .eof)
      (hc : c.kind = .rightBracket) : Bracketed [t.lexeme] [o, t, c]

namespace Bracketed

variable {xs : List String} {ts us : List Token}

theorem behind (hu : Bracketed xs us) (ht : Nested .paired ts) : Bracketed xs (ts ++ us) :=
  (nested ht).append hu

theorem before (ht : Bracketed xs ts) (hu : Nested .paired us) : Bracketed xs (ts ++ us) := by
  simpa using ht.append (nested hu)

/-- What some declarations are read from, and others behind them. -/
theorem declarations {ds es : List Decl} (ht : Bracketed (Decl.symbolsEach ds) ts)
    (hu : Bracketed (Decl.symbolsEach es) us) : Bracketed (Decl.symbolsEach (ds ++ es)) (ts ++ us) := by
  rw [Decl.symbolsEach_append]
  exact ht.append hu

theorem semicolon {t : Token} (h : t.kind = .semicolon) : Bracketed [] [t] :=
  .nested (.single (by rw [h]; rfl))

end Bracketed

/-- What is known of a declaration and the tokens it was read from. -/
structure DeclText (d : Decl) (ts : List Token) : Prop where
  ne_nil : ts ≠ []
  bracketed : Bracketed d.symbols ts

/-- A declaration without operators. -/
theorem DeclText.plain {d : Decl} {ts : List Token} (hd : d.symbols = []) (h : StmtText .paired ts) :
    DeclText d ts :=
  ⟨h.ne_nil, by rw [hd]; exact .nested h.placid.nested⟩

/-- What is known of declarations, if there are any, and the tokens they were read from. -/
def Declares (decls : Option (List Decl)) (ts : List Token) : Prop :=
  decls.elim (ts = []) fun ds => ts ≠ [] ∧ Bracketed (Decl.symbolsEach ds) ts

/-- What is known of the texts that the entries of a level for declarations read. -/
structure Level.DeclTexts (l : Level) : Prop where
  members (context : Context) (what : String) (s : State) :
    Runs (l.members context what) s fun o ts _ => ∃ ds, o = some ds ∧ Bracketed (Decl.symbolsEach ds) ts
  declaration (context : Context) (s : State) :
    Runs (l.declaration context) s fun o ts _ => Declares o ts

/-! ## Rules -/

/-- What holds of every result of a parser holds behind its clean runs. -/
theorem Runs.yields {α : Type} {p : Parser α} {s : State} {R : α → Prop} {Q : α → List Token → State → Prop}
    (h : Runs p s Q) (hp : Yields R p) : Runs p s fun a ts s' => R a ∧ Q a ts s' := by
  intro hc
  obtain ⟨ts, hpass, ha⟩ := h hc
  exact ⟨ts, hpass, hp s, ha⟩

/-! ## Productions

The keyword that a declaration starts with is at the cursor where its production runs. -/

section Productions

variable {s : State} {inner : Level} [TwinLevel recording inner inner]

section

variable (ht : inner.Texts .paired)
include ht

theorem runs_structFields : Runs (structFields inner) s fun _ ts _ => StmtText .paired ts := by
  refine .here <| .andThen (ht.type _) fun type ts s₁ hts => .consumeName fun hname => .spanFrom ?_
  have hfirst : Tidy .paired (ts ++ [s₁.current]) := hts.append (.single (by rw [hname]; rfl))
  refine .andThen (.many (fun _ _ _ h => h) (I := fun _ us _ => Tidy .paired us) (a := [])
    (fun _ us s hus => ?_) hfirst) fun more us s₂ hus => .expectSemicolon fun hsemi => .pure ?_
  · refine .accept (by decide) (fun hcomma => .consumeName fun hname => ?_) fun _ => .pure (by simpa using hus)
    refine .duplicateType fun copy nextId => .spanFrom <| .pure ?_
    exact hus.append (.cons (by rw [hcomma]; rfl) (.single (by rw [hname]; rfl)))
  · simpa using StmtText.ended hus.slack hsemi

theorem runs_parameters : Runs (parameters inner) s fun _ ts _ => Tidy .paired ts := by
  have one : ∀ s, Runs (parameter inner) s fun _ ts _ => Tidy .paired ts := fun s => by
    refine .here <| .andThen (ht.type _) fun type ts s₁ hts => .consumeName fun hname => .spanFrom <| .pure ?_
    exact hts.append (.single (by rw [hname]; rfl))
  have params : ∀ s, Runs (do if ← check .rightParen then pure [] else commaSeparated (parameter inner)) s
      fun _ ts _ => Slack .paired ts := fun s =>
    .check (fun _ => .pure .nil) fun _ => (Runs.commaSeparated one).mono fun _ _ _ h => (h.tidy id).slack
  refine .consume (by decide) fun hl => .choice <| .andThen (params _) fun params ts s₁ hts => ?_
  exact .consume (by decide) fun hr => .pure (.group (by rw [hl, hr]; rfl) hts.nested)

theorem runs_structDecl (hk : isQuiet s.current.kind = true) :
    Runs (structDecl inner) s fun d ts _ => DeclText d ts := by
  refine .here <| .advance (ne_eof_of_isQuiet hk) <| .consumeName fun hname => ?_
  have hhead : Tidy .paired [s.current, s.advanced.current] := .cons hk (.single (by rw [hname]; rfl))
  refine .accept (by decide) (fun hsemi => .node (.plain rfl ?_)) fun _ => .consume (by decide) fun hl => ?_
  · exact hhead.stmt.append (.semicolon hsemi)
  · refine .andThen (.bodyItems (R := fun _ ts => Nested .paired ts) .nil .append ?_ fun _ =>
      (runs_structFields ht).mono fun _ _ _ h => ⟨h.ne_nil, h.placid.nested⟩) fun fields ts s₁ hts => ?_
    · exact fun h => .single (by rw [h]; rfl)
    · refine .consume (by decide) fun hr => ?_
      have hall : StmtText .paired ([s.current, s.advanced.current] ++
          s.advanced.advanced.current :: (ts ++ [s₁.current])) :=
        (hhead.append (.group (by rw [hl, hr]; rfl) hts)).stmt
      refine .accept (by decide) (fun hsemi => .node (.plain rfl ?_)) fun _ => .node (.plain rfl ?_)
      · simpa using hall.append (.semicolon hsemi)
      · simpa using hall

theorem runs_functionDecl (hk : isQuiet s.current.kind = true) {context : Context} :
    Runs (functionDecl inner context) s fun d ts _ => DeclText d ts := by
  refine .here <| .advance (ne_eof_of_isQuiet hk) <| .consumeName fun hname => ?_
  refine .andThen (runs_parameters ht) fun params ps s₁ hps => ?_
  refine .andThen (runs_resultType ht.type) fun result rs s₂ hrs => ?_
  have hhead : Tidy .paired ([s.current, s.advanced.current] ++ ps ++ rs) :=
    ((Tidy.cons hk (.single (by rw [hname]; rfl))).append hps).behind hrs
  have decl : ∀ body s₃ ts, StmtText .paired ts → Runs (do
      let decl ← node (Decl.mk (.functionDecl s.advanced.current.lexeme params result body)) s.here
      if context.container = .classBody then
        reportStructural .functionInClass "Functions cannot be defined in a class; use an object" decl.span
      return decl) s₃ fun d us _ => DeclText d ([s.current, s.advanced.current] ++ ps ++ rs ++ (ts ++ us)) := by
    intro body s₃ ts hts
    refine .nodeThen <| .ite (fun _ => .reportStructural) fun _ => .pure (.plain rfl ?_)
    simpa using hhead.stmt.append hts
  refine .check (fun _ => .mapThen (runs_block ht) fun body bs s₃ hbs => ?_) fun _ => ?_
  · simpa using decl (some body) s₃ bs hbs.tidy.stmt
  · refine .accept (by decide) (fun hsemi => .pureThen ?_) fun _ => .reportUnexpected
    simpa using decl none _ _ (.semicolon hsemi)

/-- The symbol of an operator is whatever stands in front of the closing bracket. -/
theorem runs_operatorDecl (hk : isQuiet s.current.kind = true) {context : Context} :
    Runs (operatorDecl inner context) s fun d ts _ => DeclText d ts := by
  refine .here <| .advance (ne_eof_of_isQuiet hk) <| .andThen (runs_parameters ht) fun params ps s₁ hps => ?_
  refine .consume (by decide) fun hl => ?_
  have hends : ∀ {k : Kind}, ([.rightBracket, .eof].contains k) = false → k ≠ .rightBracket ∧ k ≠ .eof := by
    intro k h
    simpa using h
  refine .checkAny fun b hb => .ite (fun _ => .reportUnexpected) fun hno => ?_
  obtain ⟨hsymbol, hne⟩ := hends (by rw [← hb]; simpa using hno)
  refine .advance hne <| .pureThen <| .consume (by decide) fun hr => ?_
  refine .andThen (runs_resultType ht.type) fun result rs s₂ hrs => ?_
  refine .andThen (runs_block ht) fun body bs s₃ hbs => .node ⟨List.cons_ne_nil _ _, ?_⟩
  have hbehind : Nested .paired (rs ++ bs) := hrs.nested.append hbs.tidy.nested
  have hall := ((Bracketed.symbol hl hsymbol hne hr).before hbehind).behind (Tidy.cons hk hps).nested
  show Bracketed [s₁.advanced.current.lexeme] _
  simpa using hall

end

/-! ### Declarations without members -/

omit [TwinLevel recording inner inner] in
theorem runs_name {expected : String} : Runs (consumeName expected) s fun _ ts _ => Tidy .paired ts := by
  rw [← bind_pure (consumeName expected)]
  exact .consumeName fun hname => .pure (.single (by rw [hname]; rfl))

section

variable (hk : isQuiet s.current.kind = true)
include hk

omit [TwinLevel recording inner inner] in
theorem runs_importDecl : Runs importDecl s fun d ts _ => DeclText d ts := by
  have path : ∀ s, Runs importPath s fun _ ts _ => Tidy .paired ts := fun s => by
    refine .check (fun hstring => ?_) fun _ => .reportUnexpected
    refine .advance (m := fun _ => by split <;> infer_instance) (by rw [hstring]; decide) ?_
    have hpath : Tidy .paired [s.current] := .single (by rw [hstring]; rfl)
    split <;> exact .pure hpath
  have newName : ∀ s, Runs (do
      if ← accept .kwAs then some <$> consumeName "Expected alias after 'as'" else pure none) s
      fun _ ts _ => Slack .paired ts := fun s =>
    .accept (by decide) (fun has => .map (runs_name.mono fun _ _ _ h => (h.cons (by rw [has]; rfl)).slack))
      fun _ => .pure .nil
  refine .here <| .advance (ne_eof_of_isQuiet hk) <| .andThen (path _) fun path ts s₁ hts => ?_
  refine .choice <| .andThen (newName _) fun newName us s₂ hus => .expectSemicolon fun hsemi => ?_
  refine .node (.plain rfl ?_)
  simpa using (StmtText.ended (hts.behind hus).slack hsemi).cons hk

omit [TwinLevel recording inner inner] in
theorem runs_usingDecl : Runs usingDecl s fun d ts _ => DeclText d ts := by
  refine .here <| .advance (ne_eof_of_isQuiet hk) <| .andThen (runs_qualifiedName (b := .paired)) ?_
  refine fun path ts s₁ hts => ?_
  refine .expectSemicolon fun hsemi => .node (.plain rfl ?_)
  simpa using (StmtText.ended hts.slack hsemi).cons hk

theorem runs_enumDecl (ht : inner.Texts .paired) : Runs (enumDecl inner) s fun d ts _ => DeclText d ts := by
  have value : ∀ s, Runs (do if ← accept .equal then some <$> inner.expression else pure none) s
      fun _ ts _ => Slack .paired ts := fun s =>
    .accept (by decide) (fun hequal => .map ((ht.expression _).mono fun _ _ _ h =>
      (h.tidy.cons (by rw [hequal]; rfl)).slack)) fun _ => .pure .nil
  have member : ∀ s, Runs (enumMember inner) s fun _ ts _ => Tidy .paired ts := fun s => by
    refine .here <| .consumeName fun hname => .choice <| .andThen (value _) fun value ts s₁ hts => ?_
    exact .spanFrom <| .pure (by simpa using hts.tidy_cons (by rw [hname]; rfl))
  have members : ∀ s, Runs (commaTerminated .rightBrace (enumMember inner)) s fun _ ts _ => Slack .paired ts :=
    fun s => (Runs.commaTerminated member).mono fun _ _ _ h => by
      rcases h with ⟨-, rfl⟩ | h
      · exact .nil
      · exact (h.tidy id).slack
  refine .here <| .advance (ne_eof_of_isQuiet hk) <| .consumeName fun hname => ?_
  refine .consume (by decide) fun hl => .andThen (members _) fun members ts s₁ hts => ?_
  refine .consume (by decide) fun hr => ?_
  have hbody : Tidy .paired (s.advanced.advanced.current :: (ts ++ [s₁.current])) :=
    .group (by rw [hl, hr]; rfl) hts.nested
  have hall : StmtText .paired
      (s.current :: s.advanced.current :: s.advanced.advanced.current :: (ts ++ [s₁.current])) :=
    .cons hk (.cons (by rw [hname]; rfl) hbody.stmt)
  refine .accept (by decide) (fun hsemi => .node (.plain rfl ?_)) fun _ => .node (.plain rfl ?_)
  · simpa using hall.append (.semicolon hsemi)
  · simpa using hall

theorem runs_typeAlias (ht : inner.Texts .paired) : Runs (typeAlias inner) s fun d ts _ => DeclText d ts := by
  refine .here <| .advance (ne_eof_of_isQuiet hk) <| .consumeName fun hname => ?_
  refine .consume (by decide) fun hequal => .andThen (ht.type _) fun type ts s₁ hts => ?_
  refine .expectSemicolon fun hsemi => .node (.plain rfl ?_)
  have hall := StmtText.ended ((hts.cons (by rw [hequal]; rfl)).cons (by rw [hname]; rfl)).slack hsemi
  simpa using hall.cons hk

omit [TwinLevel recording inner inner] in
theorem runs_asmDecl : Runs asmDecl s fun d ts _ => DeclText d ts :=
  .here <| .andThen (runs_asmBody hk) fun raw ts s₁ hts => .node (.plain rfl (by simpa using hts))

omit [TwinLevel recording inner inner] hk in
theorem runs_dataDecl : Runs dataDecl s fun d ts _ => DeclText d ts := by
  refine .here <| .andThen (runs_dataLayout (b := .paired)) fun layout ts s₁ hts => ?_
  refine .consume (by decide) fun has => ?_
  refine .consumeName fun hname => .expectSemicolon fun hsemi => .node (.plain rfl ?_)
  have hname : Tidy .paired [s₁.current, s₁.advanced.current] :=
    .cons (by rw [has]; rfl) (.single (by rw [hname]; rfl))
  simpa using StmtText.ended (hts.append hname).slack hsemi

end

/-! ### Variables -/

section

omit [TwinLevel recording inner inner]

theorem yields_declarator {start : Location} {qualifiers : Qualifiers} {type : Ty} {name : String}
    {instantiation : Option (List Expr)} :
    Yields (isVariable · = true) (declarator inner start qualifiers type name instantiation) :=
  .always fun _ => .ite (.always fun _ => .node (fun _ _ => rfl) start) (.node (fun _ _ => rfl) start)

theorem yields_finishVariables {start : Location} {qualifiers : Qualifiers} {type : Ty} {name : String}
    {instantiation : Option (List Expr)} :
    Yields (fun ds => ∀ d ∈ ds, isVariable d = true)
      (finishVariables inner start qualifiers type name instantiation) := by
  refine .andThen yields_declarator fun first hfirst => ?_
  refine .andThen (.many (R := (isVariable · = true)) ?_) fun more hmore => ?_
  · refine .always fun accepted => .ite (.always fun name => .always fun copy => ?_) (.pure nofun)
    exact .andThen yields_declarator fun decl hdecl => .pure (by simpa using hdecl)
  · exact .always fun _ => .pure (List.forall_mem_cons.2 ⟨hfirst, hmore⟩)

theorem yields_variableDecl : Yields (fun ds => ∀ d ∈ ds, isVariable d = true) (variableDecl inner) :=
  .always fun _ => .always fun _ => .always fun _ => .always fun _ => .always fun _ => yields_finishVariables

theorem yields_nameLedDecl :
    Yields (fun o => ∀ ds ∈ o, ∀ d ∈ ds, isVariable d = true) (nameLedDecl inner) := by
  have found : ∀ {p : Parser (List Decl)}, Yields (fun ds => ∀ d ∈ ds, isVariable d = true) p →
      Yields (fun o => ∀ ds ∈ o, ∀ d ∈ ds, isVariable d = true) (do return some (← p)) := by
    intro p h
    exact .andThen h fun ds hds => .pure (by simpa using hds)
  refine .always fun o => ?_
  cases o with
  | none => exact .always fun _ => .always fun _ => .pure nofun
  | some form =>
    refine .always fun _ => .always fun _ => .always fun type => ?_
    cases form with
    | named => exact .always fun _ => .always fun _ => .always fun _ => found yields_finishVariables
    | instantiation =>
      refine .always fun _ => .always fun _ => .always fun _ => .always fun _ => .always fun _ => ?_
      exact found yields_finishVariables

end

/-- Variables are read from placid texts and declare no operators. -/
theorem Declares.variables {ds : List Decl} {ts : List Token} (hds : ∀ d ∈ ds, isVariable d = true)
    (hts : StmtText .paired ts) : Declares (some ds) ts := by
  refine ⟨hts.ne_nil, ?_⟩
  rw [Decl.symbolsEach_eq_nil fun d hd => symbols_of_isVariable (hds d hd)]
  exact .nested hts.placid.nested

/-! ### Declarations with members -/

omit [TwinLevel recording inner inner] in
theorem runs_inheritanceEntry {isClass : Bool} :
    Runs (inheritanceEntry isClass) s fun _ ts _ => Tidy .paired ts := by
  have entry : ∀ start excluded s, Runs (do
      let base ← qualifiedName "Expected base name"
      if excluded && !isClass then
        reportStructural .invalidExclusion
          ("Objects cannot exclude members of '" ++ base.display ++ "'") (← spanFrom start)
      return (excluded, base)) s fun _ ts _ => Tidy .paired ts := fun start excluded s =>
    .andThen (runs_qualifiedName (b := .paired)) fun base ts s₁ hts =>
      .ite (fun _ => .spanFrom .reportStructural) fun _ => .pure (by simpa using hts)
  refine .here <| .accept (by decide) (fun hbang => ?_) fun _ => entry _ _ _
  exact (entry _ _ _).mono fun _ _ _ h => h.cons (by rw [hbang]; rfl)

omit [TwinLevel recording inner inner] in
theorem runs_templateParams : Runs templateParams s fun _ ts _ => Tidy .paired ts := by
  have params : ∀ s, Runs (do
      if ← checkAny [.greater, .shr] then pure []
      else commaSeparated (consumeName "Expected template parameter name")) s
      fun _ ts _ => Slack .paired ts := fun s =>
    .checkAny fun _ _ => .ite (fun _ => .pure .nil) fun _ =>
      (Runs.commaSeparated fun _ => runs_name).mono fun _ _ _ h => (h.tidy id).slack
  refine .consume (by decide) fun hless => .choice <| .andThen (params _) fun params ts s₁ hts => ?_
  refine .consumeClosingAngle fun t htk => .pure ?_
  have hclose : Slack .paired [t] := (Tidy.single (by rw [htk]; rfl)).slack
  exact (hts.append hclose).tidy_cons (by rw [hless]; rfl)

/-- Each declaration gets the parameters. -/
theorem runs_templates {params : List String} {span : Span} {decls : List Decl} :
    Runs (decls.mapM fun decl => nodeAt (Decl.mk (.template params decl)) span) s fun ds ts _ =>
      ts = [] ∧ Decl.symbolsEach ds = Decl.symbolsEach decls := by
  induction decls generalizing s with
  | nil => exact .pure ⟨rfl, rfl⟩
  | cons decl decls ih =>
    rw [List.mapM_cons]
    refine .nodeAtThen <| .andThen ih fun ds ts s₁ hds => .pure ?_
    exact ⟨by rw [hds.1, List.append_nil], congrArg (decl.symbols ++ ·) hds.2⟩

/-- Behind the opening brace of a body. -/
theorem moving_behindMembers (what : String) (o : Option (List Decl)) : Moving (do
    match o with
    | none => return []
    | some members =>
      consume .rightBrace ("Expected '\x7d' after " ++ what ++ " body")
      return members) := by
  cases o <;> infer_instance

section

variable (hd : inner.DeclTexts)
include hd

theorem runs_memberBody {context : Context} {what : String} :
    Runs (memberBody inner context what) s fun ds ts _ =>
      ts ≠ [] ∧ Bracketed (Decl.symbolsEach ds) ts := by
  have next := moving_behindMembers what
  refine .consume (by decide) fun hl => .andThen (hd.members _ _ _) fun o ts s₁ ho => ?_
  obtain ⟨ds, rfl, hts⟩ := ho
  refine .consume (by decide) fun hr => .pure ⟨List.cons_ne_nil _ _, ?_⟩
  exact .group (by rw [hl, hr]; rfl) hts

/-- The members of a body, and a semicolon that may stand behind it. -/
theorem runs_closedBody {context : Context} {what : String} {q : List Decl → Parser Decl}
    [∀ ds, Moving (q ds)] {Q : Decl → List Token → State → Prop}
    (h : ∀ ds ts s₁, Bracketed (Decl.symbolsEach ds) ts → Runs (q ds) s₁ fun d us s' => Q d (ts ++ us) s') :
    Runs (memberBody inner context what >>= fun members => accept .semicolon >>= fun _ => q members) s Q := by
  refine .andThen (runs_memberBody hd) fun ds ts s₁ hts => .accept (by decide) (fun hsemi => ?_) fun _ => ?_
  · have hall : Bracketed (Decl.symbolsEach ds) (ts ++ [s₁.current]) :=
      hts.2.before (.single (by rw [hsemi]; rfl))
    simpa using h ds _ s₁.advanced hall
  · exact h ds ts s₁ hts.2

theorem runs_namespaceDecl (hk : isQuiet s.current.kind = true) :
    Runs (namespaceDecl inner) s fun d ts _ => DeclText d ts := by
  refine .here <| .advance (ne_eof_of_isQuiet hk) <| .consumeName fun hname => ?_
  refine .check (fun _ => ?_) fun _ => .reportUnexpected
  refine runs_closedBody hd fun ds ts s₁ hts => .pureThen <| .node ?_
  have hall : Bracketed (Decl.symbolsEach ds) ([s.current, s.advanced.current] ++ ts) :=
    hts.behind (.cons (isInner_of_isQuiet hk) (.single (by rw [hname]; rfl)))
  exact ⟨List.cons_ne_nil _ _, by rwa [List.append_nil]⟩

theorem runs_classOrObject (hk : isQuiet s.current.kind = true) :
    Runs (classOrObject inner) s fun d ts _ => DeclText d ts := by
  have entries : ∀ isClass s, Runs (do
      if ← accept .colon then commaSeparated (inheritanceEntry isClass) else pure []) s
      fun _ ts _ => Nested .paired ts := fun isClass s =>
    .accept (by decide) (fun hcolon => (Runs.commaSeparated fun _ => runs_inheritanceEntry).mono fun _ _ _ h =>
      .cons (by rw [hcolon]; rfl) (h.tidy id).nested) fun _ => .pure .nil
  refine .here <| .advance (ne_eof_of_isQuiet hk) <| .consumeName fun hname => ?_
  refine .choice <| .andThen (entries _ _) fun entries es s₁ hes => ?_
  have hhead : Nested .paired (s.current :: s.advanced.current :: es) :=
    .cons (isInner_of_isQuiet hk) (.cons (by rw [hname]; rfl) hes)
  have text : ∀ (isClass : Bool) bases exclusions members isForward span id ts,
      Bracketed (Decl.symbolsEach members) ts →
      DeclText ⟨if isClass = true then .classDecl s.advanced.current.lexeme bases exclusions members isForward
        else .objectDecl s.advanced.current.lexeme bases members isForward, span, id⟩
        (s.current :: s.advanced.current :: (es ++ ts)) := by
    intro isClass bases exclusions members isForward span id ts hts
    refine ⟨List.cons_ne_nil _ _, ?_⟩
    cases isClass <;> exact hts.behind hhead
  refine .accept (by decide) (fun hsemi => .pureThen <| .node ?_) fun _ => ?_
  · exact text _ _ _ _ _ _ _ _ (.nested (.single (by rw [hsemi]; rfl)))
  · refine .ite (fun h => absurd h Bool.false_ne_true) fun _ => ?_
    dsimp only
    refine .ite (fun _ => ?_) fun _ => ?_
    all_goals
      refine runs_closedBody hd fun ds ts s₂ hts => .pureThen <| .node ?_
      rw [List.append_nil]
      exact text _ _ _ _ _ _ _ _ hts

theorem runs_listedTemplates (hk : isQuiet s.current.kind = true) {context : Context} :
    Runs (templateDecl inner context) s fun ds ts _ => ts ≠ [] ∧ Bracketed (Decl.symbolsEach ds) ts := by
  have next := moving_behindDeclaration
  refine .here <| .advance (ne_eof_of_isQuiet hk) <| .andThen runs_templateParams fun params ps s₁ hps => ?_
  refine .andThen (hd.declaration context _) fun o ts s₂ hts => ?_
  cases o with
  | none => exact .assoc (.current .report)
  | some decls =>
    refine .pureThen <| .spanFrom <| runs_templates.mono fun ds us s₃ hds => ⟨List.cons_ne_nil _ _, ?_⟩
    rw [hds.1, hds.2, List.append_nil]
    exact hts.2.behind (hps.cons hk).nested

theorem runs_declares (ht : inner.Texts .paired) (hi : inner.Steady) {context : Context} :
    Runs (declarationBody inner context) s fun o ts _ => Declares o ts := by
  have one : ∀ {decl : Parser Decl} [Moving decl], Runs decl s (fun d ts _ => DeclText d ts) →
      Runs (declarationBody.one decl) s fun o ts _ => Declares o ts := by
    intro decl _ h
    refine .andThen h fun d ts _ hd => .pure ⟨by simpa using hd.ne_nil, ?_⟩
    simpa [Decl.symbolsEach] using hd.bracketed
  have quiet : ∀ {k : Kind}, s.current.kind = k → isQuiet k = true → isQuiet s.current.kind = true :=
    fun h hq => h ▸ hq
  refine .get ?_
  dsimp only
  split
  case h_1 hk => exact one (runs_namespaceDecl hd (quiet hk rfl))
  case h_2 hk _ | h_3 hk _ => exact one (runs_classOrObject hd (quiet hk rfl))
  case h_4 hk _ => exact one (runs_structDecl ht (quiet hk rfl))
  case h_5 hk _ => exact one (runs_functionDecl ht (quiet hk rfl))
  case h_6 hk => exact one (runs_operatorDecl ht (quiet hk rfl))
  case h_7 hk => exact one (runs_importDecl (quiet hk rfl))
  case h_8 hk => exact one (runs_usingDecl (quiet hk rfl))
  case h_9 hk => exact .map (runs_listedTemplates hd (quiet hk rfl))
  case h_10 hk => exact one (runs_enumDecl (quiet hk rfl) ht)
  case h_11 hk => exact one (runs_typeAlias (quiet hk rfl) ht)
  case h_12 hk => exact one (runs_asmDecl (quiet hk rfl))
  case h_13 =>
    refine ((runs_nameLedDecl ht hi).yields yields_nameLedDecl).mono ?_
    rintro o ts _ ⟨hvariables, hts⟩
    cases o with
    | none => exact hts
    | some ds => exact .variables (hvariables ds rfl) (hts.2 (hvariables ds rfl))
  case h_14 =>
    refine .ite (fun _ => one runs_dataDecl) fun _ => .ite (fun _ => .map ?_) fun _ => .pure rfl
    refine ((runs_variableDecl ht).yields yields_variableDecl).mono ?_
    rintro ds ts _ ⟨hvariables, hts⟩
    exact .variables hvariables hts.2

/-- Declarations up to a closing brace. -/
theorem runs_membersBody (ht : inner.Texts .paired) (hi : inner.Steady) {context : Context} {what : String} :
    Runs (membersBody inner context what) s fun ds ts _ => Bracketed (Decl.symbolsEach ds) ts := by
  have item : ∀ s, Runs (memberItem inner context what) s fun ds ts _ =>
      ts ≠ [] ∧ Bracketed (Decl.symbolsEach ds) ts := fun s => by
    refine .andThen (m := fun o => by cases o <;> infer_instance) (runs_declares hd ht hi) fun o ts s₁ hts => ?_
    cases o with
    | none => exact .assoc (.current .report)
    | some ds => exact .pure (by rwa [List.append_nil])
  have moving : Moving (memberItem inner context what) :=
    .andThen inferInstance fun o => by cases o <;> infer_instance
  exact .bodyItems (R := fun ds ts => Bracketed (Decl.symbolsEach ds) ts) (.nested .nil) .declarations
    .semicolon item

/-! ### Programs -/

omit hd in
theorem runs_plainStatement (ht : inner.Texts .paired) (hi : inner.Steady) {context : Context} :
    Runs (plainStatement inner context) s fun _ ts _ => StmtText .paired ts := by
  refine .andThen (m := fun o => by cases o <;> infer_instance) (runs_keywordStatement ht hi)
    fun o ts s₁ hts => ?_
  cases o with
  | some stmt => exact .pure (by simpa using hts)
  | none =>
    obtain rfl : ts = [] := hts
    exact runs_expressionStatement ht

omit hd in
theorem moving_topLevelItem (config : Config) : Moving (topLevelItem config inner) := by
  refine .andThen inferInstance fun o => ?_
  cases o <;> infer_instance

theorem runs_topLevelItem (ht : inner.Texts .paired) (hi : inner.Steady) (config : Config) :
    Runs (topLevelItem config inner) s fun ds ts _ => ts ≠ [] ∧ Bracketed (Decl.symbolsEach ds) ts := by
  refine .andThen (m := fun o => by cases o <;> infer_instance) (runs_declares hd ht hi) fun o ts s₁ hts => ?_
  cases o with
  | some ds => exact .pure (by rwa [List.append_nil])
  | none =>
    obtain rfl : ts = [] := hts
    refine .andThen (runs_plainStatement ht hi) fun stmt ts s₂ hts => ?_
    refine .ite (fun _ => .nodeAtThen <| .pure ?_) fun _ => .reportStructural
    rw [List.append_nil, List.nil_append]
    exact ⟨hts.ne_nil, .nested hts.placid.nested⟩

theorem runs_programOver (ht : inner.Texts .paired) (hi : inner.Steady) (config : Config) :
    Runs (programOver config inner) s fun p ts _ => Bracketed p.symbols ts := by
  have moving : Moving (topLevelItem config inner) := moving_topLevelItem config
  have items : Runs (bodyItems .eof (topLevelItem config inner)) s
      fun ds ts _ => Bracketed (Decl.symbolsEach ds) ts :=
    .bodyItems (R := fun ds ts => Bracketed (Decl.symbolsEach ds) ts) (.nested .nil) .declarations .semicolon
      fun _ => runs_topLevelItem hd ht hi config
  refine .here <| .andThen (m := fun ds => .get (fun _ _ => rfl) fun s => inferInstance) items
    fun ds ts s₁ hts => .get <| .pure ?_
  rwa [List.append_nil]

end

end Productions

/-! ## Levels over each other -/

/-- What the grammar reads as declarations without an error. -/
theorem grammar_declTexts (limit room : Nat) : (grammar limit room).DeclTexts := by
  induction room with
  | zero => exact ⟨fun _ _ _ => .refuse, fun _ _ => .refuse⟩
  | succ room ih =>
    have ht : (grammar limit room).Texts .paired := grammar_texts limit room
    have hi := grammar_steady limit room
    exact ⟨fun _ _ _ => .map ((runs_membersBody ih ht hi).mono fun ds _ _ h => ⟨ds, rfl, h⟩),
      fun _ _ => runs_declares ih ht hi⟩

end Grammar

end FluxFront
