import FluxFront.Proofs.Mirrors

/-!
# Trees that are alike

Nodes are alike if they are built in the same way from parts that are alike.  There is one instance for
each constructor, so that a production which builds a node finds by itself what to show about it; and
parts of values that are alike are alike.
-/

namespace FluxFront

variable {G : Grounds}

namespace AlikeOn

/-! ## Types -/

instance (name : Builtin) : AlikeOn G (Ty.Form.builtin name) (.builtin name) := ⟨rfl⟩
instance (name : String) : AlikeOn G (Ty.Form.named name) (.named name) := ⟨rfl⟩
instance (name : QualifiedName) : AlikeOn G (Ty.Form.qualified name) (.qualified name) := ⟨rfl⟩
instance (layout : DataLayout) : AlikeOn G (Ty.Form.data layout) (.data layout) := ⟨rfl⟩
instance : AlikeOn G Ty.Form.placeholder .placeholder := ⟨rfl⟩

section

variable {t t' : Ty} [ht : AlikeOn G t t'] {ts ts' : List Ty} [AlikeOn G ts ts']
  {size size' : Option Expr} [AlikeOn G size size']

instance (q : Qualifiers) : AlikeOn G (Ty.Form.pointer t q) (.pointer t' q) :=
  ht.congr (f := (Ty.Form.pointer · q)) fun _ _ => rfl

instance : AlikeOn G (Ty.Form.array t size) (.array t' size') :=
  .congr₂ fun _ _ _ => by simp [Ty.Form.respan_eq, Ty.Form.edit]

instance : AlikeOn G (Ty.Form.function ts t) (.function ts' t') :=
  .congr₂ fun _ _ _ => by simp [Ty.Form.respan_eq, Ty.Form.edit]

instance : AlikeOn G (Ty.Form.applied t ts) (.applied t' ts') :=
  .congr₂ fun _ _ _ => by simp [Ty.Form.respan_eq, Ty.Form.edit]

end

/-! ## Expressions -/

instance (value : Literal) : AlikeOn G (Expr.Form.literal value) (.literal value) := ⟨rfl⟩
instance (name : String) : AlikeOn G (Expr.Form.identifier name) (.identifier name) := ⟨rfl⟩
instance : AlikeOn G Expr.Form.placeholder .placeholder := ⟨rfl⟩

section

variable {a a' b b' c c' : Expr} [ha : AlikeOn G a a'] [AlikeOn G b b'] [AlikeOn G c c'] {t t' : Ty}
  [ht : AlikeOn G t t'] {es es' : List Expr} [hes : AlikeOn G es es'] {entries entries' : List Entry}
  [hentries : AlikeOn G entries entries'] {ss ss' : List Stmt} [hss : AlikeOn G ss ss']

instance (op : UnaryOp) (placement : Placement) :
    AlikeOn G (Expr.Form.unary op a placement) (.unary op a' placement) :=
  ha.congr (f := (Expr.Form.unary op · placement)) fun _ _ => rfl

instance (op : BinaryOp) : AlikeOn G (Expr.Form.binary op a b) (.binary op a' b') :=
  .congr₂ fun _ _ _ => rfl

instance (op : AssignOp) : AlikeOn G (Expr.Form.assign op a b) (.assign op a' b') :=
  .congr₂ fun _ _ _ => rfl

instance : AlikeOn G (Expr.Form.conditional a b c) (.conditional a' b' c') :=
  .congr₃ fun _ _ _ _ => rfl

instance : AlikeOn G (Expr.Form.call a es) (.call a' es') :=
  .congr₂ fun _ _ _ => by simp [Expr.Form.respan_eq, Expr.Form.editAs]

instance (name : String) : AlikeOn G (Expr.Form.member a name) (.member a' name) :=
  ha.congr (f := (Expr.Form.member · name)) fun _ _ => rfl

instance : AlikeOn G (Expr.Form.subscript a b) (.subscript a' b') := .congr₂ fun _ _ _ => rfl

instance : AlikeOn G (Expr.Form.cast t a) (.cast t' a') := .congr₂ fun _ _ _ => rfl

instance : AlikeOn G (Expr.Form.sizeOf t) (.sizeOf t') := ht.congr fun _ _ => rfl

instance : AlikeOn G (Expr.Form.typeOf a) (.typeOf a') := ha.congr fun _ _ => rfl

instance (operator : String) : AlikeOn G (Expr.Form.opCall a operator b) (.opCall a' operator b') :=
  .congr₂ (f := (Expr.Form.opCall · operator ·)) fun _ _ _ => rfl

instance (parts : List String) :
    AlikeOn G (Expr.Form.interpolated parts es) (.interpolated parts es') :=
  hes.congr fun _ _ => by simp [Expr.Form.respan_eq, Expr.Form.editAs]

instance : AlikeOn G (Expr.Form.array es) (.array es') :=
  hes.congr fun _ _ => by simp [Expr.Form.respan_eq, Expr.Form.editAs]

instance : AlikeOn G (Expr.Form.dictionary entries) (.dictionary entries') :=
  hentries.congr fun _ _ => by simp [Expr.Form.respan_eq, Expr.Form.editAs]

instance : AlikeOn G (Entry.mk a b) ⟨a', b'⟩ := .congr₂ fun _ _ _ => rfl

instance : AlikeOn G (Expr.Form.group a) (.group a') := ha.congr fun _ _ => rfl

instance : AlikeOn G (Expr.Form.block ss) (.block ss') :=
  hss.congr fun _ _ => by simp [Expr.Form.respan_eq, Expr.Form.editAs]

end

/-! ## Statements -/

instance : AlikeOn G Stmt.Form.breakLoop .breakLoop := ⟨rfl⟩
instance : AlikeOn G Stmt.Form.continueLoop .continueLoop := ⟨rfl⟩
instance (raw : String) : AlikeOn G (Stmt.Form.asm raw) (.asm raw) := ⟨rfl⟩

section

variable {e e' : Expr} [he : AlikeOn G e e'] {s s' u u' : Stmt} [AlikeOn G s s'] [AlikeOn G u u']
  {e? e?' c? c?' : Option Expr} [hopt : AlikeOn G e? e?'] [AlikeOn G c? c?'] {s? s?' : Option Stmt}
  [AlikeOn G s? s?'] {ss ss' : List Stmt} [AlikeOn G ss ss'] {b b' : Block} [hb : AlikeOn G b b']
  {b? b?' : Option Block} [hblock : AlikeOn G b? b?'] {span span' : Span} [AlikeOn G span span']

instance : AlikeOn G (Block.mk ss span) ⟨ss', span'⟩ := .congr₂ fun _ _ _ => rfl

instance : AlikeOn G (Stmt.Form.expression e) (.expression e') := he.congr fun _ _ => rfl

instance : AlikeOn G (Stmt.Form.block b) (.block b') :=
  hb.congr fun _ _ => by simp [Stmt.Form.respan_eq, Stmt.Form.edit]

instance : AlikeOn G (Stmt.Form.ifElse e s s?) (.ifElse e' s' s?') :=
  .congr₃ fun _ _ _ _ => by simp [Stmt.Form.respan_eq, Stmt.Form.edit]

instance : AlikeOn G (Stmt.Form.whileLoop e s) (.whileLoop e' s') := .congr₂ fun _ _ _ => rfl

instance : AlikeOn G (Stmt.Form.doWhile s e) (.doWhile s' e') := .congr₂ fun _ _ _ => rfl

instance : AlikeOn G (Stmt.Form.forLoop ss e? c? s) (.forLoop ss' e?' c?' s') :=
  .congr₄ fun _ _ _ _ _ => by simp [Stmt.Form.respan_eq, Stmt.Form.edit]

instance (var : String) (index : Option String) :
    AlikeOn G (Stmt.Form.forRange var index e s) (.forRange var index e' s') :=
  .congr₂ fun _ _ _ => rfl

instance : AlikeOn G (Case.mk e? b span) ⟨e?', b', span'⟩ := .congr₃ fun _ _ _ _ => rfl

instance {cases cases' : List Case} [AlikeOn G cases cases'] :
    AlikeOn G (Stmt.Form.switch e cases) (.switch e' cases') :=
  .congr₂ fun _ _ _ => by simp [Stmt.Form.respan_eq, Stmt.Form.edit]

instance : AlikeOn G (Stmt.Form.returnValue e?) (.returnValue e?') :=
  hopt.congr fun _ _ => by simp [Stmt.Form.respan_eq, Stmt.Form.edit]

instance {t? t?' : Option Ty} [AlikeOn G t? t?'] (binding : Option String) :
    AlikeOn G (Handler.mk t? binding b span) ⟨t?', binding, b', span'⟩ :=
  .congr₃ (f := (Handler.mk · binding · ·)) fun _ _ _ _ => rfl

instance {handlers handlers' : List Handler} [AlikeOn G handlers handlers'] :
    AlikeOn G (Stmt.Form.tryCatch b handlers) (.tryCatch b' handlers') :=
  .congr₂ fun _ _ _ => by simp [Stmt.Form.respan_eq, Stmt.Form.edit]

instance : AlikeOn G (Stmt.Form.throwValue e? b?) (.throwValue e?' b?') :=
  .congr₂ fun _ _ _ => by simp [Stmt.Form.respan_eq, Stmt.Form.edit]

instance : AlikeOn G (Stmt.Form.assertion e) (.assertion e') := he.congr fun _ _ => rfl

instance (kind : LockKind) (scope : QualifiedName) :
    AlikeOn G (Stmt.Form.lock kind scope b?) (.lock kind scope b?') :=
  hblock.congr fun _ _ => by simp [Stmt.Form.respan_eq, Stmt.Form.edit]

instance {d d' : Decl} [hd : AlikeOn G d d'] : AlikeOn G (Stmt.Form.misplaced d) (.misplaced d') :=
  hd.congr fun _ _ => rfl

instance {v v' : Variable} [hv : AlikeOn G v v'] : AlikeOn G (Stmt.Form.variable v) (.variable v') :=
  hv.congr fun _ _ => by simp [Stmt.Form.respan_eq, Stmt.Form.edit]

end

/-! ## Declarations -/

instance (path : String) (newName : Option String) :
    AlikeOn G (Decl.Form.importFile path newName) (.importFile path newName) := ⟨rfl⟩
instance (path : QualifiedName) : AlikeOn G (Decl.Form.usingPath path) (.usingPath path) := ⟨rfl⟩
instance (name : String) (layout : DataLayout) :
    AlikeOn G (Decl.Form.data name layout) (.data name layout) := ⟨rfl⟩
instance (raw : String) : AlikeOn G (Decl.Form.asm raw) (.asm raw) := ⟨rfl⟩

section

variable {t t' : Ty} [ht : AlikeOn G t t'] {d d' : Decl} [hd : AlikeOn G d d'] {s s' : Stmt}
  [hs : AlikeOn G s s'] {e? e?' : Option Expr} [AlikeOn G e? e?'] {b b' : Block} [AlikeOn G b b']
  {b? b?' : Option Block} [AlikeOn G b? b?'] {ds ds' : List Decl} [hds : AlikeOn G ds ds']
  {bs bs' : List Binding} [hbs : AlikeOn G bs bs'] {span span' : Span} [AlikeOn G span span']

instance (name : String) : AlikeOn G (Decl.Form.namespaceDecl name ds) (.namespaceDecl name ds') :=
  hds.congr fun _ _ => by simp [Decl.Form.respan_eq, Decl.Form.edit]

instance (name : String) (bases exclusions : List QualifiedName) (isForward : Bool) :
    AlikeOn G (Decl.Form.classDecl name bases exclusions ds isForward)
      (.classDecl name bases exclusions ds' isForward) :=
  hds.congr (f := (Decl.Form.classDecl name bases exclusions · isForward)) fun _ _ => by
    simp [Decl.Form.respan_eq, Decl.Form.edit]

instance (name : String) (bases : List QualifiedName) (isForward : Bool) :
    AlikeOn G (Decl.Form.objectDecl name bases ds isForward) (.objectDecl name bases ds' isForward) :=
  hds.congr (f := (Decl.Form.objectDecl name bases · isForward)) fun _ _ => by
    simp [Decl.Form.respan_eq, Decl.Form.edit]

instance (name : String) : AlikeOn G (Binding.mk name t span) ⟨name, t', span'⟩ :=
  .congr₂ fun _ _ _ => rfl

instance (name : String) (isForward : Bool) :
    AlikeOn G (Decl.Form.structDecl name bs isForward) (.structDecl name bs' isForward) :=
  hbs.congr (f := (Decl.Form.structDecl name · isForward)) fun _ _ => by
    simp [Decl.Form.respan_eq, Decl.Form.edit]

instance (name : String) :
    AlikeOn G (Decl.Form.functionDecl name bs t b?) (.functionDecl name bs' t' b?') :=
  .congr₃ fun _ _ _ _ => by simp [Decl.Form.respan_eq, Decl.Form.edit]

instance (symbol : String) :
    AlikeOn G (Decl.Form.operatorDecl symbol bs t b) (.operatorDecl symbol bs' t' b') :=
  .congr₃ fun _ _ _ _ => by simp [Decl.Form.respan_eq, Decl.Form.edit]

instance (name : String) (qualifiers : Qualifiers) {args args' : Option (List Expr)}
    [AlikeOn G args args'] :
    AlikeOn G (Variable.mk t name e? qualifiers args) ⟨t', name, e?', qualifiers, args'⟩ :=
  .congr₃ (f := (Variable.mk · name · qualifiers ·)) fun _ _ _ _ => rfl

instance {v v' : Variable} [hv : AlikeOn G v v'] : AlikeOn G (Decl.Form.variable v) (.variable v') :=
  hv.congr fun _ _ => by simp [Decl.Form.respan_eq, Decl.Form.edit]

instance (params : List String) : AlikeOn G (Decl.Form.template params d) (.template params d') :=
  hd.congr fun _ _ => rfl

instance (name : String) : AlikeOn G (EnumMember.mk name e? span) ⟨name, e?', span'⟩ :=
  .congr₂ fun _ _ _ => rfl

instance (name : String) {ms ms' : List EnumMember} [hms : AlikeOn G ms ms'] :
    AlikeOn G (Decl.Form.enumDecl name ms) (.enumDecl name ms') :=
  hms.congr fun _ _ => by simp [Decl.Form.respan_eq, Decl.Form.edit]

instance (name : String) : AlikeOn G (Decl.Form.typeAlias name t) (.typeAlias name t') :=
  ht.congr fun _ _ => rfl

instance : AlikeOn G (Decl.Form.statement s) (.statement s') := hs.congr fun _ _ => rfl

end

/-! ## Nodes -/

instance {form form' : Ty.Form} [AlikeOn G form form'] {span span' : Span} [AlikeOn G span span']
    (id : NodeId) : AlikeOn G (Ty.mk form span id) ⟨form', span', id⟩ :=
  .congr₂ (f := (Ty.mk · · id)) fun _ _ _ => rfl

instance {form form' : Expr.Form} [AlikeOn G form form'] {span span' : Span} [AlikeOn G span span']
    (id : NodeId) : AlikeOn G (Expr.mk form span id) ⟨form', span', id⟩ :=
  .congr₂ (f := (Expr.mk · · id)) fun m _ _ => Expr.respan_mk m _ _ _

instance {form form' : Stmt.Form} [AlikeOn G form form'] {span span' : Span} [AlikeOn G span span']
    (id : NodeId) : AlikeOn G (Stmt.mk form span id) ⟨form', span', id⟩ :=
  .congr₂ (f := (Stmt.mk · · id)) fun _ _ _ => rfl

instance {form form' : Decl.Form} [AlikeOn G form form'] {span span' : Span} [AlikeOn G span span']
    (id : NodeId) : AlikeOn G (Decl.mk form span id) ⟨form', span', id⟩ :=
  .congr₂ (f := (Decl.mk · · id)) fun _ _ _ => rfl

instance {ds ds' : List Decl} [AlikeOn G ds ds'] {span span' : Span} [AlikeOn G span span'] :
    AlikeOn G (Program.mk ds span) ⟨ds', span'⟩ := .congr₂ fun m _ _ => Program.respan_mk m _ _

/-! ## Parts of nodes and blocks -/

theorem ty_form {t t' : Ty} (h : AlikeOn G t t') : AlikeOn G t.form t'.form :=
  h.congr fun _ n => by cases n; rfl

theorem ty_id {t t' : Ty} (h : AlikeOn G t t') : t.id = t'.id :=
  (h.congr fun _ n => by cases n; rfl : AlikeOn G t.id t'.id).eq_of_plain

theorem decl_form {d d' : Decl} (h : AlikeOn G d d') : AlikeOn G d.form d'.form :=
  h.congr fun _ n => by cases n; rfl

theorem decl_id {d d' : Decl} (h : AlikeOn G d d') : d.id = d'.id :=
  (h.congr fun _ n => by cases n; rfl : AlikeOn G d.id d'.id).eq_of_plain

instance {t t' : Ty} [h : AlikeOn G t t'] : AlikeOn G t.span t'.span :=
  h.congr fun _ n => by cases n; rfl

instance {e e' : Expr} [h : AlikeOn G e e'] : AlikeOn G e.span e'.span :=
  h.congr fun _ n => by cases n; rw [Expr.respan_mk]; rfl

instance {s s' : Stmt} [h : AlikeOn G s s'] : AlikeOn G s.span s'.span :=
  h.congr fun _ n => by cases n; rfl

instance {d d' : Decl} [h : AlikeOn G d d'] : AlikeOn G d.span d'.span :=
  h.congr fun _ n => by cases n; rfl

instance {b b' : Block} [h : AlikeOn G b b'] : AlikeOn G b.span b'.span := h.congr fun _ _ => rfl

instance {b b' : Block} [h : AlikeOn G b b'] : AlikeOn G b.statements b'.statements :=
  h.congr fun _ _ => rfl

instance {c c' : Case} [h : AlikeOn G c c'] : AlikeOn G c.span c'.span := h.congr fun _ _ => rfl

/-- The first place of a span. -/
instance {span span' : Span} [h : AlikeOn G span span'] : AlikeOn G span.start span'.start :=
  place_iff.2 (G.start (span_iff.1 h))

end AlikeOn

namespace Grammar

instance {form form' : Ty.Form} [AlikeOn G form form'] : AlikeBuild G (Ty.mk form) (Ty.mk form') where
  alike _ _ _ := inferInstance

instance {form form' : Expr.Form} [AlikeOn G form form'] :
    AlikeBuild G (Expr.mk form) (Expr.mk form') where
  alike _ _ _ := inferInstance

instance {form form' : Stmt.Form} [AlikeOn G form form'] :
    AlikeBuild G (Stmt.mk form) (Stmt.mk form') where
  alike _ _ _ := inferInstance

instance {form form' : Decl.Form} [AlikeOn G form form'] :
    AlikeBuild G (Decl.mk form) (Decl.mk form') where
  alike _ _ _ := inferInstance

end Grammar

end FluxFront
