import FluxFront.Tree.Edit

/-!
# Shapes of trees

A *bare* tree is what is left of a tree when spans and identities are forgotten; the *shape* of an
expression lacks the parentheses as well.  Two texts that are laid out differently but mean the same
have trees of one shape.

The lemmas say what the bare tree or the shape of each form of node is made of.
-/

namespace FluxFront

/-- Forgets spans and identities. -/
def Edit.unplaced : Edit Unit where
  label _ _ := return default
  place _ := default

/-- Forgets spans, identities and parentheses. -/
def Edit.forget : Edit Unit := { Edit.unplaced with ungroups := true }

/-- The shape of an expression. -/
def Expr.shape (e : Expr) : Expr := ((e.edit .forget).run ()).1

/-- An expression without spans and identities. -/
def Expr.bare (e : Expr) : Expr := ((e.edit .unplaced).run ()).1

/-- A type without spans and identities. -/
def Ty.bare (t : Ty) : Ty := ((t.edit .unplaced).run ()).1

/-- A typed name without spans and identities. -/
def Binding.bare (b : Binding) : Binding := ⟨b.name, b.type.bare, default⟩

/-- A member of an enumeration without spans and identities. -/
def EnumMember.bare (m : EnumMember) : EnumMember := ⟨m.name, m.value.map Expr.bare, default⟩

/-- A statement without spans and identities. -/
def Stmt.bare (s : Stmt) : Stmt := ((s.edit .unplaced).run ()).1

/-- A declaration without spans and identities. -/
def Decl.bare (d : Decl) : Decl := ((d.edit .unplaced).run ()).1

/-- A program without spans and identities. -/
def Program.bare (p : Program) : Program := ((p.edit .unplaced).run ()).1

/-! ## Expressions -/

namespace Expr

variable (span : Span) (id : NodeId)

theorem shapes (es : List Expr) : ((Expr.editList .forget es).run ()).1 = es.map shape := by
  induction es with
  | nil => rfl
  | cons e more ih => exact congrArg (e.shape :: ·) ih

@[simp] theorem shape_group (inner : Expr) : shape ⟨.group inner, span, id⟩ = inner.shape := by
  -- the label that is handed down is the label that every node gets
  obtain ⟨form, _, _⟩ := inner
  rfl

@[simp] theorem shape_literal (value : Literal) :
    shape ⟨.literal value, span, id⟩ = ⟨.literal value, default, default⟩ := rfl

@[simp] theorem shape_identifier (name : String) :
    shape ⟨.identifier name, span, id⟩ = ⟨.identifier name, default, default⟩ := rfl

@[simp] theorem shape_unary (op : UnaryOp) (e : Expr) (placement : Placement) :
    shape ⟨.unary op e placement, span, id⟩ = ⟨.unary op e.shape placement, default, default⟩ := rfl

@[simp] theorem shape_binary (op : BinaryOp) (l r : Expr) :
    shape ⟨.binary op l r, span, id⟩ = ⟨.binary op l.shape r.shape, default, default⟩ := rfl

@[simp] theorem shape_assign (op : AssignOp) (target value : Expr) :
    shape ⟨.assign op target value, span, id⟩
      = ⟨.assign op target.shape value.shape, default, default⟩ := rfl

@[simp] theorem shape_conditional (c t e : Expr) :
    shape ⟨.conditional c t e, span, id⟩
      = ⟨.conditional c.shape t.shape e.shape, default, default⟩ := rfl

@[simp] theorem shape_call (callee : Expr) (args : List Expr) :
    shape ⟨.call callee args, span, id⟩
      = ⟨.call callee.shape (args.map shape), default, default⟩ := by
  rw [← shapes]
  rfl

@[simp] theorem shape_member (object : Expr) (name : String) :
    shape ⟨.member object name, span, id⟩ = ⟨.member object.shape name, default, default⟩ := rfl

@[simp] theorem shape_subscript (object index : Expr) :
    shape ⟨.subscript object index, span, id⟩
      = ⟨.subscript object.shape index.shape, default, default⟩ := rfl

theorem bare_binary (op : BinaryOp) (l r : Expr) :
    bare ⟨.binary op l r, span, id⟩ = ⟨.binary op l.bare r.bare, default, default⟩ := rfl

theorem bare_assign (op : AssignOp) (target value : Expr) :
    bare ⟨.assign op target value, span, id⟩
      = ⟨.assign op target.bare value.bare, default, default⟩ := rfl

/-- An expression that is not blanked is edited by editing what it is made of. -/
theorem exists_editAs_form {σ : Type} {k : Edit σ} (hk : ∀ id, k.blanks id = false)
    (outer : Option Label) (e : Expr) (s : σ) :
    ∃ label s', e.editAs k outer s = e.form.editAs k label s' := by
  obtain ⟨form, span, id⟩ := e
  cases outer with
  | some label => exact ⟨label, s, rfl⟩
  | none =>
    simp only [Expr.editAs, hk, Bool.and_false, Bool.false_eq_true, if_false]
    exact ⟨_, _, rfl⟩

/-- An edit without placeholders does not change whether something may be assigned to. -/
theorem isAssignable_editAs {σ : Type} {k : Edit σ} (hk : ∀ id, k.blanks id = false)
    (outer : Option Label) (e : Expr) (s : σ) :
    (e.editAs k outer s).1.isAssignable = e.isAssignable := by
  fun_induction Expr.isAssignable e generalizing outer s with
  | case1 | case2 | case3 | case4 =>
    obtain ⟨label, s', h⟩ := exists_editAs_form hk outer _ s
    rw [h]
    rfl
  | case5 inner span id ih =>
    obtain ⟨label, s', h⟩ := exists_editAs_form hk outer ⟨.group inner, span, id⟩ s
    rw [h, Expr.Form.editAs]
    -- the parentheses are dropped or kept
    split
    · exact ih _ _
    · exact ih none s'
  | case6 e hid hmem hsub hun hgroup =>
    obtain ⟨label, s', h⟩ := exists_editAs_form hk outer e s
    rw [h]
    obtain ⟨form, span, id⟩ := e
    cases form with
    | identifier name => exact absurd rfl (hid name span id)
    | member o name => exact absurd rfl (hmem o name span id)
    | subscript o i => exact absurd rfl (hsub o i span id)
    | unary op e p => exact absurd rfl (hun op e p span id)
    | group inner => exact absurd rfl (hgroup inner span id)
    | _ => rfl

/-- Whether something may be assigned to is a matter of its shape. -/
theorem isAssignable_shape (e : Expr) : e.shape.isAssignable = e.isAssignable :=
  isAssignable_editAs (fun _ => rfl) none e ()

end Expr

/-! ## Types -/

namespace Ty

variable (span : Span) (id : NodeId)

theorem bares (ts : List Ty) : ((Ty.editList .unplaced ts).run ()).1 = ts.map bare := by
  induction ts with
  | nil => rfl
  | cons t more ih => exact congrArg (t.bare :: ·) ih

theorem bare_pointer (pointee : Ty) (q : Qualifiers) :
    bare ⟨.pointer pointee q, span, id⟩ = ⟨.pointer pointee.bare q, default, default⟩ := rfl

theorem bare_array (element : Ty) (size : Option Expr) :
    bare ⟨.array element size, span, id⟩
      = ⟨.array element.bare (size.map Expr.bare), default, default⟩ := by
  cases size <;> rfl

theorem bare_function (params : List Ty) (result : Ty) :
    bare ⟨.function params result, span, id⟩
      = ⟨.function (params.map bare) result.bare, default, default⟩ := by
  rw [← bares]
  rfl

theorem bare_applied (base : Ty) (args : List Ty) :
    bare ⟨.applied base args, span, id⟩ = ⟨.applied base.bare (args.map bare), default, default⟩ := by
  rw [← bares]
  rfl

end Ty

/-! ## Statements -/

namespace Stmt

theorem bares (ss : List Stmt) : ((Stmt.editList .unplaced ss).run ()).1 = ss.map bare := by
  induction ss with
  | nil => rfl
  | cons s more ih => exact congrArg (s.bare :: ·) ih

theorem bare_expression (e : Expr) (span : Span) (id : NodeId) :
    bare ⟨.expression e, span, id⟩ = ⟨.expression e.bare, default, default⟩ := rfl

end Stmt

/-! ## Declarations -/

namespace Decl

variable (span : Span) (id : NodeId)

theorem bares (ds : List Decl) : ((Decl.editList .unplaced ds).run ()).1 = ds.map bare := by
  induction ds with
  | nil => rfl
  | cons d more ih => exact congrArg (d.bare :: ·) ih

theorem bare_bindings (bs : List Binding) :
    ((Binding.editList .unplaced bs).run ()).1 = bs.map Binding.bare := by
  induction bs with
  | nil => rfl
  | cons b more ih =>
    obtain ⟨name, type, span⟩ := b
    exact congrArg (Binding.bare ⟨name, type, span⟩ :: ·) ih

theorem bare_members (ms : List EnumMember) :
    ((EnumMember.editList .unplaced ms).run ()).1 = ms.map EnumMember.bare := by
  induction ms with
  | nil => rfl
  | cons m more ih =>
    obtain ⟨name, value, span⟩ := m
    cases value with
    | none => exact congrArg (EnumMember.bare ⟨name, none, span⟩ :: ·) ih
    | some e => exact congrArg (EnumMember.bare ⟨name, some e, span⟩ :: ·) ih

theorem bare_namespaceDecl (name : String) (members : List Decl) :
    bare ⟨.namespaceDecl name members, span, id⟩
      = ⟨.namespaceDecl name (members.map bare), default, default⟩ := by
  rw [← bares]
  rfl

theorem bare_classDecl (name : String) (bases exclusions : List QualifiedName) (members : List Decl)
    (isForward : Bool) :
    bare ⟨.classDecl name bases exclusions members isForward, span, id⟩
      = ⟨.classDecl name bases exclusions (members.map bare) isForward, default, default⟩ := by
  rw [← bares]
  rfl

theorem bare_objectDecl (name : String) (bases : List QualifiedName) (members : List Decl)
    (isForward : Bool) :
    bare ⟨.objectDecl name bases members isForward, span, id⟩
      = ⟨.objectDecl name bases (members.map bare) isForward, default, default⟩ := by
  rw [← bares]
  rfl

theorem bare_structDecl (name : String) (fields : List Binding) (isForward : Bool) :
    bare ⟨.structDecl name fields isForward, span, id⟩
      = ⟨.structDecl name (fields.map Binding.bare) isForward, default, default⟩ := by
  rw [← bare_bindings]
  rfl

theorem bare_prototype (name : String) (params : List Binding) (result : Ty) :
    bare ⟨.functionDecl name params result none, span, id⟩
      = ⟨.functionDecl name (params.map Binding.bare) result.bare none, default, default⟩ := by
  rw [← bare_bindings]
  rfl

theorem bare_functionDecl (name : String) (params : List Binding) (result : Ty) (statements : List Stmt)
    (place : Span) :
    bare ⟨.functionDecl name params result (some ⟨statements, place⟩), span, id⟩
      = ⟨.functionDecl name (params.map Binding.bare) result.bare (some ⟨statements.map Stmt.bare, default⟩),
          default, default⟩ := by
  rw [← bare_bindings, ← Stmt.bares]
  rfl

theorem bare_enumDecl (name : String) (members : List EnumMember) :
    bare ⟨.enumDecl name members, span, id⟩
      = ⟨.enumDecl name (members.map EnumMember.bare), default, default⟩ := by
  rw [← bare_members]
  rfl

theorem bare_template (params : List String) (inner : Decl) :
    bare ⟨.template params inner, span, id⟩ = ⟨.template params inner.bare, default, default⟩ := rfl

theorem bare_typeAlias (name : String) (type : Ty) :
    bare ⟨.typeAlias name type, span, id⟩ = ⟨.typeAlias name type.bare, default, default⟩ := rfl

theorem bare_variable (type : Ty) (name : String) (qualifiers : Qualifiers) :
    bare ⟨.variable ⟨type, name, none, qualifiers, none⟩, span, id⟩
      = ⟨.variable ⟨type.bare, name, none, qualifiers, none⟩, default, default⟩ := rfl

end Decl

theorem Program.bare_eq (p : Program) : p.bare = ⟨p.declarations.map Decl.bare, default⟩ := by
  rw [← Decl.bares]
  rfl

end FluxFront
