import FluxFront.Proofs.Copies
import FluxFront.Tree.Shape

/-!
# Other spans in the same tree

Giving a tree other spans is a pass like any other, so it is written as an `Edit` and covers every place
where a tree holds a span.

* **Specification**: `respan m` maps the spans of a program one by one (`Program.spans_respan`) and
  leaves identities alone (`Program.ids_respan`).
* **Crux**: a pass that treats spans no differently from one another can be made before or after it
  (`Edit.Commutes`).  Copying a type for the next variable of a declaration is one.
-/

namespace FluxFront

/-! ## Giving other spans -/

/-- Gives everything that has a span another one, and leaves identities and all else alone. -/
def Edit.respan (m : Span → Span) : Edit Unit where
  label _ label := return { label with span := m label.span }
  place := m

/-- Values whose spans can be exchanged. -/
class Spanned (α : Type) where
  respan : (Span → Span) → α → α

export Spanned (respan)

instance : Spanned Span := ⟨fun m span => m span⟩
instance {α : Type} [Spanned α] : Spanned (List α) := ⟨fun m => List.map (respan m)⟩
instance {α : Type} [Spanned α] : Spanned (Option α) := ⟨fun m => Option.map (respan m)⟩
instance : Spanned Ty := ⟨fun m t => (t.edit (.respan m) ()).1⟩
instance : Spanned Ty.Form := ⟨fun m form => (form.edit (.respan m) ()).1⟩
instance : Spanned Expr := ⟨fun m e => (e.edit (.respan m) ()).1⟩
instance : Spanned Expr.Form := ⟨fun m form => (form.editAs (.respan m) default ()).1.form⟩
instance : Spanned Entry := ⟨fun m e => ⟨respan m e.key, respan m e.value⟩⟩
instance : Spanned Stmt := ⟨fun m s => (s.edit (.respan m) ()).1⟩
instance : Spanned Stmt.Form := ⟨fun m form => (form.edit (.respan m) ()).1⟩
instance : Spanned Block := ⟨fun m b => ⟨respan m b.statements, m b.span⟩⟩
instance : Spanned Case := ⟨fun m c => ⟨respan m c.pattern, respan m c.body, m c.span⟩⟩
instance : Spanned Handler :=
  ⟨fun m h => ⟨respan m h.exception, h.binding, respan m h.body, m h.span⟩⟩
instance : Spanned Variable := ⟨fun m v =>
  ⟨respan m v.type, v.name, respan m v.initializer, v.qualifiers, respan m v.instantiation⟩⟩
instance : Spanned Decl := ⟨fun m d => (d.edit (.respan m) ()).1⟩
instance : Spanned Decl.Form := ⟨fun m form => (form.edit (.respan m) ()).1⟩
instance : Spanned Binding := ⟨fun m b => ⟨b.name, respan m b.type, m b.span⟩⟩
instance : Spanned EnumMember := ⟨fun m e => ⟨e.name, respan m e.value, m e.span⟩⟩
instance : Spanned Program := ⟨fun m p => p.editPure (.respan m)⟩

/-! ## One pass -/

variable (m : Span → Span)

@[simp] theorem Ty.edit_respan (t : Ty) : t.edit (.respan m) = pure (respan m t) := rfl

@[simp] theorem Expr.editAs_respan (e : Expr) : e.editAs (.respan m) none = pure (respan m e) := rfl

@[simp] theorem Stmt.edit_respan (s : Stmt) : s.edit (.respan m) = pure (respan m s) := rfl

@[simp] theorem Decl.edit_respan (d : Decl) : d.edit (.respan m) = pure (respan m d) := rfl

@[simp] theorem Ty.editList_respan (ts : List Ty) : Ty.editList (.respan m) ts = pure (respan m ts) := by
  induction ts with
  | nil => rfl
  | cons t more ih => rw [Ty.editList, ih]; rfl

@[simp] theorem Expr.editList_respan (es : List Expr) :
    Expr.editList (.respan m) es = pure (respan m es) := by
  induction es with
  | nil => rfl
  | cons e more ih => rw [Expr.editList, ih]; rfl

@[simp] theorem Stmt.editList_respan (ss : List Stmt) :
    Stmt.editList (.respan m) ss = pure (respan m ss) := by
  induction ss with
  | nil => rfl
  | cons s more ih => rw [Stmt.editList, ih]; rfl

@[simp] theorem Decl.editList_respan (ds : List Decl) :
    Decl.editList (.respan m) ds = pure (respan m ds) := by
  induction ds with
  | nil => rfl
  | cons d more ih => rw [Decl.editList, ih]; rfl

@[simp] theorem Entry.editList_respan (es : List Entry) :
    Entry.editList (.respan m) es = pure (respan m es) := by
  induction es with
  | nil => rfl
  | cons e more ih =>
    obtain ⟨key, value⟩ := e
    rw [Entry.editList, ih]
    rfl

@[simp] theorem Ty.editOption_respan (t : Option Ty) : Ty.editOption (.respan m) t = pure (respan m t) := by
  cases t <;> rfl

@[simp] theorem Expr.editOption_respan (e : Option Expr) :
    Expr.editOption (.respan m) e = pure (respan m e) := by
  cases e <;> rfl

@[simp] theorem Stmt.editOption_respan (s : Option Stmt) :
    Stmt.editOption (.respan m) s = pure (respan m s) := by
  cases s <;> rfl

@[simp] theorem Block.edit_respan (b : Block) : b.edit (.respan m) = pure (respan m b) := by
  obtain ⟨statements, span⟩ := b
  rw [Block.edit, Stmt.editList_respan]
  rfl

@[simp] theorem Block.editOption_respan (b : Option Block) :
    Block.editOption (.respan m) b = pure (respan m b) := by
  cases b with
  | none => rfl
  | some b => rw [Block.editOption, Block.edit_respan]; rfl

@[simp] theorem Case.editList_respan (cs : List Case) :
    Case.editList (.respan m) cs = pure (respan m cs) := by
  induction cs with
  | nil => rfl
  | cons c more ih =>
    obtain ⟨pattern, body, span⟩ := c
    rw [Case.editList, Expr.editOption_respan, Block.edit_respan, ih]
    rfl

@[simp] theorem Handler.editList_respan (hs : List Handler) :
    Handler.editList (.respan m) hs = pure (respan m hs) := by
  induction hs with
  | nil => rfl
  | cons h more ih =>
    obtain ⟨exception, binding, body, span⟩ := h
    rw [Handler.editList, Ty.editOption_respan, Block.edit_respan, ih]
    rfl

@[simp] theorem Expr.editListOption_respan (es : Option (List Expr)) :
    Expr.editListOption (.respan m) es = pure (respan m es) := by
  cases es with
  | none => rfl
  | some es => rw [Expr.editListOption, Expr.editList_respan]; rfl

@[simp] theorem Variable.edit_respan (v : Variable) : v.edit (.respan m) = pure (respan m v) := by
  obtain ⟨type, name, initializer, qualifiers, instantiation⟩ := v
  rw [Variable.edit, Expr.editOption_respan, Expr.editListOption_respan]
  rfl

@[simp] theorem Binding.editList_respan (bs : List Binding) :
    Binding.editList (.respan m) bs = pure (respan m bs) := by
  induction bs with
  | nil => rfl
  | cons b more ih =>
    obtain ⟨name, type, span⟩ := b
    rw [Binding.editList, ih]
    rfl

@[simp] theorem EnumMember.editList_respan (ms : List EnumMember) :
    EnumMember.editList (.respan m) ms = pure (respan m ms) := by
  induction ms with
  | nil => rfl
  | cons e more ih =>
    obtain ⟨name, value, span⟩ := e
    rw [EnumMember.editList, Expr.editOption_respan, ih]
    rfl

theorem respan_list {α : Type} [Spanned α] (as : List α) : respan m as = as.map (respan m) := rfl

theorem respan_option {α : Type} [Spanned α] (a : Option α) : respan m a = a.map (respan m) := rfl

@[simp] theorem respan_nil {α : Type} [Spanned α] : respan m ([] : List α) = [] := rfl

@[simp] theorem respan_cons {α : Type} [Spanned α] (a : α) (as : List α) :
    respan m (a :: as) = respan m a :: respan m as := rfl

@[simp] theorem respan_none {α : Type} [Spanned α] : respan m (none : Option α) = none := rfl

@[simp] theorem respan_some {α : Type} [Spanned α] (a : α) :
    respan m (some a) = some (respan m a) := rfl

/-- The result of a pass that does nothing. -/
@[simp] theorem fst_pure {α : Type} (a : α) : ((pure a : StateM Unit α) ()).1 = a := rfl

@[simp] theorem Edit.respan_identifier (name : String) : (Edit.respan m).identifier name = name := rfl

@[simp] theorem Edit.respan_typeName (name : String) : (Edit.respan m).typeName name = name := rfl

@[simp] theorem Edit.respan_ungroups : (Edit.respan m).ungroups = false := rfl

theorem Ty.Form.respan_eq (form : Ty.Form) : respan m form = (form.edit (.respan m) ()).1 := rfl

theorem Expr.Form.respan_eq (form : Expr.Form) :
    respan m form = (form.editAs (.respan m) default ()).1.form := rfl

theorem Stmt.Form.respan_eq (form : Stmt.Form) : respan m form = (form.edit (.respan m) ()).1 := rfl

theorem Decl.Form.respan_eq (form : Decl.Form) : respan m form = (form.edit (.respan m) ()).1 := rfl

@[simp] theorem Block.respan_mk (statements : List Stmt) (span : Span) :
    respan m (Block.mk statements span) = ⟨respan m statements, m span⟩ := rfl

@[simp] theorem Variable.respan_mk (type : Ty) (name : String) (initializer : Option Expr)
    (qualifiers : Qualifiers) (instantiation : Option (List Expr)) :
    respan m (Variable.mk type name initializer qualifiers instantiation)
      = ⟨respan m type, name, respan m initializer, qualifiers, respan m instantiation⟩ := rfl

@[simp] theorem Entry.respan_mk (key value : Expr) :
    respan m (Entry.mk key value) = ⟨respan m key, respan m value⟩ := rfl

@[simp] theorem Case.respan_mk (pattern : Option Expr) (body : Block) (span : Span) :
    respan m (Case.mk pattern body span) = ⟨respan m pattern, respan m body, m span⟩ := rfl

@[simp] theorem Handler.respan_mk (exception : Option Ty) (binding : Option String) (body : Block)
    (span : Span) : respan m (Handler.mk exception binding body span)
      = ⟨respan m exception, binding, respan m body, m span⟩ := rfl

@[simp] theorem Binding.respan_mk (name : String) (type : Ty) (span : Span) :
    respan m (Binding.mk name type span) = ⟨name, respan m type, m span⟩ := rfl

@[simp] theorem EnumMember.respan_mk (name : String) (value : Option Expr) (span : Span) :
    respan m (EnumMember.mk name value span) = ⟨name, respan m value, m span⟩ := rfl

@[simp] theorem Block.span_respan (b : Block) : (respan m b).span = m b.span := rfl

@[simp] theorem Case.span_respan (c : Case) : (respan m c).span = m c.span := rfl

@[simp] theorem Case.body_respan (c : Case) : (respan m c).body = respan m c.body := rfl

@[simp] theorem Handler.span_respan (h : Handler) : (respan m h).span = m h.span := rfl

@[simp] theorem Handler.body_respan (h : Handler) : (respan m h).body = respan m h.body := rfl

@[simp] theorem Binding.span_respan (b : Binding) : (respan m b).span = m b.span := rfl

@[simp] theorem EnumMember.span_respan (e : EnumMember) : (respan m e).span = m e.span := rfl

@[simp] theorem Ty.respan_mk (form : Ty.Form) (span : Span) (id : NodeId) :
    respan m (Ty.mk form span id) = ⟨respan m form, m span, id⟩ := rfl

@[simp] theorem Expr.respan_mk (form : Expr.Form) (span : Span) (id : NodeId) :
    respan m (Expr.mk form span id) = ⟨respan m form, m span, id⟩ := by
  cases form <;> rfl

@[simp] theorem Stmt.respan_mk (form : Stmt.Form) (span : Span) (id : NodeId) :
    respan m (Stmt.mk form span id) = ⟨respan m form, m span, id⟩ := rfl

@[simp] theorem Decl.respan_mk (form : Decl.Form) (span : Span) (id : NodeId) :
    respan m (Decl.mk form span id) = ⟨respan m form, m span, id⟩ := rfl

@[simp] theorem Program.respan_mk (ds : List Decl) (span : Span) :
    respan m (Program.mk ds span) = ⟨respan m ds, m span⟩ := by
  show Program.editPure (.respan m) (Program.mk ds span) = _
  unfold Program.editPure Program.edit
  rw [Decl.editList_respan]
  rfl

/-! ## Passes that do not look at spans -/

/-- The pass does with a span what it does with the span that takes its place. -/
structure Edit.Commutes {σ : Type} (k : Edit σ) (m : Span → Span) : Prop extends k.KeepsShape where
  label : ∀ sort span id, k.label sort ⟨m span, id⟩
    = (fun l => { l with span := m l.span }) <$> k.label sort ⟨span, id⟩
  place : ∀ span, k.place (m span) = m (k.place span)

section Commutes

set_option linter.unusedSectionVars false

variable {σ : Type} {k : Edit σ} {m : Span → Span} (h : k.Commutes m)

include h

mutual

theorem Ty.respan_edit : ∀ t : Ty, (respan m t).edit k = respan m <$> t.edit k
  | ⟨form, span, id⟩ => by
    simp [Ty.edit, h.label, h.blanks, Ty.Form.respan_edit form]

theorem Ty.Form.respan_edit (form : Ty.Form) : (respan m form).edit k = respan m <$> form.edit k := by
  cases form <;>
    simp [Ty.Form.respan_eq, Ty.Form.edit, Ty.respan_edit, Ty.respan_editList, Expr.respan_editOption]

theorem Ty.respan_editList : ∀ ts : List Ty, Ty.editList k (respan m ts) = respan m <$> Ty.editList k ts
  | [] => by simp [Ty.editList]
  | t :: more => by simp [Ty.editList, Ty.respan_edit t, Ty.respan_editList more]

theorem Ty.respan_editOption : ∀ t : Option Ty,
    Ty.editOption k (respan m t) = respan m <$> Ty.editOption k t
  | none => by simp [Ty.editOption]
  | some t => by simp [Ty.editOption, Ty.respan_edit t]

theorem Expr.respan_editAs : ∀ e : Expr, (respan m e).editAs k none = respan m <$> e.editAs k none
  | ⟨form, span, id⟩ => by
    simp [Expr.editAs, h.label, h.blanks, Expr.Form.respan_editAs form]

theorem Expr.Form.respan_editAs (form : Expr.Form) (label : Label) :
    (respan m form).editAs k { label with span := m label.span }
      = respan m <$> form.editAs k label := by
  cases form <;>
    simp [Expr.Form.respan_eq, Expr.Form.editAs, h.ungroups, Ty.respan_edit, Expr.respan_editAs,
      Expr.respan_editList, Entry.respan_editList, Stmt.respan_editList]

theorem Expr.respan_editList : ∀ es : List Expr,
    Expr.editList k (respan m es) = respan m <$> Expr.editList k es
  | [] => by simp [Expr.editList]
  | e :: more => by simp [Expr.editList, Expr.respan_editAs e, Expr.respan_editList more]

theorem Expr.respan_editOption : ∀ e : Option Expr,
    Expr.editOption k (respan m e) = respan m <$> Expr.editOption k e
  | none => by simp [Expr.editOption]
  | some e => by simp [Expr.editOption, Expr.respan_editAs e]

theorem Expr.respan_editListOption : ∀ es : Option (List Expr),
    Expr.editListOption k (respan m es) = respan m <$> Expr.editListOption k es
  | none => by simp [Expr.editListOption]
  | some es => by simp [Expr.editListOption, Expr.respan_editList es]

theorem Entry.respan_editList : ∀ es : List Entry,
    Entry.editList k (respan m es) = respan m <$> Entry.editList k es
  | [] => by simp [Entry.editList]
  | ⟨key, value⟩ :: more => by
    simp [Entry.editList, Expr.respan_editAs key, Expr.respan_editAs value, Entry.respan_editList more]

theorem Stmt.respan_edit : ∀ s : Stmt, (respan m s).edit k = respan m <$> s.edit k
  | ⟨form, span, id⟩ => by
    simp [Stmt.edit, h.label, Stmt.Form.respan_edit form]

theorem Stmt.Form.respan_edit (form : Stmt.Form) :
    (respan m form).edit k = respan m <$> form.edit k := by
  cases form <;>
    simp [Stmt.Form.respan_eq, Stmt.Form.edit, Expr.respan_editAs, Expr.respan_editOption,
      Stmt.respan_edit, Stmt.respan_editList, Stmt.respan_editOption, Block.respan_edit,
      Block.respan_editOption, Variable.respan_edit, Case.respan_editList, Handler.respan_editList,
      Decl.respan_edit]

theorem Stmt.respan_editList : ∀ ss : List Stmt,
    Stmt.editList k (respan m ss) = respan m <$> Stmt.editList k ss
  | [] => by simp [Stmt.editList]
  | s :: more => by simp [Stmt.editList, Stmt.respan_edit s, Stmt.respan_editList more]

theorem Stmt.respan_editOption : ∀ s : Option Stmt,
    Stmt.editOption k (respan m s) = respan m <$> Stmt.editOption k s
  | none => by simp [Stmt.editOption]
  | some s => by simp [Stmt.editOption, Stmt.respan_edit s]

theorem Block.respan_edit : ∀ b : Block, (respan m b).edit k = respan m <$> b.edit k
  | ⟨statements, span⟩ => by
    simp [Block.edit, h.place, Stmt.respan_editList statements]

theorem Block.respan_editOption : ∀ b : Option Block,
    Block.editOption k (respan m b) = respan m <$> Block.editOption k b
  | none => by simp [Block.editOption]
  | some b => by simp [Block.editOption, Block.respan_edit b]

theorem Variable.respan_edit : ∀ v : Variable, (respan m v).edit k = respan m <$> v.edit k
  | ⟨type, name, initializer, qualifiers, instantiation⟩ => by
    simp [Variable.edit, Ty.respan_edit type, Expr.respan_editOption initializer,
      Expr.respan_editListOption instantiation]

theorem Case.respan_editList : ∀ cs : List Case,
    Case.editList k (respan m cs) = respan m <$> Case.editList k cs
  | [] => by simp [Case.editList]
  | ⟨pattern, body, span⟩ :: more => by
    simp [Case.editList, h.place, Expr.respan_editOption pattern, Block.respan_edit body,
      Case.respan_editList more]

theorem Handler.respan_editList : ∀ hs : List Handler,
    Handler.editList k (respan m hs) = respan m <$> Handler.editList k hs
  | [] => by simp [Handler.editList]
  | ⟨exception, binding, body, span⟩ :: more => by
    simp [Handler.editList, h.place, Ty.respan_editOption exception, Block.respan_edit body,
      Handler.respan_editList more]

theorem Decl.respan_edit : ∀ d : Decl, (respan m d).edit k = respan m <$> d.edit k
  | ⟨form, span, id⟩ => by
    simp [Decl.edit, h.label, Decl.Form.respan_edit form]

theorem Decl.Form.respan_edit (form : Decl.Form) :
    (respan m form).edit k = respan m <$> form.edit k := by
  cases form <;>
    simp [Decl.Form.respan_eq, Decl.Form.edit, Decl.respan_editList, Binding.respan_editList,
      Ty.respan_edit, Block.respan_edit, Block.respan_editOption, Variable.respan_edit,
      Decl.respan_edit, EnumMember.respan_editList, Stmt.respan_edit]

theorem Decl.respan_editList : ∀ ds : List Decl,
    Decl.editList k (respan m ds) = respan m <$> Decl.editList k ds
  | [] => by simp [Decl.editList]
  | d :: more => by simp [Decl.editList, Decl.respan_edit d, Decl.respan_editList more]

theorem Binding.respan_editList : ∀ bs : List Binding,
    Binding.editList k (respan m bs) = respan m <$> Binding.editList k bs
  | [] => by simp [Binding.editList]
  | ⟨name, type, span⟩ :: more => by
    simp [Binding.editList, h.place, Ty.respan_edit type, Binding.respan_editList more]

theorem EnumMember.respan_editList : ∀ ms : List EnumMember,
    EnumMember.editList k (respan m ms) = respan m <$> EnumMember.editList k ms
  | [] => by simp [EnumMember.editList]
  | ⟨name, value, span⟩ :: more => by
    simp [EnumMember.editList, h.place, Expr.respan_editOption value, EnumMember.respan_editList more]

end

end Commutes

/-! ## The spans of a tree -/

namespace Node

/-- The spans of a node and of what stands between it and the nodes below it. -/
def places : Node → List Span
  | type t => [t.span]
  | expression e => [e.span]
  | statement s => s.span :: match s.form with
    | .block body => [body.span]
    | .switch _ cases => cases.flatMap fun c => [c.span, c.body.span]
    | .tryCatch body handlers => body.span :: handlers.flatMap fun h => [h.span, h.body.span]
    | .throwValue _ body | .lock _ _ body => body.toList.map Block.span
    | _ => []
  | declaration d => d.span :: match d.form with
    | .structDecl _ fields _ => fields.map Binding.span
    | .functionDecl _ params _ body => params.map Binding.span ++ body.toList.map Block.span
    | .operatorDecl _ params _ body => params.map Binding.span ++ [body.span]
    | .enumDecl _ members => members.map EnumMember.span
    | _ => []

instance : Spanned Node where
  respan m
    | declaration d => declaration (respan m d)
    | statement s => statement (respan m s)
    | expression e => expression (respan m e)
    | type t => type (respan m t)

theorem edit_respan (n : Node) : n.edit (.respan m) = pure (respan m n) := by
  cases n <;> rfl

theorem children_respan (n : Node) : (respan m n).children = respan m n.children := by
  have hlist : ∀ ns : List Node, ns.mapM (Node.edit (.respan m)) = pure (respan m ns) := by
    intro ns
    induction ns with
    | nil => rfl
    | cons n more ih => rw [List.mapM_cons, ih, edit_respan]; rfl
  have hkeeps : (Edit.respan m).KeepsShape := ⟨fun _ => rfl, rfl⟩
  have hchildren := (n.edited hkeeps ()).children
  rw [hlist, edit_respan] at hchildren
  exact (congrArg Prod.fst hchildren).symm

theorem spans_block? (body : Option Block) :
    (respan m body).toList.map Block.span = body.toList.map (m ∘ Block.span) := by
  cases body <;> rfl

theorem places_respan (n : Node) : (respan m n).places = n.places.map m := by
  cases n with
  | type t =>
    obtain ⟨form, span, id⟩ := t
    rfl
  | expression e =>
    obtain ⟨form, span, id⟩ := e
    cases form <;> rfl
  | statement s =>
    obtain ⟨form, span, id⟩ := s
    show places (.statement (respan m _)) = _
    cases form <;> simp [places, Stmt.Form.respan_eq, Stmt.Form.edit, spans_block?, respan_list,
      List.flatMap_map, List.map_flatMap]
  | declaration d =>
    obtain ⟨form, span, id⟩ := d
    show places (.declaration (respan m _)) = _
    cases form <;> simp [places, Decl.Form.respan_eq, Decl.Form.edit, spans_block?, respan_list]

theorem id_respan (n : Node) : (respan m n).id = n.id := by
  cases n with
  | type t =>
    obtain ⟨form, span, id⟩ := t
    rfl
  | expression e =>
    obtain ⟨form, span, id⟩ := e
    cases form <;> rfl
  | statement s =>
    obtain ⟨form, span, id⟩ := s
    rfl
  | declaration d =>
    obtain ⟨form, span, id⟩ := d
    rfl

theorem walk_respan (n : Node) :
    Descent.full.walk (respan m n) = respan m (Descent.full.walk n) := by
  induction n using descend with
  | h n ih =>
    rw [Descent.walk_eq, Descent.walk_eq, respan_cons]
    refine congrArg (respan m n :: ·) ?_
    show (respan m n).children.flatMap _ = respan m (n.children.flatMap _)
    rw [children_respan, respan_list, respan_list, List.flatMap_map, List.map_flatMap]
    rw [List.flatMap_def, List.flatMap_def, List.map_congr_left ih]
    rfl

end Node

/-- All spans of a program: its own, those of its nodes, and those of what is no node. -/
def Program.spans (p : Program) : List Span := p.span :: p.nodes.flatMap Node.places

theorem Program.nodes_respan (p : Program) : (respan m p).nodes = respan m p.nodes := by
  obtain ⟨declarations, span⟩ := p
  rw [Program.respan_mk]
  unfold nodes walk
  rw [respan_list, respan_list, List.flatMap_map, List.map_flatMap]
  exact congrArg (List.flatMap · declarations) (funext fun d => Node.walk_respan m (.declaration d))

theorem Program.spans_respan (p : Program) : (respan m p).spans = p.spans.map m := by
  have hspan : (respan m p).span = m p.span := rfl
  rw [spans, spans, nodes_respan, hspan, List.map_cons, respan_list, List.flatMap_map,
    List.map_flatMap]
  exact congrArg (fun f => m p.span :: p.nodes.flatMap f) (funext (Node.places_respan m))

/-- Identities stay. -/
theorem Program.ids_respan (p : Program) :
    (respan m p).nodes.map Node.id = p.nodes.map Node.id := by
  rw [nodes_respan, respan_list, List.map_map]
  exact congrArg (p.nodes.map ·) (funext (Node.id_respan m))

/-! ## What does not depend on spans -/

theorem Expr.isAssignable_respan (e : Expr) : (respan m e).isAssignable = e.isAssignable :=
  isAssignable_editAs (fun _ => rfl) none e ()

theorem Case.isDefault_respan (c : Case) : (respan m c).isDefault = c.isDefault := by
  obtain ⟨pattern, body, span⟩ := c
  cases pattern <;> rfl

theorem Decl.name?_respan (d : Decl) : (respan m d).name? = d.name? := by
  fun_induction Decl.name? d with
  | case10 params inner span id ih => exact ih
  | _ => rfl

/-- Giving fresh identities does not look at spans. -/
theorem Edit.freshCopy_commutes : Edit.freshCopy.Commutes m where
  toKeepsShape := Edit.freshCopy_keepsShape
  label sort span id := by cases sort <;> rfl
  place _ := rfl

end FluxFront
