import FluxFront.Tree.Node
import FluxFront.Tree.Passes

/-!
# Editing follows the walk

An editing pass that keeps the shape of a tree meets the nodes in the order in which a walk lists
them: it gives a node its new label and then edits the nodes directly below it from left to right.

* **Specification**: `Node.Edited k n s n' s'` says so for one node, as an equation about
  `Node.children`.
* **Crux**: the equation is the same for all forms of all four sorts (`Node.edited`), so whatever
  follows from it for whole trees is one induction along the walk and no case analysis.
-/

namespace FluxFront

variable {σ : Type}

/-- A pass that neither blanks nodes nor drops parentheses keeps the shape of every tree. -/
structure Edit.KeepsShape (k : Edit σ) : Prop where
  blanks : ∀ id, k.blanks id = false
  ungroups : k.ungroups = false

namespace Node

/-- The span and the identity of a node. -/
def label (n : Node) : Label := ⟨n.span, n.id⟩

/-- Edits a node of any sort. -/
def edit (k : Edit σ) : Node → StateM σ Node
  | declaration d => declaration <$> d.edit k
  | statement s => statement <$> s.edit k
  | expression e => expression <$> e.edit k
  | type t => type <$> t.edit k

/-! ## Lists and options

What is edited inside a form is a list of nodes in disguise. -/

variable (k : Edit σ)

theorem mapM_types (ts : List Ty) :
    ts.mapM (edit k ∘ type) = List.map type <$> Ty.editList k ts := by
  induction ts with
  | nil => rfl
  | cons t more ih => simp [Ty.editList, edit, ih]

theorem mapM_expressions (es : List Expr) :
    es.mapM (edit k ∘ expression) = List.map expression <$> Expr.editList k es := by
  induction es with
  | nil => rfl
  | cons e more ih => simp [Expr.editList, edit, Expr.edit, ih]

theorem mapM_statements (ss : List Stmt) :
    ss.mapM (edit k ∘ statement) = List.map statement <$> Stmt.editList k ss := by
  induction ss with
  | nil => rfl
  | cons s more ih => simp [Stmt.editList, edit, ih]

theorem mapM_declarations (ds : List Decl) :
    ds.mapM (edit k ∘ declaration) = List.map declaration <$> Decl.editList k ds := by
  induction ds with
  | nil => rfl
  | cons d more ih => simp [Decl.editList, edit, ih]

theorem editList_toList_type (t : Option Ty) :
    Ty.editList k t.toList = Option.toList <$> Ty.editOption k t := by
  cases t <;> simp [Ty.editOption, Ty.editList]

theorem editList_toList_expression (e : Option Expr) :
    Expr.editList k e.toList = Option.toList <$> Expr.editOption k e := by
  cases e <;> simp [Expr.editOption, Expr.editList]

theorem editList_toList_statement (s : Option Stmt) :
    Stmt.editList k s.toList = Option.toList <$> Stmt.editOption k s := by
  cases s <;> simp [Stmt.editOption, Stmt.editList]

theorem mapM_entries (es : List Entry) :
    (es.flatMap fun e => [expression e.key, expression e.value]).mapM (edit k)
      = (List.flatMap fun e => [expression e.key, expression e.value]) <$> Entry.editList k es := by
  induction es with
  | nil => rfl
  | cons e more ih =>
    obtain ⟨key, value⟩ := e
    simp [Entry.editList, edit, Expr.edit, ih]

theorem mapM_block (b : Block) : (ofBlock b).mapM (edit k) = ofBlock <$> b.edit k := by
  obtain ⟨statements, span⟩ := b
  simp [Block.edit, ofBlock, mapM_statements]

theorem mapM_block? (b : Option Block) :
    (b.toList.flatMap ofBlock).mapM (edit k)
      = (fun b => b.toList.flatMap ofBlock) <$> Block.editOption k b := by
  cases b <;> simp [Block.editOption, mapM_block]

theorem mapM_bindings (bs : List Binding) :
    (ofBindings bs).mapM (edit k) = ofBindings <$> Binding.editList k bs := by
  unfold ofBindings
  induction bs with
  | nil => rfl
  | cons b more ih =>
    obtain ⟨name, type, span⟩ := b
    rw [List.map_cons, List.mapM_cons, ih]
    simp [Binding.editList, edit]

theorem mapM_variable (v : Variable) : (ofVariable v).mapM (edit k) = ofVariable <$> v.edit k := by
  obtain ⟨type, name, initializer, qualifiers, instantiation⟩ := v
  cases instantiation <;>
    simp [Variable.edit, ofVariable, edit, Expr.editListOption, mapM_expressions,
      editList_toList_expression]

theorem mapM_cases (cs : List Case) :
    (cs.flatMap fun c => c.pattern.toList.map expression ++ ofBlock c.body).mapM (edit k)
      = (List.flatMap fun c => c.pattern.toList.map expression ++ ofBlock c.body)
        <$> Case.editList k cs := by
  induction cs with
  | nil => rfl
  | cons c more ih =>
    obtain ⟨pattern, body, span⟩ := c
    simp [Case.editList, mapM_expressions, editList_toList_expression, mapM_block, ih]

theorem mapM_handlers (hs : List Handler) :
    (hs.flatMap fun h => h.exception.toList.map type ++ ofBlock h.body).mapM (edit k)
      = (List.flatMap fun h => h.exception.toList.map type ++ ofBlock h.body)
        <$> Handler.editList k hs := by
  induction hs with
  | nil => rfl
  | cons h more ih =>
    obtain ⟨exception, binding, body, span⟩ := h
    simp [Handler.editList, mapM_types, editList_toList_type, mapM_block, ih]

theorem mapM_members (ms : List EnumMember) :
    (ms.flatMap fun m => m.value.toList.map expression).mapM (edit k)
      = (List.flatMap fun m => m.value.toList.map expression) <$> EnumMember.editList k ms := by
  induction ms with
  | nil => rfl
  | cons m more ih =>
    obtain ⟨name, value, span⟩ := m
    simp [EnumMember.editList, mapM_expressions, editList_toList_expression, ih]

/-! ## Forms -/

theorem mapM_ofTy (form : Ty.Form) : (ofTy form).mapM (edit k) = ofTy <$> form.edit k := by
  cases form <;>
    simp [Ty.Form.edit, ofTy, edit, mapM_types, mapM_expressions, editList_toList_expression]

theorem mapM_ofExpr {k : Edit σ} (h : k.ungroups = false) (label : Label) (form : Expr.Form) :
    (ofExpr form).mapM (edit k) = (fun e => ofExpr e.form) <$> form.editAs k label := by
  cases form <;>
    simp [Expr.Form.editAs, ofExpr, edit, Expr.edit, mapM_expressions, mapM_statements,
      mapM_entries, h]

theorem mapM_ofStmt (form : Stmt.Form) : (ofStmt form).mapM (edit k) = ofStmt <$> form.edit k := by
  cases form <;>
    simp [Stmt.Form.edit, ofStmt, edit, Expr.edit, mapM_block, mapM_block?, mapM_variable,
      mapM_expressions, mapM_statements, editList_toList_expression, editList_toList_statement,
      mapM_cases, mapM_handlers]

theorem mapM_ofDecl (form : Decl.Form) : (ofDecl form).mapM (edit k) = ofDecl <$> form.edit k := by
  cases form <;>
    simp [Decl.Form.edit, ofDecl, edit, mapM_block, mapM_block?, mapM_variable, mapM_declarations,
      mapM_bindings, mapM_members]

/-- An edited expression has the label it was given. -/
theorem label_editAs {k : Edit σ} (h : k.ungroups = false) (label : Label) (form : Expr.Form)
    (s : σ) : (⟨(form.editAs k label s).1.span, (form.editAs k label s).1.id⟩ : Label) = label := by
  cases form <;> simp only [Expr.Form.editAs, h, Bool.false_eq_true, if_false] <;> rfl

/-! ## Nodes -/

/-- The node `n` was edited from the state `s` on and gave `n'` and the state `s'`: it has its new
label, and below it the nodes below `n` were edited from left to right. -/
structure Edited (k : Edit σ) (n : Node) (s : σ) (n' : Node) (s' : σ) : Prop where
  sort : n'.sort = n.sort
  label : n'.label = (k.label n.sort n.label s).1
  children : n.children.mapM (edit k) (k.label n.sort n.label s).2 = (n'.children, s')

theorem edited {k : Edit σ} (hk : k.KeepsShape) (n : Node) (s : σ) :
    Edited k n s (n.edit k s).1 (n.edit k s).2 := by
  cases n with
  | declaration d =>
    obtain ⟨form, span, id⟩ := d
    exact ⟨rfl, rfl, congrFun (mapM_ofDecl k form) _⟩
  | statement t =>
    obtain ⟨form, span, id⟩ := t
    exact ⟨rfl, rfl, congrFun (mapM_ofStmt k form) _⟩
  | expression e =>
    obtain ⟨form, span, id⟩ := e
    have step : ∀ s, (Node.expression ⟨form, span, id⟩).edit k s
        = (.expression (form.editAs k (k.label .expression ⟨span, id⟩ s).1
            (k.label .expression ⟨span, id⟩ s).2).1,
          (form.editAs k (k.label .expression ⟨span, id⟩ s).1
            (k.label .expression ⟨span, id⟩ s).2).2) := by
      intro s
      simp only [edit, Expr.edit, Expr.editAs, hk.blanks, Bool.and_false, Bool.false_eq_true,
        if_false]
      rfl
    rw [step]
    exact ⟨rfl, label_editAs hk.ungroups _ form _, congrFun (mapM_ofExpr hk.ungroups _ form) _⟩
  | type t =>
    obtain ⟨form, span, id⟩ := t
    have step : ∀ s, (Node.type ⟨form, span, id⟩).edit k s
        = (.type ⟨(form.edit k (k.label .type ⟨span, id⟩ s).2).1,
            (k.label .type ⟨span, id⟩ s).1.span, (k.label .type ⟨span, id⟩ s).1.id⟩,
          (form.edit k (k.label .type ⟨span, id⟩ s).2).2) := by
      intro s
      simp only [edit, Ty.edit, hk.blanks, Bool.false_eq_true, if_false]
      rfl
    rw [step]
    exact ⟨rfl, rfl, congrFun (mapM_ofTy k form) _⟩

/-! ## Induction along the walk -/

/-- What holds of a node as soon as it holds of the nodes directly below it holds of every node. -/
theorem descend {P : Node → Prop} (h : ∀ n, (∀ c ∈ n.children, P c) → P n) (n : Node) : P n :=
  h n fun c _ => descend h c
termination_by sizeOf n
decreasing_by exact sizeOf_lt_of_mem_children ‹_›

/-- What holds of a list of nodes as soon as it holds of each, and of a node as soon as it holds of the
nodes directly below it, holds of every list. -/
theorem descendAll {P : List Node → Prop} (nil : P []) (cons : ∀ n ns, P [n] → P ns → P (n :: ns))
    (node : ∀ n : Node, P n.children → P [n]) (ns : List Node) : P ns := by
  have all : ∀ ns : List Node, (∀ n ∈ ns, P [n]) → P ns := by
    intro ns
    induction ns with
    | nil => exact fun _ => nil
    | cons n more ih =>
      intro h
      rw [List.forall_mem_cons] at h
      exact cons n more h.1 (ih h.2)
  exact all ns fun n _ => descend (P := fun n => P [n]) (fun n ih => node n (all _ ih)) n

end Node

end FluxFront
