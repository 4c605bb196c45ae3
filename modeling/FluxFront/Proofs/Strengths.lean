import FluxFront.Print.Tree
import FluxFront.Proofs.Composition

/-!
# Operands that need no parentheses

Next to an operator the printer puts an operand into parentheses if it holds together less tightly than
its position asks for.  A tree is tight if that happens nowhere.

* **Operands**: `Expr.Form.operands` lists the operands next to the operators that the levels of the
  grammar are made for, each with the strength that is asked of it.  If none of them is weaker, the
  printer writes them as they are (`Expr.Grouped.print_eq`).
* **Trees**: `Tight a` says that all expressions in a value are grouped, which is a composed property:
  ordinary nodes are as tight as their children.  Operators ask for the strength of their operands, too,
  which is the class `Strong`.
* **Copies**: a copy is as tight as its original, since every operand keeps its strength.
-/

namespace FluxFront

open Print

/-! ## Operands -/

/-- The operands next to an operator in front of one, between two or between three of them, next to a cast
and in a user-defined operation, each with the strength that is asked of it. -/
def Expr.Form.operands : Expr.Form → List (Nat × Expr)
  | .unary _ e .before => [(leadingStrength, e)]
  | .binary op left right => [((binarySides op).1, left), ((binarySides op).2, right)]
  | .assign _ target value => [(conditionalStrength, target), (assignStrength, value)]
  | .conditional c t e => [(binaryStrength .or, c), (assignStrength, t), (conditionalStrength, e)]
  | .cast _ e => [(leadingStrength, e)]
  | .opCall left _ right => [(leadingStrength, left), (leadingStrength, right)]
  | _ => []

namespace Expr

/-- No operand is weaker than its position asks for. -/
def Grouped (e : Expr) : Prop := ∀ o ∈ e.form.operands, o.1 ≤ o.2.strength

/-- The text of an expression whose operands are written as they are. -/
def openText : Expr → Nat → String
  | ⟨.unary op e .before, _, _⟩, level => leading op (e.print level)
  | ⟨.binary op left right, _, _⟩, level =>
    left.print level ++ " " ++ op.symbol ++ " " ++ right.print level
  | ⟨.assign op target value, _, _⟩, level =>
    target.print level ++ " " ++ op.symbol ++ " " ++ value.print level
  | ⟨.conditional c t e, _, _⟩, level =>
    c.print level ++ " ? " ++ t.print level ++ " : " ++ e.print level
  | ⟨.cast target e, _, _⟩, level => "(" ++ target.print level ++ ")" ++ e.print level
  | ⟨.opCall left operator right, _, _⟩, level =>
    "op<" ++ left.print level ++ " " ++ operator ++ " " ++ right.print level ++ ">"
  | e, level => e.print level

theorem operand_eq {least : Nat} {e : Expr} (h : least ≤ e.strength) (text : String) :
    operand least e text = text := if_neg (Nat.not_lt.2 h)

/-- Parentheses are two more characters. -/
theorem length_operand (least : Nat) (e : Expr) (text : String) :
    (operand least e text).length = text.length + if e.strength < least then 2 else 0 := by
  unfold operand
  split
  · simp only [String.length_append]
    have : "(".length = 1 := rfl
    have : ")".length = 1 := rfl
    omega
  · rfl

/-- An operator is followed by at most one blank. -/
theorem length_leading (op : UnaryOp) (text : String) :
    op.symbol.length + text.length ≤ (leading op text).length
      ∧ (leading op text).length ≤ op.symbol.length + 1 + text.length := by
  unfold leading
  simp only [String.length_append]
  split
  · have : " ".length = 1 := rfl
    omega
  · have : "".length = 0 := rfl
    omega

/-- The printer adds no parentheses exactly if no operand is weaker than its position asks for. -/
theorem print_eq_iff {e : Expr} {level : Nat} : e.print level = e.openText level ↔ e.Grouped := by
  obtain ⟨form, span, id⟩ := e
  unfold Grouped
  constructor
  · intro h
    have hlength := congrArg String.length h
    cases form
    case unary op e placement =>
      cases placement
      · simp only [Form.operands, List.forall_mem_singleton]
        simp only [print, openText] at hlength
        -- the blank in front of an operand in parentheses may be gone
        have hclosed := length_leading op (operand leadingStrength e (e.print level))
        have hopen := length_leading op (e.print level)
        rw [length_operand] at hclosed
        split at hclosed <;> omega
      · exact nofun
    case binary | assign | conditional | cast | opCall =>
      simp only [Form.operands, List.forall_mem_cons]
      simp only [print, openText, String.length_append, length_operand] at hlength
      grind
    all_goals exact nofun
  · intro h
    have asked : ∀ o ∈ form.operands, ∀ text, operand o.1 o.2 text = text := fun o ho =>
      operand_eq (h o ho)
    cases form
    case unary op e placement =>
      cases placement
      · simp only [Form.operands, List.forall_mem_singleton] at asked
        simp only [print, openText, asked]
      · rfl
    case binary | assign | conditional | cast | opCall =>
      simp only [Form.operands, List.forall_mem_cons] at asked
      simp only [print, openText, asked]
    all_goals rfl

namespace Grouped

variable {e : Expr}

/-- To the right of an operator that groups to the left, operators bind tighter. -/
theorem precedence_lt (h : e.Grouped) {op op' : BinaryOp} {left right l r : Expr}
    (he : e.form = .binary op left right) (hop : op.isRightAssociative = false)
    (hright : right.form = .binary op' l r) : op.precedence < op'.precedence := by
  have hasked : (binarySides op).2 ≤ right.strength := h ((binarySides op).2, right) (by
    rw [he]
    exact List.mem_cons_of_mem _ List.mem_cons_self)
  unfold binarySides at hasked
  rw [hop] at hasked
  unfold strength at hasked
  rw [hright] at hasked
  exact Nat.lt_of_add_lt_add_left hasked

/-- The base of a power is no power. -/
theorem base_ne_power (h : e.Grouped) {base exponent l r : Expr}
    (he : e.form = .binary .power base exponent) : base.form ≠ .binary .power l r := by
  intro hbase
  have hasked : (binarySides .power).1 ≤ base.strength := h ((binarySides .power).1, base) (by
    rw [he]
    exact List.mem_cons_self)
  have hstrength : base.strength = binaryStrength .power := by
    unfold strength
    rw [hbase]
  rw [hstrength] at hasked
  exact absurd hasked (by decide)

/-- The condition of a conditional expression is none. -/
theorem condition_ne_conditional (h : e.Grouped) {c t f c' t' f' : Expr}
    (he : e.form = .conditional c t f) : c.form ≠ .conditional c' t' f' := by
  intro hcondition
  have hasked : binaryStrength .or ≤ c.strength := h (binaryStrength .or, c) (by
    rw [he]
    exact List.mem_cons_self)
  have hstrength : c.strength = conditionalStrength := by
    unfold strength
    rw [hcondition]
  rw [hstrength] at hasked
  exact absurd hasked (by decide)

end Grouped

/-- An expression is at least as strong as asked for. -/
class Strong (least : Nat) (e : Expr) : Prop where
  le : least ≤ e.strength

namespace Strong

theorem mono {least least' : Nat} {e : Expr} (h : Strong least e) (hle : least' ≤ least) : Strong least' e :=
  ⟨Nat.le_trans hle h.le⟩

/-- Nothing is weaker than an assignment. -/
instance (e : Expr) : Strong assignStrength e := ⟨by
  unfold strength
  split
  case h_3 op _ _ _ => exact Nat.le_trans (by decide) (Nat.le_add_right 3 op.precedence)
  all_goals decide⟩

/-! Only binary operators, conditionals and assignments are weaker than an operand behind an operator; a
cast and a placeholder are not. -/

section

variable (span : Span) (id : NodeId)

theorem of_primary {e : Expr} (h : e.strength = primaryStrength) : Strong leadingStrength e :=
  ⟨by rw [h]; decide⟩

theorem of_call {e : Expr} (h : e.strength = callStrength) : Strong leadingStrength e :=
  ⟨by rw [h]; decide⟩

theorem of_leading {e : Expr} (h : e.strength = leadingStrength) : Strong leadingStrength e :=
  ⟨Nat.le_of_eq h.symm⟩

instance (value : Literal) : Strong leadingStrength ⟨.literal value, span, id⟩ := of_primary rfl
instance (name : String) : Strong leadingStrength ⟨.identifier name, span, id⟩ := of_primary rfl
instance : Strong leadingStrength ⟨.placeholder, span, id⟩ := of_primary rfl
instance (t : Ty) : Strong leadingStrength ⟨.sizeOf t, span, id⟩ := of_primary rfl
instance (e : Expr) : Strong leadingStrength ⟨.typeOf e, span, id⟩ := of_primary rfl
instance (e : Expr) : Strong leadingStrength ⟨.group e, span, id⟩ := of_primary rfl
instance (es : List Expr) : Strong leadingStrength ⟨.array es, span, id⟩ := of_primary rfl
instance (es : List Entry) : Strong leadingStrength ⟨.dictionary es, span, id⟩ := of_primary rfl
instance (ss : List Stmt) : Strong leadingStrength ⟨.block ss, span, id⟩ := of_primary rfl

instance (left right : Expr) (operator : String) :
    Strong leadingStrength ⟨.opCall left operator right, span, id⟩ := of_primary rfl

instance (parts : List String) (es : List Expr) :
    Strong leadingStrength ⟨.interpolated parts es, span, id⟩ := of_primary rfl

instance (e : Expr) (es : List Expr) : Strong leadingStrength ⟨.call e es, span, id⟩ := of_call rfl
instance (e : Expr) (name : String) : Strong leadingStrength ⟨.member e name, span, id⟩ := of_call rfl
instance (e index : Expr) : Strong leadingStrength ⟨.subscript e index, span, id⟩ := of_call rfl
instance (t : Ty) (e : Expr) : Strong leadingStrength ⟨.cast t e, span, id⟩ := of_leading rfl

instance (op : UnaryOp) (e : Expr) : Strong leadingStrength ⟨.unary op e .before, span, id⟩ := of_leading rfl

instance (op : UnaryOp) (e : Expr) : Strong leadingStrength ⟨.unary op e .after, span, id⟩ :=
  ⟨show leadingStrength ≤ trailingStrength by decide⟩

end

end Strong

end Expr

/-! ## Nodes -/

namespace Node

/-- All expressions from a node down are grouped. -/
def Tight (n : Node) : Prop := ∀ e, expression e ∈ Descent.full.walk n → e.Grouped

theorem tight_iff {n : Node} :
    n.Tight ↔ (∀ e, n = expression e → e.Grouped) ∧ ∀ c ∈ n.children, c.Tight := by
  unfold Tight
  rw [Descent.walk_eq]
  constructor
  · intro h
    refine ⟨fun e he => h e (by rw [he]; exact List.mem_cons_self), fun c hc e he => ?_⟩
    exact h e (List.mem_cons_of_mem _ (List.mem_flatMap_of_mem hc he))
  · rintro ⟨hself, hbelow⟩ e he
    rcases List.mem_cons.1 he with rfl | he
    · exact hself e rfl
    · obtain ⟨c, hc, he⟩ := List.mem_flatMap.1 he
      exact hbelow c hc e he

/-! ### Copies -/

theorem strength_freshCopy (e : Expr) (s : NodeId) :
    (e.edit Edit.freshCopy s).1.strength = e.strength := by
  obtain ⟨form, span, id⟩ := e
  cases form
  case unary op e placement => cases placement <;> rfl
  all_goals rfl

/-- Every operand of a copy is as strong as the one it was copied from. -/
theorem operands_freshCopy (e : Expr) (s : NodeId) :
    (e.edit Edit.freshCopy s).1.form.operands.map (fun o => (o.1, o.2.strength))
      = e.form.operands.map fun o => (o.1, o.2.strength) := by
  obtain ⟨form, span, id⟩ := e
  cases form
  case unary op e placement =>
    cases placement
    · show [(leadingStrength, (e.edit Edit.freshCopy _).1.strength)] = [(leadingStrength, e.strength)]
      rw [strength_freshCopy]
    · rfl
  case binary op left right =>
    show [((binarySides op).1, (left.edit Edit.freshCopy _).1.strength),
      ((binarySides op).2, (right.edit Edit.freshCopy _).1.strength)] =
      [(_, left.strength), (_, right.strength)]
    rw [strength_freshCopy, strength_freshCopy]
  case assign op target value =>
    show [(conditionalStrength, (target.edit Edit.freshCopy _).1.strength),
      (assignStrength, (value.edit Edit.freshCopy _).1.strength)] = [(_, target.strength), (_, value.strength)]
    rw [strength_freshCopy, strength_freshCopy]
  case conditional c t f =>
    show [(binaryStrength .or, (c.edit Edit.freshCopy _).1.strength),
      (assignStrength, (t.edit Edit.freshCopy _).1.strength),
      (conditionalStrength, (f.edit Edit.freshCopy _).1.strength)]
        = [(_, c.strength), (_, t.strength), (_, f.strength)]
    rw [strength_freshCopy, strength_freshCopy, strength_freshCopy]
  case cast target e =>
    show [(leadingStrength, (e.edit Edit.freshCopy _).1.strength)] = [(leadingStrength, e.strength)]
    rw [strength_freshCopy]
  case opCall left operator right =>
    show [(leadingStrength, (left.edit Edit.freshCopy _).1.strength),
      (leadingStrength, (right.edit Edit.freshCopy _).1.strength)] = [(_, left.strength), (_, right.strength)]
    rw [strength_freshCopy, strength_freshCopy]
  all_goals rfl

theorem grouped_freshCopy {e : Expr} (h : e.Grouped) (s : NodeId) :
    (e.edit Edit.freshCopy s).1.Grouped := by
  intro o ho
  have hmem := List.mem_map_of_mem (f := fun o : Nat × Expr => (o.1, o.2.strength)) ho
  rw [operands_freshCopy] at hmem
  obtain ⟨o', ho', heq⟩ := List.mem_map.1 hmem
  obtain ⟨hleast, hstrength⟩ := Prod.mk.inj heq
  calc o.1 = o'.1 := hleast.symm
    _ ≤ o'.2.strength := h o' ho'
    _ = o.2.strength := hstrength

theorem tight_freshCopy {n : Node} (h : n.Tight) (s : NodeId) : (n.edit Edit.freshCopy s).1.Tight := by
  induction n using descend generalizing s with
  | h n ih =>
    obtain ⟨hself, hbelow⟩ := tight_iff.1 h
    refine tight_iff.2 ⟨fun e he => ?_, fun c hc => ?_⟩
    · cases n with
      | expression e' =>
        obtain rfl := expression.inj he
        exact grouped_freshCopy (hself e' rfl) s
      | declaration _ | statement _ | type _ => exact absurd he nofun
    · obtain ⟨m, hm, first, rfl⟩ := exists_original hc
      exact ih m hm (hbelow m hm) first

end Node

/-! ## Values -/

instance : Composed Node.Tight where
  children h hc := (Node.tight_iff.1 h).2 _ hc
  ordinary {n} hordinary h := by
    refine Node.tight_iff.2 ⟨fun e he => ?_, h⟩
    subst he
    obtain ⟨form, span, id⟩ := e
    have hnone : form.operands = [] := by
      cases form
      case unary op e placement =>
        cases placement
        · exact absurd hordinary nofun
        · rfl
      case binary | assign | conditional | cast | opCall => exact absurd hordinary nofun
      all_goals rfl
    show ∀ o ∈ form.operands, o.1 ≤ o.2.strength
    rw [hnone]
    exact nofun
  copied s h := Node.tight_freshCopy h s

/-- In a value all expressions are grouped. -/
abbrev Tight {α : Type} [Bearing α] (a : α) : Prop := Every Node.Tight a

namespace Tight

open FluxFront.Expr (Strong)

/-! ### Operators -/

section

variable {a b c : Expr} [Tight a] [Tight b] [Tight c] {t : Ty} [Tight t] (span : Span) (id : NodeId)

/-- The parts of an expression are tight, and its operands are as strong as asked for. -/
theorem operator {β : Type} [Bearing β] {form : Expr.Form} (parts : β) [h : Tight parts]
    (heq : Node.ofExpr form = Bearing.nodes parts) (hoperands : ∀ o ∈ form.operands, o.1 ≤ o.2.strength) :
    Tight (Expr.mk form span id) := by
  refine ⟨List.forall_mem_singleton.2 (Node.tight_iff.2 ⟨fun e he => ?_, ?_⟩)⟩
  · obtain rfl := Node.expression.inj he
    exact hoperands
  · show ∀ c ∈ Node.ofExpr form, c.Tight
    rw [heq]
    exact h.nodes

instance (op : UnaryOp) [h : Strong leadingStrength a] : Tight (Expr.mk (.unary op a .before) span id) :=
  operator span id a rfl (List.forall_mem_singleton.2 h.le)

theorem binary {op : BinaryOp} (hleft : (binarySides op).1 ≤ a.strength)
    (hright : (binarySides op).2 ≤ b.strength) : Tight (Expr.mk (.binary op a b) span id) :=
  operator span id (a, b) rfl (List.forall_mem_cons.2 ⟨hleft, List.forall_mem_singleton.2 hright⟩)

/-- The base of a power is an operand of an operator in front. -/
instance [ha : Strong leadingStrength a] [hb : Strong (binaryStrength .power) b] :
    Tight (Expr.mk (.binary .power a b) span id) := binary span id ha.le hb.le

instance (op : AssignOp) [ha : Strong conditionalStrength a] :
    Tight (Expr.mk (.assign op a b) span id) :=
  operator span id (a, b) rfl (List.forall_mem_cons.2 ⟨ha.le, List.forall_mem_singleton.2 Strong.le⟩)

instance [ha : Strong (binaryStrength .or) a] [hc : Strong conditionalStrength c] :
    Tight (Expr.mk (.conditional a b c) span id) :=
  operator span id (a, b, c) rfl (List.forall_mem_cons.2 ⟨ha.le, List.forall_mem_cons.2 ⟨Strong.le,
    List.forall_mem_singleton.2 hc.le⟩⟩)

instance [h : Strong leadingStrength a] : Tight (Expr.mk (.cast t a) span id) :=
  operator span id (t, a) rfl (List.forall_mem_singleton.2 h.le)

instance (operator : String) [ha : Strong leadingStrength a] [hb : Strong leadingStrength b] :
    Tight (Expr.mk (.opCall a operator b) span id) :=
  Tight.operator span id (a, b) rfl (List.forall_mem_cons.2 ⟨ha.le, List.forall_mem_singleton.2 hb.le⟩)

end

/-! ### Constructs that stand inside themselves -/

section

variable {e : Expr} [Tight e] {ss : List Stmt} [Tight ss] {b : Block} [h : Tight b] {d : Decl} [Tight d]
  {ds : List Decl} [Tight ds] (name : String) (span : Span) (id : NodeId)

instance : Tight (Expr.mk (.group e) span id) := operator span id e rfl nofun

instance : Tight (Expr.mk (.block ss) span id) :=
  operator span id ss (by simp [Bearing.nodes, Node.ofExpr, List.map_eq_flatMap]) nofun

instance : Tight (Stmt.mk (.block b) span id) :=
  ⟨List.forall_mem_singleton.2 (Node.tight_iff.2 ⟨nofun, h.nodes⟩)⟩

theorem construct {β : Type} [Bearing β] {form : Decl.Form} (parts : β) [h : Tight parts]
    (heq : Node.ofDecl form = Bearing.nodes parts) : Tight (Decl.mk form span id) :=
  ⟨List.forall_mem_singleton.2 (Node.tight_iff.2 ⟨nofun, by
    show ∀ c ∈ Node.ofDecl form, c.Tight
    rw [heq]
    exact h.nodes⟩)⟩

instance : Tight (Decl.mk (.namespaceDecl name ds) span id) :=
  construct span id ds (by simp [Bearing.nodes, Node.ofDecl, List.map_eq_flatMap])

instance (bases exclusions : List QualifiedName) (isForward : Bool) :
    Tight (Decl.mk (.classDecl name bases exclusions ds isForward) span id) :=
  construct span id ds (by simp [Bearing.nodes, Node.ofDecl, List.map_eq_flatMap])

instance (bases : List QualifiedName) (isForward : Bool) :
    Tight (Decl.mk (.objectDecl name bases ds isForward) span id) :=
  construct span id ds (by simp [Bearing.nodes, Node.ofDecl, List.map_eq_flatMap])

instance (params : List String) : Tight (Decl.mk (.template params d) span id) := construct span id d rfl

end

end Tight

end FluxFront
