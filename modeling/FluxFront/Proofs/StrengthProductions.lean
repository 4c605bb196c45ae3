import FluxFront.Proofs.CompositionProductions
import FluxFront.Proofs.ProgramProductions
import FluxFront.Proofs.Strengths

/-!
# The levels of the grammar respect strengths

Whatever a parse reads, with errors or without, next to an operator it puts operands only that the
printer writes without parentheses.

* **Specification**: that holds for every expression of every program (`parseTokens_grouped`).
* **Strengths**: what a level of the grammar gives is as strong as the operators above it ask for
  (`Binds`).  The order of the levels is the order of the strengths, and what stands for something
  missing is as strong as a name.
* **Trees**: that all nodes are tight is composed of their parts, up to operators and constructs that
  can stand inside themselves.  The productions of these find by instances what to show.
-/

set_option synthInstance.maxSize 1000

namespace FluxFront.Grammar

open Print
open Token (Kind)
open FluxFront.Expr (Strong)

/-! ## Tight results -/

/-- From every state, the result is tight. -/
abbrev Tightly {α : Type} [Bearing α] (p : Parser α) : Prop := Ensures Node.Tight p

/-- From every state, the result is tight and at least as strong as given. -/
class Binds (least : outParam Nat) (p : Parser Expr) : Prop where
  tight : Tightly p
  strong : Yields (Strong least) p

/-- A tight expression that is at least as strong as given. -/
structure Operand (least : Nat) where
  value : Expr
  tight : Tight value
  strong : Strong least value

attribute [instance] Operand.tight Operand.strong

instance (priority := 1100) {β : Type} [Bearing β] {least : Nat} {p : Parser Expr} {q : Expr → Parser β}
    [hp : Binds least p] [hq : ∀ w : Operand least, Tightly (q w.value)] : Tightly (p >>= q) :=
  ⟨fun s => (hq ⟨_, hp.tight.run s, hp.strong s⟩).run _⟩

instance {least : Nat} {p : Parser Expr} [h : Binds least p] : Tightly p := h.tight

/-! ## Levels -/

/-- A level whose entries give tight results, with the strength that is asked of them. -/
class TightLevel (l : Level) : Prop where
  entries : EnsuresLevel Node.Tight l
  conditional : Binds conditionalStrength l.conditional
  power : Binds (binaryStrength .power) l.power
  unary : Binds leadingStrength l.unary

attribute [instance] TightLevel.entries TightLevel.conditional TightLevel.power TightLevel.unary

section

variable {inner : Level} [TightLevel inner]

instance : EnsuresOver Node.Tight inner where
  groupOrCast := by
    unfold groupOrCast
    infer_instance
  opExpr := by
    unfold opExpr
    dsimp only
    infer_instance
  braceExpr := by
    unfold braceExpr
    infer_instance
  blockStatement context := by
    unfold blockStatement
    infer_instance
  namespaceDecl := by
    unfold namespaceDecl
    dsimp only
    infer_instance
  classOrObject := by
    unfold classOrObject
    dsimp only
    infer_instance
  templateDecl context := by
    refine .always fun start => .always fun _ => .always fun params => ?_
    dsimp only
    exact .andThenOption inferInstance inferInstance inferInstance

end

/-! ## Operands of operators in front of them

Everything from the calls on is as strong as an operand of an operator in front of it. -/

/-- From every state, the result may stand behind an operator. -/
class Firmly (p : Parser Expr) : Prop where
  run : Yields (Strong leadingStrength) p

namespace Firmly

variable {α : Type}

theorem always {p : Parser α} {q : α → Parser Expr} (hq : ∀ a, Firmly (q a)) : Firmly (p >>= q) :=
  ⟨.always fun a => (hq a).run⟩

instance {p : Parser α} {q : α → Parser Expr} [hq : ∀ a, Firmly (q a)] : Firmly (p >>= q) := always hq

instance {c : Prop} [Decidable c] {p q : Parser Expr} [hp : Firmly p] [hq : Firmly q] :
    Firmly (if c then p else q) := by
  split
  · exact hp
  · exact hq

instance {build : Span → NodeId → Expr} [h : ∀ span id, Strong leadingStrength (build span id)]
    (start : Location) : Firmly (node build start) := ⟨.node h start⟩

instance {build : Span → NodeId → Expr} [h : ∀ span id, Strong leadingStrength (build span id)]
    (span : Span) : Firmly (nodeAt build span) := ⟨fun _ => h _ _⟩

variable {inner : Level}

instance : Firmly literal := by
  unfold literal
  infer_instance

instance : Firmly (groupOrCast inner) := by
  unfold groupOrCast
  infer_instance

instance : Firmly (sizeOfExpr inner) := by
  unfold sizeOfExpr
  infer_instance

instance : Firmly (typeOfExpr inner) := by
  unfold typeOfExpr
  infer_instance

instance : Firmly (opExpr inner) := by
  unfold opExpr
  dsimp only
  infer_instance

instance : Firmly (interpolatedString inner) := by
  have finish : ∀ start parts values, Firmly (do
      let expr ← node (Expr.mk (.interpolated parts values)) start
      let slots := parts.length - 1
      if slots != values.length then
        reportStructural .interpolationMismatch
          ("Interpolated string has " ++ toString slots ++ " placeholder(s) but "
            ++ toString values.length ++ " value(s)") expr.span
      return expr) := fun start parts values => ⟨by
    have hnode : Firmly (node (Expr.mk (.interpolated parts values)) start) := inferInstance
    refine .andThen hnode.run fun e he => .ite ?_ ?_
    · exact .always fun _ => .pure he
    · exact .pure he⟩
  unfold interpolatedString
  dsimp only at finish ⊢
  infer_instance

instance : Firmly (arrayExpr inner) := by
  unfold arrayExpr
  infer_instance

instance : Firmly (braceExpr inner) := by
  unfold braceExpr
  infer_instance

instance : Firmly missingExpr := by
  unfold missingExpr
  infer_instance

instance : Firmly (primary inner) := by
  refine .always fun k => ?_
  split <;> infer_instance

theorem some {form : Expr.Form} (h : ∀ span id, Strong leadingStrength (Expr.mk form span id))
    (start : Location) : Yields (∀ e ∈ ·, Strong leadingStrength e)
      (do return Option.some (← node (Expr.mk form) start)) :=
  .andThen (Q := Strong leadingStrength) (.node h start) fun e he => .pure fun e' he' => by
    rwa [← Option.some.inj he']

/-- A call, a member or a subscript. -/
theorem chained (start : Location) (e : Expr) :
    Yields (∀ e' ∈ ·, Strong leadingStrength e') (chained? inner start e) := by
  refine .always fun k => ?_
  dsimp only
  split
  · exact .always fun _ => .always fun args => .always fun _ => some (fun _ _ => inferInstance) start
  · refine .always fun _ => .always fun k => .ite ?_ ?_
    · exact .always fun _ => .always fun name => some (fun _ _ => inferInstance) start
    · exact .always fun _ => .always fun name => some (fun _ _ => inferInstance) start
  · exact .always fun _ => .always fun index => .always fun _ => some (fun _ _ => inferInstance) start
  · exact .pure fun e' he' => absurd he' (Option.not_mem_none e')

instance : Firmly (callChain inner) :=
  ⟨.always fun start => .andThen (inferInstance : Firmly (primary inner)).run fun _ he =>
    .iterate (fun e _ => chained start e) he⟩

/-- An operator behind its operand. -/
theorem trailed (start : Location) (e : Expr) :
    Yields (∀ e' ∈ ·, Strong leadingStrength e') (trailed? start e) := by
  refine .always fun k => ?_
  split
  · exact .always fun _ => some (fun _ _ => inferInstance) start
  · exact .pure fun e' he' => absurd he' (Option.not_mem_none e')

instance : Firmly (trailing inner) :=
  ⟨.always fun start => .andThen (inferInstance : Firmly (callChain inner)).run fun _ he =>
    .iterate (fun e _ => trailed start e) he⟩

instance : Firmly (unaryBody inner) := by
  refine .always fun start => .always fun k => ?_
  split
  · infer_instance
  · split <;> infer_instance

end Firmly

/-! ## Operators -/

section Operators

variable {inner : Level} [TightLevel inner]

instance {build : Span → NodeId → Expr} [ht : ∀ span id, Tight (build span id)]
    [hs : ∀ span id, Strong leadingStrength (build span id)] (start : Location) :
    Binds leadingStrength (node build start) := ⟨⟨.node ht start⟩, .node hs start⟩

instance : Binds leadingStrength (unaryBody inner) where
  tight := by
    refine .always fun start => .always fun k => ?_
    split
    · infer_instance
    · split <;> infer_instance
  strong := (inferInstance : Firmly (unaryBody inner)).run

instance : Binds (binaryStrength .power) (powerBody inner) where
  tight := by
    unfold powerBody
    infer_instance
  strong := by
    have hbase : Binds leadingStrength (unaryBody inner) := inferInstance
    refine .always fun start => .andThen hbase.strong fun base hb => .always fun accepted => .ite ?_ ?_
    · exact .always fun exponent => .node (fun _ _ => ⟨Nat.le_refl _⟩) start
    · exact .pure (hb.mono (by decide))

/-- The tokens write operators of a strength, as the printer has it. -/
def OfStrength (p : Nat) (operators : List Kind) : Prop :=
  ∀ k ∈ operators, ∀ op, binaryOp? k = some op → op.precedence = p

theorem ofStrength_level {i : Nat} (hi : i < operatorLevels.length) :
    OfStrength (i + 1) operatorLevels[i] := fun _ hk _ hop => (mem_operatorLevels hop i hi).1 hk

/-- Operators of one strength read operands that are stronger. -/
theorem joined_operand {p : Nat} (hp : p < BinaryOp.power.precedence) {operators : List Kind}
    (hops : OfStrength p operators) {operand : Parser Expr} [ho : Binds (3 + (p + 1)) operand]
    (start : Location) {left : Expr} (hl : Tight left ∧ Strong (3 + p) left) :
    Yields (∀ e ∈ ·, Tight e ∧ Strong (3 + p) e) (joined? operators operand start left) := by
  refine .always fun k => ?_
  split
  case h_1 op hop =>
    obtain ⟨hop, hk⟩ := Option.filter_eq_some_iff.1 hop
    have hlevel : op.precedence = p := hops k (by simpa using hk) op hop
    have hassoc : op.isRightAssociative = false := by
      cases op
      case power => exact absurd hlevel (Nat.ne_of_gt hp)
      all_goals rfl
    have hsides : binarySides op = (3 + p, 3 + (p + 1)) := by
      unfold binarySides
      rw [hassoc, ← hlevel]
      rfl
    refine .always fun _ => .andThen (Q := fun e => Tight e ∧ Strong (3 + (p + 1)) e)
      (fun s => ⟨ho.tight.run s, ho.strong s⟩) fun right hr => ?_
    refine .andThen (Q := fun e => Tight e ∧ Strong (3 + p) e) ?_ fun e he => .pure fun e' he' => ?_
    · have := hl.1
      have := hr.1
      have hbinary : ∀ span id, Tight (Expr.mk (.binary op left right) span id) := fun span id =>
        .binary span id (by rw [hsides]; exact hl.2.le) (by rw [hsides]; exact hr.2.le)
      refine .node (fun span id => ⟨hbinary span id, ⟨?_⟩⟩) start
      rw [← hlevel]
      exact Nat.le_refl _
    · rwa [← Option.some.inj he']
  case h_2 => exact .pure fun e' he' => absurd he' (Option.not_mem_none e')

/-- A level of binary operators is as strong as its operators. -/
theorem binds_leftAssociative {p : Nat} (hp : p < BinaryOp.power.precedence)
    {operators : List Kind} (hops : OfStrength p operators) {operand : Parser Expr}
    (ho : Binds (3 + (p + 1)) operand) : Binds (3 + p) (leftAssociative operators operand) := by
  have hboth : Yields (fun e => Tight e ∧ Strong (3 + p) e) (leftAssociative operators operand) := by
    refine .always fun start => .andThen (Q := fun e => Tight e ∧ Strong (3 + (p + 1)) e)
      (fun s => ⟨ho.tight.run s, ho.strong s⟩) fun first hfirst => ?_
    refine .iterate (fun left hl => joined_operand hp hops start hl) ⟨hfirst.1, hfirst.2.mono ?_⟩
    exact Nat.add_le_add_left (Nat.le_succ p) 3
  exact ⟨⟨fun s => (hboth s).1⟩, fun s => (hboth s).2⟩

/-- The levels from one on are stacked upon powers. -/
theorem binds_levels (n : Nat) {i : Nat} (h : i + n = operatorLevels.length) :
    Binds (3 + (i + 1)) ((operatorLevels.drop i).foldr leftAssociative (powerBody inner)) := by
  induction n generalizing i with
  | zero =>
    obtain rfl : i = operatorLevels.length := h
    exact (inferInstance : Binds (binaryStrength .power) (powerBody inner))
  | succ n ih =>
    have hi : i < operatorLevels.length := by omega
    have hweak : i + 1 < BinaryOp.power.precedence := Nat.succ_lt_succ hi
    rw [List.drop_eq_getElem_cons hi, List.foldr_cons]
    exact binds_leftAssociative hweak (ofStrength_level hi) (ih (by omega))

instance : Binds (binaryStrength .or) (binaryBody inner) :=
  binds_levels operatorLevels.length (Nat.zero_add _)

instance : Binds conditionalStrength (conditionalBody inner) where
  tight := by
    unfold conditionalBody
    infer_instance
  strong := by
    have hcondition : Binds (binaryStrength .or) (binaryBody inner) := inferInstance
    refine .always fun start => .andThen hcondition.strong fun c hc => .always fun accepted => .ite ?_ ?_
    · exact .always fun t => .always fun _ => .always fun f => .node (fun _ _ => ⟨Nat.le_refl _⟩) start
    · exact .pure (hc.mono (by decide))

instance : Tightly (expressionBody inner) := by
  have finish : ∀ (start : Location) (o : Option AssignOp) (target : Operand conditionalStrength), Tightly (do
      match o with
      | none => return target.value
      | some op =>
        let _ ← advance
        unless target.value.isAssignable do
          reportStructural .invalidAssignmentTarget "Invalid assignment target" target.value.span
        let value ← inner.expression
        node (Expr.mk (.assign op target.value value)) start) := fun start o target => by
    cases o <;> infer_instance
  unfold expressionBody
  infer_instance

end Operators

section Items

variable {inner : Level} [TightLevel inner]

instance (context : Context) : Tightly (statementBody inner context) := by
  refine .always fun start => .andThen inferInstance fun statements => ?_
  split
  case h_1 stmt hone =>
    have hstmt : Tight stmt := Every.list_iff.1 statements.every stmt (by rw [hone]; exact List.mem_cons_self)
    infer_instance
  case h_2 => infer_instance

/-! ## Levels over each other -/

instance : EnsuresLevel Node.Tight (Level.above fun _ => inner) where
  type := (inferInstance : Tightly (typeBody inner.expression inner.type))
  skim := (inferInstance : Tightly (typeBody skippedSize inner.skim))
  expression := (inferInstance : Tightly (expressionBody inner))
  statement context := (inferInstance : Tightly (statementBody inner context))
  items context := (inferInstance : Tightly (some <$> itemsBody inner context))
  members context what := (inferInstance : Tightly (some <$> membersBody inner context what))
  declaration context := (inferInstance : Tightly (declarationBody inner context))

instance : TightLevel (Level.above fun _ => inner) where
  entries := inferInstance
  conditional := (inferInstance : Binds conditionalStrength (conditionalBody inner))
  power := (inferInstance : Binds (binaryStrength .power) (powerBody inner))
  unary := (inferInstance : Binds leadingStrength (unaryBody inner))

end Items

/-! ## Without room -/

/-- A placeholder for an expression that there is no room for is as strong as a name. -/
instance (limit : Nat) : TightLevel (Level.full limit) where
  entries := inferInstance
  conditional :=
    ⟨⟨yields_refuseNode inferInstance⟩, yields_refuseNode fun _ _ => (Strong.of_primary rfl).mono (by decide)⟩
  power :=
    ⟨⟨yields_refuseNode inferInstance⟩, yields_refuseNode fun _ _ => (Strong.of_primary rfl).mono (by decide)⟩
  unary := ⟨⟨yields_refuseNode inferInstance⟩, yields_refuseNode inferInstance⟩

instance (limit room : Nat) : TightLevel (grammar limit room) := by
  induction room with
  | zero => exact (inferInstance : TightLevel (Level.full limit))
  | succ room ih => exact (inferInstance : TightLevel (Level.above fun _ => grammar limit room))

end FluxFront.Grammar

namespace FluxFront

/-- Every expression of a program that was read is grouped. -/
theorem parseTokens_grouped (tokens : List Token) (config : Config) {e : Expr}
    (he : .expression e ∈ (parseTokens tokens config).program.nodes) : e.Grouped := by
  have hdecls : Grammar.Tightly (Program.declarations <$> Grammar.leveledProgram config) :=
    (inferInstance : Grammar.Tightly (Program.declarations <$> Grammar.programOver config _))
  rw [parseTokens_eq rfl] at he
  have htight := Every.list_iff.1 (hdecls.run (.ofTokens tokens config.maxErrors))
  obtain ⟨d, hd, hwalk⟩ := List.mem_flatMap.1 he
  exact (htight d hd).nodes _ List.mem_cons_self e hwalk

/-- Next to an operator, an operand that was read is as strong as the printer asks for, so it is written
without parentheses.  In particular the groups are those of the levels of the grammar. -/
theorem operands_written_open (tokens : List Token) (config : Config) {e : Expr}
    (he : .expression e ∈ (parseTokens tokens config).program.nodes) :
    (∀ o ∈ e.form.operands, o.1 ≤ o.2.strength)
      ∧ (∀ level, e.print level = e.openText level)
      ∧ (∀ op op' left right l r, e.form = .binary op left right → op.isRightAssociative = false →
          right.form = .binary op' l r → op.precedence < op'.precedence)
      ∧ (∀ base exponent l r, e.form = .binary .power base exponent → base.form ≠ .binary .power l r)
      ∧ ∀ c t f c' t' f', e.form = .conditional c t f → c.form ≠ .conditional c' t' f' := by
  have hgrouped := parseTokens_grouped tokens config he
  refine ⟨hgrouped, fun level => Expr.print_eq_iff.2 hgrouped, ?_, ?_, ?_⟩
  · exact fun op op' left right l r hform hop hright => hgrouped.precedence_lt hform hop hright
  · exact fun base exponent l r hform => hgrouped.base_ne_power hform
  · exact fun c t f c' t' f' hform => hgrouped.condition_ne_conditional hform

/-- A power without an exponent. -/
def Node.isOpenPower : Node → Bool
  | .expression ⟨.binary .power _ ⟨.placeholder, _, _⟩, _, _⟩ => true
  | _ => false

/-- In `a - b ** ;` the exponent is missing, and what stands for it is written without parentheses, too. -/
theorem operands_written_open_missing :
    ∃ e base exponent, .expression e ∈ (parseTokens (Token.scan "a - b ** ;").1 {}).program.nodes
      ∧ e.form = .binary .power base exponent ∧ exponent.isPlaceholder = true
      ∧ e.print 0 = base.print 0 ++ " " ++ "**" ++ " " ++ exponent.print 0 := by
  have hread : ∃ n ∈ (parseTokens (Token.scan "a - b ** ;").1 {}).program.nodes, n.isOpenPower = true := by
    decide +kernel
  obtain ⟨n, hn, hpower⟩ := hread
  unfold Node.isOpenPower at hpower
  split at hpower
  case h_1 base _ _ _ _ =>
    exact ⟨_, base, _, hn, rfl, rfl, (operands_written_open _ _ hn).2.1 0⟩
  case h_2 => exact absurd hpower nofun

end FluxFront
