import Mathlib.Data.List.Chain
import FluxFront.Proofs.CompositionProductions
import FluxFront.Proofs.ProgramProductions

/-!
# Nesting is bounded

Constructs that can stand inside themselves are read with a level of the grammar less below them, and
where there is no level left a stand-in without parts is given.

* **Specification**: on any way down the tree of a program there is at most one such construct more than
  there are levels of nesting (`parseTokens_nesting_le`).  The additional one is a construct at the top, or
  the block that is put around the variables of one declaration where a single statement is read.
* **Invariant**: the entries of a level with room for `room` levels give nodes below which at most `room`
  constructs are nested, or `room + 1` if they are statements (`Nesting room`).
-/

set_option synthInstance.maxSize 1000

namespace FluxFront

namespace Node

/-! ## Ways down a tree -/

/-- Whether a node is a construct for which there must be room. -/
def isNesting : Node → Bool
  | expression ⟨.group _, _, _⟩ | expression ⟨.cast _ _, _, _⟩ | expression ⟨.block _, _, _⟩
  | statement ⟨.block _, _, _⟩
  | declaration ⟨.namespaceDecl _ _, _, _⟩ | declaration ⟨.classDecl _ _ _ _ _, _, _⟩
  | declaration ⟨.objectDecl _ _ _ _, _, _⟩ | declaration ⟨.template _ _, _, _⟩ => true
  | _ => false

/-- A way down: each node is a child of the one before. -/
def IsPath (path : List Node) : Prop := path.IsChain fun n c => c ∈ n.children

/-- On every way down from a node there are at most so many nested constructs, itself included. -/
def NestsAtMost (bound : Nat) (n : Node) : Prop :=
  ∀ path, IsPath (n :: path) → (n :: path).countP isNesting ≤ bound

theorem NestsAtMost.mono {bound bound' : Nat} {n : Node} (h : n.NestsAtMost bound)
    (hle : bound ≤ bound') : n.NestsAtMost bound' :=
  fun path hpath => Nat.le_trans (h path hpath) hle

/-- A node that needs no room nests as much as its children do. -/
theorem nestsAtMost_iff {bound : Nat} {n : Node} (hn : n.isNesting = false) :
    n.NestsAtMost bound ↔ ∀ c ∈ n.children, c.NestsAtMost bound := by
  constructor
  · intro h c hc path hpath
    have hcount := h (c :: path) (List.isChain_cons_cons.2 ⟨hc, hpath⟩)
    rwa [List.countP_cons_of_neg (by simp [hn])] at hcount
  · intro h path hpath
    rw [List.countP_cons_of_neg (by simp [hn])]
    cases path with
    | nil => exact Nat.zero_le bound
    | cons c path =>
      obtain ⟨hc, hpath⟩ := List.isChain_cons_cons.1 hpath
      exact h c hc path hpath

/-- A node that needs room for itself leaves one level less to its children. -/
theorem nestsAtMost_succ_iff {bound : Nat} {n : Node} (hn : n.isNesting = true) :
    n.NestsAtMost (bound + 1) ↔ ∀ c ∈ n.children, c.NestsAtMost bound := by
  constructor
  · intro h c hc path hpath
    have hcount := h (c :: path) (List.isChain_cons_cons.2 ⟨hc, hpath⟩)
    rw [List.countP_cons_of_pos hn] at hcount
    exact Nat.le_of_succ_le_succ hcount
  · intro h path hpath
    rw [List.countP_cons_of_pos hn]
    apply Nat.succ_le_succ
    cases path with
    | nil => exact Nat.zero_le bound
    | cons c path =>
      obtain ⟨hc, hpath⟩ := List.isChain_cons_cons.1 hpath
      exact h c hc path hpath

theorem not_nestsAtMost_zero {n : Node} (hn : n.isNesting = true) : ¬ n.NestsAtMost 0 := by
  intro h
  have hcount := h [] (List.isChain_singleton n)
  rw [List.countP_cons_of_pos hn] at hcount
  exact Nat.not_succ_le_zero _ hcount

theorem NestsAtMost.child {bound : Nat} {n c : Node} (h : n.NestsAtMost bound) (hc : c ∈ n.children) :
    c.NestsAtMost bound := by
  cases hn : n.isNesting with
  | false => exact (nestsAtMost_iff hn).1 h c hc
  | true =>
    cases bound with
    | zero => exact absurd h (not_nestsAtMost_zero hn)
    | succ bound => exact ((nestsAtMost_succ_iff hn).1 h c hc).mono (Nat.le_succ bound)

theorem isNesting_freshCopy (n : Node) (s : NodeId) :
    (n.edit Edit.freshCopy s).1.isNesting = n.isNesting := by
  cases n with
  | declaration d =>
    obtain ⟨form, span, id⟩ := d
    cases form <;> rfl
  | statement t =>
    obtain ⟨form, span, id⟩ := t
    cases form <;> rfl
  | expression e =>
    obtain ⟨form, span, id⟩ := e
    cases form <;> rfl
  | type t => rfl

theorem NestsAtMost.freshCopy {bound : Nat} {n : Node} (h : n.NestsAtMost bound) (s : NodeId) :
    (n.edit Edit.freshCopy s).1.NestsAtMost bound := by
  induction n using descend generalizing bound s with
  | h n ih =>
    cases hn : n.isNesting with
    | false =>
      refine (nestsAtMost_iff (by rw [isNesting_freshCopy, hn])).2 fun c hc => ?_
      obtain ⟨m, hm, first, rfl⟩ := exists_original hc
      exact ih m hm ((nestsAtMost_iff hn).1 h m hm) first
    | true =>
      cases bound with
      | zero => exact absurd h (not_nestsAtMost_zero hn)
      | succ bound =>
        refine (nestsAtMost_succ_iff (by rw [isNesting_freshCopy, hn])).2 fun c hc => ?_
        obtain ⟨m, hm, first, rfl⟩ := exists_original hc
        exact ih m hm ((nestsAtMost_succ_iff hn).1 h m hm) first

theorem isNesting_of_isOrdinary {n : Node} (h : n.isOrdinary = true) : n.isNesting = false := by
  cases n with
  | declaration d =>
    obtain ⟨form, span, id⟩ := d
    cases form
    case namespaceDecl | classDecl | objectDecl | template => exact absurd h Bool.false_ne_true
    all_goals rfl
  | statement s =>
    obtain ⟨form, span, id⟩ := s
    cases form
    case block => exact absurd h Bool.false_ne_true
    all_goals rfl
  | expression e =>
    obtain ⟨form, span, id⟩ := e
    cases form
    case cast | group | block => exact absurd h Bool.false_ne_true
    all_goals rfl
  | type t => rfl

instance (bound : Nat) : Composed (NestsAtMost bound) where
  children := NestsAtMost.child
  ordinary h hchildren := (nestsAtMost_iff (isNesting_of_isOrdinary h)).2 hchildren
  copied s h := h.freshCopy s

end Node

open Node (NestsAtMost)

/-! ## Nodes that are not ordinary -/

namespace Every

section

variable {bound : Nat} {a b c : Expr} {t : Ty} (span : Span) (id : NodeId)

/-- Operators need no room. -/
theorem unnested {β : Type} [Bearing β] {form : Expr.Form} (parts : β)
    [h : Every (NestsAtMost bound) parts] (heq : Node.ofExpr form = Bearing.nodes parts)
    (hform : (Node.expression (Expr.mk form span id)).isNesting = false) :
    Every (NestsAtMost bound) (Expr.mk form span id) :=
  ⟨List.forall_mem_singleton.2 ((Node.nestsAtMost_iff hform).2 (by
    show ∀ c ∈ Node.ofExpr form, c.NestsAtMost bound
    rw [heq]
    exact h.nodes))⟩

section

variable [Every (NestsAtMost bound) a] [Every (NestsAtMost bound) b] [Every (NestsAtMost bound) c]

instance (op : UnaryOp) : Every (NestsAtMost bound) (Expr.mk (.unary op a .before) span id) :=
  unnested span id a rfl rfl

instance (op : BinaryOp) : Every (NestsAtMost bound) (Expr.mk (.binary op a b) span id) :=
  unnested span id (a, b) rfl rfl

instance (op : AssignOp) : Every (NestsAtMost bound) (Expr.mk (.assign op a b) span id) :=
  unnested span id (a, b) rfl rfl

instance : Every (NestsAtMost bound) (Expr.mk (.conditional a b c) span id) :=
  unnested span id (a, b, c) rfl rfl

instance (operator : String) : Every (NestsAtMost bound) (Expr.mk (.opCall a operator b) span id) :=
  unnested span id (a, b) rfl rfl

end

/-- A construct that needs room, around parts that need less. -/
theorem nested {α β : Type} [Bearing α] [Bearing β] {whole : α} {n : Node}
    (hwhole : Bearing.nodes whole = [n]) (parts : β) [h : Every (NestsAtMost bound) parts]
    (hparts : n.children = Bearing.nodes parts) (hn : n.isNesting = true) :
    Every (NestsAtMost (bound + 1)) whole :=
  ⟨by
    rw [hwhole]
    refine List.forall_mem_singleton.2 ((Node.nestsAtMost_succ_iff hn).2 ?_)
    rw [hparts]
    exact h.nodes⟩

variable {e : Expr} [Every (NestsAtMost bound) e] [Every (NestsAtMost bound) t] {ss : List Stmt}
  [Every (NestsAtMost bound) ss] {body : Block} [Every (NestsAtMost bound) body] {d : Decl}
  [Every (NestsAtMost bound) d] {ds : List Decl} [Every (NestsAtMost bound) ds] (name : String)

instance : Every (NestsAtMost (bound + 1)) (Expr.mk (.group e) span id) := nested rfl e rfl rfl

instance : Every (NestsAtMost (bound + 1)) (Expr.mk (.cast t e) span id) := nested rfl (t, e) rfl rfl

instance : Every (NestsAtMost (bound + 1)) (Expr.mk (.block ss) span id) :=
  nested rfl ss (by simp [Bearing.nodes, Node.children, Node.ofExpr, List.map_eq_flatMap]) rfl

instance : Every (NestsAtMost (bound + 1)) (Stmt.mk (.block body) span id) := nested rfl body rfl rfl

instance : Every (NestsAtMost (bound + 1)) (Decl.mk (.namespaceDecl name ds) span id) :=
  nested rfl ds (by simp [Bearing.nodes, Node.children, Node.ofDecl, List.map_eq_flatMap]) rfl

instance (bases exclusions : List QualifiedName) (isForward : Bool) :
    Every (NestsAtMost (bound + 1)) (Decl.mk (.classDecl name bases exclusions ds isForward) span id) :=
  nested rfl ds (by simp [Bearing.nodes, Node.children, Node.ofDecl, List.map_eq_flatMap]) rfl

instance (bases : List QualifiedName) (isForward : Bool) :
    Every (NestsAtMost (bound + 1)) (Decl.mk (.objectDecl name bases ds isForward) span id) :=
  nested rfl ds (by simp [Bearing.nodes, Node.children, Node.ofDecl, List.map_eq_flatMap]) rfl

instance (params : List String) : Every (NestsAtMost (bound + 1)) (Decl.mk (.template params d) span id) :=
  nested rfl d rfl rfl

end

end Every

namespace Grammar

/-! ## Levels -/

/-- The entries of a level nest so many constructs at most, and statements one more. -/
class Nesting (room : Nat) (l : Level) : Prop where
  type : Ensures (NestsAtMost room) l.type
  skim : Ensures (NestsAtMost room) l.skim
  expression : Ensures (NestsAtMost room) l.expression
  conditional : Ensures (NestsAtMost room) l.conditional
  power : Ensures (NestsAtMost room) l.power
  unary : Ensures (NestsAtMost room) l.unary
  statement (context : Context) : Ensures (NestsAtMost (room + 1)) (l.statement context)
  items (context : Context) : Ensures (NestsAtMost room) (l.items context)
  members (context : Context) (what : String) : Ensures (NestsAtMost room) (l.members context what)
  declaration (context : Context) : Ensures (NestsAtMost room) (l.declaration context)

theorem Nesting.block {room : Nat} {l : Level} (h : Nesting room l) (context : Context) :
    Ensures (NestsAtMost room) (block l context) :=
  have := h.items context
  inferInstance

theorem Nesting.memberBody {room : Nat} {l : Level} (h : Nesting room l) (context : Context)
    (what : String) : Ensures (NestsAtMost room) (memberBody l context what) :=
  have := h.members context what
  inferInstance

theorem Ensures.succ {α : Type} [Bearing α] {room : Nat} {p : Parser α} (h : Ensures (NestsAtMost room) p) :
    Ensures (NestsAtMost (room + 1)) p := h.mono fun _ hn => hn.mono (Nat.le_succ room)

section

variable {room : Nat} {inner : Level} [hi : Nesting room inner]

instance : EnsuresLevel (NestsAtMost (room + 1)) inner where
  type := hi.type.succ
  skim := hi.skim.succ
  expression := hi.expression.succ
  statement := hi.statement
  items context := (hi.items context).succ
  members context what := (hi.members context what).succ
  declaration context := (hi.declaration context).succ

instance : Ensures (NestsAtMost (room + 1)) inner.conditional := hi.conditional.succ
instance : Ensures (NestsAtMost (room + 1)) inner.power := hi.power.succ
instance : Ensures (NestsAtMost (room + 1)) inner.unary := hi.unary.succ

/-! ## Constructs -/

instance (priority := 1200) {β : Type} [Bearing β] {context : Context} {what : String}
    {q : List Decl → Parser β}
    [hq : ∀ w : Held (NestsAtMost room) (List Decl), Ensures (NestsAtMost (room + 1)) (q w.value)] :
    Ensures (NestsAtMost (room + 1)) (memberBody inner context what >>= q) :=
  (hi.memberBody context what).andThenFrom hq

instance : EnsuresOver (NestsAtMost (room + 1)) inner where
  groupOrCast := by
    refine .always fun start => .always fun isCast => ?_
    split
    · refine .always fun before => .always fun _ => hi.type.andThenFrom fun target => ?_
      refine .always fun _ => .always fun _ => hi.unary.andThenFrom fun operand => ?_
      infer_instance
    · refine .always fun _ => hi.expression.andThenFrom fun expr => ?_
      infer_instance
  opExpr := by
    unfold opExpr
    dsimp only
    infer_instance
  braceExpr := by
    refine .always fun start => .always fun next => ?_
    split
    · infer_instance
    · refine .always fun s => ?_
      split
      · infer_instance
      · refine (hi.block _).andThenFrom fun body => ?_
        infer_instance
  blockStatement context := by
    refine (hi.block context).andThenFrom fun body => ?_
    infer_instance
  namespaceDecl := by
    unfold namespaceDecl
    dsimp only
    infer_instance
  classOrObject := by
    unfold classOrObject
    dsimp only
    infer_instance
  templateDecl context := by
    have wrapped : ∀ (start : Location) (params : List String) (decls : Held (NestsAtMost room) (List Decl)),
        Ensures (NestsAtMost (room + 1)) (do
          let span ← spanFrom start
          decls.value.mapM fun decl => nodeAt (Decl.mk (.template params decl)) span) :=
      fun start params decls => .always fun span => .mapMFrom (fun decl => inferInstance) decls.every
    refine .always fun start => .always fun _ => .always fun params => ?_
    dsimp only
    refine (hi.declaration context).andThenOptionFrom ?_ fun decls => ?_
    · have stand : ∀ span, Ensures (NestsAtMost room) (placeholderStatement span) := fun _ => inferInstance
      refine .always fun _ => .always fun span => (stand span).andThenFrom fun stmt => ?_
      have decl : Ensures (NestsAtMost room) (nodeAt (Decl.mk (.statement stmt.value)) span) := inferInstance
      exact decl.andThenFrom fun decl => wrapped start params ⟨[decl.value], inferInstance⟩
    · exact wrapped start params decls

/-! ## Operators -/

instance : Ensures (NestsAtMost (room + 1)) (unaryBody inner) := by
  refine .always fun start => .always fun k => ?_
  split
  · infer_instance
  · split <;> infer_instance

instance : Ensures (NestsAtMost (room + 1)) (powerBody inner) := by
  unfold powerBody
  infer_instance

instance {bound : Nat} {operators : List Token.Kind} {operand : Parser Expr}
    [Ensures (NestsAtMost bound) operand] :
    Ensures (NestsAtMost bound) (leftAssociative operators operand) := by
  have joined : ∀ (start : Location) (left : Held (NestsAtMost bound) Expr),
      Ensures (NestsAtMost bound) (joined? operators operand start left.value) := by
    intro start left
    refine .always fun k => ?_
    split <;> infer_instance
  unfold leftAssociative
  infer_instance

instance : Ensures (NestsAtMost (room + 1)) (binaryBody inner) := by
  unfold binaryBody operatorLevels
  simp only [List.foldr_cons, List.foldr_nil]
  infer_instance

instance : Ensures (NestsAtMost (room + 1)) (conditionalBody inner) := by
  unfold conditionalBody
  infer_instance

instance : Ensures (NestsAtMost (room + 1)) (expressionBody inner) := by
  refine .always fun start => .andThen inferInstance fun target => .always fun k => ?_
  split <;> infer_instance

/-! ## Levels over each other -/

/-- Several variables of one declaration are put into a block, which is read without a level for it. -/
instance (context : Context) : Ensures (NestsAtMost (room + 2)) (statementBody inner context) := by
  have hitem : Ensures (NestsAtMost (room + 1)) (blockItem inner context) := inferInstance
  refine .always fun start => hitem.andThenFrom fun statements => ?_
  split
  case h_1 stmt hone =>
    have hstmt : Every (NestsAtMost (room + 1)) stmt :=
      Every.list_iff.1 statements.every stmt (by rw [hone]; exact List.mem_cons_self)
    exact .succ inferInstance
  case h_2 => infer_instance

instance : Nesting (room + 1) (Level.above fun _ => inner) where
  type := (inferInstance : Ensures _ (typeBody inner.expression inner.type))
  skim := (inferInstance : Ensures _ (typeBody skippedSize inner.skim))
  expression := (inferInstance : Ensures _ (expressionBody inner))
  conditional := (inferInstance : Ensures _ (conditionalBody inner))
  power := (inferInstance : Ensures _ (powerBody inner))
  unary := (inferInstance : Ensures _ (unaryBody inner))
  statement context := (inferInstance : Ensures _ (statementBody inner context))
  items context := (inferInstance : Ensures _ (some <$> itemsBody inner context))
  members context what := (inferInstance : Ensures _ (some <$> membersBody inner context what))
  declaration context := (inferInstance : Ensures _ (declarationBody inner context))

end

instance (limit : Nat) : Nesting 0 (Level.full limit) where
  type := EnsuresLevel.type
  skim := EnsuresLevel.skim
  expression := EnsuresLevel.expression
  conditional := ⟨yields_refuseNode inferInstance⟩
  power := ⟨yields_refuseNode inferInstance⟩
  unary := ⟨yields_refuseNode inferInstance⟩
  statement := EnsuresLevel.statement
  items := EnsuresLevel.items
  members := EnsuresLevel.members
  declaration := EnsuresLevel.declaration

/-- A level nests as many constructs as it has room for. -/
instance (limit room : Nat) : Nesting room (grammar limit room) := by
  induction room with
  | zero => exact (inferInstance : Nesting 0 (Level.full limit))
  | succ room ih => exact (inferInstance : Nesting (room + 1) (Level.above fun _ => grammar limit room))

end Grammar

/-! ## Programs -/

/-- A way down the tree of a program, from one of its declarations on. -/
def Program.HasPath (p : Program) (path : List Node) : Prop :=
  (∃ d ∈ p.declarations, path.head? = some (.declaration d)) ∧ Node.IsPath path

/-- **Nesting is bounded**: on every way down the tree that was read from some tokens there are at most as
many groups, casts, blocks, namespaces, classes, objects and templates as there are levels of nesting, and
one more. -/
theorem parseTokens_nesting_le (tokens : List Token) (config : Config) {path : List Node}
    (h : (parseTokens tokens config).program.HasPath path) :
    path.countP Node.isNesting ≤ config.maxNestingDepth + 1 := by
  have hdecls : Grammar.Ensures (NestsAtMost (config.maxNestingDepth + 1))
      (Program.declarations <$> Grammar.leveledProgram config) :=
    (inferInstance : Grammar.Ensures _ (Program.declarations <$> Grammar.programOver config _))
  rw [parseTokens_eq rfl] at h
  have hevery := Every.list_iff.1 (hdecls.run (.ofTokens tokens config.maxErrors))
  obtain ⟨⟨d, hd, hhead⟩, hpath⟩ := h
  obtain ⟨rest, rfl⟩ := List.head?_eq_some_iff.1 hhead
  exact (hevery d hd).nodes _ List.mem_cons_self rest hpath

/-- With room for one level, one block in another one is the bound, and what is written inside of it is
not read. -/
theorem parseTokens_nesting_le_blocks :
    ∃ path, (parseTokens (Token.scan "{ { x; } }").1 { maxNestingDepth := 1 }).program.HasPath path
      ∧ path.countP Node.isNesting = 2 ∧ path.countP Node.isNesting ≤ 1 + 1 := by
  have hread : ∃ d ∈ (parseTokens (Token.scan "{ { x; } }").1 { maxNestingDepth := 1 }).program.declarations,
      ∃ outer ∈ (Node.declaration d).children, ∃ inner ∈ outer.children,
        [Node.declaration d, outer, inner].countP Node.isNesting = 2 := by
    decide +kernel
  obtain ⟨d, hd, outer, houter, inner, hinner, hcount⟩ := hread
  have hpath : Node.IsPath [.declaration d, outer, inner] :=
    .cons_cons houter (.cons_cons hinner (.singleton inner))
  exact ⟨_, ⟨⟨d, hd, rfl⟩, hpath⟩, hcount, parseTokens_nesting_le _ _ ⟨⟨d, hd, rfl⟩, hpath⟩⟩

end FluxFront
