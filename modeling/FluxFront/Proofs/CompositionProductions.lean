import FluxFront.Proofs.Composition

/-!
# What the grammar keeps composed

For a composed property, all nodes that a production gives have it if all nodes have it that the level
below gives, and the nodes of the few productions that put together something else than ordinary nodes.

* **Parsers**: one instance of `Ensures` for each way to put parsers together.
* **Levels**: `EnsuresLevel P l` says that all entries of a level give nodes with the property.
* **Productions**: one instance for each, given that the few that build extraordinary nodes give nodes
  with the property (`EnsuresOver`).
-/

set_option synthInstance.maxSize 1000

namespace FluxFront.Grammar

open Token (Kind)

/-! ## Parsers -/

section

variable {P Q : Node → Prop} {α β : Type} [Bearing α] [Bearing β]

/-- From every state, the result has a property. -/
def Yields {γ : Type} (R : γ → Prop) (p : Parser γ) : Prop := ∀ s, R (p s).1

/-- From every state, all nodes of the result have a property. -/
class Ensures (P : Node → Prop) (p : Parser α) : Prop where
  run : Yields (Every P) p

/-- A value all nodes of which have a property. -/
structure Held (P : Node → Prop) (α : Type) [Bearing α] where
  value : α
  every : Every P value

attribute [instance] Held.every

namespace Yields

variable {γ δ : Type} {Q : γ → Prop} {R : δ → Prop}

theorem pure {a : δ} (h : R a) : Yields R (Pure.pure a) := fun _ => h

theorem andThen {p : Parser γ} {q : γ → Parser δ} (hp : Yields Q p) (hq : ∀ a, Q a → Yields R (q a)) :
    Yields R (p >>= q) := fun s => hq _ (hp s) _

/-- What comes out does not depend on what came before. -/
theorem always {p : Parser γ} {q : γ → Parser δ} (hq : ∀ a, Yields R (q a)) : Yields R (p >>= q) :=
  fun _ => hq _ _

theorem ite {c : Prop} [Decidable c] {p q : Parser δ} (hp : Yields R p) (hq : Yields R q) :
    Yields R (if c then p else q) := by
  split
  · exact hp
  · exact hq

theorem node {build : Span → NodeId → δ} (h : ∀ span id, R (build span id)) (start : Location) :
    Yields R (node build start) := fun _ => h _ _

/-- What a loop keeps with each step holds of its result. -/
theorem iterate {step : δ → Parser (Option δ)} (h : ∀ b, R b → Yields (∀ b' ∈ ·, R b') (step b)) {b : δ}
    (hb : R b) : Yields R (iterate step b) := by
  have upTo : ∀ fuel b, R b → Yields R (iterateUpTo fuel step b) := by
    intro fuel
    induction fuel with
    | zero => exact fun _ hb => .pure hb
    | succ fuel ih =>
      refine fun b hb => .andThen (h b hb) fun o ho => ?_
      cases o with
      | none => exact .pure hb
      | some next => exact ih next (ho next rfl)
  exact .always fun s => upTo _ b hb

/-- A loop collects what its rounds give. -/
theorem many {p : Parser (Option δ)} (h : Yields (∀ a ∈ ·, R a) p) :
    Yields (fun as => ∀ a ∈ as, R a) (many p) := by
  have upTo : ∀ fuel, Yields (fun as => ∀ a ∈ as, R a) (manyUpTo fuel p) := by
    intro fuel
    induction fuel with
    | zero => exact .pure (List.forall_mem_nil _)
    | succ fuel ih =>
      refine .andThen h fun o ho => ?_
      cases o with
      | none => exact .pure (List.forall_mem_nil _)
      | some a => exact .andThen ih fun more hmore => .pure (List.forall_mem_cons.2 ⟨ho a rfl, hmore⟩)
  exact .always fun s => upTo _

end Yields

namespace Ensures

theorem mono {p : Parser α} (hp : Ensures Q p) (h : ∀ n, Q n → P n) : Ensures P p :=
  ⟨fun s => (hp.run s).mono h⟩

/-- What comes first may be ensured to have another property. -/
theorem andThenFrom {p : Parser α} {q : α → Parser β} (hp : Ensures Q p)
    (hq : ∀ w : Held Q α, Ensures P (q w.value)) : Ensures P (p >>= q) :=
  ⟨fun s => (hq ⟨_, hp.run s⟩).run _⟩

theorem andThen {p : Parser α} {q : α → Parser β} (hp : Ensures P p)
    (hq : ∀ w : Held P α, Ensures P (q w.value)) : Ensures P (p >>= q) := hp.andThenFrom hq

theorem andThenOptionFrom {p : Parser (Option α)} {q : Option α → Parser β}
    (hp : Ensures Q p) (hnone : Ensures P (q none)) (hsome : ∀ w : Held Q α, Ensures P (q (some w.value))) :
    Ensures P (p >>= q) :=
  hp.andThenFrom fun w => by
    obtain ⟨o, ho⟩ := w
    cases o with
    | none => exact hnone
    | some a => exact hsome ⟨a, Every.some_iff.1 ho⟩

theorem andThenOption {p : Parser (Option α)} {q : Option α → Parser β} (hp : Ensures P p)
    (hnone : Ensures P (q none)) (hsome : ∀ w : Held P α, Ensures P (q (some w.value))) :
    Ensures P (p >>= q) := hp.andThenOptionFrom hnone hsome

theorem always {γ : Type} {p : Parser γ} {q : γ → Parser β} (hq : ∀ a, Ensures P (q a)) : Ensures P (p >>= q) :=
  ⟨fun _ => (hq _).run _⟩

instance [Plain α] (p : Parser α) : Ensures P p := ⟨fun _ => inferInstance⟩

instance {a : α} [h : Every P a] : Ensures P (pure a) := ⟨fun _ => h⟩

instance {p : Parser α} {q : α → Parser β} [hp : Ensures P p] [hq : ∀ w : Held P α, Ensures P (q w.value)] :
    Ensures P (p >>= q) := hp.andThen hq

instance (priority := 1100) [Plain α] {p : Parser α} {q : α → Parser β} [hq : ∀ a, Ensures P (q a)] :
    Ensures P (p >>= q) := .always hq

instance (priority := 1200) {a : α} {q : α → Parser β} [h : Ensures P (q a)] : Ensures P (pure a >>= q) := h

instance {p : Parser α} {f : α → β} [hp : Ensures P p] [hf : ∀ w : Held P α, Every P (f w.value)] :
    Ensures P (f <$> p) := ⟨fun s => hf ⟨_, hp.run s⟩⟩

instance {c : Prop} [Decidable c] {p q : Parser α} [hp : Ensures P p] [hq : Ensures P q] :
    Ensures P (if c then p else q) := by
  split
  · exact hp
  · exact hq

theorem mapMFrom {γ : Type} [Bearing γ] {f : γ → Parser β}
    (hf : ∀ w : Held Q γ, Ensures P (f w.value)) {as : List γ} (h : Every Q as) : Ensures P (as.mapM f) := by
  have all : ∀ as : List γ, (∀ a ∈ as, Every Q a) → Ensures P (as.mapM f) := by
    intro as
    induction as with
    | nil => exact fun _ => (inferInstance : Ensures P (pure ([] : List β)))
    | cons a as ih =>
      intro has
      rw [List.forall_mem_cons] at has
      have := hf ⟨a, has.1⟩
      have := ih has.2
      rw [List.mapM_cons]
      infer_instance
  exact all as (Every.list_iff.1 h)

instance {γ : Type} [Bearing γ] {f : γ → Parser β} [hf : ∀ w : Held P γ, Ensures P (f w.value)] {as : List γ}
    [h : Every P as] : Ensures P (as.mapM f) := mapMFrom hf h

theorem option {p : Parser (Option α)} (h : Ensures P p) : Yields (∀ a ∈ ·, Every P a) p := by
  intro s a ha
  have hrun := h.run s
  rw [Option.mem_def.1 ha] at hrun
  exact Every.some_iff.1 hrun

instance {step : β → Parser (Option β)} [h : ∀ w : Held P β, Ensures P (step w.value)] {b : β}
    [hb : Every P b] : Ensures P (iterate step b) := ⟨.iterate (fun b hb => (h ⟨b, hb⟩).option) hb⟩

instance {p : Parser (Option α)} [h : Ensures P p] : Ensures P (many p) :=
  ⟨fun s => Every.list_iff.2 (h.option.many s)⟩

instance {item : Parser α} [Ensures P item] : Ensures P (commaSeparated item) := by
  unfold commaSeparated
  infer_instance

instance {close : Kind} {item : Parser α} [Ensures P item] : Ensures P (commaTerminated close item) := by
  unfold commaTerminated
  infer_instance

instance {close : Kind} {item : Parser (List α)} [Ensures P item] : Ensures P (bodyItems close item) := by
  unfold bodyItems bodyRound
  infer_instance

instance {build : Span → NodeId → α} [h : ∀ span id, Every P (build span id)] (span : Span) :
    Ensures P (nodeAt build span) := ⟨fun _ => h _ _⟩

instance {build : Span → NodeId → α} [h : ∀ span id, Every P (build span id)] (start : Location) :
    Ensures P (node build start) := ⟨fun _ => h _ _⟩

end Ensures

end

/-! ## Types -/

section Types

variable {P : Node → Prop} [Composed P] {type : Parser Ty} [Ensures P type]

instance (builtin : Builtin) : Ensures P (builtinType builtin) := by
  unfold builtinType
  infer_instance

instance (close : Kind) : Ensures P (typeList type close) := by
  unfold typeList
  infer_instance

instance : Ensures P (resultType type) := by
  unfold resultType
  infer_instance

instance : Ensures P (functionType type) := by
  unfold functionType
  infer_instance

instance : Ensures P (namedType type) := by
  unfold namedType
  dsimp only
  infer_instance

instance : Ensures P (baseType type) := by
  refine .always fun k => ?_
  split <;> infer_instance

instance (t : Ty) [Every P t] (start : Location) : Ensures P (pointerTo t start) := by
  unfold pointerTo
  infer_instance

instance {size : Parser Expr} [Ensures P size] (start : Location) (t : Ty) [Every P t] :
    Ensures P (modifiedType? size start t) := by
  refine .always fun k => ?_
  dsimp only
  split <;> infer_instance

instance {size : Parser Expr} [Ensures P size] : Ensures P (typeBody size type) := by
  unfold typeBody
  infer_instance

instance : Ensures P skippedSize := by
  unfold skippedSize
  infer_instance

end Types

/-! ## Levels -/

/-- A level all entries of which give nodes with a property, those for operands left aside. -/
class EnsuresLevel (P : Node → Prop) (l : Level) : Prop where
  type : Ensures P l.type
  skim : Ensures P l.skim
  expression : Ensures P l.expression
  statement (context : Context) : Ensures P (l.statement context)
  items (context : Context) : Ensures P (l.items context)
  members (context : Context) (what : String) : Ensures P (l.members context what)
  declaration (context : Context) : Ensures P (l.declaration context)

attribute [instance] EnsuresLevel.type EnsuresLevel.skim EnsuresLevel.expression EnsuresLevel.statement
  EnsuresLevel.items EnsuresLevel.members EnsuresLevel.declaration

/-- A level over which the productions that build extraordinary nodes give nodes with a property. -/
class EnsuresOver (P : Node → Prop) (l : Level) : Prop where
  groupOrCast : Ensures P (groupOrCast l)
  opExpr : Ensures P (opExpr l)
  braceExpr : Ensures P (braceExpr l)
  blockStatement (context : Context) : Ensures P (blockStatement l context)
  namespaceDecl : Ensures P (namespaceDecl l)
  classOrObject : Ensures P (classOrObject l)
  templateDecl (context : Context) : Ensures P (templateDecl l context)

attribute [instance] EnsuresOver.groupOrCast EnsuresOver.opExpr EnsuresOver.braceExpr
  EnsuresOver.blockStatement EnsuresOver.namespaceDecl EnsuresOver.classOrObject EnsuresOver.templateDecl

/-! ## Bodies -/

section Bodies

variable {P : Node → Prop} [Composed P] {inner : Level} {context : Context}

instance [Ensures P (inner.items context)] : Ensures P (block inner context) := by
  refine .always fun start => .always fun accepted => ?_
  split
  · exact .andThenOption inferInstance inferInstance inferInstance
  · infer_instance

instance {what : String} [Ensures P (inner.members context what)] :
    Ensures P (memberBody inner context what) :=
  .always fun _ => .andThenOption inferInstance inferInstance inferInstance

end Bodies

section Productions

variable {P : Node → Prop} [Composed P] {inner : Level} [EnsuresLevel P inner]

/-! ## Primaries -/

instance (close : Kind) : Ensures P (arguments inner close) := by
  unfold arguments
  infer_instance

instance : Ensures P literal := by
  unfold literal
  infer_instance

instance : Ensures P (sizeOfExpr inner) := by
  unfold sizeOfExpr
  infer_instance

instance : Ensures P (typeOfExpr inner) := by
  unfold typeOfExpr
  infer_instance

instance : Ensures P (interpolatedValues inner) := by
  unfold interpolatedValues
  dsimp only
  infer_instance

instance : Ensures P (interpolatedString inner) := by
  unfold interpolatedString
  dsimp only
  infer_instance

instance : Ensures P (arrayExpr inner) := by
  unfold arrayExpr
  infer_instance

instance : Ensures P (dictionaryEntry inner) := by
  unfold dictionaryEntry
  infer_instance

instance : Ensures P missingExpr := by
  unfold missingExpr
  infer_instance

instance [EnsuresOver P inner] : Ensures P (primary inner) := by
  refine .always fun k => ?_
  split <;> infer_instance

instance (start : Location) (e : Expr) [Every P e] : Ensures P (chained? inner start e) := by
  refine .always fun k => ?_
  dsimp only
  split <;> infer_instance

instance [EnsuresOver P inner] : Ensures P (callChain inner) := by
  unfold callChain
  infer_instance

instance (start : Location) (e : Expr) [Every P e] : Ensures P (trailed? start e) := by
  refine .always fun k => ?_
  split <;> infer_instance

instance [EnsuresOver P inner] : Ensures P (trailing inner) := by
  unfold trailing
  infer_instance

end Productions

section Items

variable {P : Node → Prop} [Composed P] {inner : Level} [EnsuresLevel P inner] [EnsuresOver P inner]

/-! ## Declarations -/

instance (t : Ty) [h : Every P t] : Ensures P (duplicateType t) := ⟨fun s => h.freshCopy s.nextId⟩

instance : Ensures P (structFields inner) := by
  unfold structFields
  infer_instance

instance : Ensures P (structDecl inner) := by
  unfold structDecl
  infer_instance

instance : Ensures P (parameter inner) := by
  unfold parameter
  infer_instance

instance : Ensures P (parameters inner) := by
  unfold parameters
  dsimp only
  infer_instance

instance (context : Context) : Ensures P (functionDecl inner context) := by
  unfold functionDecl
  dsimp only
  infer_instance

instance (context : Context) : Ensures P (operatorDecl inner context) := by
  unfold operatorDecl
  dsimp only
  infer_instance

instance : Ensures P importDecl := by
  unfold importDecl
  dsimp only
  infer_instance

instance : Ensures P usingDecl := by
  unfold usingDecl
  infer_instance

instance : Ensures P (enumMember inner) := by
  unfold enumMember
  dsimp only
  infer_instance

instance : Ensures P (enumDecl inner) := by
  unfold enumDecl
  infer_instance

instance : Ensures P (typeAlias inner) := by
  unfold typeAlias
  infer_instance

instance : Ensures P asmDecl := by
  unfold asmDecl
  infer_instance

instance : Ensures P dataDecl := by
  unfold dataDecl
  infer_instance

instance (span : Span) : Ensures P (placeholderStatement span) := by
  unfold placeholderStatement
  infer_instance

/-- The result of a pointer to a function is what the pointer pointed to. -/
instance (t : Ty) [ht : Every P t] : Ensures P (finishFunctionPointer inner t) := by
  unfold finishFunctionPointer
  split
  case h_1 pointee qualifiers hform =>
    have hpointee : Every P pointee := ht.pointee hform
    infer_instance
  case h_2 => infer_instance

section

variable (start : Location) (qualifiers : Qualifiers) (t : Ty) [Every P t] (name : String)
  (args : Option (List Expr)) [Every P args]

instance : Ensures P (declarator inner start qualifiers t name args) := by
  unfold declarator
  dsimp only
  infer_instance

instance : Ensures P (finishVariables inner start qualifiers t name args) := by
  unfold finishVariables
  infer_instance

end

instance : Ensures P (variableDecl inner) := by
  unfold variableDecl
  infer_instance

instance : Ensures P (instantiationArgs inner) := by
  unfold instantiationArgs
  infer_instance

instance : Ensures P (nameLedDecl inner) := by
  refine .always fun form => ?_
  cases form with
  | none => infer_instance
  | some form =>
    refine .always fun start => .always fun before => .andThen inferInstance fun type => ?_
    cases form <;> infer_instance

instance (context : Context) : Ensures P (declarationBody inner context) := by
  have one : ∀ {decl : Parser Decl} [Ensures P decl], Ensures P (declarationBody.one decl) := fun {_} _ => by
    unfold declarationBody.one
    infer_instance
  refine .always fun s => ?_
  dsimp only
  split <;> infer_instance

instance (context : Context) (what : String) : Ensures P (membersBody inner context what) := by
  have hitem : Ensures P (memberItem inner context what) :=
    .andThenOption inferInstance inferInstance inferInstance
  unfold membersBody
  infer_instance

/-! ## Statements -/

instance (d : Decl) [hd : Every P d] : Ensures P (declarationStatement d) := by
  unfold declarationStatement
  split
  case h_1 var hform =>
    have hvar : Every P var := hd.declared hform
    infer_instance
  case h_2 =>
    dsimp only
    infer_instance

instance : Ensures P (expressionStatement inner) := by
  unfold expressionStatement
  infer_instance

instance (keyword : String) : Ensures P (condition inner keyword) := by
  unfold condition
  infer_instance

instance (context : Context) : Ensures P (ifStatement inner context) := by
  unfold ifStatement
  dsimp only
  infer_instance

instance (context : Context) : Ensures P (whileStatement inner context) := by
  unfold whileStatement
  infer_instance

instance (context : Context) : Ensures P (doStatement inner context) := by
  unfold doStatement
  infer_instance

instance (context : Context) : Ensures P (forInit inner context) := by
  refine .always fun accepted => ?_
  split
  · infer_instance
  · exact .andThenOption inferInstance inferInstance inferInstance

instance (context : Context) : Ensures P (forStatement inner context) := by
  refine .always fun start => .always fun _ => .always fun _ => .always fun header => ?_
  dsimp only
  split
  · infer_instance
  · -- the condition may be missing, and behind it the increment
    refine .andThen inferInstance fun init => .always fun missing => ?_
    split <;> exact .andThen inferInstance fun condition => inferInstance

instance (context : Context) : Ensures P (switchCase inner context) := by
  unfold switchCase
  dsimp only
  infer_instance

instance (context : Context) (cases : List Case) [Every P cases] : Ensures P (nextCases inner context cases) := by
  unfold nextCases
  infer_instance

instance (context : Context) : Ensures P (switchCases inner context) := by
  unfold switchCases switchRound
  infer_instance

instance (context : Context) : Ensures P (switchStatement inner context) := by
  unfold switchStatement
  dsimp only
  infer_instance

instance : Ensures P (returnStatement inner) := by
  unfold returnStatement
  dsimp only
  infer_instance

instance (context : Context) : Ensures P (breakStatement context) := by
  unfold breakStatement
  dsimp only
  infer_instance

instance (context : Context) : Ensures P (continueStatement context) := by
  unfold continueStatement
  dsimp only
  infer_instance

instance : Ensures P (handlerException inner) := by
  unfold handlerException
  dsimp only
  infer_instance

instance (context : Context) : Ensures P (handler? inner context) := by
  unfold handler?
  dsimp only
  infer_instance

instance (context : Context) : Ensures P (tryStatement inner context) := by
  unfold tryStatement
  dsimp only
  infer_instance

instance (context : Context) : Ensures P (closedBlock inner context) := by
  unfold closedBlock
  infer_instance

instance (context : Context) : Ensures P (throwStatement inner context) := by
  -- the message without the parentheses around it
  have ungrouped : ∀ w : Held P Expr,
      Every P (match w.value.form with | .group expr => expr | _ => w.value) := by
    intro w
    split
    case h_1 expr hform => exact w.every.grouped hform
    case h_2 => infer_instance
  unfold throwStatement
  dsimp only
  infer_instance

instance : Ensures P (assertStatement inner) := by
  unfold assertStatement
  infer_instance

instance : Ensures P asmStatement := by
  unfold asmStatement
  infer_instance

instance (context : Context) (which : LockKind) : Ensures P (lockStatement inner context which) := by
  unfold lockStatement
  dsimp only
  infer_instance

instance (context : Context) : Ensures P (keywordStatement inner context) := by
  refine .always fun k => ?_
  split <;> infer_instance

instance (context : Context) : Ensures P (plainStatement inner context) :=
  .andThenOption inferInstance inferInstance inferInstance

instance (context : Context) : Ensures P (blockItem inner context) :=
  .andThenOption inferInstance (.andThenOption inferInstance inferInstance inferInstance) inferInstance

instance (context : Context) : Ensures P (itemsBody inner context) := by
  unfold itemsBody
  infer_instance

/-! ## Programs -/

instance (config : Config) : Ensures P (topLevelItem config inner) :=
  .andThenOption inferInstance inferInstance inferInstance

instance (config : Config) : Ensures P (Program.declarations <$> programOver config inner) :=
  ⟨(inferInstance : Ensures P (bodyItems .eof (topLevelItem config inner))).run⟩

end Items

/-! ## Without room -/

theorem yields_refuseNode {α : Type} {R : α → Prop} {limit : Nat} {build : Span → NodeId → α}
    (h : ∀ span id, R (build span id)) : Yields R (refuseNode limit build) :=
  .always fun start => .always fun _ => .node h start

instance {P : Node → Prop} [Composed P] (limit : Nat) : EnsuresLevel P (Level.full limit) where
  type := ⟨yields_refuseNode inferInstance⟩
  skim := ⟨yields_refuseNode inferInstance⟩
  expression := ⟨yields_refuseNode inferInstance⟩
  statement _ := by
    unfold Level.full
    infer_instance
  items _ := by
    unfold Level.full
    infer_instance
  members _ _ := by
    unfold Level.full
    infer_instance
  declaration _ := by
    unfold Level.full
    infer_instance

end FluxFront.Grammar
