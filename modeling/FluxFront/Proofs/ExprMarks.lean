import FluxFront.Proofs.Marking
import FluxFront.Proofs.Probes

/-!
# The marks of types and expressions

Each production leaves the marks of its result.  Types and expressions do so whatever stands around
them: a jump can only stand in a statement, and a statement inside one of them is inside a block,
where the loops around it do not count.

* **Crux**: a node has its own marks and those of what it was made of, and both were left on the way
  to it.
-/

namespace FluxFront.Grammar

open Token (Kind)

attribute [simp] Node.marks Node.names Ty.Form.names Expr.Form.names Stmt.Form.names
  Decl.Form.names Node.faults Enclosure.within Node.isPlaceholder Ty.isPlaceholder
  Expr.isPlaceholder Node.children Node.ofTy Node.ofExpr Node.ofStmt Node.ofDecl Node.ofBlock
  Node.ofBindings Node.ofVariable

/-! ## Traces of lists -/

@[simp] theorem flatMap_trace_map {α : Type} (e : Enclosure) (f : α → Node) (xs : List α) :
    (xs.map f).flatMap (Node.trace e) = xs.flatMap fun x => (f x).trace e := List.flatMap_map ..

@[simp] theorem flatMap_trace_flatMap {α : Type} (e : Enclosure) (f : α → List Node) (xs : List α) :
    (xs.flatMap f).flatMap (Node.trace e) = xs.flatMap fun x => (f x).flatMap (Node.trace e) :=
  List.flatMap_assoc ..

/-- Items make the mark of an empty name if one of them has such a name. -/
@[simp] theorem exists_mem_blank {α : Type} {xs : List α} {P : α → Prop} {m : Mark} :
    (∃ x ∈ xs, m = .blank ∧ P x) ↔ m = .blank ∧ ∃ x ∈ xs, P x := by
  constructor
  · rintro ⟨x, hx, hm, hp⟩
    exact ⟨hm, x, hx, hp⟩
  · rintro ⟨hm, x, hx, hp⟩
    exact ⟨x, hx, hm, hp⟩

/-! ## Levels -/

/-- The enclosure that a context describes. -/
def Context.enclosure (c : Context) : Enclosure := ⟨c.inLoop, c.inSwitch⟩

@[simp] theorem Context.enclosure_functionBody (c : Context) : c.functionBody.enclosure = {} := rfl

@[simp] theorem Context.enclosure_looping (c : Context) :
    c.looping.enclosure = { c.enclosure with loop := true } := rfl

@[simp] theorem Context.enclosure_switching (c : Context) :
    c.switching.enclosure = { c.enclosure with switch := true } := rfl

/-- Every entry of a level leaves the marks of its result. -/
structure Level.Marks (l : Level) : Prop where
  type (e : Enclosure) : Grammar.Marks l.type fun t => (Node.type t).trace e
  expression (e : Enclosure) : Grammar.Marks l.expression fun x => (Node.expression x).trace e
  conditional (e : Enclosure) : Grammar.Marks l.conditional fun x => (Node.expression x).trace e
  power (e : Enclosure) : Grammar.Marks l.power fun x => (Node.expression x).trace e
  unary (e : Enclosure) : Grammar.Marks l.unary fun x => (Node.expression x).trace e
  statement (context : Context) :
    Grammar.Marks (l.statement context) fun s => (Node.statement s).trace context.enclosure
  items (context : Context) : Grammar.Marks (l.items context) fun o =>
    (o.getD []).flatMap fun s => (Node.statement s).trace context.enclosure
  members (context : Context) (what : String) (e : Enclosure) :
    Grammar.Marks (l.members context what) fun o =>
      (o.getD []).flatMap fun d => (Node.declaration d).trace e
  declaration (context : Context) (e : Enclosure) : Grammar.Marks (l.declaration context) fun o =>
    (o.getD []).flatMap fun d => (Node.declaration d).trace e
  /-- A type that is skimmed over while looking ahead can be undone. -/
  skim : Grammar.Steady False l.skim

variable {inner : Level} (e : Enclosure)

/-! ## Blocks and raw assembly -/

theorem marks_block (hi : inner.Marks) (context : Context) : Marks (block inner context) fun b =>
    b.statements.flatMap fun s => (Node.statement s).trace context.enclosure := by
  intro s
  refine .here <| .accept (fun _ => ?_) fun _ => ?_
  · refine (hi.items context _).andThen fun o s₁ h₁ => ?_
    have h := (Marked.advance s).before h₁
    cases o with
    | none => exact .spanFrom <| .pure h
    | some statements =>
      refine (unmarked_consume _ _ _).andThen fun _ s₂ h₂ => .spanFrom <| .pure ?_
      exact h.andThen h₂
  · refine ((fails_reportUnexpected _).unmarked s).andThen fun _ s₁ h₁ => .emptySpan <| .pure ?_
    exact h₁.andThen (.reach s₁)

theorem unmarked_asmBody : Unmarked asmBody := by
  intro s
  refine .advance <| .kind ?_
  split
  · refine .advance <| (unmarked_accept _ _).andThen fun _ s₁ h₁ => .pure ?_
    exact (Marked.advance s).before ((Marked.advance _).before h₁)
  · refine .advance <| (unmarked_expectSemicolon _ _).andThen fun _ s₁ h₁ => .pure ?_
    exact (Marked.advance s).before ((Marked.advance _).before h₁)
  · refine ((fails_reportUnexpected _).unmarked _).andThen fun _ s₁ h₁ => .pure ?_
    exact (Marked.advance s).before h₁

/-! ## Types -/

/-- Behind a token that is not the end of the text stands the next one. -/
theorem State.kind_advanced {s : State} (h : s.current.kind ≠ .eof) :
    s.advanced.current.kind = s.kindAt 1 := by
  obtain ⟨t, rest, hr, -, hadv⟩ := State.advanced_cons h
  rw [hadv, State.kindAt, hr]
  cases rest <;> rfl

theorem marks_segment : Marks segment? fun o => o.toList.flatMap fun name => blanks [name] := by
  intro s
  refine .check (fun hk => .kindAt <| .ite (fun hn => ?_) fun _ => .pure (.refl s)) fun _ => ?_
  · refine .advance <| .advance <| .pure ?_
    have hname : s.advanced.current.kind ≠ .eof := by
      rw [State.kind_advanced (by rw [hk]; decide)]
      intro he
      simp [he] at hn
    simpa using (Marked.advance s).before (.word hname)
  · exact .kindAt <| .ite (fun h => absurd h (by simp)) fun _ => .pure (.refl s)

theorem marks_qualifiedName (expected : String) :
    Marks (qualifiedName expected) fun name => blanks name.segments := by
  intro s
  refine (marks_consumeName _ s).andThen fun head s₁ h₁ => ?_
  refine (marks_segment.many s₁).andThen fun tail s₂ h₂ => .pure ?_
  refine (h₁.append h₂).covers (.of_iff fun m => ?_)
  grind [QualifiedName.segments]

theorem unmarked_qualifiers : Unmarked qualifiers := by
  refine .iterate (fun q => (unmarked_acceptAny _).bind fun o => ?_) _
  split <;> exact .pure _

theorem unmarked_bitWidth : Unmarked bitWidth := by
  intro s
  refine .check (fun _ => .advance ?_) fun _ => ?_
  · split <;> exact .pure (.advance s)
  · exact ((fails_reportUnexpected _).unmarked s).andThen fun _ _ h => .pure h

theorem unmarked_dataLayout : Unmarked dataLayout :=
  (unmarked_acceptAny _).bind fun _ => (unmarked_consume _ _).bind fun _ =>
    (unmarked_consume _ _).bind fun _ => unmarked_bitWidth.bind fun _ =>
      (unmarked_consume _ _).bind fun _ => .pure _

section Types

variable {type : Parser Ty} (ht : ∀ e, Marks type fun t => (Node.type t).trace e)

include ht

theorem marks_typeList (close : Kind) :
    Marks (typeList type close) (List.flatMap fun t => (Node.type t).trace e) := fun s =>
  .check (fun _ => .pure (.refl s)) fun _ => (ht e).commaSeparated s

theorem marks_resultType : Marks (resultType type) fun t => (Node.type t).trace e := by
  intro s
  refine .accept (fun _ => ?_) fun _ => .emptySpan <| .nodeAt ?_
  · exact (ht e _).mono fun _ _ h => (Marked.advance s).before h
  · exact (Marked.reach s).node fun m => by simp

theorem marks_functionType : Marks (functionType type) fun t => (Node.type t).trace e := by
  intro s
  refine .here <| .advance <| (unmarked_consume _ _ _).andThen fun _ s₁ h₁ => ?_
  refine (marks_typeList e ht _ s₁).andThen fun params s₂ h₂ => ?_
  refine (unmarked_consume _ _ _).andThen fun _ s₃ h₃ => ?_
  refine (marks_resultType e ht s₃).andThen fun result s₄ h₄ => .node ?_
  have h := ((Marked.advance s).before h₁).before ((h₂.andThen h₃).append h₄)
  exact h.node fun m => by simp

theorem marks_namedType : Marks (namedType type) fun t => (Node.type t).trace e := by
  intro s
  refine .here <| (marks_qualifiedName _ s).andThen fun name s₁ h₁ => .bind <| .node ?_
  have base : Marked s ((Node.type ⟨if name.isSimple then .named name.head else .qualified name,
      s₁.spanFrom s.here, s₁.nextId⟩).trace e) s₁.stamped := by
    refine h₁.node fun m => ?_
    -- a name without dots is kept by its only segment
    cases hn : name.isSimple
    · simp
    · have : name.tail = [] := List.isEmpty_iff.1 hn
      simp [QualifiedName.segments, this]
  refine .accept (fun _ => ?_) fun _ => .pure base
  have close : ∀ (args : List Ty) s₂,
      Marked s₁.stamped.advanced (args.flatMap fun t => (Node.type t).trace e) s₂ →
      After (do
        consumeClosingAngle "Expected '>' after template arguments"
        Grammar.node (Ty.mk (.applied ⟨if name.isSimple then .named name.head
          else .qualified name, s₁.spanFrom s.here, s₁.nextId⟩ args)) s.here) s₂
        fun t s' => Marked s ((Node.type t).trace e) s' := by
    intro args s₂ h₂
    refine (unmarked_consumeClosingAngle _ _).andThen fun _ s₃ h₃ => .node ?_
    have h := (base.andThen (.advance _)).append (h₂.andThen h₃)
    exact h.node fun m => by simp
  refine .checkAny fun b => ?_
  cases b
  · exact ((ht e).commaSeparated _).andThen close
  · exact close [] _ (.refl _)

theorem marks_baseType : Marks (baseType type) fun t => (Node.type t).trace e := by
  intro s
  have builtin : ∀ name, After (builtinType name) s fun t s' =>
      Marked s ((Node.type t).trace e) s' := fun _ =>
    .here <| .advance <| .node <| (Marked.advance s).node fun m => by simp
  refine .kind ?_
  split
  case h_1 | h_2 | h_3 | h_4 | h_5 => exact builtin _
  case h_6 | h_7 | h_8 =>
    refine .here <| (unmarked_dataLayout s).andThen fun layout s₁ h₁ => .node ?_
    exact h₁.node fun m => by simp
  case h_9 => exact marks_functionType e ht s
  case h_10 => exact marks_namedType e ht s
  case h_11 =>
    refine .current <| (fails_report (by decide) _ s [.hole]).andThen fun _ s₁ h₁ => ?_
    refine .emptySpan <| .nodeAt ?_
    exact (h₁.andThen (.reach s₁)).node fun m => by simp

omit ht

theorem marks_pointerTo {s s₀ : State} {pointee : Ty} (start : Location)
    (h : Marked s₀ ((Node.type pointee).trace e) s) :
    After (pointerTo pointee start) s fun t s' => Marked s₀ ((Node.type t).trace e) s' := by
  refine (unmarked_qualifiers s).andThen fun _ s₁ h₁ => .node ?_
  exact (h.andThen h₁).node fun m => by simp

/-- A modifier goes on with the type in front of it. -/
theorem marks_modifiedType {size : Parser Expr}
    (hs : Marks size fun x => (Node.expression x).trace e) {s s₀ : State} {type : Ty}
    (start : Location) (h : Marked s₀ ((Node.type type).trace e) s) :
    After (modifiedType? size start type) s fun o s' =>
      Marked s₀ ((Node.type (o.getD type)).trace e) s' := by
  have h' := h.andThen (.advance s)
  refine .kind ?_
  split
  · exact .advance <| (marks_pointerTo e start h').andThen fun t s₁ h₁ => .pure h₁
  · refine .advance <| .bind <| .node ?_
    have once := h'.node (n := .type ⟨.pointer type {}, s.advanced.spanFrom start,
      s.advanced.nextId⟩) (e := e) fun m => by simp
    exact (marks_pointerTo e start once).andThen fun t s₁ h₁ => .pure h₁
  · have close : ∀ (size : Option Expr) s₁,
        Marked s.advanced (size.toList.flatMap fun x => (Node.expression x).trace e) s₁ →
        After (do
          consume .rightBracket "Expected ']' after array size"
          return some (← Grammar.node (Ty.mk (.array type size)) start) : Parser (Option Ty)) s₁
          fun o s' => Marked s₀ ((Node.type (o.getD type)).trace e) s' := by
      intro size s₁ h₁
      refine (unmarked_consume _ _ _).andThen fun _ s₂ h₂ => .bind <| .node <| .pure ?_
      exact (h'.append (h₁.andThen h₂)).node fun m => by simp
    refine .advance <| .check (fun _ => close none _ (.refl _)) fun _ => ?_
    exact .bind <| .map <| (hs _).mono fun x s₁ h₁ => close (some x) s₁ (by simpa using h₁)
  · exact .pure h

theorem marks_typeBody {size : Parser Expr} (hs : ∀ e, Marks size fun x => (Node.expression x).trace e)
    (ht : ∀ e, Marks type fun t => (Node.type t).trace e) :
    Marks (typeBody size type) fun t => (Node.type t).trace e := by
  intro s
  refine .here <| (marks_baseType e ht s).andThen fun base s₁ h₁ => ?_
  exact .iterate (I := fun t s' => Marked s ((Node.type t).trace e) s')
    (fun type s₂ h₂ => marks_modifiedType e (hs e) _ h₂) h₁

end Types

/-! ## Primaries -/

theorem marks_arguments (hi : inner.Marks) (close : Kind) :
    Marks (arguments inner close) (List.flatMap fun x => (Node.expression x).trace e) :=
  (hi.expression e).commaTerminated

theorem marks_literal : Marks literal fun x => (Node.expression x).trace e := fun s =>
  .here <| .advance <| .node <| (Marked.advance s).node fun m => by simp

theorem marks_groupOrCast (hi : inner.Marks) :
    Marks (groupOrCast inner) fun x => (Node.expression x).trace e := by
  intro s
  refine .here <| .unmoved ((probe_castAhead hi.skim).state_eq s) fun b => ?_
  cases b with
  | true =>
    -- the look-ahead saw a cast and left the state as it was
    refine .position <| .advance <| (hi.type e _).andThen fun target s₁ h₁ => ?_
    refine (unmarked_consume _ _ _).andThen fun _ s₂ h₂ => ?_
    refine (unmarked_noteCommitted _ _ _).andThen fun _ s₃ h₃ => ?_
    refine (hi.unary e _).andThen fun operand s₄ h₄ => .node ?_
    have h := (h₁.andThen (h₂.before h₃)).append h₄
    exact ((Marked.advance s).before h).node fun m => by simp
  | false =>
    refine .advance <| (hi.expression e _).andThen fun expr s₁ h₁ => ?_
    refine (unmarked_consume _ _ _).andThen fun _ s₂ h₂ => .node ?_
    exact ((Marked.advance s).before (h₁.andThen h₂)).node fun m => by simp

theorem marks_sizeOfExpr (hi : inner.Marks) :
    Marks (sizeOfExpr inner) fun x => (Node.expression x).trace e := by
  intro s
  refine .here <| .advance <| (unmarked_consume _ _ _).andThen fun _ s₁ h₁ => ?_
  refine (hi.type e _).andThen fun type s₂ h₂ => ?_
  refine (unmarked_consume _ _ _).andThen fun _ s₃ h₃ => .node ?_
  have h := ((Marked.advance s).before h₁).before (h₂.andThen h₃)
  exact h.node fun m => by simp

theorem marks_typeOfExpr (hi : inner.Marks) :
    Marks (typeOfExpr inner) fun x => (Node.expression x).trace e := by
  intro s
  refine .here <| .advance <| (unmarked_consume _ _ _).andThen fun _ s₁ h₁ => ?_
  refine (hi.expression e _).andThen fun expr s₂ h₂ => ?_
  refine (unmarked_consume _ _ _).andThen fun _ s₃ h₃ => .node ?_
  have h := ((Marked.advance s).before h₁).before (h₂.andThen h₃)
  exact h.node fun m => by simp

/-- An operator is written by a name or by a token that is no end. -/
theorem ne_eof_of_operator {k : Kind}
    (h : (k == .identifier || ((binaryOp? k).isSome && k != .greater && k != .shr)) = true) :
    k ≠ .eof := by
  rintro rfl
  exact absurd h (by decide)

theorem marks_opExpr (hi : inner.Marks) :
    Marks (opExpr inner) fun x => (Node.expression x).trace e := by
  intro s
  refine .here <| .advance <| (unmarked_consume _ _ _).andThen fun _ s₁ h₁ => ?_
  refine (hi.unary e _).andThen fun left s₂ h₂ => .kind ?_
  have close : ∀ operator s₃, Marked s₂ (blanks [operator]) s₃ →
      After (do
        let right ← inner.unary
        consumeClosingAngle "Expected '>' to close 'op' expression"
        Grammar.node (Expr.mk (.opCall left operator right)) s.here) s₃
        fun x s' => Marked s ((Node.expression x).trace e) s' := by
    intro operator s₃ h₃
    refine (hi.unary e _).andThen fun right s₄ h₄ => ?_
    refine (unmarked_consumeClosingAngle _ _).andThen fun _ s₅ h₅ => .node ?_
    have h := ((Marked.advance s).before h₁).before ((h₂.append h₃).append (h₄.andThen h₅))
    exact h.node fun m => by simp [or_left_comm]
  refine .ite (fun hk => ?_) fun _ => ?_
  · exact .advance <| close _ _ (.word (ne_eof_of_operator hk))
  · exact (fails_reportUnexpected _ _ _).andThen fun _ s₃ h₃ => close _ s₃ h₃

theorem marks_interpolatedValues (hi : inner.Marks) :
    Marks (interpolatedValues inner) (List.flatMap fun x => (Node.expression x).trace e) := by
  intro s
  refine (After.iterate
    (I := fun st s' => Marked s (st.1.flatMap fun x => (Node.expression x).trace e) s')
    (fun st s₁ h₁ => ?_) (.refl s)).andThen fun st s' h => .pure h
  obtain ⟨values, stalled⟩ := st
  have value : After (do
      let before ← position
      let value ← inner.expression
      consume .semicolon "Expected ';' after interpolated value"
      return some (values ++ [value], (← position) == before) : Parser _) s₁ fun o s' =>
        Marked s ((o.getD (values, stalled)).1.flatMap fun x => (Node.expression x).trace e) s' := by
    refine .position <| (hi.expression e _).andThen fun value s₂ h₂ => ?_
    refine (unmarked_consume _ _ _).andThen fun _ s₃ h₃ => .position <| .pure ?_
    simpa using h₁.append (h₂.andThen h₃)
  cases stalled with
  | true => exact .pure h₁
  | false =>
    refine .checkOrEnd fun b => ?_
    cases b
    · exact value
    · exact .pure h₁

/-- A scanner gives the text of an interpolated string at least one part; without any, the mismatch
would go unnoticed. -/
theorem Marked.parts {s : State} (hk : s.current.kind = .interpolatedString) :
    Marked s (if partsOf s.current = [] then [.fault .interpolationMismatch] else [])
      s.advanced := by
  by_cases hs : s.current.Filled
  · rw [if_neg (hs.parts hk)]
    exact .advance s
  · exact (Marked.unfilled s _ hs).andThen (.advance s)

theorem marks_interpolatedString (hi : inner.Marks) {s : State}
    (hk : s.current.kind = .interpolatedString) :
    After (interpolatedString inner) s fun x s' => Marked s ((Node.expression x).trace e) s' := by
  refine .here <| .advance ?_
  have start := Marked.parts hk
  have close : ∀ (values : List Expr) s₁,
      Marked s.advanced (values.flatMap fun x => (Node.expression x).trace e) s₁ →
      After (do
        let expr ← Grammar.node (Expr.mk (.interpolated (partsOf s.current) values)) s.here
        let slots := (partsOf s.current).length - 1
        if slots != values.length then
          reportStructural .interpolationMismatch
            ("Interpolated string has " ++ toString slots ++ " placeholder(s) but "
              ++ toString values.length ++ " value(s)") expr.span
        return expr) s₁ fun x s' => Marked s ((Node.expression x).trace e) s' := by
    intro values s₁ h₁
    refine .bind <| .node ?_
    -- from here on only the number of parts matters
    generalize partsOf s.current = parts at start ⊢
    have h := (start.append h₁).andThen (.stamp s₁)
    refine .ite (fun hne => ?_) fun heq => .pure ?_
    · have hlen : parts.length ≠ values.length + 1 := by
        intro hlen
        simp [hlen] at hne
      refine (marks_reportStructural rfl _ _ _).andThen fun _ s₂ h₂ => .pure ?_
      refine (h.append h₂).around fun m => ?_
      by_cases hp : parts = [] <;> simp [hp, hlen, or_comm]
    · refine h.around fun m => ?_
      cases parts with
      -- no part and no value would pass the test; such a string was never read
      | nil => simp [eq_comm]
      | cons part more =>
        have hlen : more.length = values.length := by simpa using heq
        simp [hlen]
  have values : After (do
      consume .colon "Expected ':' after interpolated string"
      consume .leftBrace "Expected '\x7b' before interpolated values"
      let values ← interpolatedValues inner
      consume .rightBrace "Expected '\x7d' after interpolated values"
      pure values) s.advanced fun values s' =>
        Marked s.advanced (values.flatMap fun x => (Node.expression x).trace e) s' := by
    refine (unmarked_consume _ _ _).andThen fun _ s₁ h₁ => ?_
    refine (unmarked_consume _ _ _).andThen fun _ s₂ h₂ => ?_
    refine (marks_interpolatedValues e hi _).andThen fun values s₃ h₃ => ?_
    refine (unmarked_consume _ _ _).andThen fun _ s₄ h₄ => .pure ?_
    exact (h₁.before h₂).before (h₃.andThen h₄)
  have either : ∀ b : Bool, After (if (b || 1 < (partsOf s.current).length) = true then _ else _)
      s.advanced fun x s' => Marked s ((Node.expression x).trace e) s' := fun b =>
    .ite (fun _ => values.andThen close) fun _ => close [] _ (.refl _)
  exact .check (fun _ => either true) fun _ => either false

theorem marks_arrayExpr (hi : inner.Marks) :
    Marks (arrayExpr inner) fun x => (Node.expression x).trace e := by
  intro s
  refine .here <| .advance <| (marks_arguments e hi _ _).andThen fun elements s₁ h₁ => ?_
  refine (unmarked_consume _ _ _).andThen fun _ s₂ h₂ => .node ?_
  exact ((Marked.advance s).before (h₁.andThen h₂)).node fun m => by simp

theorem marks_dictionaryEntry (hi : inner.Marks) : Marks (dictionaryEntry inner) fun entry =>
    (Node.expression entry.key).trace e ++ (Node.expression entry.value).trace e := by
  intro s
  refine (hi.expression e s).andThen fun key s₁ h₁ => ?_
  refine (unmarked_consume _ _ _).andThen fun _ s₂ h₂ => ?_
  exact (hi.expression e _).andThen fun value s₃ h₃ => .pure ((h₁.andThen h₂).append h₃)

theorem marks_braceExpr (hi : inner.Marks) :
    Marks (braceExpr inner) fun x => (Node.expression x).trace e := by
  intro s
  refine .here <| .kindAt <| .ite (fun _ => ?_) fun _ => .get <| .ite (fun _ => ?_) fun _ => ?_
  · refine .advance <| .advance <| .node ?_
    exact ((Marked.advance s).before (.advance _)).node fun m => by simp
  · refine .advance <| (marks_dictionaryEntry e hi _).andThen fun first s₁ h₁ => ?_
    have next : Marks
        (do
          if ← accept .comma then
            if ← check .rightBrace then return none else return some (← dictionaryEntry inner)
          else return none : Parser (Option Entry))
        fun o => o.toList.flatMap fun entry =>
          (Node.expression entry.key).trace e ++ (Node.expression entry.value).trace e := by
      intro s
      refine .accept (fun _ => ?_) fun _ => .pure (.refl s)
      exact .check (fun _ => .pure (.advance s)) fun _ => (marks_dictionaryEntry e hi).behindComma s
    refine (next.many s₁).andThen fun more s₂ h₂ => ?_
    refine (unmarked_consume _ _ _).andThen fun _ s₃ h₃ => .node ?_
    have h := (Marked.advance s).before (h₁.append (h₂.andThen h₃))
    exact h.node fun m => by simp
  · -- a block inside an expression starts afresh
    refine (marks_block hi _ s).andThen fun body s₁ h₁ => .node ?_
    exact h₁.node fun m => by simp

theorem marks_missingExpr : Marks missingExpr fun x => (Node.expression x).trace e := by
  intro s
  refine .current <| (fails_report (by decide) _ s [.hole]).andThen fun _ s₁ h₁ => ?_
  exact .emptySpan <| .nodeAt <| (h₁.andThen (.reach s₁)).node fun m => by simp

theorem marks_primary (hi : inner.Marks) :
    Marks (primary inner) fun x => (Node.expression x).trace e := by
  intro s
  refine .kind ?_
  split
  case h_1 | h_2 | h_3 | h_4 | h_5 | h_6 | h_7 => exact marks_literal e s
  case h_8 hk =>
    refine .here <| .advance <| .node ?_
    exact (Marked.word (by rw [hk]; decide)).node fun m => by simp
  case h_9 => exact marks_groupOrCast e hi s
  case h_10 => exact marks_sizeOfExpr e hi s
  case h_11 => exact marks_typeOfExpr e hi s
  case h_12 => exact marks_opExpr e hi s
  case h_13 hk => exact marks_interpolatedString e hi hk
  case h_14 => exact marks_arrayExpr e hi s
  case h_15 => exact marks_braceExpr e hi s
  case h_16 => exact marks_missingExpr e s

/-! ## Operators -/

theorem ne_eof_of_member {k : Kind} (h : (k == .identifier || k.isKeyword) = true) : k ≠ .eof := by
  rintro rfl
  exact absurd h (by decide)

theorem marks_chained (hi : inner.Marks) {s s₀ : State} {expr : Expr} (start : Location)
    (h : Marked s₀ ((Node.expression expr).trace e) s) :
    After (chained? inner start expr) s fun o s' =>
      Marked s₀ ((Node.expression (o.getD expr)).trace e) s' := by
  have h' := h.andThen (.advance s)
  refine .kind ?_
  split
  · refine .advance <| (marks_arguments e hi _ _).andThen fun args s₁ h₁ => ?_
    refine (unmarked_consume _ _ _).andThen fun _ s₂ h₂ => .bind <| .node <| .pure ?_
    exact (h'.append (h₁.andThen h₂)).node fun m => by simp
  · refine .advance <| .kind ?_
    have close : ∀ name s₁, Marked s.advanced (blanks [name]) s₁ →
        After (do return some (← Grammar.node (Expr.mk (.member expr name)) start) : Parser _) s₁
          fun o s' => Marked s₀ ((Node.expression (o.getD expr)).trace e) s' := by
      intro name s₁ h₁
      refine .bind <| .node <| .pure ?_
      exact (h'.append h₁).node fun m => by simp [or_comm]
    refine .ite (fun hk => .advance <| close _ _ (.word (ne_eof_of_member hk))) fun _ => ?_
    exact (fails_reportUnexpected _ _ _).andThen fun _ s₁ h₁ => close _ s₁ h₁
  · refine .advance <| (hi.expression e _).andThen fun index s₁ h₁ => ?_
    refine (unmarked_consume _ _ _).andThen fun _ s₂ h₂ => .bind <| .node <| .pure ?_
    exact (h'.append (h₁.andThen h₂)).node fun m => by simp
  · exact .pure h

theorem marks_callChain (hi : inner.Marks) :
    Marks (callChain inner) fun x => (Node.expression x).trace e := by
  intro s
  refine .here <| (marks_primary e hi s).andThen fun expr s₁ h₁ => ?_
  exact .iterate (I := fun x s' => Marked s ((Node.expression x).trace e) s')
    (fun _ _ h => marks_chained e hi _ h) h₁

theorem marks_trailing (hi : inner.Marks) :
    Marks (trailing inner) fun x => (Node.expression x).trace e := by
  intro s
  refine .here <| (marks_callChain e hi s).andThen fun expr s₁ h₁ => ?_
  refine .iterate (I := fun x s' => Marked s ((Node.expression x).trace e) s')
    (fun expr s₂ h₂ => .kind ?_) h₁
  split
  · refine .advance <| .bind <| .node <| .pure ?_
    exact (h₂.andThen (.advance _)).node fun m => by simp
  · exact .pure h₂

theorem marks_unaryBody (hi : inner.Marks) :
    Marks (unaryBody inner) fun x => (Node.expression x).trace e := by
  intro s
  refine .here <| .kind <| .ite (fun _ => ?_) fun _ => ?_
  · refine .advance <| (hi.unary e _).andThen fun operand s₁ h₁ => .bind <| .node <| .node ?_
    have once := ((Marked.advance s).before h₁).node (e := e)
      (n := .expression ⟨.unary .deref operand .before, s₁.spanFrom s.here, s₁.nextId⟩)
      fun m => by simp
    exact once.node fun m => by simp
  · split
    · refine .advance <| (hi.unary e _).andThen fun operand s₁ h₁ => .node ?_
      exact ((Marked.advance s).before h₁).node fun m => by simp
    · exact marks_trailing e hi s

theorem marks_powerBody (hi : inner.Marks) :
    Marks (powerBody inner) fun x => (Node.expression x).trace e := by
  intro s
  refine .here <| (marks_unaryBody e hi s).andThen fun base s₁ h₁ => ?_
  refine .accept (fun _ => ?_) fun _ => .pure h₁
  refine (hi.power e _).andThen fun exponent s₂ h₂ => .node ?_
  exact ((h₁.andThen (.advance _)).append h₂).node fun m => by simp

theorem marks_leftAssociative {operand : Parser Expr}
    (ho : Marks operand fun x => (Node.expression x).trace e) (operators : List Kind) :
    Marks (leftAssociative operators operand) fun x => (Node.expression x).trace e := by
  intro s
  refine .here <| (ho s).andThen fun first s₁ h₁ => ?_
  refine .iterate (I := fun x s' => Marked s ((Node.expression x).trace e) s')
    (fun left s₂ h₂ => .kind ?_) h₁
  split
  · refine .advance <| (ho _).andThen fun right s₃ h₃ => .bind <| .node <| .pure ?_
    exact ((h₂.andThen (.advance _)).append h₃).node fun m => by simp
  · exact .pure h₂

theorem marks_binaryBody (hi : inner.Marks) :
    Marks (binaryBody inner) fun x => (Node.expression x).trace e := by
  unfold binaryBody
  induction operatorLevels with
  | nil => exact marks_powerBody e hi
  | cons operators tighter ih => exact marks_leftAssociative e ih operators

theorem marks_conditionalBody (hi : inner.Marks) :
    Marks (conditionalBody inner) fun x => (Node.expression x).trace e := by
  intro s
  refine .here <| (marks_binaryBody e hi s).andThen fun condition s₁ h₁ => ?_
  refine .accept (fun _ => ?_) fun _ => .pure h₁
  refine (hi.expression e _).andThen fun thenValue s₂ h₂ => ?_
  refine (unmarked_consume _ _ _).andThen fun _ s₃ h₃ => ?_
  refine (hi.conditional e _).andThen fun elseValue s₄ h₄ => .node ?_
  have h := (h₁.andThen (.advance _)).append ((h₂.andThen h₃).append h₄)
  exact h.node fun m => by simp

theorem marks_expressionBody (hi : inner.Marks) :
    Marks (expressionBody inner) fun x => (Node.expression x).trace e := by
  intro s
  refine .here <| (marks_conditionalBody e hi s).andThen fun target s₁ h₁ => .kind ?_
  split
  · exact .pure h₁
  · rename_i op _
    have close : ∀ s₂, Marked s₁
        (if target.isAssignable then [] else [.fault .invalidAssignmentTarget]) s₂ →
        After (do
          let value ← inner.expression
          Grammar.node (Expr.mk (.assign op target value)) s.here) s₂
          fun x s' => Marked s ((Node.expression x).trace e) s' := by
      intro s₂ h₂
      refine (hi.expression e _).andThen fun value s₃ h₃ => .node ?_
      refine ((h₁.append h₂).append h₃).node fun m => ?_
      cases ha : target.isAssignable <;> simp [ha, or_left_comm]
    -- a wrong target is recorded before the value is read
    refine .advance <| .ite (fun ha => close _ ?_) fun ha => ?_
    · rw [if_pos ha]
      exact .advance s₁
    · refine (marks_reportStructural rfl _ _ _).andThen fun _ s₂ h₂ => close s₂ ?_
      rw [if_neg ha]
      exact (Marked.advance s₁).before h₂

end FluxFront.Grammar
