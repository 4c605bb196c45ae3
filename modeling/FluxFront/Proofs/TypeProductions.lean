import FluxFront.Proofs.Steadiness

/-!
# What recovery, blocks and types build

The descriptions of the productions that everything else is made of, given those of the level below.
-/

namespace FluxFront.Grammar

open Token (Kind)

variable {α : Type} {strict : Prop}

/-! ## Recovery -/

theorem reads_expectSemicolon (after : String) : Reads (expectSemicolon after) :=
  (reads_accept _).bind fun b => by
    cases b
    · refine reads_get.bind fun s => (reads_reportUnexpected _).bind fun _ => ?_
      exact (reads_checkAny _).bind fun _ => .ite reads_calm (.pure _)
    · exact .pure _

theorem reads_synchronize : Reads synchronize := by
  refine reads_position.bind fun start => Reads.bind (.iterate (fun _ => ?_) _) fun _ => ?_
  · exact reads_atBoundary.bind fun _ => .ite (.pure _) (reads_advance.bind fun _ => .pure _)
  · have last : ∀ start, Reads (do
        let stop ← position
        if start < stop then note (.skipped (stop - start) (← current))) := fun start =>
      reads_position.bind fun _ => .ite (reads_current.bind fun _ => reads_note _) (.pure _)
    exact reads_atEnd.bind fun _ => .ite (last start) (reads_calm.bind fun _ => last start)

theorem reads_recoverAfterItem (before : Nat) : Reads (recoverAfterItem before) := by
  refine reads_position.bind fun _ => reads_atEnd.bind fun _ => .ite ?_ ?_
  · refine reads_current.bind fun _ => (reads_note _).bind fun _ => ?_
    exact reads_advance.bind fun _ => reads_synchronize
  · exact reads_get.bind fun _ => .ite reads_synchronize (.pure _)

theorem Makes.bodyItems {close : Kind} {item : Parser (List α)} {nodes : α → List Node}
    (h : Makes strict item (List.flatMap nodes)) :
    Makes strict (bodyItems close item) (List.flatMap nodes) := by
  have round : Makes strict (bodyRound close item)
      fun o => o.toList.flatMap (List.flatMap nodes) := by
    intro s
    refine .checkOrEnd fun b => ?_
    cases b with
    | true => exact .pure (Builds.idle s)
    | false =>
      refine .accept (fun _ => .pure (.steps (.advance s))) fun _ => .position ?_
      refine (h s).andThen fun items s₁ h₁ => ?_
      refine (reads_recoverAfterItem _ s₁).andThen fun _ s₂ h₂ => ?_
      exact .pure (by simpa using h₁.andThen h₂)
  intro s
  refine (round.many s).andThen fun groups s₁ h₁ => ?_
  exact .pure (by simpa [← List.flatMap_id, List.flatMap_assoc] using h₁)

/-! ## Levels -/

/-- Every entry of a level builds its result. -/
structure Level.Makes (strict : Prop) (l : Level) : Prop where
  type : Grammar.Makes strict l.type fun t => [.type t]
  expression : Grammar.Makes strict l.expression fun e => [.expression e]
  conditional : Grammar.Makes strict l.conditional fun e => [.expression e]
  power : Grammar.Makes strict l.power fun e => [.expression e]
  unary : Grammar.Makes strict l.unary fun e => [.expression e]
  statement (context : Context) : Grammar.Makes strict (l.statement context) fun s => [.statement s]
  items (context : Context) :
    Grammar.Makes strict (l.items context) fun o => (o.getD []).map .statement
  members (context : Context) (what : String) :
    Grammar.Makes strict (l.members context what) fun o => (o.getD []).map .declaration
  declaration (context : Context) :
    Grammar.Makes strict (l.declaration context) fun o => (o.getD []).map .declaration
  /-- A type that is skimmed over while looking ahead can be undone. -/
  skim : Grammar.Steady False l.skim
  /-- Where a declaration is found, it gives something. -/
  declaration_ne (context : Context) (s : State) : (l.declaration context s).1 ≠ some []

/-! ## Blocks and raw assembly -/

/-- How a block came about: between braces, or as a stand-in for one that is missing. -/
inductive BuildsBlock (strict : Prop) (s : State) (b : Block) (s' : State) : Prop
  | read (h : Builds strict s (Node.ofBlock b) s') (span : b.span = s'.spanFrom s.here)
      (moved : s.position < s'.position)
  | missing (s₁ : State) (h : Steps s s₁) (hs : s' = s₁.reached)
      (statements : b.statements = []) (span : b.span = .single s₁.reached.lastEnd)
      (hk : s.current.kind ≠ .leftBrace)

theorem BuildsBlock.builds {s s' : State} {b : Block} (h : BuildsBlock strict s b s') :
    Builds strict s (Node.ofBlock b) s' := by
  cases h with
  | read h => exact h
  | missing s₁ h hs statements =>
    rw [hs, Node.ofBlock, statements]
    exact .steps (.tail h (.reach s₁))

theorem block_builds {inner : Level} (hi : inner.Makes strict) (context : Context) (s : State) :
    After (block inner context) s (BuildsBlock strict s) := by
  refine .here (.accept (fun hk => ?_) fun hk => ?_)
  · have hne : s.current.kind ≠ .eof := by rw [hk]; decide
    refine (hi.items context _).andThen fun o s₁ h₁ => ?_
    cases o with
    | none =>
      refine .spanFrom (.pure ?_)
      exact .read (h₁.behind (.advance s)) rfl (h₁.moved hne)
    | some statements =>
      refine (reads_consume _ _ _).andThen fun _ s₂ h₂ => .spanFrom (.pure ?_)
      exact .read ((h₁.andThen h₂).behind (.advance s)) rfl ((h₁.andThen h₂).moved hne)
  · refine (reads_reportUnexpected _ s).andThen fun _ s₁ h₁ => .emptySpan (.pure ?_)
    exact .missing s₁ h₁ rfl rfl rfl hk

theorem block_makes {inner : Level} (hi : inner.Makes strict) (context : Context) :
    Makes strict (block inner context) Node.ofBlock := fun s =>
  (block_builds hi context s).mono fun _ _ h => h.builds

theorem asmBody_moves (s : State) (hk : s.current.kind ≠ .eof) :
    After asmBody s fun _ s' => Steps s s' ∧ s.position < s'.position := by
  have behind : ∀ s₁, Steps s.advanced s₁ → Steps s s₁ ∧ s.position < s₁.position :=
    fun s₁ h => ⟨(Steps.advance s).trans h, h.moved hk⟩
  refine .advance <| .kind ?_
  split
  · refine .advance <| (reads_accept _ _).andThen fun _ s₁ h₁ => .pure ?_
    exact behind s₁ ((Steps.advance _).trans h₁)
  · refine .advance <| (reads_expectSemicolon _ _).andThen fun _ s₁ h₁ => .pure ?_
    exact behind s₁ ((Steps.advance _).trans h₁)
  · exact (reads_reportUnexpected _ _).andThen fun _ s₁ h₁ => .pure (behind s₁ h₁)

/-! ## Types -/

theorem reads_segments (head : String) : Reads (do
    let tail ← many do
      if (← check .dot) && (← kindAt 1) == .identifier then
        let _ ← advance
        return some (← advance).lexeme
      else return none
    return ({ head, tail } : QualifiedName)) := by
  refine (Reads.many ?_).bind fun _ => .pure _
  refine (reads_check _).bind fun _ => (reads_kindAt _).bind fun _ => .ite ?_ (.pure _)
  exact reads_advance.bind fun _ => reads_advance.bind fun _ => .pure _

theorem reads_qualifiedName (expected : String) : Reads (qualifiedName expected) :=
  (reads_consumeName _).bind reads_segments

/-- A dotted name takes at least the name at the cursor. -/
theorem qualifiedName_moves (expected : String) {s : State} (hk : s.current.kind = .identifier) :
    After (qualifiedName expected) s fun _ s' => Steps s s' ∧ s.position < s'.position := by
  have hne : s.current.kind ≠ .eof := by rw [hk]; decide
  refine .bind <| .check (fun _ => ?_) fun hk' => absurd hk hk'
  refine .advance <| .pure <| (reads_segments _ _).mono fun _ s₁ h₁ => ?_
  exact ⟨(Steps.advance s).trans h₁, h₁.moved hne⟩

theorem reads_qualifiers : Reads qualifiers := by
  refine .iterate (fun q => (reads_acceptAny _).bind fun o => ?_) _
  split <;> exact .pure _

theorem reads_bitWidth : Reads bitWidth :=
  (reads_check _).bind fun b => by
    cases b
    · exact (reads_reportUnexpected _).bind fun _ => .pure _
    · refine reads_advance.bind fun token => ?_
      split <;> exact .pure _

/-- A data layout takes at least the keyword at the cursor. -/
theorem dataLayout_moves {s : State} (hk : s.current.kind ∈ [.kwSigned, .kwUnsigned, .kwData]) :
    After dataLayout s fun _ s' => Steps s s' ∧ s.position < s'.position := by
  have hne : s.current.kind ≠ .eof := by
    intro he
    rw [he] at hk
    exact absurd hk (by decide)
  have fields : Reads (do
      consume .leftBrace "Expected '\x7b' after 'data'"
      let bitWidth ← bitWidth
      consume .rightBrace "Expected '\x7d' after bit width"
      return bitWidth) :=
    (reads_consume _ _).bind fun _ => reads_bitWidth.bind fun _ =>
      (reads_consume _ _).bind fun _ => .pure _
  have behind : ∀ s₁, Steps s.advanced s₁ → Steps s s₁ ∧ s.position < s₁.position :=
    fun s₁ h => ⟨(Steps.advance s).trans h, h.moved hne⟩
  refine .acceptAny (fun _ => ?_) fun hsign => ?_
  · refine (reads_consume _ _ _).andThen fun _ s₁ h₁ => ?_
    exact (fields s₁).mono fun _ s₂ h₂ => behind s₂ (h₁.trans h₂)
  · have hdata : s.current.kind = .kwData := by
      simp only [List.mem_cons, List.not_mem_nil, or_false] at hk hsign
      rcases hk with h | h | h
      · exact absurd (.inl h) hsign
      · exact absurd (.inr h) hsign
      · exact h
    refine .bind <| .check (fun _ => ?_) fun h => absurd hdata h
    exact (fields _).mono fun _ s₂ h₂ => behind s₂ h₂

theorem builtinType_makes (builtin : Builtin) {s : State} (hk : s.current.kind ≠ .eof) :
    After (builtinType builtin) s fun t s' => Builds strict s [.type t] s' :=
  .here <| .advance <| .node <|
    .leaf _ (.advance s) rfl rfl rfl ((Steps.refl _).moved hk)

theorem typeList_makes {type : Parser Ty} (ht : Makes strict type fun t => [.type t])
    (close : Kind) : Makes strict (typeList type close) (List.map .type) := fun s =>
  .check (fun _ => .pure (Builds.idle s)) fun _ => ht.commaSeparated.singles s

theorem resultType_makes {type : Parser Ty} (ht : Makes strict type fun t => [.type t]) :
    Makes strict (resultType type) fun t => [.type t] := fun s =>
  .accept (fun _ => (ht _).mono fun _ _ h => h.behind (.advance s)) fun _ =>
    .emptySpan <| .nodeAt <| .missing _ rfl rfl rfl

theorem functionType_makes {type : Parser Ty} (ht : Makes strict type fun t => [.type t]) :
    Makes strict (functionType type) fun t => [.type t] := by
  intro s
  refine .here <| .advance ?_
  refine (reads_consume _ _ _).andThen fun _ s₁ h₁ => ?_
  refine (typeList_makes ht _ s₁).andThen fun params s₂ h₂ => ?_
  refine (reads_consume _ _ _).andThen fun _ s₃ h₃ => ?_
  refine (resultType_makes ht s₃).andThen fun result s₄ h₄ => .node ?_
  have h := ((h₂.andThen h₃).append h₄).behind ((Steps.advance s).trans h₁)
  exact .around _ h rfl rfl (by simp [Node.children, Node.ofTy])

theorem namedType_makes {type : Parser Ty} (ht : Makes strict type fun t => [.type t]) {s : State}
    (hk : s.current.kind = .identifier) :
    After (namedType type) s fun t s' => Builds strict s [.type t] s' := by
  refine .here <| (qualifiedName_moves _ hk).andThen fun name s₁ h₁ => .bind <| .node ?_
  have base : Builds strict s [.type ⟨if name.isSimple then .named name.head else .qualified name,
      s₁.spanFrom s.here, s₁.nextId⟩] s₁.stamped := by
    refine .leaf _ h₁.1 ?_ rfl rfl h₁.2
    show Node.ofTy (if _ then _ else _) = []
    split <;> rfl
  refine .accept (fun _ => ?_) fun _ => .pure base
  have close : ∀ args s₂, Builds strict s₁.stamped.advanced (args.map .type) s₂ →
      After (do
        consumeClosingAngle "Expected '>' after template arguments"
        node (Ty.mk (.applied ⟨if name.isSimple then .named name.head else .qualified name,
          s₁.spanFrom s.here, s₁.nextId⟩ args)) s.here) s₂
        fun t s' => Builds strict s [.type t] s' := by
    intro args s₂ h₂
    refine (reads_consumeClosingAngle _ _).andThen fun _ s₃ h₃ => .node ?_
    exact .around _ ((base.andThen (.advance _)).append (h₂.andThen h₃)) rfl rfl
      (by simp [Node.children, Node.ofTy])
  refine .checkAny fun b => ?_
  cases b
  · exact (ht.commaSeparated.singles _).andThen close
  · exact close [] _ (.idle _)

theorem baseType_makes {type : Parser Ty} (ht : Makes strict type fun t => [.type t]) :
    Makes strict (baseType type) fun t => [.type t] := by
  intro s
  refine .kind ?_
  split
  case h_1 hk | h_2 hk | h_3 hk | h_4 hk | h_5 hk =>
    exact builtinType_makes _ (by rw [hk]; decide)
  case h_6 hk | h_7 hk | h_8 hk =>
    refine .here <| (dataLayout_moves (by rw [hk]; decide)).andThen fun layout s₁ h₁ => .node ?_
    exact .leaf _ h₁.1 rfl rfl rfl h₁.2
  case h_9 => exact functionType_makes ht s
  case h_10 hk => exact namedType_makes ht hk
  case h_11 =>
    refine .current <| (reads_report _ _ _ s).andThen fun _ s₁ h₁ => ?_
    exact .emptySpan <| .nodeAt <| .behind h₁ <| .missing _ rfl rfl rfl

theorem pointerTo_makes {s s₀ : State} {pointee : Ty} (h : Builds strict s₀ [.type pointee] s) :
    After (pointerTo pointee s₀.here) s fun t s' => Builds strict s₀ [.type t] s' := by
  refine (reads_qualifiers s).andThen fun _ s₁ h₁ => .node ?_
  exact .around _ (h.andThen h₁) rfl rfl (by simp [Node.children, Node.ofTy])

/-- A modifier goes on with the type in front of it. -/
theorem modifiedType_makes {size : Parser Expr} (hs : Makes strict size fun e => [.expression e])
    {s s₀ : State} {type : Ty} (h : Builds strict s₀ [.type type] s) :
    After (modifiedType? size s₀.here type) s fun o s' =>
      Builds strict s₀ [.type (o.getD type)] s' := by
  refine .kind ?_
  split
  · refine .advance <| (pointerTo_makes (h.andThen (.advance s))).andThen fun t s₁ h₁ => ?_
    exact .pure h₁
  · refine .advance <| .bind <| .node ?_
    refine (pointerTo_makes (.around _ (h.andThen (.advance s)) rfl rfl ?_)).andThen
      fun t s₁ h₁ => .pure h₁
    simp [Node.children, Node.ofTy]
  · have close : ∀ (size : Option Expr) s₁,
        Builds strict s.advanced (size.toList.map .expression) s₁ →
        After (do
          consume .rightBracket "Expected ']' after array size"
          return some (← node (Ty.mk (.array type size)) s₀.here) : Parser (Option Ty)) s₁
          fun o s' => Builds strict s₀ [.type (o.getD type)] s' := by
      intro size s₁ h₁
      refine (reads_consume _ _ _).andThen fun _ s₂ h₂ => .bind <| .node <| .pure ?_
      exact .around _ ((h.andThen (.advance s)).append (h₁.andThen h₂)) rfl rfl
        (by simp [Node.children, Node.ofTy])
    refine .advance <| .check (fun _ => close none _ (.idle _)) fun _ => ?_
    exact .bind <| .map <| (hs _).mono fun e s₁ h₁ => close (some e) s₁ h₁
  · exact .pure h

theorem typeBody_makes {size : Parser Expr} {type : Parser Ty}
    (hs : Makes strict size fun e => [.expression e]) (ht : Makes strict type fun t => [.type t]) :
    Makes strict (typeBody size type) fun t => [.type t] := by
  intro s
  refine .here <| (baseType_makes ht s).andThen fun base s₁ h₁ => ?_
  exact .iterate (fun type s₂ h₂ => modifiedType_makes hs h₂) h₁

end FluxFront.Grammar
