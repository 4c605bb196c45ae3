import FluxFront.Proofs.Brackets
import FluxFront.Proofs.Flattening
import FluxFront.Proofs.SteadyProductions

/-!
# What types and expressions are read from

A clean run of a production for types or expressions reads a tidy text, and what is built says which.

* **Specification**: `ExprText e ts s` says of an expression, the tokens it was read from, and the state
  behind it all that later proofs need.
* **Ternaries**: a colon may stand behind an interpolated string in two roles.  The parser always takes it
  for that of the string, so behind a string that is read to its end there is none (`ExprText.rested`).
-/

set_option synthInstance.maxSize 1000

namespace FluxFront.Grammar

open Token (Kind)

/-! ## Types -/

variable {b : Brackets} {s : State}

theorem runs_segment : Runs segment? s fun o ts _ => o.elim (ts = []) fun _ => Tidy b ts := by
  refine .check (fun hk => .kindAt (.ite (fun hn => ?_) fun _ => .pure rfl)) fun _ =>
    .kindAt (.pure rfl)
  have hdot : s.current.kind ≠ .eof := by rw [hk]; decide
  have hname : s.advanced.current.kind = .identifier := by
    rw [State.kind_advanced hdot]
    simpa using hn
  refine .advance hdot <| .advance (by rw [hname]; decide) <| .pure ?_
  exact .cons (by rw [hk]; rfl) (.single (by rw [hname]; rfl))

theorem runs_qualifiedName {expected : String} :
    Runs (qualifiedName expected) s fun _ ts _ => Tidy b ts := by
  refine .consumeName fun hk => ?_
  refine .andThen (.many (fun _ _ _ h => h) (I := fun _ ts _ => Tidy b ts) (a := [])
    (t := [s.current]) (fun _ ts s hts => ?_) (.single (by rw [hk]; rfl))) fun _ us _ hus =>
      .pure (by simpa using hus)
  refine (runs_segment (b := b)).mono fun o us _ ho => ?_
  cases o with
  | none => simpa [show us = [] from ho] using hts
  | some _ => exact hts.append ho

instance (q : Qualifiers) : Moving (qualifier? q) := by
  refine .andThen inferInstance fun o => ?_
  split <;> infer_instance

theorem runs_qualifiers : Runs qualifiers s fun _ ts _ => Slack b ts := by
  refine .iterate (I := fun _ ts _ => Slack b ts) (t := []) (fun q ts s hts => ?_) .nil
  have quiet : ∀ k ∈ [Kind.kwConst, .kwVolatile], isQuiet k = true := by decide
  refine .acceptAny (m := fun o => by split <;> infer_instance) (by decide) (fun hk => ?_)
    fun _ => .pure (by simpa using hts)
  have hnext : Slack b (ts ++ [s.current]) := hts.append (Tidy.single (quiet _ hk)).slack
  split <;> exact .pure hnext

theorem runs_dataLayout : Runs dataLayout s fun _ ts _ => Tidy b ts := by
  have width : ∀ s, Runs bitWidth s fun _ ts _ => Nested b ts := by
    intro s
    refine .check (fun hk => ?_) fun _ => .reportUnexpected
    refine .advance (m := fun token => by split <;> infer_instance) (by rw [hk]; decide) ?_
    have hts : Nested b [s.current] := .single (by rw [hk]; rfl)
    split <;> exact .pure hts
  have layout : ∀ sign s, Runs (do
      consume .kwData "Expected 'data'"
      consume .leftBrace "Expected '\x7b' after 'data'"
      let bitWidth ← bitWidth
      consume .rightBrace "Expected '\x7d' after bit width"
      return { bitWidth, isSigned := sign == some Kind.kwSigned : DataLayout }) s
      fun _ ts _ => Tidy b ts := by
    intro sign s
    refine .consume (by decide) fun hdata => .consume (by decide) fun hl => ?_
    refine .andThen (width _) fun _ ts s₁ hts => .consume (by decide) fun hr => .pure ?_
    exact .cons (by rw [hdata]; rfl) (.group (by rw [hl, hr]; rfl) hts)
  refine .acceptAny (by decide) (fun hk => ?_) fun _ => layout _ _
  have quiet : ∀ k ∈ [Kind.kwSigned, .kwUnsigned], isQuiet k = true := by decide
  exact (layout _ _).mono fun _ _ _ hts => .cons (quiet _ hk) hts

theorem runs_builtinType {builtin : Builtin} (hk : isQuiet s.current.kind = true) :
    Runs (builtinType builtin) s fun _ ts _ => Tidy b ts := by
  exact .here <| .advance (ne_eof_of_isQuiet hk) <| .node (.single hk)

/-- In front of its closing bracket the size of an array was read from a nested text. -/
def ReadsSize (b : Brackets) (size : Parser Expr) : Prop :=
  ∀ s, Runs size s fun _ ts s' => s'.current.kind = .rightBracket → Nested b ts

section Types

variable {type : Parser Ty} [Moving type] (h : ∀ s, Runs type s fun _ ts _ => Tidy b ts)
include h

theorem runs_typeList {close : Kind} : Runs (typeList type close) s fun _ ts _ => Slack b ts := by
  refine .check (fun _ => .pure .nil) fun _ => ?_
  exact (Runs.commaSeparated h).mono fun _ _ _ hts => (hts.tidy fun ha => ha).slack

theorem runs_resultType : Runs (resultType type) s fun _ ts _ => Slack b ts := by
  refine .accept (by decide) (fun hk => ?_) fun _ => .emptySpan (.nodeAt .nil)
  exact (h _).mono fun _ _ _ hts => (Tidy.cons (by rw [hk]; rfl) hts).slack

theorem runs_functionType (hk : s.current.kind = .kwDef) :
    Runs (functionType type) s fun _ ts _ => Tidy b ts := by
  refine .here <| .advance (by rw [hk]; decide) <| .consume (by decide) fun hl => ?_
  refine .andThen (runs_typeList h) fun _ ps s₁ hps => .consume (by decide) fun hr => ?_
  refine .andThen (runs_resultType h) fun _ rs s₂ hrs => .node ?_
  simpa using Tidy.cons (by rw [hk]; rfl) (.groupThen (by rw [hl, hr]; rfl) hps.nested hrs)

theorem runs_namedType : Runs (namedType type) s fun _ ts _ => Tidy b ts := by
  refine .here <| .andThen (runs_qualifiedName (b := b)) fun name ts s₁ hts => .nodeThen ?_
  refine .accept (by decide) (fun hk => ?_) fun _ => .pure (by simpa using hts)
  have args : ∀ s, Runs (do
      if ← checkAny [.greater, .shr] then pure [] else commaSeparated type) s fun _ us _ => Slack b us :=
    fun s => .checkAny fun _ _ => .ite (fun _ => .pure .nil) fun _ =>
      (Runs.commaSeparated h).mono fun _ _ _ hus => (hus.tidy fun ha => ha).slack
  refine .choice <| .andThen (args _) fun _ us s₂ hus => .consumeClosingAngle fun t ht => .node ?_
  have hclose : Slack b [t] := (Tidy.single (by rw [ht]; rfl)).slack
  simpa using hts.append ((hus.append hclose).tidy_cons (by rw [hk]; rfl))

theorem runs_baseType : Runs (baseType type) s fun _ ts _ => Tidy b ts := by
  refine .kind ?_
  split
  case h_1 hk | h_2 hk | h_3 hk | h_4 hk | h_5 hk => exact runs_builtinType (by rw [hk]; rfl)
  case h_6 | h_7 | h_8 => exact .here <| .andThen (runs_dataLayout (b := b)) fun _ ts _ hts => .node (by simpa)
  case h_9 hk => exact runs_functionType h hk
  case h_10 => exact runs_namedType h
  case h_11 => exact .current .report

omit h in
theorem runs_pointerTo {pointee : Ty} {start : Location} :
    Runs (pointerTo pointee start) s fun _ ts _ => Slack b ts :=
  .andThen (runs_qualifiers (b := b)) fun _ ts _ hts => .node (by simpa)

omit [Moving type] h in
theorem runs_modifiedType {size : Parser Expr} [Moving size] (hsize : ReadsSize b size) {start : Location}
    {t : Ty} :
    Runs (modifiedType? size start t) s fun _ ts _ => Slack b ts := by
  refine .kind ?_
  split
  case h_1 hk =>
    refine .advance (by rw [hk]; decide) <| .andThen (runs_pointerTo (b := b)) fun _ ts _ hts => .pure ?_
    simpa using (hts.tidy_cons (by rw [hk]; rfl)).slack
  case h_2 hk =>
    refine .advance (by rw [hk]; decide) <| .nodeThen ?_
    refine .andThen (runs_pointerTo (b := b)) fun _ ts _ hts => .pure ?_
    simpa using (hts.tidy_cons (by rw [hk]; rfl)).slack
  case h_3 hk =>
    have inside : ∀ s, Runs (do if ← check .rightBracket then pure none else some <$> size) s
        fun _ ts s' => s'.current.kind = .rightBracket → Nested b ts :=
      fun s => .check (fun _ => .pure fun _ => .nil) fun _ => .map (hsize s)
    refine .advance (by rw [hk]; decide) <| .choice <| .andThen (inside _) fun _ ts s₁ hts => ?_
    refine .consume (by decide) fun hr => .nodeThen (.pure ?_)
    simpa using (Tidy.group (by rw [hk, hr]; rfl) (hts hr)).slack
  case h_4 => exact .pure .nil

/-- A type is read from a tidy text if its array sizes are read from nested ones. -/
theorem runs_typeBody {size : Parser Expr} [Moving size] (hsize : ReadsSize b size) :
    Runs (typeBody size type) s fun _ ts _ => Tidy b ts := by
  refine .here <| .andThen (runs_baseType h) fun base ts s₁ hts => ?_
  refine .iterate (I := fun _ ts _ => Tidy b ts) (fun _ ts s hts => ?_) hts
  exact (runs_modifiedType hsize).mono fun _ _ _ hus => hts.behind hus

end Types

/-! ## Skipped sizes -/

/-- A skip opens a group, closes one, or stops. -/
theorem runs_skipInGroup {depth : Nat} {ts : List Token} (h : Open depth ts) :
    Runs (skipInGroup depth) s fun o us s' =>
      o.elim (s'.current.kind = .rightBracket → Nested .counted (ts ++ us)) fun next =>
        Open next (ts ++ us) ∧ s'.rest.length < s.rest.length := by
  have read : ∀ next, s.current.kind ≠ .eof → Open next (ts ++ [s.current]) →
      Runs (do let _ ← advance; return some next) s fun o us s' =>
        o.elim (s'.current.kind = .rightBracket → Nested .counted (ts ++ us)) fun next =>
          Open next (ts ++ us) ∧ s'.rest.length < s.rest.length := by
    intro next hk hopen
    obtain ⟨t, rest, hrest, -, hadv⟩ := State.advanced_cons hk
    refine .advance hk (.pure ⟨hopen, ?_⟩)
    rw [hadv, hrest]
    exact Nat.lt_succ_self _
  refine .kind ?_
  split
  case h_1 hk => exact .pure fun hr => absurd (hk.symm.trans hr) (by decide)
  case h_2 hk | h_3 hk | h_4 hk =>
    exact read _ (by rw [hk]; decide) (.more h (by rw [hk]; decide) .nil)
  case h_5 hk | h_6 hk | h_7 hk =>
    cases h with
    | none h => exact .pure fun _ => by simpa using h
    | more h ho hu =>
      exact read _ (by rw [hk]; decide) (Open.close (.more h ho hu) (by rw [hk]; decide))
  case h_8 hk hp hl hb hp' hl' hb' =>
    refine read _ hk (h.append (.single ?_))
    simp only [isInner, openings, closings, Bool.and_eq_true, Bool.not_eq_true', List.contains_eq_mem,
      List.mem_cons, List.not_mem_nil, or_false, decide_eq_false_iff_not, not_or, bne_iff_ne]
    exact ⟨⟨⟨hp, hl, hb⟩, hp', hl', hb'⟩, hk⟩

/-- A skip up to a bracket that closes the array passes a nested text. -/
theorem runs_skip {fuel depth : Nat} {ts : List Token} (hfuel : s.rest.length ≤ fuel) (h : Open depth ts) :
    Runs (iterateUpTo fuel skipInGroup depth) s fun _ us s' =>
      s'.current.kind = .rightBracket → Nested .counted (ts ++ us) := by
  induction fuel generalizing depth ts s with
  | zero =>
    -- there is nothing ahead any more
    have hrest : s.rest = [] := List.eq_nil_of_length_eq_zero (Nat.le_zero.1 hfuel)
    refine .pure fun hk => ?_
    unfold State.current at hk
    rw [hrest] at hk
    exact absurd hk (by decide)
  | succ fuel ih =>
    have hnext : ∀ next, Moving (iterateUpTo fuel skipInGroup next) := fun next => Twin.iterateUpTo fuel next
    refine .andThen (m := fun o => by cases o <;> infer_instance) (runs_skipInGroup h) fun o us s₁ h₁ => ?_
    cases o with
    | none => exact .pure (by simpa using h₁)
    | some next =>
      obtain ⟨hopen, hlt⟩ := h₁
      exact (ih (by omega) hopen).mono fun _ _ _ h => by simpa using h

theorem readsSize_skippedSize : ReadsSize .counted skippedSize := by
  intro s
  have skip : ∀ s, Runs skipGroup s fun _ ts s' => s'.current.kind = .rightBracket → Nested .counted ts := by
    intro s
    have hloop : Moving (iterateUpTo s.rest.length skipInGroup 0) := Twin.iterateUpTo _ _
    exact .get <| .andThen (runs_skip (Nat.le_refl _) (.none .nil)) fun _ ts _ hts => .pure (by simpa using hts)
  refine .here <| .andThen (skip _) fun _ ts _ hts => .node ?_
  rw [List.append_nil]
  exact hts

/-! ## What is known of a text -/

/-- The kinds of tokens that an expression may start with, as `dictionaryAhead` judges them. -/
def startsExpression (k : Kind) : Bool := !k.isKeyword || expressionKeywords.contains k

/-- What is known of an expression, the tokens it was read from, and the state behind it. -/
structure ExprText (b : Brackets) (e : Expr) (ts : List Token) (s : State) : Prop where
  tidy : Tidy b ts
  starts : ∀ t ∈ ts.head?, startsExpression t.kind = true
  /-- The colon behind an interpolated string would have been read. -/
  rested : endKind ts = .interpolatedString → s.current.kind ≠ .colon
  spells : Spells e ts

theorem head?_append_of_ne_nil {ts : List Token} (h : ts ≠ []) (us : List Token) :
    (ts ++ us).head? = ts.head? := by
  rw [List.head?_append, Option.or_of_isSome]
  rwa [List.isSome_head?]

namespace ExprText

variable {e e' : Expr} {ts us : List Token} {s s' : State}

theorem of_eq (h : ExprText b e ts s) (hts : us = ts) : ExprText b e us s := hts ▸ h

/-- Of the state behind an expression only the cursor matters. -/
theorem at_cursor (h : ExprText b e ts s) (hs : s'.current = s.current) : ExprText b e ts s' where
  tidy := h.tidy
  starts := h.starts
  rested := by rw [hs]; exact h.rested
  spells := h.spells

theorem stamped (h : ExprText b e ts s) : ExprText b e ts s.stamped := h.at_cursor rfl

/-- An expression that starts with a known token and does not end with an interpolated string. -/
theorem closed {t : Token} (h : Tidy b (t :: ts)) (ht : startsExpression t.kind = true)
    (hend : endKind (t :: ts) ≠ .interpolatedString) (hs : Spells e (t :: ts)) : ExprText b e (t :: ts) s where
  tidy := h
  starts := by simpa using ht
  rested he := absurd he hend
  spells := hs

/-- An expression between brackets. -/
theorem bracketed {o c : Token} (hoc : closing? o.kind = some c.kind) (h : Nested b ts)
    (hs : Spells e (o :: (ts ++ [c]))) : ExprText b e (o :: (ts ++ [c])) s := by
  have hkinds : startsExpression o.kind = true ∧ c.kind ≠ .interpolatedString := by
    rcases closing?_cases hoc with ⟨ho, hc⟩ | ⟨ho, hc⟩ | ⟨ho, hc⟩ <;> rw [ho, hc] <;> decide
  refine .closed (.group hoc h) hkinds.1 ?_ hs
  rw [← List.cons_append, endKind_concat]
  exact hkinds.2

/-- Something tidy in front of an expression. -/
theorem behind (hts : Tidy b ts) (ht : ∀ t ∈ ts.head?, startsExpression t.kind = true)
    (h : ExprText b e us s) (hs : Spells e' (ts ++ us)) : ExprText b e' (ts ++ us) s.stamped where
  tidy := hts.append h.tidy
  starts := by rwa [head?_append_of_ne_nil hts.ne_nil]
  rested := by
    rw [endKind_append _ h.tidy.ne_nil]
    exact h.rested
  spells := hs

/-- Something tidy behind an expression. -/
theorem before (h : ExprText b e ts s) (hus : Tidy b us) (hend : endKind us ≠ .interpolatedString)
    (hs : Spells e' (ts ++ us)) : ExprText b e' (ts ++ us) s' where
  tidy := h.tidy.append hus
  starts := by
    rw [head?_append_of_ne_nil h.tidy.ne_nil]
    exact h.starts
  rested := by
    rw [endKind_append _ hus.ne_nil]
    exact fun he => absurd he hend
  spells := hs

/-- Two expressions with a token between them. -/
theorem joined {r : Expr} {t : Token} {s₁ : State} (hl : ExprText b e ts s₁) (ht : isQuiet t.kind = true)
    (hr : ExprText b r us s) (hs : Spells e' (ts ++ t :: us)) : ExprText b e' (ts ++ t :: us) s.stamped := by
  have hlist : ts ++ t :: us = (ts ++ [t]) ++ us := by simp
  rw [hlist] at hs ⊢
  refine behind (hl.tidy.append (.single ht)) ?_ hr hs
  rw [head?_append_of_ne_nil hl.tidy.ne_nil]
  exact hl.starts

/-- An operator in front of an expression. -/
theorem headed {t : Token} (ht : isQuiet t.kind = true) (hstart : startsExpression t.kind = true)
    (h : ExprText b e us s) (hs : Spells e' (t :: us)) : ExprText b e' (t :: us) s.stamped :=
  behind (.single ht) (by simpa using hstart) h hs

/-- The colon of a conditional expression is not that of an interpolated string in front of it. -/
theorem conditional {l r : Expr} {vs : List Token} {question : Token} {s₁ s₂ : State} {span : Span}
    {id : NodeId} (hc : ExprText b e ts s₁) (hquestion : question.kind = .question)
    (hl : ExprText b l us s₂) (hcolon : s₂.current.kind = .colon) (hr : ExprText b r vs s) :
    ExprText b ⟨.conditional e l r, span, id⟩ (ts ++ question :: (us ++ s₂.current :: vs)) s.stamped where
  tidy := .conditional hc.tidy hquestion hl.tidy (fun hend => hl.rested hend hcolon) hcolon hr.tidy
  starts := by
    rw [head?_append_of_ne_nil hc.tidy.ne_nil]
    exact hc.starts
  rested := by
    rw [endKind_of_eq_append (ts ++ question :: (us ++ [s₂.current])) hr.tidy.ne_nil (by simp)]
    exact hr.rested
  spells := .conditional hc.spells hquestion hl.spells hcolon hr.spells

end ExprText

/-- What is known of a block: the braces and what is between them. -/
def BlockText (b : Brackets) (ts : List Token) : Prop :=
  ∃ o us c, ts = o :: (us ++ [c]) ∧ o.kind = .leftBrace ∧ c.kind = .rightBrace ∧ Placid b us

theorem BlockText.tidy {ts : List Token} (h : BlockText b ts) : Tidy b ts := by
  obtain ⟨o, us, c, rfl, ho, hc, hus⟩ := h
  exact .group (by rw [ho, hc]; rfl) hus.nested

/-- What is known of a statement that was read. -/
structure StmtText (b : Brackets) (ts : List Token) : Prop where
  ne_nil : ts ≠ []
  placid : Placid b ts

/-- Whether a declaration is that of a variable. -/
def isVariable : Decl → Bool
  | ⟨.variable _, _, _⟩ => true
  | _ => false

/-- What is known of declarations, if there are any: in a block, where only variables may be declared,
they are read as a statement is. -/
def DeclsText (b : Brackets) (decls : Option (List Decl)) (ts : List Token) : Prop :=
  decls.elim (ts = []) fun ds => ds ≠ [] ∧ ((∀ d ∈ ds, isVariable d = true) → StmtText b ts)

/-- What is known of the texts that the entries of a level read. -/
structure Level.Texts (b : Brackets) (l : Level) : Prop where
  type (s : State) : Runs l.type s fun _ ts _ => Tidy b ts
  expression (s : State) : Runs l.expression s (ExprText b)
  conditional (s : State) : Runs l.conditional s (ExprText b)
  power (s : State) : Runs l.power s (ExprText b)
  unary (s : State) : Runs l.unary s (ExprText b)
  statement (context : Context) (s : State) : Runs (l.statement context) s fun _ ts _ => StmtText b ts
  items (context : Context) (s : State) :
    Runs (l.items context) s fun o ts _ => o.isSome = true ∧ Placid b ts
  declaration (context : Context) (s : State) :
    Runs (l.declaration context) s fun decls ts _ => DeclsText b decls ts

/-! ## Primaries -/

theorem isQuiet_keyword {k : Kind} (h : k.isKeyword = true) : isQuiet k = true := by
  have table : ∀ k ∈ Kind.keywords, isQuiet k = true := by decide
  exact table k (Token.Kind.isKeyword_iff.1 h)

/-- The name of a user-defined operator is a single token without brackets. -/
theorem isQuiet_operator {k : Kind} (h : (k == .identifier ||
    ((binaryOp? k).isSome && k != .greater && k != .shr)) = true) : isQuiet k = true := by
  rw [Bool.or_eq_true, beq_iff_eq, Bool.and_eq_true, Bool.and_eq_true] at h
  rcases h with rfl | ⟨⟨h, -⟩, -⟩
  · rfl
  · obtain ⟨op, hop⟩ := Option.isSome_iff_exists.1 h
    rw [binaryOp?_kind hop]
    cases op <;> rfl

section Expressions

variable {inner : Level} [TwinLevel recording inner inner]

theorem runs_literal (hk : s.current.kind ∈ plainLiterals) : Runs literal s (ExprText b) := by
  have known : ∀ k ∈ plainLiterals, isQuiet k = true ∧ startsExpression k = true ∧
      k ≠ .interpolatedString := by decide
  obtain ⟨hquiet, hstart, hend⟩ := known _ hk
  exact .here <| .advance (ne_eof_of_isQuiet hquiet) <| .node <|
    .closed (.single hquiet) hstart hend (.literal hk)

variable (ht : inner.Texts b)
include ht

theorem runs_arguments {close : Kind} :
    Runs (arguments inner close) s fun es ts _ => Slack b ts ∧ SpellsEach es ts := by
  refine (Runs.commaTerminated ht.expression).mono fun es ts s' h => ⟨?_, .ended ExprText.spells h⟩
  rcases h with ⟨-, rfl⟩ | h
  · exact .nil
  · exact (h.tidy ExprText.tidy).slack

theorem runs_groupOrCast (hi : inner.Steady) (hk : s.current.kind = .leftParen) :
    Runs (groupOrCast inner) s (ExprText b) := by
  have hne : s.current.kind ≠ .eof := by rw [hk]; decide
  have hstart : startsExpression s.current.kind = true := by rw [hk]; rfl
  refine .here <| .unmoved ((probe_castAhead hi.skim).state_eq s) fun b => ?_
  cases b with
  | true =>
    refine .position <| .advance hne <| .andThen (ht.type _) fun target ts s₁ hts => ?_
    refine .consume (by decide) fun hr => .noteCommitted fun _ => ?_
    refine .andThen (ht.unary _) fun operand us s₂ hus => .node ?_
    have hcast : Tidy b (s.current :: (ts ++ [s₁.current])) := .group (by rw [hk, hr]; rfl) hts.nested
    exact .of_eq (.behind hcast (by simpa using hstart) hus fun _ hf => nomatch hf) (by simp)
  | false =>
    refine .advance hne <| .andThen (ht.expression _) fun e ts s₁ hts => ?_
    refine .consume (by decide) fun hr => .node ?_
    exact .bracketed (by rw [hk, hr]; rfl) hts.tidy.nested (.group hk hts.spells hr)

theorem runs_sizeOfExpr (hk : s.current.kind = .kwSizeOf) : Runs (sizeOfExpr inner) s (ExprText b) := by
  refine .here <| .advance (by rw [hk]; decide) <| .consume (by decide) fun hl => ?_
  refine .andThen (ht.type _) fun type ts s₁ hts => .consume (by decide) fun hr => .node ?_
  have hgroup : Tidy b (s.advanced.current :: (ts ++ [s₁.current])) := .group (by rw [hl, hr]; rfl) hts.nested
  refine .closed (.cons (by rw [hk]; rfl) hgroup) (by rw [hk]; rfl) ?_ fun _ hf => nomatch hf
  rw [endKind_cons _ hgroup.ne_nil, ← List.cons_append, endKind_concat, hr]
  decide

theorem runs_typeOfExpr (hk : s.current.kind = .kwTypeOf) : Runs (typeOfExpr inner) s (ExprText b) := by
  refine .here <| .advance (by rw [hk]; decide) <| .consume (by decide) fun hl => ?_
  refine .andThen (ht.expression _) fun e ts s₁ hts => .consume (by decide) fun hr => .node ?_
  have hgroup : Tidy b (s.advanced.current :: (ts ++ [s₁.current])) :=
    .group (by rw [hl, hr]; rfl) hts.tidy.nested
  refine .closed (.cons (by rw [hk]; rfl) hgroup) (by rw [hk]; rfl) ?_ (.typeOf hk hl hts.spells hr)
  rw [endKind_cons _ hgroup.ne_nil, ← List.cons_append, endKind_concat, hr]
  decide

theorem runs_opExpr (hk : s.current.kind = .kwOp) : Runs (opExpr inner) s (ExprText b) := by
  refine .here <| .advance (by rw [hk]; decide) <| .consume (by decide) fun hless => ?_
  refine .andThen (ht.unary _) fun left ts s₁ hts => .kind ?_
  refine .ite (fun hop => ?_) fun _ => .reportUnexpected
  have hquiet := isQuiet_operator hop
  refine .advance (ne_eof_of_isQuiet hquiet) <| .pureThen ?_
  refine .andThen (ht.unary _) fun right us s₂ hus => .consumeClosingAngle fun t htk => .node ?_
  have hclose : Tidy b [t] := .single (by rw [htk]; rfl)
  have hright : Tidy b (s₁.current :: (us ++ [t])) := .cons hquiet (hus.tidy.append hclose)
  have hleft : Tidy b (s.advanced.current :: (ts ++ s₁.current :: (us ++ [t]))) :=
    .cons (by rw [hless]; rfl) (hts.tidy.append hright)
  refine .closed (.cons (by rw [hk]; rfl) hleft) (by rw [hk]; rfl) ?_ fun _ hf => nomatch hf
  rw [endKind_cons _ hleft.ne_nil, endKind_cons _ (by simp), endKind_append _ hright.ne_nil,
    ← List.cons_append, endKind_concat, htk]
  decide

theorem runs_interpolatedRound (state : List Expr × Bool) : Runs (do
    let (values, stalled) := state
    if stalled || (← checkOrEnd .rightBrace) then return none
    else
      let before ← position
      let value ← inner.expression
      consume .semicolon "Expected ';' after interpolated value"
      return some (values ++ [value], (← position) == before) : Parser (Option (List Expr × Bool))) s
    fun _ ts _ => Nested b ts := by
  refine .checkOrEnd fun b => .ite (fun _ => .pure .nil) fun _ => .position ?_
  refine .andThen (ht.expression _) fun e ts s₁ hts => .consume (by decide) fun hsemi => ?_
  refine .position <| .pure (hts.tidy.nested.append (.single ?_))
  rw [hsemi]
  rfl

theorem runs_interpolatedValues : Runs (interpolatedValues inner) s fun _ ts _ => Nested b ts := by
  refine .andThen (Runs.iterate (I := fun _ ts _ => Nested b ts) (t := []) (fun state ts s hts =>
    (runs_interpolatedRound ht state).mono fun _ _ _ hus => hts.append hus) .nil) fun _ ts _ hts => .pure ?_
  simpa using hts

theorem runs_interpolatedString (hk : s.current.kind = .interpolatedString) :
    Runs (interpolatedString inner) s (ExprText b) := by
  have hquiet : isQuiet s.current.kind = true := by rw [hk]; rfl
  have hstart : startsExpression s.current.kind = true := by rw [hk]; rfl
  have close : ∀ (parts : List String) values us s₁,
      (∀ e : Expr, ¬ e.Flat → ExprText b e (s.current :: us) s₁.stamped) → Runs (do
        let expr ← node (Expr.mk (.interpolated parts values)) s.here
        let slots := parts.length - 1
        if slots != values.length then
          reportStructural .interpolationMismatch
            ("Interpolated string has " ++ toString slots ++ " placeholder(s) but "
              ++ toString values.length ++ " value(s)") expr.span
        return expr) s₁ fun e vs s' => ExprText b e (s.current :: (us ++ vs)) s' := by
    intro parts values us s₁ htext
    refine .nodeThen <| .ite (fun _ => .reportStructural) fun _ => .pure ?_
    rw [List.append_nil]
    exact htext _ nofun
  refine .here <| .advance (by rw [hk]; decide) <| .check (fun hcolon => ?_) fun hcolon => .ite ?_ ?_
  · refine .ite (fun _ => .consume (by decide) fun _ => .consume (by decide) fun hl => ?_)
      fun hf => absurd rfl hf
    refine .andThen (runs_interpolatedValues ht) fun values us s₂ hus => .consume (by decide) fun hr => ?_
    have htidy := Tidy.interpolated (c := s₂.current) hk hcolon (by rw [hl, hr]; rfl) hus
    refine (close _ values (s.advanced.current :: s.advanced.advanced.current :: (us ++ [s₂.current])) _
      fun e he => ?_).mono fun e vs s' h => .of_eq h (by simp)
    refine .closed htidy hstart ?_ fun _ hf => absurd hf he
    rw [← List.cons_append, ← List.cons_append, ← List.cons_append, endKind_concat, hr]
    decide
  · exact fun _ => .consume (by decide) fun hf => absurd hf hcolon
  · refine fun _ => (close _ [] [] _ fun e he => ?_).mono fun e vs s' h => h
    exact ⟨.single hquiet, by simpa using hstart, fun _ => hcolon, fun _ hf => absurd hf he⟩

theorem runs_arrayExpr (hk : s.current.kind = .leftBracket) : Runs (arrayExpr inner) s (ExprText b) := by
  refine .here <| .advance (by rw [hk]; decide) <| .andThen (runs_arguments ht) fun es ts s₁ hts => ?_
  refine .consume (by decide) fun hr => .node ?_
  exact .bracketed (by rw [hk, hr]; rfl) hts.1.nested (.array hk hts.2 hr)

/-- A key, its colon and its value: a nested text, though not a tidy one. -/
theorem runs_dictionaryEntry : Runs (dictionaryEntry inner) s fun _ ts _ => Nested b ts := by
  refine .andThen (ht.expression _) fun key ts s₁ hts => .consume (by decide) fun hcolon => ?_
  refine .andThen (ht.expression _) fun value us s₂ hus => .pure ?_
  simpa using hts.tidy.nested.append (.cons (by rw [hcolon]; rfl) hus.tidy.nested)

omit ht in
/-- Behind the statements of a block. -/
theorem moving_behindItems (start : Location) (o : Option (List Stmt)) : Moving (match o with
    | none => do return { statements := [], span := ← spanFrom start }
    | some statements => do
      consume .rightBrace "Expected '\x7d' after block"
      return { statements, span := ← spanFrom start } : Parser Block) := by
  cases o <;> infer_instance

theorem runs_block {context : Context} :
    Runs (block inner context) s fun _ ts _ => BlockText b ts := by
  have next := moving_behindItems
  refine .here <| .accept (by decide) (fun hl => ?_) fun _ => .reportUnexpected
  refine .andThen (ht.items _ _) fun o us s₁ hus => ?_
  cases o with
  | none => exact absurd hus.1 Bool.false_ne_true
  | some statements =>
    refine .consume (by decide) fun hr => .spanFrom <| .pure ?_
    exact ⟨_, us, _, rfl, hl, hr, hus.2⟩

theorem runs_braceExpr (hk : s.current.kind = .leftBrace) : Runs (braceExpr inner) s (ExprText b) := by
  have hne : s.current.kind ≠ .eof := by rw [hk]; decide
  refine .here <| .kindAt <| .ite (fun hr => ?_) fun _ => .get <| .ite (fun _ => ?_) fun _ => ?_
  · have hr : s.advanced.current.kind = .rightBrace := by
      rw [State.kind_advanced hne]
      simpa using hr
    refine .advance hne <| .advance (by rw [hr]; decide) <| .node ?_
    exact .bracketed (by rw [hk, hr]; rfl) .nil fun _ hf => nomatch hf
  · refine .advance hne <| .andThen (runs_dictionaryEntry ht) fun first ts s₁ hts => ?_
    refine .andThen (.many (fun _ _ _ h => h) (I := fun _ ts _ => Nested b ts) (a := [])
      (fun _ ts s hts => ?_) hts) fun more us s₂ hus => ?_
    · refine .accept (by decide) (fun hcomma => .check (fun _ => ?_) fun _ => ?_) fun _ =>
        .pure (by simpa using hts)
      · exact .pure (hts.append (.single (by rw [hcomma]; rfl)))
      · refine .andThen (runs_dictionaryEntry ht) fun entry us s₁ hus => .pure ?_
        simpa using hts.append (.cons (by rw [hcomma]; rfl) hus)
    · refine .consume (by decide) fun hr => .node ?_
      have hoc : closing? s.current.kind = some s₂.current.kind := by rw [hk, hr]; rfl
      exact .of_eq (.bracketed hoc hus fun _ hf => nomatch hf) (by simp)
  · refine .andThen (runs_block ht) fun body ts s₁ hts => .node ?_
    obtain ⟨o, us, c, rfl, ho, hc, hus⟩ := hts
    have hoc : closing? o.kind = some c.kind := by rw [ho, hc]; rfl
    exact .of_eq (.bracketed hoc hus.nested fun _ hf => nomatch hf) (by simp)

theorem runs_primary (hi : inner.Steady) : Runs (primary inner) s (ExprText b) := by
  refine .kind ?_
  split
  case h_8 hk =>
    refine .here <| .advance (by rw [hk]; decide) <| .node ?_
    exact .closed (.single (by rw [hk]; rfl)) (by rw [hk]; rfl)
      (by rw [← List.nil_append [s.current], endKind_concat, hk]; decide) (.identifier hk)
  case h_9 hk => exact runs_groupOrCast ht hi hk
  case h_10 hk => exact runs_sizeOfExpr ht hk
  case h_11 hk => exact runs_typeOfExpr ht hk
  case h_12 hk => exact runs_opExpr ht hk
  case h_13 hk => exact runs_interpolatedString ht hk
  case h_14 hk => exact runs_arrayExpr ht hk
  case h_15 hk => exact runs_braceExpr ht hk
  case h_16 => exact .current .report
  all_goals
    rename_i hk
    exact runs_literal (by rw [hk]; decide)

/-! ## Operators -/

/-- What is behind an expression in a chain belongs to the text of the next. -/
theorem runs_chained {start : Location} {e : Expr} {ts : List Token} (he : ExprText b e ts s) :
    Runs (chained? inner start e) s fun o us s' => ExprText b (o.getD e) (ts ++ us) s' := by
  refine .kind ?_
  split
  case h_1 hl =>
    refine .advance (by rw [hl]; decide) <| .andThen (runs_arguments ht) fun es us s₁ hus => ?_
    refine .consume (by decide) fun hr => .nodeThen <| .pure ?_
    have hargs : Tidy b (s.current :: (us ++ [s₁.current])) := .group (by rw [hl, hr]; rfl) hus.1.nested
    refine he.before hargs ?_ (.call he.spells hl hus.2 hr)
    rw [← List.cons_append, endKind_concat, hr]
    decide
  case h_2 hdot =>
    refine .advance (by rw [hdot]; decide) <| .kind <| .ite (fun hk => ?_) fun _ => .reportUnexpected
    have hname : s.advanced.current.kind = .identifier ∨ s.advanced.current.kind.isKeyword = true := by
      simpa using hk
    have hkind : isQuiet s.advanced.current.kind = true ∧
        s.advanced.current.kind ≠ .interpolatedString := by
      rcases hname with hname | hname
      · rw [hname]
        decide
      · have table : ∀ k ∈ Kind.keywords, k ≠ .interpolatedString := by decide
        exact ⟨isQuiet_keyword hname, table _ (Token.Kind.isKeyword_iff.1 hname)⟩
    refine .advance (ne_eof_of_isQuiet hkind.1) <| .pureThen <| .nodeThen <| .pure ?_
    refine he.before (.cons (by rw [hdot]; rfl) (.single hkind.1)) ?_ (.member he.spells hdot hname)
    exact hkind.2
  case h_3 hl =>
    refine .advance (by rw [hl]; decide) <| .andThen (ht.expression _) fun index us s₁ hus => ?_
    refine .consume (by decide) fun hr => .nodeThen <| .pure ?_
    have hindex : Tidy b (s.current :: (us ++ [s₁.current])) :=
      .group (by rw [hl, hr]; rfl) hus.tidy.nested
    refine he.before hindex ?_ (.subscript he.spells hl hus.spells hr)
    rw [← List.cons_append, endKind_concat, hr]
    decide
  case h_4 => exact .pure (by simpa using he)

theorem runs_callChain (hi : inner.Steady) : Runs (callChain inner) s (ExprText b) := by
  have moving : ∀ start e, Moving (chained? inner start e) := inferInstance
  refine .here <| .andThen (runs_primary ht hi) fun e ts s₁ he => ?_
  exact .iterate (I := ExprText b) (fun _ _ _ h => runs_chained ht h) he

omit ht in
theorem runs_trailed {start : Location} {e : Expr} {ts : List Token} (he : ExprText b e ts s) :
    Runs (trailed? start e) s fun o us s' => ExprText b (o.getD e) (ts ++ us) s' := by
  refine .kind ?_
  split
  case h_1 op hop =>
    have hquiet : isQuiet s.current.kind = true ∧ s.current.kind ≠ .interpolatedString := by
      rw [trailingOp?_kind hop]
      cases op <;> decide
    refine .advance (ne_eof_of_isQuiet hquiet.1) <| .nodeThen <| .pure ?_
    exact he.before (.single hquiet.1) hquiet.2 (.trailing he.spells hop)
  case h_2 => exact .pure (by simpa using he)

theorem runs_trailing (hi : inner.Steady) : Runs (trailing inner) s (ExprText b) := by
  refine .here <| .andThen (runs_callChain ht hi) fun e ts s₁ he => ?_
  exact .iterate (I := ExprText b) (fun _ _ _ h => runs_trailed h) he

theorem runs_unaryBody (hi : inner.Steady) : Runs (unaryBody inner) s (ExprText b) := by
  refine .here <| .kind <| .ite (fun hk => ?_) fun _ => ?_
  · have hk : s.current.kind = .starStar := by simpa using hk
    refine .advance (by rw [hk]; decide) <| .andThen (ht.unary _) fun e ts s₁ he => ?_
    refine .nodeThen <| .node ?_
    exact .of_eq (.stamped (he.headed (by rw [hk]; rfl) (by rw [hk]; rfl) (.double hk he.spells)))
      (by simp)
  · split
    case h_1 op hop =>
      have table : ∀ k, (leadingOp? k).isSome = true →
          isQuiet k = true ∧ startsExpression k = true := by
        intro k hk
        cases k <;> first | exact absurd hk (by decide) | decide
      obtain ⟨hquiet, hstart⟩ := table s.current.kind (by rw [hop]; rfl)
      refine .advance (ne_eof_of_isQuiet hquiet) <| .andThen (ht.unary _) fun e ts s₁ he => .node ?_
      exact .of_eq (he.headed hquiet hstart (.leading hop he.spells)) (by simp)
    case h_2 => exact runs_trailing ht hi

theorem runs_powerBody (hi : inner.Steady) : Runs (powerBody inner) s (ExprText b) := by
  refine .here <| .andThen (runs_unaryBody ht hi) fun base ts s₁ hts => ?_
  refine .accept (by decide) (fun hk => ?_) fun _ => .pure (by simpa using hts)
  refine .andThen (ht.power _) fun exponent us s₂ hus => .node ?_
  have hop : binaryOp? s₁.current.kind = some .power := by rw [hk]; rfl
  exact .of_eq (hts.joined (by rw [hk]; rfl) hus (.binary hts.spells hop hus.spells)) (by simp)

omit ht [TwinLevel recording inner inner] in
theorem runs_joined {operators : List Kind} {operand : Parser Expr} [Moving operand]
    (h : ∀ s, Runs operand s (ExprText b)) {start : Location} {left : Expr} {ts : List Token}
    (hl : ExprText b left ts s) :
    Runs (joined? operators operand start left) s fun o us s' => ExprText b (o.getD left) (ts ++ us) s' := by
  refine .kind ?_
  split
  case h_1 op hop =>
    have hop : binaryOp? s.current.kind = some op := (Option.filter_eq_some_iff.1 hop).1
    have hquiet : isQuiet s.current.kind = true := by
      rw [binaryOp?_kind hop]
      cases op <;> rfl
    refine .advance (ne_eof_of_isQuiet hquiet) <| .andThen (h _) fun right us s₁ hus => ?_
    refine .nodeThen <| .pure ?_
    exact .of_eq (hl.joined hquiet hus (.binary hl.spells hop hus.spells)) (by simp)
  case h_2 => exact .pure (by simpa using hl)

instance {operators : List Kind} {operand : Parser Expr} [Moving operand] (start : Location)
    (left : Expr) : Moving (joined? operators operand start left) := by
  refine .andThen inferInstance fun k => ?_
  split <;> infer_instance

omit ht [TwinLevel recording inner inner] in
theorem runs_leftAssociative {operators : List Kind} {operand : Parser Expr} [Moving operand]
    (h : ∀ s, Runs operand s (ExprText b)) : Runs (leftAssociative operators operand) s (ExprText b) := by
  refine .here <| .andThen (h s) fun e ts s₁ he => ?_
  exact .iterate (I := ExprText b) (fun _ _ _ hl => runs_joined h hl) he

theorem runs_binaryBody (hi : inner.Steady) : Runs (binaryBody inner) s (ExprText b) := by
  have level : ∀ ps : List (List Kind), Moving (ps.foldr leftAssociative (powerBody inner)) ∧
      ∀ s, Runs (ps.foldr leftAssociative (powerBody inner)) s (ExprText b) := by
    intro ps
    induction ps with
    | nil => exact ⟨(inferInstance : Moving (powerBody inner)), fun s => runs_powerBody ht hi⟩
    | cons p ps ih =>
      obtain ⟨hmoving, hruns⟩ := ih
      rw [List.foldr_cons]
      exact ⟨inferInstance, fun s => runs_leftAssociative hruns⟩
  exact (level operatorLevels).2 s

theorem runs_conditionalBody (hi : inner.Steady) : Runs (conditionalBody inner) s (ExprText b) := by
  refine .here <| .andThen (runs_binaryBody ht hi) fun condition cs s₁ hcs => ?_
  refine .accept (by decide) (fun hquestion => ?_) fun _ => .pure (by simpa using hcs)
  refine .andThen (ht.expression _) fun thenValue ts s₂ hts => .consume (by decide) fun hcolon => ?_
  refine .andThen (ht.conditional _) fun elseValue es s₃ hes => .node ?_
  exact .of_eq (hcs.conditional hquestion hts hcolon hes) (by simp)

omit ht in
/-- Behind what may be assigned to. -/
theorem moving_behindTarget (start : Location) (target : Expr) : Moving (do
    match assignOp? (← kind) with
    | none => return target
    | some op =>
      let _ ← advance
      unless target.isAssignable do
        reportStructural .invalidAssignmentTarget "Invalid assignment target" target.span
      let value ← inner.expression
      node (Expr.mk (.assign op target value)) start) := by
  refine .andThen inferInstance fun k => ?_
  dsimp only
  split <;> infer_instance

theorem runs_expressionBody (hi : inner.Steady) : Runs (expressionBody inner) s (ExprText b) := by
  have next := @moving_behindTarget inner _
  refine .here <| .andThen (runs_conditionalBody ht hi) fun target ts s₁ hts => .kind ?_
  split
  case h_1 => exact .pure (by simpa using hts)
  case h_2 op hop =>
    have hquiet : isQuiet s₁.current.kind = true := by
      rw [assignOp?_kind hop]
      cases op <;> rfl
    refine .advance (ne_eof_of_isQuiet hquiet) <| .ite (fun _ => ?_) fun _ => .reportStructural
    refine .andThen (ht.expression _) fun value us s₂ hus => .node ?_
    exact .of_eq (hts.joined hquiet hus (.assign hts.spells hop hus.spells)) (by simp)

end Expressions

end FluxFront.Grammar
