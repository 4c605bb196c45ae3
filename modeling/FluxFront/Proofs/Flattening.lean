import FluxFront.Proofs.CleanRuns
import FluxFront.Proofs.ExprWords
import FluxFront.Proofs.Silence
import FluxFront.Proofs.Structural

/-!
# Expressions laid out flat

An expression made of names, literals, operators, calls, members, subscripts, arrays and parentheses
stands for a sequence of pieces, in the order in which they are written.

* **Pieces**: a piece fits a token by kind, and a name or a literal by its text or its value, too.
* **Specification**: `Matches` compares pieces with tokens one by one and makes three allowances: a comma
  behind the last item of a list may be left out, `**` in front of an operand stands for two dereferences,
  and `&` for `@`.
* **Crux**: the value of a literal is that of its token, because every literal token of a text carries one
  of its own kind (`decoded_scan`).
-/

namespace FluxFront

open Token (Kind Reading Value)

/-! ## Pieces -/

/-- What a flat expression is made of. -/
inductive Piece
  | symbol (kind : Kind)
  /-- An operator in front of its operand. -/
  | leading (op : UnaryOp)
  | name (text : String)
  /-- The name behind a dot, which may be a keyword. -/
  | member (text : String)
  | literal (value : Literal)
  /-- The comma behind the last item of a list. -/
  | lastComma

/-- The token is that of a literal with this value. -/
def Literal.WrittenBy (value : Literal) (t : Token) : Prop :=
  match value with
  | .int v => t.kind = .intLiteral ∧ t.literal = some (.int v)
  | .float v => t.kind = .floatLiteral ∧ t.literal = some (.float v)
  | .bool v => t.kind = if v then .kwTrue else .kwFalse
  | .char v => t.kind = .charLiteral ∧ t.literal = some (.char v)
  | .string v => t.kind = .stringLiteral ∧ t.literal = some (.string v)
  | .bits v => t.kind = .bitLiteral ∧ t.literal = some (.bits v)

/-- The token is one that the piece may be written as. -/
def Piece.Fits (p : Piece) (t : Token) : Prop :=
  match p with
  | .symbol kind => t.kind = kind
  | .leading op => t.kind = op.kind ∨ op = .addressOf ∧ t.kind = .amp
  | .name text => t.kind = .identifier ∧ t.lexeme = text
  | .member text => (t.kind = .identifier ∨ t.kind.isKeyword = true) ∧ t.lexeme = text
  | .literal value => value.WrittenBy t
  | .lastComma => t.kind = .comma

/-- The pieces are those that the tokens write, one by one.  A last comma may be left out, and `**` in
front of an operand is two dereferences. -/
inductive Matches : List Piece → List Token → Prop
  | nil : Matches [] []
  | piece {p : Piece} {t : Token} {ps : List Piece} {ts : List Token} (h : p.Fits t)
      (rest : Matches ps ts) : Matches (p :: ps) (t :: ts)
  | twice {t : Token} {ps : List Piece} {ts : List Token} (h : t.kind = .starStar)
      (rest : Matches ps ts) : Matches (.leading .deref :: .leading .deref :: ps) (t :: ts)
  | omitted {ps : List Piece} {ts : List Token} (rest : Matches ps ts) : Matches (.lastComma :: ps) ts

namespace Matches

variable {ps qs : List Piece} {ts us : List Token} {t : Token}

theorem append (hp : Matches ps ts) (hq : Matches qs us) : Matches (ps ++ qs) (ts ++ us) := by
  induction hp with
  | nil => exact hq
  | piece h _ ih => exact .piece h ih
  | twice h _ ih => exact .twice h ih
  | omitted _ ih => exact .omitted ih

theorem single {p : Piece} (h : p.Fits t) : Matches [p] [t] := .piece h .nil

/-- Pieces between two symbols. -/
theorem between {o c : Kind} {l r : Token} (hl : l.kind = o) (h : Matches ps ts) (hr : r.kind = c) :
    Matches (.symbol o :: (ps ++ [.symbol c])) (l :: (ts ++ [r])) :=
  .piece hl (h.append (single hr))

/-- Pieces on both sides of a symbol. -/
theorem joined {k : Kind} (hp : Matches ps ts) (ht : t.kind = k) (hq : Matches qs us) :
    Matches (ps ++ .symbol k :: qs) (ts ++ t :: us) := hp.append (.piece ht hq)

end Matches

/-! ## Flat expressions -/

/-- Pieces of some items with commas between them and possibly one behind the last. -/
def commaPieces (items : List (List Piece)) : List Piece :=
  [Piece.symbol .comma].intercalate items ++ if items.isEmpty then [] else [.lastComma]

namespace Expr

/-- An expression made of names, literals, operators, calls, members, subscripts, arrays, types of
expressions, and parentheses. -/
inductive Flat : Expr → Prop
  | literal {value : Literal} {span : Span} {id : NodeId} : Flat ⟨.literal value, span, id⟩
  | identifier {name : String} {span : Span} {id : NodeId} : Flat ⟨.identifier name, span, id⟩
  | unary {op : UnaryOp} {e : Expr} {placement : Placement} {span : Span} {id : NodeId} (h : Flat e) :
      Flat ⟨.unary op e placement, span, id⟩
  | binary {op : BinaryOp} {l r : Expr} {span : Span} {id : NodeId} (hl : Flat l) (hr : Flat r) :
      Flat ⟨.binary op l r, span, id⟩
  | assign {op : AssignOp} {target value : Expr} {span : Span} {id : NodeId} (ht : Flat target)
      (hv : Flat value) : Flat ⟨.assign op target value, span, id⟩
  | conditional {c t e : Expr} {span : Span} {id : NodeId} (hc : Flat c) (ht : Flat t) (he : Flat e) :
      Flat ⟨.conditional c t e, span, id⟩
  | call {callee : Expr} {args : List Expr} {span : Span} {id : NodeId} (hc : Flat callee)
      (ha : ∀ a ∈ args, Flat a) : Flat ⟨.call callee args, span, id⟩
  | member {object : Expr} {name : String} {span : Span} {id : NodeId} (h : Flat object) :
      Flat ⟨.member object name, span, id⟩
  | subscript {object index : Expr} {span : Span} {id : NodeId} (ho : Flat object) (hi : Flat index) :
      Flat ⟨.subscript object index, span, id⟩
  | group {inner : Expr} {span : Span} {id : NodeId} (h : Flat inner) : Flat ⟨.group inner, span, id⟩
  | array {elements : List Expr} {span : Span} {id : NodeId} (h : ∀ e ∈ elements, Flat e) :
      Flat ⟨.array elements, span, id⟩
  | typeOf {inner : Expr} {span : Span} {id : NodeId} (h : Flat inner) : Flat ⟨.typeOf inner, span, id⟩

mutual

/-- The pieces of an expression in the order in which they are written. -/
def flatten : Expr → List Piece
  | ⟨.literal value, _, _⟩ => [.literal value]
  | ⟨.identifier name, _, _⟩ => [.name name]
  | ⟨.unary op e .before, _, _⟩ => .leading op :: e.flatten
  | ⟨.unary op e .after, _, _⟩ => e.flatten ++ [.symbol op.kind]
  | ⟨.binary op l r, _, _⟩ => l.flatten ++ .symbol op.kind :: r.flatten
  | ⟨.assign op target value, _, _⟩ => target.flatten ++ .symbol op.kind :: value.flatten
  | ⟨.conditional c t e, _, _⟩ =>
    c.flatten ++ .symbol .question :: (t.flatten ++ .symbol .colon :: e.flatten)
  | ⟨.call callee args, _, _⟩ =>
    callee.flatten ++ .symbol .leftParen :: (commaPieces (flattenEach args) ++ [.symbol .rightParen])
  | ⟨.member object name, _, _⟩ => object.flatten ++ [.symbol .dot, .member name]
  | ⟨.subscript object index, _, _⟩ =>
    object.flatten ++ .symbol .leftBracket :: (index.flatten ++ [.symbol .rightBracket])
  | ⟨.group inner, _, _⟩ => .symbol .leftParen :: (inner.flatten ++ [.symbol .rightParen])
  | ⟨.array elements, _, _⟩ =>
    .symbol .leftBracket :: (commaPieces (flattenEach elements) ++ [.symbol .rightBracket])
  | ⟨.typeOf inner, _, _⟩ =>
    .symbol .kwTypeOf :: .symbol .leftParen :: (inner.flatten ++ [.symbol .rightParen])
  | _ => []

/-- The pieces of each of some expressions. -/
def flattenEach : List Expr → List (List Piece)
  | [] => []
  | e :: more => e.flatten :: flattenEach more

end

mutual

/-- Whether an expression is flat. -/
def isFlat : Expr → Bool
  | ⟨.literal _, _, _⟩ | ⟨.identifier _, _, _⟩ => true
  | ⟨.unary _ e _, _, _⟩ | ⟨.member e _, _, _⟩ | ⟨.group e, _, _⟩ | ⟨.typeOf e, _, _⟩ => e.isFlat
  | ⟨.binary _ l r, _, _⟩ | ⟨.assign _ l r, _, _⟩ | ⟨.subscript l r, _, _⟩ => l.isFlat && r.isFlat
  | ⟨.conditional c t e, _, _⟩ => c.isFlat && t.isFlat && e.isFlat
  | ⟨.call callee args, _, _⟩ => callee.isFlat && areFlat args
  | ⟨.array elements, _, _⟩ => areFlat elements
  | _ => false

/-- Whether some expressions are flat. -/
def areFlat : List Expr → Bool
  | [] => true
  | e :: more => e.isFlat && areFlat more

end

mutual

theorem flat_of_isFlat : ∀ {e : Expr}, e.isFlat = true → e.Flat
  | ⟨.literal _, _, _⟩, _ => .literal
  | ⟨.identifier _, _, _⟩, _ => .identifier
  | ⟨.unary _ _ _, _, _⟩, h => .unary (flat_of_isFlat h)
  | ⟨.member _ _, _, _⟩, h => .member (flat_of_isFlat h)
  | ⟨.group _, _, _⟩, h => .group (flat_of_isFlat h)
  | ⟨.typeOf _, _, _⟩, h => .typeOf (flat_of_isFlat h)
  | ⟨.binary _ _ _, _, _⟩, h => by
    rw [isFlat, Bool.and_eq_true] at h
    exact .binary (flat_of_isFlat h.1) (flat_of_isFlat h.2)
  | ⟨.assign _ _ _, _, _⟩, h => by
    rw [isFlat, Bool.and_eq_true] at h
    exact .assign (flat_of_isFlat h.1) (flat_of_isFlat h.2)
  | ⟨.subscript _ _, _, _⟩, h => by
    rw [isFlat, Bool.and_eq_true] at h
    exact .subscript (flat_of_isFlat h.1) (flat_of_isFlat h.2)
  | ⟨.conditional _ _ _, _, _⟩, h => by
    rw [isFlat, Bool.and_eq_true, Bool.and_eq_true] at h
    exact .conditional (flat_of_isFlat h.1.1) (flat_of_isFlat h.1.2) (flat_of_isFlat h.2)
  | ⟨.call _ _, _, _⟩, h => by
    rw [isFlat, Bool.and_eq_true] at h
    exact .call (flat_of_isFlat h.1) (flat_of_areFlat h.2)
  | ⟨.array _, _, _⟩, h => .array (flat_of_areFlat h)

theorem flat_of_areFlat : ∀ {es : List Expr}, areFlat es = true → ∀ e ∈ es, e.Flat
  | [], _ => nofun
  | e :: more, h => by
    rw [areFlat, Bool.and_eq_true] at h
    exact List.forall_mem_cons.2 ⟨flat_of_isFlat h.1, flat_of_areFlat h.2⟩

end

theorem flattenEach_eq (es : List Expr) : flattenEach es = es.map flatten := by
  induction es with
  | nil => rfl
  | cons e more ih => rw [flattenEach, ih, List.map_cons]

end Expr

/-! ## Literals of a text -/

namespace Token

/-- A literal token of some kind carries a value of that kind. -/
def Kind.Carries (k : Kind) (value : Option Value) : Prop :=
  match k with
  | .intLiteral => ∃ v, value = some (.int v)
  | .floatLiteral => ∃ v, value = some (.float v)
  | .charLiteral => ∃ v, value = some (.char v)
  | .stringLiteral => ∃ v, value = some (.string v)
  | .bitLiteral => ∃ v, value = some (.bits v)
  | _ => True

/-- A token that carries a value if its kind asks for one. -/
def Decoded (t : Token) : Prop := t.kind.Carries t.literal

/-- The kinds of tokens that carry a value. -/
def valueKinds : List Kind := [.intLiteral, .floatLiteral, .charLiteral, .stringLiteral, .bitLiteral]

theorem Kind.carries_of_not_mem {k : Kind} (h : k ∉ valueKinds) (value : Option Value) :
    k.Carries value := by
  unfold Kind.Carries
  split
  case h_6 => trivial
  all_goals exact absurd (by decide) h

theorem carries_readNumber (here : Location) (text : List Char) :
    (readNumber here text).kind.Carries (readNumber here text).literal := by
  have decimal : (readDecimal here text).kind.Carries (readDecimal here text).literal := by
    unfold readDecimal
    dsimp only
    split <;> exact ⟨_, rfl⟩
  unfold readNumber
  split
  · split
    · unfold readRadix
      dsimp only
      split <;> exact ⟨_, rfl⟩
    · exact decimal
  · exact decimal

theorem carries_readChar (here : Location) (text : List Char) :
    (readChar here text).kind.Carries (readChar here text).literal := by
  unfold readChar
  dsimp only
  split <;> exact ⟨_, rfl⟩

theorem carries_readToken (here : Location) (c : Char) (text : List Char) :
    (readToken here c text).kind.Carries (readToken here c text).literal := by
  unfold readToken
  split
  · rename_i kind lexeme rest hm
    refine Kind.carries_of_not_mem (k := kind) ?_ none
    have table : ∀ k ∈ Kind.operators, k ∉ valueKinds := by decide
    exact table kind (operator_of_match hm).1
  · split
    · exact ⟨_, rfl⟩
    · split
      · exact carries_readChar here text
      · split
        · exact carries_readNumber here (c :: text)
        · split
          · exact trivial
          · -- a name or a keyword
            refine Kind.carries_of_not_mem (k := (readName c text).kind) ?_ none
            show (Kind.ofKeyword? _).getD .identifier ∉ valueKinds
            cases h : Kind.ofKeyword? (String.ofList (c :: text.takeWhile Text.continuesName)) with
            | none => decide
            | some k =>
              have table : ∀ k ∈ Kind.keywords, k ∉ valueKinds := by decide
              exact table k (Kind.mem_of_ofKeyword h)

theorem decoded_next (s : Scanner) : s.next.1.Decoded := by
  unfold Scanner.next
  dsimp only
  split
  · exact trivial
  · rename_i c text _
    unfold Decoded
    dsimp only
    split
    · rw [readRaw_kind]
      exact trivial
    · exact carries_readToken _ _ _

/-- Every literal token of a text carries a value of its kind. -/
theorem decoded_scan (source : String) : ∀ t ∈ (scan source).1, t.Decoded :=
  Scanner.forall_run decoded_next _ _

end Token

namespace Grammar

/-- The kinds of tokens that a plain literal is read from. -/
def plainLiterals : List Kind :=
  [.intLiteral, .floatLiteral, .charLiteral, .stringLiteral, .bitLiteral, .kwTrue, .kwFalse]

/-- The literal that is read off a decoded token is the one it writes. -/
theorem writtenBy_literalOf {t : Token} (ht : t.Decoded) (hk : t.kind ∈ plainLiterals) :
    (literalOf t).WrittenBy t := by
  obtain ⟨kind, lexeme, span, value⟩ := t
  unfold Token.Decoded Kind.Carries at ht
  dsimp only at ht hk
  simp only [plainLiterals, List.mem_cons, List.not_mem_nil, or_false] at hk
  rcases hk with rfl | rfl | rfl | rfl | rfl | rfl | rfl
  case inr.inr.inr.inr.inr.inl => exact rfl
  case inr.inr.inr.inr.inr.inr => exact rfl
  all_goals
    obtain ⟨v, rfl⟩ := ht
    exact ⟨rfl, rfl⟩

theorem binaryOp?_kind {k : Kind} {op : BinaryOp} (h : binaryOp? k = some op) : k = op.kind := by
  unfold binaryOp? at h
  split at h <;> cases h <;> rfl

theorem assignOp?_kind {k : Kind} {op : AssignOp} (h : assignOp? k = some op) : k = op.kind := by
  unfold assignOp? at h
  split at h <;> cases h <;> rfl

theorem trailingOp?_kind {k : Kind} {op : UnaryOp} (h : trailingOp? k = some op) : k = op.kind := by
  unfold trailingOp? at h
  split at h <;> cases h <;> rfl

/-- Of the operators in front of an operand, only that for an address has two signs. -/
theorem fits_leadingOp {t : Token} {op : UnaryOp} (h : leadingOp? t.kind = some op) :
    (Piece.leading op).Fits t := by
  unfold leadingOp? at h
  split at h
  case h_8 hk =>
    obtain rfl := Option.some.inj h
    exact .inl hk
  case h_9 hk =>
    obtain rfl := Option.some.inj h
    exact .inr ⟨rfl, hk⟩
  case h_10 => exact absurd h nofun
  all_goals
    rename_i hk
    obtain rfl := Option.some.inj h
    exact .inl hk

/-! ## What an expression was read from -/

/-- If the tokens are those of a text and the expression is flat, they are what it is written as. -/
def Spells (e : Expr) (ts : List Token) : Prop :=
  (∀ t ∈ ts, t.Decoded) → e.Flat → Matches e.flatten ts

/-- The same for the items of a list, with commas between them and possibly one behind the last. -/
def SpellsEach (es : List Expr) (ts : List Token) : Prop :=
  (∀ t ∈ ts, t.Decoded) → (∀ e ∈ es, e.Flat) → Matches (commaPieces (Expr.flattenEach es)) ts

namespace Spells

variable {e l r : Expr} {ts us vs : List Token} {t u v : Token} {span span' : Span} {id id' : NodeId}

theorem literal (ht : t.kind ∈ plainLiterals) : Spells ⟨.literal (literalOf t), span, id⟩ [t] :=
  fun hd _ => .single (writtenBy_literalOf (hd t List.mem_cons_self) ht)

theorem identifier (ht : t.kind = .identifier) : Spells ⟨.identifier t.lexeme, span, id⟩ [t] :=
  fun _ _ => .single ⟨ht, rfl⟩

theorem leading {op : UnaryOp} (ht : leadingOp? t.kind = some op) (h : Spells e ts) :
    Spells ⟨.unary op e .before, span, id⟩ (t :: ts) := by
  intro hd hf
  rw [List.forall_mem_cons] at hd
  cases hf with
  | unary hf => exact .piece (fits_leadingOp ht) (h hd.2 hf)

theorem double (ht : t.kind = .starStar) (h : Spells e ts) :
    Spells ⟨.unary .deref ⟨.unary .deref e .before, span', id'⟩ .before, span, id⟩ (t :: ts) := by
  intro hd hf
  rw [List.forall_mem_cons] at hd
  cases hf with
  | unary hf =>
    cases hf with
    | unary hf => exact .twice ht (h hd.2 hf)

theorem trailing {op : UnaryOp} (h : Spells e ts) (ht : trailingOp? t.kind = some op) :
    Spells ⟨.unary op e .after, span, id⟩ (ts ++ [t]) := by
  intro hd hf
  rw [List.forall_mem_append] at hd
  cases hf with
  | unary hf => exact (h hd.1 hf).append (.single (trailingOp?_kind ht))

theorem binary {op : BinaryOp} (hl : Spells l ts) (ht : binaryOp? t.kind = some op)
    (hr : Spells r us) : Spells ⟨.binary op l r, span, id⟩ (ts ++ t :: us) := by
  intro hd hf
  rw [List.forall_mem_append, List.forall_mem_cons] at hd
  cases hf with
  | binary hfl hfr => exact (hl hd.1 hfl).joined (binaryOp?_kind ht) (hr hd.2.2 hfr)

theorem assign {op : AssignOp} (hl : Spells l ts) (ht : assignOp? t.kind = some op)
    (hr : Spells r us) : Spells ⟨.assign op l r, span, id⟩ (ts ++ t :: us) := by
  intro hd hf
  rw [List.forall_mem_append, List.forall_mem_cons] at hd
  cases hf with
  | assign hfl hfr => exact (hl hd.1 hfl).joined (assignOp?_kind ht) (hr hd.2.2 hfr)

theorem conditional (hc : Spells e ts) (ht : t.kind = .question) (hl : Spells l us)
    (hu : u.kind = .colon) (hr : Spells r vs) :
    Spells ⟨.conditional e l r, span, id⟩ (ts ++ t :: (us ++ u :: vs)) := by
  intro hd hf
  rw [List.forall_mem_append, List.forall_mem_cons, List.forall_mem_append, List.forall_mem_cons] at hd
  cases hf with
  | conditional hfc hfl hfr =>
    exact (hc hd.1 hfc).joined ht ((hl hd.2.2.1 hfl).joined hu (hr hd.2.2.2.2 hfr))

theorem member (h : Spells e ts) (ht : t.kind = .dot)
    (hu : u.kind = .identifier ∨ u.kind.isKeyword = true) :
    Spells ⟨.member e u.lexeme, span, id⟩ (ts ++ [t, u]) := by
  intro hd hf
  rw [List.forall_mem_append] at hd
  cases hf with
  | member hf => exact (h hd.1 hf).append (.piece ht (.single ⟨hu, rfl⟩))

theorem subscript (h : Spells e ts) (ht : t.kind = .leftBracket) (hi : Spells l us)
    (hu : u.kind = .rightBracket) : Spells ⟨.subscript e l, span, id⟩ (ts ++ t :: (us ++ [u])) := by
  intro hd hf
  rw [List.forall_mem_append, List.forall_mem_cons, List.forall_mem_append] at hd
  cases hf with
  | subscript hfo hfi => exact (h hd.1 hfo).append (.between ht (hi hd.2.2.1 hfi) hu)

theorem group (ht : t.kind = .leftParen) (h : Spells e ts) (hu : u.kind = .rightParen) :
    Spells ⟨.group e, span, id⟩ (t :: (ts ++ [u])) := by
  intro hd hf
  rw [List.forall_mem_cons, List.forall_mem_append] at hd
  cases hf with
  | group hf => exact .between ht (h hd.2.1 hf) hu

theorem typeOf (hk : v.kind = .kwTypeOf) (ht : t.kind = .leftParen) (h : Spells e ts)
    (hu : u.kind = .rightParen) : Spells ⟨.typeOf e, span, id⟩ (v :: t :: (ts ++ [u])) := by
  intro hd hf
  rw [List.forall_mem_cons, List.forall_mem_cons, List.forall_mem_append] at hd
  cases hf with
  | typeOf hf => exact .piece hk (.between ht (h hd.2.2.1 hf) hu)

theorem call (h : Spells e ts) (ht : t.kind = .leftParen) {es : List Expr} (ha : SpellsEach es us)
    (hu : u.kind = .rightParen) : Spells ⟨.call e es, span, id⟩ (ts ++ t :: (us ++ [u])) := by
  intro hd hf
  rw [List.forall_mem_append, List.forall_mem_cons, List.forall_mem_append] at hd
  cases hf with
  | call hfc hfa => exact (h hd.1 hfc).append (.between ht (ha hd.2.2.1 hfa) hu)

theorem array (ht : t.kind = .leftBracket) {es : List Expr} (h : SpellsEach es us)
    (hu : u.kind = .rightBracket) : Spells ⟨.array es, span, id⟩ (t :: (us ++ [u])) := by
  intro hd hf
  rw [List.forall_mem_cons, List.forall_mem_append] at hd
  cases hf with
  | array hf => exact .between ht (h hd.2.1 hf) hu

end Spells

namespace SpellsEach

theorem nil : SpellsEach [] [] := fun _ _ => .nil

/-- One more item goes behind a comma. -/
theorem intercalate_concat {γ : Type} (x : γ) {items : List (List γ)} (h : items ≠ [])
    (item : List γ) : [x].intercalate (items ++ [item]) = [x].intercalate items ++ x :: item := by
  cases items with
  | nil => exact absurd rfl h
  | cons first more => simp [intercalate_cons]

/-- Items that were read with commas between them. -/
theorem commas {P : Expr → List Token → State → Prop} (hP : ∀ {e ts s}, P e ts s → Spells e ts)
    {es : List Expr} {ts : List Token} {s : State} (h : Runs.Commas P es ts s) :
    es ≠ [] ∧ ((∀ t ∈ ts, t.Decoded) → (∀ e ∈ es, e.Flat) →
      Matches ([Piece.symbol .comma].intercalate (Expr.flattenEach es)) ts) := by
  induction h with
  | @one e ts s h =>
    refine ⟨List.cons_ne_nil _ _, fun hd hf => ?_⟩
    simpa [Expr.flattenEach, List.intercalate] using hP h hd (List.forall_mem_singleton.1 hf)
  | @more es ts us comma e s₁ s₂ _ hk he ih =>
    refine ⟨by simp, fun hd hf => ?_⟩
    rw [List.forall_mem_append, List.forall_mem_cons] at hd
    rw [List.forall_mem_append, List.forall_mem_singleton] at hf
    have hne : es.map Expr.flatten ≠ [] := by simpa using ih.1
    have hitems := ih.2 hd.1 hf.1
    rw [Expr.flattenEach_eq] at hitems ⊢
    rw [List.map_append, List.map_singleton, intercalate_concat _ hne]
    exact hitems.joined hk (hP he hd.2.2 hf.2)

/-- A list as `commaTerminated` reads it. -/
theorem ended {P : Expr → List Token → State → Prop} (hP : ∀ {e ts s}, P e ts s → Spells e ts)
    {es : List Expr} {ts : List Token} {s : State} (h : es = [] ∧ ts = [] ∨ Runs.Ended P es ts s) :
    SpellsEach es ts := by
  have pieces : ∀ {es : List Expr}, es ≠ [] → commaPieces (Expr.flattenEach es) =
      [Piece.symbol .comma].intercalate (Expr.flattenEach es) ++ [.lastComma] := by
    intro es hne
    cases es with
    | nil => exact absurd rfl hne
    | cons e more => rfl
  rcases h with ⟨rfl, rfl⟩ | h | ⟨us, comma, s₁, h, hk, rfl⟩
  · exact nil
  · obtain ⟨hne, hitems⟩ := commas hP h
    intro hd hf
    rw [pieces hne]
    have happend := (hitems hd hf).append (.omitted .nil)
    rwa [List.append_nil] at happend
  · obtain ⟨hne, hitems⟩ := commas hP h
    intro hd hf
    rw [List.forall_mem_append] at hd
    rw [pieces hne]
    exact (hitems hd.1 hf).append (.single hk)

end SpellsEach

end Grammar

end FluxFront
