import FluxFront.Print.Tree
import FluxFront.Proofs.LiteralWords

/-!
# The words of a printed expression

How an expression is spelled, and that the scanner reads it so.

* **Fragment**: `Expr.Plain` are the expressions made of names, integer, Boolean, character and string
  literals, operators, calls, members and subscripts.
* **Words**: `Expr.words` is the list of words that an expression is printed as.  Two dereferences in
  front of one operand are one word `**`; a weak operand stands between parentheses.
* **Crux**: the blanks of the printer stand where two operators would otherwise become one
  (`Plain.scans`).  What stands right behind an operator in front of its operand either starts no
  second half of an operator, or is an operator with a blank or a `*` behind it.
-/

namespace FluxFront

open Print Token

/-! ## Operators as words -/

/-- The kind of the word that a unary operator is printed as. -/
def UnaryOp.kind : UnaryOp → Kind
  | not => .bang
  | negate => .minus
  | plus => .plus
  | bitNot => .tilde
  | increment => .plusPlus
  | decrement => .minusMinus
  | deref => .star
  | addressOf => .atSign

/-- The kind of the word that a binary operator is printed as. -/
def BinaryOp.kind : BinaryOp → Kind
  | or => .pipePipe
  | and => .ampAmp
  | bitOr => .pipe
  | bitXor => .caret
  | bitAnd => .amp
  | equal => .equalEqual
  | notEqual => .notEqual
  | is => .kwIs
  | less => .less
  | lessEqual => .lessEqual
  | greater => .greater
  | greaterEqual => .greaterEqual
  | shl => .shl
  | shr => .shr
  | add => .plus
  | subtract => .minus
  | multiply => .star
  | divide => .slash
  | modulo => .percent
  | power => .starStar

/-- The kind of the word that an assignment operator is printed as. -/
def AssignOp.kind : AssignOp → Kind
  | assign => .equal
  | add => .plusEqual
  | subtract => .minusEqual
  | multiply => .starEqual
  | divide => .slashEqual
  | modulo => .percentEqual
  | bitAnd => .ampEqual
  | bitOr => .pipeEqual
  | bitXor => .caretEqual
  | shl => .shlEqual
  | shr => .shrEqual
  | power => .starStarEqual

theorem UnaryOp.symbol_eq (op : UnaryOp) : op.symbol.toList = op.kind.spelling := by
  cases op <;> rfl

theorem BinaryOp.symbol_eq (op : BinaryOp) : op.symbol.toList = op.kind.spelling := by
  cases op <;> rfl

theorem AssignOp.symbol_eq (op : AssignOp) : op.symbol.toList = op.kind.spelling := by
  cases op <;> rfl

theorem UnaryOp.kind_mem (op : UnaryOp) : op.kind ∈ Kind.operators := by
  cases op <;> decide

theorem AssignOp.kind_mem (op : AssignOp) : op.kind ∈ Kind.operators := by
  cases op <;> decide

theorem BinaryOp.kind_mem (op : BinaryOp) : op.kind ∈ Kind.operators ∨ op.kind = .kwIs := by
  cases op <;> decide

/-- The word that a literal is printed as. -/
def Literal.word : Literal → Word
  | .int value => .int value
  | .bool value => .fixed (if value then .kwTrue else .kwFalse)
  | .char value => .char value
  | .string value => .string value
  | .float value => ⟨.floatLiteral, (literal (.float value)).toList, some (.float value)⟩
  | .bits digits => ⟨.bitLiteral, (literal (.bits digits)).toList, some (.bits digits)⟩

/-- Whether a literal is an integer, a Boolean, a character or a string. -/
def Literal.isPlain : Literal → Bool
  | .int _ | .bool _ | .char _ | .string _ => true
  | .float _ | .bits _ => false

/-! ## Plain expressions -/

namespace Expr

/-- An expression made of names, plain literals, operators, calls, members and subscripts.  Only `++`
and `--` stand behind their operand, and only what may be assigned to is. -/
inductive Plain : Expr → Prop
  | literal {value : Literal} {span : Span} {id : NodeId} (h : value.isPlain = true) :
      Plain ⟨.literal value, span, id⟩
  | identifier {name : String} {span : Span} {id : NodeId} (h : isName name = true) :
      Plain ⟨.identifier name, span, id⟩
  | leading {e : Expr} {span : Span} {id : NodeId} (op : UnaryOp) (h : Plain e) :
      Plain ⟨.unary op e .before, span, id⟩
  | trailing {op : UnaryOp} {e : Expr} {span : Span} {id : NodeId}
      (hop : op = .increment ∨ op = .decrement) (h : Plain e) : Plain ⟨.unary op e .after, span, id⟩
  | binary {l r : Expr} {span : Span} {id : NodeId} (op : BinaryOp) (hl : Plain l) (hr : Plain r) :
      Plain ⟨.binary op l r, span, id⟩
  | assign {target value : Expr} {span : Span} {id : NodeId} (op : AssignOp) (ht : Plain target)
      (ha : target.isAssignable = true) (hv : Plain value) : Plain ⟨.assign op target value, span, id⟩
  | conditional {c t e : Expr} {span : Span} {id : NodeId} (hc : Plain c) (ht : Plain t)
      (he : Plain e) : Plain ⟨.conditional c t e, span, id⟩
  | call {callee : Expr} {args : List Expr} {span : Span} {id : NodeId} (hc : Plain callee)
      (ha : ∀ a ∈ args, Plain a) : Plain ⟨.call callee args, span, id⟩
  | member {object : Expr} {name : String} {span : Span} {id : NodeId} (ho : Plain object)
      (hn : isName name = true) : Plain ⟨.member object name, span, id⟩
  | subscript {object index : Expr} {span : Span} {id : NodeId} (ho : Plain object)
      (hi : Plain index) : Plain ⟨.subscript object index, span, id⟩

/-- Whether an expression is the dereference of another one. -/
def isDeref : Expr → Bool
  | ⟨.unary .deref _ .before, _, _⟩ => true
  | _ => false

/-- An operand with its words, between parentheses if it is weaker than asked for. -/
def operandWords (least : Nat) (e : Expr) (ws : List Word) : List Word :=
  if e.strength < least then .fixed .leftParen :: (ws ++ [.fixed .rightParen]) else ws

mutual

/-- The words of an expression. -/
def words : Expr → List Word
  | ⟨.literal value, _, _⟩ => [value.word]
  | ⟨.identifier name, _, _⟩ => [.name name]
  | ⟨.unary .deref ⟨.unary .deref e .before, _, _⟩ .before, _, _⟩ =>
    .fixed .starStar :: operandWords leadingStrength e e.words
  | ⟨.unary op e .before, _, _⟩ => .fixed op.kind :: operandWords leadingStrength e e.words
  | ⟨.unary op e .after, _, _⟩ => operandWords trailingStrength e e.words ++ [.fixed op.kind]
  | ⟨.binary op l r, _, _⟩ =>
    operandWords (binarySides op).1 l l.words ++ .fixed op.kind ::
      operandWords (binarySides op).2 r r.words
  | ⟨.assign op target value, _, _⟩ =>
    operandWords conditionalStrength target target.words ++ .fixed op.kind ::
      operandWords assignStrength value value.words
  | ⟨.conditional c t e, _, _⟩ =>
    operandWords (binaryStrength .or) c c.words ++ .fixed .question ::
      (operandWords assignStrength t t.words ++ .fixed .colon ::
        operandWords conditionalStrength e e.words)
  | ⟨.call callee args, _, _⟩ =>
    operandWords callStrength callee callee.words ++ .fixed .leftParen ::
      ([Word.fixed .comma].intercalate (wordsEach args) ++ [.fixed .rightParen])
  | ⟨.member object name, _, _⟩ =>
    operandWords callStrength object object.words ++ [.fixed .dot, .name name]
  | ⟨.subscript object index, _, _⟩ =>
    operandWords callStrength object object.words ++ .fixed .leftBracket ::
      (index.words ++ [.fixed .rightBracket])
  | _ => []

/-- The words of each of some expressions. -/
def wordsEach : List Expr → List (List Word)
  | [] => []
  | e :: more => e.words :: wordsEach more

end

/-- An operator in front of an operand is a word of its own, unless it dereferences a dereference. -/
theorem words_leading {op : UnaryOp} {e : Expr} (h : ¬ (op = .deref ∧ e.isDeref = true)) (span : Span)
    (id : NodeId) :
    words ⟨.unary op e .before, span, id⟩ = .fixed op.kind :: operandWords leadingStrength e e.words := by
  refine words.eq_4 op e span id ?_
  rintro e₁ span₁ id₁ rfl rfl
  exact h ⟨rfl, rfl⟩

/-- Cases and hypotheses that follow the words: two dereferences are taken at once. -/
@[elab_as_elim]
theorem Plain.induct {motive : (e : Expr) → Plain e → Prop}
    (literal : ∀ {value span id} (h : Literal.isPlain value = true),
      motive ⟨.literal value, span, id⟩ (.literal h))
    (identifier : ∀ {name span id} (h : isName name = true),
      motive ⟨.identifier name, span, id⟩ (.identifier h))
    (double : ∀ {e span₁ id₁ span id} (h : Plain e), motive e h →
      motive ⟨.unary .deref ⟨.unary .deref e .before, span₁, id₁⟩ .before, span, id⟩
        (.leading _ (.leading _ h)))
    (leading : ∀ {op e span id} (_ : ¬ (op = .deref ∧ isDeref e = true)) (h : Plain e), motive e h →
      motive ⟨.unary op e .before, span, id⟩ (.leading op h))
    (trailing : ∀ {op e span id} (hop : op = .increment ∨ op = .decrement) (h : Plain e),
      motive e h → motive ⟨.unary op e .after, span, id⟩ (.trailing hop h))
    (binary : ∀ {op l r span id} (hl : Plain l) (hr : Plain r), motive l hl → motive r hr →
      motive ⟨.binary op l r, span, id⟩ (.binary op hl hr))
    (assign : ∀ {op target value span id} (ht : Plain target) (ha : isAssignable target = true)
      (hv : Plain value), motive target ht → motive value hv →
      motive ⟨.assign op target value, span, id⟩ (.assign op ht ha hv))
    (conditional : ∀ {c t e span id} (hc : Plain c) (ht : Plain t) (he : Plain e), motive c hc →
      motive t ht → motive e he → motive ⟨.conditional c t e, span, id⟩ (.conditional hc ht he))
    (call : ∀ {callee args span id} (hc : Plain callee) (ha : ∀ a ∈ args, Plain a),
      motive callee hc → (∀ a (hm : a ∈ args), motive a (ha a hm)) →
      motive ⟨.call callee args, span, id⟩ (.call hc ha))
    (member : ∀ {object name span id} (ho : Plain object) (hn : isName name = true),
      motive object ho → motive ⟨.member object name, span, id⟩ (.member ho hn))
    (subscript : ∀ {object index span id} (ho : Plain object) (hi : Plain index),
      motive object ho → motive index hi → motive ⟨.subscript object index, span, id⟩ (.subscript ho hi))
    {e : Expr} (h : Plain e) : motive e h := by
  -- along with an expression, the operand of its dereference is done
  have both : motive e h ∧ ∀ e₁ (h₁ : Plain e₁) span id, e = ⟨.unary .deref e₁ .before, span, id⟩ →
      motive e₁ h₁ := by
    induction h with
    | literal h => exact ⟨literal h, fun _ _ => nofun⟩
    | identifier h => exact ⟨identifier h, fun _ _ => nofun⟩
    | @leading e₁ span id op h ih =>
      refine ⟨?_, ?_⟩
      · by_cases hd : op = .deref ∧ e₁.isDeref = true
        · obtain ⟨rfl, hd⟩ := hd
          unfold isDeref at hd
          split at hd
          · rename_i e₂ span₂ id₂
            cases h with
            | leading _ h₂ => exact double h₂ (ih.2 e₂ h₂ span₂ id₂ rfl)
          · exact absurd hd (by decide)
        · exact leading hd h ih.1
      · rintro e₂ h₂ span₂ id₂ he
        injection he with he
        injection he with _ he
        subst he
        exact ih.1
    | trailing hop h ih => exact ⟨trailing hop h ih.1, fun _ _ => nofun⟩
    | binary op hl hr ihl ihr => exact ⟨binary hl hr ihl.1 ihr.1, fun _ _ => nofun⟩
    | assign op ht ha hv iht ihv => exact ⟨assign ht ha hv iht.1 ihv.1, fun _ _ => nofun⟩
    | conditional hc ht he ihc iht ihe => exact ⟨conditional hc ht he ihc.1 iht.1 ihe.1, fun _ _ => nofun⟩
    | call hc ha ihc iha => exact ⟨call hc ha ihc.1 fun a hm => (iha a hm).1, fun _ _ => nofun⟩
    | member ho hn iho => exact ⟨member ho hn iho.1, fun _ _ => nofun⟩
    | subscript ho hi iho ihi => exact ⟨subscript ho hi iho.1 ihi.1, fun _ _ => nofun⟩
  exact both.1

end Expr

/-! ## What stands behind an operator -/

/-- Whether a character starts an operand that has no operator in front of it. -/
def opensOperand (c : Char) : Bool :=
  c == '(' || c == '"' || c == '\'' || c.isDigit || Text.startsName c

/-- No operator goes on with such a character. -/
theorem clears_of_opensOperand {k : Kind} (hk : k ∈ Kind.operators) {c : Char}
    (hc : opensOperand c = true) : k.clears c = true := by
  have hall : (operatorEnds.all fun c => !opensOperand c) = true := by decide +kernel
  rw [List.all_eq_true] at hall
  refine clears_of_not_mem hk fun hm => ?_
  have hno := hall c hm
  rw [hc] at hno
  exact absurd hno (by decide)

/-- One operator clears another one behind it, but for a sign behind its like and a `*` behind a `*`. -/
theorem clears_of_leading (op next : UnaryOp) : ∀ c ∈ next.kind.spelling.head?,
    op.kind.clears c = true ∨ (op = .deref ∧ next = .deref) ∨
      (op.symbol.toList.getLast? = some c ∧ (c = '-' ∨ c = '+')) := by
  have hall : ∀ c ∈ next.kind.spelling.head?.toList,
      op.kind.clears c = true ∨ (op = .deref ∧ next = .deref) ∨
        (op.symbol.toList.getLast? = some c ∧ (c = '-' ∨ c = '+')) := by
    apply forall_mem_of_all
    cases op <;> cases next <;> decide
  exact fun c hc => hall c (Option.mem_toList.2 hc)

namespace Expr

/-- A literal is read back wherever it does not go on. -/
theorem legible_literal {value : Literal} (h : value.isPlain = true) {rest : List Char}
    (hr : Breaks rest) : value.word.Legible rest := by
  cases value with
  | int value => exact legible_int value hr
  | bool value =>
    cases value with
    | false => exact legible_keyword (k := .kwFalse) (by decide) nofun hr
    | true => exact legible_keyword (k := .kwTrue) (by decide) nofun hr
  | char value => exact legible_char value rest
  | string value => exact legible_string value rest
  | float value => exact absurd h nofun
  | bits digits => exact absurd h nofun

theorem text_literal {value : Literal} (h : value.isPlain = true) :
    (Print.literal value).toList = value.word.text := by
  cases value with
  | int value => rfl
  | bool value => cases value <;> rfl
  | char value => simp [Print.literal, escape, Literal.word, Word.char]
  | string value => simp [Print.literal, quoted, escape, Literal.word, Word.string]
  | float value => exact absurd h Bool.false_ne_true
  | bits digits => exact absurd h Bool.false_ne_true

theorem opensOperand_literal {value : Literal} (h : value.isPlain = true) :
    ∃ c text, value.word.text = c :: text ∧ opensOperand c = true := by
  cases value with
  | int value =>
    obtain ⟨c, text, hc⟩ := List.exists_cons_of_ne_nil (toDigits_ne_nil value.toNat)
    refine ⟨c, text, (text_int value).trans hc, ?_⟩
    have hd : c.isDigit = true := isDigit_of_mem_toDigits (by rw [hc]; exact List.mem_cons_self)
    unfold opensOperand
    rw [hd, Bool.or_true, Bool.true_or]
  | bool value => cases value <;> exact ⟨_, _, rfl, by decide +kernel⟩
  | char value => exact ⟨_, _, rfl, by decide +kernel⟩
  | string value => exact ⟨_, _, rfl, by decide +kernel⟩
  | float value => exact absurd h nofun
  | bits digits => exact absurd h nofun

/-- A text between parentheses or not starts like an operand if the text does. -/
theorem opensOperand_operand {least : Nat} {e : Expr} {text : String}
    (h : least ≤ e.strength → ∃ c more, text.toList = c :: more ∧ opensOperand c = true) :
    ∃ c more, (operand least e text).toList = c :: more ∧ opensOperand c = true := by
  unfold operand
  split
  · exact ⟨'(', (text ++ ")").toList, by simp, by decide⟩
  · exact h (by omega)

/-- No text is lost in front of another one. -/
theorem exists_head_append {text more : String} {P : Char → Prop}
    (h : ∃ c cs, text.toList = c :: cs ∧ P c) : ∃ c cs, (text ++ more).toList = c :: cs ∧ P c := by
  obtain ⟨c, cs, hc, hP⟩ := h
  exact ⟨c, cs ++ more.toList, by rw [String.toList_append, hc, List.cons_append], hP⟩

theorem precedence_le (op : BinaryOp) : op.precedence ≤ 11 := by
  cases op <;> decide

/-- A strong expression has no operator in front. -/
theorem Plain.opensOperand {e : Expr} (h : e.Plain) (hs : trailingStrength ≤ e.strength) (level : Nat) :
    ∃ c text, (e.print level).toList = c :: text ∧ opensOperand c = true := by
  induction h with
  | literal h =>
    obtain ⟨c, text, hc, ho⟩ := opensOperand_literal h
    exact ⟨c, text, (text_literal h).trans hc, ho⟩
  | identifier h =>
    obtain ⟨c, cs, hn, hc, -⟩ := exists_of_isName h
    refine ⟨c, cs, hn, ?_⟩
    unfold FluxFront.opensOperand
    rw [hc, Bool.or_true]
  | leading op h ih => exact absurd (show 16 ≤ 15 from hs) (by decide)
  | trailing hop h ih => exact exists_head_append (opensOperand_operand ih)
  | binary op hl hr =>
    have hp := precedence_le op
    have hs : 16 ≤ 3 + op.precedence := hs
    omega
  | assign op => exact absurd (show 16 ≤ 1 from hs) (by decide)
  | conditional => exact absurd (show 16 ≤ 2 from hs) (by decide)
  | call hc ha ihc =>
    refine exists_head_append (exists_head_append (exists_head_append (opensOperand_operand ?_)))
    exact fun hs => ihc (Nat.le_of_succ_le hs)
  | member ho hn iho =>
    refine exists_head_append (exists_head_append (opensOperand_operand ?_))
    exact fun hs => iho (Nat.le_of_succ_le hs)
  | subscript ho hi iho =>
    refine exists_head_append (exists_head_append (exists_head_append (opensOperand_operand ?_)))
    exact fun hs => iho (Nat.le_of_succ_le hs)

/-- Only an operator in front makes an expression as strong as that. -/
theorem Plain.exists_leading {e : Expr} (h : e.Plain) (hs : e.strength = leadingStrength) :
    ∃ op e₁ span id, e = ⟨.unary op e₁ .before, span, id⟩ ∧ Plain e₁ := by
  cases h with
  | leading op h => exact ⟨op, _, _, _, rfl, h⟩
  | binary op =>
    have hp := precedence_le op
    have hs : 3 + op.precedence = 15 := hs
    omega
  | literal | identifier => exact absurd (show 18 = 15 from hs) (by decide)
  | trailing => exact absurd (show 16 = 15 from hs) (by decide)
  | assign => exact absurd (show 1 = 15 from hs) (by decide)
  | conditional => exact absurd (show 2 = 15 from hs) (by decide)
  | call | member | subscript => exact absurd (show 17 = 15 from hs) (by decide)

/-- The text of an operand starts like one without an operator, or with an operator. -/
theorem Plain.head_operand {e : Expr} (h : e.Plain) (level : Nat) :
    ∃ c cs, (operand leadingStrength e (e.print level)).toList = c :: cs ∧
      (FluxFront.opensOperand c = true ∨
        ∃ next : UnaryOp, c ∈ next.kind.spelling.head? ∧ (next = .deref → e.isDeref = true)) := by
  by_cases hs : e.strength = leadingStrength
  · obtain ⟨next, e₁, span, id, rfl, -⟩ := h.exists_leading hs
    have htext : (operand leadingStrength ⟨.unary next e₁ .before, span, id⟩
        (print ⟨.unary next e₁ .before, span, id⟩ level)).toList = next.kind.spelling ++
          ((if merges next (operand leadingStrength e₁ (e₁.print level)) then " " else "")
            ++ operand leadingStrength e₁ (e₁.print level)).toList := by
      rw [← next.symbol_eq, ← String.toList_append, ← String.append_assoc]
      rfl
    obtain ⟨c, cs, hc⟩ : ∃ c cs, next.kind.spelling = c :: cs :=
      List.exists_cons_of_ne_nil (Kind.spelling_ne_nil next.kind_mem)
    rw [hc, List.cons_append] at htext
    refine ⟨c, _, htext, .inr ⟨next, by rw [hc]; rfl, ?_⟩⟩
    rintro rfl
    rfl
  · obtain ⟨c, cs, hc, ho⟩ := opensOperand_operand (e := e) fun hle =>
      h.opensOperand (Nat.lt_of_le_of_ne hle (Ne.symm hs)) level
    exact ⟨c, cs, hc, .inl ho⟩

/-- What clears an operator also does so with more text behind it. -/
theorem clears_append {k : Kind} {c : Char} {text cs : List Char} (hc : text = c :: cs)
    (h : k.clears c = true) (tail : List Char) :
    ∀ d more, text ++ tail = d :: more → k.clears d = true := by
  intro d more he
  rw [hc, List.cons_append] at he
  rw [← (List.cons.inj he).1]
  exact h

/-! ## Scanning a printed expression -/

theorem spells_operand {text : String} {ws : List Word} (h : Spells false text ws) (least : Nat)
    (e : Expr) : Spells false (operand least e text) (operandWords least e ws) := by
  unfold operand operandWords
  split
  · intro tail us _ hs
    have hclose : Writes false (')' :: tail) (.fixed .rightParen :: us) :=
      .final (k := .rightParen) (by decide) (by decide) nofun hs
    have hinside := h (')' :: tail) _ (.cons (by decide +kernel) tail) hclose
    have hopen : Writes false ('(' :: (text.toList ++ ')' :: tail))
        (.fixed .leftParen :: (ws ++ .fixed .rightParen :: us)) :=
      .final (k := .leftParen) (by decide) (by decide) nofun hinside
    simpa using hopen
  · exact h

/-- An operator with a blank on either side. -/
theorem writes_between {k : Kind} (hk : k ∈ Kind.operators ∨ k = .kwIs) {text : List Char}
    {ws : List Word} (h : Writes false text ws) :
    Writes false (' ' :: (k.spelling ++ ' ' :: text)) (.fixed k :: ws) := by
  refine .blank (by decide) ?_
  rcases hk with hk | rfl
  · exact .spaced hk nofun h
  · exact .word (legible_keyword (k := .kwIs) (by decide) nofun (.blank text)) nofun
      (.blank (by decide) h)

/-- Two operands with an operator between them. -/
theorem spells_between {l r symbol : String} {lw rw : List Word} {k : Kind}
    (hl : Spells false l lw) (hr : Spells false r rw) (hs : symbol.toList = k.spelling)
    (hk : k ∈ Kind.operators ∨ k = .kwIs) :
    Spells false (l ++ " " ++ symbol ++ " " ++ r) (lw ++ .fixed k :: rw) := by
  intro tail us hb ht
  have hright := writes_between hk (hr tail us hb ht)
  have hall := hl _ _ (.blank _) hright
  simpa [hs] using hall

theorem printList_eq (es : List Expr) (level : Nat) : printList es level = es.map (·.print level) := by
  induction es with
  | nil => rfl
  | cons e more ih => exact congrArg (e.print level :: ·) ih

theorem wordsEach_eq (es : List Expr) : wordsEach es = es.map words := by
  induction es with
  | nil => rfl
  | cons e more ih => exact congrArg (e.words :: ·) ih

/-- An operator and its operand: the printer leaves a blank where the two would merge. -/
theorem spells_leading {op : UnaryOp} {e : Expr} (hd : ¬ (op = .deref ∧ e.isDeref = true))
    (h : e.Plain) (level : Nat)
    (ih : Spells false (operand leadingStrength e (e.print level))
      (operandWords leadingStrength e e.words)) :
    Spells false (leading op (operand leadingStrength e (e.print level)))
      (.fixed op.kind :: operandWords leadingStrength e e.words) := by
  intro tail us hb hs
  have hoperand := ih tail us hb hs
  obtain ⟨c, cs, hc, hhead⟩ := h.head_operand level
  by_cases hm : merges op (operand leadingStrength e (e.print level)) = true
  · have hall : Writes false _ _ := .spaced op.kind_mem nofun hoperand
    simpa [leading, hm, op.symbol_eq] using hall
  · have hclear : op.kind.clears c = true := by
      rcases hhead with ho | ⟨next, hn, hderef⟩
      · exact clears_of_opensOperand op.kind_mem ho
      · rcases clears_of_leading op next c hn with hk | ⟨rfl, rfl⟩ | ⟨hlast, hsign⟩
        · exact hk
        · exact absurd ⟨rfl, hderef rfl⟩ hd
        · refine absurd ?_ hm
          unfold merges
          rw [hlast, hc]
          rcases hsign with rfl | rfl <;> rfl
    have hall : Writes false _ _ := .operator op.kind_mem nofun (clears_append hc hclear tail) hoperand
    simpa [leading, hm, op.symbol_eq] using hall

/-- Two dereferences and their operand. -/
theorem spells_double {e : Expr} (h : e.Plain) (level : Nat)
    (ih : Spells false (operand leadingStrength e (e.print level))
      (operandWords leadingStrength e e.words)) :
    Spells false ("*" ++ ("*" ++ operand leadingStrength e (e.print level)))
      (.fixed .starStar :: operandWords leadingStrength e e.words) := by
  intro tail us hb hs
  have hoperand := ih tail us hb hs
  obtain ⟨c, cs, hc, hhead⟩ := h.head_operand level
  have hclear : Kind.starStar.clears c = true := by
    rcases hhead with ho | ⟨next, hn, -⟩
    · exact clears_of_opensOperand (by decide) ho
    · have hall : ∀ d ∈ next.kind.spelling.head?.toList, Kind.starStar.clears d = true := by
        apply forall_mem_of_all
        cases next <;> decide
      exact hall c (Option.mem_toList.2 hn)
  have hall : Writes false _ _ :=
    .operator (k := .starStar) (by decide) nofun (clears_append hc hclear tail) hoperand
  simp only [String.toList_append, List.append_assoc, List.cons_append]
  exact hall

/-- A text between brackets behind another one. -/
theorem spells_bracketed {l inside opening closing : String} {lw iw : List Word} {o c : Kind}
    (hl : Spells false l lw) (hi : Spells false inside iw) (ho : opening.toList = o.spelling)
    (hc : closing.toList = c.spelling) (hok : o = .leftParen ∨ o = .leftBracket)
    (hck : c = .rightParen ∨ c = .rightBracket) :
    Spells false (l ++ opening ++ inside ++ closing) (lw ++ .fixed o :: (iw ++ [.fixed c])) := by
  intro tail us hb ht
  have hclose : Writes false (c.spelling ++ tail) (.fixed c :: us) := by
    rcases hck with rfl | rfl <;> exact .final (by decide) (by decide) nofun ht
  have hinside := hi (c.spelling ++ tail) _ (by
    rcases hck with rfl | rfl <;> exact .cons (by decide +kernel) tail) hclose
  have hopen : Writes false (o.spelling ++ (inside.toList ++ (c.spelling ++ tail)))
      (.fixed o :: (iw ++ .fixed c :: us)) := by
    rcases hok with rfl | rfl <;> exact .final (by decide) (by decide) nofun hinside
  have hall := hl _ _ (by
    rcases hok with rfl | rfl <;> exact .cons (by decide +kernel) _) hopen
  simpa [ho, hc] using hall

/-- **A printed expression is read as its words.** -/
theorem Plain.spells {e : Expr} (h : e.Plain) (level : Nat) : Spells false (e.print level) e.words := by
  induction h using Plain.induct with
  | literal h =>
    intro tail us hb ht
    have hall : Writes false _ _ := .word (legible_literal h hb) nofun ht
    rwa [← text_literal h] at hall
  | identifier h => exact fun tail us hb ht => .word (legible_isName h hb) nofun ht
  | double h ih => exact spells_double h level (spells_operand ih leadingStrength _)
  | @leading op e span id hd h ih =>
    rw [words_leading hd]
    exact spells_leading hd h level (spells_operand ih leadingStrength e)
  | @trailing op e span id hop h ih =>
    intro tail us hb ht
    have hfinal : Writes false (op.kind.spelling ++ tail) (.fixed op.kind :: us) := by
      rcases hop with rfl | rfl <;> exact .final (by decide) (by decide) nofun ht
    have hall := spells_operand ih trailingStrength e _ _ (by
      rcases hop with rfl | rfl <;> exact .cons (by decide +kernel) _) hfinal
    simpa [print, words, op.symbol_eq] using hall
  | @binary op l r span id hl hr ihl ihr =>
    exact spells_between (spells_operand ihl _ l) (spells_operand ihr _ r) op.symbol_eq op.kind_mem
  | @assign op target value span id ht ha hv iht ihv =>
    exact spells_between (spells_operand iht _ target) (spells_operand ihv _ value) op.symbol_eq
      (.inl op.kind_mem)
  | @conditional c t e span id hc ht he ihc iht ihe =>
    intro tail us hb hs
    have helse := writes_between (k := .colon) (.inl (by decide))
      (spells_operand ihe conditionalStrength e tail us hb hs)
    have hthen := spells_operand iht assignStrength t _ _ (.blank _) helse
    have hquestion := writes_between (k := .question) (.inl (by decide)) hthen
    have hall := spells_operand ihc (binaryStrength .or) c _ _ (.blank _) hquestion
    simp only [print, words, String.toList_append, List.append_assoc, List.cons_append]
    exact hall
  | @call callee args span id hc ha ihc iha =>
    have hargs := spells_separated (f := (Expr.print · level)) iha
    rw [← printList_eq, ← wordsEach_eq] at hargs
    exact spells_bracketed (spells_operand ihc callStrength callee) hargs rfl rfl (.inl rfl) (.inl rfl)
  | @member object name span id ho hn iho =>
    intro tail us hb ht
    have hname : Writes false _ _ := .word (legible_isName hn hb) nofun ht
    have hdot : Writes false ('.' :: (name.toList ++ tail)) (.fixed .dot :: .name name :: us) :=
      .final (k := .dot) (by decide) (by decide) nofun hname
    have hbreak : Breaks ('.' :: (name.toList ++ tail)) := by
      obtain ⟨c, cs, hcs, hc, -⟩ := exists_of_isName hn
      rw [hcs]
      exact .dot (blank_digit_of_startsName hc).2
    have hall := spells_operand iho callStrength object _ _ hbreak hdot
    simpa [print, words] using hall
  | @subscript object index span id ho hi iho ihi =>
    exact spells_bracketed (spells_operand iho callStrength object) ihi rfl rfl (.inr rfl) (.inr rfl)

end Expr

end FluxFront
