import FluxFront.Proofs.ExprReading

/-!
# Chains of operands

Expressions without parentheses: operands with binary operators between them, none of which is a power.

* **Specification**: `Chain.expr` builds the expression from left to right.  An operator that binds more
  strongly than the last one takes the last operand away from it (`Expr.attach`); any other operator takes
  the whole expression in front of it.
* **Theorem**: the grammar reads the words of a chain as this expression, and needs no room for it, however
  long the chain is (`Chain.holds`).
* **Crux**: in the expressions that come about, every left operand is as strong as its operator and every right
  operand is stronger (`Strung`).  So each of them is read in the loop of its own rung.
-/

namespace FluxFront

open Token (Word Numeral)
open Print (binaryStrength)

/-! ## Chains -/

/-- An operand that stands by itself: a name, or an integer literal. -/
inductive Chain.Operand
  | name (text : String) (h : Token.isName text = true)
  | numeral (n : Numeral)

namespace Chain.Operand

/-- The expression of an operand. -/
def expr : Operand → Expr
  | .name text _ => ⟨.identifier text, default, default⟩
  | .numeral n => ⟨.literal (.int n.value), default, default⟩

/-- The word of an operand. -/
def word : Operand → Word
  | .name text _ => .name text
  | .numeral n => n.word

end Chain.Operand

/-- An operator and the operand behind it. -/
structure Chain.Link where
  op : BinaryOp
  notPower : op ≠ .power
  operand : Chain.Operand

/-- The words of a link. -/
def Chain.Link.words (l : Link) : List Word := [.fixed l.op.kind, l.operand.word]

/-- Operands with operators between them. -/
structure Chain where
  first : Chain.Operand
  links : List Chain.Link

/-- An expression with one more operator and its operand behind it.  An operator that binds more strongly
than the one in front of it takes the operand between them. -/
def Expr.attach : Expr → BinaryOp → Expr → Expr
  | ⟨.binary op l r, span, id⟩, op', operand =>
    if op.precedence < op'.precedence then ⟨.binary op l (r.attach op' operand), span, id⟩
    else ⟨.binary op' ⟨.binary op l r, span, id⟩ operand, default, default⟩
  | e, op', operand => ⟨.binary op' e operand, default, default⟩

namespace Chain

/-- The expression of a chain, without spans and identities. -/
def expr (c : Chain) : Expr := c.links.foldl (fun e l => e.attach l.op l.operand.expr) c.first.expr

/-- The words of a chain. -/
def words (c : Chain) : List Word := c.first.word :: c.links.flatMap Link.words

end Chain

/-! ## Strength -/

namespace Grammar

/-- The words of an expression of operands and operators in which every operand is as strong as its place
asks for. -/
inductive Strung : Expr → List Word → Prop
  | operand (o : Chain.Operand) : Strung o.expr [o.word]
  | binary {op : BinaryOp} {l r : Expr} {lw rw : List Word} (hop : op ≠ .power)
      (hle : binaryStrength op ≤ l.strength) (hlt : binaryStrength op < r.strength) (hl : Strung l lw)
      (hr : Strung r rw) : Strung ⟨.binary op l r, default, default⟩ (lw ++ .fixed op.kind :: rw)

theorem strength_operand (o : Chain.Operand) : o.expr.strength = 18 := by
  cases o <;> rfl

theorem strength_binary (op : BinaryOp) (l r : Expr) :
    Expr.strength ⟨.binary op l r, default, default⟩ = binaryStrength op := rfl

/-- An operand is stronger than every operator. -/
theorem lt_strength_operand (op : BinaryOp) (o : Chain.Operand) : binaryStrength op < o.expr.strength := by
  have hbound := Expr.precedence_le op
  rw [strength_operand]
  unfold binaryStrength
  omega

/-- An operand is not taken apart. -/
theorem attach_operand (o : Chain.Operand) (op : BinaryOp) (e : Expr) :
    o.expr.attach op e = ⟨.binary op o.expr e, default, default⟩ := by
  cases o <;> rfl

namespace Strung

variable {e : Expr} {ws : List Word}

/-- With one more operator an expression is as strong as before or as the operator. -/
theorem strength_attach (h : Strung e ws) (op : BinaryOp) (o : Chain.Operand) :
    (e.attach op o.expr).strength = min e.strength (binaryStrength op) := by
  cases h with
  | operand o' =>
    have hlt := lt_strength_operand op o'
    rw [attach_operand, strength_binary]
    omega
  | binary hop hle hlt hl hr =>
    unfold Expr.attach
    split
    · rw [strength_binary, strength_binary]
      unfold binaryStrength
      omega
    · rw [strength_binary, strength_binary]
      unfold binaryStrength
      omega

/-- Every operand stays as strong as its place asks for. -/
theorem attach (h : Strung e ws) {op : BinaryOp} (hop : op ≠ .power) (o : Chain.Operand) :
    Strung (e.attach op o.expr) (ws ++ [.fixed op.kind, o.word]) := by
  have hoperand := lt_strength_operand op o
  induction h with
  | operand o' =>
    rw [attach_operand]
    exact binary hop (Nat.le_of_lt (lt_strength_operand op o')) hoperand (.operand o') (.operand o)
  | binary hop' hle hlt hl hr ihl ihr =>
    unfold Expr.attach
    split
    · -- the stronger operator takes the operand on the right, and what it makes of it is still strong enough
      rw [List.append_assoc, List.cons_append]
      apply binary hop' hle _ hl ihr
      rw [hr.strength_attach]
      unfold binaryStrength at hlt ⊢
      omega
    · apply binary hop _ hoperand (.binary hop' hle hlt hl hr) (.operand o)
      rw [strength_binary]
      unfold binaryStrength
      omega

/-- The words are read as the expression on every rung up to its strength. -/
theorem holds {inner : Level} (hi : inner.Steady) (h : Strung e ws) :
    Holds inner e.strength ws fun e' => e'.bare = e := by
  induction h with
  | operand o =>
    rw [strength_operand]
    have hread : ReadsAs inner 18 [o.word] fun e' => e'.bare = o.expr := by
      cases o with
      | name text h =>
        apply reads_identifier.mono
        rintro ⟨_, span, id⟩ rfl
        rfl
      | numeral n =>
        have hvalue : ReadsAs inner 18 [n.word] fun e => e.form = .literal (.int n.value) :=
          reads_literal rfl rfl rfl
        apply hvalue.mono
        rintro ⟨_, span, id⟩ rfl
        rfl
    have hheaded : Headed [o.word] := by
      cases o with
      | name | numeral => exact ⟨_, _, rfl, nofun, rfl⟩
    exact .of_reads hi (Nat.le_refl 18) (fun _ => hheaded) hread fun h => absurd h (by decide)
  | @binary op l r lw rw hop hle hlt hl hr ihl ihr =>
    obtain ⟨hprec, hloop⟩ := left_associative hop
    have hlead : LeadsTo inner (binaryStrength op) (lw ++ .fixed op.kind :: rw)
        fun e' => e'.bare = ⟨.binary op l r, default, default⟩ := by
      apply (ihl.leads hloop hle).binary hi hprec (ihr.reads (Nat.succ_pos _) hlt)
      intro l' r' hl' hr' span id
      rw [Expr.bare_binary, hl', hr']
    refine .of_leads hi hloop (fun hn => ?_) hlead
    have hn : 16 ≤ 3 + op.precedence := hn
    omega

end Strung

end Grammar

/-! ## Reading chains -/

namespace Chain

open Grammar

/-- The operators of a chain are attached one by one. -/
theorem strung (c : Chain) : Strung c.expr c.words := by
  have hlinks : ∀ (links : List Link) (e : Expr) (ws : List Word), Strung e ws →
      Strung (links.foldl (fun e l => e.attach l.op l.operand.expr) e) (ws ++ links.flatMap Link.words) := by
    intro links
    induction links with
    | nil =>
      intro e ws h
      rwa [List.flatMap_nil, List.append_nil]
    | cons l links ih =>
      intro e ws h
      rw [List.foldl_cons, List.flatMap_cons, ← List.append_assoc]
      exact ih _ _ (h.attach l.notPower l.operand)
  exact hlinks c.links _ _ (.operand c.first)

/-- **A chain is read as its expression**, on every rung up to its strength and on every level. -/
theorem holds {inner : Level} (hi : inner.Steady) (c : Chain) :
    Holds inner c.expr.strength c.words fun e => e.bare = c.expr := c.strung.holds hi

end Chain

end FluxFront
