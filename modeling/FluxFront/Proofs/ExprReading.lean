import FluxFront.Proofs.CastAhead
import FluxFront.Query
import FluxFront.Tree.Shape

/-!
# Reading the words of an expression

The grammar has one production for each strength of the printer.  `rung inner n` is the production that
reads expressions of strength `n` and more, from assignments at the bottom to primaries at the top.
The operators that a rung loops over are listed by the grammar; that they are the printer's operators
of this strength is `contains_operatorsOf`.

* **Specification**: `ReadsAs inner n ws e` says that rung `n` reads the words `ws` as an expression of the
  shape of `e`, in front of everything that does not go on with an expression on this rung.
* **Loops**: most rungs read an expression of the next rung and then go on as long as they can, so that
  an operand on the left may be as weak as the whole.  `LeadsTo inner n ws e` says that reading `ws` leads
  to the loop of rung `n` with an expression of the shape of `e`; then the loop may go on with the rest.
* **Room**: an operand in parentheses or behind an operator that groups to the right is read one level
  further in.  Two levels for each node are enough.
-/

namespace FluxFront.Grammar

open Token (Kind Word)
open Print (binaryStrength)

/-! ## Rungs -/

/-- The production for expressions of a strength and more. -/
def rung (inner : Level) (n : Nat) : Parser Expr :=
  if n ≤ 1 then expressionBody inner
  else if n = 2 then conditionalBody inner
  else if n ≤ 14 then (operatorLevels.drop (n - 4)).foldr leftAssociative (powerBody inner)
  else if n = 15 then unaryBody inner
  else if n = 16 then trailing inner
  else if n = 17 then callChain inner
  else primary inner

/-- The binary operators that a rung reads in its loop. -/
def operatorsOf (n : Nat) : List Kind := operatorLevels.getD (n - 4) []

theorem contains_operatorsOf {k : Kind} {op : BinaryOp} (h : binaryOp? k = some op) {n : Nat}
    (hn : 4 ≤ n ∧ n ≤ 13) : (operatorsOf n).contains k = true ↔ binaryStrength op = n := by
  have hlt : n - 4 < operatorLevels.length := show n - 4 < 10 by omega
  rw [List.contains_iff_mem, operatorsOf, ← List.getElem_eq_getD (h := hlt), mem_operatorLevels h _ hlt]
  unfold binaryStrength
  omega

/-- How strongly a token goes on with the expression in front of it; zero if it does not. -/
def pull (k : Kind) : Nat :=
  match k with
  | .leftParen | .dot | .leftBracket => 17
  | .plusPlus | .minusMinus => 16
  | .question => 2
  | k =>
    match binaryOp? k with
    | some op => binaryStrength op
    | none => if (assignOp? k).isSome then 1 else 0

/-- The words do not go on with an expression on a rung. -/
def Stops (n : Nat) (rest : List Word) : Prop := ∃ w ws, rest = w :: ws ∧ pull w.kind < n

theorem Stops.mono {m n : Nat} {rest : List Word} (h : Stops n rest) (hle : n ≤ m) : Stops m rest := by
  obtain ⟨w, ws, hr, hw⟩ := h
  exact ⟨w, ws, hr, by omega⟩

/-- The rungs that read an expression of the next one and then go on in a loop. -/
def loopRungs : List Nat := [4, 5, 6, 7, 8, 9, 10, 11, 12, 13, 16, 17]

/-- One round of the loop of a rung. -/
def goOn (inner : Level) (n : Nat) (start : Location) (e : Expr) : Parser (Option Expr) :=
  if n ≤ 13 then joined? (operatorsOf n) (rung inner (n + 1)) start e
  else if n = 16 then trailed? start e
  else chained? inner start e

theorem rung_loop {inner : Level} {n : Nat} (hn : n ∈ loopRungs) :
    rung inner n = (do
      let start ← here
      let e ← rung inner (n + 1)
      iterate (goOn inner n start) e) := by
  have hall : ∀ n ∈ loopRungs, n = 4 ∨ n = 5 ∨ n = 6 ∨ n = 7 ∨ n = 8 ∨ n = 9 ∨ n = 10 ∨ n = 11 ∨
      n = 12 ∨ n = 13 ∨ n = 16 ∨ n = 17 := by decide
  rcases hall n hn with rfl | rfl | rfl | rfl | rfl | rfl | rfl | rfl | rfl | rfl | rfl | rfl <;> rfl

theorem steady_rung {inner : Level} (hi : inner.Steady) (n : Nat) : Steady True (rung inner n) := by
  unfold rung
  refine .ite (steady_expressionBody hi) (.ite (steady_conditionalBody hi) (.ite ?_ (.ite ?_ ?_)))
  · exact steady_levels hi _
  · exact steady_unaryBody hi
  · exact .ite (steady_trailing hi) (.ite (steady_callChain hi) (steady_primary hi))

theorem round_goOn {inner : Level} (hi : inner.Steady) (n : Nat) (start : Location) (e : Expr) :
    Round True (goOn inner n start e) := by
  unfold goOn
  split
  · exact round_joined _ (steady_rung hi _) start e
  · split
    · exact round_trailed start e
    · exact round_chained hi start e

/-! ## What goes on with an expression -/

theorem pull_binary {k : Kind} {op : BinaryOp} (h : binaryOp? k = some op) :
    pull k = binaryStrength op := by
  unfold pull
  split
  case h_7 => rw [h]
  all_goals exact nomatch h

theorem pull_assign {k : Kind} {op : AssignOp} (h : assignOp? k = some op) : pull k = 1 := by
  unfold assignOp? at h
  split at h
  all_goals first | rfl | exact nomatch h

theorem pull_trailing {k : Kind} {op : UnaryOp} (h : trailingOp? k = some op) : pull k = 16 := by
  unfold trailingOp? at h
  split at h
  all_goals first | rfl | exact nomatch h

/-- A token that pulls less than a rung ends its loop. -/
theorem gives_goOn_stop {inner : Level} {n : Nat} (hn : n ∈ loopRungs) {w : Word} {ws : List Word}
    (hw : pull w.kind < n) (start : Location) (e : Expr) :
    Gives false (goOn inner n start e) (w :: ws) (w :: ws) (· = none) := by
  have hfour : ∀ n ∈ loopRungs, 4 ≤ n ∧ n ≤ 17 := by decide
  have hbounds := hfour n hn
  unfold goOn
  split
  · refine .kind w.shown_false ?_
    split
    case h_1 op hop =>
      obtain ⟨hop, hk⟩ := Option.filter_eq_some_iff.1 hop
      have hpull := pull_binary hop
      have hstrength := (contains_operatorsOf hop ⟨hbounds.1, ‹n ≤ 13›⟩).1 hk
      omega
    case h_2 => exact .pure rfl
  · split
    · refine .kind w.shown_false ?_
      split
      case h_1 op hop =>
        have hpull := pull_trailing hop
        omega
      case h_2 => exact .pure rfl
    · refine .kind w.shown_false ?_
      split
      case h_1 hk | h_2 hk | h_3 hk =>
        have hpull : pull w.kind = 17 := by rw [hk]; rfl
        omega
      case h_4 => exact .pure rfl

/-! ## Reading and leading -/

/-- A rung reads the words as an expression with a property. -/
def ReadsAs (inner : Level) (n : Nat) (ws : List Word) (R : Expr → Prop) : Prop :=
  ∀ rest, Stops n rest → Gives false (rung inner n) (ws ++ rest) rest R

/-- Reading the words leads to the loop of a rung with an expression that has a property. -/
def LeadsTo (inner : Level) (n : Nat) (ws : List Word) (R : Expr → Prop) : Prop :=
  ∀ rest after Q, Stops (n + 1) rest →
    (∀ e start, R e → Gives false (iterate (goOn inner n start) e) rest after Q) →
    Gives false (rung inner n) (ws ++ rest) after Q

variable {inner : Level} {n : Nat} {ws : List Word} {R : Expr → Prop}

theorem ReadsAs.mono {Q : Expr → Prop} (h : ReadsAs inner n ws R) (hQ : ∀ e, R e → Q e) :
    ReadsAs inner n ws Q := fun rest hstop => (h rest hstop).mono hQ

theorem ReadsAs.leads (hn : n ∈ loopRungs) (h : ReadsAs inner (n + 1) ws R) : LeadsTo inner n ws R := by
  intro rest after Q hstop hmore
  rw [rung_loop hn]
  exact .here fun start => (h rest hstop).bind fun e' he' => hmore e' start he'

theorem LeadsTo.reads (hi : inner.Steady) (hn : n ∈ loopRungs) (h : LeadsTo inner n ws R) :
    ReadsAs inner n ws R := by
  intro rest hstop
  refine h rest rest _ (hstop.mono (Nat.le_succ n)) fun e' start he' => ?_
  obtain ⟨w, more, rfl, hw⟩ := hstop
  exact .iterate_stop (round_goOn hi n start) (gives_goOn_stop hn hw start e') he'

/-- The words do not start with an operator in front of an operand. -/
def Headed (ws : List Word) : Prop :=
  ∃ w more, ws = w :: more ∧ w.kind ≠ .starStar ∧ leadingOp? w.kind = none

/-- What is read on a rung is read on the next lower one. -/
theorem ReadsAs.lower (hi : inner.Steady) (h : ReadsAs inner (n + 1) ws R) (hn : 1 ≤ n ∧ n ≤ 17)
    (hw : n = 15 → Headed ws) : ReadsAs inner n ws R := by
  by_cases hloop : n ∈ loopRungs
  · exact (h.leads hloop).reads hi hloop
  · have hcases : n = 1 ∨ n = 2 ∨ n = 3 ∨ n = 14 ∨ n = 15 := by
      have hall : ∀ n < 18, 1 ≤ n → n ∉ loopRungs → n = 1 ∨ n = 2 ∨ n = 3 ∨ n = 14 ∨ n = 15 := by
        decide
      exact hall n (by omega) hn.1 hloop
    intro rest hstop
    have hread := h rest (hstop.mono (Nat.le_succ n))
    obtain ⟨w, more, rfl, hpull⟩ := hstop
    rcases hcases with rfl | rfl | rfl | rfl | rfl
    · refine .here fun start => hread.bind fun e' he' => .kind w.shown_false ?_
      cases ha : assignOp? w.kind with
      | none => exact .pure he'
      | some op =>
        have hone := pull_assign ha
        omega
    · refine .here fun start => hread.bind fun e' he' => .accept_neg w.shown_false ?_ (.pure he')
      intro hk
      rw [hk] at hpull
      exact absurd hpull (by decide)
    · exact hread
    · refine .here fun start => hread.bind fun e' he' => .accept_neg w.shown_false ?_ (.pure he')
      intro hk
      rw [hk] at hpull
      exact absurd hpull (by decide)
    · obtain ⟨u, us, rfl, hstar, hlead⟩ := hw rfl
      refine .here fun start => .kind u.shown_false ?_
      rw [if_neg (by simpa using hstar), hlead]
      exact hread

/-! ## Holding together -/

/-- The words are read as an expression on every rung up to one of them, and lead to each loop on the
way. -/
structure Holds (inner : Level) (top : Nat) (ws : List Word) (R : Expr → Prop) : Prop where
  reads : ∀ {n}, 1 ≤ n → n ≤ top → ReadsAs inner n ws R
  leads : ∀ {n}, n ∈ loopRungs → n ≤ top → LeadsTo inner n ws R

namespace Holds

variable {top : Nat}

theorem mono {m : Nat} (h : Holds inner top ws R) (hm : m ≤ top) : Holds inner m ws R :=
  ⟨fun h₁ hn => h.reads h₁ (Nat.le_trans hn hm), fun h₁ hn => h.leads h₁ (Nat.le_trans hn hm)⟩

/-- What is read on a rung holds up to it. -/
theorem of_reads (hi : inner.Steady) (htop : top ≤ 18) (hw : 16 ≤ top → Headed ws)
    (h : ReadsAs inner top ws R) (hlead : top ∈ loopRungs → LeadsTo inner top ws R) :
    Holds inner top ws R := by
  -- downward from the top, rung by rung
  have below : ∀ k n, n + k = top → 1 ≤ n → ReadsAs inner n ws R := by
    intro k
    induction k with
    | zero =>
      rintro n rfl -
      exact h
    | succ k ih =>
      intro n hn hpos
      exact (ih (n + 1) (by omega) (by omega)).lower hi (by omega) fun h15 => hw (by omega)
  have reads : ∀ {n}, 1 ≤ n → n ≤ top → ReadsAs inner n ws R := fun {n} hpos hn =>
    below (top - n) n (by omega) hpos
  refine ⟨reads, fun {n} hn hle => ?_⟩
  rcases Nat.lt_or_eq_of_le hle with hlt | rfl
  · exact (reads (Nat.succ_pos n) hlt).leads hn
  · exact hlead hn

/-- What leads to the loop of a rung holds up to it. -/
theorem of_leads (hi : inner.Steady) (hn : n ∈ loopRungs) (hw : 16 ≤ n → Headed ws)
    (h : LeadsTo inner n ws R) : Holds inner n ws R := by
  have hbound : ∀ n ∈ loopRungs, n ≤ 18 := by decide
  exact of_reads hi (hbound n hn) hw (h.reads hi hn) fun _ => h

end Holds

/-- One more round of the loop of a rung. -/
theorem LeadsTo.append (hi : inner.Steady) (h : LeadsTo inner n ws R) {u : Word} {us : List Word}
    {R₁ : Expr → Prop} (hu : pull u.kind ≤ n)
    (hround : ∀ rest e start, Stops (n + 1) rest → R e →
      Gives false (goOn inner n start e) (u :: us ++ rest) rest
        fun o => ∃ next, o = some next ∧ R₁ next) :
    LeadsTo inner n (ws ++ u :: us) R₁ := by
  intro rest after Q hstop hmore
  rw [List.append_assoc]
  refine h _ after Q ⟨u, us ++ rest, rfl, Nat.lt_succ_of_le hu⟩ fun e' start he' => ?_
  refine .iterate_step (round_goOn hi n start) ((hround rest e' start hstop he').mono ?_)
  rintro o ⟨next, ho, hnext⟩
  exact ⟨next, ho, hmore next start hnext⟩

/-! ## Operands -/

/-- The first word of a printed expression. -/
theorem exists_head {e : Expr} (h : e.Plain) :
    ∃ w more, e.words = w :: more ∧ w.kind ∈ .identifier :: .star :: .starStar :: operandStarts := by
  have hexp : Expects true (e.words ++ [.fixed .rightParen]) := expects_words h (.close rfl)
  cases hw : e.words with
  | nil =>
    rw [hw] at hexp
    exact absurd (by decide) hexp.kind_not_mem
  | cons w more =>
    rw [hw] at hexp
    exact ⟨w, more, rfl, hexp.kind_mem⟩

theorem headed_paren (ws : List Word) : Headed (.fixed .leftParen :: ws) :=
  ⟨_, _, rfl, nofun, rfl⟩

theorem headed_operand {e : Expr} {least : Nat} {more : List Word}
    (h : least ≤ e.strength → Headed e.words) : Headed (e.operandWords least e.words ++ more) := by
  unfold Expr.operandWords
  split
  · exact headed_paren _
  · obtain ⟨w, us, hw, hk⟩ := h (by omega)
    exact ⟨w, us ++ more, by rw [hw, List.cons_append], hk⟩

/-- A strong expression has no operator in front. -/
theorem headed_words {e : Expr} (h : e.Plain) (hs : 16 ≤ e.strength) : Headed e.words := by
  induction h with
  | @literal value span id h =>
    refine ⟨_, _, rfl, ?_⟩
    cases value with
    | bool value => cases value <;> exact ⟨nofun, rfl⟩
    | _ => exact ⟨nofun, rfl⟩
  | identifier h => exact ⟨_, _, rfl, nofun, rfl⟩
  | leading op h ih => exact absurd (show 16 ≤ 15 from hs) (by decide)
  | trailing hop h ih =>
    rw [Expr.words]
    exact headed_operand ih
  | binary op hl hr =>
    have hp := Expr.precedence_le op
    have hs : 16 ≤ 3 + op.precedence := hs
    omega
  | assign op => exact absurd (show 16 ≤ 1 from hs) (by decide)
  | conditional => exact absurd (show 16 ≤ 2 from hs) (by decide)
  | call hc ha ihc => exact headed_operand fun hle => ihc (Nat.le_of_succ_le hle)
  | member ho hn iho => exact headed_operand fun hle => iho (Nat.le_of_succ_le hle)
  | subscript ho hi iho => exact headed_operand fun hle => iho (Nat.le_of_succ_le hle)

theorem strength_pos (e : Expr) : 1 ≤ e.strength := by
  unfold Expr.strength
  split
  case h_3 op _ _ => exact Nat.le_add_right_of_le (show 1 ≤ 3 by decide)
  all_goals decide

variable {limit room : Nat}

/-- Two expressions of one shape. -/
abbrev Alike (e e' : Expr) : Prop := e'.shape = e.shape

/-! ### One level further in -/

theorem expression_succ : (grammar limit (room + 1)).expression = rung (grammar limit room) 1 :=
  delay_eq fun _ => expressionBody (grammar limit room)

theorem conditional_succ : (grammar limit (room + 1)).conditional = rung (grammar limit room) 2 :=
  delay_eq fun _ => conditionalBody (grammar limit room)

theorem power_succ : (grammar limit (room + 1)).power = rung (grammar limit room) 14 :=
  delay_eq fun _ => powerBody (grammar limit room)

theorem unary_succ : (grammar limit (room + 1)).unary = rung (grammar limit room) 15 :=
  delay_eq fun _ => unaryBody (grammar limit room)

theorem ReadsAs.expression (h : ReadsAs (grammar limit room) 1 ws R) {rest : List Word}
    (hstop : Stops 1 rest) :
    Gives false (grammar limit (room + 1)).expression (ws ++ rest) rest R := by
  rw [expression_succ]
  exact h rest hstop

/-! ### Room for operands -/

/-- An expression holds together as strongly as the printer says, if there is room for it. -/
def HoldsWithin (limit : Nat) (e : Expr) : Prop :=
  ∀ room, 2 * e.size ≤ room + 2 → Holds (grammar limit room) e.strength e.words (Alike e)

/-- There is room for an operand, in parentheses if need be. -/
def Fits (room : Nat) (e : Expr) : Prop := 2 * e.size ≤ room + 1

theorem Fits.succ {e : Expr} (h : Fits room e) : Fits (room + 1) e := Nat.le_succ_of_le h

/-- A weak expression between parentheses is a primary. -/
theorem reads_group {e : Expr} (h : e.Plain) (hweak : isWeak e = true)
    (hread : ReadsAs (grammar limit room) 1 e.words (Alike e)) :
    ReadsAs (grammar limit (room + 1)) 18 (.fixed .leftParen :: (e.words ++ [.fixed .rightParen]))
      (Alike e) := by
  intro rest hstop
  rw [List.cons_append, List.append_assoc]
  have hexp : Expects false (e.words ++ .fixed .rightParen :: rest) :=
    expects_words h (by rw [hweak]; exact .close rfl)
  have hi := grammar_steady limit (room + 1)
  refine .kind (Word.shown_false _) (.here fun start => ?_)
  refine .bind (gives_castAhead hi.skim (skims_grammar limit (room + 1)) rfl hexp) ?_
  rintro _ rfl
  refine .advance (Word.shown_false _) nofun fun _ _ => ?_
  refine .bind (hread.expression ⟨_, _, rfl, by decide⟩) fun e' he' => ?_
  refine .consume (Word.shown_false _) rfl nofun (.node fun span id => ?_)
  rw [Alike, Expr.shape_group, he']

namespace HoldsWithin

variable {e : Expr} {least : Nat}

/-- An operand holds together as strongly as the place it stands in asks for. -/
theorem operand (ih : HoldsWithin limit e) (h : e.Plain) (hfit : Fits room e) (hleast : least ≤ 17) :
    Holds (grammar limit room) least (e.operandWords least e.words) (Alike e) := by
  have hpos : 0 < e.size := Node.size_pos (.expression e)
  unfold Fits at hfit
  unfold Expr.operandWords
  split
  case isTrue hlt =>
    obtain ⟨room, rfl⟩ : ∃ r, room = r + 1 := ⟨room - 1, by omega⟩
    have hweak : isWeak e = true := decide_eq_true (show e.strength < 17 by omega)
    have hread := (ih room (by omega)).reads (Nat.le_refl 1) (strength_pos e)
    exact (Holds.of_reads (grammar_steady _ _) (Nat.le_refl 18) (fun _ => headed_paren _)
      (reads_group h hweak hread) fun h => absurd h (by decide)).mono (by omega)
  case isFalse hge => exact (ih room (by omega)).mono (by omega)

theorem reads_operand (ih : HoldsWithin limit e) (h : e.Plain) (hfit : Fits room e)
    (hleast : 1 ≤ least ∧ least ≤ 17) :
    ReadsAs (grammar limit room) least (e.operandWords least e.words) (Alike e) :=
  (ih.operand h hfit hleast.2).reads hleast.1 (Nat.le_refl least)

theorem leads_operand (ih : HoldsWithin limit e) (h : e.Plain) (hfit : Fits room e)
    (hleast : least ∈ loopRungs) :
    LeadsTo (grammar limit room) least (e.operandWords least e.words) (Alike e) := by
  have hbound : ∀ n ∈ loopRungs, n ≤ 17 := by decide
  exact (ih.operand h hfit (hbound least hleast)).leads hleast (Nat.le_refl least)

/-- An expression between brackets is read whole. -/
theorem reads_whole (ih : HoldsWithin limit e) (hfit : Fits room e) :
    ReadsAs (grammar limit room) 1 e.words (Alike e) :=
  (ih room (Nat.le_succ_of_le hfit)).reads (Nat.le_refl 1) (strength_pos e)

theorem of_leaf (h : e.Plain) (hs : e.strength = 18)
    (hread : ∀ inner, ReadsAs inner 18 e.words (Alike e)) : HoldsWithin limit e := by
  intro room _
  rw [hs]
  exact .of_reads (grammar_steady _ _) (Nat.le_refl 18) (fun hle => headed_words h (by omega))
    (hread _) fun h => absurd h (by decide)

/-- Where there is room for an expression, there is room for its operands one level further in. -/
theorem exists_room {c e : Expr} (hc : .expression c ∈ (Node.expression e).children)
    (hroom : 2 * e.size ≤ room + 2) :
    ∃ r, room = r + 1 ∧ ∀ c, .expression c ∈ (Node.expression e).children → Fits r c := by
  have hpos : 0 < c.size := Node.size_pos (.expression c)
  have hlt : ∀ c, .expression c ∈ (Node.expression e).children → c.size < e.size :=
    fun c hc => Node.size_lt_of_mem_children hc
  have hfirst := hlt c hc
  refine ⟨room - 1, by omega, fun c hc => ?_⟩
  have hthis := hlt c hc
  unfold Fits
  omega

theorem of_reads {c : Expr} (n : Nat) (hs : e.strength = n) (hn : n ≤ 15 ∧ n ∉ loopRungs)
    (hc : .expression c ∈ (Node.expression e).children)
    (hread : ∀ room, (∀ c, .expression c ∈ (Node.expression e).children → Fits room c) →
      ReadsAs (grammar limit (room + 1)) n e.words (Alike e)) : HoldsWithin limit e := by
  intro room hroom
  obtain ⟨room, rfl, hfits⟩ := exists_room hc hroom
  rw [hs]
  exact .of_reads (grammar_steady _ _) (by omega) (by omega) (hread room hfits) fun h => absurd h hn.2

theorem of_leads {c : Expr} (h : e.Plain) (n : Nat) (hs : e.strength = n) (hn : n ∈ loopRungs)
    (hc : .expression c ∈ (Node.expression e).children)
    (hlead : ∀ room, (∀ c, .expression c ∈ (Node.expression e).children → Fits room c) →
      LeadsTo (grammar limit (room + 1)) n e.words (Alike e)) : HoldsWithin limit e := by
  intro room hroom
  obtain ⟨room, rfl, hfits⟩ := exists_room hc hroom
  rw [hs]
  exact .of_leads (grammar_steady _ _) hn (fun hle => headed_words h (by omega)) (hlead room hfits)

end HoldsWithin

/-! ## One case for each form -/

section Forms

variable {span : Span} {id : NodeId}

theorem literalOf_eq {value : Literal} (h : value.isPlain = true) {t : Token} (hkind : t.kind = value.word.kind)
    (hliteral : t.literal = value.word.literal) : literalOf t = value := by
  unfold literalOf
  rw [hkind, hliteral]
  cases value with
  | int value => rfl
  | bool value => cases value <;> rfl
  | char value => rfl
  | string value => rfl
  | float value => exact absurd h nofun
  | bits digits => exact absurd h nofun

/-- A literal is read as its value, however it is spelled. -/
theorem reads_literal {value : Literal} (h : value.isPlain = true) {w : Word} (hkind : w.kind = value.word.kind)
    (hliteral : w.literal = value.word.literal) : ReadsAs inner 18 [w] fun e => e.form = .literal value := by
  intro rest _
  have hread : Gives false literal (w :: rest) rest fun e => e.form = .literal value := by
    have hne : w.kind ≠ .eof := by
      rw [hkind]
      cases value with
      | bool value => cases value <;> nofun
      | _ => nofun
    refine .here fun start => .advance w.shown_false hne fun t ht => .node fun span id => ?_
    have htk : t.kind = value.word.kind := (congrArg Word.kind ht).trans hkind
    rw [literalOf_eq h htk ((congrArg Word.literal ht).trans hliteral)]
  refine .kind w.shown_false ?_
  rw [hkind]
  cases value with
  | int value | char value | string value => exact hread
  | bool value => cases value <;> exact hread
  | float value => exact absurd h nofun
  | bits digits => exact absurd h nofun

theorem reads_identifier {name : String} :
    ReadsAs inner 18 [.name name] fun e => e.form = .identifier name := by
  intro rest _
  refine .kind (Word.shown_false _) (.here fun start => .advance (Word.shown_false _) nofun fun t ht => ?_)
  have hname : t.lexeme = name := String.toList_injective (congrArg Word.text ht)
  exact .node fun span id => by rw [hname]

/-- An operator in front of its operand. -/
theorem reads_leading {op : UnaryOp} {e : Expr} {ws : List Word}
    (h : ReadsAs (grammar limit room) 15 ws (Alike e)) :
    ReadsAs (grammar limit (room + 1)) 15 (.fixed op.kind :: ws) (Alike ⟨.unary op e .before, span, id⟩) := by
  intro rest hstop
  have hstar : op.kind ≠ .starStar := by cases op <;> nofun
  have hop : leadingOp? op.kind = some op := by cases op <;> rfl
  refine .here fun start => .kind (Word.shown_false _) ?_
  rw [Word.kind_fixed, if_neg (by simpa using hstar), hop, unary_succ]
  refine .advance (Word.shown_false _) (by cases op <;> nofun) fun _ _ => ?_
  refine .bind (h rest hstop) fun e' he' => .node fun span id => ?_
  rw [Alike, Expr.shape_unary, Expr.shape_unary, he']

/-- Two dereferences in one word. -/
theorem reads_double {e : Expr} {ws : List Word} {span₁ : Span} {id₁ : NodeId}
    (h : ReadsAs (grammar limit room) 15 ws (Alike e)) :
    ReadsAs (grammar limit (room + 1)) 15 (.fixed .starStar :: ws)
      (Alike ⟨.unary .deref ⟨.unary .deref e .before, span₁, id₁⟩ .before, span, id⟩) := by
  intro rest hstop
  refine .here fun start => .kind (Word.shown_false _) ?_
  rw [Word.kind_fixed, if_pos (by decide), unary_succ]
  refine .advance (Word.shown_false _) nofun fun _ _ => .bind (h rest hstop) fun e' he' => ?_
  refine .bind (.node (R := fun once => once.shape = ⟨.unary .deref e.shape .before, default, default⟩)
    fun span id => ?_) fun once honce => .node fun span id => ?_
  · rw [Expr.shape_unary, he']
  · rw [Alike, Expr.shape_unary, Expr.shape_unary, Expr.shape_unary, honce]

/-- A power and its exponent. -/
theorem reads_power {l r : Expr} {lw rw : List Word} (hl : ReadsAs (grammar limit (room + 1)) 15 lw (Alike l))
    (hr : ReadsAs (grammar limit room) 14 rw (Alike r)) :
    ReadsAs (grammar limit (room + 1)) 14 (lw ++ .fixed .starStar :: rw)
      (Alike ⟨.binary .power l r, span, id⟩) := by
  intro rest hstop
  rw [List.append_assoc]
  refine .here fun start => .bind (hl _ ⟨_, _, rfl, by decide⟩) fun l' hl' => ?_
  rw [power_succ]
  refine .accept_pos (Word.shown_false _) rfl nofun (.bind (hr rest hstop) fun r' hr' => ?_)
  refine .node fun span id => ?_
  rw [Alike, Expr.shape_binary, Expr.shape_binary, hl', hr']

/-- A condition and its two values. -/
theorem reads_conditional {c t e : Expr} {cw tw ew : List Word}
    (hc : ReadsAs (grammar limit (room + 1)) 4 cw (Alike c)) (ht : ReadsAs (grammar limit room) 1 tw (Alike t))
    (he : ReadsAs (grammar limit room) 2 ew (Alike e)) :
    ReadsAs (grammar limit (room + 1)) 2 (cw ++ .fixed .question :: (tw ++ .fixed .colon :: ew))
      (Alike ⟨.conditional c t e, span, id⟩) := by
  intro rest hstop
  rw [List.append_assoc, List.cons_append, List.append_assoc, List.cons_append]
  refine .here fun start => .bind (hc _ ⟨_, _, rfl, by decide⟩) fun c' hc' => ?_
  refine .accept_pos (Word.shown_false _) rfl nofun ?_
  refine .bind (ht.expression ⟨_, _, rfl, by decide⟩) fun t' ht' => ?_
  rw [conditional_succ]
  refine .consume (Word.shown_false _) rfl nofun (.bind (he rest hstop) fun e' he' => ?_)
  refine .node fun span id => ?_
  rw [Alike, Expr.shape_conditional, Expr.shape_conditional, hc', ht', he']

/-- A target and the value it is assigned. -/
theorem ReadsAs.assign {op : AssignOp} {tw vw : List Word} {T V Q : Expr → Prop}
    (ht : ReadsAs (grammar limit (room + 1)) 2 tw T) (ha : ∀ t, T t → t.isAssignable = true)
    (hv : ReadsAs (grammar limit room) 1 vw V)
    (hQ : ∀ t v, T t → V v → ∀ span id, Q ⟨.assign op t v, span, id⟩) :
    ReadsAs (grammar limit (room + 1)) 1 (tw ++ .fixed op.kind :: vw) Q := by
  intro rest hstop
  rw [List.append_assoc]
  have hop := assignOp_kind op
  refine .here fun start => .bind (ht _ ⟨_, _, rfl, ?_⟩) fun t ht' => ?_
  · rw [Word.kind_fixed, pull_assign hop]
    decide
  refine .kind (Word.shown_false _) ?_
  rw [Word.kind_fixed, hop]
  refine .advance (Word.shown_false _) (by cases op <;> nofun) fun _ _ => ?_
  dsimp only
  rw [if_pos (ha t ht')]
  exact .bind (hv.expression hstop) fun v hv' => .node (hQ t v ht' hv')

theorem reads_assign {op : AssignOp} {target value : Expr} {tw vw : List Word}
    (ht : ReadsAs (grammar limit (room + 1)) 2 tw (Alike target)) (ha : target.isAssignable = true)
    (hv : ReadsAs (grammar limit room) 1 vw (Alike value)) :
    ReadsAs (grammar limit (room + 1)) 1 (tw ++ .fixed op.kind :: vw)
      (Alike ⟨.assign op target value, span, id⟩) := by
  refine ht.assign (fun t ht' => ?_) hv fun t v ht' hv' _ _ => ?_
  · rw [← t.isAssignable_shape, ht', target.isAssignable_shape]
    exact ha
  · rw [Alike, Expr.shape_assign, Expr.shape_assign, ht', hv']

/-- All operators but powers group to the left, in a loop of their own. -/
theorem left_associative {op : BinaryOp} (h : op ≠ .power) :
    op.precedence ≤ 10 ∧ binaryStrength op ∈ loopRungs := by
  cases op <;> first | decide | exact absurd rfl h

/-- Two operands with an operator that groups to the left. -/
theorem LeadsTo.binary {op : BinaryOp} {lw rw : List Word} {L R Q : Expr → Prop} (hi : inner.Steady)
    (hop : op.precedence ≤ 10) (hl : LeadsTo inner (binaryStrength op) lw L)
    (hr : ReadsAs inner (binaryStrength op + 1) rw R)
    (hQ : ∀ l r, L l → R r → ∀ span id, Q ⟨.binary op l r, span, id⟩) :
    LeadsTo inner (binaryStrength op) (lw ++ .fixed op.kind :: rw) Q := by
  have hkind := binaryOp_kind op
  have hpull : pull op.kind = binaryStrength op := pull_binary hkind
  refine hl.append hi (Nat.le_of_eq hpull) fun rest l start hstop hl' => ?_
  have hle : binaryStrength op ≤ 13 := by unfold binaryStrength; omega
  unfold goOn
  rw [if_pos hle]
  refine .kind (Word.shown_false _) ?_
  have hfour : 4 ≤ binaryStrength op := by cases op <;> decide
  have hown : (operatorsOf (binaryStrength op)).contains op.kind = true :=
    (contains_operatorsOf hkind ⟨hfour, hle⟩).2 rfl
  rw [Word.kind_fixed, hkind, Option.filter_some, if_pos hown]
  refine .advance (Word.shown_false _) (by cases op <;> nofun) fun _ _ => ?_
  exact .bind (hr rest hstop) fun r hr' => .someNode (hQ l r hl' hr')

theorem leads_binary {op : BinaryOp} {l r : Expr} {lw rw : List Word} (hi : inner.Steady)
    (hop : op.precedence ≤ 10) (hl : LeadsTo inner (binaryStrength op) lw (Alike l))
    (hr : ReadsAs inner (binaryStrength op + 1) rw (Alike r)) :
    LeadsTo inner (binaryStrength op) (lw ++ .fixed op.kind :: rw) (Alike ⟨.binary op l r, span, id⟩) := by
  refine hl.binary hi hop hr fun l' r' hl' hr' _ _ => ?_
  rw [Alike, Expr.shape_binary, Expr.shape_binary, hl', hr']

/-- An operator behind its operand. -/
theorem leads_trailing {op : UnaryOp} {e : Expr} {ws : List Word} (hi : inner.Steady)
    (hop : op = .increment ∨ op = .decrement) (h : LeadsTo inner 16 ws (Alike e)) :
    LeadsTo inner 16 (ws ++ [.fixed op.kind]) (Alike ⟨.unary op e .after, span, id⟩) := by
  have hkind : trailingOp? op.kind = some op := by rcases hop with rfl | rfl <;> rfl
  refine h.append hi (Nat.le_of_eq (pull_trailing hkind)) fun rest e' start hstop he' => ?_
  refine .kind (Word.shown_false _) ?_
  rw [Word.kind_fixed, hkind]
  refine .advance (Word.shown_false _) (by cases op <;> nofun) fun _ _ => ?_
  refine .someNode fun span id => ?_
  rw [Alike, Expr.shape_unary, Expr.shape_unary, he']

theorem leads_member {object : Expr} {name : String} {ws : List Word} (hi : inner.Steady)
    (h : LeadsTo inner 17 ws (Alike object)) :
    LeadsTo inner 17 (ws ++ [.fixed .dot, .name name]) (Alike ⟨.member object name, span, id⟩) := by
  refine h.append hi (by decide) fun rest o' start hstop ho' => ?_
  refine .kind (Word.shown_false _) (.advance (Word.shown_false _) nofun fun _ _ => ?_)
  refine .kind (Word.shown_false _) (.advance (Word.shown_false _) nofun fun t ht => ?_)
  have hname : t.lexeme = name := String.toList_injective (congrArg Word.text ht)
  refine .someNode fun span id => ?_
  rw [hname, Alike, Expr.shape_member, Expr.shape_member, ho']

theorem leads_subscript {object index : Expr} {ow iw : List Word}
    (h : LeadsTo (grammar limit (room + 1)) 17 ow (Alike object))
    (hx : ReadsAs (grammar limit room) 1 iw (Alike index)) :
    LeadsTo (grammar limit (room + 1)) 17 (ow ++ .fixed .leftBracket :: (iw ++ [.fixed .rightBracket]))
      (Alike ⟨.subscript object index, span, id⟩) := by
  refine h.append (grammar_steady _ _) (by decide) fun rest o' start hstop ho' => ?_
  rw [List.cons_append, List.append_assoc]
  refine .kind (Word.shown_false _) (.advance (Word.shown_false _) nofun fun _ _ => ?_)
  refine .bind (hx.expression ⟨_, _, rfl, by decide⟩) fun i' hi' => .consume (Word.shown_false _) rfl nofun ?_
  refine .someNode fun span id => ?_
  rw [Alike, Expr.shape_subscript, Expr.shape_subscript, ho', hi']

theorem leads_call {callee : Expr} {args : List Expr} {cw : List Word}
    (h : LeadsTo (grammar limit (room + 1)) 17 cw (Alike callee)) (ha : ∀ a ∈ args, a.Plain)
    (hargs : ∀ a ∈ args, ReadsAs (grammar limit room) 1 a.words (Alike a)) :
    LeadsTo (grammar limit (room + 1)) 17
      (cw ++ .fixed .leftParen :: ([Word.fixed .comma].intercalate (Expr.wordsEach args)
        ++ [.fixed .rightParen])) (Alike ⟨.call callee args, span, id⟩) := by
  refine h.append (grammar_steady _ _) (by decide) fun rest c' start hstop hc' => ?_
  rw [Expr.wordsEach_eq, List.cons_append, List.append_assoc]
  refine .kind (Word.shown_false _) (.advance (Word.shown_false _) nofun fun _ _ => ?_)
  have hitems : ReadsItems false (grammar limit (room + 1)).expression Expr.shape Expr.shape Expr.words
      (.fixed .rightParen) args := by
    intro a hm w ws hw
    refine (hargs a hm).expression ⟨w, ws, rfl, ?_⟩
    rcases hw with rfl | rfl <;> decide
  have hopen : ItemsOpen false Expr.words .rightParen args := by
    intro a hm
    obtain ⟨w, more, hw, hk⟩ := exists_head (ha a hm)
    have hall : ∀ k ∈ .identifier :: .star :: .starStar :: operandStarts, k ≠ .rightParen ∧ k ≠ .eof := by
      decide
    exact ⟨w, more, hw, w.shown_false, hall _ hk⟩
  refine .bind (.commaTerminated (grammar_steady limit (room + 1)).expression (Word.shown_false _) rfl
    nofun hopen hitems) fun args' hargs' => .consume (Word.shown_false _) rfl nofun ?_
  refine .someNode fun span id => ?_
  rw [Alike, Expr.shape_call, Expr.shape_call, hc', hargs']

end Forms

/-- **Every plain expression holds together as strongly as the printer says.** -/
theorem holdsWithin {e : Expr} (h : e.Plain) : HoldsWithin limit e := by
  induction h using Expr.Plain.induct with
  | literal h =>
    refine .of_leaf (.literal h) rfl fun inner => (reads_literal h rfl rfl).mono ?_
    rintro ⟨_, span, id⟩ rfl
    rfl
  | identifier h =>
    refine .of_leaf (.identifier h) rfl fun inner => reads_identifier.mono ?_
    rintro ⟨_, span, id⟩ rfl
    rfl
  | @double e span₁ id₁ span id h ih =>
    refine .of_reads 15 rfl (by decide) (.head _) fun room hfits => ?_
    have hfit : Fits room e := by
      have houter : Fits room ⟨.unary .deref e .before, span₁, id₁⟩ := hfits _ (.head _)
      have hlt : e.size < Expr.size ⟨.unary .deref e .before, span₁, id₁⟩ :=
        Node.size_lt_of_mem_children (.head _)
      unfold Fits at houter ⊢
      omega
    exact reads_double (ih.reads_operand h hfit (by decide))
  | @leading op e span id hd h ih =>
    refine .of_reads 15 rfl (by decide) (.head _) fun room hfits => ?_
    rw [Expr.words_leading hd]
    exact reads_leading (ih.reads_operand h (hfits e (.head _)) (by decide))
  | @trailing op e span id hop h ih =>
    refine .of_leads (.trailing hop h) 16 rfl (by decide) (.head _) fun room hfits => ?_
    rw [Expr.words]
    exact leads_trailing (grammar_steady _ _) hop (ih.leads_operand h (hfits e (.head _)).succ (by decide))
  | @binary op l r span id hl hr ihl ihr =>
    by_cases hpower : op = .power
    · subst hpower
      refine .of_reads 14 rfl (by decide) (.head _) fun room hfits => ?_
      exact reads_power (ihl.reads_operand hl (hfits l (.head _)).succ (by decide))
        (ihr.reads_operand hr (hfits r (.tail _ (.head _))) (by decide))
    · obtain ⟨hprec, hloop⟩ := left_associative hpower
      have hsides : Print.binarySides op = (binaryStrength op, binaryStrength op + 1) ∧
          binaryStrength op + 1 ≤ 17 := by
        cases op <;> first | decide | exact absurd rfl hpower
      obtain ⟨hsides, hbound⟩ := hsides
      refine .of_leads (.binary _ hl hr) (binaryStrength op) rfl hloop (.head _) fun room hfits => ?_
      rw [Expr.words, hsides]
      exact leads_binary (grammar_steady _ _) hprec (ihl.leads_operand hl (hfits l (.head _)).succ hloop)
        (ihr.reads_operand hr (hfits r (.tail _ (.head _))).succ ⟨Nat.succ_pos _, hbound⟩)
  | @assign op target value span id ht ha hv iht ihv =>
    refine .of_reads 1 rfl (by decide) (.head _) fun room hfits => ?_
    exact reads_assign (iht.reads_operand ht (hfits target (.head _)).succ (by decide)) ha
      (ihv.reads_operand hv (hfits value (.tail _ (.head _))) (by decide))
  | @conditional c t e span id hc ht he ihc iht ihe =>
    refine .of_reads 2 rfl (by decide) (.head _) fun room hfits => ?_
    exact reads_conditional (ihc.reads_operand hc (hfits c (.head _)).succ (by decide))
      (iht.reads_operand ht (hfits t (.tail _ (.head _))) (by decide))
      (ihe.reads_operand he (hfits e (.tail _ (.tail _ (.head _)))) (by decide))
  | @call callee args span id hc ha ihc iha =>
    refine .of_leads (.call hc ha) 17 rfl (by decide) (.head _) fun room hfits => ?_
    refine leads_call (ihc.leads_operand hc (hfits callee (.head _)).succ (by decide)) ha fun a hm => ?_
    exact (iha a hm).reads_whole (hfits a (.tail _ (List.mem_map_of_mem hm)))
  | @member object name span id ho hn iho =>
    refine .of_leads (.member ho hn) 17 rfl (by decide) (.head _) fun room hfits => ?_
    exact leads_member (grammar_steady _ _) (iho.leads_operand ho (hfits object (.head _)).succ (by decide))
  | @subscript object index span id ho hi iho ihi =>
    refine .of_leads (.subscript ho hi) 17 rfl (by decide) (.head _) fun room hfits => ?_
    exact leads_subscript (iho.leads_operand ho (hfits object (.head _)).succ (by decide))
      (ihi.reads_whole (hfits index (.tail _ (.head _))))

end FluxFront.Grammar
