import FluxFront.Proofs.CleanRuns
import FluxFront.Proofs.ExprWords

/-!
# No expression in parentheses looks like a cast

A parenthesis starts a cast if a type can be skimmed behind it and the closing parenthesis follows.
An expression with an operator looks like a type for a while: `a * b`, `a < b > c`, `a[i] * *p`.  But
whatever of it is taken for a type, an operand is still to come behind it.

* **Invariant**: `Expects c ws` says that an operand stands ahead, `Continues c ws` that one was just
  read.  The flag tells whether the closing parenthesis may come up next without an operator before it.
* **Specification**: `Strays r c s` holds behind everything that skims a type from such words: either more
  was noticed than in `r`, or the words ahead are again of these two kinds, or the second half of a `>>` in
  front of them.  None of these starts with a closing parenthesis (`gives_castAhead`).
* **Crux**: a production for types reads a star, a bracket or an angle of an expression only where one
  of the two predicates says what lies behind it.
-/

namespace FluxFront.Grammar

open Token (Kind Word)

/-! ## Groups -/

/-- The brackets that open a group. -/
def openings : List Kind := [.leftParen, .leftBracket, .leftBrace]

/-- The brackets that close a group. -/
def closings : List Kind := [.rightParen, .rightBracket, .rightBrace]

/-- Whether a token is neither a bracket nor the end of the text. -/
def isInner (k : Kind) : Bool := !openings.contains k && !closings.contains k && k != .eof

/-- Every bracket that is opened is closed, and none is closed that was not opened. -/
inductive Balanced : List Word → Prop
  | nil : Balanced []
  | word {w : Word} {ws : List Word} (hw : isInner w.kind = true) (h : Balanced ws) :
      Balanced (w :: ws)
  | group {o c : Word} {inside ws : List Word} (ho : o.kind ∈ openings) (hi : Balanced inside)
      (hc : c.kind ∈ closings) (h : Balanced ws) : Balanced (o :: (inside ++ c :: ws))

theorem Balanced.append {as bs : List Word} (ha : Balanced as) (hb : Balanced bs) :
    Balanced (as ++ bs) := by
  induction ha with
  | nil => exact hb
  | word hw h ih => exact .word hw ih
  | group ho hi hc h _ ih =>
    rw [List.cons_append, List.append_assoc, List.cons_append]
    exact .group ho hi hc ih

/-- At an opening bracket skipping goes in. -/
theorem gives_skip_opening {w : Word} {ws : List Word} (hw : w.kind ∈ openings) (depth : Nat) :
    Gives false (skipInGroup depth) (w :: ws) ws (· = some (depth + 1)) := by
  refine .kind w.shown_false ?_
  split
  case h_2 hk | h_3 hk | h_4 hk =>
    exact .advance w.shown_false (by rw [hk]; decide) fun _ _ => .pure rfl
  all_goals simp_all [openings]

/-- At a closing bracket skipping goes out. -/
theorem gives_skip_closing {w : Word} {ws : List Word} (hw : w.kind ∈ closings) (depth : Nat) :
    Gives false (skipInGroup (depth + 1)) (w :: ws) ws (· = some depth) := by
  refine .kind w.shown_false ?_
  split
  case h_5 hk | h_6 hk | h_7 hk =>
    exact .advance w.shown_false (by rw [hk]; decide) fun _ _ => .pure rfl
  all_goals simp_all [closings]

/-- Skipping ends at the bracket that closes the outermost group. -/
theorem gives_skip_end {w : Word} {ws : List Word} (hw : w.kind ∈ closings) :
    Gives false (skipInGroup 0) (w :: ws) (w :: ws) (· = none) := by
  refine .kind w.shown_false ?_
  split
  case h_5 | h_6 | h_7 => exact .pure rfl
  all_goals simp_all [closings]

theorem gives_skip_word {w : Word} {ws : List Word} (hw : isInner w.kind = true) (depth : Nat) :
    Gives false (skipInGroup depth) (w :: ws) ws (· = some depth) := by
  refine .kind w.shown_false ?_
  split
  case h_8 hk _ _ _ _ _ _ => exact .advance w.shown_false hk fun _ _ => .pure rfl
  all_goals
    rename_i hk
    rw [hk] at hw
    exact absurd hw (by decide)

/-- A step that gives something, in front of the rest of a loop of steps. -/
theorem Gives.iterateUpTo_step {β : Type} {step : β → Parser (Option β)} {b next : β} {fuel : Nat}
    {ws ws₁ after : List Word} {R : β → Prop} (hstep : Gives false (step b) ws ws₁ (· = some next))
    (hmore : Gives false (iterateUpTo fuel step next) ws₁ after R) :
    Gives false (iterateUpTo (fuel + 1) step b) ws after R := by
  intro r s hs
  obtain ⟨ho, hs₁⟩ := hstep r s hs
  unfold After
  rw [iterateUpTo_succ, ho]
  exact hmore r _ hs₁

/-- Skipping in a group passes balanced words and is as deep behind them as before. -/
theorem Balanced.gives_skip {inside : List Word} (h : Balanced inside) {ws after : List Word}
    {R : Nat → Prop} {depth fuel : Nat}
    (hmore : Gives false (iterateUpTo fuel skipInGroup depth) ws after R) :
    Gives false (iterateUpTo (inside.length + fuel) skipInGroup depth) (inside ++ ws) after R := by
  induction h generalizing ws depth fuel with
  | nil => rwa [List.length_nil, Nat.zero_add]
  | @word w ws₁ hw h ih =>
    rw [List.length_cons, Nat.add_right_comm]
    exact .iterateUpTo_step (gives_skip_word hw _) (ih hmore)
  | @group o c inside ws₁ ho hi hc h ihi ih =>
    have hlength : (o :: (inside ++ c :: ws₁)).length + fuel =
        inside.length + (ws₁.length + fuel + 1) + 1 := by
      simp only [List.length_cons, List.length_append]
      omega
    rw [hlength, List.cons_append, List.append_assoc, List.cons_append]
    refine .iterateUpTo_step (gives_skip_opening ho _) (ihi ?_)
    exact .iterateUpTo_step (gives_skip_closing hc _) (ih hmore)

/-- A group is skipped up to the bracket that closes it. -/
theorem gives_skipGroup {inside ws : List Word} {c : Word} (h : Balanced inside)
    (hc : c.kind ∈ closings) :
    Gives false skipGroup (inside ++ c :: ws) (c :: ws) fun _ => True := by
  intro r s hs
  have hlength : s.rest.length = inside.length + (ws.length + 1) := by
    simpa [Word.sight] using congrArg List.length hs.words
  have hstop : Gives false (iterateUpTo (ws.length + 1) skipInGroup 0) (c :: ws) (c :: ws) fun _ => True := by
    intro r s hs
    obtain ⟨ho, hs₁⟩ := gives_skip_end hc r s hs
    unfold After
    rw [iterateUpTo_succ, ho]
    exact ⟨trivial, hs₁⟩
  have hskip : Gives false (do let _ ← iterateUpTo (inside.length + (ws.length + 1)) skipInGroup 0)
      (inside ++ c :: ws) (c :: ws) fun _ => True := .bind (h.gives_skip hstop) fun _ _ => .pure trivial
  rw [← hlength] at hskip
  exact hskip r s hs

/-! ## Operands to come -/

/-- The tokens, names and stars apart, that an operand starts with. -/
def operandStarts : List Kind :=
  [.intLiteral, .charLiteral, .stringLiteral, .kwTrue, .kwFalse, .leftParen, .bang, .minus, .plus,
   .tilde, .plusPlus, .minusMinus, .atSign]

/-- The tokens behind an operand, assignments apart, at which no type goes on. -/
def operandEnds : List Kind := [.leftParen, .plusPlus, .minusMinus, .question]

mutual

/-- An operand stands ahead. -/
inductive Expects : Bool → List Word → Prop
  | name {c : Bool} {w : Word} {ws : List Word} (hw : w.kind = .identifier) (h : Continues c ws) :
      Expects c (w :: ws)
  | star {c : Bool} {w : Word} {ws : List Word} (hw : w.kind = .star ∨ w.kind = .starStar)
      (h : Expects true ws) : Expects c (w :: ws)
  | other {c : Bool} {w : Word} {ws : List Word} (hw : w.kind ∈ operandStarts) : Expects c (w :: ws)

/-- An operand was just read.  Unless the flag is set, an operator is still to come. -/
inductive Continues : Bool → List Word → Prop
  | member {c : Bool} {d n : Word} {ws : List Word} (hd : d.kind = .dot) (hn : n.kind = .identifier)
      (h : Continues c ws) : Continues c (d :: n :: ws)
  | subscript {c : Bool} {o r : Word} {inside ws : List Word} (ho : o.kind = .leftBracket)
      (hi : Balanced inside) (hr : r.kind = .rightBracket) (h : Continues c ws) :
      Continues c (o :: (inside ++ r :: ws))
  | operator {c : Bool} {w : Word} {ws : List Word} (hw : (binaryOp? w.kind).isSome = true)
      (h : Expects true ws) : Continues c (w :: ws)
  | stop {c : Bool} {w : Word} {ws : List Word}
      (hw : w.kind ∈ operandEnds ∨ (assignOp? w.kind).isSome = true) : Continues c (w :: ws)
  | close {w : Word} {ws : List Word} (hw : w.kind = .rightParen) : Continues true (w :: ws)

end

/-- Where skimming a type may end: an operand was read, an operand is to come, or one is to come behind
the second half of a `>>`. -/
inductive Off (c : Bool) : List Word → Prop
  | behind {ws : List Word} (h : Continues c ws) : Off c ws
  | before {ws : List Word} (h : Expects true ws) : Off c ws
  | half {w : Word} {ws : List Word} (hw : w.kind = .greater) (h : Expects true ws) : Off c (w :: ws)

/-- The tokens that an operand starts with. -/
theorem Expects.kind_mem {c : Bool} {w : Word} {ws : List Word} (h : Expects c (w :: ws)) :
    w.kind ∈ .identifier :: .star :: .starStar :: operandStarts := by
  cases h with
  | name hw => rw [hw]; decide
  | star hw => rcases hw with hw | hw <;> rw [hw] <;> decide
  | other hw => simp [hw]

/-- An operand does not start with these tokens. -/
theorem Expects.kind_not_mem {c : Bool} {w : Word} {ws : List Word} (h : Expects c (w :: ws)) :
    w.kind ∉ [Kind.greater, .shr, .comma, .leftBracket, .rightParen, .dot, .less, .kwConst,
      .kwVolatile] := by
  have hall : ∀ k ∈ .identifier :: .star :: .starStar :: operandStarts, k ∉ [Kind.greater, .shr, .comma,
      .leftBracket, .rightParen, .dot, .less, .kwConst, .kwVolatile] := by decide
  exact hall _ h.kind_mem

theorem Expects.exists_cons {c : Bool} {ws : List Word} (h : Expects c ws) :
    ∃ w more, ws = w :: more := by
  cases h <;> exact ⟨_, _, rfl⟩

theorem Expects.of_star {c : Bool} {w : Word} {ws : List Word} (h : Expects c (w :: ws))
    (hk : w.kind = .star ∨ w.kind = .starStar) : Expects true ws := by
  cases h with
  | name hw => rcases hk with hk | hk <;> rw [hk] at hw <;> exact absurd hw (by decide)
  | star _ h => exact h
  | other hw => rcases hk with hk | hk <;> rw [hk] at hw <;> exact absurd hw (by decide)

namespace Continues

variable {c : Bool} {w : Word} {ws : List Word}

/-- Behind an operator that a type may go on with, an operand is to come. -/
theorem of_operator (h : Continues c (w :: ws))
    (hk : w.kind ∈ [Kind.less, .star, .starStar, .greater, .shr]) : Expects true ws := by
  have hall : ∀ k ∈ [Kind.less, .star, .starStar, .greater, .shr], k ≠ .dot ∧ k ≠ .leftBracket ∧
      k ≠ .rightParen ∧ ¬ (k ∈ operandEnds ∨ (assignOp? k).isSome = true) := by decide
  obtain ⟨hdot, hbracket, hparen, hends⟩ := hall _ hk
  cases h with
  | member hd => exact absurd hd hdot
  | subscript ho => exact absurd ho hbracket
  | operator _ h => exact h
  | stop hw => exact absurd hw hends
  | close hw => exact absurd hw hparen

theorem exists_cons (h : Continues c ws) : ∃ w more, ws = w :: more := by
  cases h <;> exact ⟨_, _, rfl⟩

theorem of_dot (h : Continues c (w :: ws)) (hk : w.kind = .dot) :
    ∃ n more, ws = n :: more ∧ n.kind = .identifier ∧ Continues c more := by
  cases h with
  | member _ hn h => exact ⟨_, _, rfl, hn, h⟩
  | subscript ho => rw [hk] at ho; exact absurd ho (by decide)
  | operator hw => rw [hk] at hw; exact absurd hw (by decide)
  | stop hw => rw [hk] at hw; exact absurd hw (by decide)
  | close hw => rw [hk] at hw; exact absurd hw (by decide)

theorem of_bracket (h : Continues c (w :: ws)) (hk : w.kind = .leftBracket) :
    ∃ inside r more, ws = inside ++ r :: more ∧ Balanced inside ∧ r.kind = .rightBracket ∧
      Continues c more := by
  cases h with
  | member hd => rw [hk] at hd; exact absurd hd (by decide)
  | subscript _ hi hr h => exact ⟨_, _, _, rfl, hi, hr, h⟩
  | operator hw => rw [hk] at hw; exact absurd hw (by decide)
  | stop hw => rw [hk] at hw; exact absurd hw (by decide)
  | close hw => rw [hk] at hw; exact absurd hw (by decide)

/-- No comma stands behind the operand, and a closing parenthesis only if the flag allows it. -/
theorem kind_ne (h : Continues c (w :: ws)) :
    w.kind ≠ .comma ∧ (w.kind = .rightParen → c = true) := by
  refine ⟨fun hk => ?_, fun hk => ?_⟩
  · cases h with
    | member hd => rw [hk] at hd; exact absurd hd (by decide)
    | subscript ho => rw [hk] at ho; exact absurd ho (by decide)
    | operator hw => rw [hk] at hw; exact absurd hw (by decide)
    | stop hw => rw [hk] at hw; exact absurd hw (by decide)
    | close hw => rw [hk] at hw; exact absurd hw (by decide)
  · cases h with
    | member hd => rw [hk] at hd; exact absurd hd (by decide)
    | subscript ho => rw [hk] at ho; exact absurd ho (by decide)
    | operator hw => rw [hk] at hw; exact absurd hw (by decide)
    | stop hw => rw [hk] at hw; exact absurd hw (by decide)
    | close => rfl

end Continues

namespace Off

variable {c : Bool} {w : Word} {ws : List Word}

theorem of_star (h : Off c (w :: ws)) (hk : w.kind = .star ∨ w.kind = .starStar) : Expects true ws := by
  cases h with
  | behind h => exact h.of_operator (by rcases hk with hk | hk <;> rw [hk] <;> decide)
  | before h => exact h.of_star hk
  | half hw => rcases hk with hk | hk <;> rw [hk] at hw <;> exact absurd hw (by decide)

theorem of_angle (h : Off c (w :: ws)) (hk : w.kind = .greater ∨ w.kind = .shr) : Expects true ws := by
  have hm : w.kind ∈ [Kind.less, .star, .starStar, .greater, .shr] := by
    rcases hk with hk | hk <;> rw [hk] <;> decide
  cases h with
  | behind h => exact h.of_operator hm
  | before h => rcases hk with hk | hk <;> exact absurd (by rw [hk]; decide) h.kind_not_mem
  | half _ h => exact h

theorem of_bracket (h : Off c (w :: ws)) (hk : w.kind = .leftBracket) :
    ∃ inside r more, ws = inside ++ r :: more ∧ Balanced inside ∧ r.kind = .rightBracket ∧
      Continues c more := by
  cases h with
  | behind h => exact h.of_bracket hk
  | before h => exact absurd (by rw [hk]; decide) h.kind_not_mem
  | half hw => rw [hk] at hw; exact absurd hw (by decide)

theorem kind_ne (h : Off c (w :: ws)) :
    w.kind ≠ .comma ∧ (w.kind = .rightParen → c = true) := by
  cases h with
  | behind h => exact h.kind_ne
  | before h =>
    exact ⟨fun hk => absurd (by rw [hk]; decide) h.kind_not_mem,
      fun hk => absurd (by rw [hk]; decide) h.kind_not_mem⟩
  | half hw => rw [hw]; exact ⟨nofun, nofun⟩

theorem exists_cons (h : Off c ws) : ∃ w more, ws = w :: more := by
  cases h with
  | behind h => exact h.exists_cons
  | before h => exact h.exists_cons
  | half => exact ⟨_, _, rfl⟩

end Off

/-! ## Skimming goes astray -/

section Skimming

variable {r : Record}

/-- Another error was noticed, or an operand or more is still to come. -/
def Strays (r : Record) (c : Bool) (s : State) : Prop :=
  r.failures < s.failures ∨ ∃ ws, Ahead r false ws s ∧ Off c ws

/-- An error once noticed stays noticed. -/
theorem strays_of_failures {α : Type} {c : Bool} {s : State} {p : Parser α} (hf : r.failures < s.failures)
    (hp : Steady True p) : After p s fun _ s' => Strays r c s' :=
  .inl (Nat.lt_of_lt_of_le hf (hp.moves s).failures_le)

theorem noticed_reported {s : State} (h : r.failures ≤ s.failures) (d : Diagnostic) :
    r.failures < (s.reported d).failures := by
  rw [s.failures_reported d]
  exact Nat.lt_succ_of_le h

/-- What is true of a run from a clean state is true of any, for errors stay noticed. -/
theorem Strays.after {α : Type} {c c' : Bool} {s : State} {p : Parser α} (h : Strays r c s)
    (hp : Steady True p)
    (hclean : ∀ w ws, Ahead r false (w :: ws) s → Off c (w :: ws) →
      After p s fun _ s' => Strays r c' s') : After p s fun _ s' => Strays r c' s' := by
  rcases h with hf | ⟨ws, hs, hoff⟩
  · exact strays_of_failures hf hp
  · obtain ⟨w, more, rfl⟩ := hoff.exists_cons
    exact hclean w more hs hoff

/-- A report is an error noticed. -/
theorem strays_reportUnexpected {c : Bool} {s : State} (h : r.failures ≤ s.failures) (expected : String) :
    After (reportUnexpected expected) s fun _ s' => Strays r c s' := by
  have noticed : ∀ d, Strays r c (s.reported d) := fun d => .inl (noticed_reported h d)
  exact .current (.ite (fun _ => noticed _) fun _ => noticed _)

/-- A dotted name passes the members of an operand. -/
theorem strays_qualifiedName {c : Bool} {w : Word} {ws : List Word} {s : State}
    (hw : w.kind = .identifier) (h : Continues c ws) (hs : Ahead r false (w :: ws) s)
    (expected : String) :
    After (qualifiedName expected) s fun _ s' => ∃ ws, Ahead r false ws s' ∧ Continues c ws := by
  have head : After (consumeName expected) s fun _ s' => Ahead r false ws s' := by
    refine .check (fun _ => .advance (.pure ?_)) fun hne => ?_
    · exact hs.advanced w.shown_false (by rw [hw]; decide)
    · exact absurd ((hs.kind w.shown_false).trans hw) hne
  refine head.andThen fun _ s₁ hs₁ => ?_
  refine .andThen (Q := fun _ s' => ∃ ws, Ahead r false ws s' ∧ Continues c ws) ?_ fun _ _ h => .pure h
  refine .many (I := fun _ s' => ∃ ws, Ahead r false ws s' ∧ Continues c ws) ?_ ⟨ws, hs₁, h⟩
  rintro _ s ⟨ws, hs, h⟩
  refine .check (fun hk => ?_) fun _ => .kindAt (.pure ⟨ws, hs, h⟩)
  refine .kindAt (.ite (fun _ => ?_) fun _ => .pure ⟨ws, hs, h⟩)
  obtain ⟨d, more, rfl⟩ := h.exists_cons
  have hd : d.kind = .dot := (hs.kind d.shown_false).symm.trans hk
  obtain ⟨n, more, rfl, hn, h⟩ := h.of_dot hd
  have hs₁ := hs.advanced d.shown_false (by rw [hd]; decide)
  have hs₂ := hs₁.advanced n.shown_false (by rw [hn]; decide)
  exact .advance (.advance (.pure ⟨more, hs₂, h⟩))

/-- A closing angle is the operator behind an operand, or half of it; an operand is to come. -/
theorem strays_closingAngle {c : Bool} {w : Word} {ws : List Word} {s : State}
    (h : Off true (w :: ws)) (hs : Ahead r false (w :: ws) s) (expected : String) :
    After (consumeClosingAngle expected) s fun _ s' => Strays r c s' := by
  have hsplit := s.words_splitShift
  rw [show s.rest.map Token.word = w :: ws from hs.words] at hsplit
  refine .bind ?_
  show After (consume .greater expected) s.splitShift fun _ s' => Strays r c s'
  by_cases hk : w.kind = .shr
  · have hs₁ := hs.splitShift (hsplit.trans (if_pos hk))
    refine .check (fun _ => .advance (.pure ?_)) fun hne => ?_
    · exact .inr ⟨_, hs₁.advanced (Word.shown_false _) nofun, .half rfl (h.of_angle (.inr hk))⟩
    · exact absurd (hs₁.kind (Word.shown_false _)) hne
  · have hs₁ := hs.splitShift (hsplit.trans (if_neg hk))
    refine .check (fun hg => .advance (.pure ?_)) fun _ =>
      strays_reportUnexpected (Nat.le_of_eq hs₁.noticed.symm) expected
    have hw : w.kind = .greater := (hs₁.kind w.shown_false).symm.trans hg
    exact .inr ⟨ws, hs₁.advanced w.shown_false (by rw [hw]; decide), .before (h.of_angle (.inl hw))⟩

/-- Skimming from an operand goes astray. -/
def Skims (p : Parser Ty) : Prop :=
  ∀ r c ws s, Expects c ws → Ahead r false ws s → After p s fun _ s' => Strays r c s'

/-- Where skimming goes astray no comma follows. -/
theorem strays_commaSeparated {type : Parser Ty} (ht : Skims type) (hsteady : Steady True type)
    {ws : List Word} {s : State} (h : Expects true ws) (hs : Ahead r false ws s) :
    After (commaSeparated type) s fun _ s' => Strays r true s' := by
  refine (ht r true ws s h hs).andThen fun first s₁ h₁ => ?_
  refine .andThen (Q := fun _ s' => Strays r true s') ?_ fun _ _ h => .pure h
  refine .many (I := fun _ s' => Strays r true s') ?_ h₁
  intro _ s h
  have round := Round.accept (k := .comma) nofun (hsteady.bind fun a => Steady.pure (some a))
  refine h.after round.toSteady fun w ws hs hoff => .accept (fun hk => ?_) fun _ => .pure h
  exact absurd ((hs.kind w.shown_false).symm.trans hk) hoff.kind_ne.1

theorem strays_namedType {type : Parser Ty} (ht : Skims type) (hsteady : Steady True type) {c : Bool}
    {w : Word} {ws : List Word} {s : State} (hw : w.kind = .identifier) (h : Continues c ws)
    (hs : Ahead r false (w :: ws) s) : After (namedType type) s fun _ s' => Strays r c s' := by
  refine .here ((strays_qualifiedName hw h hs _).andThen fun name s₁ hs₁ => ?_)
  obtain ⟨ws₁, hs₁, h₁⟩ := hs₁
  refine .bind (.node ?_)
  have hs₂ := hs₁.stamped
  refine .accept (fun hk => ?_) fun _ => .pure (.inr ⟨ws₁, hs₂, .behind h₁⟩)
  obtain ⟨less, ws₂, rfl⟩ := h₁.exists_cons
  have hless : less.kind = .less := (hs₂.kind less.shown_false).symm.trans hk
  have hs₃ := hs₂.advanced less.shown_false (by rw [hless]; decide)
  have h₂ := h₁.of_operator (by rw [hless]; decide)
  -- an operand is to come, so the list of arguments is not empty
  obtain ⟨first, ws₃, rfl⟩ := h₂.exists_cons
  have hne : [Kind.greater, .shr].contains s₁.stamped.advanced.current.kind = false := by
    rw [hs₃.kind first.shown_false, Bool.eq_false_iff]
    exact fun hm => h₂.kind_not_mem (List.mem_append_left _ (List.contains_iff_mem.1 hm))
  refine .checkAny_eq ?_
  rw [hne]
  refine (strays_commaSeparated ht hsteady h₂ hs₃).andThen fun args s₄ h₄ => ?_
  refine h₄.after ((steady_consumeClosingAngle _).bind fun _ => steady_node _ _) fun w ws hs hoff => ?_
  refine (strays_closingAngle (c := c) hoff hs _).andThen fun _ s₅ h₅ => ?_
  refine h₅.after (steady_node _ _) fun w ws hs hoff => .node (.inr ⟨_, hs.stamped, hoff⟩)

/-- A type without modifiers is a name, or there is none. -/
theorem strays_baseType {type : Parser Ty} (ht : Skims type) (hsteady : Steady True type) :
    Skims (baseType type) := by
  intro r c ws s h hs
  obtain ⟨w, more, rfl⟩ := h.exists_cons
  have missing : w.kind ∉ typeStarts → After (baseType type) s fun _ s' => Strays r c s' := by
    intro hw
    refine .kind ?_
    rw [hs.kind w.shown_false]
    split
    case h_11 =>
      refine .current (.bind ?_)
      exact strays_of_failures (noticed_reported (Nat.le_of_eq hs.noticed.symm) _)
        (steady_emptySpan.bind fun _ => steady_nodeAt _ _)
    all_goals simp_all [typeStarts]
  cases h with
  | name hw h =>
    refine .kind ?_
    rw [hs.kind w.shown_false, hw]
    exact strays_namedType ht hsteady hw h hs
  | star hw => exact missing (by rcases hw with hw | hw <;> rw [hw] <;> decide)
  | other hw =>
    have hall : ∀ k ∈ operandStarts, k ∉ typeStarts := by decide
    exact missing (hall _ hw)

/-- No qualifier stands in front of an operand. -/
theorem strays_pointerTo {c : Bool} {ws : List Word} {s : State} (h : Expects true ws)
    (hs : Ahead r false ws s) (pointee : Ty) (start : Location) :
    After (pointerTo pointee start) s fun _ s' => Strays r c s' := by
  have none : After qualifiers s fun _ s' => Ahead r false ws s' := by
    refine .iterate (I := fun _ s' => Ahead r false ws s') ?_ hs
    intro q s hs
    obtain ⟨w, more, rfl⟩ := h.exists_cons
    refine .acceptAny (fun hm => ?_) fun _ => .pure hs
    rw [hs.kind w.shown_false] at hm
    have hall : ∀ k ∈ [Kind.kwConst, .kwVolatile], k ∈ [Kind.greater, .shr, .comma, .leftBracket,
        .rightParen, .dot, .less, .kwConst, .kwVolatile] := by decide
    exact absurd (hall _ hm) h.kind_not_mem
  exact none.andThen fun _ s₁ hs₁ => .node (.inr ⟨ws, hs₁.stamped, .before h⟩)

/-- A modifier is an operator, or a subscript that is skipped as a whole. -/
theorem strays_modifiedType {c : Bool} {w : Word} {ws : List Word} {s : State} (h : Off c (w :: ws))
    (hs : Ahead r false (w :: ws) s) (start : Location) (type : Ty) :
    After (modifiedType? skippedSize start type) s fun _ s' => Strays r c s' := by
  refine .kind ?_
  rw [hs.kind w.shown_false]
  split
  case h_1 hk =>
    have hs₁ := hs.advanced w.shown_false (by rw [hk]; decide)
    refine .advance ?_
    exact (strays_pointerTo (h.of_star (.inl hk)) hs₁ _ _).andThen fun _ _ h => .pure h
  case h_2 hk =>
    have hs₁ := (hs.advanced w.shown_false (by rw [hk]; decide)).stamped
    refine .advance (.bind (.node ?_))
    exact (strays_pointerTo (h.of_star (.inr hk)) hs₁ _ _).andThen fun _ _ h => .pure h
  case h_3 hk =>
    obtain ⟨inside, last, more, rfl, hi, hlast, hmore⟩ := h.of_bracket hk
    have hs₁ := hs.advanced w.shown_false (by rw [hk]; decide)
    have finish : ∀ size s', Ahead r false (last :: more) s' → After (do
        consume .rightBracket "Expected ']' after array size"
        return some (← node (Ty.mk (.array type size)) start)) s' fun _ s' => Strays r c s' := by
      intro size s' hs'
      refine .bind (.check (fun _ => .advance (.pure ?_)) fun hne => ?_)
      · have hs'' := hs'.advanced last.shown_false (by rw [hlast]; decide)
        exact .bind (.node (.pure (.inr ⟨more, hs''.stamped, .behind hmore⟩)))
      · exact absurd ((hs'.kind last.shown_false).trans hlast) hne
    refine .advance (.check (fun hclose => ?_) fun _ => ?_)
    · -- a bracket that is closed at once has nothing inside
      cases hi with
      | nil => exact finish none _ hs₁
      | word hw =>
        have hk := (hs₁.kind (Word.shown_false _)).symm.trans hclose
        rw [hk] at hw
        exact absurd hw (by decide)
      | group ho =>
        have hk := (hs₁.kind (Word.shown_false _)).symm.trans hclose
        rw [hk] at ho
        exact absurd ho (by decide)
    · refine .bind (.map (.here ?_))
      refine .andThen ((gives_skipGroup hi (by rw [hlast]; decide)) r _ hs₁) fun _ s₂ hs₂ => ?_
      exact .node (finish _ _ hs₂.2.stamped)
  case h_4 => exact .pure (.inr ⟨_, hs, h⟩)

theorem Skims.typeBody {type : Parser Ty} (ht : Skims type) (hsteady : Steady True type) :
    Skims (typeBody skippedSize type) := by
  intro r c ws s h hs
  refine .here ((strays_baseType ht hsteady r c ws s h hs).andThen fun base s₁ h₁ => ?_)
  refine .iterate (I := fun _ s' => Strays r c s') ?_ h₁
  intro type s h
  exact h.after (round_modifiedType steady_skippedSize _ type).toSteady fun w ws hs hoff =>
    strays_modifiedType hoff hs _ type

/-- However much room there is, skimming from an operand goes astray. -/
theorem skims_grammar (limit : Nat) (room : Nat) : Skims (grammar limit room).skim := by
  induction room with
  | zero =>
    intro r c ws s h hs
    have refused : After (refuse limit) s fun _ s' => r.failures < s'.failures := by
      refine .current (.bind ?_)
      have hskip : Steady True (do let _ ← advance) := steady_advance.bind fun _ => .pure _
      exact Nat.lt_of_lt_of_le (noticed_reported (Nat.le_of_eq hs.noticed.symm) _)
        (hskip.moves (s.reported _)).failures_le
    exact .here (refused.andThen fun _ s₁ hf => strays_of_failures hf (steady_node _ _))
  | succ room ih =>
    exact ih.typeBody ((grammar_steady limit room).skim.mono nofun)

/-- **A parenthesis in front of an operand that is more than a chain of names starts no cast.** -/
theorem gives_castAhead {inner : Level} (hsteady : Steady False inner.skim) (hskim : Skims inner.skim)
    {w : Word} {ws : List Word} (hw : w.kind = .leftParen) (h : Expects false ws) :
    Gives false (castAhead inner) (w :: ws) (w :: ws) (· = false) := by
  refine .probe (probe_castAhead hsteady) fun r s hs => ?_
  have hs₁ := hs.advanced w.shown_false (by rw [hw]; decide)
  refine .get (.advance (.checkAny fun b => .ite (fun _ => ?_) fun _ => .pure rfl))
  refine (hskim r false ws _ h hs₁).andThen fun target s₂ h₂ => .get (.ite (fun hf => ?_) fun _ => .pure rfl)
  rw [hs.noticed, beq_iff_eq] at hf
  rcases h₂ with hmore | ⟨us, hs₂, hoff⟩
  · exact absurd hf (Nat.ne_of_gt hmore)
  · obtain ⟨u, us, rfl⟩ := hoff.exists_cons
    refine .accept (fun hk => ?_) fun _ => .pure rfl
    have hu : u.kind = .rightParen := (hs₂.kind u.shown_false).symm.trans hk
    exact absurd (hoff.kind_ne.2 hu) nofun

end Skimming

/-! ## Printed expressions -/

theorem Balanced.operandWords {e : Expr} {least : Nat} {ws : List Word} (h : Balanced ws) :
    Balanced (e.operandWords least ws) := by
  unfold Expr.operandWords
  split
  · exact .group (o := .fixed .leftParen) (c := .fixed .rightParen) (by decide) h (by decide) .nil
  · exact h

/-- Operands with an operator between them. -/
theorem Balanced.between {as bs : List Word} {k : Kind} (ha : Balanced as) (hk : isInner k = true)
    (hb : Balanced bs) : Balanced (as ++ .fixed k :: bs) := ha.append (.word hk hb)

/-- Items with commas between them. -/
theorem Balanced.intercalate {wss : List (List Word)} (h : ∀ ws ∈ wss, Balanced ws) :
    Balanced ([Word.fixed .comma].intercalate wss) := by
  induction wss with
  | nil => exact .nil
  | cons ws more ih =>
    rw [List.forall_mem_cons] at h
    cases more with
    | nil => simpa [List.intercalate] using h.1
    | cons next more =>
      rw [List.intercalate_cons_cons, List.append_assoc]
      exact h.1.between rfl (ih h.2)

theorem isInner_unary (op : UnaryOp) : isInner op.kind = true := by
  cases op <;> rfl

/-- A printed expression closes the brackets it opens. -/
theorem balanced_words {e : Expr} (h : e.Plain) : Balanced e.words := by
  induction h using Expr.Plain.induct with
  | @literal value span id h =>
    have hk : isInner value.word.kind = true := by
      cases value with
      | bool value => cases value <;> rfl
      | _ => rfl
    exact .word hk .nil
  | identifier h => exact .word rfl .nil
  | double h ih => exact .word rfl ih.operandWords
  | @leading op e span id hd h ih =>
    rw [Expr.words_leading hd]
    exact .word (isInner_unary op) ih.operandWords
  | @trailing op e span id hop h ih =>
    rw [Expr.words]
    exact ih.operandWords.between (isInner_unary op) .nil
  | @binary op l r span id hl hr ihl ihr =>
    exact ihl.operandWords.between (by cases op <;> rfl) ihr.operandWords
  | @assign op target value span id ht ha hv iht ihv =>
    exact iht.operandWords.between (by cases op <;> rfl) ihv.operandWords
  | conditional hc ht he ihc iht ihe =>
    exact ihc.operandWords.between rfl (iht.operandWords.between rfl ihe.operandWords)
  | @call callee args span id hc ha ihc iha =>
    have hargs : Balanced ([Word.fixed .comma].intercalate (Expr.wordsEach args)) := by
      refine .intercalate fun ws hws => ?_
      rw [Expr.wordsEach_eq, List.mem_map] at hws
      obtain ⟨a, ha, rfl⟩ := hws
      exact iha a ha
    exact ihc.operandWords.append (.group (by decide) hargs (by decide) .nil)
  | member ho hn iho => exact iho.operandWords.between rfl (.word rfl .nil)
  | subscript ho hi iho ihi =>
    exact iho.operandWords.append (.group (by decide) ihi (by decide) .nil)

theorem operandStarts_literal {value : Literal} (h : value.isPlain = true) :
    value.word.kind ∈ operandStarts := by
  cases value with
  | int value => exact (by decide : Kind.intLiteral ∈ operandStarts)
  | bool value => cases value <;> decide
  | char value => exact (by decide : Kind.charLiteral ∈ operandStarts)
  | string value => exact (by decide : Kind.stringLiteral ∈ operandStarts)
  | float value => exact absurd h nofun
  | bits digits => exact absurd h nofun

theorem binaryOp_kind (op : BinaryOp) : binaryOp? op.kind = some op := by
  cases op <;> rfl

theorem assignOp_kind (op : AssignOp) : assignOp? op.kind = some op := by
  cases op <;> rfl

/-- Whether an expression holds together less than a chain of calls, members and subscripts. -/
def isWeak (e : Expr) : Bool := decide (e.strength < Print.callStrength)

/-- An operand between parentheses is an operand, whatever stands behind it. -/
theorem Expects.operandWords {e : Expr} {c : Bool} {least : Nat} {tail : List Word}
    (h : least ≤ e.strength → Expects c (e.words ++ tail)) :
    Expects c (e.operandWords least e.words ++ tail) := by
  unfold Expr.operandWords
  split
  · exact .other (by decide)
  · exact h (by omega)

/-- **A printed expression is an operand to come.**  Of a weak one the closing parenthesis cannot come up
before an operator. -/
theorem expects_words {e : Expr} (h : e.Plain) {c : Bool} {tail : List Word}
    (ht : Continues (c || isWeak e) tail) : Expects c (e.words ++ tail) := by
  induction h using Expr.Plain.induct generalizing c tail with
  | literal h => exact .other (operandStarts_literal h)
  | identifier h =>
    have ht : Continues (c || false) tail := ht
    rw [Bool.or_false] at ht
    exact .name rfl ht
  | double h ih =>
    have ht : Continues (c || true) tail := ht
    rw [Bool.or_true] at ht
    exact .star (.inr rfl) (.operandWords fun _ => ih ht)
  | @leading op e span id hd h ih =>
    have ht₁ : Continues (c || true) tail := ht
    rw [Bool.or_true] at ht₁
    rw [Expr.words_leading hd]
    by_cases hop : op = .deref
    · subst hop
      exact .star (.inl rfl) (.operandWords fun _ => ih ht₁)
    · refine .other ?_
      cases op <;> first | decide | exact absurd rfl hop
  | @trailing op e span id hop h ih =>
    rw [Expr.words, List.append_assoc]
    refine .operandWords fun _ => ih (.stop (.inl ?_))
    rcases hop with rfl | rfl <;> decide
  | @binary op l r span id hl hr ihl ihr =>
    have hweak : isWeak ⟨.binary op l r, span, id⟩ = true := by
      have hp := Expr.precedence_le op
      exact decide_eq_true (show 3 + op.precedence < 17 by omega)
    rw [hweak, Bool.or_true] at ht
    rw [Expr.words, List.append_assoc]
    refine .operandWords fun _ => ihl (.operator ?_ (.operandWords fun _ => ihr ht))
    show (binaryOp? op.kind).isSome = true
    rw [binaryOp_kind]
    rfl
  | @assign op target value span id ht ha hv iht ihv =>
    rw [Expr.words, List.append_assoc]
    refine .operandWords fun _ => iht (.stop (.inr ?_))
    show (assignOp? op.kind).isSome = true
    rw [assignOp_kind]
    rfl
  | conditional hc ht he ihc iht ihe =>
    rw [Expr.words, List.append_assoc]
    exact .operandWords fun _ => ihc (.stop (.inl (by decide)))
  | call hc ha ihc iha =>
    rw [Expr.words, List.append_assoc]
    exact .operandWords fun _ => ihc (.stop (.inl (by decide)))
  | @member object name span id ho hn iho =>
    have ht : Continues (c || false) tail := ht
    rw [Bool.or_false] at ht
    rw [Expr.words, List.append_assoc]
    refine .operandWords fun hle => iho ?_
    rw [isWeak, decide_eq_false (by omega), Bool.or_false]
    exact .member rfl rfl ht
  | @subscript object index span id ho hi iho ihi =>
    have ht : Continues (c || false) tail := ht
    rw [Bool.or_false] at ht
    rw [Expr.words, List.append_assoc, List.cons_append, List.append_assoc]
    refine .operandWords fun hle => iho ?_
    rw [isWeak, decide_eq_false (by omega), Bool.or_false]
    exact .subscript rfl (balanced_words hi) rfl ht

end FluxFront.Grammar
