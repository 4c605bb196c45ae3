import FluxFront.Proofs.Building

/-!
# Rules for running parsers

One rule for each way in which the grammar goes on: looking at the cursor, reading a token, noting an
error, looping.  `Makes strict p nodes` is the description of a parser: from any state it builds the
nodes of its result.

A parser that is back in the state it started from, having looked ahead only, built nothing that
counts.
-/

namespace FluxFront.Grammar

open Token (Kind)

variable {α β : Type} {strict : Prop} {s : State} {R : β → State → Prop}

/-! ## Looking at the cursor -/

namespace After

theorem here {q : Location → Parser β} (h : After (q s.here) s R) :
    After (Grammar.here >>= q) s R := h

theorem current {q : Token → Parser β} (h : After (q s.current) s R) :
    After (Grammar.current >>= q) s R := h

theorem kind {q : Kind → Parser β} (h : After (q s.current.kind) s R) :
    After (Grammar.kind >>= q) s R := h

theorem position {q : Nat → Parser β} (h : After (q s.position) s R) :
    After (Grammar.position >>= q) s R := h

theorem kindAt {n : Nat} {q : Kind → Parser β} (h : After (q (s.kindAt n)) s R) :
    After (Grammar.kindAt n >>= q) s R := h

theorem get {q : State → Parser β} (h : After (q s) s R) : After (MonadState.get >>= q) s R := h

theorem spanFrom {start : Location} {q : Span → Parser β} (h : After (q (s.spanFrom start)) s R) :
    After (Grammar.spanFrom start >>= q) s R := h

theorem check {k : Kind} {q : Bool → Parser β} (yes : s.current.kind = k → After (q true) s R)
    (no : s.current.kind ≠ k → After (q false) s R) : After (Grammar.check k >>= q) s R := by
  show After (q (s.current.kind == k)) s R
  by_cases h : s.current.kind = k
  · rw [beq_iff_eq.2 h]; exact yes h
  · rw [beq_eq_false_iff_ne.2 h]; exact no h

theorem checkAny {ks : List Kind} {q : Bool → Parser β} (h : ∀ b, After (q b) s R) :
    After (Grammar.checkAny ks >>= q) s R := h _

theorem checkAny_eq {ks : List Kind} {q : Bool → Parser β}
    (h : After (q (ks.contains s.current.kind)) s R) : After (Grammar.checkAny ks >>= q) s R := h

theorem checkOrEnd {k : Kind} {q : Bool → Parser β} (h : ∀ b, After (q b) s R) :
    After (Grammar.checkOrEnd k >>= q) s R := h _

theorem atEnd {q : Bool → Parser β} (h : ∀ b, After (q b) s R) : After (Grammar.atEnd >>= q) s R :=
  h _

/-- A parser that comes back to where it started. -/
theorem unmoved {p : Parser α} {q : α → Parser β} (hp : (p s).2 = s) (h : ∀ a, After (q a) s R) :
    After (p >>= q) s R := by
  show After (q (p s).1) (p s).2 R
  rw [hp]
  exact h _

/-! ## Reading and building -/

theorem advance {q : Token → Parser β} (h : After (q s.current) s.advanced R) :
    After (Grammar.advance >>= q) s R := h

theorem accept {k : Kind} {q : Bool → Parser β}
    (yes : s.current.kind = k → After (q true) s.advanced R)
    (no : s.current.kind ≠ k → After (q false) s R) : After (Grammar.accept k >>= q) s R := by
  have hrun : Grammar.accept k s
      = if s.current.kind == k then (true, s.advanced) else (false, s) := by
    show (if s.current.kind == k then _ else _ : Parser Bool) s = _
    split <;> rfl
  show After (q (Grammar.accept k s).1) (Grammar.accept k s).2 R
  rw [hrun]
  by_cases h : s.current.kind = k
  · rw [if_pos (beq_iff_eq.2 h)]; exact yes h
  · rw [if_neg (by simpa using h)]; exact no h

theorem acceptAny {ks : List Kind} {q : Option Kind → Parser β}
    (yes : s.current.kind ∈ ks → After (q (some s.current.kind)) s.advanced R)
    (no : s.current.kind ∉ ks → After (q none) s R) : After (Grammar.acceptAny ks >>= q) s R := by
  have hrun : Grammar.acceptAny ks s
      = if ks.contains s.current.kind then (some s.current.kind, s.advanced) else (none, s) := by
    show (if ks.contains s.current.kind then _ else _ : Parser (Option Kind)) s = _
    split <;> rfl
  show After (q (Grammar.acceptAny ks s).1) (Grammar.acceptAny ks s).2 R
  rw [hrun]
  split
  · rename_i h
    exact yes (List.contains_iff_mem.1 h)
  · rename_i h
    exact no fun hm => h (List.contains_iff_mem.2 hm)

theorem emptySpan {q : Span → Parser β} (h : After (q (.single s.reached.lastEnd)) s.reached R) :
    After (Grammar.emptySpan >>= q) s R := h

theorem nodeAt {build : Span → NodeId → α} {span : Span} {Q : α → State → Prop}
    (h : Q (build span s.nextId) s.stamped) : After (Grammar.nodeAt build span) s Q := h

theorem node {build : Span → NodeId → α} {start : Location} {Q : α → State → Prop}
    (h : Q (build (s.spanFrom start) s.nextId) s.stamped) : After (Grammar.node build start) s Q :=
  h

theorem ite {c : Prop} [Decidable c] {p q : Parser β} (yes : c → After p s R)
    (no : ¬ c → After q s R) : After (if c then p else q) s R := by
  split
  · exact yes ‹_›
  · exact no ‹_›

end After

/-! ## Descriptions -/

/-- From every state, the parser builds the nodes of its result. -/
def Makes (strict : Prop) (p : Parser α) (nodes : α → List Node) : Prop :=
  ∀ s, After p s fun a s' => Builds strict s (nodes a) s'

/-- A parser that builds no node. -/
def Reads (p : Parser α) : Prop := ∀ s, After p s fun _ s' => Steps s s'

theorem Reads.pure (a : α) : Reads (Pure.pure a) := fun s => .refl s

theorem Reads.bind {p : Parser α} {q : α → Parser β} (hp : Reads p) (hq : ∀ a, Reads (q a)) :
    Reads (p >>= q) := by
  intro s
  refine (hp s).andThen fun a s₁ h₁ => ?_
  exact (hq a s₁).mono fun _ _ h₂ => h₁.trans h₂

theorem Reads.ite {c : Prop} [Decidable c] {p q : Parser α} (hp : Reads p) (hq : Reads q) :
    Reads (if c then p else q) := by
  split
  · exact hp
  · exact hq

/-- A parser that leaves the state as it is reads nothing. -/
theorem Reads.of_same {p : Parser α} (h : ∀ s, (p s).2 = s) : Reads p := by
  intro s
  show Steps s (p s).2
  rw [h]
  exact .refl s

/-- A parser that leaves the cursor and the counters alone reads nothing. -/
theorem Reads.of_quiet {f : State → State} (rest : ∀ s, (f s).rest = s.rest)
    (position : ∀ s, (f s).position = s.position) (lastEnd : ∀ s, (f s).lastEnd = s.lastEnd)
    (nextId : ∀ s, (f s).nextId = s.nextId) : Reads (modify f : Parser Unit) :=
  fun s => .single (.quiet (rest s) (position s) (lastEnd s) (nextId s))

section Primitives

theorem reads_current : Reads current := .of_same fun _ => rfl
theorem reads_kind : Reads kind := .of_same fun _ => rfl
theorem reads_kindAt (n : Nat) : Reads (kindAt n) := .of_same fun _ => rfl
theorem reads_position : Reads position := .of_same fun _ => rfl
theorem reads_get : Reads (get : Parser State) := .of_same fun _ => rfl
theorem reads_check (k : Kind) : Reads (check k) := .of_same fun _ => rfl
theorem reads_checkAny (ks : List Kind) : Reads (checkAny ks) := .of_same fun _ => rfl
theorem reads_atEnd : Reads atEnd := .of_same fun _ => rfl
theorem reads_atBoundary : Reads atBoundary := .of_same fun _ => rfl
theorem reads_advance : Reads advance := fun s => Steps.advance s

theorem reads_accept (k : Kind) : Reads (accept k) :=
  (reads_check k).bind fun b => by
    cases b
    · exact .pure _
    · exact reads_advance.bind fun _ => .pure _

theorem reads_acceptAny (ks : List Kind) : Reads (acceptAny ks) :=
  reads_kind.bind fun _ => .ite (reads_advance.bind fun _ => .pure _) (.pure _)

theorem reads_report (kind : Diagnostic.Kind) (message : String) (span : Span) :
    Reads (report kind message span) := by
  refine .of_quiet ?_ ?_ ?_ ?_ <;> intro s <;> unfold State.reported <;> split <;> rfl

theorem reads_reportStructural (kind : Diagnostic.Kind) (message : String) (span : Span) :
    Reads (reportStructural kind message span) := by
  refine .of_quiet ?_ ?_ ?_ ?_ <;> intro s <;> unfold State.recorded <;> split <;> rfl

theorem reads_reportUnexpected (expected : String) : Reads (reportUnexpected expected) :=
  reads_current.bind fun _ => .ite (reads_report _ _ _) (reads_report _ _ _)

theorem reads_note (event : Event) : Reads (note event) :=
  .of_quiet (fun _ => rfl) (fun _ => rfl) (fun _ => rfl) fun _ => rfl

theorem reads_noteCommitted (what : String) (start : Nat) :
    Reads (noteCommitted what start) :=
  reads_position.bind fun _ => reads_note _

theorem reads_consume (k : Kind) (expected : String) : Reads (consume k expected) :=
  (reads_check k).bind fun b => by
    cases b
    · exact reads_reportUnexpected _
    · exact reads_advance.bind fun _ => .pure _

theorem reads_consumeName (expected : String) : Reads (consumeName expected) :=
  (reads_check _).bind fun b => by
    cases b
    · exact (reads_reportUnexpected _).bind fun _ => .pure _
    · exact reads_advance.bind fun _ => .pure _

theorem reads_consumeClosingAngle (expected : String) :
    Reads (consumeClosingAngle expected) :=
  Reads.bind (p := modify State.splitShift) (fun s => Steps.single (.split s)) fun _ => reads_consume _ _

theorem reads_calm : Reads calm :=
  .of_quiet (fun _ => rfl) (fun _ => rfl) (fun _ => rfl) fun _ => rfl

end Primitives

/-! ## Loops -/

/-- An invariant of every step of a loop holds behind the loop. -/
theorem After.iterate {β : Type} {step : β → Parser (Option β)} {I : β → State → Prop}
    (hstep : ∀ b s, I b s → After (step b) s fun o s' => I (o.getD b) s') {b : β} {s : State}
    (h : I b s) : After (iterate step b) s I := by
  have run : ∀ fuel b s, I b s → After (iterateUpTo fuel step b) s I := by
    intro fuel
    induction fuel with
    | zero => intro b s h; exact h
    | succ fuel ih =>
      intro b s h
      refine (hstep b s h).andThen fun o s₁ h₁ => ?_
      cases o with
      | none => exact h₁
      | some next => exact ih next s₁ h₁
  exact run _ b s h

/-- What holds of the results so far after every round holds of all results behind the loop. -/
theorem After.many {p : Parser (Option α)} {I : List α → State → Prop}
    (hp : ∀ as s, I as s → After p s fun o s' => I (as ++ o.toList) s') {s : State} (h : I [] s) :
    After (many p) s I := by
  have run : ∀ fuel as s, I as s →
      After (manyUpTo fuel p) s fun more s' => I (as ++ more) s' := by
    intro fuel
    induction fuel with
    | zero => intro as s h; exact .pure (by simpa using h)
    | succ fuel ih =>
      intro as s h
      refine (hp as s h).andThen fun o s₁ h₁ => ?_
      cases o with
      | none => exact .pure (by simpa using h₁)
      | some a =>
        refine (ih _ s₁ h₁).andThen fun more s₂ h₂ => ?_
        exact .pure (by simpa using h₂)
  exact (run _ [] s h).mono fun _ _ h => by simpa using h

theorem Reads.iterate {β : Type} {step : β → Parser (Option β)}
    (h : ∀ b, Reads (step b)) (b : β) : Reads (iterate step b) := fun s =>
  After.iterate (I := fun _ s' => Steps s s')
    (fun b _ hb => (h b _).mono fun _ _ h' => hb.trans h') (.refl s)

theorem Reads.many {p : Parser (Option α)} (h : Reads p) : Reads (many p) := fun s =>
  After.many (I := fun _ s' => Steps s s')
    (fun _ _ has => (h _).mono fun _ _ h' => has.trans h') (.refl s)

theorem Makes.many {p : Parser (Option α)} {nodes : α → List Node}
    (h : Makes strict p fun o => o.toList.flatMap nodes) :
    Makes strict (many p) (List.flatMap nodes) := fun s =>
  After.many (I := fun as s' => Builds strict s (as.flatMap nodes) s')
    (fun as _ has => (h _).mono fun o _ h' => by simpa using has.append h') (.idle s)

/-- Items of one node each. -/
theorem Makes.singles {p : Parser (List α)} {node : α → Node}
    (h : Makes strict p (List.flatMap fun a => [node a])) : Makes strict p (List.map node) :=
  fun s => (h s).mono fun as _ h' => by rwa [List.map_eq_flatMap]

theorem Makes.commaSeparated {item : Parser α} {nodes : α → List Node}
    (h : Makes strict item nodes) : Makes strict (commaSeparated item) (List.flatMap nodes) := by
  have next : Makes strict
      (do if ← accept .comma then return some (← item) else return none : Parser (Option α))
      fun o => o.toList.flatMap nodes := by
    intro s
    refine .accept (fun _ => ?_) fun _ => .pure (Builds.idle s)
    refine (h _).andThen fun a s₁ h₁ => ?_
    exact .pure (by simpa using h₁.behind (.advance s))
  intro s
  refine (h s).andThen fun first s₁ h₁ => ?_
  refine (next.many s₁).andThen fun more s₂ h₂ => ?_
  exact .pure (h₁.append h₂)

theorem Makes.commaTerminated {close : Kind} {item : Parser α} {nodes : α → List Node}
    (h : Makes strict item nodes) :
    Makes strict (commaTerminated close item) (List.flatMap nodes) := by
  have next : Makes strict
      (do
        if ← accept .comma then
          if ← checkOrEnd close then return none else return some (← item)
        else return none : Parser (Option α))
      fun o => o.toList.flatMap nodes := by
    intro s
    refine .accept (fun _ => ?_) fun _ => .pure (Builds.idle s)
    refine .checkOrEnd fun b => ?_
    cases b with
    | true => exact .pure (.steps (.advance s))
    | false =>
      refine (h _).andThen fun a s₁ h₁ => ?_
      exact .pure (by simpa using h₁.behind (.advance s))
  intro s
  refine .checkOrEnd fun b => ?_
  cases b with
  | true => exact .pure (Builds.idle s)
  | false =>
    refine (h s).andThen fun first s₁ h₁ => ?_
    refine (next.many s₁).andThen fun more s₂ h₂ => ?_
    exact .pure (h₁.append h₂)

end FluxFront.Grammar
