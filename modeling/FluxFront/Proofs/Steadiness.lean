import FluxFront.Proofs.Moves

/-!
# Steady parsers

A parser is steady if all it does to the state are moves, and if the bound on loops never shows: with
any bound that exceeds what may still be read, it gives the same result and the same state.  So the
bound is no more than the reason why a loop ends, and the loop ends where the text makes it end.

* **Composition**: steadiness is shown from a parser's parts, one rule for each way of composing
  them.  Every production of the grammar is steady if the level below it is.
* **Loops**: a `Round` is a parser that has moved the cursor whenever it gives something.  A loop of
  rounds is steady, for each round takes away from what may still be read.
* **Looking ahead**: a steady parser that notes nothing leaves no trace once it is rewound.
-/

namespace FluxFront.Grammar

open Token (Kind)

variable {α β : Type} {noted : Prop}

/-! ## The bound on loops -/

/-- The state with another bound on loops. -/
def State.rebound (n : Nat) (s : State) : State := { s with bound := n }

theorem Move.rebound {f : State → State} (h : Move noted f) (n : Nat) (s : State) :
    f (s.rebound n) = (f s).rebound n := by
  have hs : Since s (f s) := (Moves.single h s).since
  have htuned : f (s.rebound n) = (f s).tuned n s.depth s.skimming := h.tuned n s.depth s.skimming s
  rw [htuned, State.tuned, ← hs.depth, ← hs.skimming]
  rfl

/-- A number of steps that no loop from a state on can exhaust. -/
def State.Ample (n : Nat) (s : State) : Prop := s.weight + 1 < n

theorem State.Ample.of_forward {n : Nat} {s s' : State} (h : s.Ample n) (hf : Forward s s') :
    s'.Ample n := by
  have hw := hf.weight
  unfold State.Ample at h ⊢
  omega

/-- In every state of a run the bound is ample if it was at its start. -/
theorem Moves.ample {noted : Prop} {s s' : State} (h : Moves noted s s') (hs : s.Ample s.bound) :
    s'.Ample s'.bound := by
  rw [h.since.bound]
  exact hs.of_forward h.forward

/-- The tokens of a text end with its end. -/
theorem exists_eof_closeTokens (tokens : List Token) : ∃ t ∈ closeTokens tokens, t.kind = .eof := by
  unfold closeTokens
  split
  · rename_i last hl
    split
    · exact ⟨last, List.mem_of_getLast? hl, ‹_›⟩
    · exact ⟨_, List.mem_append_right _ List.mem_cons_self, rfl⟩
  · exact ⟨_, List.mem_cons_self, rfl⟩

/-- From the start of a text on, the bound is ample: the end of the text is never read, and no other
token as more than two. -/
theorem State.ofTokens_ample (tokens : List Token) (maxErrors : Option Nat) :
    (State.ofTokens tokens maxErrors).Ample (State.ofTokens tokens maxErrors).bound := by
  obtain ⟨e, he, hk⟩ := exists_eof_closeTokens tokens
  obtain ⟨before, behind, hsplit⟩ := List.append_of_mem he
  have h₁ := Token.total_le before
  have h₂ := Token.total_le behind
  show Token.total (closeTokens tokens) + 1 < 2 * (closeTokens tokens).length + 1
  rw [hsplit, Token.total_append, Token.total, List.length_append, List.length_cons,
    e.weight_eof hk]
  omega

/-! ## Steady parsers -/

/-- A parser that does nothing but moves, and for which any ample bound is as good as any other. -/
structure Steady (noted : Prop) (p : Parser α) : Prop where
  moves (s : State) : Moves noted s (p s).2
  rebound (s : State) (n : Nat) (hs : s.Ample s.bound) (hn : s.Ample n) :
    p (s.rebound n) = ((p s).1, (p s).2.rebound n)

namespace Steady

theorem forward {p : Parser α} (h : Steady noted p) (s : State) : Forward s (p s).2 :=
  (h.moves s).forward

theorem mono {p : Parser α} {noted' : Prop} (hn : noted → noted') (h : Steady noted p) :
    Steady noted' p := ⟨fun s => (h.moves s).mono hn, h.rebound⟩

theorem after {p : Parser α} (h : Steady noted p) (s : State) :
    After p s fun _ s' => Forward s s' := h.forward s

theorem bound_eq {p : Parser α} (h : Steady noted p) (s : State) : (p s).2.bound = s.bound :=
  (h.moves s).since.bound

/-- Behind a steady parser an ample bound is still ample. -/
theorem ample {p : Parser α} (h : Steady noted p) {s : State} (hs : s.Ample s.bound) :
    (p s).2.Ample (p s).2.bound := (h.moves s).ample hs

/-- A steady parser behind a token has moved from in front of it. -/
theorem moved {p : Parser α} (h : Steady noted p) {s : State} (hk : s.current.kind ≠ .eof) :
    After p s.advanced fun _ s' => s.position < s'.position := by
  have hle := (h.forward s.advanced).position
  rw [State.position_advanced hk] at hle
  exact hle

theorem pure (a : α) : Steady noted (Pure.pure a : Parser α) :=
  ⟨fun s => .refl s, fun _ _ _ _ => rfl⟩

theorem bind {p : Parser α} {q : α → Parser β} (hp : Steady noted p)
    (hq : ∀ a, Steady noted (q a)) : Steady noted (p >>= q) := by
  constructor
  · intro s
    exact (hp.moves s).trans ((hq (p s).1).moves (p s).2)
  · intro s n hs hn
    show q (p (s.rebound n)).1 (p (s.rebound n)).2 = _
    rw [hp.rebound s n hs hn]
    exact (hq _).rebound _ n (hp.ample hs) (hn.of_forward (hp.forward s))

theorem map {p : Parser α} (f : α → β) (hp : Steady noted p) : Steady noted (f <$> p) :=
  hp.bind fun a => pure (f a)

theorem ite {c : Prop} [Decidable c] {p q : Parser α} (hp : Steady noted p)
    (hq : Steady noted q) : Steady noted (if c then p else q) := by
  split
  · exact hp
  · exact hq

/-- Two ways that are joined again. -/
theorem join {c : Prop} [Decidable c] {p q : Parser α} {k : α → Parser β} (hp : Steady noted p)
    (hq : Steady noted q) (hk : ∀ a, Steady noted (k a)) :
    Steady noted (if c then p >>= k else q >>= k) := ite (hp.bind hk) (hq.bind hk)

theorem mapM {f : α → Parser β} (h : ∀ a, Steady noted (f a)) (as : List α) :
    Steady noted (as.mapM f) := by
  induction as with
  | nil => exact pure []
  | cons a as ih =>
    rw [List.mapM_cons]
    exact (h a).bind fun b => ih.bind fun bs => pure (b :: bs)

/-- Looking at something of the state that the bound has no part in. -/
theorem view (f : State → α) (hf : ∀ n s, f (s.rebound n) = f s) :
    Steady noted (fun s => (f s, s) : Parser α) := by
  refine ⟨fun s => .refl s, fun s n _ _ => ?_⟩
  show (f (s.rebound n), s.rebound n) = _
  rw [hf]

/-- Going on in a way that the bound has no part in. -/
theorem get {q : State → Parser β} (hb : ∀ n s, q (s.rebound n) = q s)
    (hq : ∀ s, Steady noted (q s)) : Steady noted (MonadState.get >>= q) := by
  refine ⟨fun s => (hq s).moves s, fun s n hs hn => ?_⟩
  show q (s.rebound n) (s.rebound n) = _
  rw [hb]
  exact (hq s).rebound s n hs hn

theorem move {f : State → State} (h : Move noted f) : Steady noted (modify f : Parser Unit) := by
  refine ⟨fun s => .single h s, fun s n _ _ => ?_⟩
  show ((), f (s.rebound n)) = _
  rw [h.rebound]
  rfl

end Steady

/-! ## Looking ahead -/

/-- Looking ahead without noting anything leaves the state as it was. -/
theorem lookAhead_eq {p : Parser α} (h : Steady False p) (s : State) :
    lookAhead p s = ((p s).1, s) := by
  show ((p s).1, (p s).2.rewound s.checkpoint) = _
  rw [(h.moves s).rewound]

theorem Steady.lookAhead {p : Parser α} (h : Steady False p) : Steady noted (lookAhead p) := by
  constructor
  · intro s
    rw [lookAhead_eq h]
    exact .refl s
  · intro s n hs hn
    rw [lookAhead_eq h, lookAhead_eq h, h.rebound s n hs hn]

/-- Looking ahead leaves nothing behind but what was noted on the way. -/
theorem lookAhead_eq_of_moves {p : Parser α} {s : State} (h : Moves noted s (p s).2) :
    lookAhead p s = ((p s).1, { s with events := (p s).2.events }) := by
  show ((p s).1, (p s).2.rewound s.checkpoint) = _
  rw [h.since.rewound]

/-- An attempt either succeeds or, but for what was noted on the way, has not happened. -/
theorem attempt_eq_of_moves {p : Parser (Option α)} {s : State} (h : Moves noted s (p s).2) :
    attempt p s = ((p s).1, match (p s).1 with
      | some _ => (p s).2
      | none => { s with events := (p s).2.events }) := by
  have hrun : attempt p s = (match (p s).1 with
      | some a => Pure.pure (some a)
      | none => do
        modify (State.rewound s.checkpoint)
        return none : Parser (Option α)) (p s).2 := rfl
  rw [hrun]
  cases (p s).1 with
  | some a => rfl
  | none =>
    show (none, (p s).2.rewound s.checkpoint) = _
    rw [h.since.rewound]

theorem attempt_eq {p : Parser (Option α)} (h : Steady noted p) (s : State) :
    attempt p s = ((p s).1, match (p s).1 with
      | some _ => (p s).2
      | none => { s with events := (p s).2.events }) := attempt_eq_of_moves (h.moves s)

theorem Steady.attempt {p : Parser (Option α)} (h : Steady noted p) :
    Steady noted (attempt p) := by
  constructor
  · intro s
    rw [attempt_eq h]
    cases (p s).1 with
    | some a => exact h.moves s
    | none => exact (h.moves s).notes
  · intro s n hs hn
    rw [attempt_eq h, attempt_eq h, h.rebound s n hs hn]
    cases (p s).1 with
    | some a => rfl
    | none => rfl

/-! ## Loops -/

/-- A parser that has moved the cursor whenever it gives something. -/
structure Round (noted : Prop) (p : Parser (Option α)) : Prop extends Steady noted p where
  progress (s : State) : After p s fun o s' => o.isSome → s.position < s'.position

namespace Round

theorem weight_lt {p : Parser (Option α)} (h : Round noted p) {s : State} {a : α}
    (ha : (p s).1 = some a) : (p s).2.weight < s.weight := by
  have hp : s.position < (p s).2.position := h.progress s (by rw [ha]; rfl)
  have ht := (h.forward s).total
  omega

end Round

/-- A loop takes its first step and goes on with what it gave. -/
theorem iterateUpTo_succ (fuel : Nat) (step : β → Parser (Option β)) (b : β) (s : State) :
    iterateUpTo (fuel + 1) step b s =
      match (step b s).1 with
      | some next => iterateUpTo fuel step next (step b s).2
      | none => (b, (step b s).2) := by
  show (match (step b s).1 with
    | some next => iterateUpTo fuel step next
    | none => Pure.pure b : Parser β) (step b s).2 = _
  cases (step b s).1 with
  | none => rfl
  | some next => rfl

theorem manyUpTo_succ (fuel : Nat) (p : Parser (Option α)) (s : State) :
    manyUpTo (fuel + 1) p s =
      match (p s).1 with
      | some a => (a :: (manyUpTo fuel p (p s).2).1, (manyUpTo fuel p (p s).2).2)
      | none => ([], (p s).2) := by
  show (match (p s).1 with
    | some a => do return a :: (← manyUpTo fuel p)
    | none => Pure.pure [] : Parser (List α)) (p s).2 = _
  cases (p s).1 with
  | none => rfl
  | some a => rfl

/-- A loop ends by itself if each step takes away from what may still be read or from a rank. -/
theorem iterateUpTo_eq {step : β → Parser (Option β)} {rank : β → Nat}
    (h : ∀ b, Steady noted (step b))
    (hlt : ∀ b s, After (step b) s fun o s' =>
      ∀ next, o = some next → s'.weight + rank next < s.weight + rank b) (n : Nat) :
    ∀ fuel fuel' b (s : State), s.weight + rank b < fuel → s.weight + rank b < fuel' →
      s.Ample s.bound → s.Ample n →
      iterateUpTo fuel' step b (s.rebound n) =
        ((iterateUpTo fuel step b s).1, (iterateUpTo fuel step b s).2.rebound n) := by
  intro fuel
  induction fuel with
  | zero => intro _ _ _ h; omega
  | succ fuel ih =>
    intro fuel' b s hfuel hfuel' hs hn
    obtain ⟨fuel', rfl⟩ : ∃ m, fuel' = m + 1 := ⟨fuel' - 1, by omega⟩
    rw [iterateUpTo_succ, iterateUpTo_succ, (h b).rebound s n hs hn]
    cases ho : (step b s).1 with
    | none => rfl
    | some next =>
      have hlt' : (step b s).2.weight + rank next < s.weight + rank b := hlt b s next ho
      exact ih fuel' next _ (by omega) (by omega) ((h b).ample hs)
        (hn.of_forward ((h b).forward s))

theorem iterateUpTo_moves {step : β → Parser (Option β)} (h : ∀ b, Steady noted (step b))
    (fuel : Nat) (b : β) (s : State) : Moves noted s (iterateUpTo fuel step b s).2 := by
  induction fuel generalizing b s with
  | zero => exact .refl s
  | succ fuel ih =>
    rw [iterateUpTo_succ]
    cases (step b s).1 with
    | none => exact (h b).moves s
    | some next => exact ((h b).moves s).trans (ih next _)

theorem Steady.iterateUpTo {step : β → Parser (Option β)} (h : ∀ b, Steady noted (step b)) (fuel : Nat)
    (b : β) : Steady noted (iterateUpTo fuel step b) := by
  refine ⟨iterateUpTo_moves h fuel b, fun s n hs hn => ?_⟩
  induction fuel generalizing b s with
  | zero => rfl
  | succ fuel ih =>
    rw [iterateUpTo_succ, iterateUpTo_succ, (h b).rebound s n hs hn]
    cases (step b s).1 with
    | none => rfl
    | some next => exact ih next _ ((h b).ample hs) (hn.of_forward ((h b).forward s))

/-- A loop with a rank that may drop once without reading. -/
theorem Steady.iterateRanked {step : β → Parser (Option β)} (rank : β → Nat)
    (hrank : ∀ b, rank b ≤ 1) (h : ∀ b, Steady noted (step b))
    (hlt : ∀ b s, After (step b) s fun o s' =>
      ∀ next, o = some next → s'.weight + rank next < s.weight + rank b) (b : β) :
    Steady noted (iterate step b) := by
  constructor
  · intro s
    exact iterateUpTo_moves h s.bound b s
  · intro s n hs hn
    have hb := hrank b
    unfold State.Ample at hs hn
    exact iterateUpTo_eq h hlt n s.bound n b s (by omega) (by omega) hs hn

theorem Steady.iterate {step : β → Parser (Option β)} (h : ∀ b, Round noted (step b)) (b : β) :
    Steady noted (iterate step b) :=
  .iterateRanked (fun _ => 0) (fun _ => Nat.zero_le 1) (fun b => (h b).toSteady)
    (fun b _ _ ho => (h b).weight_lt ho) b

/-- A loop that puts the results of rounds behind those it starts with, one at a time. -/
theorem iterate_append (p : Parser (Option α)) (as : List α) (s : State) :
    iterate (fun as => do return (← p).map fun a => as ++ [a]) as s =
      (as ++ (many p s).1, (many p s).2) := by
  have run : ∀ fuel (as : List α) (s : State),
      iterateUpTo fuel (fun as => do return (← p).map fun a => as ++ [a]) as s =
        (as ++ (manyUpTo fuel p s).1, (manyUpTo fuel p s).2) := by
    intro fuel
    induction fuel with
    | zero =>
      intro as s
      show (as, s) = (as ++ [], s)
      rw [List.append_nil]
    | succ fuel ih =>
      intro as s
      have hstep : (do return (← p).map fun a => as ++ [a] : Parser (Option (List α))) s =
          ((p s).1.map fun a => as ++ [a], (p s).2) := rfl
      rw [iterateUpTo_succ, manyUpTo_succ, hstep]
      cases (p s).1 with
      | none =>
        show (as, (p s).2) = (as ++ [], (p s).2)
        rw [List.append_nil]
      | some a =>
        refine (ih (as ++ [a]) (p s).2).trans ?_
        rw [List.append_assoc]
        rfl
  exact run s.bound as s

theorem Round.append {p : Parser (Option α)} (h : Round noted p) (as : List α) :
    Round noted (do return (← p).map fun a => as ++ [a]) := by
  refine ⟨h.toSteady.bind fun _ => .pure _, fun s => ?_⟩
  refine (h.progress s).andThen fun o s' ho => .pure fun hsome => ho ?_
  rwa [Option.isSome_map] at hsome

theorem Steady.many {p : Parser (Option α)} (h : Round noted p) : Steady noted (many p) := by
  have heq : Grammar.many p = Grammar.iterate (fun as => do return (← p).map fun a => as ++ [a]) [] :=
    funext fun s => (iterate_append p [] s).symm
  rw [heq]
  exact .iterate h.append []

/-- A loop of rounds takes a step and, if there was one, goes on from there. -/
theorem iterate_eq {step : β → Parser (Option β)} (h : ∀ b, Round noted (step b)) (b : β) {s : State}
    (hs : s.Ample s.bound) :
    iterate step b s =
      match (step b s).1 with
      | some next => iterate step next (step b s).2
      | none => (b, (step b s).2) := by
  obtain ⟨fuel, hfuel⟩ : ∃ n, s.bound = n + 1 := ⟨s.bound - 1, by unfold State.Ample at hs; omega⟩
  show iterateUpTo s.bound step b s = _
  rw [hfuel, iterateUpTo_succ]
  cases ho : (step b s).1 with
  | none => rfl
  | some next =>
    have hlt := (h b).weight_lt ho
    have hs' := (h b).toSteady.ample hs
    have hb : (step b s).2.bound = s.bound := (h b).toSteady.bound_eq s
    have hw : (step b s).2.weight < fuel := by
      unfold State.Ample at hs
      omega
    have heq := @iterateUpTo_eq _ noted step (fun _ => 0) (fun b => (h b).toSteady)
      (fun b _ _ ho => (h b).weight_lt ho) (step b s).2.bound (step b s).2.bound fuel next
      (step b s).2 (by unfold State.Ample at hs'; omega) hw hs' hs'
    have hbound := ((Steady.iterate h next).bound_eq (step b s).2).symm
    refine heq.trans ?_
    show ((iterate step next (step b s).2).1, (iterate step next (step b s).2).2.rebound _) = _
    rw [hbound]
    rfl

/-- A loop of rounds takes the result of the first and those of the rounds behind it. -/
theorem many_eq {p : Parser (Option α)} (h : Round noted p) {s : State} (hs : s.Ample s.bound) :
    many p s =
      match (p s).1 with
      | some a => (a :: (many p (p s).2).1, (many p (p s).2).2)
      | none => ([], (p s).2) := by
  have hrun := (iterate_append p [] s).symm.trans (iterate_eq h.append [] hs)
  have hstep : (do return (← p).map fun a => [] ++ [a] : Parser (Option (List α))) s =
      ((p s).1.map fun a => [] ++ [a], (p s).2) := rfl
  rw [hstep] at hrun
  cases ho : (p s).1 with
  | none =>
    rw [ho] at hrun
    exact hrun
  | some a =>
    rw [ho] at hrun
    exact hrun.trans (iterate_append p ([] ++ [a]) (p s).2)

/-! ## The cursor, nodes and errors -/

section Primitives

theorem steady_current : Steady noted current := .view _ fun _ _ => rfl

theorem steady_kind : Steady noted kind := .view _ fun _ _ => rfl

theorem steady_kindAt (n : Nat) : Steady noted (kindAt n) := .view _ fun _ _ => rfl

theorem steady_position : Steady noted position := .view _ fun _ _ => rfl

theorem steady_here : Steady noted here := .view _ fun _ _ => rfl

theorem steady_check (k : Kind) : Steady noted (check k) := .view _ fun _ _ => rfl

theorem steady_checkAny (ks : List Kind) : Steady noted (checkAny ks) := .view _ fun _ _ => rfl

theorem steady_checkOrEnd (k : Kind) : Steady noted (checkOrEnd k) := steady_checkAny _

theorem steady_atEnd : Steady noted atEnd := steady_check _

theorem steady_spanFrom (start : Location) : Steady noted (spanFrom start) :=
  .view _ fun _ _ => rfl

theorem steady_advance : Steady noted advance :=
  steady_current.bind fun _ => (Steady.move .advance).bind fun _ => .pure _

theorem steady_accept (k : Kind) : Steady noted (accept k) :=
  (steady_check k).bind fun _ => .ite (steady_advance.bind fun _ => .pure _) (.pure _)

theorem steady_acceptAny (ks : List Kind) : Steady noted (acceptAny ks) :=
  steady_kind.bind fun _ => .ite (steady_advance.bind fun _ => .pure _) (.pure _)

theorem steady_emptySpan : Steady noted emptySpan := by
  have h : Steady noted (fun s => (Span.single s.reached.lastEnd, s)) := .view _ fun _ _ => rfl
  exact h.bind fun span => (Steady.move .reach).bind fun _ => .pure span

theorem steady_freshId : Steady noted freshId := by
  have h : Steady noted (fun s => (s.nextId, s)) := .view _ fun _ _ => rfl
  exact h.bind fun id => (Steady.move (.restamp (· + 1) Nat.le_succ)).bind fun _ => .pure id

theorem steady_nodeAt (build : Span → NodeId → α) (span : Span) :
    Steady noted (nodeAt build span) := steady_freshId.bind fun _ => .pure _

theorem steady_node (build : Span → NodeId → α) (start : Location) :
    Steady noted (node build start) := (steady_spanFrom _).bind fun _ => steady_nodeAt _ _

theorem steady_report (kind : Diagnostic.Kind) (message : String) (span : Span) :
    Steady noted (report kind message span) := .move (.report _)

theorem steady_reportStructural (kind : Diagnostic.Kind) (message : String) (span : Span) :
    Steady noted (reportStructural kind message span) := .move (.record _)

theorem steady_reportUnexpected (expected : String) : Steady noted (reportUnexpected expected) :=
  steady_current.bind fun _ => .ite (steady_report _ _ _) (steady_report _ _ _)

theorem steady_note (event : Event) : Steady True (note event) := .move (.note event trivial)

theorem steady_noteCommitted (what : String) (start : Nat) :
    Steady True (noteCommitted what start) := steady_position.bind fun _ => steady_note _

theorem steady_calm : Steady noted calm := .move .calm

theorem steady_consume (k : Kind) (expected : String) : Steady noted (consume k expected) :=
  (steady_check k).bind fun _ =>
    .ite (steady_advance.bind fun _ => .pure _) (steady_reportUnexpected _)

theorem steady_consumeName (expected : String) : Steady noted (consumeName expected) :=
  (steady_check _).bind fun _ => .ite (steady_advance.bind fun _ => .pure _)
    ((steady_reportUnexpected _).bind fun _ => .pure _)

theorem steady_consumeClosingAngle (expected : String) :
    Steady noted (consumeClosingAngle expected) :=
  (Steady.move .split).bind fun _ => steady_consume _ _

end Primitives

/-! ## Rounds -/

namespace Round

/-- Going on behind a token of some kind, and giving nothing if it is not there. -/
theorem accept {k : Kind} (hk : k ≠ .eof) {p : Parser (Option α)} (hp : Steady noted p) :
    Round noted (do if ← accept k then p else return none) := by
  refine ⟨(steady_accept k).bind fun _ => .ite hp (.pure none), fun s => ?_⟩
  refine .accept (fun hs => ?_) fun _ => .pure nofun
  exact (hp.moved (by rw [hs]; exact hk)).mono fun _ _ h _ => h

end Round

theorem Steady.commaSeparated {item : Parser α} (h : Steady noted item) :
    Steady noted (commaSeparated item) := by
  have next := Round.accept (k := .comma) nofun (h.bind fun a => Steady.pure (some a))
  exact h.bind fun _ => (Steady.many next).bind fun _ => .pure _

theorem Steady.commaTerminated {item : Parser α} (close : Kind) (h : Steady noted item) :
    Steady noted (commaTerminated close item) := by
  have more : Steady noted (do
      if ← checkOrEnd close then return none else return some (← item) : Parser (Option α)) :=
    (steady_checkOrEnd close).bind fun _ => .ite (.pure none) (h.bind fun a => .pure (some a))
  have next := Round.accept (k := .comma) nofun more
  refine (steady_checkOrEnd close).bind fun _ => .ite (.pure _) ?_
  exact h.bind fun _ => (Steady.many next).bind fun _ => .pure _

theorem round_skipInGroup (depth : Nat) : Round noted (skipInGroup depth) := by
  refine ⟨?_, fun s => ?_⟩
  · refine steady_kind.bind fun k => ?_
    split
    case h_1 => exact .pure _
    case h_2 | h_3 | h_4 | h_8 => exact steady_advance.bind fun _ => .pure _
    case h_5 | h_6 | h_7 =>
      split
      · exact .pure _
      · exact steady_advance.bind fun _ => .pure _
  · have read : ∀ next : Nat, s.current.kind ≠ .eof →
        After (do let _ ← advance; return some next) s fun o s' =>
          o.isSome → s.position < s'.position := by
      intro next hk
      refine .advance (.pure fun _ => ?_)
      rw [State.position_advanced hk]
      exact Nat.lt_succ_self _
    refine .kind ?_
    split
    case h_1 => exact .pure nofun
    case h_2 hk | h_3 hk | h_4 hk => exact read _ (by rw [hk]; decide)
    case h_5 hk | h_6 hk | h_7 hk =>
      split
      · exact .pure nofun
      · exact read _ (by rw [hk]; decide)
    case h_8 hk _ _ _ _ _ _ => exact read _ hk

theorem steady_skipGroup : Steady noted skipGroup :=
  .get (fun _ _ => rfl) fun s =>
    (Steady.iterateUpTo (fun depth => (round_skipInGroup depth).toSteady) s.rest.length 0).bind fun _ => .pure ()

/-! ## Recovery -/

theorem steady_expectSemicolon (after : String) : Steady noted (expectSemicolon after) := by
  refine (steady_accept _).bind fun _ => .ite (.pure _) ?_
  refine .get (fun _ _ => rfl) fun s => ?_
  refine (steady_reportUnexpected _).bind fun _ => ?_
  exact (steady_checkAny _).bind fun _ => .ite steady_calm (.pure _)

theorem steady_atBoundary : Steady noted atBoundary := .view _ fun _ _ => rfl

/-- The end of the text is a boundary. -/
theorem atBoundary_eof (s : State) :
    After atBoundary s fun b s' => s' = s ∧ (¬ b = true → s.current.kind ≠ .eof) := by
  refine ⟨rfl, fun hb he => hb ?_⟩
  show (s.current.kind == .eof || _ || _ || _) = true
  rw [he]
  rfl

theorem steady_synchronize : Steady True synchronize := by
  have skip : ∀ _ : Unit, Round True (do
      if ← atBoundary then return none
      else
        let _ ← advance
        return some () : Parser (Option Unit)) := by
    refine fun _ => ⟨?_, fun s => ?_⟩
    · exact steady_atBoundary.bind fun _ => .ite (.pure _) (steady_advance.bind fun _ => .pure _)
    · refine (atBoundary_eof s).andThen fun b s' hb => ?_
      obtain ⟨rfl, hb⟩ := hb
      refine .ite (fun _ => .pure nofun) fun hf => .advance (.pure fun _ => ?_)
      rw [State.position_advanced (hb hf)]
      exact Nat.lt_succ_self _
  refine steady_position.bind fun start => (Steady.iterate skip ()).bind fun _ => ?_
  have last : Steady True (do
      let stop ← position
      if start < stop then note (.skipped (stop - start) (← current))) :=
    steady_position.bind fun _ => .ite (steady_current.bind fun _ => steady_note _) (.pure _)
  exact steady_atEnd.bind fun _ => .ite last (steady_calm.bind fun _ => last)

theorem steady_recoverAfterItem (before : Nat) : Steady True (recoverAfterItem before) := by
  refine steady_position.bind fun _ => steady_atEnd.bind fun _ => .ite ?_ ?_
  · refine steady_current.bind fun _ => (steady_note _).bind fun _ => ?_
    exact steady_advance.bind fun _ => steady_synchronize
  · exact .get (fun _ _ => rfl) fun s => .ite steady_synchronize (.pure _)

/-! ## Types -/

theorem round_segment : Round noted segment? := by
  constructor
  · refine (steady_check _).bind fun _ => (steady_kindAt _).bind fun _ => ?_
    refine .ite ?_ (.pure _)
    exact steady_advance.bind fun _ => steady_advance.bind fun _ => .pure _
  · intro s
    refine .check (fun hk => ?_) fun _ => .kindAt (.pure nofun)
    refine .kindAt (.ite (fun _ => ?_) fun _ => .pure nofun)
    have h : Steady noted (do return some (← advance).lexeme : Parser (Option String)) :=
      steady_advance.bind fun _ => .pure _
    exact .advance ((h.moved (by rw [hk]; decide)).mono fun _ _ h _ => h)

theorem steady_qualifiedName (expected : String) : Steady noted (qualifiedName expected) :=
  (steady_consumeName _).bind fun _ => (Steady.many round_segment).bind fun _ => .pure _

theorem round_qualifier (q : Qualifiers) : Round noted (qualifier? q) := by
  refine ⟨?_, fun s => ?_⟩
  · refine (steady_acceptAny _).bind fun o => ?_
    split <;> exact .pure _
  · refine .acceptAny (fun hk => ?_) fun _ => .pure nofun
    have hne : s.current.kind ≠ .eof := by
      intro he
      rw [he] at hk
      exact absurd hk (by decide)
    have hlt : s.position < s.advanced.position := by
      rw [State.position_advanced hne]
      exact Nat.lt_succ_self _
    split <;> exact .pure fun _ => hlt

theorem steady_qualifiers : Steady noted qualifiers := .iterate round_qualifier {}

theorem steady_bitWidth : Steady noted bitWidth := by
  refine (steady_check _).bind fun _ => .ite ?_ ((steady_reportUnexpected _).bind fun _ => .pure _)
  refine steady_advance.bind fun token => ?_
  split <;> exact .pure _

theorem steady_dataLayout : Steady noted dataLayout := by
  refine (steady_acceptAny _).bind fun _ => (steady_consume _ _).bind fun _ => ?_
  refine (steady_consume _ _).bind fun _ => steady_bitWidth.bind fun _ => ?_
  exact (steady_consume _ _).bind fun _ => .pure _

theorem steady_builtinType (builtin : Builtin) : Steady noted (builtinType builtin) :=
  steady_here.bind fun _ => steady_advance.bind fun _ => steady_node _ _

theorem steady_typeList {type : Parser Ty} (h : Steady noted type) (close : Kind) :
    Steady noted (typeList type close) :=
  (steady_check _).bind fun _ => .ite (.pure _) h.commaSeparated

theorem steady_resultType {type : Parser Ty} (h : Steady noted type) :
    Steady noted (resultType type) :=
  (steady_accept _).bind fun _ => .ite h (steady_emptySpan.bind fun _ => steady_nodeAt _ _)

theorem steady_functionType {type : Parser Ty} (h : Steady noted type) :
    Steady noted (functionType type) := by
  refine steady_here.bind fun _ => steady_advance.bind fun _ => (steady_consume _ _).bind fun _ => ?_
  refine (steady_typeList h _).bind fun _ => (steady_consume _ _).bind fun _ => ?_
  exact (steady_resultType h).bind fun _ => steady_node _ _

theorem steady_namedType {type : Parser Ty} (h : Steady noted type) :
    Steady noted (namedType type) := by
  refine steady_here.bind fun start => (steady_qualifiedName _).bind fun _ => ?_
  refine (steady_node _ _).bind fun base => (steady_accept _).bind fun _ => .ite ?_ (.pure _)
  refine (steady_checkAny _).bind fun _ => .join (.pure _) h.commaSeparated fun args => ?_
  exact (steady_consumeClosingAngle _).bind fun _ => steady_node _ _

theorem steady_baseType {type : Parser Ty} (h : Steady noted type) :
    Steady noted (baseType type) := by
  refine steady_kind.bind fun k => ?_
  split
  case h_1 | h_2 | h_3 | h_4 | h_5 => exact steady_builtinType _
  case h_6 | h_7 | h_8 =>
    exact steady_here.bind fun _ => steady_dataLayout.bind fun _ => steady_node _ _
  case h_9 => exact steady_functionType h
  case h_10 => exact steady_namedType h
  case h_11 =>
    refine steady_current.bind fun _ => (steady_report _ _ _).bind fun _ => ?_
    exact steady_emptySpan.bind fun _ => steady_nodeAt _ _

theorem steady_pointerTo (pointee : Ty) (start : Location) :
    Steady noted (pointerTo pointee start) := steady_qualifiers.bind fun _ => steady_node _ _

theorem round_modifiedType {size : Parser Expr} (h : Steady noted size) (start : Location)
    (type : Ty) : Round noted (modifiedType? size start type) := by
  have star : Steady noted (do return some (← pointerTo type start)) :=
    (steady_pointerTo _ _).bind fun _ => .pure _
  have starStar : Steady noted (do
      let inner ← node (Ty.mk (.pointer type {})) start
      return some (← pointerTo inner start)) :=
    (steady_node _ _).bind fun _ => (steady_pointerTo _ _).bind fun _ => .pure _
  have bracket : Steady noted (do
      let size ← do
        if ← check .rightBracket then pure none else some <$> size
      consume .rightBracket "Expected ']' after array size"
      return some (← node (Ty.mk (.array type size)) start)) := by
    refine (steady_check _).bind fun _ => .join (.pure _) (h.map some) fun size => ?_
    exact (steady_consume _ _).bind fun _ => (steady_node _ _).bind fun _ => .pure _
  constructor
  · refine steady_kind.bind fun k => ?_
    split
    · exact steady_advance.bind fun _ => star
    · exact steady_advance.bind fun _ => starStar
    · exact steady_advance.bind fun _ => bracket
    · exact .pure _
  · intro s
    refine .kind ?_
    split
    case h_1 hk => exact .advance ((star.moved (by rw [hk]; decide)).mono fun _ _ h _ => h)
    case h_2 hk => exact .advance ((starStar.moved (by rw [hk]; decide)).mono fun _ _ h _ => h)
    case h_3 hk => exact .advance ((bracket.moved (by rw [hk]; decide)).mono fun _ _ h _ => h)
    case h_4 => exact .pure fun h => absurd h Bool.false_ne_true

theorem steady_typeBody {size : Parser Expr} {type : Parser Ty} (hs : Steady noted size)
    (ht : Steady noted type) : Steady noted (typeBody size type) :=
  steady_here.bind fun _ => (steady_baseType ht).bind fun base =>
    .iterate (round_modifiedType hs _) base

theorem steady_skippedSize : Steady noted skippedSize :=
  steady_here.bind fun _ => steady_skipGroup.bind fun _ => steady_node _ _

theorem steady_arraySize {expression : Parser Expr} (h : Steady noted expression) :
    Steady noted (arraySize expression) :=
  .get (fun _ _ => rfl) fun _ => .ite steady_skippedSize h

/-! ## Going in and out -/

theorem within_eq (limit : Nat) (p refused : Parser α) (s : State) :
    within limit p refused s =
      if s.depth < limit then ((p s.deeper).1, (p s.deeper).2.shallower) else refused s := by
  show (if s.depth < limit then (do
    modify State.deeper
    let a ← p
    modify State.shallower
    return a) else refused : Parser α) s = _
  split <;> rfl

theorem skimmed_eq (p : Parser α) (s : State) :
    skimmed p s = ((p (s.skims true)).1, (p (s.skims true)).2.skims s.skimming) := rfl

theorem Steady.within {p refused : Parser α} (limit : Nat) (hp : Steady noted p)
    (hr : Steady noted refused) : Steady noted (within limit p refused) := by
  constructor
  · intro s
    rw [within_eq]
    split
    · exact (hp.moves s.deeper).shallower
    · exact hr.moves s
  · intro s n hs hn
    rw [within_eq, within_eq, show (s.rebound n).depth = s.depth from rfl]
    split
    · rw [show (s.rebound n).deeper = s.deeper.rebound n from rfl, hp.rebound s.deeper n hs hn]
      rfl
    · exact hr.rebound s n hs hn

theorem Steady.skimmed {p : Parser α} (hp : Steady noted p) : Steady noted (skimmed p) := by
  constructor
  · intro s
    exact (hp.moves (s.skims true)).skims
  · intro s n hs hn
    rw [skimmed_eq, skimmed_eq, show (s.rebound n).skims true = (s.skims true).rebound n from rfl,
      hp.rebound (s.skims true) n hs hn]
    rfl

/-! ## A level without room -/

theorem steady_refuse (limit : Nat) : Steady noted (refuse limit) :=
  steady_current.bind fun _ => (steady_report _ _ _).bind fun _ =>
    steady_advance.bind fun _ => .pure _

theorem steady_refuseNode (limit : Nat) (build : Span → NodeId → α) :
    Steady noted (refuseNode limit build) :=
  steady_here.bind fun _ => (steady_refuse _).bind fun _ => steady_node _ _

/-! ## Probes -/

/-- A run that notes nothing and is rewound. -/
def Probe (p : Parser α) : Prop := ∃ q, Steady False q ∧ p = lookAhead q

/-- Behind a probe the state is as it was. -/
theorem Probe.state_eq {p : Parser α} (h : Probe p) (s : State) : (p s).2 = s := by
  obtain ⟨q, hq, rfl⟩ := h
  rw [lookAhead_eq hq]

theorem Probe.steady {p : Parser α} (h : Probe p) : Steady noted p := by
  obtain ⟨q, hq, rfl⟩ := h
  exact hq.lookAhead

theorem probe_castAhead {inner : Level} (hs : Steady False inner.skim) :
    Probe (castAhead inner) := by
  refine ⟨_, ?_, rfl⟩
  refine .get (fun _ _ => rfl) fun s => steady_advance.bind fun _ => ?_
  refine (steady_checkAny _).bind fun _ => .ite (hs.bind fun target => ?_) (.pure _)
  refine .get (fun _ _ => rfl) fun s => .ite ?_ (.pure _)
  exact (steady_accept _).bind fun _ => .ite (steady_kind.bind fun _ => .pure _) (.pure _)

theorem steady_instantiationFollows : Steady noted instantiationFollows := by
  have group : Steady noted (do skipGroup; accept .rightParen) :=
    steady_skipGroup.bind fun _ => steady_accept _
  refine (steady_accept _).bind fun _ => .join group (.pure _) fun closed => ?_
  refine steady_kind.bind fun _ => (steady_kindAt _).bind fun _ => ?_
  exact (steady_kindAt _).bind fun _ => .pure _

theorem probe_declaratorForm {inner : Level} (hs : Steady False inner.skim) :
    Probe (declaratorForm inner) := by
  refine ⟨_, ?_, rfl⟩
  refine .get (fun _ _ => rfl) fun s => hs.bind fun type => ?_
  refine .get (fun _ _ => rfl) fun s => .ite (.pure _) ?_
  refine (steady_check _).bind fun _ => (steady_kindAt _).bind fun _ => ?_
  refine .ite (.pure _) (steady_instantiationFollows.bind fun _ => ?_)
  exact .ite (.pure _) (.pure _)

/-! ## The header of a loop over a range -/

theorem steady_rangeNames : Steady True rangeNames := by
  refine steady_position.bind fun before => (steady_check _).bind fun _ => .ite ?_ (.pure _)
  refine steady_advance.bind fun _ => ?_
  have close : ∀ var index, Steady True (do
      if ← accept .kwIn then
        noteCommitted "range loop header" before
        return some (var, index)
      else return none : Parser (Option (String × Option String))) := fun _ _ =>
    (steady_accept _).bind fun _ => .ite ((steady_noteCommitted _ _).bind fun _ => .pure _) (.pure _)
  refine (steady_check _).bind fun _ => (steady_kindAt _).bind fun _ => .ite ?_ (close _ none)
  exact steady_advance.bind fun _ => steady_advance.bind fun _ => close _ _

end FluxFront.Grammar
