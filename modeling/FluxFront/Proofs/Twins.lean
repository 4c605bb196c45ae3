import FluxFront.Proofs.Steadiness

/-!
# Runs side by side

Two parsers are twins if they go through the same steps: from states that differ only in what was
recorded and in their depth, they give the same result and lead to such states again.

* **Specification**: a `Likeness` says how the errors and the events of the two runs may differ, which
  events of the first run end the comparison, behind which nothing is claimed any more, and in which
  states the first run is looked at.
* **Way back**: going back to a checkpoint needs no rule of its own.  Both runs consist of moves, so each is
  back in the state that it had, and these were alike.
* **Composition**: `Twin` is a class.  Its instances follow the ways of composing parsers, so for most
  productions nothing but their definition has to be unfolded.
-/

set_option synthInstance.maxSize 1000

namespace FluxFront.Grammar

open Token (Kind)

variable {α β : Type}

/-! ## States that are alike -/

/-- How two runs may differ. -/
structure Likeness where
  /-- How the errors of the two runs are related. -/
  errors : Diagnostic.Collection → Diagnostic.Collection → Prop
  /-- An error that both runs record changes nothing about that. -/
  addError : ∀ {c c' : Diagnostic.Collection} (d : Diagnostic), d.kind ≠ .topLevelStatement →
    errors c c' → errors (c.addError d) (c'.addError d)
  /-- The events that both runs have noted. -/
  shared : Event → Bool
  /-- The events of the first run that end the comparison. -/
  ends : Event → Prop
  /-- The states of the first run that are looked at. -/
  scope : State → Prop := fun _ => True
  /-- No move leads out of them. -/
  scope_moves : ∀ {s s' : State}, Moves True s s' → scope s → scope s' := by exact fun _ _ => trivial

/-- The state with what another one holds on the side: what was recorded, its depth, and whether it
skims. -/
def State.aside (s t : State) : State :=
  { s with errors := t.errors, events := t.events, depth := t.depth, skimming := t.skimming }

namespace Likeness

/-- Runs that record the same errors. -/
def equal (shared : Event → Bool) (ends : Event → Prop) : Likeness where
  errors := Eq
  addError _ _ h := by rw [h]
  shared := shared
  ends := ends

variable {L : Likeness} {s s' : State}

/-- The comparison has ended. -/
def Over (L : Likeness) (s : State) : Prop := ∃ e ∈ s.events, L.ends e

/-- The states differ only in what they hold on the side. -/
structure Like (L : Likeness) (s s' : State) : Prop where
  same : s' = s.aside s'
  errors : L.errors s.errors s'.errors
  events : s'.events.filter L.shared = s.events.filter L.shared

/-- A change that neither reads nor writes what is held on the side. -/
theorem Like.change (h : L.Like s s') (f : State → State)
    (hf : ∀ s t, f (s.aside t) = (f s).aside t) : L.Like (f s) (f s') := by
  have hself : f s = (f s).aside s := hf s s
  have hother : f s' = (f s).aside s' := by
    conv => lhs; rw [h.same]
    exact hf s _
  refine ⟨?_, ?_, ?_⟩
  · rw [hother]
    rfl
  · rw [hother, hself]
    exact h.errors
  · rw [hother, hself]
    exact h.events

/-- Other events in place of those noted so far. -/
theorem Like.withEvents (h : L.Like s s') {es es' : List Event}
    (hes : es'.filter L.shared = es.filter L.shared) :
    L.Like { s with events := es } { s' with events := es' } :=
  ⟨congrArg (fun t : State => { t with events := es' }) h.same, h.errors, hes⟩

theorem Like.noted (h : L.Like s s') (e : Event) : L.Like (s.noted e) (s'.noted e) :=
  h.withEvents (by rw [List.filter_cons, List.filter_cons, h.events])

/-- The states agree in everything but what they hold on the side. -/
theorem Like.panicking_eq (h : L.Like s s') : s'.panicking = s.panicking := by
  rw [h.same]
  rfl

/-- States that also hold the same on the side are the same. -/
theorem Like.eq (h : L.Like s s') (hshared : ∀ e, L.shared e = true) (herrors : s'.errors = s.errors)
    (hdepth : s'.depth = s.depth) (hskimming : s'.skimming = s.skimming) : s' = s := by
  have hall : ∀ events : List Event, events.filter L.shared = events :=
    fun events => List.filter_eq_self.2 fun e _ => hshared e
  have hevents : s'.events = s.events := by
    have hfilter := h.events
    rwa [hall, hall] at hfilter
  rw [h.same, State.aside, herrors, hevents, hdepth, hskimming]

theorem Like.recorded (h : L.Like s s') {d : Diagnostic}
    (hadd : L.errors (s.errors.addError d) (s'.errors.addError d)) :
    L.Like (s.recorded d) (s'.recorded d) := by
  unfold State.recorded
  rw [h.panicking_eq]
  split
  · exact h
  · refine ⟨?_, hadd, h.events⟩
    conv => lhs; rw [h.same]
    rfl

theorem Like.reported (h : L.Like s s') {d : Diagnostic}
    (hadd : L.errors (s.errors.addError d) (s'.errors.addError d)) :
    L.Like (s.reported d) (s'.reported d) := by
  unfold State.reported
  rw [h.panicking_eq]
  split
  · refine ⟨?_, h.errors, h.events⟩
    conv => lhs; rw [h.same]
    rfl
  · refine ⟨?_, hadd, h.events⟩
    conv => lhs; rw [h.same]
    rfl

end Likeness

/-! ## Twins -/

/-- Two parsers that run side by side. -/
class Twin (L : Likeness) (p p' : Parser α) : Prop where
  left {s : State} (hs : L.scope s) : Moves True s (p s).2
  alike {s s' : State} (hs : L.scope s) (h : L.Like s s') :
    L.Over (p s).2 ∨ ((p' s').1 = (p s).1 ∧ L.Like (p s).2 (p' s').2 ∧ Moves True s' (p' s').2)

/-- Events are never forgotten. -/
theorem Moves.events_subset {noted : Prop} {s s' : State} (h : Moves noted s s') :
    ∀ e ∈ s.events, e ∈ s'.events := by
  induction h with
  | refl => exact fun e he => he
  | @tail s₁ f h last ih =>
    intro e he
    cases last with
    | note event hn => exact List.mem_cons_of_mem _ (ih e he)
    | advance => rw [Move.events_eq .advance]; exact ih e he
    | split => rw [Move.events_eq .split]; exact ih e he
    | reach => exact ih e he
    | restamp => exact ih e he
    | report d => rw [Move.events_eq (.report d)]; exact ih e he
    | record d => rw [Move.events_eq (.record d)]; exact ih e he
    | calm => exact ih e he

theorem Likeness.Over.moves {L : Likeness} {noted : Prop} {s s' : State} (h : L.Over s)
    (hm : Moves noted s s') : L.Over s' := by
  obtain ⟨e, he, hends⟩ := h
  exact ⟨e, hm.events_subset e he, hends⟩

section Rules

variable {L : Likeness}

/-! ### Composition -/

theorem Twin.andThen {p p' : Parser α} {q q' : α → Parser β} (hp : Twin L p p')
    (hq : ∀ a, Twin L (q a) (q' a)) : Twin L (p >>= q) (p' >>= q') := by
  constructor
  · intro s hs
    have hmoves := hp.left hs
    exact hmoves.trans ((hq _).left (L.scope_moves hmoves hs))
  · intro s s' hs h
    have hscope := L.scope_moves (hp.left hs) hs
    rcases hp.alike hs h with hover | ⟨hvalue, hlike, hmoves⟩
    · -- what ended the comparison stays noted
      exact .inl (hover.moves ((hq _).left hscope))
    · show L.Over (q (p s).1 (p s).2).2 ∨
        ((q' (p' s').1 (p' s').2).1 = (q (p s).1 (p s).2).1 ∧
          L.Like (q (p s).1 (p s).2).2 (q' (p' s').1 (p' s').2).2 ∧
          Moves True s' (q' (p' s').1 (p' s').2).2)
      rw [hvalue]
      refine ((hq _).alike hscope hlike).imp_right fun hnext => ?_
      exact ⟨hnext.1, hnext.2.1, hmoves.trans hnext.2.2⟩

instance (a : α) : Twin L (pure a) (pure a) where
  left {s} _ := .refl s
  alike {_ s'} _ h := .inr ⟨rfl, h, .refl s'⟩

instance {p p' : Parser α} {q q' : α → Parser β} [hp : Twin L p p'] [hq : ∀ a, Twin L (q a) (q' a)] :
    Twin L (p >>= q) (p' >>= q') := hp.andThen hq

instance {p p' : Parser α} {f : α → β} [hp : Twin L p p'] : Twin L (f <$> p) (f <$> p') :=
  hp.andThen fun a => (inferInstance : Twin L (pure (f a)) (pure (f a)))

instance {c : Prop} [Decidable c] {p p' q q' : Parser α} [Twin L p p'] [Twin L q q'] :
    Twin L (if c then p else q) (if c then p' else q') := by
  split <;> infer_instance

instance {f f' : α → Parser β} [h : ∀ a, Twin L (f a) (f' a)] (as : List α) :
    Twin L (as.mapM f) (as.mapM f') := by
  induction as with
  | nil => exact (inferInstance : Twin L (pure []) (pure []))
  | cons a as ih =>
    rw [List.mapM_cons, List.mapM_cons]
    infer_instance

/-- Looking at something of the state that is not held on the side. -/
theorem Twin.view (f : State → α) (hf : ∀ s t, f (s.aside t) = f s) :
    Twin L (fun s => (f s, s) : Parser α) (fun s => (f s, s) : Parser α) where
  left {s} _ := .refl s
  alike {s s'} _ h := by
    refine .inr ⟨?_, h, .refl s'⟩
    show f s' = f s
    rw [h.same]
    exact hf s _

/-- Going on in a way that depends on nothing held on the side. -/
theorem Twin.get {q q' : State → Parser β} (hq' : ∀ s t, q' (s.aside t) = q' s)
    (hq : ∀ s, Twin L (q s) (q' s)) : Twin L (MonadState.get >>= q) (MonadState.get >>= q') where
  left {s} hs := (hq s).left hs
  alike {s s'} hs h := by
    have hsame : q' s' = q' s := by
      rw [h.same]
      exact hq' s _
    show L.Over (q s s).2 ∨
      ((q' s' s').1 = (q s s).1 ∧ L.Like (q s s).2 (q' s' s').2 ∧ Moves True s' (q' s' s').2)
    rw [hsame]
    exact (hq s).alike hs h

theorem Twin.move {f : State → State} (hf : Move True f)
    (h : ∀ {s s' : State}, L.Like s s' → L.Like (f s) (f s')) :
    Twin L (modify f : Parser Unit) (modify f : Parser Unit) where
  left {s} _ := .single hf s
  alike {_ s'} _ hl := .inr ⟨rfl, h hl, .single hf s'⟩

/-! ### Looking ahead and loops -/

theorem Twin.lookAhead {p p' : Parser α} (h : Twin L p p') : Twin L (lookAhead p) (lookAhead p') := by
  constructor
  · intro s hs
    rw [lookAhead_eq_of_moves (h.left hs)]
    exact (h.left hs).notes
  · intro s s' hs hlike
    rw [lookAhead_eq_of_moves (h.left hs)]
    -- of what was looked at only the events remain
    rcases h.alike hs hlike with hover | ⟨hvalue, hafter, hmoves⟩
    · exact .inl hover
    · rw [lookAhead_eq_of_moves hmoves]
      exact .inr ⟨hvalue, hlike.withEvents hafter.events, hmoves.notes⟩

theorem moves_attempt {p : Parser (Option α)} {s : State} (h : Moves True s (p s).2) :
    Moves True s (attempt p s).2 := by
  rw [attempt_eq_of_moves h]
  cases (p s).1 with
  | some a => exact h
  | none => exact h.notes

instance {p p' : Parser (Option α)} [h : Twin L p p'] : Twin L (attempt p) (attempt p') := by
  refine ⟨fun hs => moves_attempt (h.left hs), ?_⟩
  intro s s' hs hlike
  rw [attempt_eq_of_moves (h.left hs)]
  rcases h.alike hs hlike with hover | ⟨hvalue, hafter, hmoves⟩
  · left
    cases (p s).1 with
    | some a => exact hover
    | none => exact hover
  · right
    refine ⟨?_, ?_, moves_attempt hmoves⟩
    · rw [attempt_eq_of_moves hmoves, hvalue]
    · rw [attempt_eq_of_moves hmoves, hvalue]
      cases (p s).1 with
      | some a => exact hafter
      | none => exact hlike.withEvents hafter.events

theorem Twin.iterateUpTo {step step' : β → Parser (Option β)} [h : ∀ b, Twin L (step b) (step' b)]
    (fuel : Nat) (b : β) : Twin L (iterateUpTo fuel step b) (iterateUpTo fuel step' b) := by
  induction fuel generalizing b with
  | zero => exact (inferInstance : Twin L (pure b) (pure b))
  | succ fuel ih =>
    refine (h b).andThen fun o => ?_
    cases o with
    | none => exact (inferInstance : Twin L (pure b) (pure b))
    | some next => exact ih next

theorem Twin.manyUpTo {p p' : Parser (Option α)} [h : Twin L p p'] (fuel : Nat) :
    Twin L (manyUpTo fuel p) (manyUpTo fuel p') := by
  induction fuel with
  | zero => exact (inferInstance : Twin L (pure []) (pure []))
  | succ fuel ih =>
    refine h.andThen fun o => ?_
    cases o with
    | none => exact (inferInstance : Twin L (pure []) (pure []))
    | some a => exact ih.andThen fun more => inferInstance

instance {step step' : β → Parser (Option β)} [∀ b, Twin L (step b) (step' b)] (b : β) :
    Twin L (iterate step b) (iterate step' b) :=
  .get (fun _ _ => rfl) fun s => .iterateUpTo s.bound b

instance {p p' : Parser (Option α)} [Twin L p p'] : Twin L (many p) (many p') :=
  .get (fun _ _ => rfl) fun s => .manyUpTo s.bound

/-! ### Primitives -/

instance : Twin L current current := .view _ fun _ _ => rfl
instance : Twin L kind kind := .view _ fun _ _ => rfl
instance (n : Nat) : Twin L (kindAt n) (kindAt n) := .view _ fun _ _ => rfl
instance : Twin L position position := .view _ fun _ _ => rfl
instance : Twin L here here := .view _ fun _ _ => rfl
instance (k : Kind) : Twin L (check k) (check k) := .view _ fun _ _ => rfl
instance (ks : List Kind) : Twin L (checkAny ks) (checkAny ks) := .view _ fun _ _ => rfl
instance : Twin L atEnd atEnd := .view _ fun _ _ => rfl
instance (k : Kind) : Twin L (checkOrEnd k) (checkOrEnd k) := .view _ fun _ _ => rfl
instance (start : Location) : Twin L (spanFrom start) (spanFrom start) := .view _ fun _ _ => rfl
instance : Twin L atBoundary atBoundary := .view _ fun _ _ => rfl

theorem State.advanced_aside (s t : State) : (s.aside t).advanced = s.advanced.aside t := by
  unfold State.advanced State.aside
  dsimp only
  split
  · rfl
  · split <;> rfl

theorem State.splitShift_aside (s t : State) : (s.aside t).splitShift = s.splitShift.aside t := by
  unfold State.splitShift State.aside
  dsimp only
  split
  · split <;> rfl
  · rfl

instance : Twin L advance advance := by
  have hmove : Twin L (modify State.advanced : Parser Unit) (modify State.advanced : Parser Unit) :=
    .move .advance fun h => h.change _ State.advanced_aside
  unfold advance
  infer_instance

instance : Twin L emptySpan emptySpan := by
  have hmove : Twin L (modify State.reached : Parser Unit) (modify State.reached : Parser Unit) :=
    .move .reach fun h => h.change _ fun _ _ => rfl
  have hview : Twin L (fun s => (Span.single s.lastEnd, s) : Parser Span) fun s => (.single s.lastEnd, s) :=
    .view _ fun _ _ => rfl
  exact hmove.andThen fun _ => hview

/-- Giving out identities. -/
theorem Twin.restamp (next : NodeId → NodeId) (le : ∀ n, n ≤ next n) :
    Twin L (modify fun s : State => { s with nextId := next s.nextId } : Parser Unit)
      (modify fun s : State => { s with nextId := next s.nextId } : Parser Unit) :=
  .move (.restamp next le) fun h =>
    h.change (fun s : State => { s with nextId := next s.nextId }) fun _ _ => rfl

instance : Twin L freshId freshId := by
  have hview : Twin L (fun s => (s.nextId, s) : Parser NodeId) fun s => (s.nextId, s) :=
    .view _ fun _ _ => rfl
  exact hview.andThen fun id => (Twin.restamp (· + 1) Nat.le_succ).andThen fun _ =>
    (inferInstance : Twin L (pure id) (pure id))

instance (build : Span → NodeId → α) (span : Span) : Twin L (nodeAt build span) (nodeAt build span) := by
  unfold nodeAt
  infer_instance

instance (build : Span → NodeId → α) (start : Location) :
    Twin L (node build start) (node build start) := by
  unfold node
  infer_instance

instance (k : Kind) : Twin L (accept k) (accept k) := by
  unfold accept
  infer_instance

instance (ks : List Kind) : Twin L (acceptAny ks) (acceptAny ks) := by
  unfold acceptAny
  infer_instance

/-! ### Errors and events -/

theorem Twin.report (kind : Diagnostic.Kind) (h : kind ≠ .topLevelStatement) (message : String)
    (span : Span) : Twin L (report kind message span) (report kind message span) :=
  .move (.report _) fun hlike => hlike.reported (L.addError _ h hlike.errors)

theorem Twin.reportStructural (kind : Diagnostic.Kind) (h : kind ≠ .topLevelStatement)
    (message : String) (span : Span) :
    Twin L (reportStructural kind message span) (reportStructural kind message span) :=
  .move (.record _) fun hlike => hlike.recorded (L.addError _ h hlike.errors)

instance (expected : String) : Twin L (reportUnexpected expected) (reportUnexpected expected) := by
  have heof := Twin.report (L := L) .unexpectedEof nofun
  have htoken := Twin.report (L := L) .expectedToken nofun
  unfold reportUnexpected
  infer_instance

instance (event : Event) : Twin L (note event) (note event) :=
  .move (.note event trivial) fun hlike => hlike.noted event

instance (what : String) (start : Nat) : Twin L (noteCommitted what start) (noteCommitted what start) := by
  unfold noteCommitted
  infer_instance

instance : Twin L calm calm := .move .calm fun hlike => hlike.change _ fun _ _ => rfl

instance (k : Kind) (expected : String) : Twin L (consume k expected) (consume k expected) := by
  unfold consume
  infer_instance

instance (expected : String) : Twin L (consumeName expected) (consumeName expected) := by
  unfold consumeName
  infer_instance

instance (expected : String) : Twin L (consumeClosingAngle expected) (consumeClosingAngle expected) := by
  have hmove : Twin L (modify State.splitShift : Parser Unit) (modify State.splitShift : Parser Unit) :=
    .move .split fun h => h.change _ State.splitShift_aside
  unfold consumeClosingAngle
  infer_instance

/-! ### Lists, groups and bodies -/

instance {item item' : Parser α} [Twin L item item'] :
    Twin L (commaSeparated item) (commaSeparated item') := by
  unfold commaSeparated
  infer_instance

instance {close : Kind} {item item' : Parser α} [Twin L item item'] :
    Twin L (commaTerminated close item) (commaTerminated close item') := by
  unfold commaTerminated
  infer_instance

instance (depth : Nat) : Twin L (skipInGroup depth) (skipInGroup depth) := by
  refine .andThen inferInstance fun k => ?_
  split
  -- a closing bracket ends the group or leaves it one level less deep
  case h_5 | h_6 | h_7 => split <;> infer_instance
  all_goals infer_instance

instance : Twin L skipGroup skipGroup :=
  .get (fun _ _ => rfl) fun s => (Twin.iterateUpTo s.rest.length 0).andThen fun _ => inferInstance

instance (after : String) : Twin L (expectSemicolon after) (expectSemicolon after) := by
  refine .andThen inferInstance fun accepted => ?_
  have hrest : Twin L (do
      let panicked := (← get).panicking
      reportUnexpected ("Expected ';' after " ++ after)
      if !panicked && (← checkAny statementStarts) then calm) (do
      let panicked := (← get).panicking
      reportUnexpected ("Expected ';' after " ++ after)
      if !panicked && (← checkAny statementStarts) then calm) :=
    .get (fun _ _ => rfl) fun s => inferInstance
  infer_instance

instance : Twin L synchronize synchronize := by
  unfold synchronize
  dsimp only
  infer_instance

instance (before : Nat) : Twin L (recoverAfterItem before) (recoverAfterItem before) := by
  have hpanic : Twin L (do if (← get).panicking then synchronize) (do
      if (← get).panicking then synchronize) := .get (fun _ _ => rfl) fun s => inferInstance
  unfold recoverAfterItem
  infer_instance

instance {close : Kind} {item item' : Parser (List α)} [Twin L item item'] :
    Twin L (bodyItems close item) (bodyItems close item') := by
  unfold bodyItems bodyRound
  infer_instance

end Rules

end FluxFront.Grammar
