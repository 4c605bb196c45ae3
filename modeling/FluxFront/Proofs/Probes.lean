import FluxFront.Proofs.CountedDepth

/-!
# Probes leave no trace

To tell some forms apart, a parse has to try: it skims over a type to see whether a cast or a
declaration follows, and it reads the names in front of `in`.  A trial reports errors, hands out
identities and splits tokens, none of which may remain if it comes to nothing.

* **Specification**: behind such a trial the state is the state in front of it, in every field: the
  tokens ahead and behind, the errors, the panic, the counters, the splits, the depth of nesting and
  whether types are skimmed.
* **Crux**: all that a trial does are moves, and the way back over any number of moves is exact
  (`Since.rewound`).
* **Depth**: a checkpoint holds neither the depth nor whether types are skimmed.  Every entry of a
  counting level counts the depth down again on its way out, also where it refuses and where it has
  reported something, and a skimmed type puts the flag back (`counted_steady`).
-/

namespace FluxFront.Grammar

open Token (Kind)

/-! ## The header of a loop over a range -/

/-- Something is noted only once the names are known to stand in front of `in`. -/
theorem rangeNames_events (s : State) :
    After rangeNames s fun o s' => o = none → s'.events = s.events := by
  have close : ∀ var index s₁, s₁.events = s.events → After (do
      if ← accept .kwIn then
        noteCommitted "range loop header" s.position
        return some (var, index)
      else return none : Parser (Option (String × Option String))) s₁
      fun o s' => o = none → s'.events = s.events := by
    intro var index s₁ h₁
    refine .accept (fun _ => ?_) fun _ => .pure fun _ => h₁
    exact ((steady_noteCommitted _ _).after _).andThen fun _ s₂ _ => .pure nofun
  have read : ∀ s₁ : State, s₁.events = s.events → s₁.advanced.events = s.events := by
    intro s₁ h₁
    rw [Move.events_eq .advance, h₁]
  have h₁ := read s rfl
  refine .position <| .check (fun _ => .advance ?_) fun _ => .pure fun _ => rfl
  refine .check (fun _ => .kindAt ?_) fun _ => .kindAt ?_
  · refine .ite (fun _ => .advance <| .advance ?_) fun _ => close _ _ _ h₁
    exact close _ _ _ (read _ (read _ h₁))
  · exact .ite (fun h => absurd h (by simp)) fun _ => close _ _ _ h₁

theorem rangeHeader_none {s : State} (h : (rangeHeader s).1 = none) : (rangeHeader s).2 = s := by
  have hrun := attempt_eq steady_rangeNames s
  have hnone : (rangeNames s).1 = none := by
    have h' : (attempt rangeNames s).1 = none := h
    rw [hrun] at h'
    exact h'
  have hevents : (rangeNames s).2.events = s.events := rangeNames_events s hnone
  show (attempt rangeNames s).2 = s
  rw [hrun, hnone]
  dsimp only
  rw [hevents]

/-! ## Declarations -/

/-- Where no declaration starts with a name, that is noted and nothing else has happened. -/
theorem nameLedDecl_none {inner : Level} (hi : inner.Steady) (s : State) :
    After (nameLedDecl inner) s fun o s' => o = none → ∃ events, s' = { s with events } := by
  refine .unmoved ((probe_declaratorForm hi.skim).state_eq s) fun o => ?_
  cases o with
  | none => exact fun _ => ⟨_, rfl⟩
  | some form =>
    refine .here <| .position <| (hi.type.after s).andThen fun type s₁ _ => ?_
    cases form with
    | named =>
      refine ((@steady_consumeName True _).after _).andThen fun name s₂ _ => ?_
      refine ((steady_finishFunctionPointer hi _).after _).andThen fun type s₃ _ => ?_
      refine ((steady_noteCommitted _ _).after _).andThen fun _ s₄ _ => ?_
      exact ((steady_finishVariables hi _ _ _ _ _).after _).andThen fun ds s₅ _ => .pure nofun
    | instantiation =>
      refine ((steady_instantiationArgs hi).after _).andThen fun args s₂ _ => ?_
      refine ((@steady_consume True _ _).after _).andThen fun _ s₃ _ => ?_
      refine ((@steady_consume True _ _).after _).andThen fun _ s₄ _ => ?_
      refine ((@steady_consumeName True _).after _).andThen fun name s₅ _ => ?_
      refine ((steady_noteCommitted _ _).after _).andThen fun _ s₆ _ => ?_
      exact ((steady_finishVariables hi _ _ _ _ _).after _).andThen fun ds s₇ _ => .pure nofun

theorem declarationBody_none {inner : Level} (hi : inner.Steady) (context : Context) (s : State) :
    After (declarationBody inner context) s fun o s' => o = none → ∃ events, s' = { s with events } := by
  have one : ∀ decl : Parser Decl, After (declarationBody.one decl) s fun o s' =>
      o = none → ∃ events, s' = { s with events } := fun _ => nofun
  refine .get ?_
  dsimp only
  split
  case h_13 => exact nameLedDecl_none hi s
  case h_14 =>
    refine .ite (fun _ => one _) fun _ => .ite (fun _ => ?_) fun _ => .pure fun _ => ⟨s.events, rfl⟩
    exact .map fun h => absurd h (Option.some_ne_none _)
  case h_9 => exact .map fun h => absurd h (Option.some_ne_none _)
  all_goals exact one _

/-! ## Every probe -/

/-- Telling casts and declarations apart leaves the state as it was, and so do the header of a loop
over a range and a declaration that turn out not to be there.  That holds in every state: in a panic or
not, at every depth, below the limit of nesting or at it, and while a type is skimmed or not.  Events are
the log of the run: the last of the four adds to it that a name was tried. -/
theorem probes_leave_no_trace (limit fuel : Nat) (context : Context) (s : State) :
    (castAhead (counted limit fuel) s).2 = s
      ∧ (declaratorForm (counted limit fuel) s).2 = s
      ∧ ((rangeHeader s).1 = none → (rangeHeader s).2 = s)
      ∧ ((declarationBody (counted limit fuel) context s).1 = none →
          ∃ events, (declarationBody (counted limit fuel) context s).2 = { s with events }) := by
  have hi := counted_steady limit fuel
  refine ⟨(probe_castAhead hi.skim).state_eq s, (probe_declaratorForm hi.skim).state_eq s, ?_, ?_⟩
  · exact rangeHeader_none
  · exact declarationBody_none hi context s

/-- The state in front of `f<a<b>> + c;`, where a type can be skimmed and nothing is declared, inside of
three constructs and while a type is skimmed. -/
def nestedComparison : State :=
  { State.ofTokens ([.identifier, .less, .identifier, .less, .identifier, .shr, .plus, .identifier,
      .semicolon].map fun kind => { kind, lexeme := "", span := default }) none with
    depth := 3, skimming := true }

/-- There, skimming splits the token `>>`, and afterwards it is whole again. -/
theorem probes_leave_no_trace_split :
    (rangeHeader nestedComparison).1 = none
      ∧ (rangeHeader nestedComparison).2 = nestedComparison
      ∧ ((counted 8 9).skim nestedComparison).2.splits.length = 1
      ∧ (declarationBody (counted 8 9) .topLevel nestedComparison).1.isNone
      ∧ ∃ events, (declarationBody (counted 8 9) .topLevel nestedComparison).2
          = { nestedComparison with events } := by
  have h := probes_leave_no_trace 8 9 .topLevel nestedComparison
  have hrange : (rangeHeader nestedComparison).1 = none := by decide
  have hdecl : (declarationBody (counted 8 9) .topLevel nestedComparison).1.isNone := by decide
  refine ⟨hrange, h.2.2.1 hrange, by decide, hdecl, ?_⟩
  exact h.2.2.2 (Option.isNone_iff_eq_none.1 hdecl)

end FluxFront.Grammar
