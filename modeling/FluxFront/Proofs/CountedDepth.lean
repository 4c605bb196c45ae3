import FluxFront.Proofs.SteadyProductions
import FluxFront.Proofs.TwinProductions

/-!
# Counting the depth

The grammar that runs counts its depth in the state and refuses where the count has come to the limit.
The other way to tie the levels together uses up the room instead.  At a depth the room is the rest of
the limit, so the two give the same.

* **Specification**: a program reads, reports and leaves behind what it does over the grammar that has
  as much room as the limit (`program_eq`), and with any number of levels that covers the limit
  (`programOver_counted`).
* **Crux**: the levels are compared at each depth apart, by induction on the number of levels left.  An
  entry is asked at a depth and comes back to it, whatever it reads, because all that it does in between
  are moves.
* **Skimming**: while the flag is set, the entries for types are those that skim them.  So there are two
  modes and a grammar for each of them (`grammarIn`), of which one is the grammar that uses up the room.
-/

namespace FluxFront.Grammar

variable {α : Type} {depth limit : Nat} {skimming : Bool}

/-! ## Runs at one depth -/

/-- Runs that record the same, of which the first is at a given depth and skims or does not. -/
def atDepth (depth : Nat) (skimming : Bool) : Likeness :=
  { Likeness.equal (fun _ => true) fun _ => False with
    scope := fun s => s.depth = depth ∧ s.skimming = skimming
    scope_moves := fun hm hs => ⟨hm.since.depth.trans hs.1, hm.since.skimming.trans hs.2⟩ }

/-- Twins at a depth do the same in every state of this depth. -/
theorem Twin.run_eq {p p' : Parser α} (h : Twin (atDepth depth skimming) p p') {s : State}
    (hd : s.depth = depth) (hs : s.skimming = skimming) : p s = p' s := by
  have hlike : (atDepth depth skimming).Like s s := ⟨rfl, rfl, rfl⟩
  rcases h.alike ⟨hd, hs⟩ hlike with ⟨_, -, hends⟩ | ⟨hvalue, hafter, hmoves⟩
  · exact hends.elim
  · -- both runs come back to the depth they started at
    have hback := (h.left ⟨hd, hs⟩).since
    have hback' := hmoves.since
    have hstate : (p' s).2 = (p s).2 := by
      refine hafter.eq (fun _ => rfl) (Eq.symm hafter.errors) ?_ ?_
      · rw [hback'.depth, ← hback.depth]
      · rw [hback'.skimming, ← hback.skimming]
    exact (Prod.ext hvalue hstate).symm

/-! ## Going in and out -/

/-- Below the limit an entry runs one level further in. -/
theorem Twin.within_room {p refused p' : Parser α} (hroom : depth < limit)
    (h : Twin (atDepth (depth + 1) skimming) p p') :
    Twin (atDepth depth skimming) (within limit p refused) p' where
  left {s} hs := by
    rw [within_eq, if_pos (by rw [hs.1]; exact hroom)]
    have hdeeper : s.deeper.depth = depth + 1 := congrArg (· + 1) hs.1
    exact (h.left ⟨hdeeper, hs.2⟩).shallower
  alike {s s'} hs hlike := by
    rw [within_eq, if_pos (by rw [hs.1]; exact hroom)]
    have hdeeper : s.deeper.depth = depth + 1 := congrArg (· + 1) hs.1
    have hin : (atDepth (depth + 1) skimming).Like s.deeper s' := ⟨hlike.same, hlike.errors, hlike.events⟩
    rcases h.alike ⟨hdeeper, hs.2⟩ hin with ⟨_, -, hends⟩ | ⟨hvalue, hafter, hmoves⟩
    · exact hends.elim
    · exact .inr ⟨hvalue, ⟨hafter.same, hafter.errors, hafter.events⟩, hmoves⟩

/-- At the limit an entry refuses. -/
theorem Twin.within_full {p refused p' : Parser α} (hfull : limit ≤ depth)
    (h : Twin (atDepth depth skimming) refused p') :
    Twin (atDepth depth skimming) (within limit p refused) p' where
  left {s} hs := by
    rw [within_eq, if_neg (by rw [hs.1]; exact Nat.not_lt.2 hfull)]
    exact h.left hs
  alike {s s'} hs hlike := by
    rw [within_eq, if_neg (by rw [hs.1]; exact Nat.not_lt.2 hfull)]
    exact h.alike hs hlike

theorem Twin.skimmed {p p' : Parser α} (h : Twin (atDepth depth true) p p') :
    Twin (atDepth depth skimming) (skimmed p) p' where
  left {s} hs := by
    rw [skimmed_eq]
    exact (h.left (s := s.skims true) ⟨hs.1, rfl⟩).skims
  alike {s s'} hs hlike := by
    have hin : (atDepth depth true).Like (s.skims true) s' := ⟨hlike.same, hlike.errors, hlike.events⟩
    rcases h.alike (s := s.skims true) ⟨hs.1, rfl⟩ hin with ⟨_, -, hends⟩ | ⟨hvalue, hafter, hmoves⟩
    · exact hends.elim
    · exact .inr ⟨hvalue, ⟨hafter.same, hafter.errors, hafter.events⟩, hmoves⟩

/-- An array size where types are skimmed or not. -/
def sizeIn (skimming : Bool) (expression : Parser Expr) : Parser Expr :=
  if skimming then skippedSize else expression

theorem arraySize_eq {expression : Parser Expr} {s : State} (hs : s.skimming = skimming) :
    arraySize expression s = sizeIn skimming expression s := by
  show (if s.skimming = true then skippedSize else expression : Parser Expr) s = _
  rw [hs]
  rfl

instance {L : Likeness} {expression expression' : Parser Expr} [Twin L expression expression'] :
    Twin L (sizeIn skimming expression) (sizeIn skimming expression') := by
  unfold sizeIn
  infer_instance

/-- In the states of one depth it is known whether array sizes are skipped or read. -/
instance {expression expression' : Parser Expr} [Twin (atDepth depth skimming) expression expression'] :
    Twin (atDepth depth skimming) (arraySize expression) (sizeIn skimming expression') := by
  have h : Twin (atDepth depth skimming) (sizeIn skimming expression) (sizeIn skimming expression') :=
    inferInstance
  constructor
  · intro s hs
    rw [arraySize_eq hs.2]
    exact h.left hs
  · intro s s' hs hlike
    rw [arraySize_eq hs.2]
    exact h.alike hs hlike

/-! ## Levels in two modes -/

/-- The level above another one where types are skimmed or not. -/
def Level.aboveIn (skimming : Bool) (inner : Unit → Level) : Level :=
  { Level.above inner with
    type := delay fun _ => typeBody (sizeIn skimming (inner ()).expression) (inner ()).type }

/-- A number of levels over a given one at the bottom, where types are skimmed or not. -/
def grammarIn (bottom : Level) (skimming : Bool) : Nat → Level
  | 0 => bottom
  | room + 1 => Level.aboveIn skimming fun _ => grammarIn bottom skimming room

theorem grammarIn_false (bottom : Level) (room : Nat) :
    grammarIn bottom false room = grammarOver bottom room := by
  induction room with
  | zero => rfl
  | succ room ih =>
    show Level.aboveIn false (fun _ => grammarIn bottom false room) = _
    rw [ih]
    rfl

/-- What a type that is skimmed does is the same in both modes. -/
theorem grammarIn_skim (bottom : Level) (skimming : Bool) (room : Nat) :
    (grammarIn bottom skimming room).skim = (grammarOver bottom room).skim := by
  induction room with
  | zero => rfl
  | succ room ih =>
    show typeBody skippedSize (grammarIn bottom skimming room).skim = _
    rw [ih]
    rfl

/-- Where types are skimmed, all of them are. -/
theorem grammarIn_type {bottom : Level} (h : bottom.type = bottom.skim) (room : Nat) :
    (grammarIn bottom true room).type = (grammarOver bottom room).skim := by
  induction room with
  | zero => exact h
  | succ room ih =>
    show typeBody skippedSize (grammarIn bottom true room).type = _
    rw [ih]
    rfl

instance {L : Likeness} {inner inner' : Level} [TwinLevel L inner inner'] :
    TwinLevel L (Level.aboveIn skimming fun _ => inner) (Level.aboveIn skimming fun _ => inner') :=
  { (inferInstance : TwinLevel L (Level.above fun _ => inner) (Level.above fun _ => inner')) with
    type := (inferInstance : Twin L (typeBody (sizeIn skimming inner.expression) inner.type)
      (typeBody (sizeIn skimming inner'.expression) inner'.type)) }

instance {L : Likeness} {bottom : Level} [h : TwinLevel L bottom bottom] (room : Nat) :
    TwinLevel L (grammarIn bottom skimming room) (grammarIn bottom skimming room) := by
  induction room with
  | zero => exact h
  | succ room ih =>
    exact (inferInstance : TwinLevel L (Level.aboveIn skimming fun _ => grammarIn bottom skimming room)
      (Level.aboveIn skimming fun _ => grammarIn bottom skimming room))

theorem Level.Steady.aboveIn {inner : Unit → Level} (h : (inner ()).Steady) :
    (Level.aboveIn skimming inner).Steady :=
  { Level.Steady.above h with
    type := steady_typeBody (.ite steady_skippedSize h.expression) h.type }

theorem grammarIn_steady {bottom : Level} (h : bottom.Steady) (room : Nat) :
    (grammarIn bottom skimming room).Steady := by
  induction room with
  | zero => exact h
  | succ room ih => exact @Level.Steady.aboveIn skimming (fun _ => grammarIn bottom skimming room) ih

/-! ## Levels at one depth -/

/-- Below the limit a counting level does what the level above the same does. -/
theorem TwinLevel.counted_room {refused inner inner' : Level} (hroom : depth < limit)
    (h : TwinLevel (atDepth (depth + 1) skimming) inner inner')
    (hskim : Twin (atDepth (depth + 1) true) (typeBody (arraySize inner.expression) inner.type)
      (typeBody skippedSize inner'.skim)) :
    TwinLevel (atDepth depth skimming) (Level.counted limit refused fun _ => inner)
      (Level.aboveIn skimming fun _ => inner') := by
  constructor
  case skim => exact .skimmed (.within_room hroom hskim)
  case type =>
    exact .within_room hroom (inferInstance : Twin _ (typeBody (arraySize inner.expression) inner.type)
      (typeBody (sizeIn skimming inner'.expression) inner'.type))
  case expression =>
    exact .within_room hroom (inferInstance : Twin _ (expressionBody inner) (expressionBody inner'))
  case conditional =>
    exact .within_room hroom (inferInstance : Twin _ (conditionalBody inner) (conditionalBody inner'))
  case power =>
    exact .within_room hroom (inferInstance : Twin _ (powerBody inner) (powerBody inner'))
  case unary =>
    exact .within_room hroom (inferInstance : Twin _ (unaryBody inner) (unaryBody inner'))
  case statement =>
    exact fun context => .within_room hroom
      (inferInstance : Twin _ (statementBody inner context) (statementBody inner' context))
  case items =>
    exact fun context => .within_room hroom
      (inferInstance : Twin _ (some <$> itemsBody inner context) (some <$> itemsBody inner' context))
  case members =>
    exact fun context what => .within_room hroom (inferInstance : Twin _
      (some <$> membersBody inner context what) (some <$> membersBody inner' context what))
  case declaration =>
    exact fun context => .within_room hroom
      (inferInstance : Twin _ (declarationBody inner context) (declarationBody inner' context))

/-- At the limit a counting level refuses. -/
theorem TwinLevel.counted_full {refused bottom : Level} {inner : Unit → Level} (hfull : limit ≤ depth)
    (h : TwinLevel (atDepth depth skimming) refused bottom)
    (hskim : Twin (atDepth depth true) refused.type bottom.skim) :
    TwinLevel (atDepth depth skimming) (Level.counted limit refused inner) bottom where
  type := .within_full hfull h.type
  skim := .skimmed (.within_full hfull hskim)
  expression := .within_full hfull h.expression
  conditional := .within_full hfull h.conditional
  power := .within_full hfull h.power
  unary := .within_full hfull h.unary
  statement := fun context => .within_full hfull (h.statement context)
  items := fun context => .within_full hfull (h.items context)
  members := fun context what => .within_full hfull (h.members context what)
  declaration := fun context => .within_full hfull (h.declaration context)

/-- A level that does the same at every depth and in both modes, where skimming a type is reading it. -/
structure Level.Uniform (refused : Level) : Prop where
  twin (depth : Nat) (skimming : Bool) : TwinLevel (atDepth depth skimming) refused refused
  type_eq : refused.type = refused.skim

/-- Counting levels have the room that the limit and their number leave. -/
theorem twin_countedOver {refused : Level} (h : refused.Uniform) (limit fuel depth : Nat) (skimming : Bool) :
    TwinLevel (atDepth depth skimming) (countedOver limit refused fuel)
      (grammarIn refused skimming (min fuel (limit - depth))) := by
  induction fuel generalizing depth skimming with
  | zero =>
    rw [Nat.zero_min]
    exact h.twin depth skimming
  | succ fuel ih =>
    rcases Nat.lt_or_ge depth limit with hroom | hfull
    · have hleft : min (fuel + 1) (limit - depth) = min fuel (limit - (depth + 1)) + 1 := by omega
      rw [hleft]
      refine .counted_room hroom (ih (depth + 1) skimming) ?_
      -- the flag is set, so the entries for types of the level below are those that skim
      have hskims := ih (depth + 1) true
      have htype := hskims.type
      rw [grammarIn_type h.type_eq, ← grammarIn_skim refused skimming] at htype
      exact (inferInstance : Twin (atDepth (depth + 1) true)
        (typeBody (arraySize (countedOver limit refused fuel).expression) (countedOver limit refused fuel).type)
        (typeBody (sizeIn true (grammarIn refused true (min fuel (limit - (depth + 1)))).expression)
          (grammarIn refused skimming (min fuel (limit - (depth + 1)))).skim))
    · rw [Nat.sub_eq_zero_of_le hfull, Nat.min_zero]
      refine .counted_full hfull (h.twin depth skimming) ?_
      have htype := (h.twin depth true).type
      rwa [h.type_eq] at htype ⊢

theorem Level.full_uniform (limit : Nat) : (Level.full limit).Uniform := ⟨fun _ _ => inferInstance, rfl⟩

/-- In a state the counting levels have the room that its depth leaves. -/
theorem twin_counted (limit fuel : Nat) (s : State) :
    TwinLevel (atDepth s.depth s.skimming) (counted limit fuel)
      (grammarIn (Level.full limit) s.skimming (min fuel (limit - s.depth))) :=
  twin_countedOver (Level.full_uniform limit) limit fuel s.depth s.skimming

/-- At the start of a text there is as much room as the limit. -/
theorem reads_counted_start (limit : Nat) :
    TwinLevel (atDepth 0 false) (counted limit (limit + 1)) (grammar limit limit) := by
  have hreads := twin_countedOver (Level.full_uniform limit) limit (limit + 1) 0 false
  rwa [grammarIn_false, Nat.sub_zero, Nat.min_eq_right (Nat.le_succ limit)] at hreads

theorem skim_counted (limit fuel : Nat) (s : State) :
    (counted limit fuel).skim s = (grammar limit (min fuel (limit - s.depth))).skim s := by
  rw [(twin_counted limit fuel s).skim.run_eq rfl rfl, grammarIn_skim]
  rfl

/-! ## Counting levels are steady -/

/-- What a type that is skimmed does is what the grammar does that has no expressions to read there. -/
theorem steady_skim_counted (limit fuel : Nat) : Steady False (counted limit fuel).skim := by
  have hskim : ∀ room, Steady False (grammar limit room).skim := fun room => (grammar_steady limit room).skim
  constructor
  · intro s
    rw [skim_counted]
    exact (hskim _).moves s
  · intro s n hs hn
    rw [skim_counted, skim_counted]
    exact (hskim _).rebound s n hs hn

theorem Level.Steady.counted {refused : Level} {inner : Unit → Level} (limit : Nat)
    (hr : refused.Steady) (h : (inner ()).Steady)
    (hskim : Grammar.Steady False (Level.counted limit refused inner).skim) :
    (Level.counted limit refused inner).Steady where
  type := (steady_typeBody (steady_arraySize h.expression) h.type).within limit hr.type
  skim := hskim
  expression := (steady_expressionBody h).within limit hr.expression
  conditional := (steady_conditionalBody h).within limit hr.conditional
  power := (steady_powerBody h).within limit hr.power
  unary := (steady_unaryBody h).within limit hr.unary
  statement context := (steady_statementBody h context).within limit (hr.statement context)
  items context := ((steady_itemsBody h context).map some).within limit (hr.items context)
  members context what := ((steady_membersBody h context what).map some).within limit (hr.members context what)
  declaration context := (steady_declarationBody h context).within limit (hr.declaration context)

/-- Every counting level is steady, whatever depth its entries are asked at. -/
theorem counted_steady (limit fuel : Nat) : (counted limit fuel).Steady := by
  induction fuel with
  | zero => exact Level.full_steady limit
  | succ fuel ih =>
    exact @Level.Steady.counted (Level.full limit) (fun _ => counted limit fuel) limit
      (Level.full_steady limit) ih (steady_skim_counted limit (fuel + 1))

/-! ## Programs -/

/-- A program over counting levels is one over the grammar with the room that the limit leaves. -/
theorem programOver_countedOver {refused : Level} (h : refused.Uniform) (config : Config) (limit fuel : Nat)
    {s : State} (hs : s.skimming = false) :
    programOver config (countedOver limit refused fuel) s =
      programOver config (grammarOver refused (min fuel (limit - s.depth))) s := by
  have hlevel := twin_countedOver h limit fuel s.depth false
  rw [grammarIn_false] at hlevel
  have hjudge : ∀ span, Twin (atDepth s.depth false) (judgeOutside config span) (judgeOutside config span) :=
    twin_judgeOutside_equal rfl rfl
  exact (twin_programOver _ _ hjudge).run_eq rfl hs

/-- A program over the grammar with as much room as the limit. -/
def leveledProgram (config : Config) : Parser Program :=
  programOver config (grammar config.maxNestingDepth config.maxNestingDepth)

/-- From the start of a text on, every number of levels that covers the limit is as good as any other. -/
theorem programOver_counted (config : Config) {fuel : Nat} (hfuel : config.maxNestingDepth ≤ fuel) {s : State}
    (hd : s.depth = 0) (hs : s.skimming = false) :
    programOver config (counted config.maxNestingDepth fuel) s = leveledProgram config s := by
  have hrun := programOver_countedOver (Level.full_uniform config.maxNestingDepth) config
    config.maxNestingDepth fuel hs
  rw [hd, Nat.sub_zero, Nat.min_eq_right hfuel] at hrun
  exact hrun

theorem program_eq (config : Config) {s : State} (hd : s.depth = 0) (hs : s.skimming = false) :
    program config s = leveledProgram config s :=
  programOver_counted config (Nat.le_succ _) hd hs

theorem program_ofTokens (config : Config) (tokens : List Token) (maxErrors : Option Nat) :
    program config (.ofTokens tokens maxErrors) = leveledProgram config (.ofTokens tokens maxErrors) :=
  program_eq config rfl rfl

end FluxFront.Grammar
