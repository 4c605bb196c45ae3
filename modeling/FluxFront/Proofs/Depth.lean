import FluxFront.Print.Tree
import FluxFront.Proofs.Settings

/-!
# More room for nesting

Whether more room changes what is read.

* **Watching**: the grammar refuses what there is no room for, but not every refusal is reported: those
  in a panic are only counted, and those made while looking ahead are forgotten.  What is noted is
  never forgotten, so a watched grammar notes each refusal (`reachesLimit`), and otherwise does the
  same (`watchedProgram_eq`).
* **Specification**: without a refusal, more room makes no difference (`parseTokens_deeper`).
* **Crux**: it is not enough that no refusal is reported.  A type that is skimmed while looking ahead
  may be refused, and then a declaration is read as an expression (`parse_deeper_differs`).
-/

namespace FluxFront

namespace Grammar

/-! ## A grammar that is watched -/

/-- What is noted when there is no room left. -/
def limitEvent : Event := .committed "nesting limit" 0 0

/-- Whether an event says that there was no room left. -/
def isLimit : Event → Bool
  | .committed what _ _ => what == "nesting limit"
  | _ => false

/-- A parser that is noted to have run. -/
def watched {α : Type} (p : Parser α) : Parser α := do
  note limitEvent
  p

/-- A level whose entries are all noted. -/
def Level.watched (l : Level) : Level where
  type := Grammar.watched l.type
  skim := Grammar.watched l.skim
  expression := Grammar.watched l.expression
  conditional := Grammar.watched l.conditional
  power := Grammar.watched l.power
  unary := Grammar.watched l.unary
  statement context := Grammar.watched (l.statement context)
  items context := Grammar.watched (l.items context)
  members context what := Grammar.watched (l.members context what)
  declaration context := Grammar.watched (l.declaration context)

/-- A program read by a grammar that is watched where it refuses. -/
def watchedProgram (config : Config) : Parser Program :=
  programOver config
    (countedOver config.maxNestingDepth (Level.full config.maxNestingDepth).watched (config.maxNestingDepth + 1))

/-- Whether a parse reaches the limit of nesting, be it in a panic or while looking ahead. -/
def reachesLimit (tokens : List Token) (config : Config) : Bool :=
  (watchedProgram config (.ofTokens tokens config.maxErrors)).2.events.any isLimit

/-! ## Watching changes nothing -/

/-- Runs that differ in the notes about the limit. -/
def unnoted : Likeness := .equal (fun e => !isLimit e) fun _ => False

theorem unnoted_note {s s' : State} (h : unnoted.Like s s') : unnoted.Like (s.noted limitEvent) s' := by
  refine ⟨h.same, h.errors, ?_⟩
  show s'.events.filter unnoted.shared = (limitEvent :: s.events).filter unnoted.shared
  rw [List.filter_cons_of_neg (by decide +kernel), h.events]

theorem Twin.unnoted {α : Type} {p p' : Parser α} (h : Twin unnoted p p') : Twin unnoted (watched p) p' where
  left {s} hs := (Moves.single (.note limitEvent trivial) s).trans (h.left hs)
  alike hs hlike := h.alike hs (unnoted_note hlike)

instance {l l' : Level} [h : TwinLevel unnoted l l'] : TwinLevel unnoted l.watched l' where
  type := h.type.unnoted
  skim := h.skim.unnoted
  expression := h.expression.unnoted
  conditional := h.conditional.unnoted
  power := h.power.unnoted
  unary := h.unary.unnoted
  statement context := (h.statement context).unnoted
  items context := (h.items context).unnoted
  members context what := (h.members context what).unnoted
  declaration context := (h.declaration context).unnoted

/-- A level that is watched does the same at every depth, too. -/
theorem Level.Uniform.watched {l : Level} (h : l.Uniform) : l.watched.Uniform where
  twin depth skimming := by
    have hwatched : ∀ {α : Type} {p p' : Parser α}, Twin (atDepth depth skimming) p p' →
        Twin (atDepth depth skimming) (Grammar.watched p) (Grammar.watched p') := by
      intro α p p' h
      unfold Grammar.watched
      infer_instance
    have hl := h.twin depth skimming
    constructor
    case type => exact hwatched hl.type
    case skim => exact hwatched hl.skim
    case expression => exact hwatched hl.expression
    case conditional => exact hwatched hl.conditional
    case power => exact hwatched hl.power
    case unary => exact hwatched hl.unary
    case statement => exact fun context => hwatched (hl.statement context)
    case items => exact fun context => hwatched (hl.items context)
    case members => exact fun context what => hwatched (hl.members context what)
    case declaration => exact fun context => hwatched (hl.declaration context)
  type_eq := congrArg Grammar.watched h.type_eq

/-- The watched program over as many levels as the limit leaves. -/
theorem watchedProgram_ofTokens (config : Config) (tokens : List Token) (maxErrors : Option Nat) :
    watchedProgram config (.ofTokens tokens maxErrors) =
      programOver config (grammarOver (Level.full config.maxNestingDepth).watched config.maxNestingDepth)
        (.ofTokens tokens maxErrors) := by
  have hrun := programOver_countedOver (Level.full_uniform config.maxNestingDepth).watched config
    config.maxNestingDepth (config.maxNestingDepth + 1) (s := .ofTokens tokens maxErrors) rfl
  have hroom : min (config.maxNestingDepth + 1)
      (config.maxNestingDepth - (State.ofTokens tokens maxErrors).depth) = config.maxNestingDepth :=
    Nat.min_eq_right (Nat.le_succ _)
  rw [hroom] at hrun
  exact hrun

/-- A watched parse reads the same and reports the same. -/
theorem watchedProgram_eq (tokens : List Token) (config : Config) :
    (watchedProgram config (.ofTokens tokens config.maxErrors)).1 = (parseTokens tokens config).program ∧
      (watchedProgram config (.ofTokens tokens config.maxErrors)).2.errors =
        (parseTokens tokens config).errors := by
  have hjudge : ∀ span, Twin unnoted (judgeOutside config span) (judgeOutside config span) :=
    twin_judgeOutside_equal rfl rfl
  have htwin : Twin unnoted (programOver config
      (grammarOver (Level.full config.maxNestingDepth).watched config.maxNestingDepth)) (leveledProgram config) :=
    twin_programOver _ (grammarOver (Level.full config.maxNestingDepth) config.maxNestingDepth) hjudge
  have hlike : unnoted.Like (.ofTokens tokens config.maxErrors) (.ofTokens tokens config.maxErrors) :=
    ⟨rfl, rfl, rfl⟩
  rw [parseTokens_eq rfl, watchedProgram_ofTokens]
  rcases htwin.alike trivial hlike with ⟨e, -, he⟩ | ⟨hvalue, hafter, -⟩
  · -- no event ends this comparison
    exact absurd he id
  · exact ⟨hvalue.symm, hafter.errors⟩

/-! ## Until the limit is reached -/

/-- Runs that are compared until the first one reaches the limit. -/
def roomy : Likeness := .equal (fun _ => true) fun e => isLimit e = true

/-- Behind an entry that is watched nothing is compared, so it does not matter what stands in its place. -/
theorem Twin.roomy {α : Type} {p : Parser α} (h : ∀ s, Moves True s (p s).2) (p' : Parser α) :
    Twin roomy (watched p) p' where
  left {s} _ := (Moves.single (.note limitEvent trivial) s).trans (h _)
  alike {s s'} _ _ := by
    -- the note stays among the events, whatever the parser does after it
    refine .inl ⟨limitEvent, ?_, show isLimit limitEvent = true by decide +kernel⟩
    exact (h (s.noted limitEvent)).events_subset _ List.mem_cons_self

theorem TwinLevel.roomy {l : Level} (h : l.Steady) (l' : Level) : TwinLevel roomy l.watched l' where
  type := .roomy h.type.moves l'.type
  skim := .roomy (h.skim.mono False.elim).moves l'.skim
  expression := .roomy h.expression.moves l'.expression
  conditional := .roomy h.conditional.moves l'.conditional
  power := .roomy h.power.moves l'.power
  unary := .roomy h.unary.moves l'.unary
  statement context := .roomy (h.statement context).moves (l'.statement context)
  items context := .roomy (h.items context).moves (l'.items context)
  members context what := .roomy (h.members context what).moves (l'.members context what)
  declaration context := .roomy (h.declaration context).moves (l'.declaration context)

/-- Levels over levels. -/
theorem grammarOver_add (bottom : Level) (room more : Nat) :
    grammarOver bottom (room + more) = grammarOver (grammarOver bottom more) room := by
  induction room with
  | zero => rw [Nat.zero_add]; rfl
  | succ room ih =>
    rw [Nat.succ_add]
    show Level.above (fun _ => grammarOver bottom (room + more)) = _
    rw [ih]
    rfl

/-- **What stands below the limit does not matter** to a parse that does not reach it: over any other level
in place of the one that refuses, the program is read in the same way. -/
theorem programOver_of_reachesLimit {tokens : List Token} {config : Config}
    (hlimit : reachesLimit tokens config = false) (config' : Config)
    (hallow : config'.allowTopLevelStatements = config.allowTopLevelStatements) (bottom : Level) :
    programOver config' (grammarOver bottom config.maxNestingDepth) (.ofTokens tokens config.maxErrors) =
      watchedProgram config (.ofTokens tokens config.maxErrors) := by
  have hbottom : TwinLevel roomy (Level.full config.maxNestingDepth).watched bottom :=
    .roomy (Level.full_steady config.maxNestingDepth) bottom
  have hjudge : ∀ span, Twin roomy (judgeOutside config span) (judgeOutside config' span) :=
    twin_judgeOutside_equal rfl hallow
  have htwin : Twin roomy
      (programOver config (grammarOver (Level.full config.maxNestingDepth).watched config.maxNestingDepth))
      (programOver config' (grammarOver bottom config.maxNestingDepth)) := twin_programOver _ _ hjudge
  have hlike : roomy.Like (.ofTokens tokens config.maxErrors) (.ofTokens tokens config.maxErrors) :=
    ⟨rfl, rfl, rfl⟩
  rw [reachesLimit, watchedProgram_ofTokens] at hlimit
  rw [watchedProgram_ofTokens]
  rcases htwin.alike trivial hlike with ⟨e, he, hends⟩ | ⟨hvalue, hafter, hmoves⟩
  · -- the comparison ended, so the limit was noted
    exact absurd hends (List.any_eq_false.1 hlimit e he)
  · -- both runs come back to the depth they started at
    have hback := (htwin.left (s := .ofTokens tokens config.maxErrors) trivial).since
    have hback' := hmoves.since
    refine Prod.ext hvalue (hafter.eq (fun _ => rfl) (Eq.symm hafter.errors) ?_ ?_)
    · rw [hback'.depth, hback.depth]
    · rw [hback'.skimming, hback.skimming]

end Grammar

/-- **More room makes no difference** to a parse that does not reach the limit of nesting. -/
theorem parseTokens_deeper (tokens : List Token) (config : Config) {depth : Nat}
    (hdepth : config.maxNestingDepth ≤ depth) (hlimit : Grammar.reachesLimit tokens config = false) :
    parseTokens tokens { config with maxNestingDepth := depth } = parseTokens tokens config := by
  obtain ⟨more, rfl⟩ := Nat.exists_eq_add_of_le hdepth
  -- the larger grammar has as many levels, over a bottom that is a grammar itself
  have hdeeper := Grammar.programOver_of_reachesLimit hlimit
    { config with maxNestingDepth := config.maxNestingDepth + more } rfl
    (Grammar.grammarOver (Grammar.Level.full (config.maxNestingDepth + more)) more)
  have hsame := Grammar.programOver_of_reachesLimit hlimit config rfl
    (Grammar.Level.full config.maxNestingDepth)
  rw [← Grammar.grammarOver_add] at hdeeper
  rw [parseTokens_eq hdeeper, parseTokens_eq hsame]

/-- Little room, but more than a declaration with a template argument and a nested call need. -/
def narrow : Config := { maxNestingDepth := 8 }

theorem parseTokens_deeper_narrow :
    narrow.maxNestingDepth ≤ 64 ∧
      Grammar.reachesLimit (Token.scan "A<B> c; x = f(g(y));").1 narrow = false ∧
      parseTokens (Token.scan "A<B> c; x = f(g(y));").1 { narrow with maxNestingDepth := 64 } =
        parseTokens (Token.scan "A<B> c; x = f(g(y));").1 narrow := by
  have hdepth : narrow.maxNestingDepth ≤ 64 := by decide
  have hlimit : Grammar.reachesLimit (Token.scan "A<B> c; x = f(g(y));").1 narrow = false := by
    decide +kernel
  exact ⟨hdepth, hlimit, parseTokens_deeper _ narrow hdepth hlimit⟩

/-- With room for one level a declaration is silently read as a comparison, because its type is refused
while looking ahead; with room for two it is a declaration. -/
theorem parse_deeper_differs :
    (parseTokens (Token.scan "A<B> c;").1 { maxNestingDepth := 1 }).errors.errors = [] ∧
      (parseTokens (Token.scan "A<B> c;").1 { maxNestingDepth := 1 }).program.print = "A < B > c;\n" ∧
      (parseTokens (Token.scan "A<B> c;").1 { maxNestingDepth := 2 }).program.print = "A<B> c;\n" ∧
      (parseTokens (Token.scan "A<B> c;").1 { maxNestingDepth := 2 }).program ≠
        (parseTokens (Token.scan "A<B> c;").1 { maxNestingDepth := 1 }).program := by
  have h₁ : (parseTokens (Token.scan "A<B> c;").1 { maxNestingDepth := 1 }).program.print = "A < B > c;\n" := by
    decide +kernel
  have h₂ : (parseTokens (Token.scan "A<B> c;").1 { maxNestingDepth := 2 }).program.print = "A<B> c;\n" := by
    decide +kernel
  refine ⟨by decide +kernel, h₁, h₂, fun h => ?_⟩
  rw [h, h₁] at h₂
  exact absurd h₂ (by decide)

end FluxFront
