import FluxFront.Proofs.CountedDepth

/-!
# Runs that report nothing

A run is silent if it adds no diagnostic.  What such a run read is then known token by token, for every
branch of the grammar that does without an error has a definite text.

* **Specification**: `Silent p s` asks that nothing is added whatever was collected before, so that a
  collection that is full hides nothing.  Where there is room, this is to add no diagnostic to those that
  are there (`silent_iff`).
* **Crux**: errors are only ever added.  So a run is clean just if its parts are, and a proof goes along
  a production and leaves it at the first error (`Clean.first`, `Clean.second`).
* **Rules**: `Runs p s Q` says what a clean run from a state gives, which tokens it reads, and where it
  ends.  There is one rule for each way to put parsers together.
-/

set_option synthInstance.maxSize 1000

namespace FluxFront.Grammar

open Token (Kind)
open Diagnostic (Collection)

variable {α β : Type}

/-! ## What was collected before -/

/-- The state with another collection of diagnostics. -/
def State.holding (c : Collection) (s : State) : State := { s with errors := c }

/-- The run adds no diagnostic, whatever was collected before. -/
def Silent (p : Parser α) (s : State) : Prop := ∀ c, (p (s.holding c)).2.errors = c

/-- Runs that may have recorded anything. -/
def recording : Likeness where
  errors _ _ := True
  addError _ _ _ := trivial
  shared _ := false
  ends _ := False

/-- A parser that does nothing but moves and never looks at what was recorded. -/
abbrev Moving (p : Parser α) : Prop := Twin recording p p

instance (kind : Diagnostic.Kind) (message : String) (span : Span) : Moving (report kind message span) :=
  .move (.report _) fun h => h.reported trivial

instance (kind : Diagnostic.Kind) (message : String) (span : Span) :
    Moving (reportStructural kind message span) := .move (.record _) fun h => h.recorded trivial

theorem Moving.moves {p : Parser α} (h : Moving p) (s : State) : Moves True s (p s).2 := h.left trivial

/-- What was recorded has no part in what a parser reads and gives. -/
theorem Moving.holding {p : Parser α} (h : Moving p) (c : Collection) (s : State) :
    (p (s.holding c)).1 = (p s).1 ∧
      ∃ errors events, (p (s.holding c)).2 = { (p s).2 with errors := errors, events := events } := by
  have hlike : recording.Like s (s.holding c) := ⟨rfl, trivial, rfl⟩
  rcases h.alike trivial hlike with ⟨_, _, hends⟩ | ⟨hvalue, hafter, hmoves⟩
  · exact hends.elim
  · have hback := (h.moves s).since
    have hdepth : (p (s.holding c)).2.depth = (p s).2.depth := hmoves.since.depth.trans hback.depth.symm
    have hskimming : (p (s.holding c)).2.skimming = (p s).2.skimming :=
      hmoves.since.skimming.trans hback.skimming.symm
    have hstate := hafter.same
    rw [State.aside, hdepth, hskimming] at hstate
    exact ⟨hvalue, _, _, hstate⟩

/-- Runs that have both recorded nothing, unless the first one has. -/
def abreast (c₀ c₀' : Collection) (hroom : c₀.hasRoom = true) : Likeness where
  errors c c' := c = c₀ ∧ c' = c₀' ∨ c₀.errors.length < c.errors.length
  addError {c c'} d _ h := by
    right
    rcases h with ⟨rfl, -⟩ | hlt
    · rw [Collection.addError, if_pos hroom]
      simp
    · unfold Collection.addError
      split
      · rw [List.length_append]
        exact Nat.lt_add_right _ hlt
      · exact hlt
  shared _ := false
  ends _ := False

/-- Where one more diagnostic would be kept, a run is silent just if it adds none. -/
theorem silent_iff {p : Parser α} (hp : ∀ L, Twin L p p) {s : State} (hroom : s.errors.hasRoom = true) :
    Silent p s ↔ (p s).2.errors = s.errors := by
  constructor
  · exact fun h => h s.errors
  · intro h c
    have hlike : (abreast s.errors c hroom).Like s (s.holding c) := ⟨rfl, .inl ⟨rfl, rfl⟩, rfl⟩
    rcases (hp _).alike trivial hlike with ⟨_, _, hends⟩ | ⟨-, hafter, -⟩
    · exact hends.elim
    · rcases hafter.errors with ⟨-, hsame⟩ | hlt
      · exact hsame
      · -- the first run has recorded nothing
        rw [h] at hlt
        exact absurd hlt (Nat.lt_irrefl _)

/-- Of two parsers that do the same in every state of a depth, one is silent just if the other is. -/
theorem Twin.silent_congr {p p' : Parser α} {s : State} (h : Twin (atDepth s.depth s.skimming) p p') :
    Silent p s ↔ Silent p' s :=
  forall_congr' fun c => by rw [h.run_eq (s := s.holding c) rfl rfl]

/-! ## Clean runs -/

/-- Nothing was reported between two states of a run outside of a panic that keeps every error. -/
structure Clean (s s' : State) : Prop where
  calm : s.panicking = false
  unlimited : s.errors.limit = none
  errors : s'.errors = s.errors

/-- A silent run is clean once its errors are not limited. -/
theorem Silent.clean {p : Parser α} {s : State} (h : Silent p s) (hs : s.panicking = false) :
    Clean (s.holding {}) (p (s.holding {})).2 := ⟨hs, rfl, h {}⟩

namespace Clean

variable {s s₁ s₂ : State}

/-- The first part of a clean run is clean. -/
theorem first (h : Clean s s₂) (h₁ : Moves True s s₁) (h₂ : Moves True s₁ s₂) : Clean s s₁ := by
  refine ⟨h.calm, h.unlimited, ?_⟩
  obtain ⟨more₁, he₁⟩ := h₁.since.errors
  obtain ⟨more₂, he₂⟩ := h₂.since.errors
  have hlist : s.errors.errors = s₁.errors.errors ++ more₂ :=
    congrArg Collection.errors (h.errors.symm.trans he₂)
  have hmore : more₁ = [] := by
    have hlength := congrArg List.length hlist
    rw [he₁, List.length_append, List.length_append] at hlength
    exact List.eq_nil_of_length_eq_zero (by omega)
  rw [he₁, hmore, List.append_nil]

/-- A report outside of a panic is kept if nothing limits the errors. -/
theorem addError_ne {c : Collection} (hc : c.limit = none) (d : Diagnostic) : c.addError d ≠ c := by
  intro he
  have hlength := congrArg (fun c : Collection => c.errors.length) he
  simp [Collection.errors_addError_of_limit_none hc] at hlength

/-- In a clean run no panic starts, and no error is noticed. -/
theorem calm_and_failures (h : Clean s s₁) (hm : Moves True s s₁) :
    s₁.panicking = false ∧ s₁.failures = s.failures := by
  induction hm with
  | refl => exact ⟨h.calm, rfl⟩
  | @tail s₁ f hm last ih =>
    have hfirst := h.first hm (.single last s₁)
    obtain ⟨hcalm, hfailures⟩ := ih hfirst
    have hlimit : s₁.errors.limit = none := by rw [hfirst.errors, h.unlimited]
    have hsame : (f s₁).errors = s₁.errors := by rw [h.errors, hfirst.errors]
    cases last with
    | advance =>
      by_cases hk : s₁.current.kind = .eof
      · rw [State.advanced_eof hk]
        exact ⟨hcalm, hfailures⟩
      · obtain ⟨_, _, -, -, hadv⟩ := State.advanced_cons hk
        rw [hadv]
        exact ⟨hcalm, hfailures⟩
    | split =>
      rcases s₁.splitShift_cases with he | ⟨_, _, _, _, -, -, -, -, he⟩ <;> rw [he] <;>
        exact ⟨hcalm, hfailures⟩
    | reach => exact ⟨hcalm, hfailures⟩
    | restamp => exact ⟨hcalm, hfailures⟩
    | report d =>
      rw [State.reported, hcalm] at hsame
      exact absurd hsame (addError_ne hlimit d)
    | record d =>
      rw [State.recorded, hcalm] at hsame
      exact absurd hsame (addError_ne hlimit d)
    | note => exact ⟨hcalm, hfailures⟩
    | calm => exact ⟨rfl, hfailures⟩

/-- The second part of a clean run is clean. -/
theorem second (h : Clean s s₂) (h₁ : Moves True s s₁) (h₂ : Moves True s₁ s₂) : Clean s₁ s₂ := by
  have hfirst := h.first h₁ h₂
  refine ⟨(hfirst.calm_and_failures h₁).1, ?_, ?_⟩
  · rw [hfirst.errors, h.unlimited]
  · rw [h.errors, hfirst.errors]

/-- No clean run starts with an error. -/
theorem not_reported {d : Diagnostic} (hm : Moves True (s.reported d) s₁) : ¬ Clean s s₁ := by
  intro h
  have hfirst := (h.first (.single (.report d) s) hm).errors
  rw [State.reported, h.calm] at hfirst
  exact addError_ne h.unlimited d hfirst

theorem not_recorded {d : Diagnostic} (hm : Moves True (s.recorded d) s₁) : ¬ Clean s s₁ := by
  intro h
  have hfirst := (h.first (.single (.record d) s) hm).errors
  rw [State.recorded, h.calm] at hfirst
  exact addError_ne h.unlimited d hfirst

end Clean

/-! ## The tokens that were read -/

/-- On the way from one state to another just the tokens `ts` were read, halves of a `>>` included. -/
structure Passes (s : State) (ts : List Token) (s' : State) : Prop where
  moves : Moves True s s'
  behind : s'.behind = ts.reverse ++ s.behind

namespace Passes

variable {s s₁ s₂ : State} {ts us : List Token}

theorem refl (s : State) : Passes s [] s := ⟨.refl s, rfl⟩

theorem trans (h₁ : Passes s ts s₁) (h₂ : Passes s₁ us s₂) : Passes s (ts ++ us) s₂ := by
  refine ⟨h₁.moves.trans h₂.moves, ?_⟩
  rw [h₂.behind, h₁.behind, List.reverse_append, List.append_assoc]

theorem advance (h : s.current.kind ≠ .eof) : Passes s [s.current] s.advanced := by
  refine ⟨.single .advance s, ?_⟩
  obtain ⟨_, _, -, ht, hadv⟩ := State.advanced_cons h
  rw [hadv, ht]
  rfl

theorem split (s : State) : Passes s [] s.splitShift := by
  refine ⟨.single .split s, ?_⟩
  rcases s.splitShift_cases with h | ⟨_, _, _, _, -, -, -, -, h⟩ <;> rw [h] <;> rfl

theorem stamped (s : State) : Passes s [] s.stamped :=
  ⟨.single (.restamp (· + 1) Nat.le_succ) s, rfl⟩

theorem reached (s : State) : Passes s [] s.reached := ⟨.single .reach s, rfl⟩

theorem noted (event : Event) (s : State) : Passes s [] (s.noted event) :=
  ⟨.single (.note event trivial) s, rfl⟩

/-- The position counts the tokens that were read. -/
theorem position (h : Passes s ts s₁) : s₁.position = s.position + ts.length := by
  obtain ⟨passed, _, hbehind, hposition, -⟩ := h.moves.since.tokens
  have hpassed : passed = ts.reverse := List.append_cancel_right (hbehind.symm.trans h.behind)
  rw [hposition, hpassed, List.length_reverse]

end Passes

/-! ## Rules -/

/-- What holds of the result of a clean run from a state, the tokens it reads, and the state behind it. -/
def Runs (p : Parser α) (s : State) (Q : α → List Token → State → Prop) : Prop :=
  Clean s (p s).2 → ∃ ts, Passes s ts (p s).2 ∧ Q (p s).1 ts (p s).2

namespace Runs

variable {s : State} {P : α → List Token → State → Prop} {Q : β → List Token → State → Prop}

/-! ### Composition -/

theorem pure {b : β} (h : Q b [] s) : Runs (Pure.pure b) s Q := fun _ => ⟨[], .refl s, h⟩

theorem mono {p : Parser α} {P' : α → List Token → State → Prop} (h : Runs p s P)
    (hP : ∀ a ts s', P a ts s' → P' a ts s') : Runs p s P' := by
  intro hc
  obtain ⟨ts, hpass, ha⟩ := h hc
  exact ⟨ts, hpass, hP _ _ _ ha⟩

/-- What else is known behind a clean run. -/
theorem tracked {p : Parser α} (h : Runs p s P) :
    Runs p s fun a ts s' => Passes s ts s' ∧ Clean s s' ∧ P a ts s' := by
  intro hc
  obtain ⟨ts, hpass, ha⟩ := h hc
  exact ⟨ts, hpass, hpass, hc, ha⟩

/-- A run of which it does not matter what it reads. -/
theorem moved {p : Parser α} [hp : Moving p] (h : ∀ ts, P (p s).1 ts (p s).2) : Runs p s P := by
  intro _
  have hmoves := hp.moves s
  obtain ⟨passed, _, hbehind, -⟩ := hmoves.since.tokens
  exact ⟨passed.reverse, ⟨hmoves, by rw [List.reverse_reverse, hbehind]⟩, h _⟩

/-- A run that is not clean. -/
theorem broken {p : Parser α} (h : ¬ Clean s (p s).2) : Runs p s P := fun hc => absurd hc h

theorem andThen {p : Parser α} {q : α → Parser β} [hp : Moving p] [m : ∀ a, Moving (q a)]
    (h : Runs p s P)
    (hnext : ∀ a ts s₁, P a ts s₁ → Runs (q a) s₁ fun b us s₂ => Q b (ts ++ us) s₂) :
    Runs (p >>= q) s Q := by
  intro hc
  have h₁ := hp.moves s
  have h₂ := (m (p s).1).moves (p s).2
  obtain ⟨ts, hts, ha⟩ := h (hc.first h₁ h₂)
  obtain ⟨us, hus, hb⟩ := hnext _ ts _ ha (hc.second h₁ h₂)
  exact ⟨ts ++ us, hts.trans hus, hb⟩

theorem assoc {γ : Type} {p : Parser γ} {r : γ → Parser α} {q : α → Parser β}
    (h : Runs (p >>= fun c => r c >>= q) s Q) : Runs ((p >>= r) >>= q) s Q := by
  rw [bind_assoc]
  exact h

theorem pureThen {a : α} {q : α → Parser β} (h : Runs (q a) s Q) : Runs (Pure.pure a >>= q) s Q := h

theorem mapThen {γ : Type} {p : Parser γ} {f : γ → α} {q : α → Parser β}
    {P : γ → List Token → State → Prop} [hp : Moving p] [m : ∀ a, Moving (q a)] (h : Runs p s P)
    (hnext : ∀ c ts s₁, P c ts s₁ → Runs (q (f c)) s₁ fun b us s₂ => Q b (ts ++ us) s₂) :
    Runs (f <$> p >>= q) s Q := andThen (q := fun c => q (f c)) h hnext

theorem map {p : Parser α} {f : α → β} (h : Runs p s fun a ts s' => Q (f a) ts s') :
    Runs (f <$> p) s Q := h

theorem ite {c : Prop} [Decidable c] {p q : Parser β} (yes : c → Runs p s Q)
    (no : ¬ c → Runs q s Q) : Runs (if c then p else q) s Q := by
  split
  · exact yes ‹_›
  · exact no ‹_›

/-- What follows a choice follows each of its branches. -/
theorem choice {γ : Type} {c : Parser γ} {cond : γ → Prop} [∀ x, Decidable (cond x)] {p p' : Parser α}
    {q : α → Parser β} (h : Runs ((c >>= fun x => if cond x then p else p') >>= q) s Q) :
    Runs (c >>= fun x => if cond x then p >>= q else p' >>= q) s Q := by
  refine cast (congrArg (Runs · s Q) ?_) h
  rw [bind_assoc]
  congr 1
  funext x
  split <;> rfl

/-- A step of which it is known what it gives, which tokens it reads, and where it ends. -/
theorem step {p : Parser α} {q : α → Parser β} [m : ∀ a, Moving (q a)] {a : α} {s₁ : State}
    {ts : List Token} (hp : p s = (a, s₁)) (hpass : Passes s ts s₁)
    (h : Runs (q a) s₁ fun b us s' => Q b (ts ++ us) s') : Runs (p >>= q) s Q := by
  have hrun : (p >>= q) s = q a s₁ := by
    show q (p s).1 (p s).2 = _
    rw [hp]
  intro hc
  rw [hrun] at hc ⊢
  obtain ⟨us, hus, hb⟩ := h (hc.second hpass.moves ((m a).moves s₁))
  exact ⟨ts ++ us, hpass.trans hus, hb⟩

/-- What holds behind clean runs holds behind silent ones, if it does not look at what was recorded. -/
theorem silent {p : Parser α} [hp : Moving p] (hruns : ∀ s, Runs p s P) (h : Silent p s)
    (hs : s.panicking = false)
    (hP : ∀ a ts s errors events, P a ts { s with errors := errors, events := events } → P a ts s) :
    ∃ ts, Passes s ts (p s).2 ∧ P (p s).1 ts (p s).2 := by
  obtain ⟨hvalue, errors, events, hstate⟩ := hp.holding {} s
  obtain ⟨ts, hpass, hts⟩ := hruns _ (h.clean hs)
  rw [hvalue, hstate] at hts
  refine ⟨ts, ⟨hp.moves s, ?_⟩, hP _ _ _ _ _ hts⟩
  have hbehind := hpass.behind
  rw [hstate] at hbehind
  exact hbehind

/-! ### Looking at the cursor -/

theorem here {q : Location → Parser β} (h : Runs (q s.here) s Q) : Runs (Grammar.here >>= q) s Q := h

theorem current {q : Token → Parser β} (h : Runs (q s.current) s Q) :
    Runs (Grammar.current >>= q) s Q := h

theorem kind {q : Kind → Parser β} (h : Runs (q s.current.kind) s Q) : Runs (Grammar.kind >>= q) s Q :=
  h

theorem position {q : Nat → Parser β} (h : Runs (q s.position) s Q) :
    Runs (Grammar.position >>= q) s Q := h

theorem kindAt {n : Nat} {q : Kind → Parser β} (h : Runs (q (s.kindAt n)) s Q) :
    Runs (Grammar.kindAt n >>= q) s Q := h

theorem get {q : State → Parser β} (h : Runs (q s) s Q) : Runs (MonadState.get >>= q) s Q := h

theorem spanFrom {start : Location} {q : Span → Parser β} (h : Runs (q (s.spanFrom start)) s Q) :
    Runs (Grammar.spanFrom start >>= q) s Q := h

theorem check {k : Kind} {q : Bool → Parser β} (yes : s.current.kind = k → Runs (q true) s Q)
    (no : s.current.kind ≠ k → Runs (q false) s Q) : Runs (Grammar.check k >>= q) s Q := by
  show Runs (q (s.current.kind == k)) s Q
  by_cases h : s.current.kind = k
  · rw [beq_iff_eq.2 h]
    exact yes h
  · rw [beq_eq_false_iff_ne.2 h]
    exact no h

theorem checkAny {ks : List Kind} {q : Bool → Parser β}
    (h : ∀ b, b = ks.contains s.current.kind → Runs (q b) s Q) : Runs (Grammar.checkAny ks >>= q) s Q :=
  h _ rfl

theorem checkOrEnd {k : Kind} {q : Bool → Parser β} (h : ∀ b, Runs (q b) s Q) :
    Runs (Grammar.checkOrEnd k >>= q) s Q := h _

/-- A parser that comes back to where it started. -/
theorem unmoved {p : Parser α} {q : α → Parser β} (hp : (p s).2 = s) (h : ∀ a, Runs (q a) s Q) :
    Runs (p >>= q) s Q := by
  have hrun : (p >>= q) s = q (p s).1 s := by
    show q (p s).1 (p s).2 = _
    rw [hp]
  unfold Runs
  rw [hrun]
  exact h _

/-! ### Reading -/

theorem advance {q : Token → Parser β} [m : ∀ t, Moving (q t)] (hk : s.current.kind ≠ .eof)
    (h : Runs (q s.current) s.advanced fun b us s' => Q b (s.current :: us) s') :
    Runs (Grammar.advance >>= q) s Q := step rfl (.advance hk) h

theorem accept {k : Kind} (hk : k ≠ .eof) {q : Bool → Parser β} [m : ∀ b, Moving (q b)]
    (yes : s.current.kind = k → Runs (q true) s.advanced fun b us s' => Q b (s.current :: us) s')
    (no : s.current.kind ≠ k → Runs (q false) s Q) : Runs (Grammar.accept k >>= q) s Q := by
  by_cases h : s.current.kind = k
  · have hrun : Grammar.accept k s = (true, s.advanced) := by
      show (if s.current.kind == k then _ else _ : Parser Bool) s = _
      rw [if_pos (beq_iff_eq.2 h)]
      rfl
    exact step hrun (.advance (by rw [h]; exact hk)) (yes h)
  · have hrun : Grammar.accept k s = (false, s) := by
      show (if s.current.kind == k then _ else _ : Parser Bool) s = _
      rw [if_neg (by simpa using h)]
      rfl
    exact step hrun (.refl s) (no h)

theorem acceptAny {ks : List Kind} (hks : Kind.eof ∉ ks) {q : Option Kind → Parser β}
    [m : ∀ o, Moving (q o)]
    (yes : s.current.kind ∈ ks →
      Runs (q (some s.current.kind)) s.advanced fun b us s' => Q b (s.current :: us) s')
    (no : s.current.kind ∉ ks → Runs (q none) s Q) : Runs (Grammar.acceptAny ks >>= q) s Q := by
  by_cases h : s.current.kind ∈ ks
  · have hrun : Grammar.acceptAny ks s = (some s.current.kind, s.advanced) := by
      show (if ks.contains s.current.kind then _ else _ : Parser (Option Kind)) s = _
      rw [if_pos (List.contains_iff_mem.2 h)]
      rfl
    exact step hrun (.advance fun he => hks (he ▸ h)) (yes h)
  · have hrun : Grammar.acceptAny ks s = (none, s) := by
      show (if ks.contains s.current.kind then _ else _ : Parser (Option Kind)) s = _
      rw [if_neg fun hm => h (List.contains_iff_mem.1 hm)]
      rfl
    exact step hrun (.refl s) (no h)

/-! ### Errors -/

theorem report {kind : Diagnostic.Kind} {message : String} {span : Span} {q : Unit → Parser β}
    [m : ∀ u, Moving (q u)] : Runs (Grammar.report kind message span >>= q) s Q :=
  .broken (Clean.not_reported ((m ()).moves _))

theorem reportStructural {kind : Diagnostic.Kind} {message : String} {span : Span} {q : Unit → Parser β}
    [m : ∀ u, Moving (q u)] : Runs (Grammar.reportStructural kind message span >>= q) s Q :=
  .broken (Clean.not_recorded ((m ()).moves _))

theorem reportUnexpected {expected : String} {q : Unit → Parser β} [m : ∀ u, Moving (q u)] :
    Runs (Grammar.reportUnexpected expected >>= q) s Q := by
  have hrun : ∃ d, Grammar.reportUnexpected expected s = ((), s.reported d) := by
    show ∃ d, (if s.current.kind = .eof then _ else _ : Parser Unit) s = ((), s.reported d)
    split <;> exact ⟨_, rfl⟩
  obtain ⟨d, hrun⟩ := hrun
  refine .broken ?_
  show ¬ Clean s (q (Grammar.reportUnexpected expected s).1 (Grammar.reportUnexpected expected s).2).2
  rw [hrun]
  exact Clean.not_reported ((m ()).moves _)

/-- A token that has to be there. -/
theorem consume {k : Kind} (hk : k ≠ .eof) {expected : String} {q : Unit → Parser β}
    [m : ∀ u, Moving (q u)]
    (h : s.current.kind = k → Runs (q ()) s.advanced fun b us s' => Q b (s.current :: us) s') :
    Runs (Grammar.consume k expected >>= q) s Q := by
  show Runs ((Grammar.check k >>= fun b => if b = true then
    Grammar.advance >>= fun _ => Pure.pure () else Grammar.reportUnexpected expected) >>= q) s Q
  refine check (q := fun b => (if b = true then Grammar.advance >>= fun _ => Pure.pure ()
    else Grammar.reportUnexpected expected) >>= q) (fun hs => ?_) fun _ => reportUnexpected
  exact advance (q := fun _ => q ()) (by rw [hs]; exact hk) (h hs)

/-- A name that has to be there. -/
theorem consumeName {expected : String} {q : String → Parser β} [m : ∀ name, Moving (q name)]
    (h : s.current.kind = .identifier →
      Runs (q s.current.lexeme) s.advanced fun b us s' => Q b (s.current :: us) s') :
    Runs (Grammar.consumeName expected >>= q) s Q := by
  refine check (q := fun b => (if b = true then Grammar.advance >>= fun t => Pure.pure t.lexeme
    else Grammar.reportUnexpected expected >>= fun _ => Pure.pure "") >>= q) (fun hs => ?_)
    fun _ => reportUnexpected (q := fun _ => q "")
  exact advance (q := fun t => q t.lexeme) (by rw [hs]; decide) (h hs)

/-- The closing bracket of an angle-bracket list, which may be the first half of a `>>`. -/
theorem consumeClosingAngle {expected : String} {q : Unit → Parser β} [m : ∀ u, Moving (q u)]
    (h : ∀ t : Token, t.kind = .greater →
      Runs (q ()) s.splitShift.advanced fun b us s' => Q b (t :: us) s') :
    Runs (Grammar.consumeClosingAngle expected >>= q) s Q := by
  refine step (p := modify State.splitShift) (q := fun _ => Grammar.consume .greater expected >>= q)
    rfl (.split s) ?_
  exact consume (by decide) fun hs => h _ hs

/-- The semicolon that ends a statement. -/
theorem expectSemicolon {after : String} {q : Unit → Parser β} [m : ∀ u, Moving (q u)]
    (h : s.current.kind = .semicolon →
      Runs (q ()) s.advanced fun b us s' => Q b (s.current :: us) s') :
    Runs (Grammar.expectSemicolon after >>= q) s Q := by
  have hmissing : Moving (do
      let panicked := (← MonadState.get).panicking
      Grammar.reportUnexpected ("Expected ';' after " ++ after)
      if !panicked && (← Grammar.checkAny statementStarts) then calm) :=
    .get (fun _ _ => rfl) fun _ => inferInstance
  unfold Grammar.expectSemicolon
  exact assoc (accept (by decide) h fun _ => assoc (get (assoc reportUnexpected)))

/-- Behind an item that was read without an error there is nothing to recover from. -/
theorem recoverAfterItem {s₀ : State} {ts : List Token} (hpass : Passes s₀ ts s) (hts : ts ≠ [])
    (hc : Clean s₀ s) {q : Unit → Parser β} [m : ∀ u, Moving (q u)] (h : Runs (q ()) s Q) :
    Runs (Grammar.recoverAfterItem s₀.position >>= q) s Q := by
  have hread : ¬ ((s.position == s₀.position && !(s.current.kind == .eof)) = true) := by
    have hlength := List.length_pos_iff.2 hts
    rw [Bool.and_eq_true, beq_iff_eq, hpass.position]
    omega
  have hrun : Grammar.recoverAfterItem s₀.position s = ((), s) := by
    show (if (s.position == s₀.position && !(s.current.kind == .eof)) = true then _ else _ :
      Parser Unit) s = _
    rw [if_neg hread]
    show (if s.panicking = true then _ else _ : Parser Unit) s = _
    rw [(hc.calm_and_failures hpass.moves).1, if_neg Bool.false_ne_true]
    rfl
  exact step hrun (.refl s) h

/-! ### Nodes -/

theorem nodeAt {build : Span → NodeId → β} {span : Span} (h : Q (build span s.nextId) [] s.stamped) :
    Runs (Grammar.nodeAt build span) s Q := fun _ => ⟨[], .stamped s, h⟩

theorem node {build : Span → NodeId → β} {start : Location}
    (h : Q (build (s.spanFrom start) s.nextId) [] s.stamped) : Runs (Grammar.node build start) s Q :=
  nodeAt h

theorem nodeAtThen {build : Span → NodeId → α} {span : Span} {q : α → Parser β} [m : ∀ a, Moving (q a)]
    (h : Runs (q (build span s.nextId)) s.stamped Q) : Runs (Grammar.nodeAt build span >>= q) s Q :=
  step rfl (.stamped s) h

theorem nodeThen {build : Span → NodeId → α} {start : Location} {q : α → Parser β}
    [m : ∀ a, Moving (q a)] (h : Runs (q (build (s.spanFrom start) s.nextId)) s.stamped Q) :
    Runs (Grammar.node build start >>= q) s Q := nodeAtThen h

/-- A copy with fresh identities. -/
theorem duplicateType {type : Ty} {q : Ty → Parser β} [m : ∀ t, Moving (q t)]
    (h : ∀ copy nextId, Runs (q copy) { s with nextId } Q) :
    Runs (Grammar.duplicateType type >>= q) s Q := by
  have hle : ∀ n : NodeId, n ≤ ((type.edit Edit.freshCopy).run n).2 := fun n =>
    (Node.copied (.type type) n).first_le
  have hpass : Passes s [] { s with nextId := ((type.edit Edit.freshCopy).run s.nextId).2 } :=
    ⟨.single (.restamp _ hle) s, rfl⟩
  exact step rfl hpass (h _ _)

theorem emptySpan {q : Span → Parser β} [m : ∀ span, Moving (q span)]
    (h : Runs (q (.single s.reached.lastEnd)) s.reached Q) : Runs (Grammar.emptySpan >>= q) s Q :=
  step rfl (.reached s) h

theorem note {event : Event} {q : Unit → Parser β} [m : ∀ u, Moving (q u)]
    (h : Runs (q ()) (s.noted event) Q) : Runs (Grammar.note event >>= q) s Q :=
  step rfl (.noted _ s) h

theorem noteCommitted {what : String} {start : Nat} {q : Unit → Parser β} [m : ∀ u, Moving (q u)]
    (h : ∀ event, Runs (q ()) (s.noted event) Q) : Runs (Grammar.noteCommitted what start >>= q) s Q :=
  step rfl (.noted _ s) (h _)

/-! ### Loops -/

/-- A pass over a list that reads nothing. -/
theorem mapM {f : α → Parser β} [∀ a, Moving (f a)] {P : α → Prop} {R : β → Prop} {as : List α}
    (h : ∀ a s, Runs (f a) s fun b ts _ => ts = [] ∧ P a ∧ R b) :
    Runs (as.mapM f) s fun bs ts _ =>
      ts = [] ∧ bs.length = as.length ∧ (∀ a ∈ as, P a) ∧ ∀ b ∈ bs, R b := by
  induction as generalizing s with
  | nil => exact pure ⟨rfl, rfl, nofun, nofun⟩
  | cons a as ih =>
    rw [List.mapM_cons]
    refine andThen (h a s) fun b ts s₁ hb => andThen ih fun bs us s₂ hbs => pure ?_
    obtain ⟨rfl, ha, hb⟩ := hb
    obtain ⟨rfl, hlength, has, hbs⟩ := hbs
    refine ⟨rfl, congrArg (· + 1) hlength, ?_, ?_⟩
    · exact List.forall_mem_cons.2 ⟨ha, has⟩
    · exact List.forall_mem_cons.2 ⟨hb, hbs⟩

/-- An invariant of the steps of a loop, which speaks of all tokens read so far. -/
theorem iterate {step : β → Parser (Option β)} [∀ b, Moving (step b)]
    {I : β → List Token → State → Prop}
    (hstep : ∀ b ts s, I b ts s → Runs (step b) s fun o us s' => I (o.getD b) (ts ++ us) s')
    {b : β} {t : List Token} (h : I b t s) :
    Runs (Grammar.iterate step b) s fun b' us s' => I b' (t ++ us) s' := by
  have run : ∀ fuel b ts s, I b ts s →
      Runs (iterateUpTo fuel step b) s fun b' us s' => I b' (ts ++ us) s' := by
    intro fuel
    induction fuel with
    | zero =>
      intro b ts s h
      exact pure (by simpa using h)
    | succ fuel ih =>
      intro b ts s h
      have hnext : ∀ next, Moving (iterateUpTo fuel step next) := fun next => Twin.iterateUpTo fuel next
      refine andThen (m := fun o => by cases o <;> infer_instance) (hstep b ts s h) fun o us s₁ h₁ => ?_
      cases o with
      | none => exact pure (by simpa using h₁)
      | some next => exact (ih next _ s₁ h₁).mono fun _ _ _ h => by simpa using h
  exact run _ b t s h

/-- The same for a loop that collects what its rounds give.  The round that ends the loop may read
something, too, and then `E` holds behind it. -/
theorem many {p : Parser (Option α)} [Moving p] {I E : List α → List Token → State → Prop}
    (hend : ∀ as ts s, I as ts s → E as ts s)
    (hp : ∀ as ts s, I as ts s → Runs p s fun o us s' =>
      o.elim (E as (ts ++ us) s') fun a => I (as ++ [a]) (ts ++ us) s')
    {a : List α} {t : List Token} (h : I a t s) :
    Runs (Grammar.many p) s fun more us s' => E (a ++ more) (t ++ us) s' := by
  have run : ∀ fuel as ts s, I as ts s →
      Runs (manyUpTo fuel p) s fun more us s' => E (as ++ more) (ts ++ us) s' := by
    intro fuel
    induction fuel with
    | zero =>
      intro as ts s h
      exact pure (by simpa using hend as ts s h)
    | succ fuel ih =>
      intro as ts s h
      have hmore : Moving (manyUpTo fuel p) := Twin.manyUpTo fuel
      refine andThen (m := fun o => by cases o <;> infer_instance) (hp as ts s h) fun o us s₁ h₁ => ?_
      cases o with
      | none => exact pure (by simpa using h₁)
      | some a =>
        refine andThen (ih _ _ s₁ h₁) fun more vs s₂ h₂ => ?_
        exact pure (by simpa using h₂)
  exact run _ a t s h

/-- Items with commas between them. -/
inductive Commas (P : α → List Token → State → Prop) : List α → List Token → State → Prop
  | one {a : α} {ts : List Token} {s : State} (h : P a ts s) : Commas P [a] ts s
  | more {as : List α} {ts us : List Token} {comma : Token} {a : α} {s₁ s₂ : State}
      (h : Commas P as ts s₁) (hk : comma.kind = .comma) (ha : P a us s₂) :
      Commas P (as ++ [a]) (ts ++ comma :: us) s₂

theorem commaSeparated {item : Parser α} [Moving item] (h : ∀ s, Runs item s P) :
    Runs (Grammar.commaSeparated item) s (Commas P) := by
  refine andThen (h s) fun first ts s₁ h₁ => ?_
  refine andThen (many (fun _ _ _ h => h) (I := Commas P) (fun as ts s hs => ?_) (.one h₁))
    fun more us s₂ h₂ => ?_
  · refine accept (by decide) (fun hk => ?_) fun _ => pure (by simpa using hs)
    exact andThen (h _) fun a us s' ha => pure (by simpa using hs.more hk ha)
  · exact pure (by simpa using h₂)

/-- Items with commas between them, possibly one behind the last. -/
def Ended (P : α → List Token → State → Prop) (as : List α) (ts : List Token) (s : State) : Prop :=
  Commas P as ts s ∨ ∃ us comma s₁, Commas P as us s₁ ∧ comma.kind = .comma ∧ ts = us ++ [comma]

theorem commaTerminated {close : Kind} {item : Parser α} [Moving item] (h : ∀ s, Runs item s P) :
    Runs (Grammar.commaTerminated close item) s fun as ts s' =>
      as = [] ∧ ts = [] ∨ Ended P as ts s' := by
  refine checkOrEnd fun b => ite (fun _ => pure (.inl ⟨rfl, rfl⟩)) fun _ => ?_
  refine andThen (h s) fun first ts s₁ h₁ => ?_
  refine andThen (many (fun _ _ _ h => .inl h) (I := Commas P) (E := Ended P) (fun as ts s hs => ?_)
    (.one h₁)) fun more us s₂ h₂ => ?_
  · refine accept (by decide) (fun hk => checkOrEnd fun b => ite (fun _ => ?_) fun _ => ?_)
      fun _ => pure (.inl (by simpa using hs))
    · exact pure (.inr ⟨ts, _, _, hs, hk, rfl⟩)
    · exact andThen (h _) fun a us s' ha => pure (by simpa using hs.more hk ha)
  · exact pure (.inr (by simpa using h₂))

/-- The items of a body, each of which reads something; `R` holds of what was read together. -/
theorem bodyItems {close : Kind} {item : Parser (List α)} [Moving item] {R : List α → List Token → Prop}
    (nil : R [] []) (append : ∀ {as bs ts us}, R as ts → R bs us → R (as ++ bs) (ts ++ us))
    (semicolon : ∀ {t : Token}, t.kind = .semicolon → R [] [t])
    (h : ∀ s, Runs item s fun as ts _ => ts ≠ [] ∧ R as ts) :
    Runs (Grammar.bodyItems close item) s fun as ts _ => R as ts := by
  have moving : Moving (bodyRound close item) := by
    unfold bodyRound
    infer_instance
  refine andThen (many (fun _ _ _ h => h) (I := fun groups ts _ => R groups.flatten ts) (a := [])
    (fun groups ts s hts => ?_) nil) fun groups ts s₁ hts => pure (by simpa using hts)
  refine checkOrEnd fun b => ite (fun _ => pure (by simpa using hts)) fun _ => ?_
  refine accept (by decide) (fun hsemi => pure (by simpa using append hts (semicolon hsemi))) fun _ => ?_
  refine position <| andThen (h _).tracked fun items us s₁ ⟨hpass, hclean, hne, hus⟩ => ?_
  exact recoverAfterItem hpass hne hclean <| pure (by simpa using append hts hus)

end Runs

end FluxFront.Grammar
