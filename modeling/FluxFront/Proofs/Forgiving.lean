import FluxFront.Proofs.Halves

/-!
# Runs that forgive missing tokens

What a parser does in front of words in which some tokens are missing, if it reports each of them and goes on
where it stands.

* **Specification**: `Forgives n p ws after R` is like `Gives`, but on the way `n` tokens were missed.  Each of
  them is an error that is recorded (`Record.Missing`), and behind it there is no panic.
* **Rules**: the numbers of missing tokens add up where parsers follow each other and along a body.
* **Crux**: only a semicolon is forgiven, and only in front of a token that may start something new
  (`forgives_expectSemicolon`).
-/

namespace FluxFront.Grammar

open Token (Kind Word)

/-! ## What is reported -/

/-- From one record to another, `n` errors about missing tokens were added. -/
def Record.Missing (n : Nat) (r r' : Record) : Prop :=
  ∃ ds : List Diagnostic, ds.length = n ∧ (∀ d ∈ ds, d.kind = .expectedToken) ∧
    r'.errors = { r.errors with errors := r.errors.errors ++ ds }

namespace Record.Missing

variable {m n : Nat} {r r' r'' : Record}

theorem zero (r : Record) : Record.Missing 0 r r := by
  refine ⟨[], rfl, nofun, ?_⟩
  rw [List.append_nil]

theorem append (h : Record.Missing m r r') (h' : Record.Missing n r' r'') :
    Record.Missing (m + n) r r'' := by
  obtain ⟨ds, rfl, hds, hr⟩ := h
  obtain ⟨es, rfl, hes, hr'⟩ := h'
  refine ⟨ds ++ es, List.length_append, ?_, ?_⟩
  · intro d hd
    rcases List.mem_append.1 hd with hd | hd
    · exact hds d hd
    · exact hes d hd
  · rw [hr', hr, List.append_assoc]

theorem limit (h : Record.Missing n r r') : r'.errors.limit = r.errors.limit := by
  obtain ⟨ds, -, -, hr⟩ := h
  rw [hr]

end Record.Missing

/-! ## What a parser gives -/

variable {α β : Type} {m n : Nat} {w : Word} {ws ws₁ after : List Word} {R : β → Prop}

/-- In front of the words `ws` the parser reads up to the words `after` and misses `n` tokens on the way;
its result has the property `R`. -/
def Forgives (n : Nat) (p : Parser α) (ws after : List Word) (R : α → Prop) : Prop :=
  ∀ r s, r.errors.limit = none → Ahead r false ws s →
    After p s fun a s' => R a ∧ ∃ r', Record.Missing n r r' ∧ Ahead r' false after s'

theorem Gives.forgives {p : Parser α} {R : α → Prop} (h : Gives false p ws after R) : Forgives 0 p ws after R :=
  fun r s _ hs => (h r s hs).mono fun _ _ ha => ⟨ha.1, r, .zero r, ha.2⟩

namespace Forgives

theorem exists_run {p : Parser α} {R : α → Prop} (h : Forgives n p ws after R) {r : Record} {s : State}
    (hr : r.errors.limit = none) (hs : Ahead r false ws s) :
    ∃ a s' r', p s = (a, s') ∧ R a ∧ Record.Missing n r r' ∧ Ahead r' false after s' := by
  obtain ⟨ha, r', hr', hs'⟩ := h r s hr hs
  exact ⟨(p s).1, (p s).2, r', rfl, ha, hr', hs'⟩

theorem mono {p : Parser α} {Q R : α → Prop} (h : Forgives n p ws after Q) (hR : ∀ a, Q a → R a) :
    Forgives n p ws after R := fun r s hr hs => (h r s hr hs).mono fun a _ ha => ⟨hR a ha.1, ha.2⟩

theorem bind {p : Parser α} {q : α → Parser β} {Q : α → Prop} (hp : Forgives m p ws ws₁ Q)
    (hq : ∀ a, Q a → Forgives n (q a) ws₁ after R) : Forgives (m + n) (p >>= q) ws after R := by
  intro r s hr hs
  refine (hp r s hr hs).andThen ?_
  rintro a s₁ ⟨ha, r₁, hr₁, hs₁⟩
  refine (hq a ha r₁ s₁ (hr₁.limit.trans hr) hs₁).mono ?_
  rintro b s₂ ⟨hb, r₂, hr₂, hs₂⟩
  exact ⟨hb, r₂, hr₁.append hr₂, hs₂⟩

/-- Behind a parser that misses nothing. -/
theorem behind {p : Parser α} {q : α → Parser β} {Q : α → Prop} (hp : Gives false p ws ws₁ Q)
    (hq : ∀ a, Q a → Forgives n (q a) ws₁ after R) : Forgives n (p >>= q) ws after R :=
  Nat.zero_add n ▸ hp.forgives.bind hq

/-- In front of a parser that misses nothing. -/
theorem before {p : Parser α} {q : α → Parser β} {Q : α → Prop} (hp : Forgives n p ws ws₁ Q)
    (hq : ∀ a, Q a → Gives false (q a) ws₁ after R) : Forgives n (p >>= q) ws after R :=
  hp.bind fun a ha => (hq a ha).forgives

theorem map {p : Parser α} {f : α → β} {Q : α → Prop} (hp : Forgives n p ws after Q)
    (hf : ∀ a, Q a → R (f a)) : Forgives n (f <$> p) ws after R :=
  hp.before fun a ha => .pure (hf a ha)

theorem here {q : Location → Parser β} (h : ∀ start, Forgives n (q start) ws after R) :
    Forgives n (Grammar.here >>= q) ws after R := fun r s hr hs => h s.here r s hr hs

end Forgives

/-! ## Semicolons -/

theorem gives_expectSemicolon (what : String) :
    Gives false (expectSemicolon what) (.fixed .semicolon :: ws) ws fun _ => True :=
  .accept_pos (Word.shown_false _) rfl nofun (.pure trivial)

/-- Without a limit an error is recorded; where there was no panic, there is none behind it once it is
calmed. -/
theorem Ahead.forgiven {r : Record} {s : State} (hr : r.errors.limit = none) (hs : Ahead r false ws s)
    {d : Diagnostic} (hd : d.kind = .expectedToken) :
    ∃ r', Record.Missing 1 r r' ∧ Ahead r' false ws (s.reported d).calmed := by
  have hreported : s.reported d =
      { s with failures := s.failures + 1, panicking := true, errors := s.errors.addError d } := by
    unfold State.reported
    rw [hs.calm]
    rfl
  refine ⟨⟨r.errors.addError d, r.failures + 1⟩, ⟨[d], rfl, by simpa using hd, ?_⟩, ?_⟩
  · simp [Diagnostic.Collection.addError, Diagnostic.Collection.hasRoom, hr]
  · rw [hreported]
    exact ⟨hs.words, hs.ample, congrArg (·.addError d) hs.recorded, congrArg (· + 1) hs.noticed, rfl⟩

theorem after_reportUnexpected {s : State} (hne : s.current.kind ≠ .eof) (expected : String) :
    After (reportUnexpected expected) s fun _ s' =>
      ∃ d : Diagnostic, d.kind = .expectedToken ∧ s' = s.reported d :=
  .current (.ite (fun he => absurd he hne) fun _ => ⟨_, rfl, rfl⟩)

/-- **A semicolon that is missing in front of a token that starts something new is reported**, and that is
all. -/
theorem forgives_expectSemicolon (what : String) (hw : w.kind ∈ statementStarts) (hne : w.kind ≠ .eof) :
    Forgives 1 (expectSemicolon what) (w :: ws) (w :: ws) fun _ => True := by
  intro r s hr hs
  have hkind := hs.kind w.shown_false
  have hsemicolon : s.current.kind ≠ .semicolon := by
    rw [hkind]
    intro hk
    rw [hk] at hw
    exact absurd hw (by decide)
  refine .accept (fun hk => absurd hk hsemicolon) fun _ => .get ?_
  have hreport := after_reportUnexpected (by rwa [hkind]) ("Expected ';' after " ++ what)
  refine hreport.andThen ?_
  rintro _ _ ⟨d, hd, rfl⟩
  -- reporting moves nothing, so the token is still there to be looked at
  have hstart : statementStarts.contains (s.reported d).current.kind = true := by
    rw [State.current, s.rest_reported d, ← State.current, hkind]
    exact List.contains_iff_mem.2 hw
  refine .checkAny_eq ?_
  rw [hstart, hs.calm]
  exact ⟨trivial, hs.forgiven hr hd⟩

/-! ## Bodies -/

/-- How many tokens are missing in the items of a body. -/
def missingAlong {γ : Type} (missing : γ → Nat) : List γ → Nat
  | [] => 0
  | a :: more => missing a + missingAlong missing more

/-- A parser that has words behind it has moved. -/
theorem Ahead.moved {r r' : Record} {s s' : State} (hs : Ahead r false (ws ++ after) s)
    (hs' : Ahead r' false after s') (hne : ws ≠ []) (h : Moves True s s') : s'.position ≠ s.position := by
  intro hp
  -- a token that is split while the cursor stands still does not show if halves count
  have hsight := h.sight_eq hp
  rw [show s.rest.map Token.word = ws ++ after from hs.words,
    show s'.rest.map Token.word = after from hs'.words] at hsight
  have hlength := congrArg List.length hsight
  obtain ⟨w, more, rfl⟩ := List.exists_cons_of_ne_nil hne
  have hpos : 0 < w.halves.length := by
    unfold Word.halves
    split <;> exact Nat.succ_pos _
  simp only [Word.sight, if_true, List.flatMap_append, List.flatMap_cons, List.length_append] at hlength
  omega

namespace Forgives

variable {close : Kind} {item : Parser (List α)}

theorem many_step {p : Parser (Option α)} {Q : α → Prop} {R : List α → Prop} (h : Round True p)
    (hp : Forgives m p ws ws₁ fun o => ∃ a, o = some a ∧ Q a)
    (hmore : Forgives n (many p) ws₁ after fun as => ∀ a, Q a → R (a :: as)) :
    Forgives (m + n) (many p) ws after R := by
  intro r s hr hs
  have hrun := many_eq h hs.ample
  obtain ⟨⟨a, ho, ha⟩, r₁, hr₁, hs₁⟩ := hp r s hr hs
  obtain ⟨has, r₂, hr₂, hs₂⟩ := hmore r₁ _ (hr₁.limit.trans hr) hs₁
  rw [ho] at hrun
  unfold After
  rw [hrun]
  exact ⟨has a ha, r₂, hr₁.append hr₂, hs₂⟩

/-- Behind one item of a body there is nothing to recover from. -/
theorem bodyRound {Q : List α → Prop} (hsteady : Steady True item) (hw : w.kind ∉ [close, .eof, .semicolon])
    (h : Forgives n item (w :: (ws ++ after)) after Q) :
    Forgives n (Grammar.bodyRound close item) (w :: (ws ++ after)) after fun o => ∃ as, o = some as ∧ Q as := by
  have hfurther : [close, Kind.eof].contains w.kind = false := by
    rw [Bool.eq_false_iff, Ne, List.contains_iff_mem]
    intro hm
    have hmem : w.kind ∈ [close, .eof] ++ [.semicolon] := List.mem_append_left _ hm
    exact hw hmem
  have hsemicolon : w.kind ≠ .semicolon := fun hk => hw (by simp [hk])
  intro r s hr hs
  have hkind := hs.kind w.shown_false
  refine .checkAny_eq ?_
  rw [hkind, hfurther]
  refine .accept (fun hk => absurd (hkind.symm.trans hk) hsemicolon) fun _ => .position ?_
  obtain ⟨as, s', r', hrun, ha, hr', hs'⟩ := h.exists_run hr hs
  have hmoves : Moves True s s' := by
    have hmoves := hsteady.moves s
    rwa [hrun] at hmoves
  have hmoved : s'.position ≠ s.position :=
    hs.moved hs' (List.cons_ne_nil w ws) hmoves
  refine .andThen (Q := fun bs t => bs = as ∧ t = s') ?_ ?_
  · unfold After
    rw [hrun]
    exact ⟨rfl, rfl⟩
  · rintro _ _ ⟨rfl, rfl⟩
    exact .recoverAfterItem hmoved hs'.calm (.pure ⟨⟨_, rfl, ha⟩, r', hr', hs'⟩)

/-- Along a body the missing tokens add up.  An item starts with a word of some sort, and is read in front of
such a word and in front of the word that closes the body. -/
theorem bodyItems {γ δ : Type} {f : α → δ} {f' : γ → δ} {g : γ → List Word} {missing : γ → Nat}
    {P : Word → Prop} (hsteady : Steady True item) (hw : w.kind = close)
    (hstarts : ∀ u, P u → u.kind ∉ [close, .eof, .semicolon]) (as : List γ)
    (hopen : ∀ a ∈ as, ∃ u us, g a = u :: us ∧ P u)
    (h : ∀ a ∈ as, ∀ u us, P u ∨ u = w →
      Forgives (missing a) item (g a ++ u :: us) (u :: us) fun bs => bs.map f = [f' a]) :
    Forgives (missingAlong missing as) (Grammar.bodyItems close item) (as.flatMap g ++ w :: ws) (w :: ws)
      fun bs => bs.map f = as.map f' := by
  have round := (bodyRound_gets_on hsteady close).round (steady_bodyRound hsteady close)
  have hgroups : Forgives (missingAlong missing as) (many (Grammar.bodyRound close item))
      (as.flatMap g ++ w :: ws) (w :: ws) fun groups => groups.flatten.map f = as.map f' := by
    induction as with
    | nil =>
      have hclosed : [close, Kind.eof].contains w.kind = true := by simp [hw]
      have hstop : Gives false (Grammar.bodyRound close item) (w :: ws) (w :: ws) (· = none) := by
        refine .checkAny (Word.shown_false _) ?_
        rw [hclosed]
        exact .pure rfl
      have hnone : Gives false (many (Grammar.bodyRound close item)) (w :: ws) (w :: ws)
          fun groups => groups.flatten.map f = [] := .many_stop round hstop rfl
      exact hnone.forgives
    | cons a more ih =>
      rw [List.forall_mem_cons] at hopen h
      obtain ⟨u, us, hu, hstart⟩ := hopen.1
      -- behind the item stands the next one or the end of the body
      obtain ⟨v, vs, hv, hnext⟩ : ∃ v vs, more.flatMap g ++ w :: ws = v :: vs ∧ (P v ∨ v = w) := by
        cases more with
        | nil => exact ⟨w, ws, rfl, .inr rfl⟩
        | cons b more =>
          obtain ⟨v, vs, hv, hb⟩ := hopen.2 b List.mem_cons_self
          exact ⟨v, vs ++ (more.flatMap g ++ w :: ws), by simp [hv], .inl hb⟩
      have hitem := h.1 v vs hnext
      rw [List.flatMap_cons, List.append_assoc]
      rw [← hv, hu, List.cons_append] at hitem
      rw [hu, List.cons_append]
      refine many_step round (.bodyRound hsteady (hstarts u hstart) hitem) ((ih hopen.2 h.2).mono ?_)
      intro groups hgroups bs hbs
      rw [List.flatten_cons, List.map_append, hbs, hgroups]
      rfl
  exact hgroups.before fun groups hg => .pure hg

end Forgives

end FluxFront.Grammar
