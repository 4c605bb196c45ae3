import FluxFront.Proofs.CleanRuns

/-!
# Reading words that come in halves

In types a `>>` closes two lists of arguments and a `**` makes two pointers.  The rules here read `>` and
`*` off a sight in which such words count as two.

* **Angles**: closing a list splits a `>>`, which changes nothing in sight (`Gives.closingAngle`).
* **Exactness**: what is read from words that are no halves is read from them in either sight
  (`Gives.halve`).
* **Bodies**: an item of a body that leaves fewer words ahead has moved the cursor, so that nothing is
  skipped behind it (`Gives.bodyItems`).
-/

namespace FluxFront.Grammar

open Token (Kind Word)

variable {α β : Type} {r : Record} {w : Word} {ws after : List Word} {R : β → Prop}

/-! ## Looking further ahead -/

theorem Gives.get {halved : Bool} {q : State → Parser β}
    (h : ∀ r s, Ahead r halved ws s → Gives halved (q s) ws after R) :
    Gives halved (MonadState.get >>= q) ws after R := fun r s hs => h r s hs r s hs

theorem Gives.kindAt {halved : Bool} {n : Nat} {q : Kind → Parser β}
    (h : ∀ k, Gives halved (q k) ws after R) : Gives halved (kindAt n >>= q) ws after R :=
  fun r s hs => h (s.kindAt n) r s hs

theorem Gives.kindAt_one {halved : Bool} {u : Word} {q : Kind → Parser β} (hw : w.Shown halved)
    (h : ∀ k ∈ u.kind.guises halved, Gives halved (q k) (w :: u :: ws) after R) :
    Gives halved (Grammar.kindAt 1 >>= q) (w :: u :: ws) after R := by
  intro r s hs
  have hpre : ∀ v ∈ [w], v.Shown halved := by simpa using hw
  have hk : s.kindAt 1 ∈ u.kind.guises halved := Ahead.kindAt_mem hs hpre
  exact h _ hk r s hs

theorem Gives.acceptAny {halved : Bool} {ks : List Kind} {q : Option Kind → Parser β}
    (hw : w.Shown halved) (hk : w.kind ∈ ks) (hne : w.kind ≠ .eof)
    (h : Gives halved (q (some w.kind)) ws after R) :
    Gives halved (acceptAny ks >>= q) (w :: ws) after R := by
  intro r s hs
  refine .acceptAny (fun _ => ?_) fun hn => ?_
  · rw [hs.kind hw]
    exact h r _ (hs.advanced hw hne)
  · rw [hs.kind hw] at hn
    exact absurd hk hn

/-! ## Angles and stars -/

/-- The first token is the word in sight, or the word is its first half. -/
theorem Ahead.token_cases {s : State} (h : Ahead r true (w :: ws) s) (hne : w.kind ≠ .eof) :
    (s.current.word = w ∧ Ahead r true ws s.advanced) ∨
      ∃ k, (k = .greater ∨ k = .star) ∧ w = .fixed k ∧ s.current.kind = Token.Writes.doubled k ∧
        ∃ us, ws = .fixed k :: us ∧ Ahead r true us s.advanced := by
  cases hrest : s.rest with
  | nil =>
    have hwords := h.words
    rw [hrest] at hwords
    exact absurd hwords (by simp [Word.sight])
  | cons t rest =>
    have hcurrent : s.current = t := by simp [State.current, hrest]
    have hwords := h.words
    rw [hrest, List.map_cons] at hwords
    rcases Word.sight_cases hwords with ⟨vs, hvs, hsight⟩ | ⟨k, hk, -, rfl, v, vs, hvs, hv, rfl⟩
    · obtain ⟨ht, rfl⟩ := List.cons.inj hvs
      have htk : t.kind = w.kind := congrArg Word.kind ht
      refine .inl ⟨by rw [hcurrent]; exact ht, h.behind hrest ?_ hsight⟩
      rw [htk]
      exact hne
    · obtain ⟨ht, rfl⟩ := List.cons.inj hvs
      have htk : t.kind = Token.Writes.doubled k := (congrArg Word.kind ht).trans hv
      refine .inr ⟨k, hk, rfl, by rw [hcurrent]; exact htk, _, rfl, h.behind hrest ?_ rfl⟩
      rw [htk]
      rcases hk with rfl | rfl <;> decide

/-- A `*` in sight is a token of its own or the first half of one. -/
theorem Ahead.star {s : State} (h : Ahead r true (.fixed .star :: ws) s) :
    (s.current.kind = .star ∧ Ahead r true ws s.advanced) ∨
      (s.current.kind = .starStar ∧ ∃ us, ws = .fixed .star :: us ∧ Ahead r true us s.advanced) := by
  rcases h.token_cases nofun with ⟨hword, hbehind⟩ | ⟨k, -, hw, hkind, hus⟩
  · exact .inl ⟨congrArg Word.kind hword, hbehind⟩
  · obtain rfl : .star = k := congrArg Word.kind hw
    exact .inr ⟨hkind, hus⟩

/-- Splitting a `>>` changes nothing in sight. -/
theorem State.sight_splitShift (s : State) :
    Word.sight true (s.splitShift.rest.map Token.word) = Word.sight true (s.rest.map Token.word) := by
  rw [s.words_splitShift]
  cases s.rest.map Token.word with
  | nil => rfl
  | cons u us =>
    by_cases hu : u.kind = .shr
    · simp [hu, Word.sight, Word.halves, Word.fixed]
    · simp [hu]

theorem Ahead.split {s : State} (h : Ahead r true ws s) : Ahead r true ws s.splitShift :=
  h.splitShift (s.sight_splitShift.trans h.words)

theorem State.kind_splitShift (s : State) : s.splitShift.current.kind ≠ .shr := by
  unfold State.splitShift
  split
  · rename_i t rest hrest
    split
    · exact nofun
    · rename_i ht
      simpa [State.current, hrest] using ht
  · rename_i hrest
    simp [State.current, hrest, Token.endAt]

/-- Closing a list of arguments reads a `>` in sight, whatever it is a part of. -/
theorem Gives.closingAngle {expected : String} {q : Unit → Parser β} (h : Gives true (q ()) ws after R) :
    Gives true (consumeClosingAngle expected >>= q) (.fixed .greater :: ws) after R := by
  intro r s hs
  have read : s.splitShift.current.kind = .greater ∧ Ahead r true ws s.splitShift.advanced := by
    rcases hs.split.token_cases nofun with ⟨hword, hbehind⟩ | ⟨k, -, hw, hkind, -⟩
    · exact ⟨congrArg Word.kind hword, hbehind⟩
    · obtain rfl : .greater = k := congrArg Word.kind hw
      exact absurd hkind s.kind_splitShift
  have hrun : After (Grammar.consume .greater expected >>= q) s.splitShift
      fun a s' => R a ∧ Ahead r true after s' :=
    .bind (.check (fun _ => .advance (.pure (h r _ read.2))) fun hne => absurd read.1 hne)
  exact hrun

/-! ## Exactness -/

/-- Words that are no halves are seen as they are. -/
theorem exists_of_sight_append {us pre rest : List Word} (hpre : ∀ w ∈ pre, w.Shown true)
    (h : Word.sight true us = pre ++ rest) : ∃ vs, us = pre ++ vs ∧ Word.sight true vs = rest := by
  induction pre generalizing us with
  | nil => exact ⟨us, rfl, h⟩
  | cons w pre ih =>
    rw [List.forall_mem_cons] at hpre
    obtain ⟨vs, rfl, hvs⟩ := Word.exists_of_sight hpre.1 h
    obtain ⟨xs, rfl, hxs⟩ := ih hpre.2 hvs
    exact ⟨xs, rfl, hxs⟩

/-- What is read from words that are no halves is read from them where halves count. -/
theorem Gives.halve {p : Parser α} {R : α → Prop} {pre : List Word} (hpre : ∀ u ∈ pre, u.Shown true)
    (hw : w.Shown true) (h : ∀ us, Gives false p (pre ++ w :: us) (w :: us) R) :
    Gives true p (pre ++ w :: ws) (w :: ws) R := by
  intro r s hs
  obtain ⟨us, hus, hsight⟩ := exists_of_sight_append hpre hs.words
  obtain ⟨vs, rfl, hvs⟩ := Word.exists_of_sight hw hsight
  have hexact : Ahead r false (pre ++ w :: vs) s := ⟨hus, hs.ample, hs.recorded, hs.noticed, hs.calm⟩
  refine (h vs r s hexact).mono fun a s' ha => ⟨ha.1, ?_, ha.2.ample, ha.2.recorded, ha.2.noticed, ha.2.calm⟩
  have hwords : s'.rest.map Token.word = w :: vs := ha.2.words
  rw [hwords]
  exact hsight

/-! ## Bodies -/

/-- The words start with one that is not a part of tokens of some kinds. -/
def Lacks (ks : List Kind) (ws : List Word) : Prop :=
  ∃ w more, ws = w :: more ∧ ∀ k ∈ ks, k ∉ w.kind.guises true

theorem Lacks.mono {ks ks' : List Kind} (h : Lacks ks ws) (hk : ∀ k ∈ ks', k ∈ ks) : Lacks ks' ws := by
  obtain ⟨w, more, hw, hn⟩ := h
  exact ⟨w, more, hw, fun k hm => hn k (hk k hm)⟩

/-- A move that leaves the cursor where it is changes nothing in sight. -/
theorem Move.sight_eq {noted : Prop} {f : State → State} (h : Move noted f) {s : State}
    (hp : (f s).position = s.position) :
    Word.sight true ((f s).rest.map Token.word) = Word.sight true (s.rest.map Token.word) := by
  cases h with
  | split => exact s.sight_splitShift
  | advance =>
    by_cases hk : s.current.kind = .eof
    · rw [State.advanced_eof hk]
    · rw [State.position_advanced hk] at hp
      omega
  | report d => rw [s.rest_reported d]
  | record d => rw [s.rest_recorded d]
  | reach | restamp | note | calm => rfl

/-- As long as the cursor stands still, the same words are in sight. -/
theorem Moves.sight_eq {noted : Prop} {s s' : State} (h : Moves noted s s')
    (hp : s'.position = s.position) :
    Word.sight true (s'.rest.map Token.word) = Word.sight true (s.rest.map Token.word) := by
  induction h with
  | refl => rfl
  | @tail s₁ f h last ih =>
    have h₁ := h.forward.position
    have h₂ := (last.forward s₁).position
    exact (last.sight_eq (by omega)).trans (ih (by omega))

/-- Behind an item that moved the cursor there is nothing to recover from. -/
theorem After.recoverAfterItem {before : Nat} {s : State} {q : Unit → Parser β} {R : β → State → Prop}
    (hp : s.position ≠ before) (hcalm : s.panicking = false) (h : After (q ()) s R) :
    After (Grammar.recoverAfterItem before >>= q) s R := by
  have hquiet : After (Grammar.recoverAfterItem before) s fun _ s' => s' = s := by
    have hstay : After (do if (← MonadState.get).panicking then synchronize : Parser Unit) s
        fun _ s' => s' = s := by
      refine .get ?_
      rw [hcalm]
      exact .pure rfl
    have hno : (s.position == before) = false := beq_eq_false_iff_ne.2 hp
    refine .position (.check (fun _ => ?_) fun _ => ?_) <;>
      · rw [hno]
        exact hstay
  refine hquiet.andThen ?_
  rintro _ _ rfl
  exact h

section Bodies

variable {γ δ : Type} {close : Kind} {item : Parser (List α)} {f : α → δ} {f' : γ → δ}
  {g : γ → List Word} {as : List γ}

/-- One item of a body. -/
theorem Gives.bodyRound {Q : List α → Prop} (hsteady : Steady True item)
    (hopen : Lacks [close, .eof, .semicolon] ws) (hne : after ≠ ws) (h : Gives true item ws after Q) :
    Gives true (bodyRound close item) ws after fun o => ∃ as, o = some as ∧ Q as := by
  obtain ⟨w, more, rfl, hw⟩ := hopen
  have hfurther : ∀ k ∈ w.kind.guises true, [close, Kind.eof].contains k = false := by
    intro k hk
    rw [Bool.eq_false_iff, Ne, List.contains_iff_mem]
    intro hm
    have hmem : k ∈ [close, Kind.eof] ++ [.semicolon] := List.mem_append_left _ hm
    exact hw k hmem hk
  refine .checkAny_guises hfurther (.accept_absent (hw .semicolon (by simp)) ?_)
  intro r s hs
  obtain ⟨as, s', hrun, ha, hs'⟩ := h.exists_run hs
  have hmoved : s'.position ≠ s.position := by
    intro hp
    have hmoves : Moves True s s' := by
      have hmoves := hsteady.moves s
      rwa [hrun] at hmoves
    exact hne (hs'.words.symm.trans ((hmoves.sight_eq hp).trans hs.words))
  refine .position (.andThen (Q := fun bs t => bs = as ∧ t = s') ?_ ?_)
  · unfold After
    rw [hrun]
    exact ⟨rfl, rfl⟩
  · rintro _ _ ⟨rfl, rfl⟩
    exact .recoverAfterItem hmoved hs'.calm (.pure ⟨⟨_, rfl, ha⟩, hs'⟩)

/-- The items of a body. -/
theorem Gives.bodyItems (hsteady : Steady True item) (hclose : close = .rightBrace ∨ close = .eof)
    (hw : w.kind = close) (hopen : ∀ a ∈ as, Lacks [close, .eof, .semicolon] (g a))
    (h : ∀ a ∈ as, ∀ rest, Lacks [.semicolon] rest →
      Gives true item (g a ++ rest) rest fun bs => bs.map f = [f' a]) :
    Gives true (bodyItems close item) (as.flatMap g ++ w :: ws) (w :: ws)
      fun bs => bs.map f = as.map f' := by
  have round := (bodyRound_gets_on hsteady close).round (steady_bodyRound hsteady close)
  have hgroups : Gives true (many (Grammar.bodyRound close item)) (as.flatMap g ++ w :: ws) (w :: ws)
      fun groups => groups.flatten.map f = as.map f' := by
    induction as with
    | nil =>
      refine .many_stop round (.checkAny_guises (b := true) ?_ (.pure rfl)) rfl
      rw [hw]
      rcases hclose with rfl | rfl <;> decide
    | cons a more ih =>
      have hmore := ih (fun b hb => hopen b (List.mem_cons_of_mem a hb))
        fun b hb => h b (List.mem_cons_of_mem a hb)
      -- behind an item stands the next one or the end of the body
      have hrest : Lacks [.semicolon] (more.flatMap g ++ w :: ws) := by
        cases more with
        | nil =>
          refine ⟨w, ws, rfl, ?_⟩
          rw [hw]
          rcases hclose with rfl | rfl <;> decide
        | cons b more =>
          obtain ⟨u, us, hu, hk⟩ := hopen b (List.mem_cons_of_mem a List.mem_cons_self)
          refine ⟨u, us ++ (more.flatMap g ++ w :: ws), ?_, fun k hm => hk k ?_⟩
          · rw [List.flatMap_cons, hu, List.append_assoc, List.cons_append]
          · exact List.mem_cons_of_mem _ (List.mem_cons_of_mem _ hm)
      have hitem := h a List.mem_cons_self _ hrest
      rw [List.flatMap_cons, List.append_assoc]
      refine .many_step round (.bodyRound hsteady ?_ ?_ hitem) (hmore.mono fun groups hgroups bs hbs => ?_)
      · obtain ⟨u, us, hu, hk⟩ := hopen a List.mem_cons_self
        exact ⟨u, _, by rw [hu, List.cons_append], hk⟩
      · obtain ⟨u, us, hu, -⟩ := hopen a List.mem_cons_self
        intro he
        rw [List.self_eq_append_left.1 he] at hu
        exact absurd hu nofun
      · rw [List.flatten_cons, List.map_append, hbs, hgroups]
        rfl
  exact hgroups.bind fun groups hg => .pure hg

end Bodies

end FluxFront.Grammar
