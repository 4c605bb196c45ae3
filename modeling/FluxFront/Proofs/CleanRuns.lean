import FluxFront.Proofs.SteadyProductions
import FluxFront.Proofs.Words

/-!
# Runs without errors

What a parser does in front of known words when nothing is wrong.

* **Sight**: `Ahead r halved ws s` says that the words `ws` lie ahead of a state outside of a panic, and that
  what was reported so far is `r`.  Where `halved` holds, a `>>` counts as two `>` and a `**` as two `*`, for
  in types they may be read so.
* **Specification**: `Gives halved p ws after R` says that, in front of the words `ws`, the parser reads
  up to the words `after`, has nothing to complain about, and gives a result with the property `R`.
  What was reported before does not matter, and nothing is added to it.
  There is one rule for each way to put parsers together; a proof follows the text of the production
  and never mentions a state.
* **Loops**: a loop of rounds takes a step if its parser gives something and ends if it does not, for
  the bound on loops is ample.
-/

namespace FluxFront

/-! ## Sight -/

/-- The kinds of the words that a word in sight may be a part of. -/
def Token.Kind.guises (halved : Bool) (k : Token.Kind) : List Token.Kind :=
  if halved && k == .greater then [.greater, .shr]
  else if halved && k == .star then [.star, .starStar]
  else [k]

theorem Token.Kind.mem_guises (halved : Bool) (k : Token.Kind) : k ∈ k.guises halved := by
  unfold guises
  split
  · simp_all
  · split <;> simp_all

namespace Token.Word

/-- Whether a word in sight can only be the word itself, and not half of another. -/
def Shown (halved : Bool) (w : Word) : Prop := halved = true → w.kind ≠ .greater ∧ w.kind ≠ .star

theorem shown_false (w : Word) : Shown false w := nofun

/-- The first word in sight is the first word, or the first half of it. -/
theorem sight_cases {halved : Bool} {us ws : List Word} {w : Word} (h : sight halved us = w :: ws) :
    (∃ vs, us = w :: vs ∧ sight halved vs = ws) ∨
      ∃ k, (k = .greater ∨ k = .star) ∧ halved = true ∧ w = .fixed k ∧
        ∃ v vs, us = v :: vs ∧ v.kind = Writes.doubled k ∧ ws = .fixed k :: sight true vs := by
  cases us with
  | nil => exact absurd h (by cases halved <;> simp [sight])
  | cons v vs =>
    rw [sight_cons] at h
    cases halved with
    | false =>
      obtain ⟨rfl, rfl⟩ := List.cons.inj h
      exact .inl ⟨vs, rfl, rfl⟩
    | true =>
      have hsight : sight true [v] = v.halves := by simp [sight]
      rw [hsight] at h
      unfold halves at h
      split at h
      · rename_i hk
        obtain ⟨rfl, rfl⟩ := List.cons.inj h
        exact .inr ⟨.greater, .inl rfl, rfl, rfl, v, vs, rfl, hk, rfl⟩
      · rename_i hk
        obtain ⟨rfl, rfl⟩ := List.cons.inj h
        exact .inr ⟨.star, .inr rfl, rfl, rfl, v, vs, rfl, hk, rfl⟩
      · obtain ⟨rfl, rfl⟩ := List.cons.inj h
        exact .inl ⟨vs, rfl, rfl⟩

/-- A word that is no half is seen as it is. -/
theorem exists_of_sight {halved : Bool} {us ws : List Word} {w : Word} (hw : w.Shown halved)
    (h : sight halved us = w :: ws) : ∃ vs, us = w :: vs ∧ sight halved vs = ws := by
  rcases sight_cases h with hcase | ⟨k, hk, rfl, rfl, -⟩
  · exact hcase
  · obtain ⟨hgreater, hstar⟩ := hw rfl
    rcases hk with rfl | rfl
    · exact absurd rfl hgreater
    · exact absurd rfl hstar

/-- The first word in sight is a word or a half of one. -/
theorem head_of_sight {halved : Bool} {us ws : List Word} {w : Word} (h : sight halved us = w :: ws) :
    ∃ v vs, us = v :: vs ∧ v.kind ∈ w.kind.guises halved := by
  rcases sight_cases h with ⟨vs, rfl, -⟩ | ⟨k, hk, rfl, rfl, v, vs, rfl, hv, -⟩
  · exact ⟨w, vs, rfl, Kind.mem_guises halved _⟩
  · refine ⟨v, vs, rfl, ?_⟩
    rw [hv]
    rcases hk with rfl | rfl <;> decide

/-- Behind words that are no halves, the next word in sight is a word or a half of one. -/
theorem getElem_of_sight {halved : Bool} {us pre ws : List Word} {w : Word}
    (hpre : ∀ u ∈ pre, u.Shown halved) (h : sight halved us = pre ++ w :: ws) :
    ∃ v, us[pre.length]? = some v ∧ v.kind ∈ w.kind.guises halved := by
  induction pre generalizing us with
  | nil =>
    obtain ⟨v, vs, rfl, hv⟩ := head_of_sight h
    exact ⟨v, rfl, hv⟩
  | cons u pre ih =>
    rw [List.forall_mem_cons] at hpre
    obtain ⟨vs, rfl, hvs⟩ := exists_of_sight hpre.1 h
    exact ih hpre.2 hvs

end Token.Word

namespace Grammar

open Token (Kind Word Writes)

variable {α β : Type} {halved : Bool}

/-- Splitting makes two words of a `>>` at the front. -/
theorem State.words_splitShift (s : State) :
    s.splitShift.rest.map Token.word =
      match s.rest.map Token.word with
      | [] => []
      | w :: ws =>
        if w.kind = .shr then .fixed .greater :: .fixed .greater :: ws else w :: ws := by
  unfold State.splitShift
  cases hrest : s.rest with
  | nil => simp [hrest]
  | cons t rest =>
    by_cases ht : t.kind = .shr
    · simp [ht, Token.word, Word.fixed, Kind.spelling, Kind.symbol]
    · simp [hrest, ht, Token.word]

/-- What was reported so far: the errors that were recorded and the number of those that were noticed. -/
structure Record where
  errors : Diagnostic.Collection
  failures : Nat

/-- Where nothing was reported. -/
def Record.blank (maxErrors : Option Nat) : Record := ⟨.empty maxErrors, 0⟩

/-- There is no panic, nothing else was reported, and the words lie ahead. -/
structure Ahead (r : Record) (halved : Bool) (ws : List Word) (s : State) : Prop where
  words : Word.sight halved (s.rest.map Token.word) = ws
  ample : s.Ample s.bound
  recorded : s.errors = r.errors
  noticed : s.failures = r.failures
  calm : s.panicking = false

namespace Ahead

variable {r : Record} {s : State} {w : Word} {ws : List Word}

/-- A state that differs in its counters only has the same words ahead. -/
theorem of_same {t : State} (h : Ahead r halved ws s) (rest : t.rest = s.rest)
    (bound : t.bound = s.bound) (errors : t.errors = s.errors) (failures : t.failures = s.failures)
    (calm : t.panicking = s.panicking) : Ahead r halved ws t := by
  refine ⟨?_, ?_, ?_, ?_, ?_⟩
  · rw [rest]
    exact h.words
  · unfold State.Ample
    rw [State.weight_eq_of_rest rest, bound]
    exact h.ample
  · rw [errors]
    exact h.recorded
  · rw [failures]
    exact h.noticed
  · rw [calm]
    exact h.calm

theorem exists_cons (h : Ahead r halved (w :: ws) s) (hw : w.Shown halved) :
    ∃ t rest, s.rest = t :: rest ∧ t.word = w ∧ Word.sight halved (rest.map Token.word) = ws := by
  obtain ⟨vs, hvs, hsight⟩ := Word.exists_of_sight hw h.words
  cases hrest : s.rest with
  | nil =>
    rw [hrest] at hvs
    exact absurd hvs (by simp)
  | cons t rest =>
    rw [hrest, List.map_cons] at hvs
    obtain ⟨ht, hmore⟩ := List.cons.inj hvs
    exact ⟨t, rest, rfl, ht, by rw [hmore]; exact hsight⟩

theorem current (h : Ahead r halved (w :: ws) s) (hw : w.Shown halved) : s.current.word = w := by
  obtain ⟨t, rest, hrest, ht, -⟩ := h.exists_cons hw
  rw [← ht]
  simp [State.current, hrest]

theorem kind (h : Ahead r halved (w :: ws) s) (hw : w.Shown halved) : s.current.kind = w.kind :=
  congrArg Word.kind (h.current hw)

/-- What a token may be, if the word in sight may be a half of it. -/
theorem kindAt_mem {pre : List Word} (h : Ahead r halved (pre ++ w :: ws) s)
    (hpre : ∀ u ∈ pre, u.Shown halved) : s.kindAt pre.length ∈ w.kind.guises halved := by
  obtain ⟨v, hv, hk⟩ := Word.getElem_of_sight hpre h.words
  rw [List.getElem?_map] at hv
  obtain ⟨t, ht, rfl⟩ := Option.map_eq_some_iff.1 hv
  unfold State.kindAt
  rw [ht]
  exact hk

theorem kind_mem (h : Ahead r halved (w :: ws) s) : s.current.kind ∈ w.kind.guises halved := by
  obtain ⟨v, vs, hv, hk⟩ := Word.head_of_sight h.words
  cases hrest : s.rest with
  | nil =>
    rw [hrest] at hv
    exact absurd hv (by simp)
  | cons t rest =>
    rw [hrest] at hv
    rw [← (List.cons.inj hv).1] at hk
    simpa [State.current, hrest, Token.word] using hk

/-- Behind the first token lie the words behind it. -/
theorem behind {t : Token} {rest : List Token} {us : List Word} (h : Ahead r halved us s)
    (hrest : s.rest = t :: rest) (hne : t.kind ≠ .eof)
    (hws : Word.sight halved (rest.map Token.word) = ws) : Ahead r halved ws s.advanced := by
  have hk : s.current.kind ≠ .eof := by simpa [State.current, hrest] using hne
  obtain ⟨t', rest', hrest', -, hadv⟩ := State.advanced_cons hk
  obtain ⟨-, rfl⟩ := List.cons.inj (hrest.symm.trans hrest')
  have hforward := (Move.advance : Move False State.advanced).forward s
  rw [hadv] at hforward ⊢
  exact ⟨hws, h.ample.of_forward hforward, h.recorded, h.noticed, h.calm⟩

theorem advanced (h : Ahead r halved (w :: ws) s) (hw : w.Shown halved) (hk : w.kind ≠ .eof) :
    Ahead r halved ws s.advanced := by
  obtain ⟨t, rest, hrest, rfl, hsight⟩ := h.exists_cons hw
  exact h.behind hrest hk hsight

theorem stamped (h : Ahead r halved ws s) : Ahead r halved ws s.stamped := h.of_same rfl rfl rfl rfl rfl

/-- Splitting changes nothing but the words ahead. -/
theorem splitShift {us : List Word} (h : Ahead r halved ws s)
    (hw : Word.sight halved (s.splitShift.rest.map Token.word) = us) : Ahead r halved us s.splitShift := by
  have hforward := (Move.split : Move False State.splitShift).forward s
  have hample := h.ample.of_forward hforward
  rcases s.splitShift_cases with hs | ⟨t, rest, first, second, -, -, -, -, hs⟩
  · rw [hs] at hw ⊢
    exact ⟨hw, h.ample, h.recorded, h.noticed, h.calm⟩
  · rw [hs] at hw hample ⊢
    exact ⟨hw, hample, h.recorded, h.noticed, h.calm⟩

theorem errors {maxErrors : Option Nat} (h : Ahead (.blank maxErrors) halved ws s) :
    s.errors.isEmpty = true := by
  rw [h.recorded]
  rfl

theorem failures {maxErrors : Option Nat} (h : Ahead (.blank maxErrors) halved ws s) : s.failures = 0 :=
  h.noticed

/-- In front of a text that is made of words, the words lie ahead and then the end of the text. -/
theorem ofText {text : String} (h : Writes halved text.toList ws) (maxErrors : Option Nat) :
    (Token.scan text).2 = [] ∧
      Ahead (.blank maxErrors) halved (ws ++ [.eof]) (.ofTokens (Token.scan text).1 maxErrors) := by
  obtain ⟨us, hscan, hsight⟩ := h.scans
  obtain ⟨hwords, hclean⟩ := hscan .start (text.length + 1) (Nat.lt_succ_self _)
  refine ⟨hclean, ?_, State.ofTokens_ample _ _, rfl, rfl, rfl⟩
  have hclose : closeTokens (Token.scan text).1 = (Token.scan text).1 := by
    have hlast := congrArg List.getLast? hwords
    rw [List.getLast?_map, List.getLast?_concat] at hlast
    obtain ⟨last, hl, hk⟩ := Option.map_eq_some_iff.1 hlast
    have hlast : (Token.scan text).1.getLast? = some last := hl
    have heof : last.kind = .eof := congrArg Word.kind hk
    unfold closeTokens
    rw [hlast]
    exact if_pos heof
  show Word.sight halved ((closeTokens (Token.scan text).1).map Token.word) = ws ++ [.eof]
  rw [hclose, show (Token.scan text).1.map Token.word = us ++ [.eof] from hwords, ← hsight]
  cases halved <;> simp [Word.sight, Word.halves, Word.eof]

end Ahead

/-- A loop of rounds goes on with what its step gives. -/
theorem After.iterate_step {step : β → Parser (Option β)} {b : β} {s : State} {R : β → State → Prop}
    (h : ∀ b, Round True (step b)) (hs : s.Ample s.bound)
    (hstep : After (step b) s fun o s' => ∃ next, o = some next ∧ After (Grammar.iterate step next) s' R) :
    After (Grammar.iterate step b) s R := by
  have hrun := iterate_eq h b hs
  obtain ⟨next, ho, hnext⟩ := hstep
  rw [ho] at hrun
  unfold After
  rw [hrun]
  exact hnext

/-! ## What a parser gives -/

/-- In front of the words `ws` the parser reads up to the words `after`, without an error, and its
result has the property `R`. -/
def Gives (halved : Bool) (p : Parser α) (ws after : List Word) (R : α → Prop) : Prop :=
  ∀ r s, Ahead r halved ws s → After p s fun a s' => R a ∧ Ahead r halved after s'

namespace Gives

variable {w : Word} {ws ws₁ after : List Word} {R : β → Prop}

theorem exists_run {p : Parser α} {R : α → Prop} (h : Gives halved p ws after R) {r : Record} {s : State}
    (hs : Ahead r halved ws s) : ∃ a s', p s = (a, s') ∧ R a ∧ Ahead r halved after s' :=
  ⟨(p s).1, (p s).2, rfl, h r s hs⟩

theorem pure {a : α} {R : α → Prop} (h : R a) : Gives halved (Pure.pure a) ws ws R :=
  fun _ _ hs => ⟨h, hs⟩

theorem mono {p : Parser α} {Q R : α → Prop} (h : Gives halved p ws after Q) (hR : ∀ a, Q a → R a) :
    Gives halved p ws after R := fun r s hs => (h r s hs).mono fun a _ ha => ⟨hR a ha.1, ha.2⟩

theorem bind {p : Parser α} {q : α → Parser β} {Q : α → Prop} (hp : Gives halved p ws ws₁ Q)
    (hq : ∀ a, Q a → Gives halved (q a) ws₁ after R) : Gives halved (p >>= q) ws after R :=
  fun r s hs => (hp r s hs).andThen fun a s' ha => hq a ha.1 r s' ha.2

theorem map {p : Parser α} {f : α → β} {Q : α → Prop} (hp : Gives halved p ws after Q)
    (hf : ∀ a, Q a → R (f a)) : Gives halved (f <$> p) ws after R :=
  hp.bind fun a ha => .pure (hf a ha)

/-- The rules read a parser together with what follows it; at the end nothing follows. -/
theorem last {p : Parser β} (h : Gives halved (p >>= Pure.pure) ws after R) : Gives halved p ws after R := by
  rwa [bind_pure] at h

/-- What follows a choice follows each of its branches. -/
theorem choice {c : Parser Bool} {p p' : Parser α} {q : α → Parser β}
    (h : Gives halved ((do if ← c then p else p') >>= q) ws after R) :
    Gives halved (do if ← c then p >>= q else p' >>= q) ws after R := by
  refine cast (congrArg (Gives halved · ws after R) ?_) h
  rw [bind_assoc]
  congr 1
  funext b
  cases b <;> rfl

/-! ### Looking at the cursor -/

theorem here {q : Location → Parser β} (h : ∀ start, Gives halved (q start) ws after R) :
    Gives halved (Grammar.here >>= q) ws after R := fun r s hs => h s.here r s hs

theorem position {q : Nat → Parser β} (h : ∀ n, Gives halved (q n) ws after R) :
    Gives halved (Grammar.position >>= q) ws after R := fun r s hs => h s.position r s hs

theorem spanFrom {start : Location} {q : Span → Parser β}
    (h : ∀ span, Gives halved (q span) ws after R) :
    Gives halved (Grammar.spanFrom start >>= q) ws after R := fun r s hs => h (s.spanFrom start) r s hs

theorem kind {q : Kind → Parser β} (hw : w.Shown halved)
    (h : Gives halved (q w.kind) (w :: ws) after R) :
    Gives halved (Grammar.kind >>= q) (w :: ws) after R := by
  intro r s hs
  refine .kind ?_
  rw [hs.kind hw]
  exact h r s hs

theorem check_pos {k : Kind} {q : Bool → Parser β} (hw : w.Shown halved) (hk : w.kind = k)
    (h : Gives halved (q true) (w :: ws) after R) :
    Gives halved (check k >>= q) (w :: ws) after R :=
  fun r s hs => .check (fun _ => h r s hs) fun hne => absurd ((hs.kind hw).trans hk) hne

theorem check_neg {k : Kind} {q : Bool → Parser β} (hw : w.Shown halved) (hk : w.kind ≠ k)
    (h : Gives halved (q false) (w :: ws) after R) :
    Gives halved (check k >>= q) (w :: ws) after R :=
  fun r s hs => .check (fun he => absurd ((hs.kind hw).symm.trans he) hk) fun _ => h r s hs

theorem checkAny {ks : List Kind} {q : Bool → Parser β} (hw : w.Shown halved)
    (h : Gives halved (q (ks.contains w.kind)) (w :: ws) after R) :
    Gives halved (checkAny ks >>= q) (w :: ws) after R := by
  intro r s hs
  refine .bind (.bind (.kind ?_))
  rw [hs.kind hw]
  exact h r s hs

/-! ### Looking at what may be a half -/

theorem kind_guises {q : Kind → Parser β}
    (h : ∀ k ∈ w.kind.guises halved, Gives halved (q k) (w :: ws) after R) :
    Gives halved (Grammar.kind >>= q) (w :: ws) after R := fun r s hs => h _ hs.kind_mem r s hs

theorem check_absent {k : Kind} {q : Bool → Parser β} (hk : k ∉ w.kind.guises halved)
    (h : Gives halved (q false) (w :: ws) after R) :
    Gives halved (check k >>= q) (w :: ws) after R :=
  fun r s hs => .check (fun he => absurd (he ▸ hs.kind_mem) hk) fun _ => h r s hs

theorem accept_absent {k : Kind} {q : Bool → Parser β} (hk : k ∉ w.kind.guises halved)
    (h : Gives halved (q false) (w :: ws) after R) :
    Gives halved (accept k >>= q) (w :: ws) after R :=
  fun r s hs => .accept (fun he => absurd (he ▸ hs.kind_mem) hk) fun _ => h r s hs

theorem acceptAny_absent {ks : List Kind} {q : Option Kind → Parser β}
    (hk : ∀ k ∈ ks, k ∉ w.kind.guises halved) (h : Gives halved (q none) (w :: ws) after R) :
    Gives halved (acceptAny ks >>= q) (w :: ws) after R :=
  fun r s hs => .acceptAny (fun hm => absurd hs.kind_mem (hk _ hm)) fun _ => h r s hs

theorem checkAny_guises {ks : List Kind} {b : Bool} {q : Bool → Parser β}
    (hb : ∀ k ∈ w.kind.guises halved, ks.contains k = b) (h : Gives halved (q b) (w :: ws) after R) :
    Gives halved (Grammar.checkAny ks >>= q) (w :: ws) after R := by
  intro r s hs
  refine .checkAny_eq ?_
  rw [hb _ hs.kind_mem]
  exact h r s hs

/-! ### Reading and building -/

theorem advance {q : Token → Parser β} (hw : w.Shown halved) (hk : w.kind ≠ .eof)
    (h : ∀ t : Token, t.word = w → Gives halved (q t) ws after R) :
    Gives halved (advance >>= q) (w :: ws) after R :=
  fun _ _ hs => .advance (h _ (hs.current hw) _ _ (hs.advanced hw hk))

theorem accept_pos {k : Kind} {q : Bool → Parser β} (hw : w.Shown halved) (hk : w.kind = k)
    (hne : k ≠ .eof) (h : Gives halved (q true) ws after R) :
    Gives halved (accept k >>= q) (w :: ws) after R := fun r s hs =>
  .accept (fun _ => h r _ (hs.advanced hw (by rw [hk]; exact hne)))
    fun hn => absurd ((hs.kind hw).trans hk) hn

theorem accept_neg {k : Kind} {q : Bool → Parser β} (hw : w.Shown halved) (hk : w.kind ≠ k)
    (h : Gives halved (q false) (w :: ws) after R) :
    Gives halved (accept k >>= q) (w :: ws) after R := fun r s hs =>
  .accept (fun he => absurd ((hs.kind hw).symm.trans he) hk) fun _ => h r s hs

theorem consume {k : Kind} {expected : String} {q : Unit → Parser β} (hw : w.Shown halved)
    (hk : w.kind = k) (hne : k ≠ .eof) (h : Gives halved (q ()) ws after R) :
    Gives halved (consume k expected >>= q) (w :: ws) after R :=
  bind (Q := fun _ => True) (check_pos hw hk (advance hw (by rw [hk]; exact hne) fun _ _ => .pure trivial))
    fun _ _ => h

theorem consumeName {name expected : String} {q : String → Parser β}
    (h : Gives halved (q name) ws after R) :
    Gives halved (consumeName expected >>= q) (.name name :: ws) after R := by
  have hw : (Word.name name).Shown halved := fun _ => ⟨nofun, nofun⟩
  refine bind (Q := fun got => got = name) (check_pos hw rfl (advance hw nofun fun t ht => .pure ?_))
    fun got hgot => by rw [hgot]; exact h
  exact String.toList_injective (congrArg Word.text ht)

theorem node {build : Span → NodeId → α} {start : Location} {R : α → Prop}
    (h : ∀ span id, R (build span id)) : Gives halved (node build start) ws ws R :=
  fun _ _ hs => .node ⟨h _ _, hs.stamped⟩

theorem nodeAt {build : Span → NodeId → α} {span : Span} {R : α → Prop}
    (h : ∀ id, R (build span id)) : Gives halved (nodeAt build span) ws ws R :=
  fun _ _ hs => .nodeAt ⟨h _, hs.stamped⟩

/-- A node for a round of a loop. -/
theorem someNode {build : Span → NodeId → α} {start : Location} {Q : α → Prop}
    (h : ∀ span id, Q (build span id)) :
    Gives halved (do return some (← Grammar.node build start)) ws ws fun o => ∃ a, o = some a ∧ Q a :=
  bind (node h) fun a ha => pure ⟨a, rfl, ha⟩

theorem note {event : Event} : Gives halved (note event) ws ws fun _ => True :=
  fun _ _ hs => ⟨trivial, hs.of_same rfl rfl rfl rfl rfl⟩

theorem noteCommitted {what : String} {start : Nat} :
    Gives halved (noteCommitted what start) ws ws fun _ => True := position fun _ => note

/-! ### Looking ahead -/

/-- A probe is described by its answer alone. -/
theorem probe {p : Parser α} {R : α → Prop} (hp : Probe (lookAhead p))
    (h : ∀ r s, Ahead r halved ws s → After p s fun a _ => R a) :
    Gives halved (lookAhead p) ws ws R := by
  intro r s hs
  refine ⟨h r s hs, ?_⟩
  rw [hp.state_eq]
  exact hs

/-! ### Loops -/

theorem iterate_step {step : β → Parser (Option β)} {b : β}
    (h : ∀ b, Round True (step b))
    (hstep : Gives halved (step b) ws ws₁ fun o =>
      ∃ next, o = some next ∧ Gives halved (iterate step next) ws₁ after R) :
    Gives halved (iterate step b) ws after R := fun r s hs =>
  .iterate_step h hs.ample ((hstep r s hs).mono fun _ s' ho =>
    let ⟨⟨next, he, hnext⟩, hs'⟩ := ho
    ⟨next, he, hnext r s' hs'⟩)

theorem iterate_stop {step : β → Parser (Option β)} {b : β}
    (h : ∀ b, Round True (step b)) (hstep : Gives halved (step b) ws after (· = none)) (hR : R b) :
    Gives halved (iterate step b) ws after R := by
  intro r s hs
  have hrun := iterate_eq h b hs.ample
  obtain ⟨ho, hs'⟩ := hstep r s hs
  rw [ho] at hrun
  unfold After
  rw [hrun]
  exact ⟨hR, hs'⟩

theorem many_step {p : Parser (Option α)} {Q : α → Prop} {R : List α → Prop}
    (h : Round True p) (hp : Gives halved p ws ws₁ fun o => ∃ a, o = some a ∧ Q a)
    (hmore : Gives halved (many p) ws₁ after fun as => ∀ a, Q a → R (a :: as)) :
    Gives halved (many p) ws after R := by
  intro r s hs
  have hrun := many_eq h hs.ample
  obtain ⟨⟨a, ho, ha⟩, hs'⟩ := hp r s hs
  obtain ⟨has, hs''⟩ := hmore r _ hs'
  rw [ho] at hrun
  unfold After
  rw [hrun]
  exact ⟨has a ha, hs''⟩

theorem many_stop {p : Parser (Option α)} {R : List α → Prop} (h : Round True p)
    (hp : Gives halved p ws after (· = none)) (hR : R []) : Gives halved (many p) ws after R := by
  intro r s hs
  have hrun := many_eq h hs.ample
  obtain ⟨ho, hs'⟩ := hp r s hs
  rw [ho] at hrun
  unfold After
  rw [hrun]
  exact ⟨hR, hs'⟩

end Gives

/-! ## Lists with commas -/

/-- A list with something between its items is the first item, and the others with it in front. -/
theorem intercalate_cons {γ : Type} (x : γ) (first : List γ) (more : List (List γ)) :
    [x].intercalate (first :: more) = first ++ more.flatMap (x :: ·) := by
  induction more generalizing first with
  | nil => simp [List.intercalate]
  | cons next more ih =>
    rw [List.intercalate_cons_cons, ih, List.flatMap_cons, List.append_assoc]
    rfl

section Commas

variable {γ δ : Type} {item : Parser α} {f : α → δ} {f' : γ → δ} {g : γ → List Word} {as : List γ}
  {w : Word} {ws : List Word}

/-- An item is read in front of a comma and in front of the word that closes the list. -/
def ReadsItems (halved : Bool) (item : Parser α) (f : α → δ) (f' : γ → δ) (g : γ → List Word)
    (close : Word) (as : List γ) : Prop :=
  ∀ a ∈ as, ∀ w ws, w = .fixed .comma ∨ w = close →
    Gives halved item (g a ++ w :: ws) (w :: ws) fun b => f b = f' a

theorem shown_comma : (Word.fixed .comma).Shown halved := fun _ => ⟨nofun, nofun⟩

/-- What stands behind an item is a comma or the end of the list. -/
theorem exists_behind_item (g : γ → List Word) (more : List γ) (w : Word) (ws : List Word) :
    ∃ u us, more.flatMap (fun a => .fixed .comma :: g a) ++ w :: ws = u :: us ∧
      (u = .fixed .comma ∨ u = w) := by
  cases more with
  | nil => exact ⟨w, ws, rfl, .inr rfl⟩
  | cons b more => exact ⟨_, _, rfl, .inl rfl⟩

/-- The items behind the first one. -/
theorem Gives.commas {next : Parser (Option α)} (hround : Round True next)
    (hnext : ∀ a ∈ as, ∀ ws after (Q : α → Prop), Gives halved item (g a ++ ws) after Q →
      Gives halved next (.fixed .comma :: (g a ++ ws)) after fun o => ∃ a, o = some a ∧ Q a)
    (hend : Gives halved next (w :: ws) (w :: ws) (· = none))
    (h : ReadsItems halved item f f' g w as) :
    Gives halved (many next) (as.flatMap (fun a => .fixed .comma :: g a) ++ w :: ws) (w :: ws)
      fun bs => bs.map f = as.map f' := by
  induction as with
  | nil => exact .many_stop hround hend rfl
  | cons a more ih =>
    have hmore := ih (fun b hb => hnext b (List.mem_cons_of_mem a hb))
      fun b hb => h b (List.mem_cons_of_mem a hb)
    obtain ⟨u, us, hrest, hu⟩ := exists_behind_item g more w ws
    have hitem := h a List.mem_cons_self u us hu
    rw [List.flatMap_cons, List.append_assoc, List.cons_append, hrest]
    rw [hrest] at hmore
    refine .many_step hround (hnext a List.mem_cons_self _ _ _ hitem) (hmore.mono fun bs hbs b hb => ?_)
    rw [List.map_cons, List.map_cons, hb, hbs]

/-- A first item and the items behind it. -/
theorem Gives.firstAndMore {a : γ} {more : Parser (List α)}
    (hmore : Gives halved more (as.flatMap (fun a => .fixed .comma :: g a) ++ w :: ws) (w :: ws)
      fun bs => bs.map f = as.map f')
    (h : ReadsItems halved item f f' g w (a :: as)) :
    Gives halved (do return (← item) :: (← more))
      ([Word.fixed .comma].intercalate ((a :: as).map g) ++ w :: ws) (w :: ws)
      fun bs => bs.map f = (a :: as).map f' := by
  obtain ⟨u, us, hrest, hu⟩ := exists_behind_item g as w ws
  rw [List.map_cons, intercalate_cons, List.flatMap_map, List.append_assoc, hrest]
  rw [hrest] at hmore
  refine (h a List.mem_cons_self u us hu).bind fun b hb => hmore.bind fun bs hbs => .pure ?_
  rw [List.map_cons, List.map_cons, hb, hbs]

/-- One or more items with commas between them. -/
theorem Gives.commaSeparated (hitem : Steady True item) (hw : .comma ∉ w.kind.guises halved)
    (has : as ≠ []) (h : ReadsItems halved item f f' g w as) :
    Gives halved (commaSeparated item) ([Word.fixed .comma].intercalate (as.map g) ++ w :: ws)
      (w :: ws) fun bs => bs.map f = as.map f' := by
  obtain ⟨a, more, rfl⟩ := List.exists_cons_of_ne_nil has
  refine .firstAndMore (.commas ?_ ?_ ?_ fun b hb => h b (List.mem_cons_of_mem a hb)) h
  · exact Round.accept (k := .comma) nofun (hitem.bind fun a => Steady.pure (some a))
  · intro b _ ws after Q hb
    exact .accept_pos shown_comma rfl nofun (hb.bind fun b hb => .pure ⟨b, rfl, hb⟩)
  · exact .accept_absent hw (.pure rfl)

/-- Items with commas between them, or none if a question about what lies ahead says so. -/
theorem Gives.commaSeparatedUnless {closed : Parser Bool} (hitem : Steady True item)
    (hw : .comma ∉ w.kind.guises halved)
    (hclosed : Gives halved closed (w :: ws) (w :: ws) (· = true))
    (hopen : ∀ a ∈ as, ∀ ws, Gives halved closed (g a ++ ws) (g a ++ ws) (· = false))
    (h : ReadsItems halved item f f' g w as) :
    Gives halved (do if ← closed then Pure.pure [] else Grammar.commaSeparated item)
      ([Word.fixed .comma].intercalate (as.map g) ++ w :: ws) (w :: ws)
      fun bs => bs.map f = as.map f' := by
  cases as with
  | nil =>
    refine hclosed.bind ?_
    rintro _ rfl
    exact .pure rfl
  | cons a more =>
    have hlist : Gives halved (Grammar.commaSeparated item) (_ ++ w :: ws) (w :: ws) _ :=
      .commaSeparated hitem hw (List.cons_ne_nil a more) h
    rw [List.map_cons, intercalate_cons, List.append_assoc] at hlist ⊢
    refine (hopen a List.mem_cons_self _).bind ?_
    rintro _ rfl
    exact hlist

/-- No item starts with the word that closes the list. -/
def ItemsOpen (halved : Bool) (g : γ → List Word) (close : Kind) (as : List γ) : Prop :=
  ∀ a ∈ as, ∃ u us, g a = u :: us ∧ u.Shown halved ∧ u.kind ≠ close ∧ u.kind ≠ .eof

/-- Items up to a closing word with commas between them. -/
theorem Gives.commaTerminated {k : Kind} (hitem : Steady True item) (hw : w.Shown halved)
    (hk : w.kind = k) (hne : k ≠ .comma) (hopen : ItemsOpen halved g k as)
    (h : ReadsItems halved item f f' g w as) :
    Gives halved (commaTerminated k item) ([Word.fixed .comma].intercalate (as.map g) ++ w :: ws)
      (w :: ws) fun bs => bs.map f = as.map f' := by
  -- in front of an item the list is not closed
  have notEnd : ∀ {β : Type} {q : Bool → Parser β} {R : β → Prop} {ws after : List Word}, ∀ a ∈ as,
      Gives halved (q false) (g a ++ ws) after R →
      Gives halved (checkOrEnd k >>= q) (g a ++ ws) after R := by
    intro β q R ws after a ha hq
    obtain ⟨u, us, hu, hshown, hclose, heof⟩ := hopen a ha
    rw [hu, List.cons_append] at hq ⊢
    refine .checkAny hshown ?_
    have hno : [k, Kind.eof].contains u.kind = false := by simp [hclose, heof]
    rw [hno]
    exact hq
  cases as with
  | nil =>
    refine .checkAny hw ?_
    have hyes : [k, Kind.eof].contains w.kind = true := by simp [hk]
    rw [hyes]
    exact .pure rfl
  | cons a more =>
    have hmore : Gives halved (many do
        if ← accept .comma then
          if ← checkOrEnd k then return none else return some (← item)
        else return none) (more.flatMap (fun a => .fixed .comma :: g a) ++ w :: ws) (w :: ws)
        fun bs => bs.map f = more.map f' := by
      refine .commas ?_ ?_ ?_ fun b hb => h b (List.mem_cons_of_mem a hb)
      · exact .accept (k := .comma) nofun ((steady_checkOrEnd k).bind fun _ =>
          .ite (.pure none) (hitem.bind fun a => .pure (some a)))
      · intro b hb ws after Q hitem
        refine .accept_pos shown_comma rfl nofun (notEnd b (List.mem_cons_of_mem a hb) ?_)
        exact hitem.bind fun b hb => .pure ⟨b, rfl, hb⟩
      · exact .accept_neg hw (by rw [hk]; exact hne) (.pure rfl)
    have hall := Gives.firstAndMore hmore h
    rw [List.map_cons, intercalate_cons, List.append_assoc] at hall ⊢
    exact notEnd a List.mem_cons_self hall

end Commas

end Grammar

end FluxFront
