import FluxFront.Proofs.Respan
import FluxFront.Proofs.Spans
import FluxFront.Proofs.SteadyProductions

/-!
# Runs that differ in places only

No decision of the grammar depends on where a token stands.  Two runs on tokens that differ in their
spans only do the same, step by step, and differ in spans only.

* **Grounds**: besides, the spans that come up in the first run are not arbitrary.  They come from those
  of its tokens by taking an end, by joining two places, and by splitting a `>>`.  `Grounds` are spans
  that are closed under this.
* **Specification**: `AlikeOn G a a'` says both at once: without spans the values are equal, and the spans
  of the first one are allowed by `G`.  It is one equation, as `G.cover` makes all allowed spans the
  same and keeps them apart from the others.
* **Crux**: `Mirrors G p p'` says that from states that are alike two parsers come to results and
  states that are alike.  It is a class: a production is a mirror of itself because its parts are, and
  only where a production looks at a value does a proof have to say why no span matters.
-/

set_option synthInstance.maxSize 1000

namespace FluxFront

open Token (Kind)

/-! ## Places that are allowed -/

/-- The spans that may come up in a run: with a span the places at its ends, and with two places the
span from one to the later of both. -/
structure Grounds where
  Allows : Span → Prop
  start : ∀ {span : Span}, Allows span → Allows (.single span.start)
  stop : ∀ {span : Span}, Allows span → Allows (.single span.stop)
  join : ∀ {a b : Location}, Allows (.single a) → Allows (.single b) → Allows ⟨a, b.max a⟩

namespace Grounds

/-- Every span may come up. -/
def anywhere : Grounds := ⟨fun _ => True, fun _ => trivial, fun _ => trivial, fun _ _ => trivial⟩

variable (G : Grounds)

open Classical in
/-- Makes all spans that are allowed the same, and keeps them apart from all others. -/
noncomputable def cover (span : Span) : Span :=
  if G.Allows span then default else .single ⟨0, 0, 1⟩

theorem cover_eq_default {span : Span} : G.cover span = default ↔ G.Allows span := by
  unfold cover
  split
  · simpa
  · exact ⟨fun h => absurd h (by decide), fun h => absurd h ‹_›⟩

/-- Where the furthest place reached may be; before the first token it is no place of the text. -/
def Reaches (a : Location) : Prop := a = default ∨ G.Allows (.single a)

variable {G} {a b : Location}

theorem Reaches.span (ha : G.Allows (.single a)) (hb : G.Reaches b) : G.Allows ⟨a, b.max a⟩ := by
  rcases hb with rfl | hb
  · rwa [Location.max_eq_right (Location.default_le a)]
  · exact G.join ha hb

theorem Reaches.max (hb : G.Reaches b) (ha : G.Allows (.single a)) : G.Allows (.single (b.max a)) :=
  G.stop (hb.span ha)

theorem Reaches.max' (hb : G.Reaches b) (ha : G.Allows (.single a)) : G.Allows (.single (a.max b)) := by
  rcases hb with rfl | hb
  · rwa [Location.max_eq_left (Location.default_le a)]
  · exact G.stop (G.join hb ha)

end Grounds

/-! ## Values that are alike -/

instance : Spanned Location := ⟨fun m a => (m (.single a)).start⟩
instance : Spanned Token := ⟨fun m t => { t with span := m t.span }⟩
instance : Spanned Diagnostic := ⟨fun m d => { d with span := respan m d.span }⟩
instance {α β : Type} [Spanned α] [Spanned β] : Spanned (α × β) :=
  ⟨fun m x => (respan m x.1, respan m x.2)⟩
instance : Spanned PUnit := ⟨fun _ a => a⟩
instance : Spanned Bool := ⟨fun _ a => a⟩
instance : Spanned Nat := ⟨fun _ a => a⟩
instance : Spanned UInt64 := ⟨fun _ a => a⟩
instance : Spanned String := ⟨fun _ a => a⟩
instance : Spanned Kind := ⟨fun _ a => a⟩
instance : Spanned QualifiedName := ⟨fun _ a => a⟩
instance : Spanned Qualifiers := ⟨fun _ a => a⟩
instance : Spanned DataLayout := ⟨fun _ a => a⟩
instance : Spanned Grammar.DeclaratorForm := ⟨fun _ a => a⟩

/-- Values without spans. -/
class Spanless (α : Type) [Spanned α] : Prop where
  respan_eq : ∀ (m : Span → Span) (a : α), respan m a = a

instance : Spanless PUnit := ⟨fun _ _ => rfl⟩
instance : Spanless Bool := ⟨fun _ _ => rfl⟩
instance : Spanless Nat := ⟨fun _ _ => rfl⟩
instance : Spanless UInt64 := ⟨fun _ _ => rfl⟩
instance : Spanless String := ⟨fun _ _ => rfl⟩
instance : Spanless Kind := ⟨fun _ _ => rfl⟩
instance : Spanless QualifiedName := ⟨fun _ _ => rfl⟩
instance : Spanless Qualifiers := ⟨fun _ _ => rfl⟩
instance : Spanless DataLayout := ⟨fun _ _ => rfl⟩
instance : Spanless Grammar.DeclaratorForm := ⟨fun _ _ => rfl⟩

section

variable {α β : Type} [Spanned α] [Spanned β]

instance [Spanless α] : Spanless (List α) where
  respan_eq m as := by
    rw [respan_list]
    exact (List.map_congr_left fun a _ => Spanless.respan_eq m a).trans (List.map_id as)

instance [Spanless α] : Spanless (Option α) where
  respan_eq m a := by
    cases a with
    | none => rfl
    | some a => exact congrArg some (Spanless.respan_eq m a)

instance [Spanless α] [Spanless β] : Spanless (α × β) where
  respan_eq m x := Prod.ext (Spanless.respan_eq m x.1) (Spanless.respan_eq m x.2)

end

/-- The token with another span. -/
abbrev Token.moved (t : Token) (span : Span) : Token := ⟨t.kind, t.lexeme, span, t.literal⟩

/-- The value without its spans. -/
def eraseSpans {α : Type} [Spanned α] (a : α) : α := respan (fun _ => default) a

/-- Two values are the same but for their spans, and those of the first are allowed. -/
class AlikeOn (G : Grounds) {α : Type} [Spanned α] (a a' : α) : Prop where
  eq : respan G.cover a = eraseSpans a'

/-- Two values that are alike. -/
structure Both (G : Grounds) (α : Type) [Spanned α] where
  first : α
  second : α
  alike : AlikeOn G first second

attribute [instance] Both.alike

namespace AlikeOn

variable {G : Grounds} {α β γ δ : Type} [Spanned α] [Spanned β] [Spanned γ] [Spanned δ]

theorem eq_of_plain [Spanless α] {a a' : α} (h : AlikeOn G a a') : a = a' := by
  have := h.eq
  rwa [eraseSpans, Spanless.respan_eq, Spanless.respan_eq] at this

instance [Spanless α] (a : α) : AlikeOn G a a :=
  ⟨by rw [eraseSpans, Spanless.respan_eq, Spanless.respan_eq]⟩

/-- A function that does not look at spans keeps values alike. -/
theorem congr {f : α → β} (hf : ∀ m a, respan m (f a) = f (respan m a)) {a a' : α}
    (h : AlikeOn G a a') : AlikeOn G (f a) (f a') :=
  ⟨by rw [eraseSpans, hf, hf, h.eq]; rfl⟩

theorem congr₂ {f : α → β → γ} (hf : ∀ m a b, respan m (f a b) = f (respan m a) (respan m b))
    {a a' : α} {b b' : β} [ha : AlikeOn G a a'] [hb : AlikeOn G b b'] : AlikeOn G (f a b) (f a' b') :=
  ⟨by rw [eraseSpans, hf, hf, ha.eq, hb.eq]; rfl⟩

theorem congr₃ {f : α → β → γ → δ}
    (hf : ∀ m a b c, respan m (f a b c) = f (respan m a) (respan m b) (respan m c))
    {a a' : α} {b b' : β} {c c' : γ} [ha : AlikeOn G a a'] [hb : AlikeOn G b b']
    [hc : AlikeOn G c c'] :
    AlikeOn G (f a b c) (f a' b' c') :=
  ⟨by rw [eraseSpans, hf, hf, ha.eq, hb.eq, hc.eq]; rfl⟩

theorem congr₄ {ε : Type} [Spanned ε] {f : α → β → γ → δ → ε}
    (hf : ∀ m a b c d, respan m (f a b c d) = f (respan m a) (respan m b) (respan m c) (respan m d))
    {a a' : α} {b b' : β} {c c' : γ} {d d' : δ} [ha : AlikeOn G a a'] [hb : AlikeOn G b b']
    [hc : AlikeOn G c c'] [hd : AlikeOn G d d'] : AlikeOn G (f a b c d) (f a' b' c' d') :=
  ⟨by rw [eraseSpans, hf, hf, ha.eq, hb.eq, hc.eq, hd.eq]; rfl⟩

theorem span_iff {span span' : Span} : AlikeOn G span span' ↔ G.Allows span :=
  ⟨fun h => G.cover_eq_default.1 h.eq, fun h => ⟨G.cover_eq_default.2 h⟩⟩

theorem place_iff {a a' : Location} : AlikeOn G a a' ↔ G.Allows (.single a) := by
  constructor
  · intro h
    have hstart : (G.cover (.single a)).start = default := h.eq
    by_cases ha : G.Allows (.single a)
    · exact ha
    · rw [Grounds.cover, if_neg ha] at hstart
      exact absurd hstart (by decide)
  · intro h
    refine ⟨?_⟩
    show (G.cover (.single a)).start = default
    rw [G.cover_eq_default.2 h]
    rfl

/-! ### Tokens -/

theorem token_eq {t t' : Token} (h : AlikeOn G t t') : t' = t.moved t'.span := by
  have heq : ({ t with span := G.cover t.span } : Token) = { t' with span := default } := h.eq
  obtain ⟨kind, lexeme, span, literal⟩ := t
  obtain ⟨kind', lexeme', span', literal'⟩ := t'
  simp only [Token.moved, Token.mk.injEq] at heq ⊢
  exact ⟨heq.1.symm, heq.2.1.symm, trivial, heq.2.2.2.symm⟩

theorem token_span {t t' : Token} (h : AlikeOn G t t') : AlikeOn G t.span t'.span :=
  ⟨congrArg Token.span h.eq⟩

theorem token_kind {t t' : Token} (h : AlikeOn G t t') : t.kind = t'.kind := by rw [h.token_eq]

theorem token {t : Token} (h : G.Allows t.span) (span : Span) :
    AlikeOn G t (t.moved span) := by
  refine ⟨?_⟩
  show ({ t with span := G.cover t.span } : Token) = { t with span := default }
  rw [G.cover_eq_default.2 h]

/-! ### Lists, options and pairs -/

instance : AlikeOn G ([] : List α) [] := ⟨rfl⟩

instance {a a' : α} {as as' : List α} [AlikeOn G a a'] [AlikeOn G as as'] :
    AlikeOn G (a :: as) (a' :: as') := congr₂ fun _ _ _ => rfl

instance {as as' bs bs' : List α} [AlikeOn G as as'] [AlikeOn G bs bs'] :
    AlikeOn G (as ++ bs) (as' ++ bs') := congr₂ fun _ _ _ => List.map_append

instance {ass ass' : List (List α)} [h : AlikeOn G ass ass'] : AlikeOn G ass.flatten ass'.flatten :=
  h.congr fun _ _ => List.map_flatten

theorem length_eq {as as' : List α} (h : AlikeOn G as as') : as.length = as'.length := by
  have := congrArg List.length h.eq
  simpa [respan_list, eraseSpans] using this

theorem cons_iff {a a' : α} {as as' : List α} :
    AlikeOn G (a :: as) (a' :: as') ↔ AlikeOn G a a' ∧ AlikeOn G as as' := by
  constructor
  · intro h
    obtain ⟨hhead, htail⟩ := List.cons.inj h.eq
    exact ⟨⟨hhead⟩, ⟨htail⟩⟩
  · rintro ⟨ha, has⟩
    infer_instance

instance : AlikeOn G (none : Option α) none := ⟨rfl⟩

instance {a a' : α} [h : AlikeOn G a a'] : AlikeOn G (some a) (some a') := h.congr fun _ _ => rfl

/-- Both options are empty, or neither is. -/
theorem option_cases {a a' : Option α} (h : AlikeOn G a a') :
    a = none ∧ a' = none ∨ ∃ w : Both G α, a = some w.first ∧ a' = some w.second := by
  cases a with
  | none =>
    cases a' with
    | none => exact .inl ⟨rfl, rfl⟩
    | some a' => exact absurd h.eq nofun
  | some a =>
    cases a' with
    | none => exact absurd h.eq nofun
    | some a' => exact .inr ⟨⟨a, a', ⟨Option.some.inj h.eq⟩⟩, rfl, rfl⟩

instance {a a' : α} {b b' : β} [AlikeOn G a a'] [AlikeOn G b b'] : AlikeOn G (a, b) (a', b') :=
  congr₂ fun _ _ _ => rfl

theorem prod_iff {x x' : α × β} : AlikeOn G x x' ↔ AlikeOn G x.1 x'.1 ∧ AlikeOn G x.2 x'.2 := by
  constructor
  · intro h
    exact ⟨⟨congrArg Prod.fst h.eq⟩, ⟨congrArg Prod.snd h.eq⟩⟩
  · rintro ⟨h₁, h₂⟩
    exact (inferInstance : AlikeOn G (x.1, x.2) (x'.1, x'.2))

instance {c : Prop} [Decidable c] {a a' b b' : α} [ha : AlikeOn G a a'] [hb : AlikeOn G b b'] :
    AlikeOn G (if c then a else b) (if c then a' else b') := by
  split
  · exact ha
  · exact hb

end AlikeOn

namespace Grammar

variable {G : Grounds} {α β : Type} [Spanned α] [Spanned β]

/-! ## States that are alike -/

/-- Both halves of a `>>` are allowed. -/
def AllowsHalves (G : Grounds) (t : Token) : Prop :=
  t.kind = .shr → G.Allows ⟨t.span.start, t.span.start.half⟩ ∧
    G.Allows ⟨t.span.start.half, t.span.stop⟩

/-- The states differ in places only, and those of the first are allowed.  Events and splits, which
no parser reads, are left out. -/
structure State.Alike (G : Grounds) (s s' : State) : Prop where
  rest : AlikeOn G s.rest s'.rest
  halves : ∀ t ∈ s.rest, AllowsHalves G t
  ends : ∃ t ∈ s.rest, t.kind = .eof
  behind : s.behind.map Token.kind = s'.behind.map Token.kind
  position : s.position = s'.position
  errors : AlikeOn G s.errors.errors s'.errors.errors
  /-- Every error has a span. -/
  located : ∀ d ∈ s.errors.errors, d.span.isSome
  /-- There are no warnings. -/
  unwarned : s.errors.warnings = []
  limit : s.errors.limit = s'.errors.limit
  panicking : s.panicking = s'.panicking
  failures : s.failures = s'.failures
  nextId : s.nextId = s'.nextId
  lastEnd : G.Reaches s.lastEnd
  bound : s.bound = s'.bound

namespace State.Alike

variable {s s' : State}

/-- Both cursors stand at a token. -/
theorem rest_eq (h : s.Alike G s') : ∃ t rest t' rest', s.rest = t :: rest ∧ s'.rest = t' :: rest' ∧
    AlikeOn G t t' ∧ AlikeOn G rest rest' := by
  have hrest := h.rest
  obtain ⟨e, he, -⟩ := h.ends
  cases hr : s.rest with
  | nil =>
    rw [hr] at he
    exact absurd he List.not_mem_nil
  | cons t rest =>
    cases hr' : s'.rest with
    | nil =>
      have := hrest.length_eq
      simp [hr, hr'] at this
    | cons t' rest' =>
      rw [hr, hr', AlikeOn.cons_iff] at hrest
      exact ⟨t, rest, t', rest', rfl, rfl, hrest.1, hrest.2⟩

theorem current (h : s.Alike G s') : AlikeOn G s.current s'.current := by
  obtain ⟨t, rest, t', rest', hr, hr', ht, -⟩ := h.rest_eq
  rw [State.current, State.current, hr, hr']
  exact ht

/-- The cursor stands at an allowed place. -/
theorem here (h : s.Alike G s') : G.Allows (.single s.current.span.start) :=
  G.start (AlikeOn.span_iff.1 h.current.token_span)

theorem kinds (h : s.Alike G s') : s.rest.map Token.kind = s'.rest.map Token.kind := by
  have hkinds := congrArg (List.map Token.kind) h.rest.eq
  simpa [respan_list, eraseSpans, Function.comp_def, respan] using hkinds

theorem kindAt (h : s.Alike G s') (n : Nat) : s.kindAt n = s'.kindAt n := by
  unfold State.kindAt
  rw [← List.getElem?_map, ← List.getElem?_map, h.kinds]

theorem currentKind (h : s.Alike G s') : s.current.kind = s'.current.kind := h.current.token_kind

theorem previous (h : s.Alike G s') : s.previous = s'.previous := by
  unfold State.previous
  rw [← List.head?_map, ← List.head?_map, h.behind]

theorem advanced (h : s.Alike G s') : s.advanced.Alike G s'.advanced := by
  obtain ⟨t, rest, t', rest', hr, hr', ht, hrest⟩ := h.rest_eq
  by_cases hk : t.kind = .eof
  · rw [advanced_eof (by simp [State.current, hr, hk]),
      advanced_eof (by simp [State.current, hr', ← ht.token_kind, hk])]
    exact h
  · have hk' : t'.kind ≠ .eof := by rwa [← ht.token_kind]
    have hspan := AlikeOn.span_iff.1 ht.token_span
    obtain ⟨e, he, hek⟩ := h.ends
    have heof : ∃ e ∈ rest, e.kind = .eof := by
      rw [hr, List.mem_cons] at he
      rcases he with rfl | he
      · exact absurd hek hk
      · exact ⟨e, he, hek⟩
    have hhalves : ∀ u ∈ rest, AllowsHalves G u := fun u hu =>
      h.halves u (by rw [hr]; exact List.mem_cons_of_mem _ hu)
    unfold State.advanced
    rw [hr, hr']
    simp only [hk, hk', if_false]
    exact { h with
      rest := hrest, halves := hhalves, ends := heof
      behind := by simp [h.behind, ht.token_kind]
      position := by simp [h.position]
      lastEnd := .inr (h.lastEnd.max (G.stop hspan)) }

theorem splitShift (h : s.Alike G s') : s.splitShift.Alike G s'.splitShift := by
  obtain ⟨t, rest, t', rest', hr, hr', ht, hrest⟩ := h.rest_eq
  unfold State.splitShift
  rw [hr, hr']
  dsimp only
  by_cases hk : t.kind = .shr
  · have hk' : t'.kind = .shr := by rwa [← ht.token_kind]
    rw [if_pos hk, if_pos hk']
    obtain ⟨hfirst, hsecond⟩ := h.halves t (by rw [hr]; exact List.mem_cons_self) hk
    have hnot : ∀ {lexeme : String} {span : Span}, AllowsHalves G ⟨.greater, lexeme, span, none⟩ :=
      fun hshr => absurd (show Kind.greater = .shr from hshr) (by decide)
    obtain ⟨e, he, hek⟩ := h.ends
    refine { h with rest := ?_, halves := ?_, ends := ?_ }
    · exact AlikeOn.cons_iff.2 ⟨.token hfirst _, AlikeOn.cons_iff.2
        ⟨.token hsecond _, hrest⟩⟩
    · refine List.forall_mem_cons.2 ⟨hnot, List.forall_mem_cons.2 ⟨hnot, fun u hu => ?_⟩⟩
      exact h.halves u (by rw [hr]; exact List.mem_cons_of_mem _ hu)
    · rw [hr, List.mem_cons] at he
      rcases he with rfl | he
      · rw [hk] at hek
        exact absurd hek (by decide)
      · exact ⟨e, List.mem_cons_of_mem _ (List.mem_cons_of_mem _ he), hek⟩
  · have hk' : t'.kind ≠ .shr := by rwa [← ht.token_kind]
    rw [if_neg hk, if_neg hk']
    exact h

theorem reached (h : s.Alike G s') : s.reached.Alike G s'.reached :=
  { h with lastEnd := .inr (h.lastEnd.max' h.here) }

theorem errors_addError (h : s.Alike G s') {d d' : Diagnostic} (hd : AlikeOn G d d') :
    AlikeOn G (s.errors.addError d).errors (s'.errors.addError d').errors := by
  have hroom : s.errors.hasRoom = s'.errors.hasRoom := by
    unfold Diagnostic.Collection.hasRoom
    rw [h.limit, h.errors.length_eq]
  have herrors := h.errors
  unfold Diagnostic.Collection.addError
  rw [hroom]
  split
  · exact (inferInstance : AlikeOn G (s.errors.errors ++ [d]) (s'.errors.errors ++ [d']))
  · exact herrors

/-- One more error that has a span. -/
theorem offered (h : s.Alike G s') {d d' : Diagnostic} (hd : AlikeOn G d d')
    (hspan : d.span.isSome) : State.Alike G { s with errors := s.errors.addError d }
      { s' with errors := s'.errors.addError d' } := by
  have hlocated : ∀ e ∈ (s.errors.addError d).errors, e.span.isSome := by
    unfold Diagnostic.Collection.addError
    split
    · exact List.forall_mem_append.2 ⟨h.located, List.forall_mem_singleton.2 hspan⟩
    · exact h.located
  have hunwarned : (s.errors.addError d).warnings = [] := by
    unfold Diagnostic.Collection.addError
    split <;> exact h.unwarned
  exact { h with
    errors := errors_addError h hd
    located := hlocated
    unwarned := hunwarned
    limit := by simpa using h.limit }

theorem recorded (h : s.Alike G s') {d d' : Diagnostic} (hd : AlikeOn G d d')
    (hspan : d.span.isSome) : (s.recorded d).Alike G (s'.recorded d') := by
  unfold State.recorded
  rw [h.panicking]
  split
  · exact h
  · exact { h.offered hd hspan with panicking := rfl }

theorem reported (h : s.Alike G s') {d d' : Diagnostic} (hd : AlikeOn G d d')
    (hspan : d.span.isSome) : (s.reported d).Alike G (s'.reported d') := by
  have hfailures := congrArg (· + 1) h.failures
  unfold State.reported
  rw [h.panicking]
  split
  · exact { h with panicking := rfl, failures := hfailures }
  · exact { h.offered hd hspan with panicking := rfl, failures := hfailures }

end State.Alike

/-! ## Parsers that mirror each other -/

/-- From states that are alike, the parsers give results that are alike and lead to states that are
alike. -/
class Mirrors (G : Grounds) (p p' : Parser α) : Prop where
  run {s s' : State} (h : s.Alike G s') : AlikeOn G (p s).1 (p' s').1 ∧ (p s).2.Alike G (p' s').2

/-- The nodes that are built from spans are alike. -/
class AlikeBuild (G : Grounds) (build build' : Span → NodeId → α) : Prop where
  alike (span span' : Span) [AlikeOn G span span'] (id : NodeId) :
    AlikeOn G (build span id) (build' span' id)

namespace Mirrors

/-! ### Composition -/

theorem andThen {p p' : Parser α} {q q' : α → Parser β} (hp : Mirrors G p p')
    (hq : ∀ w : Both G α, Mirrors G (q w.first) (q' w.second)) :
    Mirrors G (p >>= q) (p' >>= q') where
  run h := by
    obtain ⟨hvalue, hafter⟩ := hp.run h
    exact (hq ⟨_, _, hvalue⟩).run hafter

theorem andThenPlain [Spanless α] {p p' : Parser α} {q q' : α → Parser β} (hp : Mirrors G p p')
    (hq : ∀ a, Mirrors G (q a) (q' a)) : Mirrors G (p >>= q) (p' >>= q') :=
  hp.andThen fun w => by
    rw [w.alike.eq_of_plain]
    exact hq _

/-- Behind a parser that gives a token, the second run has the token of the first one with another
span. -/
theorem andThenToken {p p' : Parser Token} {q q' : Token → Parser β} (hp : Mirrors G p p')
    (hq : ∀ w : Both G Token, Mirrors G (q w.first) (q' (w.first.moved w.second.span))) :
    Mirrors G (p >>= q) (p' >>= q') :=
  hp.andThen fun w => by
    have h := hq w
    rwa [← w.alike.token_eq] at h

theorem andThenOption {p p' : Parser (Option α)} {q q' : Option α → Parser β} (hp : Mirrors G p p')
    (hnone : Mirrors G (q none) (q' none))
    (hsome : ∀ w : Both G α, Mirrors G (q (some w.first)) (q' (some w.second))) :
    Mirrors G (p >>= q) (p' >>= q') :=
  hp.andThen fun o => by
    rcases o.alike.option_cases with ⟨hfirst, hsecond⟩ | ⟨w, hfirst, hsecond⟩
    · rw [hfirst, hsecond]
      exact hnone
    · rw [hfirst, hsecond]
      exact hsome w

instance {a a' : α} [h : AlikeOn G a a'] : Mirrors G (pure a) (pure a') := ⟨fun hs => ⟨h, hs⟩⟩

instance {p p' : Parser α} {q q' : α → Parser β} [hp : Mirrors G p p']
    [hq : ∀ w : Both G α, Mirrors G (q w.first) (q' w.second)] :
    Mirrors G (p >>= q) (p' >>= q') := hp.andThen hq

instance (priority := 1100) [Spanless α] {p p' : Parser α} {q q' : α → Parser β} [hp : Mirrors G p p']
    [hq : ∀ a, Mirrors G (q a) (q' a)] : Mirrors G (p >>= q) (p' >>= q') := hp.andThenPlain hq

instance (priority := 1100) {p p' : Parser Token} {q q' : Token → Parser β} [hp : Mirrors G p p']
    [hq : ∀ w : Both G Token, Mirrors G (q w.first) (q' (w.first.moved w.second.span))] :
    Mirrors G (p >>= q) (p' >>= q') := hp.andThenToken hq

instance (w : Both G Token) : AlikeOn G w.first.span w.second.span := w.alike.token_span

instance {p p' : Parser α} {f f' : α → β} [hp : Mirrors G p p']
    [∀ w : Both G α, AlikeOn G (f w.first) (f' w.second)] : Mirrors G (f <$> p) (f' <$> p') := by
  show Mirrors G (p >>= fun a => pure (f a)) (p' >>= fun a => pure (f' a))
  exact hp.andThen inferInstance

instance {c : Prop} [Decidable c] {p p' q q' : Parser α} [Mirrors G p p'] [Mirrors G q q'] :
    Mirrors G (if c then p else q) (if c then p' else q') := by
  split <;> infer_instance

instance {f f' : α → Parser β} [hf : ∀ w : Both G α, Mirrors G (f w.first) (f' w.second)]
    {as as' : List α} [h : AlikeOn G as as'] : Mirrors G (as.mapM f) (as'.mapM f') := by
  induction as generalizing as' with
  | nil =>
    obtain rfl : as' = [] := List.eq_nil_of_length_eq_zero h.length_eq.symm
    exact (inferInstance : Mirrors G (pure ([] : List β)) (pure []))
  | cons a as ih =>
    cases as' with
    | nil => exact absurd h.length_eq (by simp)
    | cons a' as' =>
      obtain ⟨ha, has⟩ := AlikeOn.cons_iff.1 h
      have := hf ⟨a, a', ha⟩
      have : Mirrors G (as.mapM f) (as'.mapM f') := ih
      rw [List.mapM_cons, List.mapM_cons]
      infer_instance

/-- Looking at something of the state. -/
theorem view {f f' : State → α} (hf : ∀ {s s' : State}, s.Alike G s' → AlikeOn G (f s) (f' s')) :
    Mirrors G (fun s => (f s, s) : Parser α) (fun s => (f' s, s) : Parser α) :=
  ⟨fun h => ⟨hf h, h⟩⟩

/-- Looking at something of the state that no place has a part in. -/
theorem viewPlain [Spanless α] (f : State → α) (hf : ∀ {s s' : State}, s.Alike G s' → f s = f s') :
    Mirrors G (fun s => (f s, s) : Parser α) (fun s => (f s, s) : Parser α) :=
  .view fun h => by
    rw [hf h]
    infer_instance

/-- Going on in a way that depends on the state. -/
theorem get {q q' : State → Parser β}
    (hq : ∀ {s s' : State}, s.Alike G s' → Mirrors G (q s) (q' s')) :
    Mirrors G (MonadState.get >>= q) (MonadState.get >>= q') := ⟨fun h => (hq h).run h⟩

theorem move {f f' : State → State} (hf : ∀ {s s' : State}, s.Alike G s' → (f s).Alike G (f' s')) :
    Mirrors G (modify f : Parser Unit) (modify f' : Parser Unit) :=
  ⟨fun h => ⟨inferInstance, hf h⟩⟩

/-! ### Looking ahead and loops -/

/-- A probe gives what it finds and leaves the state as it was. -/
theorem probe {p : Parser α} (h : Probe (lookAhead p)) (hp : Mirrors G p p) :
    Mirrors G (lookAhead p) (lookAhead p) where
  run hs := by
    refine ⟨(hp.run hs).1, ?_⟩
    rw [h.state_eq, h.state_eq]
    exact hs

theorem attempt {p : Parser (Option α)} (h : Steady True p) (hp : Mirrors G p p) :
    Mirrors G (attempt p) (attempt p) where
  run {s s'} hs := by
    obtain ⟨hvalue, hafter⟩ := hp.run hs
    rw [attempt_eq h s, attempt_eq h s']
    refine ⟨hvalue, ?_⟩
    rcases hvalue.option_cases with ⟨hfirst, hsecond⟩ | ⟨w, hfirst, hsecond⟩
    · rw [hfirst, hsecond]
      exact { hs with }
    · rw [hfirst, hsecond]
      exact hafter

theorem iterateUpTo {step step' : β → Parser (Option β)}
    [h : ∀ w : Both G β, Mirrors G (step w.first) (step' w.second)] (fuel : Nat) {b b' : β}
    (hb : AlikeOn G b b') : Mirrors G (iterateUpTo fuel step b) (iterateUpTo fuel step' b') := by
  induction fuel generalizing b b' with
  | zero => exact (inferInstance : Mirrors G (pure b) (pure b'))
  | succ fuel ih =>
    refine (h ⟨b, b', hb⟩).andThenOption ?_ fun w => ih w.alike
    exact (inferInstance : Mirrors G (pure b) (pure b'))

theorem manyUpTo {p p' : Parser (Option α)} [h : Mirrors G p p'] (fuel : Nat) :
    Mirrors G (manyUpTo fuel p) (manyUpTo fuel p') := by
  induction fuel with
  | zero => exact (inferInstance : Mirrors G (pure ([] : List α)) (pure []))
  | succ fuel ih =>
    refine h.andThenOption ?_ fun w => ih.andThen fun more => ?_
    · exact (inferInstance : Mirrors G (pure ([] : List α)) (pure []))
    · infer_instance

instance {step step' : β → Parser (Option β)}
    [∀ w : Both G β, Mirrors G (step w.first) (step' w.second)] {b b' : β} [hb : AlikeOn G b b'] :
    Mirrors G (iterate step b) (iterate step' b') :=
  .get fun h => by
    rw [h.bound]
    exact .iterateUpTo _ hb

instance (priority := 1100) [Spanless β] {step step' : β → Parser (Option β)}
    [h : ∀ b, Mirrors G (step b) (step' b)] (b : β) : Mirrors G (iterate step b) (iterate step' b) :=
  have : ∀ w : Both G β, Mirrors G (step w.first) (step' w.second) := fun w => by
    rw [w.alike.eq_of_plain]
    exact h _
  inferInstance

instance {p p' : Parser (Option α)} [Mirrors G p p'] : Mirrors G (many p) (many p') :=
  .get fun h => by
    rw [h.bound]
    exact .manyUpTo _

/-! ### Primitives -/

instance : Mirrors G current current := .view fun h => h.current
instance : Mirrors G kind kind := .viewPlain _ fun h => h.currentKind
instance (n : Nat) : Mirrors G (kindAt n) (kindAt n) := .viewPlain _ fun h => h.kindAt n
instance : Mirrors G position position := .viewPlain _ fun h => h.position
instance : Mirrors G here here := .view fun h => AlikeOn.place_iff.2 h.here

instance (k : Kind) : Mirrors G (check k) (check k) := by
  unfold check
  infer_instance

instance (ks : List Kind) : Mirrors G (checkAny ks) (checkAny ks) := by
  unfold checkAny
  infer_instance

instance : Mirrors G atEnd atEnd := by
  unfold atEnd
  infer_instance

instance (k : Kind) : Mirrors G (checkOrEnd k) (checkOrEnd k) := by
  unfold checkOrEnd
  infer_instance

instance {start start' : Location} [h : AlikeOn G start start'] :
    Mirrors G (spanFrom start) (spanFrom start') :=
  .view fun hs => AlikeOn.span_iff.2 (hs.lastEnd.span (AlikeOn.place_iff.1 h))

instance : Mirrors G atBoundary atBoundary :=
  .viewPlain _ fun h => by rw [h.currentKind, h.previous]

instance : Mirrors G advance advance := by
  have hmove : Mirrors G (modify State.advanced : Parser Unit) (modify State.advanced) :=
    .move fun h => h.advanced
  unfold advance
  infer_instance

instance : Mirrors G emptySpan emptySpan where
  run h := ⟨AlikeOn.span_iff.2 (h.lastEnd.max' h.here), h.reached⟩

instance : Mirrors G freshId freshId where
  run {s s'} h := by
    refine ⟨?_, { h with nextId := congrArg (· + 1) h.nextId }⟩
    show AlikeOn G s.nextId s'.nextId
    rw [h.nextId]
    infer_instance

instance {build build' : Span → NodeId → α} [h : AlikeBuild G build build'] {span span' : Span}
    [AlikeOn G span span'] : Mirrors G (nodeAt build span) (nodeAt build' span') := by
  have := h.alike span span'
  unfold nodeAt
  infer_instance

instance {build build' : Span → NodeId → α} [AlikeBuild G build build'] {start start' : Location}
    [AlikeOn G start start'] : Mirrors G (node build start) (node build' start') := by
  unfold node
  infer_instance

instance (k : Kind) : Mirrors G (accept k) (accept k) := by
  unfold accept
  infer_instance

instance (ks : List Kind) : Mirrors G (acceptAny ks) (acceptAny ks) := by
  unfold acceptAny
  infer_instance

/-! ### Errors and events -/

theorem alike_located (kind : Diagnostic.Kind) (message : String) {span span' : Span}
    (h : AlikeOn G span span') :
    AlikeOn G (Diagnostic.located kind message span) (.located kind message span') :=
  h.congr fun _ _ => rfl

instance (kind : Diagnostic.Kind) (message : String) {span span' : Span} [h : AlikeOn G span span'] :
    Mirrors G (report kind message span) (report kind message span') :=
  .move fun hs => hs.reported (alike_located kind message h) rfl

instance (kind : Diagnostic.Kind) (message : String) {span span' : Span} [h : AlikeOn G span span'] :
    Mirrors G (reportStructural kind message span) (reportStructural kind message span') :=
  .move fun hs => hs.recorded (alike_located kind message h) rfl

theorem describe_moved (t : Token) (span : Span) : (t.moved span).describe = t.describe := rfl

instance (expected : String) : Mirrors G (reportUnexpected expected) (reportUnexpected expected) := by
  refine .andThenToken inferInstance fun w => ?_
  rw [describe_moved w.first w.second.span]
  infer_instance

instance (event event' : Event) : Mirrors G (note event) (note event') := .move fun h => { h with }

instance (what : String) (start : Nat) :
    Mirrors G (noteCommitted what start) (noteCommitted what start) := by
  unfold noteCommitted
  infer_instance

instance : Mirrors G calm calm := .move fun h => { h with panicking := rfl }

instance (k : Kind) (expected : String) : Mirrors G (consume k expected) (consume k expected) := by
  unfold consume
  infer_instance

instance (expected : String) : Mirrors G (consumeName expected) (consumeName expected) := by
  unfold consumeName
  infer_instance

instance (expected : String) :
    Mirrors G (consumeClosingAngle expected) (consumeClosingAngle expected) := by
  have hmove : Mirrors G (modify State.splitShift : Parser Unit) (modify State.splitShift) :=
    .move fun h => h.splitShift
  unfold consumeClosingAngle
  infer_instance

/-! ### Lists, groups and bodies -/

instance {item item' : Parser α} [Mirrors G item item'] :
    Mirrors G (commaSeparated item) (commaSeparated item') := by
  unfold commaSeparated
  infer_instance

instance {close : Kind} {item item' : Parser α} [Mirrors G item item'] :
    Mirrors G (commaTerminated close item) (commaTerminated close item') := by
  unfold commaTerminated
  infer_instance

instance (depth : Nat) : Mirrors G (skipInGroup depth) (skipInGroup depth) := by
  refine .andThenPlain inferInstance fun k => ?_
  split
  -- a closing bracket ends the group or leaves it one level less deep
  case h_5 | h_6 | h_7 => split <;> infer_instance
  all_goals infer_instance

instance : Mirrors G skipGroup skipGroup :=
  .get fun {s s'} h => by
    have hlength : s.rest.length = s'.rest.length := by
      simpa using congrArg List.length h.kinds
    have hround : ∀ w : Both G Nat, Mirrors G (skipInGroup w.first) (skipInGroup w.second) := fun w => by
      rw [w.alike.eq_of_plain]
      infer_instance
    have hloop : Mirrors G (Grammar.iterateUpTo s'.rest.length skipInGroup 0)
        (Grammar.iterateUpTo s'.rest.length skipInGroup 0) := .iterateUpTo _ inferInstance
    rw [hlength]
    infer_instance

instance (after : String) : Mirrors G (expectSemicolon after) (expectSemicolon after) := by
  refine .andThenPlain inferInstance fun accepted => ?_
  have hrest : Mirrors G (do
      let panicked := (← MonadState.get).panicking
      reportUnexpected ("Expected ';' after " ++ after)
      if !panicked && (← checkAny statementStarts) then calm) (do
      let panicked := (← MonadState.get).panicking
      reportUnexpected ("Expected ';' after " ++ after)
      if !panicked && (← checkAny statementStarts) then calm) :=
    .get fun h => by
      rw [h.panicking]
      infer_instance
  infer_instance

instance : Mirrors G synchronize synchronize := by
  unfold synchronize
  dsimp only
  infer_instance

instance (before : Nat) : Mirrors G (recoverAfterItem before) (recoverAfterItem before) := by
  have hpanic : Mirrors G (do if (← MonadState.get).panicking then synchronize) (do
      if (← MonadState.get).panicking then synchronize) := .get fun h => by
    rw [h.panicking]
    infer_instance
  unfold recoverAfterItem
  infer_instance

instance {close : Kind} {item item' : Parser (List α)} [Mirrors G item item'] :
    Mirrors G (bodyItems close item) (bodyItems close item') := by
  unfold bodyItems bodyRound
  infer_instance

end Mirrors

end Grammar

end FluxFront
