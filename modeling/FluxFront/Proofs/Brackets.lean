import FluxFront.Proofs.CastAhead
import FluxFront.Proofs.Silence

/-!
# Texts with matching brackets

What clean runs read are texts in which every bracket is closed by its like.  The two scans that look
ahead over tokens without reading them, `skipGroup` and `colonAhead`, see such a text as a single step.

* **Nested** texts leave a scan as deep as it was.  Where array sizes are skipped brackets are only counted,
  so there a bracket may be closed by one of another kind (`Brackets.counted`).
* **Inline** texts moreover leave a scan for a colon that belongs to nothing as it was: expressions and
  types.
* **Harmless** texts end such a scan without a colon or leave it as it was: statements.
* **Crux**: a scan sees the tokens ahead, but a run may have read a `>>` as two brackets.  The one text
  is a `Cut` of the other, and no scan can tell them apart.
-/

namespace FluxFront.Grammar

open Token (Kind)

/-! ## Nested texts -/

/-- The bracket that closes what a bracket opens. -/
def closing? : Kind → Option Kind
  | .leftParen => some .rightParen
  | .leftBracket => some .rightBracket
  | .leftBrace => some .rightBrace
  | _ => none

/-- A bracket that opens and the one that closes it. -/
theorem closing?_cases {o c : Kind} (h : closing? o = some c) :
    o = .leftParen ∧ c = .rightParen ∨ o = .leftBracket ∧ c = .rightBracket ∨
      o = .leftBrace ∧ c = .rightBrace := by
  unfold closing? at h
  split at h <;> simp_all

theorem mem_of_closing? {o c : Kind} (h : closing? o = some c) : o ∈ openings ∧ c ∈ closings := by
  rcases closing?_cases h with ⟨rfl, rfl⟩ | ⟨rfl, rfl⟩ | ⟨rfl, rfl⟩ <;> decide

/-- How brackets belong together: all are paired with their like, or some are only counted. -/
inductive Brackets
  | paired
  | counted

/-- Every bracket that is opened is closed, by its like unless brackets are counted, and there are no
others. -/
inductive Nested (b : Brackets) : List Token → Prop
  | nil : Nested b []
  | single {t : Token} (h : isInner t.kind = true) : Nested b [t]
  | group {o c : Token} {ts : List Token} (hoc : closing? o.kind = some c.kind) (h : Nested b ts) :
      Nested b (o :: (ts ++ [c]))
  | counted {o c : Token} {ts : List Token} (hb : b = .counted) (ho : o.kind ∈ openings)
      (hc : c.kind ∈ closings) (h : Nested b ts) : Nested b (o :: (ts ++ [c]))
  | append {ts us : List Token} (ht : Nested b ts) (hu : Nested b us) : Nested b (ts ++ us)

variable {b : Brackets}

theorem Nested.cons {t : Token} {ts : List Token} (h : isInner t.kind = true) (hts : Nested b ts) :
    Nested b (t :: ts) := .append (.single h) hts

/-- Nested texts with brackets between them, each of which opens a group. -/
inductive Open : Nat → List Token → Prop
  | none {ts : List Token} (h : Nested .counted ts) : Open 0 ts
  | more {depth : Nat} {ts us : List Token} {o : Token} (h : Open depth ts) (ho : o.kind ∈ openings)
      (hu : Nested .counted us) : Open (depth + 1) (ts ++ o :: us)

theorem Open.append {depth : Nat} {ts us : List Token} (h : Open depth ts) (hu : Nested .counted us) :
    Open depth (ts ++ us) := by
  cases h with
  | none h => exact .none (h.append hu)
  | more h ho hv =>
    rw [List.append_assoc, List.cons_append]
    exact .more h ho (hv.append hu)

/-- A bracket closes the innermost group. -/
theorem Open.close {depth : Nat} {ts : List Token} {c : Token} (h : Open (depth + 1) ts)
    (hc : c.kind ∈ closings) : Open depth (ts ++ [c]) := by
  cases h with
  | more h ho hu =>
    rw [List.append_assoc, List.cons_append]
    exact h.append (.counted rfl ho hc hu)

/-! ## Texts with a `>>` cut in two -/

/-- The second text is the first one with some tokens `>>` cut into two `>`. -/
inductive Cut : List Token → List Token → Prop
  | refl (ts : List Token) : Cut ts ts
  | cut {ts before behind : List Token} {t first second : Token} (h : Cut ts (before ++ t :: behind))
      (ht : t.kind = .shr) (hfirst : first.kind = .greater) (hsecond : second.kind = .greater) :
      Cut ts (before ++ first :: second :: behind)

theorem Cut.append {ts us : List Token} (h : Cut ts us) (vs : List Token) : Cut (ts ++ vs) (us ++ vs) := by
  induction h with
  | refl => exact .refl _
  | @cut before behind t first second _ ht hfirst hsecond ih =>
    rw [List.append_assoc, List.cons_append] at ih
    rw [List.append_assoc, List.cons_append, List.cons_append]
    exact ih.cut ht hfirst hsecond

/-- A function that cannot tell a `>>` from two `>` cannot tell a text from one cut out of it. -/
theorem Cut.congr {γ : Type} {f : List Token → γ}
    (hf : ∀ before behind t first second, t.kind = .shr → first.kind = .greater →
      second.kind = .greater → f (before ++ t :: behind) = f (before ++ first :: second :: behind))
    {ts us : List Token} (h : Cut ts us) : f ts = f us := by
  induction h with
  | refl => rfl
  | cut _ ht hfirst hsecond ih => rw [ih, hf _ _ _ _ _ ht hfirst hsecond]

/-- What lies ahead of a state and of a later one, where `ts` was read in between.  A `>>` may have been
cut, and the later cursor may stand in front of both halves or of the second one. -/
inductive Between (s : State) (ts : List Token) (s' : State) : Prop
  | whole {before : List Token} (hs : s.rest = before ++ s'.rest) (hcut : Cut before ts)
  | both {before behind : List Token} {t first second : Token} (hs : s.rest = before ++ t :: behind)
      (hs' : s'.rest = first :: second :: behind) (hcut : Cut before ts) (ht : t.kind = .shr)
      (hfirst : first.kind = .greater) (hsecond : second.kind = .greater)
  | second {before behind : List Token} {second : Token} (hs : s.rest = before ++ behind)
      (hs' : s'.rest = second :: behind) (hcut : Cut before (ts ++ [second]))
      (hsecond : second.kind = .greater)

namespace Between

variable {s s₁ : State} {ts : List Token}

/-- The cursor moves over a token. -/
theorem read (h : Between s ts s₁) {t : Token} {rest : List Token} (hrest : s₁.rest = t :: rest)
    {s' : State} (hs' : s'.rest = rest) : Between s (ts ++ [t]) s' := by
  cases h with
  | @whole before hs hcut =>
    have hrest' : s.rest = (before ++ [t]) ++ s'.rest := by
      rw [hs, hrest, hs', List.append_assoc]
      rfl
    exact .whole hrest' (hcut.append [t])
  | @both before behind t₀ first second hs hs₁ hcut ht hfirst hsecond =>
    obtain ⟨rfl, hbehind⟩ := List.cons.inj (hs₁.symm.trans hrest)
    have hrest' : s.rest = (before ++ [t₀]) ++ behind := by
      rw [hs, List.append_assoc]
      rfl
    have hcut' : Cut (before ++ [t₀]) (ts ++ [first] ++ [second]) := by
      rw [List.append_assoc]
      exact (hcut.append [t₀]).cut ht hfirst hsecond
    exact .second hrest' (by rw [hs', ← hbehind]) hcut' hsecond
  | second hs hs₁ hcut =>
    obtain ⟨rfl, hbehind⟩ := List.cons.inj (hs₁.symm.trans hrest)
    refine .whole ?_ hcut
    rw [hs, hs', hbehind]

/-- A `>>` at the cursor is cut. -/
theorem split (h : Between s ts s₁) {t first second : Token} {rest : List Token}
    (hrest : s₁.rest = t :: rest) (ht : t.kind = .shr) (hfirst : first.kind = .greater)
    (hsecond : second.kind = .greater) {s' : State} (hs' : s'.rest = first :: second :: rest) :
    Between s ts s' := by
  -- a half of a token is no token that can be cut
  have half : ∀ {u : Token} {us : List Token}, s₁.rest = u :: us → u.kind = .greater → False := by
    intro u us hu hk
    obtain ⟨rfl, -⟩ := List.cons.inj (hu.symm.trans hrest)
    rw [ht] at hk
    exact absurd hk (by decide)
  cases h with
  | whole hs hcut =>
    rw [hrest] at hs
    exact .both hs hs' hcut ht hfirst hsecond
  | both _ hs₁ _ _ hfirst => exact (half hs₁ hfirst).elim
  | second _ hs₁ _ hsecond => exact (half hs₁ hsecond).elim

/-- Nothing is read, and nothing changes ahead. -/
theorem still (h : Between s ts s₁) {s' : State} (hs' : s'.rest = s₁.rest) : Between s ts s' := by
  cases h with
  | whole hs hcut => exact .whole (by rw [hs, hs']) hcut
  | both hs hs₁ hcut ht hfirst hsecond => exact .both hs (hs'.trans hs₁) hcut ht hfirst hsecond
  | second hs hs₁ hcut hsecond => exact .second hs (hs'.trans hs₁) hcut hsecond

/-- What was read and what lies ahead are what lay ahead, with some tokens cut. -/
theorem cut (h : Between s ts s₁) : Cut s.rest (ts ++ s₁.rest) := by
  cases h with
  | whole hs hcut =>
    rw [hs]
    exact hcut.append _
  | both hs hs₁ hcut ht hfirst hsecond =>
    rw [hs, hs₁]
    exact (hcut.append _).cut ht hfirst hsecond
  | @second _ behind _ hs hs₁ hcut =>
    have happend := hcut.append behind
    rw [List.append_assoc] at happend
    rw [hs, hs₁]
    exact happend

end Between

theorem Moves.between {s s' : State} (h : Moves True s s') :
    ∃ ts, s'.behind = ts.reverse ++ s.behind ∧ Between s ts s' := by
  induction h with
  | refl => exact ⟨[], rfl, .whole rfl (.refl [])⟩
  | @tail s₁ f hm last ih =>
    obtain ⟨ts, hbehind, hbetween⟩ := ih
    have still : (f s₁).behind = s₁.behind → (f s₁).rest = s₁.rest →
        ∃ ts, (f s₁).behind = ts.reverse ++ s.behind ∧ Between s ts (f s₁) := fun hb hr =>
      ⟨ts, hb.trans hbehind, hbetween.still hr⟩
    cases last with
    | advance =>
      by_cases hk : s₁.current.kind = .eof
      · rw [State.advanced_eof hk]
        exact ⟨ts, hbehind, hbetween⟩
      · obtain ⟨t, rest, hrest, -, hadv⟩ := State.advanced_cons hk
        refine ⟨ts ++ [t], ?_, hbetween.read hrest (by rw [hadv])⟩
        rw [hadv, List.reverse_append]
        exact congrArg (t :: ·) hbehind
    | split =>
      rcases s₁.splitShift_cases with he | ⟨t, rest, first, second, hrest, ht, hfirst, hsecond, he⟩
      · rw [he]
        exact ⟨ts, hbehind, hbetween⟩
      · refine ⟨ts, ?_, hbetween.split hrest ht hfirst hsecond (by rw [he])⟩
        rw [he]
        exact hbehind
    | reach => exact still rfl rfl
    | restamp => exact still rfl rfl
    | report d => exact still (by unfold State.reported; split <;> rfl) (s₁.rest_reported d)
    | record d => exact still (by unfold State.recorded; split <;> rfl) (s₁.rest_recorded d)
    | note => exact still rfl rfl
    | calm => exact still rfl rfl

theorem Passes.between {s s' : State} {ts : List Token} (h : Passes s ts s') : Between s ts s' := by
  obtain ⟨us, hbehind, hbetween⟩ := h.moves.between
  have hreverse := List.append_cancel_right (hbehind.symm.trans h.behind)
  rwa [List.reverse_inj.1 hreverse] at hbetween

/-! ## A scan for a colon -/

/-- The kind of the last token. -/
def endKind (ts : List Token) : Kind := (ts.getLast?.map Token.kind).getD .eof

@[simp] theorem endKind_concat (ts : List Token) (t : Token) : endKind (ts ++ [t]) = t.kind := by
  simp [endKind]

theorem endKind_append (ts : List Token) {us : List Token} (h : us ≠ []) :
    endKind (ts ++ us) = endKind us := by
  rw [endKind, endKind, List.getLast?_append, Option.or_of_isSome]
  rwa [List.getLast?_isSome]

theorem endKind_of_eq_append {ts us : List Token} (before : List Token) (h : us ≠ [])
    (hts : ts = before ++ us) : endKind ts = endKind us := by rw [hts, endKind_append before h]

theorem endKind_cons (t : Token) {us : List Token} (h : us ≠ []) : endKind (t :: us) = endKind us :=
  endKind_append [t] h

/-- Tokens that a scan for a colon passes at any depth. -/
def isQuiet (k : Kind) : Bool := isInner k && !([Kind.semicolon, .question, .colon].contains k)

theorem isInner_of_isQuiet {k : Kind} (h : isQuiet k = true) : isInner k = true := by
  unfold isQuiet at h
  rw [Bool.and_eq_true] at h
  exact h.1

theorem ne_eof_of_isQuiet {k : Kind} (h : isQuiet k = true) : k ≠ .eof := by
  rintro rfl
  exact absurd h (by decide)

/-- The kind before matters for a colon that stands in no bracket only. -/
theorem colonAhead_last {depth : Nat} {last last' : Kind}
    (h : depth = 0 → (last = .interpolatedString ↔ last' = .interpolatedString)) (conditionals : Nat)
    (ts : List Token) : colonAhead depth conditionals last ts = colonAhead depth conditionals last' ts := by
  cases ts with
  | nil => rfl
  | cons t rest =>
    have hcolon : (depth = 0 ∧ last ≠ .interpolatedString) =
        (depth = 0 ∧ last' ≠ .interpolatedString) :=
      propext (and_congr_right fun hd => not_congr (h hd))
    unfold colonAhead
    split
    case h_10 => simp only [hcolon]
    all_goals rfl

theorem colonAhead_quiet {t : Token} (h : isQuiet t.kind = true) (depth conditionals : Nat) (last : Kind)
    (rest : List Token) :
    colonAhead depth conditionals last (t :: rest) = colonAhead depth conditionals t.kind rest := by
  conv => lhs; unfold colonAhead
  split
  case h_11 => rfl
  all_goals
    rename_i hk
    rw [hk] at h
    exact absurd h (by decide)

/-- In brackets every token that is no bracket is passed. -/
theorem colonAhead_inner {t : Token} (h : isInner t.kind = true) (depth conditionals : Nat) (last : Kind)
    (rest : List Token) :
    colonAhead (depth + 1) conditionals last (t :: rest) =
      colonAhead (depth + 1) conditionals t.kind rest := by
  conv => lhs; unfold colonAhead
  split
  case h_8 => rfl
  case h_9 => rfl
  case h_10 => rfl
  case h_11 => rfl
  all_goals
    rename_i hk
    rw [hk] at h
    exact absurd h (by decide)

theorem colonAhead_opening {o : Token} (h : o.kind ∈ openings) (depth conditionals : Nat) (last : Kind)
    (rest : List Token) :
    colonAhead depth conditionals last (o :: rest) = colonAhead (depth + 1) conditionals .eof rest := by
  have hlast : colonAhead (depth + 1) conditionals o.kind rest =
      colonAhead (depth + 1) conditionals .eof rest :=
    colonAhead_last (fun h => absurd h (Nat.succ_ne_zero _)) conditionals rest
  rw [← hlast]
  conv => lhs; unfold colonAhead
  simp only [openings, List.mem_cons, List.not_mem_nil, or_false] at h
  rcases h with h | h | h <;> rw [h]

theorem colonAhead_closing {c : Token} (h : c.kind ∈ closings) (depth conditionals : Nat) (last : Kind)
    (rest : List Token) :
    colonAhead (depth + 1) conditionals last (c :: rest) =
      colonAhead depth conditionals c.kind rest := by
  conv => lhs; unfold colonAhead
  simp only [closings, List.mem_cons, List.not_mem_nil, or_false] at h
  rcases h with h | h | h <;> rw [h]

/-- A scan inside of brackets passes a nested text. -/
theorem Nested.colonAhead_eq {ts : List Token} (h : Nested b ts) (depth conditionals : Nat) (last : Kind)
    (rest : List Token) :
    colonAhead (depth + 1) conditionals last (ts ++ rest) =
      colonAhead (depth + 1) conditionals .eof rest := by
  have hlast : ∀ depth last rest, colonAhead (depth + 1) conditionals last rest =
      colonAhead (depth + 1) conditionals .eof rest := fun depth last rest =>
    colonAhead_last (fun h => absurd h (Nat.succ_ne_zero _)) conditionals rest
  have group : ∀ {o c : Token} {ts : List Token} {depth last rest}, o.kind ∈ openings → c.kind ∈ closings →
      (∀ depth last rest, colonAhead (depth + 1) conditionals last (ts ++ rest) =
        colonAhead (depth + 1) conditionals .eof rest) →
      colonAhead (depth + 1) conditionals last (o :: (ts ++ [c]) ++ rest) =
        colonAhead (depth + 1) conditionals .eof rest := by
    intro o c ts depth last rest ho hc ih
    rw [List.cons_append, colonAhead_opening ho, List.append_assoc, ih, List.singleton_append,
      colonAhead_closing hc]
    exact hlast _ _ _
  induction h generalizing depth last rest with
  | nil => exact hlast _ _ _
  | single ht =>
    rw [List.singleton_append, colonAhead_inner ht]
    exact hlast _ _ _
  | group hoc _ ih => exact group (mem_of_closing? hoc).1 (mem_of_closing? hoc).2 ih
  | counted _ ho hc _ ih => exact group ho hc ih
  | append _ _ iht ihu => rw [List.append_assoc, iht, ihu]

/-- A scan for a colon cannot tell a `>>` from two `>`. -/
theorem colonAhead_cut {ts us : List Token} (h : Cut ts us) (depth conditionals : Nat) (last : Kind) :
    colonAhead depth conditionals last ts = colonAhead depth conditionals last us := by
  refine congrFun (congrFun (congrFun (h.congr (f := fun ts depth conditionals last =>
    colonAhead depth conditionals last ts) ?_) depth) conditionals) last
  intro before behind t first second ht hfirst hsecond
  have quiet : ∀ {u : Token}, u.kind = .shr ∨ u.kind = .greater → isQuiet u.kind = true := by
    rintro u (hu | hu) <;> rw [hu] <;> rfl
  funext depth conditionals last
  induction before generalizing depth conditionals last with
  | nil =>
    rw [List.nil_append, List.nil_append, colonAhead_quiet (quiet (.inl ht)),
      colonAhead_quiet (quiet (.inr hfirst)), colonAhead_quiet (quiet (.inr hsecond)), ht, hsecond]
    exact colonAhead_last (fun _ => by decide) _ _
  | cons u before ih =>
    rw [List.cons_append, List.cons_append]
    unfold colonAhead
    simp only [ih]

/-! ## Expressions and types -/

/-- A scan for a colon that belongs to nothing passes the text, at the level it is on. -/
def Inline (ts : List Token) : Prop :=
  ∀ conditionals last rest, colonAhead 0 conditionals last (ts ++ rest) =
    colonAhead 0 conditionals (endKind ts) rest

/-- A text as expressions and types have it: there is something, its brackets match, and every colon in
it belongs to something in it. -/
structure Tidy (b : Brackets) (ts : List Token) : Prop where
  ne_nil : ts ≠ []
  nested : Nested b ts
  inline : Inline ts

namespace Tidy

variable {ts us : List Token}

theorem single {t : Token} (h : isQuiet t.kind = true) : Tidy b [t] :=
  ⟨List.cons_ne_nil _ _, .single (isInner_of_isQuiet h), fun _ _ _ => colonAhead_quiet h _ _ _ _⟩

theorem append (ht : Tidy b ts) (hu : Tidy b us) : Tidy b (ts ++ us) := by
  refine ⟨List.append_ne_nil_of_right_ne_nil _ hu.ne_nil, ht.nested.append hu.nested, ?_⟩
  intro conditionals last rest
  rw [List.append_assoc, ht.inline, hu.inline, endKind_append _ hu.ne_nil]

theorem cons {t : Token} (h : isQuiet t.kind = true) (hts : Tidy b ts) : Tidy b (t :: ts) :=
  (single h).append hts

/-- Anything nested between brackets. -/
theorem group {o c : Token} (hoc : closing? o.kind = some c.kind) (h : Nested b ts) :
    Tidy b (o :: (ts ++ [c])) := by
  refine ⟨List.cons_ne_nil _ _, .group hoc h, fun conditionals last rest => ?_⟩
  rw [List.cons_append, colonAhead_opening (mem_of_closing? hoc).1, List.append_assoc, h.colonAhead_eq,
    List.singleton_append, colonAhead_closing (mem_of_closing? hoc).2, ← List.cons_append, endKind_concat]

/-- The colon of a conditional expression belongs to its question mark, unless it is taken for that of
an interpolated string. -/
theorem conditional {cs ts es : List Token} {question colon : Token} (hc : Tidy b cs)
    (hquestion : question.kind = .question) (ht : Tidy b ts) (hend : endKind ts ≠ .interpolatedString)
    (hcolon : colon.kind = .colon) (he : Tidy b es) : Tidy b (cs ++ question :: (ts ++ colon :: es)) := by
  have inner : ∀ {t : Token}, t.kind = .question ∨ t.kind = .colon → isInner t.kind = true := by
    rintro t (ht | ht) <;> rw [ht] <;> rfl
  constructor
  · exact List.append_ne_nil_of_left_ne_nil hc.ne_nil _
  · have hcolons : Nested b (colon :: es) := .cons (inner (.inr hcolon)) he.nested
    exact hc.nested.append (.cons (inner (.inl hquestion)) (ht.nested.append hcolons))
  · intro conditionals last rest
    have hopen : ∀ last us, colonAhead 0 conditionals last (question :: us) =
        colonAhead 0 (conditionals + 1) .question us := by
      intro last us
      conv => lhs; unfold colonAhead
      rw [hquestion]
      rfl
    have hclose : ∀ us, colonAhead 0 (conditionals + 1) (endKind ts) (colon :: us) =
        colonAhead 0 conditionals .colon us := by
      intro us
      conv => lhs; unfold colonAhead
      rw [hcolon]
      exact if_pos ⟨rfl, hend⟩
    have hlast : endKind (cs ++ question :: (ts ++ colon :: es)) = endKind es :=
      endKind_of_eq_append (cs ++ question :: (ts ++ [colon])) he.ne_nil (by simp)
    rw [List.append_assoc, hc.inline, List.cons_append, hopen, List.append_assoc, ht.inline,
      List.cons_append, hclose, he.inline, hlast]

/-- The colon behind an interpolated string belongs to it. -/
theorem interpolated {string colon o c : Token} (hstring : string.kind = .interpolatedString)
    (hcolon : colon.kind = .colon) (hoc : closing? o.kind = some c.kind) (h : Nested b ts) :
    Tidy b (string :: colon :: o :: (ts ++ [c])) := by
  have hgroup := group hoc h
  constructor
  · exact List.cons_ne_nil _ _
  · have hcolons : Nested b (colon :: o :: (ts ++ [c])) := .cons (by rw [hcolon]; rfl) hgroup.nested
    exact .cons (by rw [hstring]; rfl) hcolons
  · intro conditionals last rest
    have hpass : ∀ us, colonAhead 0 conditionals .interpolatedString (colon :: us) =
        colonAhead 0 conditionals .colon us := by
      intro us
      conv => lhs; unfold colonAhead
      rw [hcolon]
      rfl
    rw [List.cons_append, colonAhead_quiet (by rw [hstring]; rfl), hstring, List.cons_append, hpass,
      hgroup.inline, endKind_cons _ (List.cons_ne_nil _ _), endKind_cons _ (List.cons_ne_nil _ _)]

end Tidy

/-- A text that is tidy or missing. -/
def Slack (b : Brackets) (ts : List Token) : Prop := ts = [] ∨ Tidy b ts

theorem Tidy.slack {ts : List Token} (h : Tidy b ts) : Slack b ts := .inr h

theorem Tidy.behind {ts us : List Token} (ht : Tidy b ts) (hu : Slack b us) : Tidy b (ts ++ us) := by
  rcases hu with rfl | hu
  · rwa [List.append_nil]
  · exact ht.append hu

/-- Brackets, what is between them, and what may follow. -/
theorem Tidy.groupThen {o c : Token} {ts us : List Token} (hoc : closing? o.kind = some c.kind)
    (h : Nested b ts) (hu : Slack b us) : Tidy b (o :: (ts ++ c :: us)) := by
  have hall := (Tidy.group hoc h).behind hu
  rwa [List.cons_append, List.append_assoc] at hall

namespace Slack

variable {ts us : List Token}

theorem nil : Slack b [] := .inl rfl

theorem nested (h : Slack b ts) : Nested b ts := by
  rcases h with rfl | h
  · exact .nil
  · exact h.nested

theorem append (ht : Slack b ts) (hu : Slack b us) : Slack b (ts ++ us) := by
  rcases ht with rfl | ht
  · exact hu
  · exact (ht.behind hu).slack

theorem tidy_cons {t : Token} (h : isQuiet t.kind = true) (hts : Slack b ts) : Tidy b (t :: ts) :=
  (Tidy.single h).behind hts

end Slack

/-- Tidy items with commas between them. -/
theorem Runs.Commas.tidy {α : Type} {P : α → List Token → State → Prop}
    (hP : ∀ {a ts s}, P a ts s → Tidy b ts) {as : List α} {ts : List Token} {s : State}
    (h : Runs.Commas P as ts s) : Tidy b ts := by
  induction h with
  | one h => exact hP h
  | more _ hk ha ih => exact ih.append (.cons (by rw [hk]; rfl) (hP ha))

theorem Runs.Ended.tidy {α : Type} {P : α → List Token → State → Prop}
    (hP : ∀ {a ts s}, P a ts s → Tidy b ts) {as : List α} {ts : List Token} {s : State}
    (h : Runs.Ended P as ts s) : Tidy b ts := by
  rcases h with h | ⟨us, comma, s₁, h, hk, rfl⟩
  · exact h.tidy hP
  · exact (h.tidy hP).append (.single (by rw [hk]; rfl))

/-! ## Statements -/

/-- A scan for a colon ends in the text without one, or passes it. -/
def Harmless (ts : List Token) : Prop :=
  ∀ conditionals last, (∀ rest, colonAhead 0 conditionals last (ts ++ rest) = false) ∨
    ∃ last', ∀ rest, colonAhead 0 conditionals last (ts ++ rest) = colonAhead 0 conditionals last' rest

/-- A text as statements have it: its brackets match, and no colon in it could be that behind a key. -/
structure Placid (b : Brackets) (ts : List Token) : Prop where
  nested : Nested b ts
  harmless : Harmless ts

/-- Expressions and types do no harm. -/
theorem Tidy.placid {ts : List Token} (h : Tidy b ts) : Placid b ts :=
  ⟨h.nested, fun conditionals last => .inr ⟨endKind ts, h.inline conditionals last⟩⟩

namespace Placid

variable {ts us : List Token}

theorem nil : Placid b [] := ⟨.nil, fun _ last => .inr ⟨last, fun _ => rfl⟩⟩

theorem append (ht : Placid b ts) (hu : Placid b us) : Placid b (ts ++ us) := by
  refine ⟨ht.nested.append hu.nested, fun conditionals last => ?_⟩
  rcases ht.harmless conditionals last with hend | ⟨last', hpass⟩
  · left
    intro rest
    rw [List.append_assoc]
    exact hend _
  · rcases hu.harmless conditionals last' with hend | ⟨last'', hpass'⟩
    · left
      intro rest
      rw [List.append_assoc, hpass]
      exact hend rest
    · right
      refine ⟨last'', fun rest => ?_⟩
      rw [List.append_assoc, hpass, hpass']

/-- Behind a semicolon that stands in no bracket nothing is scanned. -/
theorem semicolon {t : Token} (h : t.kind = .semicolon) : Placid b [t] := by
  refine ⟨.single (by rw [h]; rfl), fun conditionals last => .inl fun rest => ?_⟩
  rw [List.singleton_append]
  unfold colonAhead
  rw [h]
  rfl

end Placid

end FluxFront.Grammar
