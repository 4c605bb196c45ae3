import FluxFront.Proofs.Depth
import FluxFront.Proofs.ProgramProductions
import FluxFront.Proofs.Spellings

/-!
# Spans lie inside one another

A node ends at the furthest place reached so far, `lastEnd`, which every token and every stand-in
pushes on, except for a node that there is no room for where the text has ended.  That the spans of a
tree are nested rests on the tokens standing in order behind that place.

* **Specification**: a text whose nesting has room has no span outside of its parent's
  (`parse_spans_nested`), and it has room if its parse never reaches the limit
  (`Config.RoomFor.of_reachesLimit`).  Room is needed: where the nesting is too deep, a node without
  children may stand for no token at all.
* **Margin**: such a node is empty and stands at the end of the text, behind a parent that has reached
  everything before the gap there.  `Margin.Sits` is lying inside with this exception, and what is
  built is nested in that sense, strictly or not (`Builds.placed`).
* **Invariant**: the tokens ahead are in order, and all of them stand at or behind `lastEnd`
  (`State.Orderly`).  So the later of the cursor and `lastEnd` is always the cursor, and the span from
  a place always ends at `lastEnd`.
-/

namespace FluxFront

/-! ## Tokens in order -/

/-- The place behind the first half of a `>>`. -/
def Location.half (a : Location) : Location := ⟨a.line, a.column + 1, a.offset + 1⟩

theorem Location.le_half (a : Location) : a ≤ a.half :=
  ⟨.inr ⟨rfl, Nat.le_succ _⟩, Nat.le_succ _⟩

/-- A token does not end before it starts, and both halves of a `>>` lie inside it. -/
structure Token.Sound (t : Token) : Prop where
  span : t.span.start ≤ t.span.stop
  half : t.kind = .shr → t.span.start.half ≤ t.span.stop

/-- The tokens stand one behind the other, all at or behind a place. -/
def InOrder : Location → List Token → Prop
  | _, [] => True
  | a, t :: rest => a ≤ t.span.start ∧ t.Sound ∧ InOrder t.span.stop rest

theorem InOrder.mono {a b : Location} {ts : List Token} (h : InOrder b ts) (hab : a ≤ b) :
    InOrder a ts := by
  cases ts with
  | nil => trivial
  | cons t rest => exact ⟨Location.le_trans hab h.1, h.2⟩

/-! ## The scanner gives tokens in order -/

namespace Token

theorem le_skipGap (mode : GapMode) (here : Location) (afterAsm : Bool) (text : List Char) :
    here ≤ (skipGap mode here afterAsm text).here := by
  have past : ∀ {a b : Location} (c : Char), a.next c ≤ b → a ≤ b :=
    fun c h => Location.le_trans (Location.le_next _ c) h
  fun_induction skipGap mode here afterAsm text with
  | case1 | case2 => exact Location.le_refl _
  | case3 _ _ c _ ih => exact past c ih
  | case4 _ _ _ _ ih => exact past '*' (past '/' ih)
  | case5 _ _ _ c _ _ ih => exact past c ih
  | case6 _ _ _ ih => exact past '/' (past '/' ih)
  | case7 _ _ _ ih => exact past '/' (past '*' ih)
  | case8 _ _ c _ _ _ _ ih => exact past c ih
  | case9 => exact Location.le_refl _
  | case10 _ _ c _ _ _ _ _ _ _ ih => exact past c ih

/-- A token of a kind with a fixed spelling is spelled that way. -/
def Reading.Spelled (r : Reading) : Prop :=
  ∀ spelling, r.kind.symbol = some spelling → r.lexeme = spelling.toList

theorem Reading.Spelled.of_class {r : Reading} {k : Kind} (hr : r.kind = k) (hk : k ∈ Kind.classes) :
    r.Spelled := by
  have table : ∀ k ∈ Kind.classes, k.symbol = none := by decide
  intro spelling hs
  rw [hr, table k hk] at hs
  exact absurd hs.symm (Option.some_ne_none spelling)

theorem spelled_operator {text lexeme rest : List Char} {kind : Kind}
    (h : Kind.matchOperator? text = some (kind, lexeme, rest)) :
    (⟨kind, lexeme, rest, none, []⟩ : Reading).Spelled := by
  obtain ⟨-, rfl, -⟩ := operator_of_match h
  intro symbol hsymbol
  exact Kind.spelling_of_symbol hsymbol

theorem numberReading_kind (kind : Kind) (here : Location) (lexeme rest : List Char) (value : Value)
    (valid : Bool) : (numberReading kind here lexeme rest value valid).kind = kind := rfl

theorem readNumber_kind (here : Location) (text : List Char) :
    (readNumber here text).kind ∈ [.bitLiteral, .intLiteral, .floatLiteral] := by
  have decimal : (readDecimal here text).kind ∈ [Kind.bitLiteral, .intLiteral, .floatLiteral] := by
    unfold readDecimal
    dsimp only
    split <;> rw [numberReading_kind] <;> decide
  unfold readNumber
  split
  · split
    · unfold readRadix
      dsimp only
      split <;> rw [numberReading_kind] <;> decide
    · exact decimal
  · exact decimal

theorem spelled_readName (c : Char) (text : List Char) : (readName c text).Spelled := by
  intro spelling hs
  have hkind : (readName c text).kind =
      (Kind.ofKeyword? (String.ofList (readName c text).lexeme)).getD .identifier := rfl
  cases h : Kind.ofKeyword? (String.ofList (readName c text).lexeme) with
  | none =>
    rw [hkind, h] at hs
    exact absurd hs nofun
  | some k =>
    rw [hkind, h] at hs
    rw [← Option.some.inj ((Kind.symbol_of_ofKeyword h).symm.trans hs), String.toList_ofList]

theorem spelled_readToken (here : Location) (c : Char) (text : List Char) :
    (readToken here c text).Spelled := by
  unfold readToken
  split
  · rename_i hm
    exact spelled_operator hm
  · split
    · exact .of_class (k := .stringLiteral) rfl (by decide)
    · split
      · unfold readChar
        dsimp only
        split <;> exact .of_class (k := .charLiteral) rfl (by decide)
      · split
        · have table : ∀ k ∈ [Kind.bitLiteral, .intLiteral, .floatLiteral], k ∈ Kind.classes := by decide
          exact .of_class rfl (table _ (readNumber_kind _ _))
        · split
          · exact .of_class (k := .interpolatedString) rfl (by decide)
          · exact spelled_readName _ _

theorem readRaw_kind (here : Location) (text : List Char) : (readRaw here text).kind = .asmBlock := by
  unfold readRaw
  dsimp only
  split <;> rfl

theorem spelled_reading (raw : Bool) (here : Location) (c : Char) (text : List Char) :
    (if raw then readRaw here text else readToken here c text).Spelled := by
  cases raw with
  | false => exact spelled_readToken _ _ _
  | true => exact .of_class (readRaw_kind _ _) (by decide)

/-- The next token is sound, stands behind what was scanned, and scanning goes on behind it. -/
theorem Scanner.next_sound (s : Scanner) :
    s.here ≤ s.next.1.span.start ∧ s.next.1.Sound ∧ s.next.2.2.here = s.next.1.span.stop := by
  have gap := le_skipGap .blank s.here s.afterAsm s.rest
  unfold Scanner.next
  dsimp only
  split
  · exact ⟨gap, ⟨Location.le_refl _, nofun⟩, rfl⟩
  · rename_i c text _
    refine ⟨gap, ⟨Location.le_after _ _, fun hk => ?_⟩, rfl⟩
    show Location.half _ ≤ Location.after _ (Reading.lexeme _)
    rw [spelled_reading _ _ _ _ ">>" (congrArg Kind.symbol hk)]
    exact ⟨.inr ⟨rfl, Nat.le_succ _⟩, Nat.le_succ _⟩

/-- Scanning gives tokens in order. -/
theorem Scanner.run_inOrder (fuel : Nat) (s : Scanner) : InOrder s.here (s.run fuel).1 := by
  induction fuel generalizing s with
  | zero => trivial
  | succ fuel ih =>
    obtain ⟨hle, hsound, hbehind⟩ := s.next_sound
    unfold Scanner.run
    dsimp only
    split
    · exact ⟨hle, hsound, trivial⟩
    · refine ⟨hle, hsound, ?_⟩
      rw [← hbehind]
      exact ih _

theorem scan_inOrder (source : String) : InOrder Location.start (scan source).1 :=
  (Scanner.ofString source).run_inOrder _

end Token

namespace Grammar

/-! ## The invariant of the cursor -/

/-- The tokens ahead are in order behind the furthest place reached, and the text ends among them. -/
structure State.Orderly (s : State) : Prop where
  inOrder : InOrder s.lastEnd s.rest
  ends : ∃ t ∈ s.rest, t.kind = .eof

theorem inOrder_closeTokens {tokens : List Token} (h : InOrder Location.start tokens) :
    InOrder default (closeTokens tokens) := by
  have close : ∀ (ts : List Token) (a : Location), InOrder a ts → ∀ last, ts.getLast? = some last →
      InOrder a (ts ++ [Token.endAt last.span.stop]) := by
    intro ts
    induction ts with
    | nil => exact fun _ _ _ h => absurd h (by simp)
    | cons t rest ih =>
      intro a h last hl
      refine ⟨h.1, h.2.1, ?_⟩
      cases rest with
      | nil =>
        cases hl
        exact ⟨Location.le_refl _, ⟨Location.le_refl _, nofun⟩, trivial⟩
      | cons u more => exact ih _ h.2.2 last (by rwa [List.getLast?_cons_cons] at hl)
  unfold closeTokens
  split
  · rename_i last hl
    split
    · exact h.mono (Location.default_le _)
    · exact close tokens default (h.mono (Location.default_le _)) last hl
  · exact ⟨Location.le_refl _, ⟨Location.le_refl _, nofun⟩, trivial⟩

theorem orderly_scan (source : String) (maxErrors : Option Nat) :
    (State.ofTokens (Token.scan source).1 maxErrors).Orderly where
  inOrder := inOrder_closeTokens (Token.scan_inOrder source)
  ends := exists_eof_closeTokens _

namespace State.Orderly

variable {s s' : State}

/-- The cursor stands at a token. -/
theorem rest_eq (h : s.Orderly) : ∃ t rest, s.rest = t :: rest ∧ s.here = t.span.start := by
  obtain ⟨t, ht, -⟩ := h.ends
  cases hr : s.rest with
  | nil => rw [hr] at ht; exact absurd ht List.not_mem_nil
  | cons u rest => exact ⟨u, rest, rfl, by simp [State.here, State.current, hr]⟩

theorem lastEnd_le (h : s.Orderly) : s.lastEnd ≤ s.here := by
  obtain ⟨t, rest, hr, hhere⟩ := h.rest_eq
  have ho := h.inOrder
  rw [hr] at ho
  rw [hhere]
  exact ho.1

end State.Orderly

/-- How the places of two states lie to one another. -/
structure Onward (s s' : State) : Prop where
  orderly : s'.Orderly
  here_le : s.here ≤ s'.here
  lastEnd_le : s.lastEnd ≤ s'.lastEnd
  position_le : s.position ≤ s'.position
  /-- Where a token was read, everything from the cursor on counts as reached. -/
  moved : s.position < s'.position → s.here ≤ s'.lastEnd
  /-- Where no token was read, the cursor stands where it stood. -/
  still : s'.position = s.position → s'.here = s.here

theorem Onward.refl {s : State} (h : s.Orderly) : Onward s s :=
  ⟨h, Location.le_refl _, Location.le_refl _, Nat.le_refl _, fun hm => absurd hm (Nat.lt_irrefl _),
    fun _ => rfl⟩

theorem Onward.trans {s s₁ s₂ : State} (h₁ : Onward s s₁) (h₂ : Onward s₁ s₂) : Onward s s₂ where
  orderly := h₂.orderly
  here_le := Location.le_trans h₁.here_le h₂.here_le
  lastEnd_le := Location.le_trans h₁.lastEnd_le h₂.lastEnd_le
  position_le := Nat.le_trans h₁.position_le h₂.position_le
  moved hm := by
    by_cases h : s.position < s₁.position
    · exact Location.le_trans (h₁.moved h) h₂.lastEnd_le
    · exact Location.le_trans h₁.here_le (h₂.moved (by omega))
  still hp := by
    have hle₁ := h₁.position_le
    have hle₂ := h₂.position_le
    exact (h₂.still (by omega)).trans (h₁.still (by omega))

theorem onward_advanced {s : State} (h : s.Orderly) : Onward s s.advanced := by
  obtain ⟨t, rest, hr, hhere⟩ := h.rest_eq
  by_cases hk : t.kind = .eof
  · have : s.advanced = s := by simp [State.advanced, hr, hk]
    rw [this]
    exact .refl h
  · have hadv : s.advanced = { s with rest, behind := t :: s.behind, position := s.position + 1,
                                      lastEnd := s.lastEnd.max t.span.stop } := by
      simp [State.advanced, hr, hk]
    have ho := h.inOrder
    rw [hr] at ho
    obtain ⟨hstart, hsound, hrest⟩ := ho
    have hend : s.lastEnd.max t.span.stop = t.span.stop :=
      Location.max_eq_right (Location.le_trans hstart hsound.span)
    have orderly : s.advanced.Orderly := by
      rw [hadv]
      refine ⟨by rw [hend]; exact hrest, ?_⟩
      obtain ⟨e, he, hek⟩ := h.ends
      rw [hr, List.mem_cons] at he
      rcases he with rfl | he
      · exact absurd hek hk
      · exact ⟨e, he, hek⟩
    have hlast : s.advanced.lastEnd = t.span.stop := by rw [hadv]; exact hend
    have hle : s.here ≤ s.advanced.lastEnd := by rw [hlast, hhere]; exact hsound.span
    have hposition : s.advanced.position = s.position + 1 := by rw [hadv]
    refine ⟨orderly, Location.le_trans hle orderly.lastEnd_le, Location.le_trans h.lastEnd_le hle,
      by omega, fun _ => hle, fun hp => by omega⟩

theorem onward_splitShift {s : State} (h : s.Orderly) : Onward s s.splitShift := by
  obtain ⟨t, rest, hr, hhere⟩ := h.rest_eq
  by_cases hk : t.kind = .shr
  · have ho := h.inOrder
    rw [hr] at ho
    obtain ⟨hstart, hsound, hrest⟩ := ho
    have hsplit : s.splitShift = { s with
        rest := { kind := .greater, lexeme := ">", span := ⟨t.span.start, t.span.start.half⟩ } ::
          { kind := .greater, lexeme := ">", span := ⟨t.span.start.half, t.span.stop⟩ } :: rest
        splits := (s.position, t) :: s.splits } := by
      simp [State.splitShift, hr, hk, Location.half]
    rw [hsplit]
    refine ⟨⟨?_, ?_⟩, ?_, Location.le_refl _, Nat.le_refl _, fun hm => absurd hm (Nat.lt_irrefl _),
      fun _ => hhere.symm⟩
    · have hne : Token.Kind.greater ≠ .shr := by decide
      exact ⟨hstart, ⟨Location.le_half _, fun h => absurd h hne⟩, Location.le_refl _,
        ⟨hsound.half hk, fun h => absurd h hne⟩, hrest⟩
    · obtain ⟨e, he, hek⟩ := h.ends
      rw [hr, List.mem_cons] at he
      rcases he with rfl | he
      · rw [hk] at hek
        exact absurd hek (by decide)
      · exact ⟨e, List.mem_cons_of_mem _ (List.mem_cons_of_mem _ he), hek⟩
    · rw [hhere]
      exact Location.le_refl _
  · have : s.splitShift = s := by simp [State.splitShift, hr, hk]
    rw [this]
    exact .refl h

/-- What is reached at the cursor is the cursor. -/
theorem lastEnd_reached {s : State} (h : s.Orderly) : s.reached.lastEnd = s.here :=
  Location.max_eq_left h.lastEnd_le

theorem onward_reached {s : State} (h : s.Orderly) : Onward s s.reached := by
  have hlast := lastEnd_reached h
  refine ⟨⟨?_, h.ends⟩, Location.le_refl _, ?_, Nat.le_refl _, fun hm => absurd hm (Nat.lt_irrefl _),
    fun _ => rfl⟩
  · obtain ⟨t, rest, hr, hhere⟩ := h.rest_eq
    have ho := h.inOrder
    rw [hr] at ho
    rw [hlast, hhere]
    show InOrder t.span.start s.rest
    rw [hr]
    exact ⟨Location.le_refl _, ho.2⟩
  · rw [hlast]
    exact h.lastEnd_le

/-- As long as nothing is read, places stay as they are. -/
theorem onward_still {s s' : State} (h : s.Orderly) (rest : s'.rest = s.rest)
    (position : s'.position = s.position) (lastEnd : s'.lastEnd = s.lastEnd) : Onward s s' := by
  have hhere : s'.here = s.here := by simp [State.here, State.current, rest]
  refine ⟨⟨by rw [rest, lastEnd]; exact h.inOrder, by rw [rest]; exact h.ends⟩, ?_, ?_,
    Nat.le_of_eq position.symm, fun hm => absurd hm (by omega), fun _ => hhere⟩
  · rw [hhere]
    exact Location.le_refl _
  · rw [lastEnd]
    exact Location.le_refl _

theorem Step.onward {s s' : State} (h : Step s s') (hs : s.Orderly) : Onward s s' := by
  cases h with
  | advance => exact onward_advanced hs
  | split => exact onward_splitShift hs
  | reach => exact onward_reached hs
  | quiet rest position lastEnd nextId => exact onward_still hs rest position lastEnd

theorem Steps.onward {s s' : State} (h : Steps s s') (hs : s.Orderly) : Onward s s' := by
  induction h with
  | refl => exact .refl hs
  | tail _ last ih => exact ih.trans (last.onward ih.orderly)

/-! ## The margin behind the last token -/

/-- How far nodes may stand behind their parents: unless the building is strict, an empty one at the
end of a text need only have a parent that reaches a place before it, such as the end of the last
token. -/
structure Margin where
  strict : Prop
  last : Location
  stop : Location

namespace Margin

variable {m : Margin} {s s' : State} {a b c : Span}

/-- The text ends at the margin, and what lies before it was reached or lies ahead. -/
def Closes (m : Margin) (s : State) : Prop :=
  ∃ ahead, s.rest = ahead ++ [Token.endAt m.stop] ∧ (∀ t ∈ ahead, t.kind ≠ .eof) ∧
    (m.last ≤ s.lastEnd ∨ ∃ t ∈ ahead, m.last ≤ t.span.stop)

/-- The cursor has come to the end of the text, and not every node there has cost a token. -/
def AtEnd (m : Margin) (s : State) : Prop := ¬ m.strict ∧ m.stop ≤ s.here

/-- One span lies inside another one, or is the empty one at the end of the text, where the cursor has
come to, while the other one reaches the margin. -/
def Sits (m : Margin) (s : State) (a b : Span) : Prop :=
  a.Within b ∨ m.AtEnd s ∧ a = .single m.stop ∧ b.start ≤ m.stop ∧ m.last ≤ b.stop

theorem Sits.refl (a : Span) : m.Sits s a a := .inl ⟨Location.le_refl _, Location.le_refl _⟩

/-- What sits somewhere sits in anything around it, and goes on to. -/
theorem Sits.mono (h : m.Sits s a b) (hs : s.here ≤ s'.here) (hbc : b.Within c) : m.Sits s' a c := by
  rcases h with h | ⟨⟨hlax, hstop⟩, ha, hstart, hlast⟩
  · exact .inl (h.trans hbc)
  · exact .inr ⟨⟨hlax, Location.le_trans hstop hs⟩, ha, Location.le_trans hbc.start hstart,
      Location.le_trans hlast hbc.stop⟩

/-- What lies inside an empty span is that span. -/
theorem eq_single {stop : Location} (h : a.Within (.single stop)) (ha : a.start ≤ a.stop) :
    a = .single stop := by
  obtain ⟨start, stop'⟩ := a
  have hstart := Location.le_antisymm h.start (Location.le_trans ha h.stop)
  have hstop := Location.le_antisymm (Location.le_trans h.start ha) h.stop
  simp only at hstart hstop
  rw [← hstart, ← hstop]
  rfl

theorem Sits.trans (ha : a.start ≤ a.stop) (hab : m.Sits s a b) (hbc : m.Sits s b c) :
    m.Sits s a c := by
  rcases hbc with hbc | ⟨hlax, rfl, hc⟩
  · exact hab.mono (Location.le_refl _) hbc
  · rcases hab with hab | ⟨-, rfl, -⟩
    · exact .inr ⟨hlax, eq_single hab ha, hc⟩
    · exact .inr ⟨hlax, rfl, hc⟩

/-- What was built has not come further than the cursor. -/
theorem Sits.stop_le {start : Location} (h : m.Sits s a ⟨start, s.lastEnd⟩) (hs : s.Orderly) :
    a.stop ≤ s.here := by
  rcases h with h | ⟨⟨-, hstop⟩, rfl, -⟩
  · exact Location.le_trans h.stop hs.lastEnd_le
  · exact hstop

theorem Sits.start_le (h : m.Sits s a b) : b.start ≤ a.start := by
  rcases h with h | ⟨-, rfl, hstart, -⟩
  · exact h.start
  · exact hstart

/-- What sits between two places sits between its own start and the second one. -/
theorem Sits.from_start {start stop : Location} (h : m.Sits s a ⟨start, stop⟩) :
    m.Sits s a ⟨a.start, stop⟩ := by
  rcases h with h | ⟨hend, rfl, -, hlast⟩
  · exact .inl ⟨Location.le_refl _, h.stop⟩
  · exact .inr ⟨hend, rfl, Location.le_refl _, hlast⟩

/-! ### The end of the text -/

/-- Where the text has ended, the cursor stands at its end, and the margin was reached. -/
theorem Closes.at_eof (h : m.Closes s) (hk : s.current.kind = .eof) :
    s.here = m.stop ∧ m.last ≤ s.lastEnd := by
  obtain ⟨ahead, hrest, hahead, hlast⟩ := h
  cases ahead with
  | nil =>
    refine ⟨by simp [State.here, State.current, hrest, Token.endAt, Span.single], ?_⟩
    refine hlast.resolve_right ?_
    rintro ⟨t, ht, -⟩
    exact List.not_mem_nil ht
  | cons t more =>
    refine absurd ?_ (hahead t List.mem_cons_self)
    simpa [State.current, hrest] using hk

theorem inOrder_le {a stop : Location} {ahead : List Token}
    (h : InOrder a (ahead ++ [Token.endAt stop])) : a ≤ stop := by
  induction ahead generalizing a with
  | nil => exact h.1
  | cons t more ih => exact Location.le_trans h.1 (Location.le_trans h.2.1.span (ih h.2.2))

/-- The cursor never stands behind the end of the text. -/
theorem Closes.here_le (h : m.Closes s) (hs : s.Orderly) : s.here ≤ m.stop := by
  obtain ⟨ahead, hrest, -⟩ := h
  obtain ⟨t, rest, hr, hhere⟩ := hs.rest_eq
  have ho := hs.inOrder
  rw [hhere]
  rw [hr] at hrest ho
  cases ahead with
  | nil =>
    cases hrest
    exact Location.le_refl _
  | cons u more =>
    cases hrest
    exact Location.le_trans ho.2.1.span (inOrder_le ho.2.2)

theorem closes_advanced (h : m.Closes s) (hs : s.Orderly) : m.Closes s.advanced := by
  have hon := onward_advanced hs
  obtain ⟨ahead, hrest, hahead, hlast⟩ := h
  cases ahead with
  | nil =>
    have : s.advanced = s := by simp [State.advanced, hrest, Token.endAt]
    rw [this]
    exact ⟨[], hrest, hahead, hlast⟩
  | cons t more =>
    have hadv : s.advanced = { s with rest := more ++ [Token.endAt m.stop], behind := t :: s.behind,
                                      position := s.position + 1,
                                      lastEnd := s.lastEnd.max t.span.stop } := by
      simp [State.advanced, hrest, hahead t List.mem_cons_self]
    have ho := hs.inOrder
    rw [hrest] at ho
    have hend : s.advanced.lastEnd = t.span.stop := by
      rw [hadv]
      exact Location.max_eq_right (Location.le_trans ho.1 ho.2.1.span)
    refine ⟨more, by rw [hadv], fun u hu => hahead u (List.mem_cons_of_mem _ hu), ?_⟩
    rcases hlast with hlast | ⟨u, hu, hlast⟩
    · exact .inl (Location.le_trans hlast hon.lastEnd_le)
    · rcases List.mem_cons.1 hu with rfl | hu
      · exact .inl (by rwa [hend])
      · exact .inr ⟨u, hu, hlast⟩

theorem closes_splitShift (h : m.Closes s) : m.Closes s.splitShift := by
  obtain ⟨ahead, hrest, hahead, hlast⟩ := h
  cases ahead with
  | nil =>
    have : s.splitShift = s := by simp [State.splitShift, hrest, Token.endAt]
    rw [this]
    exact ⟨[], hrest, hahead, hlast⟩
  | cons t more =>
    rw [List.forall_mem_cons] at hahead
    by_cases hk : t.kind = .shr
    · have hne : Token.Kind.greater ≠ .eof := by decide
      refine ⟨{ kind := .greater, lexeme := ">", span := ⟨t.span.start, t.span.start.half⟩ } ::
        { kind := .greater, lexeme := ">", span := ⟨t.span.start.half, t.span.stop⟩ } :: more,
        by simp [State.splitShift, hrest, hk, Location.half], ?_, ?_⟩
      · exact List.forall_mem_cons.2 ⟨hne, List.forall_mem_cons.2 ⟨hne, hahead.2⟩⟩
      · have hlastEnd : s.splitShift.lastEnd = s.lastEnd := by simp [State.splitShift, hrest, hk]
        rw [hlastEnd]
        refine hlast.imp_right ?_
        rintro ⟨u, hu, hle⟩
        rcases List.mem_cons.1 hu with rfl | hu
        · exact ⟨_, List.mem_cons_of_mem _ List.mem_cons_self, hle⟩
        · exact ⟨u, List.mem_cons_of_mem _ (List.mem_cons_of_mem _ hu), hle⟩
    · have : s.splitShift = s := by simp [State.splitShift, hrest, hk]
      rw [this]
      exact ⟨t :: more, hrest, List.forall_mem_cons.2 hahead, hlast⟩

/-- Whatever is done on the way, the text keeps its end. -/
theorem Closes.step (h : m.Closes s) (hs : s.Orderly) (hstep : Step s s') : m.Closes s' := by
  cases hstep with
  | advance => exact closes_advanced h hs
  | split => exact closes_splitShift h
  | reach =>
    obtain ⟨ahead, hrest, hahead, hlast⟩ := h
    exact ⟨ahead, hrest, hahead, hlast.imp_left fun h =>
      Location.le_trans h (onward_reached hs).lastEnd_le⟩
  | quiet rest _ lastEnd _ =>
    obtain ⟨ahead, hrest, hahead, hlast⟩ := h
    exact ⟨ahead, by rw [rest, hrest], hahead, by rwa [lastEnd]⟩

theorem Closes.steps (h : m.Closes s) (hs : s.Orderly) (hsteps : Steps s s') : m.Closes s' := by
  induction hsteps with
  | refl => exact h
  | tail hsteps last ih => exact ih.step (hsteps.onward hs).orderly last

/-! ### Spans up to the furthest place -/

/-- A place that was reached, or the end of the text while the margin was reached. -/
def Attains (m : Margin) (s : State) (a : Location) : Prop :=
  a ≤ s.lastEnd ∨ m.AtEnd s ∧ a = m.stop ∧ m.last ≤ s.lastEnd

/-- What sits before the furthest place starts at a place that was attained. -/
theorem Sits.attains {start : Location} (h : m.Sits s a ⟨start, s.lastEnd⟩) (ha : a.start ≤ a.stop) :
    m.Attains s a.start := by
  rcases h with h | ⟨hend, rfl, -, hlast⟩
  · exact .inl (Location.le_trans ha h.stop)
  · exact .inr ⟨hend, rfl, hlast⟩

namespace Attains

variable {start : Location} (h : m.Attains s start) (hs : s.Orderly)
  (hc : ¬ m.strict → m.Closes s)

include h hs hc

/-- The span from an attained place ends at the furthest place, or is the empty one at the end. -/
theorem spanFrom_eq : start ≤ s.lastEnd ∧ s.spanFrom start = ⟨start, s.lastEnd⟩ ∨
    (m.AtEnd s ∧ start = m.stop ∧ m.last ≤ s.lastEnd) ∧ s.spanFrom start = .single m.stop := by
  rcases h with h | ⟨hend, rfl, hlast⟩
  · exact .inl ⟨h, by rw [State.spanFrom, Location.max_eq_left h]⟩
  · have hle := Location.le_trans hs.lastEnd_le ((hc hend.1).here_le hs)
    exact .inr ⟨⟨hend, rfl, hlast⟩, by rw [State.spanFrom, Location.max_eq_right hle]; rfl⟩

theorem start_le_stop : (s.spanFrom start).start ≤ (s.spanFrom start).stop := by
  rcases h.spanFrom_eq hs hc with ⟨hle, hspan⟩ | ⟨-, hspan⟩
  · rwa [hspan]
  · rw [hspan]
    exact Location.le_refl _

/-- It holds what lies between the two places. -/
theorem holds (hb : b.start ≤ b.stop) (hsits : m.Sits s b ⟨start, s.lastEnd⟩) :
    m.Sits s b (s.spanFrom start) := by
  rcases h.spanFrom_eq hs hc with ⟨-, hspan⟩ | ⟨⟨hend, rfl, -⟩, hspan⟩
  · rwa [hspan]
  · rw [hspan]
    rcases hsits with hsits | ⟨-, rfl, -⟩
    · have hle := Location.le_trans hs.lastEnd_le ((hc hend.1).here_le hs)
      exact .inl ⟨hsits.start, Location.le_trans hsits.stop hle⟩
    · exact .refl _

/-- It sits before the furthest place. -/
theorem sits {a : Location} (ha : a ≤ start) : m.Sits s (s.spanFrom start) ⟨a, s.lastEnd⟩ := by
  rcases h.spanFrom_eq hs hc with ⟨-, hspan⟩ | ⟨⟨hend, rfl, hlast⟩, hspan⟩
  · rw [hspan]
    exact .inl ⟨ha, Location.le_refl _⟩
  · exact .inr ⟨hend, hspan, ha, hlast⟩

end Attains

end Margin

/-! ## Nodes between two places -/

/-- The nodes are nested and sit between the place where the cursor stood and the furthest place
reached. -/
structure Placed (m : Margin) (s : State) (ns : List Node) (s' : State) : Prop where
  onward : Onward s s'
  closes : ¬ m.strict → m.Closes s'
  nested : ∀ n ∈ ns, n.Nested (m.Sits s')
  sits : ∀ n ∈ ns, m.Sits s' n.span ⟨s.here, s'.lastEnd⟩

namespace Placed

variable {m : Margin} {s s' s₁ s₂ : State} {ns xs ys before : List Node}

/-- Giving out identities moves nothing. -/
theorem counted (h : Placed m s ns s') (nextId : NodeId) : Placed m s ns { s' with nextId } :=
  ⟨⟨⟨h.onward.orderly.inOrder, h.onward.orderly.ends⟩, h.onward.here_le, h.onward.lastEnd_le,
    h.onward.position_le, h.onward.moved, h.onward.still⟩, h.closes, h.nested, h.sits⟩

theorem append (h₁ : Placed m s xs s₁) (h₂ : Placed m s₁ ys s₂) : Placed m s (xs ++ ys) s₂ := by
  have hon := h₂.onward
  refine ⟨h₁.onward.trans hon, h₂.closes, fun n hn => ?_, fun n hn => ?_⟩
  all_goals rw [List.mem_append] at hn
  · refine hn.elim (fun hn => ?_) (h₂.nested n)
    exact (h₁.nested n hn).mono fun _ _ hab => hab.mono hon.here_le (.refl _)
  · rcases hn with hn | hn
    · exact (h₁.sits n hn).mono hon.here_le ⟨Location.le_refl _, hon.lastEnd_le⟩
    · exact (h₂.sits n hn).mono (Location.le_refl _) ⟨h₁.onward.here_le, Location.le_refl _⟩

theorem of_subset (h : Placed m s xs s') (hsub : ys ⊆ xs) : Placed m s ys s' :=
  ⟨h.onward, h.closes, fun n hn => h.nested n (hsub hn), fun n hn => h.sits n (hsub hn)⟩

/-- A further node between the two places. -/
theorem snoc (h : Placed m s before s') {n : Node} (nested : n.Nested (m.Sits s'))
    (sits : m.Sits s' n.span ⟨s.here, s'.lastEnd⟩) : Placed m s (before ++ [n]) s' := by
  refine ⟨h.onward, h.closes, ?_, ?_⟩
  all_goals simp only [List.forall_mem_append, List.forall_mem_singleton]
  · exact ⟨h.nested, nested⟩
  · exact ⟨h.sits, sits⟩

/-- Below a node that was placed, everything is nested and sits between the two places. -/
theorem below (h : Placed m s ns s') {n c : Node} (hn : n ∈ ns) (hc : c ∈ Descent.full.walk n) :
    c.Nested (m.Sits s') ∧ m.Sits s' c.span ⟨s.here, s'.lastEnd⟩ := by
  obtain ⟨hnested, hsits⟩ := (h.nested n hn).below Margin.Sits.refl Margin.Sits.trans hc
  exact ⟨hnested, hsits.trans hnested.start_le_stop (h.sits n hn)⟩

/-- A node from the first place to the last one encloses everything between them. -/
theorem node (h : Placed m s (before ++ ns) s') {n : Node} (children : n.children = ns)
    (attained : m.Attains s' s.here) (span : n.span = s'.spanFrom s.here) :
    Placed m s (before ++ [n]) s' := by
  have ho := h.onward.orderly
  have hns : Placed m s ns s' := h.of_subset (List.subset_append_right _ _)
  refine (h.of_subset (List.subset_append_left _ _)).snoc (Node.nested_iff.2 ⟨⟨?_, ?_⟩, ?_⟩) ?_
  · rw [span]
    exact attained.start_le_stop ho h.closes
  · rw [span, children]
    exact fun c hc => attained.holds ho h.closes (hns.nested c hc).start_le_stop (hns.sits c hc)
  · rw [children]
    exact hns.nested
  · rw [span]
    exact attained.sits ho h.closes (Location.le_refl _)

/-- A node with the span of another one, over it or over its children. -/
theorem replace {c n : Node} (h : Placed m s (before ++ [c]) s') (span : n.span = c.span)
    (nested : c.Nested (m.Sits s') → n.Nested (m.Sits s')) : Placed m s (before ++ [n]) s' := by
  have hc : c ∈ before ++ [c] := List.mem_append_right _ List.mem_cons_self
  refine (h.of_subset (List.subset_append_left _ _)).snoc (nested (h.nested c hc)) ?_
  rw [span]
  exact h.sits c hc

/-- A pointer to a function lies from the start of the pointer to the end of the parameters. -/
theorem repoint {pointee : Ty} {qualifiers : Qualifiers} {span : Span} {id fresh : NodeId}
    {params : List Ty} (h₁ : Placed m s [.type ⟨.pointer pointee qualifiers, span, id⟩] s₁)
    (h₂ : Placed m s₁ (params.map .type) s₂) :
    Placed m s [.type ⟨.pointer ⟨.function params pointee, s₂.spanFrom span.start, fresh⟩ qualifiers,
      s₂.spanFrom span.start, id⟩] s₂ := by
  have ho := h₂.onward.orderly
  -- seen from the last state, the pointer that was read first
  have hfirst : Placed m s [.type ⟨.pointer pointee qualifiers, span, id⟩] s₂ := by
    have := h₁.append (h₂.of_subset (List.nil_subset _))
    rwa [List.append_nil] at this
  have hspan : m.Sits s₂ span ⟨s.here, s₂.lastEnd⟩ := hfirst.sits _ List.mem_cons_self
  obtain ⟨⟨hle, hpointee⟩, hbelow⟩ := Node.nested_iff.1 (hfirst.nested _ List.mem_cons_self)
  have attained : m.Attains s₂ span.start := hspan.attains hle
  have hstart : span.start ≤ s₁.here :=
    Location.le_trans hle ((h₁.sits _ List.mem_cons_self).stop_le h₁.onward.orderly)
  have function : (Node.type ⟨.function params pointee, s₂.spanFrom span.start, fresh⟩).Nested
      (m.Sits s₂) := by
    refine Node.nested_iff.2 ⟨⟨attained.start_le_stop ho h₂.closes, ?_⟩, ?_⟩
    all_goals
      show ∀ c ∈ params.map Node.type ++ [.type pointee], _
      simp only [List.forall_mem_append, List.forall_mem_singleton]
    · refine ⟨fun c hc => ?_, ?_⟩
      · refine attained.holds ho h₂.closes (h₂.nested c hc).start_le_stop ?_
        exact (h₂.sits c hc).mono (Location.le_refl _) ⟨hstart, Location.le_refl _⟩
      · have hinner := (hbelow _ List.mem_cons_self).start_le_stop
        refine attained.holds ho h₂.closes hinner ?_
        exact (hpointee _ List.mem_cons_self).trans hinner hspan.from_start
    · exact ⟨h₂.nested, hbelow _ List.mem_cons_self⟩
  have hempty : Placed m s [] s₂ := hfirst.of_subset (List.nil_subset _)
  refine hempty.snoc (Node.nested_iff.2 ⟨⟨attained.start_le_stop ho h₂.closes, ?_⟩, ?_⟩) ?_
  · intro c hc
    cases List.mem_singleton.1 hc
    exact .refl _
  · intro c hc
    cases List.mem_singleton.1 hc
    exact function
  · exact attained.sits ho h₂.closes hspan.start_le

/-- Where a node has no token of its own and no node below it, the text has ended; so its start is
attained. -/
theorem attains (h : Placed m s ns s') (hc : ¬ m.strict → m.Closes s)
    (moved : ns = [] → s.position < s'.position ∨ ¬ m.strict ∧ s.current.kind = .eof) :
    m.Attains s' s.here := by
  by_cases hp : s.position < s'.position
  · exact .inl (h.onward.moved hp)
  have hhere : s'.here = s.here := by
    have := h.onward.position_le
    exact h.onward.still (by omega)
  cases ns with
  | nil =>
    obtain ⟨hlax, hk⟩ := (moved rfl).resolve_left hp
    obtain ⟨hstop, hlast⟩ := (hc hlax).at_eof hk
    refine .inr ⟨⟨hlax, ?_⟩, hstop, Location.le_trans hlast h.onward.lastEnd_le⟩
    rw [hhere, hstop]
    exact Location.le_refl _
  | cons c more =>
    have hsits := h.sits c List.mem_cons_self
    rcases hsits.attains (h.nested c List.mem_cons_self).start_le_stop with hle | ⟨hend, -, hlast⟩
    · exact .inl (Location.le_trans hsits.start_le hle)
    · refine .inr ⟨hend, ?_, hlast⟩
      rw [← hhere]
      exact Location.le_antisymm ((h.closes hend.1).here_le h.onward.orderly) hend.2

/-- A copy stands where the type does that it is a copy of. -/
theorem copy (h : Placed m s before s') {n : Node} {t : Ty} (hn : n ∈ before)
    (ht : Node.type t ∈ Descent.full.walk n) :
    Placed m s (before ++ [((Node.type t).edit Edit.freshCopy s'.nextId).1]) s' := by
  obtain ⟨hnested, hsits⟩ := h.below hn ht
  have hcopy := (Node.type t).copied s'.nextId
  have hspan : ((Node.type t).edit Edit.freshCopy s'.nextId).1.span = (Node.type t).span := by
    simpa using hcopy.spans
  refine h.snoc ?_ (by rwa [hspan])
  exact hcopy.nested _ (by simpa using hnested) _ List.mem_cons_self

end Placed

/-- What stands in for missing input is empty, and the place it stands at counts as reached. -/
theorem placed_missing {m : Margin} {s : State} {n : Node} (hs : s.Orderly)
    (hc : ¬ m.strict → m.Closes s) (leaf : n.children = [])
    (span : n.span = .single s.reached.lastEnd) : Placed m s [n] s.reached := by
  have hspan : n.span = ⟨s.here, s.here⟩ := by rw [span, lastEnd_reached hs]; rfl
  have hempty : Placed m s [] s.reached :=
    ⟨onward_reached hs, fun hlax => (hc hlax).step hs (.reach s), nofun, nofun⟩
  refine hempty.snoc (Node.nested_iff.2 ⟨?_, ?_⟩) ?_
  · rw [Node.Encloses, hspan, leaf]
    exact ⟨Location.le_refl _, nofun⟩
  · rw [leaf]
    exact nofun
  · rw [hspan, lastEnd_reached hs]
    exact .refl _

/-- Whatever is built from tokens in order is placed. -/
theorem Builds.placed {m : Margin} {s s' : State} {ns : List Node} (h : Builds m.strict s ns s')
    (hs : s.Orderly) (hc : ¬ m.strict → m.Closes s) : Placed m s ns s' := by
  induction h with
  | steps h => exact ⟨h.onward hs, fun hlax => (hc hlax).steps hs h, nofun, nofun⟩
  | append _ _ ih₁ ih₂ =>
    have h₁ := ih₁ hs hc
    exact h₁.append (ih₂ h₁.onward.orderly h₁.closes)
  | perm _ hp ih => exact (ih hs hc).of_subset hp.symm.subset
  | node before n _ span id moved ih =>
    have h := ih hs hc
    exact (h.node rfl (h.attains hc moved) span).counted _
  | missing n leaf span id =>
    exact (placed_missing hs hc leaf span).counted _
  | wrap before n _ child span id ih =>
    refine ((ih hs hc).replace span fun hn => Node.nested_iff.2 ⟨?_, ?_⟩).counted _
    · rw [Node.Encloses, child, span]
      exact ⟨hn.start_le_stop, List.forall_mem_singleton.2 (.refl _)⟩
    · rw [child]
      exact List.forall_mem_singleton.2 hn
  | copy _ ht ih =>
    obtain ⟨n, hn, ht⟩ := List.mem_flatMap.1 ht
    exact ((ih hs hc).copy hn ht).counted _
  | repoint _ _ ih₁ ih₂ =>
    have h₁ := ih₁ hs hc
    exact (h₁.repoint (ih₂ h₁.onward.orderly h₁.closes)).counted _
  | demote before _ ih =>
    refine (ih hs hc).replace rfl fun hn => ?_
    have hsame := Node.nested_iff.1 hn
    exact Node.nested_iff.2 hsame
  | @ungroup s s' before e span id _ ih =>
    have h := ih hs hc
    have hbelow := h.below (List.mem_append_right _ List.mem_cons_self)
      (Node.mem_walk_of_mem_children (c := .expression e) List.mem_cons_self (Node.mem_walk_self _))
    exact (h.of_subset (List.subset_append_left _ _)).snoc hbelow.1 hbelow.2

/-! ## Programs -/

/-- A level that stands in for everything and reads nothing. -/
def Level.blank : Level where
  type := do nodeAt (Ty.mk .placeholder) (← emptySpan)
  skim := do nodeAt (Ty.mk .placeholder) (← emptySpan)
  expression := do nodeAt (Expr.mk .placeholder) (← emptySpan)
  conditional := do nodeAt (Expr.mk .placeholder) (← emptySpan)
  power := do nodeAt (Expr.mk .placeholder) (← emptySpan)
  unary := do nodeAt (Expr.mk .placeholder) (← emptySpan)
  statement _ := do placeholderStatement (← emptySpan)
  items _ := return none
  members _ _ := return none
  declaration _ := return none

theorem Level.blank_makes (strict : Prop) : Level.blank.Makes strict where
  type _ := .emptySpan <| .nodeAt <| .missing _ rfl rfl rfl
  expression _ := .emptySpan <| .nodeAt <| .missing _ rfl rfl rfl
  conditional _ := .emptySpan <| .nodeAt <| .missing _ rfl rfl rfl
  power _ := .emptySpan <| .nodeAt <| .missing _ rfl rfl rfl
  unary _ := .emptySpan <| .nodeAt <| .missing _ rfl rfl rfl
  statement _ s := .emptySpan <| (placeholderStatement_makes strict s).mono fun _ _ h => h.1
  items _ s := .pure (.idle s)
  members _ _ s := .pure (.idle s)
  declaration _ s := .pure (.idle s)
  skim := steady_emptySpan.bind fun _ => steady_nodeAt _ _
  declaration_ne _ _ := nofun

/-- The declarations of a program are nested and sit inside it. -/
theorem programOver_placed {m : Margin} (config : Config) {inner : Level}
    (hi : inner.Makes m.strict) {s : State} (hs : s.Orderly) (hc : ¬ m.strict → m.Closes s) :
    After (programOver config inner) s fun p s' => ∀ d ∈ p.declarations,
      (Node.declaration d).Nested (m.Sits s') ∧ m.Sits s' d.span p.span := by
  refine (programOver_makes config hi s).mono fun p s' h => ?_
  have hp := h.1.placed hs hc
  have hend := hp.onward.orderly.lastEnd_le
  have hspan : p.span = ⟨s.here, s'.here⟩ := by
    rw [h.2, Location.max_eq_left hend, Location.max_eq_left hp.onward.here_le]
  intro d hd
  have hmem : Node.declaration d ∈ p.declarations.map Node.declaration := List.mem_map_of_mem hd
  refine ⟨hp.nested _ hmem, ?_⟩
  rw [hspan]
  exact (hp.sits _ hmem).mono (Location.le_refl _) ⟨Location.le_refl _, hend⟩

/-- A program over a grammar that never refuses has its spans nested. -/
theorem programOver_spans {config : Config} {inner : Level} (hi : inner.Makes True) {s : State}
    (hs : s.Orderly) : After (programOver config inner) s fun p _ => p.spanViolation? = none := by
  -- strict building leaves no margin, so it does not matter where the margin is
  have hplaced := programOver_placed (m := ⟨True, default, default⟩) config hi hs fun hlax =>
    absurd trivial hlax
  refine hplaced.mono fun p s' h => Program.spanViolation?_eq_none fun d hd => ?_
  have hwithin : ∀ a b, Margin.Sits ⟨True, default, default⟩ s' a b → a.Within b := fun _ _ hsits =>
    hsits.resolve_right fun hend => hend.1.1 trivial
  exact ⟨(h d hd).1.mono hwithin, hwithin _ _ (h d hd).2⟩

end Grammar

/-- The nesting of a text stays below the limit: the level without room is never asked, so it does not
matter which level takes its place. -/
def Config.RoomFor (config : Config) (source : String) : Prop :=
  ∀ bottom : Grammar.Level,
    ((Grammar.programOver config (Grammar.grammarOver bottom config.maxNestingDepth)).run
      (.ofTokens (Token.scan source).1 config.maxErrors)).1 = (parse source config).program

/-- A text has room if its parse never reaches the limit of nesting. -/
theorem Config.RoomFor.of_reachesLimit {config : Config} {source : String}
    (hlimit : Grammar.reachesLimit (Token.scan source).1 config = false) : config.RoomFor source := by
  intro bottom
  have hrun := Grammar.programOver_of_reachesLimit hlimit config rfl
  -- the level that refuses is one of those that may stand at the bottom
  have hfull : Grammar.leveledProgram config (.ofTokens (Token.scan source).1 config.maxErrors) = _ :=
    hrun (.full config.maxNestingDepth)
  rw [parse_program, parseTokens_eq hfull]
  exact congrArg Prod.fst (hrun bottom)

/-- In a text whose nesting has room, well formed or not, every span lies inside its parent's. -/
theorem parse_spans_nested (source : String) (config : Config) (room : config.RoomFor source) :
    (parse source config).program.spanViolation? = none := by
  rw [← room Grammar.Level.blank]
  exact Grammar.programOver_spans (Grammar.grammarOver_makes (Grammar.Level.blank_makes True) _)
    (Grammar.orderly_scan source config.maxErrors)

/-- Two variables of a type that ends with `>>`, an operand and an argument that are missing, and a group
that is never closed. -/
def brokenText : String := "A<B<C>> a = 1 + , b; f(x, ; (y"

/-- It is not nested deeply, though much is wrong with it. -/
theorem parse_spans_nested_brokenText :
    Grammar.reachesLimit (Token.scan brokenText).1 {} = false ∧ Config.RoomFor {} brokenText ∧
      (parseTokens (Token.scan brokenText).1 {}).errors.errors.length = 3 ∧
      (parse brokenText {}).program.spanViolation? = none := by
  have hlimit : Grammar.reachesLimit (Token.scan brokenText).1 {} = false := by decide +kernel
  have hroom : Config.RoomFor {} brokenText := .of_reachesLimit hlimit
  exact ⟨hlimit, hroom, by decide +kernel, parse_spans_nested brokenText {} hroom⟩

end FluxFront
