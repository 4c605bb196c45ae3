import FluxFront.Proofs.Running

/-!
# Moves of the state, and the way back

Everything a parse does to its state is one of eight moves: it reads a token, splits a `>>`, reaches a
place, gives out identities, reports an error, records a misuse, notes an event, or ends a panic.  Going
one level further in and skimming a type change fields that no move reads or writes, so between the
change and its undoing the moves are the same (`Moves.shallower`, `Moves.skims`).

* **Weight**: a token ahead weighs one, a `>>` two because it may be read as two brackets, and the end
  of the text nothing.  A token that is read takes its weight away, and no move ever adds any; so the
  weight bounds how often a loop can go on.
* **Way back**: however many moves lie between a state and a later one, going back to a checkpoint
  taken at the first gives that state again, events apart (`Since.rewound`).  The invariant is that the
  tokens passed since, put in front of those ahead, become the tokens that were ahead once the splits
  made since are undone from the latest to the first.
-/

namespace FluxFront

/-- How many tokens a token may still be read as. -/
def Token.weight (t : Token) : Nat :=
  if t.kind = .eof then 0 else if t.kind = .shr then 2 else 1

theorem Token.weight_pos {t : Token} (h : t.kind ≠ .eof) : 0 < t.weight := by
  unfold weight
  rw [if_neg h]
  split <;> omega

theorem Token.weight_le (t : Token) : t.weight ≤ 2 := by
  unfold weight
  split
  · omega
  · split <;> omega

theorem Token.weight_eof (t : Token) (h : t.kind = .eof) : t.weight = 0 := by
  unfold weight
  rw [if_pos h]

/-- How many tokens the tokens of a list may still be read as. -/
def Token.total : List Token → Nat
  | [] => 0
  | t :: more => t.weight + total more

theorem Token.total_append (ts us : List Token) : total (ts ++ us) = total ts + total us := by
  induction ts with
  | nil => exact (Nat.zero_add _).symm
  | cons t ts ih =>
    show t.weight + total (ts ++ us) = t.weight + total ts + total us
    omega

theorem Token.total_le (ts : List Token) : total ts ≤ 2 * ts.length := by
  induction ts with
  | nil => exact Nat.le_refl 0
  | cons t ts ih =>
    have ht := t.weight_le
    rw [total, List.length_cons]
    omega

namespace Grammar

open Token (Kind)

/-! ## Moves -/

/-- What a parse does to its state in one go.  Events are only noted if `noted` holds. -/
inductive Move (noted : Prop) : (State → State) → Prop
  | advance : Move noted State.advanced
  | split : Move noted State.splitShift
  | reach : Move noted State.reached
  | restamp (next : NodeId → NodeId) (le : ∀ n, n ≤ next n) :
      Move noted fun s => { s with nextId := next s.nextId }
  | report (d : Diagnostic) : Move noted (State.reported d)
  | record (d : Diagnostic) : Move noted (State.recorded d)
  | note (event : Event) (h : noted) : Move noted (State.noted event)
  | calm : Move noted State.calmed

/-- Any number of moves one after the other. -/
inductive Moves (noted : Prop) : State → State → Prop
  | refl (s : State) : Moves noted s s
  | tail {s s₁ : State} {f : State → State} (h : Moves noted s s₁) (last : Move noted f) :
      Moves noted s (f s₁)

theorem Move.mono {noted noted' : Prop} (hn : noted → noted') {f : State → State}
    (h : Move noted f) : Move noted' f := by
  cases h with
  | advance => exact .advance
  | split => exact .split
  | reach => exact .reach
  | restamp next le => exact .restamp next le
  | report d => exact .report d
  | record d => exact .record d
  | note event h => exact .note event (hn h)
  | calm => exact .calm

namespace Moves

variable {noted : Prop} {s s₁ s₂ : State}

theorem mono {noted' : Prop} (hn : noted → noted') (h : Moves noted s s₁) : Moves noted' s s₁ := by
  induction h with
  | refl => exact .refl s
  | tail _ last ih => exact .tail ih (last.mono hn)

theorem single {f : State → State} (h : Move noted f) (s : State) : Moves noted s (f s) :=
  .tail (.refl s) h

theorem trans (h₁ : Moves noted s s₁) (h₂ : Moves noted s₁ s₂) : Moves noted s s₂ := by
  induction h₂ with
  | refl => exact h₁
  | tail _ last ih => exact .tail ih last

end Moves

/-! ## Weight -/

namespace State

/-- How many tokens may still be read. -/
def weight (s : State) : Nat := Token.total s.rest

theorem weight_eq_of_rest {s s' : State} (h : s'.rest = s.rest) : s'.weight = s.weight := by
  rw [weight, weight, h]

/-- At the end of the text the cursor stays. -/
theorem advanced_eof {s : State} (h : s.current.kind = .eof) : s.advanced = s := by
  unfold advanced
  split
  · rfl
  · rename_i t rest hrest
    have ht : t.kind = .eof := by simpa [current, hrest] using h
    rw [if_pos ht]

/-- Before the end of the text the cursor moves over the token it stands at. -/
theorem advanced_cons {s : State} (h : s.current.kind ≠ .eof) :
    ∃ t rest, s.rest = t :: rest ∧ t = s.current ∧ s.advanced = { s with
      rest, behind := t :: s.behind, position := s.position + 1,
      lastEnd := s.lastEnd.max t.span.stop } := by
  cases hrest : s.rest with
  | nil => exact absurd (by simp [current, hrest, Token.endAt]) h
  | cons t rest =>
    have hcur : s.current = t := by simp [current, hrest]
    have ht : t.kind ≠ .eof := by rw [← hcur]; exact h
    refine ⟨t, rest, rfl, hcur.symm, ?_⟩
    simp [advanced, hrest, ht]

/-- A split either finds no `>>` or puts its two halves in its place. -/
theorem splitShift_cases (s : State) :
    s.splitShift = s ∨ ∃ t rest first second, s.rest = t :: rest ∧ t.kind = .shr ∧
      first.kind = .greater ∧ second.kind = .greater ∧
      s.splitShift = { s with rest := first :: second :: rest,
                              splits := (s.position, t) :: s.splits } := by
  cases hrest : s.rest with
  | nil => exact .inl (by simp [splitShift, hrest])
  | cons t rest =>
    by_cases ht : t.kind = .shr
    · refine .inr ⟨t, rest, _, _, rfl, ht, ?_, ?_, by simp [splitShift, hrest, ht]; exact ⟨rfl, rfl⟩⟩
      · rfl
      · rfl
    · exact .inl (by simp [splitShift, hrest, ht])

theorem rest_reported (d : Diagnostic) (s : State) : (s.reported d).rest = s.rest := by
  unfold reported
  split <;> rfl

theorem position_reported (d : Diagnostic) (s : State) :
    (s.reported d).position = s.position := by
  unfold reported
  split <;> rfl

theorem rest_recorded (d : Diagnostic) (s : State) : (s.recorded d).rest = s.rest := by
  unfold recorded
  split <;> rfl

theorem position_recorded (d : Diagnostic) (s : State) :
    (s.recorded d).position = s.position := by
  unfold recorded
  split <;> rfl

end State

/-- What a move can do to the cursor: nothing, read a token, or split one. -/
theorem Move.cursor {noted : Prop} {f : State → State} (h : Move noted f) (s : State) :
    ((f s).rest = s.rest ∧ (f s).position = s.position) ∨
    (s.current.kind ≠ .eof ∧ s.rest = s.current :: (f s).rest ∧
      (f s).position = s.position + 1) ∨
    (∃ t rest first second, s.rest = t :: rest ∧ t.kind = .shr ∧ first.kind = .greater ∧
      second.kind = .greater ∧ (f s).rest = first :: second :: rest ∧
      (f s).position = s.position) := by
  cases h with
  | advance =>
    by_cases hk : s.current.kind = .eof
    · rw [State.advanced_eof hk]
      exact .inl ⟨rfl, rfl⟩
    · obtain ⟨t, rest, hrest, ht, hadv⟩ := State.advanced_cons hk
      refine .inr (.inl ⟨hk, ?_, ?_⟩)
      · rw [hadv, hrest, ht]
      · rw [hadv]
  | split =>
    rcases s.splitShift_cases with h | ⟨t, rest, first, second, hrest, ht, h₁, h₂, h⟩
    · rw [h]
      exact .inl ⟨rfl, rfl⟩
    · rw [h]
      exact .inr (.inr ⟨t, rest, first, second, hrest, ht, h₁, h₂, rfl, rfl⟩)
  | reach => exact .inl ⟨rfl, rfl⟩
  | restamp => exact .inl ⟨rfl, rfl⟩
  | report d => exact .inl ⟨s.rest_reported d, s.position_reported d⟩
  | record d => exact .inl ⟨s.rest_recorded d, s.position_recorded d⟩
  | note => exact .inl ⟨rfl, rfl⟩
  | calm => exact .inl ⟨rfl, rfl⟩

/-- What is behind the cursor and what may still be read never become more together, and neither does
what may still be read alone; and a cursor that has not moved is at the end if it was. -/
structure Forward (s s' : State) : Prop where
  position : s.position ≤ s'.position
  total : s'.position + s'.weight ≤ s.position + s.weight
  atEnd : s'.position = s.position → (s'.current.kind = .eof ↔ s.current.kind = .eof)

theorem Forward.weight {s s' : State} (h : Forward s s') : s'.weight ≤ s.weight := by
  have h₁ := h.position
  have h₂ := h.total
  omega

theorem Forward.refl (s : State) : Forward s s := ⟨Nat.le_refl _, Nat.le_refl _, fun _ => Iff.rfl⟩

theorem Forward.trans {s s₁ s₂ : State} (h₁ : Forward s s₁) (h₂ : Forward s₁ s₂) :
    Forward s s₂ := by
  have hp₁ := h₁.position
  have hp₂ := h₂.position
  have ht₁ := h₁.total
  have ht₂ := h₂.total
  refine ⟨by omega, by omega, fun h => ?_⟩
  exact (h₂.atEnd (by omega)).trans (h₁.atEnd (by omega))

theorem Move.forward {noted : Prop} {f : State → State} (h : Move noted f) (s : State) :
    Forward s (f s) := by
  rcases h.cursor s with ⟨hr, hp⟩ | ⟨hk, hr, hp⟩ | ⟨t, rest, first, second, hs, ht, h₁, h₂, hr, hp⟩
  · have hw : (f s).weight = s.weight := State.weight_eq_of_rest hr
    refine ⟨by omega, by omega, fun _ => ?_⟩
    simp [State.current, hr]
  · have hpos : 0 < s.current.weight := Token.weight_pos hk
    have hw : s.weight = s.current.weight + (f s).weight := by
      unfold State.weight
      rw [hr, Token.total]
    exact ⟨by omega, by omega, fun h => by omega⟩
  · have hw : (f s).weight = s.weight := by
      simp only [State.weight, hr, hs, Token.total, Token.weight, h₁, h₂, ht, reduceCtorEq, if_false,
        if_true]
      omega
    refine ⟨by omega, by omega, fun _ => ?_⟩
    simp [State.current, hr, hs, h₁, ht]

theorem Moves.forward {noted : Prop} {s s' : State} (h : Moves noted s s') : Forward s s' := by
  induction h with
  | refl => exact .refl _
  | tail _ last ih => exact ih.trans (last.forward _)

/-! ## The way back -/

/-- A later state still holds everything an earlier one had: the tokens passed and the splits made
since lead back to the tokens that were ahead, errors were only added at the end, and what no checkpoint
holds is as it was. -/
structure Since (s s' : State) : Prop where
  tokens : ∃ passed made, s'.behind = passed ++ s.behind ∧
    s'.position = s.position + passed.length ∧ s'.splits = made ++ s.splits ∧
    made.foldl (rejoin s.position) (passed.reverse ++ s'.rest) = s.rest
  errors : ∃ more, s'.errors = { s.errors with errors := s.errors.errors ++ more }
  bound : s'.bound = s.bound
  depth : s'.depth = s.depth
  skimming : s'.skimming = s.skimming

namespace Since

variable {s s' : State}

theorem refl (s : State) : Since s s := by
  refine ⟨⟨[], [], rfl, rfl, rfl, rfl⟩, ⟨[], ?_⟩, rfl, rfl, rfl⟩
  rw [List.append_nil]

/-- A state that differs in its counters and events only is as far behind. -/
theorem of_same {t : State} (h : Since s s') (rest : t.rest = s'.rest) (behind : t.behind = s'.behind)
    (position : t.position = s'.position) (splits : t.splits = s'.splits)
    (errors : t.errors = s'.errors) (bound : t.bound = s'.bound) (depth : t.depth = s'.depth)
    (skimming : t.skimming = s'.skimming) : Since s t := by
  refine ⟨?_, ?_, bound.trans h.bound, depth.trans h.depth, skimming.trans h.skimming⟩
  · rw [rest, behind, position, splits]
    exact h.tokens
  · rw [errors]
    exact h.errors

theorem advanced (h : Since s s') : Since s s'.advanced := by
  by_cases hk : s'.current.kind = .eof
  · rw [State.advanced_eof hk]
    exact h
  · obtain ⟨t, rest, hrest, -, hadv⟩ := State.advanced_cons hk
    obtain ⟨passed, made, hb, hp, hs, ht⟩ := h.tokens
    rw [hadv]
    refine ⟨⟨t :: passed, made, ?_, ?_, hs, ?_⟩, h.errors, h.bound, h.depth, h.skimming⟩
    · rw [hb, List.cons_append]
    · show s'.position + 1 = s.position + (t :: passed).length
      rw [hp, List.length_cons, Nat.add_assoc]
    · rw [hrest] at ht
      simpa using ht

theorem splitShift (h : Since s s') : Since s s'.splitShift := by
  rcases s'.splitShift_cases with he | ⟨t, rest, first, second, hrest, -, -, -, he⟩
  · rw [he]
    exact h
  · obtain ⟨passed, made, hb, hp, hs, ht⟩ := h.tokens
    rw [he]
    refine ⟨⟨passed, (s'.position, t) :: made, hb, hp, ?_, ?_⟩, h.errors, h.bound, h.depth, h.skimming⟩
    · rw [hs, List.cons_append]
    · -- the split made last is undone first and gives back the tokens it was made on
      have hjoin : rejoin s.position (passed.reverse ++ first :: second :: rest) (s'.position, t)
          = passed.reverse ++ t :: rest := by
        have hn : s'.position - s.position = passed.reverse.length := by
          rw [hp, List.length_reverse]
          omega
        simp [rejoin, hn, List.drop_append]
      rw [List.foldl_cons, hjoin, ← hrest]
      exact ht

/-- An error that is offered is added at the end or dropped. -/
theorem addError {e : Diagnostic.Collection}
    (h : ∃ more, s'.errors = { e with errors := e.errors ++ more }) (d : Diagnostic) :
    ∃ more, s'.errors.addError d = { e with errors := e.errors ++ more } := by
  obtain ⟨more, hm⟩ := h
  unfold Diagnostic.Collection.addError
  split
  · refine ⟨more ++ [d], ?_⟩
    rw [hm, List.append_assoc]
  · exact ⟨more, hm⟩

theorem reported (h : Since s s') (d : Diagnostic) : Since s (s'.reported d) := by
  unfold State.reported
  split
  · exact ⟨h.tokens, h.errors, h.bound, h.depth, h.skimming⟩
  · exact ⟨h.tokens, addError h.errors d, h.bound, h.depth, h.skimming⟩

theorem recorded (h : Since s s') (d : Diagnostic) : Since s (s'.recorded d) := by
  unfold State.recorded
  split
  · exact h
  · exact ⟨h.tokens, addError h.errors d, h.bound, h.depth, h.skimming⟩

theorem move {noted : Prop} {f : State → State} (h : Since s s') (hf : Move noted f) :
    Since s (f s') := by
  cases hf with
  | advance => exact h.advanced
  | split => exact h.splitShift
  | reach => exact h.of_same rfl rfl rfl rfl rfl rfl rfl rfl
  | restamp => exact h.of_same rfl rfl rfl rfl rfl rfl rfl rfl
  | report d => exact h.reported d
  | record d => exact h.recorded d
  | note => exact h.of_same rfl rfl rfl rfl rfl rfl rfl rfl
  | calm => exact h.of_same rfl rfl rfl rfl rfl rfl rfl rfl

/-- Going back to a checkpoint gives the state it was taken at, but for the events noted since. -/
theorem rewound (h : Since s s') :
    s'.rewound s.checkpoint = { s with events := s'.events } := by
  obtain ⟨passed, made, hb, hp, hs, ht⟩ := h.tokens
  obtain ⟨more, hm⟩ := h.errors
  have hpassed : s'.position - s.checkpoint.position = passed.length := by
    show s'.position - s.position = passed.length
    omega
  have hmade : s'.splits.length - s.checkpoint.splitCount = made.length := by
    show s'.splits.length - s.splits.length = made.length
    rw [hs, List.length_append]
    omega
  have hback : s'.behind.take passed.length = passed := by rw [hb, List.take_left]
  have hbehind : s'.behind.drop passed.length = s.behind := by rw [hb, List.drop_left]
  have hundo : s'.splits.take made.length = made := by rw [hs, List.take_left]
  have hsplits : s'.splits.drop made.length = s.splits := by rw [hs, List.drop_left]
  have herrors : s'.errors.truncate s.checkpoint.errorCount = s.errors := by
    show s'.errors.truncate s.errors.errors.length = s.errors
    simp [Diagnostic.Collection.truncate, hm]
  unfold State.rewound
  dsimp only
  rw [hpassed, hmade, hback, hbehind, hundo, hsplits, herrors]
  have hrest : made.foldl (rejoin s.checkpoint.position) (passed.reverse ++ s'.rest) = s.rest := ht
  rw [hrest, h.bound, h.depth, h.skimming]
  rfl

end Since

theorem Moves.since {noted : Prop} {s s' : State} (h : Moves noted s s') : Since s s' := by
  induction h with
  | refl => exact .refl _
  | tail _ last ih => exact ih.move last

/-! ## What no move looks at -/

/-- The state with another bound on loops, at another depth, and skimming or not. -/
def State.tuned (bound depth : Nat) (skimming : Bool) (s : State) : State := { s with bound, depth, skimming }

theorem State.advanced_tuned (n d : Nat) (b : Bool) (s : State) :
    (s.tuned n d b).advanced = s.advanced.tuned n d b := by
  unfold State.advanced State.tuned
  dsimp only
  split
  · rfl
  · split <;> rfl

theorem State.splitShift_tuned (n d : Nat) (b : Bool) (s : State) :
    (s.tuned n d b).splitShift = s.splitShift.tuned n d b := by
  unfold State.splitShift State.tuned
  dsimp only
  split
  · split <;> rfl
  · rfl

theorem Move.tuned {noted : Prop} {f : State → State} (h : Move noted f) (n d : Nat) (b : Bool)
    (s : State) : f (s.tuned n d b) = (f s).tuned n d b := by
  cases h with
  | advance => exact s.advanced_tuned n d b
  | split => exact s.splitShift_tuned n d b
  | reach => rfl
  | restamp => rfl
  | report d =>
    unfold State.reported State.tuned
    dsimp only
    split <;> rfl
  | record d =>
    unfold State.recorded State.tuned
    dsimp only
    split <;> rfl
  | note => rfl
  | calm => rfl

theorem Moves.tuned {noted : Prop} {s s' : State} (h : Moves noted s s') (n d : Nat) (b : Bool) :
    Moves noted (s.tuned n d b) (s'.tuned n d b) := by
  induction h with
  | refl => exact .refl _
  | tail _ last ih =>
    rw [← last.tuned]
    exact .tail ih last

/-- Moves one level further in are moves once the way out is taken. -/
theorem Moves.shallower {noted : Prop} {s s' : State} (h : Moves noted s.deeper s') :
    Moves noted s s'.shallower := by
  have hback := h.tuned s.bound s.depth s.skimming
  have hout : s'.tuned s.bound s.depth s.skimming = s'.shallower := by
    have hd : s'.depth = s.depth + 1 := h.since.depth
    have hb : s'.bound = s.bound := h.since.bound
    have hk : s'.skimming = s.skimming := h.since.skimming
    rw [State.tuned, State.shallower, hd, ← hb, ← hk]
    rfl
  rwa [hout] at hback

/-- Moves of a skimming parse are moves once the skimming is over. -/
theorem Moves.skims {noted : Prop} {s s' : State} {b : Bool} (h : Moves noted (s.skims b) s') :
    Moves noted s (s'.skims s.skimming) := by
  have hback := h.tuned s.bound s.depth s.skimming
  have hout : s'.tuned s.bound s.depth s.skimming = s'.skims s.skimming := by
    have hd : s'.depth = s.depth := h.since.depth
    have hb : s'.bound = s.bound := h.since.bound
    rw [State.tuned, State.skims, ← hd, ← hb]
  rwa [hout] at hback

theorem Move.events_eq {f : State → State} (h : Move False f) (s : State) :
    (f s).events = s.events := by
  cases h with
  | advance =>
    by_cases hk : s.current.kind = .eof
    · rw [State.advanced_eof hk]
    · obtain ⟨t, rest, -, -, hadv⟩ := State.advanced_cons hk
      rw [hadv]
  | split =>
    rcases s.splitShift_cases with h | ⟨t, rest, first, second, -, -, -, -, h⟩
    · rw [h]
    · rw [h]
  | reach => rfl
  | restamp => rfl
  | report d =>
    unfold State.reported
    split <;> rfl
  | record d =>
    unfold State.recorded
    split <;> rfl
  | note _ h => exact h.elim
  | calm => rfl

theorem Moves.events_eq {s s' : State} (h : Moves False s s') : s'.events = s.events := by
  induction h with
  | refl => rfl
  | tail _ last ih => rw [last.events_eq, ih]

theorem State.failures_reported (d : Diagnostic) (s : State) :
    (s.reported d).failures = s.failures + 1 := by
  unfold reported
  split <;> rfl

/-- An error once noticed stays noticed. -/
theorem Move.failures_le {noted : Prop} {f : State → State} (h : Move noted f) (s : State) :
    s.failures ≤ (f s).failures := by
  cases h with
  | advance =>
    by_cases hk : s.current.kind = .eof
    · exact Nat.le_of_eq (by rw [State.advanced_eof hk])
    · obtain ⟨t, rest, -, -, hadv⟩ := State.advanced_cons hk
      exact Nat.le_of_eq (by rw [hadv])
  | split =>
    rcases s.splitShift_cases with h | ⟨t, rest, first, second, -, -, -, -, h⟩
    · exact Nat.le_of_eq (by rw [h])
    · exact Nat.le_of_eq (by rw [h])
  | reach => exact Nat.le_refl _
  | restamp => exact Nat.le_refl _
  | report d =>
    rw [s.failures_reported d]
    exact Nat.le_succ _
  | record d =>
    unfold State.recorded
    split <;> exact Nat.le_refl _
  | note => exact Nat.le_refl _
  | calm => exact Nat.le_refl _

theorem Moves.failures_le {noted : Prop} {s s' : State} (h : Moves noted s s') :
    s.failures ≤ s'.failures := by
  induction h with
  | refl => exact Nat.le_refl _
  | tail _ last ih => exact Nat.le_trans ih (last.failures_le _)

/-- Without notes, going back to a checkpoint gives exactly the state it was taken at. -/
theorem Moves.rewound {s s' : State} (h : Moves False s s') : s'.rewound s.checkpoint = s := by
  rw [h.since.rewound, h.events_eq]

/-- What was noted on the way can be noted on the spot. -/
theorem Moves.notes {noted : Prop} {s s' : State} (h : Moves noted s s') :
    Moves noted s { s with events := s'.events } := by
  induction h with
  | refl => exact .refl _
  | @tail s₁ f h last ih =>
    cases last with
    | note event hn => exact .tail ih (.note event hn)
    | advance => rw [Move.events_eq .advance]; exact ih
    | split => rw [Move.events_eq .split]; exact ih
    | reach => exact ih
    | restamp => exact ih
    | report d => rw [Move.events_eq (.report d)]; exact ih
    | record d => rw [Move.events_eq (.record d)]; exact ih
    | calm => exact ih

end Grammar

end FluxFront
