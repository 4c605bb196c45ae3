import FluxFront.Grammar.Program
import FluxFront.Proofs.Copies

/-!
# What a parse can build

Whatever the grammar reads, the trees it gives come about in a few ways only: tokens are read, a node
is put on top of the nodes read since some place, a type is copied for the next variable of a
declaration, and so on.  `Builds s ns s'` says that the nodes `ns` came about in these ways on the
way from the state `s` to the state `s'`.

* **Specification**: a parser is described once, by the nodes it builds.  What holds of identities
  and spans in every tree is then an induction on `Builds` and never looks at the grammar.
* **Start**: every node that is not the copy of another starts at the place where the run that built
  it was standing at first.  So a run that goes on with a node it was given must be told from where
  on that node was built, and `Builds` runs from there.
* **Strictness**: a node without children must have cost a token, except where the nesting is too
  deep for it and the text has ended.  That exception is only open if `strict` fails.
-/

namespace FluxFront.Grammar

open Token (Kind)

/-! ## Running parsers -/

/-- What holds of the result and of the state behind a parser that runs from a state. -/
def After {α : Type} (p : Parser α) (s : State) (Q : α → State → Prop) : Prop := Q (p s).1 (p s).2

namespace After

variable {α β : Type} {s : State} {Q : α → State → Prop} {R : β → State → Prop}

theorem pure {a : α} (h : Q a s) : After (Pure.pure a) s Q := h

theorem bind {p : Parser α} {q : α → Parser β} (h : After p s fun a s' => After (q a) s' R) :
    After (p >>= q) s R := h

theorem map {p : Parser α} {f : α → β} (h : After p s fun a s' => R (f a) s') :
    After (f <$> p) s R := h

theorem mono {p : Parser α} {Q' : α → State → Prop} (h : After p s Q)
    (hQ : ∀ a s', Q a s' → Q' a s') : After p s Q' := hQ _ _ h

/-- Runs a parser whose behaviour is known and goes on behind it. -/
theorem andThen {p : Parser α} {q : α → Parser β} (h : After p s Q)
    (hQ : ∀ a s', Q a s' → After (q a) s' R) : After (p >>= q) s R := hQ _ _ h

end After

namespace State

/-- The state in which the place at the cursor counts as reached. -/
def reached (s : State) : State := { s with lastEnd := s.current.span.start.max s.lastEnd }

/-- The state behind the next identity. -/
def stamped (s : State) : State := { s with nextId := s.nextId + 1 }

/-- Where the current token starts. -/
def here (s : State) : Location := s.current.span.start

/-- The span from a place to the end of everything read. -/
def spanFrom (s : State) (start : Location) : Span := ⟨start, s.lastEnd.max start⟩

end State

/-! ## Steps -/

/-- What a parse does to its state between two nodes. -/
inductive Step : State → State → Prop
  | advance (s : State) : Step s s.advanced
  | split (s : State) : Step s s.splitShift
  | reach (s : State) : Step s s.reached
  /-- Errors and events are noted, and nothing is read. -/
  | quiet {s s' : State} (rest : s'.rest = s.rest) (position : s'.position = s.position)
      (lastEnd : s'.lastEnd = s.lastEnd) (nextId : s'.nextId = s.nextId) : Step s s'

/-- Any number of steps one after the other. -/
inductive Steps : State → State → Prop
  | refl (s : State) : Steps s s
  | tail {s s₁ s₂ : State} (h : Steps s s₁) (last : Step s₁ s₂) : Steps s s₂

theorem Steps.single {s s' : State} (h : Step s s') : Steps s s' := .tail (.refl s) h

theorem Steps.trans {s s₁ s₂ : State} (h₁ : Steps s s₁) (h₂ : Steps s₁ s₂) : Steps s s₂ := by
  induction h₂ with
  | refl => exact h₁
  | tail _ last ih => exact .tail ih last

theorem Steps.advance (s : State) : Steps s s.advanced := .single (.advance s)

/-! ## Nodes -/

/-- The nodes `ns` were built on the way from one state to another. -/
inductive Builds (strict : Prop) : State → List Node → State → Prop
  | steps {s s' : State} (h : Steps s s') : Builds strict s [] s'
  | append {s s₁ s₂ : State} {xs ys : List Node} (h₁ : Builds strict s xs s₁)
      (h₂ : Builds strict s₁ ys s₂) : Builds strict s (xs ++ ys) s₂
  | perm {s s' : State} {xs ys : List Node} (h : Builds strict s xs s') (hp : xs.Perm ys) :
      Builds strict s ys s'
  /-- A node over the nodes read last, from the first place to the last one reached. -/
  | node {s s' : State} (before : List Node) (n : Node)
      (h : Builds strict s (before ++ n.children) s') (span : n.span = s'.spanFrom s.here)
      (id : n.id = s'.nextId)
      (moved : before ++ n.children = [] →
        s.position < s'.position ∨ ¬ strict ∧ s.current.kind = .eof) :
      Builds strict s (before ++ [n]) s'.stamped
  /-- A node for something that is missing at the cursor. -/
  | missing {s : State} (n : Node) (leaf : n.children = []) (span : n.span = .single s.reached.lastEnd)
      (id : n.id = s.nextId) : Builds strict s [n] s.reached.stamped
  /-- A node around a single other one, with its span. -/
  | wrap {s s' : State} (before : List Node) (n : Node) {c : Node}
      (h : Builds strict s (before ++ [c]) s') (child : n.children = [c]) (span : n.span = c.span)
      (id : n.id = s'.nextId) : Builds strict s (before ++ [n]) s'.stamped
  /-- A copy of a type that was built before. -/
  | copy {s s' : State} {before : List Node} {t : Ty} (h : Builds strict s before s')
      (ht : .type t ∈ before.flatMap Descent.full.walk) :
      Builds strict s (before ++ [.type (t.edit Edit.freshCopy s'.nextId).1])
        { s' with nextId := (t.edit Edit.freshCopy s'.nextId).2 }
  /-- A pointer becomes a pointer to a function with the parameters read since. -/
  | repoint {s s₁ s₂ : State} {pointee : Ty} {qualifiers : Qualifiers} {span : Span} {id : NodeId}
      {params : List Ty} (h₁ : Builds strict s [.type ⟨.pointer pointee qualifiers, span, id⟩] s₁)
      (h₂ : Builds strict s₁ (params.map .type) s₂) :
      Builds strict s
        [.type ⟨.pointer ⟨.function params pointee, s₂.spanFrom span.start, s₂.nextId⟩ qualifiers,
          s₂.spanFrom span.start, id⟩] s₂.stamped
  /-- A variable that stands as a statement keeps its label. -/
  | demote {s s' : State} (before : List Node) {var : Variable} {span : Span} {id : NodeId}
      (h : Builds strict s (before ++ [.declaration ⟨.variable var, span, id⟩]) s') :
      Builds strict s (before ++ [.statement ⟨.variable var, span, id⟩]) s'
  /-- The parentheses around an expression are forgotten. -/
  | ungroup {s s' : State} (before : List Node) {e : Expr} {span : Span} {id : NodeId}
      (h : Builds strict s (before ++ [.expression ⟨.group e, span, id⟩]) s') :
      Builds strict s (before ++ [.expression e]) s'

namespace Builds

variable {strict : Prop} {s s₁ s₂ : State} {ns : List Node}

theorem idle (s : State) : Builds strict s [] s := .steps (.refl s)

/-- Goes on without building anything. -/
theorem andThen (h₁ : Builds strict s ns s₁) (h₂ : Steps s₁ s₂) : Builds strict s ns s₂ := by
  simpa using h₁.append (.steps h₂)

/-- Builds after having read something. -/
theorem behind (h₁ : Steps s s₁) (h₂ : Builds strict s₁ ns s₂) : Builds strict s ns s₂ :=
  .append (.steps h₁) h₂

/-- A node over everything built so far, which is something. -/
theorem around (n : Node) (h : Builds strict s n.children s₁) (span : n.span = s₁.spanFrom s.here)
    (id : n.id = s₁.nextId) (hne : n.children ≠ []) : Builds strict s [n] s₁.stamped :=
  .node [] n h span id fun he => absurd he hne

/-- A node for the tokens read so far. -/
theorem leaf (n : Node) (h : Steps s s₁) (hn : n.children = [])
    (span : n.span = s₁.spanFrom s.here) (id : n.id = s₁.nextId)
    (moved : s.position < s₁.position) : Builds strict s [n] s₁.stamped :=
  .node [] n (by rw [hn]; exact .steps h) span id fun _ => .inl moved

end Builds

/-! ## The cursor only moves on -/

theorem State.position_le_advanced (s : State) : s.position ≤ s.advanced.position := by
  unfold State.advanced
  split
  · exact Nat.le_refl _
  · split
    · exact Nat.le_refl _
    · exact Nat.le_succ _

theorem State.position_advanced {s : State} (h : s.current.kind ≠ .eof) :
    s.advanced.position = s.position + 1 := by
  unfold State.advanced
  split
  · rename_i hrest
    simp [State.current, hrest, Token.endAt] at h
  · rename_i t rest hrest
    rw [if_neg]
    simpa [State.current, hrest] using h

theorem State.position_splitShift (s : State) : s.splitShift.position = s.position := by
  unfold State.splitShift
  split
  · split <;> rfl
  · rfl

theorem Step.position_le {s s' : State} (h : Step s s') : s.position ≤ s'.position := by
  cases h with
  | advance => exact s.position_le_advanced
  | split => exact Nat.le_of_eq s.position_splitShift.symm
  | reach => exact Nat.le_refl _
  | quiet _ position _ _ => exact Nat.le_of_eq position.symm

theorem Steps.position_le {s s' : State} (h : Steps s s') : s.position ≤ s'.position := by
  induction h with
  | refl => exact Nat.le_refl _
  | tail _ last ih => exact Nat.le_trans ih last.position_le

theorem Builds.position_le {strict : Prop} {s s' : State} {ns : List Node}
    (h : Builds strict s ns s') : s.position ≤ s'.position := by
  induction h with
  | steps h => exact h.position_le
  | append _ _ ih₁ ih₂ => exact Nat.le_trans ih₁ ih₂
  | perm _ _ ih => exact ih
  | node _ _ _ _ _ _ ih => exact ih
  | missing => exact Nat.le_refl _
  | wrap _ _ _ _ _ _ ih => exact ih
  | copy _ _ ih => exact ih
  | repoint _ _ ih₁ ih₂ => exact Nat.le_trans ih₁ ih₂
  | demote _ _ ih => exact ih
  | ungroup _ _ ih => exact ih

/-- A run that started by reading a token has moved. -/
theorem Builds.moved {strict : Prop} {s s' : State} {ns : List Node}
    (h : Builds strict s.advanced ns s') (hk : s.current.kind ≠ .eof) :
    s.position < s'.position := by
  have hle := h.position_le
  rw [State.position_advanced hk] at hle
  exact hle

theorem Steps.moved {s s' : State} (h : Steps s.advanced s') (hk : s.current.kind ≠ .eof) :
    s.position < s'.position := by
  have hle := h.position_le
  rw [State.position_advanced hk] at hle
  exact hle

/-- A node over everything built since the token at the cursor was read. -/
theorem Builds.read {strict : Prop} {s s₁ : State} (n : Node)
    (h : Builds strict s.advanced n.children s₁) (hk : s.current.kind ≠ .eof)
    (span : n.span = s₁.spanFrom s.here) (id : n.id = s₁.nextId) :
    Builds strict s [n] s₁.stamped :=
  .node [] n (h.behind (.advance s)) span id fun _ => .inl (h.moved hk)

end FluxFront.Grammar
