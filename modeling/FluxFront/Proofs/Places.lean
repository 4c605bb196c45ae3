import FluxFront.Proofs.Checks

/-!
# Places in order and nodes inside one another

Locations are compared in two ways: by line and column where the later of two is taken, and by offset
where one span is tested to lie inside another.  On the places of one text both agree, and `a ≤ b`
below says that `a` comes first in both.

* **Specification**: a node is `Nested` if the span of every node below it lies inside that of its
  parent, for some way to lie inside.  A violation that a program reports lies inside in that way, and
  not in the plain one (`Program.spanViolation?_inside`).
-/

namespace FluxFront

/-! ## The order of places -/

namespace Location

/-- One place comes before another, or they are the same, by line and column as well as by offset. -/
instance : LE Location where
  le a b := (a.line < b.line ∨ a.line = b.line ∧ a.column ≤ b.column) ∧ a.offset ≤ b.offset

theorem le_def {a b : Location} :
    a ≤ b ↔ (a.line < b.line ∨ a.line = b.line ∧ a.column ≤ b.column) ∧ a.offset ≤ b.offset :=
  Iff.rfl

theorem le_refl (a : Location) : a ≤ a := ⟨.inr ⟨rfl, Nat.le_refl _⟩, Nat.le_refl _⟩

theorem le_trans {a b c : Location} (hab : a ≤ b) (hbc : b ≤ c) : a ≤ c := by
  rw [le_def] at *
  omega

theorem le_antisymm {a b : Location} (hab : a ≤ b) (hba : b ≤ a) : a = b := by
  rw [le_def] at *
  obtain ⟨_, _, _⟩ := a
  obtain ⟨_, _, _⟩ := b
  simp only [mk.injEq] at *
  omega

/-- The order that `max` looks at. -/
theorem isGT_order {a b : Location} :
    (a.order b).isGT = true ↔ b.line < a.line ∨ b.line = a.line ∧
      (b.column < a.column ∨ b.column = a.column ∧ b.offset < a.offset) := by
  simp only [order, Ordering.isGT_iff_eq_gt, Ordering.then_eq_gt, Nat.compare_eq_gt,
    Nat.compare_eq_eq, Ordering.then_eq_eq]
  omega

theorem max_eq_right {a b : Location} (h : a ≤ b) : a.max b = b := by
  unfold Location.max
  rw [if_neg]
  rw [isGT_order]
  rw [le_def] at h
  omega

theorem max_eq_left {a b : Location} (h : b ≤ a) : a.max b = a := by
  unfold Location.max
  split
  · rfl
  · rename_i hgt
    rw [isGT_order] at hgt
    rw [le_def] at h
    obtain ⟨_, _, _⟩ := a
    obtain ⟨_, _, _⟩ := b
    simp only [mk.injEq] at *
    omega

theorem default_le (a : Location) : (default : Location) ≤ a := by
  rw [le_def]
  show ((0 : Nat) < _ ∨ 0 = _ ∧ (0 : Nat) ≤ _) ∧ (0 : Nat) ≤ _
  omega

theorem le_next (a : Location) (c : Char) : a ≤ a.next c := by
  unfold next
  rw [le_def]
  split <;> dsimp only <;> omega

theorem le_after (a : Location) (text : List Char) : a ≤ a.after text := by
  induction text generalizing a with
  | nil => exact le_refl a
  | cons c text ih => exact le_trans (le_next a c) (ih _)

end Location

/-! ## Spans inside spans -/

/-- The first span lies inside the second. -/
structure Span.Within (a b : Span) : Prop where
  start : b.start ≤ a.start
  stop : a.stop ≤ b.stop

theorem Span.Within.refl (a : Span) : a.Within a := ⟨Location.le_refl _, Location.le_refl _⟩

theorem Span.Within.trans {a b c : Span} (hab : a.Within b) (hbc : b.Within c) : a.Within c :=
  ⟨Location.le_trans hbc.start hab.start, Location.le_trans hab.stop hbc.stop⟩

theorem Span.Within.contains {a b : Span} (h : a.Within b) : b.contains a = true := by
  rw [Span.contains, Bool.and_eq_true, decide_eq_true_eq, decide_eq_true_eq]
  exact ⟨h.start.2, h.stop.2⟩

/-! ## Nested nodes -/

namespace Node

variable {R R' : Span → Span → Prop}

/-- The span of the node does not end before it starts, and those of the children are inside it, in the
sense of a relation. -/
def Encloses (R : Span → Span → Prop) (n : Node) : Prop :=
  n.span.start ≤ n.span.stop ∧ ∀ c ∈ n.children, R c.span n.span

/-- Every node of the tree encloses its children. -/
def Nested (R : Span → Span → Prop) (n : Node) : Prop := ∀ m ∈ Descent.full.walk n, m.Encloses R

theorem mem_walk_self (n : Node) : n ∈ Descent.full.walk n := by
  rw [Descent.walk_eq]
  exact List.mem_cons_self

theorem mem_walk_of_mem_children {n c m : Node} (hc : c ∈ n.children)
    (hm : m ∈ Descent.full.walk c) : m ∈ Descent.full.walk n := by
  rw [Descent.walk_eq]
  exact List.mem_cons_of_mem _ (List.mem_flatMap.2 ⟨c, hc, hm⟩)

theorem nested_iff {n : Node} : n.Nested R ↔ n.Encloses R ∧ ∀ c ∈ n.children, c.Nested R := by
  unfold Nested
  rw [Descent.walk_eq]
  simp only [List.forall_mem_cons, List.mem_flatMap, forall_exists_index, and_imp]
  exact and_congr_right fun _ => ⟨fun h c hc m hm => h m c hc hm, fun h m c hc hm => h c hc m hm⟩

theorem Nested.mono {n : Node} (h : n.Nested R) (hR : ∀ a b, R a b → R' a b) : n.Nested R' :=
  fun m hm => ⟨(h m hm).1, fun c hc => hR _ _ ((h m hm).2 c hc)⟩

/-- The span of a nested node does not end before it starts. -/
theorem Nested.start_le_stop {n : Node} (h : n.Nested R) : n.span.start ≤ n.span.stop :=
  (h n (mem_walk_self n)).1

/-- Below a nested node, everything lies inside it and is nested. -/
theorem Nested.below (hrefl : ∀ a, R a a)
    (htrans : ∀ {a b c : Span}, a.start ≤ a.stop → R a b → R b c → R a c) {n : Node} (h : n.Nested R)
    {m : Node} (hm : m ∈ Descent.full.walk n) : m.Nested R ∧ R m.span n.span := by
  induction n using descend with
  | h n ih =>
    rw [Descent.walk_eq, List.mem_cons, List.mem_flatMap] at hm
    rcases hm with rfl | ⟨c, hc, hm⟩
    · exact ⟨h, hrefl _⟩
    · have hn := nested_iff.1 h
      obtain ⟨hmn, hmc⟩ := ih c hc (hn.2 c hc) hm
      exact ⟨hmn, htrans hmn.start_le_stop hmc (hn.1.2 c hc)⟩

/-- On a walk, the parent of a node is the place where the walk started or the span of a node whose
child it is. -/
theorem mem_walkWithParents {outer parent : Span} {n m : Node}
    (h : (parent, m) ∈ Descent.full.walkWithParents outer n) :
    parent = outer ∧ m = n ∨ ∃ q ∈ Descent.full.walk n, parent = q.span ∧ m ∈ q.children := by
  induction n using descend generalizing outer with
  | h n ih =>
    rw [Descent.walkWithParents_eq, List.mem_cons, List.mem_flatMap] at h
    rcases h with h | ⟨c, hc, h⟩
    · exact .inl ⟨congrArg Prod.fst h, congrArg Prod.snd h⟩
    · refine .inr ?_
      rcases ih c hc h with ⟨rfl, rfl⟩ | ⟨q, hq, hp⟩
      · exact ⟨n, mem_walk_self n, rfl, hc⟩
      · exact ⟨q, mem_walk_of_mem_children hc hq, hp⟩

end Node

/-- Where the declarations of a program are nested inside its span, a violation is of a kind that the
relation allows. -/
theorem Program.spanViolation?_inside {R : Span → Span → Prop} {p : Program}
    (h : ∀ d ∈ p.declarations, (Node.declaration d).Nested R ∧ R d.span p.span) {outer inner : Span}
    (hv : p.spanViolation? = some (outer, inner)) :
    R inner outer ∧ outer.contains inner = false := by
  rw [spanViolation?_eq] at hv
  obtain ⟨⟨parent, m⟩, hfound, heq⟩ := Option.map_eq_some_iff.1 hv
  cases heq
  obtain ⟨d, hd, hm⟩ := List.mem_flatMap.1 (List.mem_of_find?_eq_some hfound)
  refine ⟨?_, by simpa using List.find?_some hfound⟩
  rcases Node.mem_walkWithParents hm with ⟨rfl, rfl⟩ | ⟨q, hq, rfl, hc⟩
  · exact (h d hd).2
  · exact ((h d hd).1 q hq).2 m hc

/-- A program whose declarations are nested inside its span has no violation. -/
theorem Program.spanViolation?_eq_none {p : Program}
    (h : ∀ d ∈ p.declarations, (Node.declaration d).Nested Span.Within ∧ d.span.Within p.span) :
    p.spanViolation? = none := by
  refine Option.eq_none_iff_forall_ne_some.2 fun v hv => ?_
  obtain ⟨hinside, houtside⟩ := spanViolation?_inside h hv
  exact absurd hinside.contains (by rw [houtside]; decide)

end FluxFront
