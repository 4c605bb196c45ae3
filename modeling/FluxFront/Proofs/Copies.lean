import FluxFront.Proofs.Places

/-!
# Copies with fresh identities

What a copy has in common with its original, and what it has not: the same spans and as many nodes,
new identities for statements, expressions and types, given out one after the other, and the old
identities for declarations.

* **Crux**: since declarations keep their identities, a copy of something that contains a declaration
  repeats that declaration's identity (`Copied.declIds`).
-/

namespace FluxFront

namespace Node

/-! ## Identities on a walk -/

/-- The identities of the statements, expressions and types from a node down. -/
def plainIds (n : Node) : List NodeId :=
  ((Descent.full.walk n).filter (·.sort != .declaration)).map id

/-- The identities of the declarations from a node down. -/
def declIds (n : Node) : List NodeId :=
  ((Descent.full.walk n).filter (·.sort == .declaration)).map id

theorem plainIds_of_declaration {n : Node} (h : n.sort = .declaration) :
    n.plainIds = n.children.flatMap plainIds := by
  unfold plainIds
  rw [Descent.walk_eq, List.filter_cons_of_neg (by simp [h]), List.filter_flatMap, List.map_flatMap]
  rfl

theorem plainIds_of_plain {n : Node} (h : n.sort ≠ .declaration) :
    n.plainIds = n.id :: n.children.flatMap plainIds := by
  unfold plainIds
  rw [Descent.walk_eq, List.filter_cons_of_pos (by simpa using h), List.map_cons,
    List.filter_flatMap, List.map_flatMap]
  rfl

theorem declIds_of_declaration {n : Node} (h : n.sort = .declaration) :
    n.declIds = n.id :: n.children.flatMap declIds := by
  unfold declIds
  rw [Descent.walk_eq, List.filter_cons_of_pos (by simp [h]), List.map_cons, List.filter_flatMap,
    List.map_flatMap]
  rfl

theorem declIds_of_plain {n : Node} (h : n.sort ≠ .declaration) :
    n.declIds = n.children.flatMap declIds := by
  unfold declIds
  rw [Descent.walk_eq, List.filter_cons_of_neg (by simpa using h), List.filter_flatMap,
    List.map_flatMap]
  rfl

end Node

/-! ## Copies -/

theorem Edit.freshCopy_keepsShape : Edit.freshCopy.KeepsShape := ⟨fun _ => rfl, rfl⟩

/-- A declaration keeps its label. -/
theorem Edit.freshCopy_declaration (label : Label) (first : NodeId) :
    Edit.freshCopy.label .declaration label first = (label, first) := rfl

/-- Any other node takes the next identity. -/
theorem Edit.freshCopy_plain {sort : NodeSort} (h : sort ≠ .declaration) (label : Label)
    (first : NodeId) :
    Edit.freshCopy.label sort label first = ({ label with id := first }, first + 1) := by
  cases sort with
  | declaration => exact absurd rfl h
  | statement | expression | type => rfl

/-- The nodes `copies` are copies of `ns` that took the identities from `first` up to `next`. -/
structure Copied (ns : List Node) (first : Nat) (copies : List Node) (next : Nat) : Prop where
  spans : copies.map Node.span = ns.map Node.span
  first_le : first ≤ next
  plainIds : copies.flatMap Node.plainIds = List.range' first (next - first)
  declIds : copies.flatMap Node.declIds = ns.flatMap Node.declIds
  length : (copies.flatMap Descent.full.walk).length = (ns.flatMap Descent.full.walk).length
  nested (R : Span → Span → Prop) : (∀ n ∈ ns, n.Nested R) → ∀ c ∈ copies, c.Nested R

namespace Copied

theorem nil (first : Nat) : Copied [] first [] first where
  spans := rfl
  first_le := Nat.le_refl _
  plainIds := by simp
  declIds := rfl
  length := rfl
  nested _ _ := nofun

theorem cons {n c : Node} {ns copies : List Node} {first middle next : Nat}
    (h : Copied [n] first [c] middle) (hs : Copied ns middle copies next) :
    Copied (n :: ns) first (c :: copies) next where
  spans := by
    rw [List.map_cons, List.map_cons, hs.spans]
    exact congrArg (· ++ ns.map Node.span) h.spans
  first_le := Nat.le_trans h.first_le hs.first_le
  plainIds := by
    have hc : c.plainIds = List.range' first (middle - first) := by simpa using h.plainIds
    have hle := h.first_le
    have hle' := hs.first_le
    have hsum : next - first = (middle - first) + (next - middle) := by omega
    have hmid : middle = first + (middle - first) := by omega
    rw [List.flatMap_cons, hc, hs.plainIds, hsum, ← List.range'_append_1, ← hmid]
  declIds := by
    have hc : c.declIds = n.declIds := by simpa using h.declIds
    rw [List.flatMap_cons, List.flatMap_cons, hc, hs.declIds]
  length := by
    have hc : (Descent.full.walk c).length = (Descent.full.walk n).length := by
      simpa using h.length
    rw [List.flatMap_cons, List.flatMap_cons, List.length_append, List.length_append, hc, hs.length]
  nested R hn := by
    rw [List.forall_mem_cons] at hn ⊢
    exact ⟨h.nested R (by simpa using hn.1) c List.mem_cons_self, hs.nested R hn.2⟩

/-- A node is copied by giving it its label and copying what is below it. -/
theorem node {n c : Node} {first next : Nat}
    (h : Node.Edited Edit.freshCopy n first c next)
    (below : Copied n.children (Edit.freshCopy.label n.sort n.label first).2 c.children next) :
    Copied [n] first [c] next := by
  have span : c.span = n.span := by
    refine (congrArg Label.span h.label).trans ?_
    by_cases hn : n.sort = .declaration
    · rw [hn, Edit.freshCopy_declaration]
      rfl
    · rw [Edit.freshCopy_plain hn]
      rfl
  have nested : ∀ R, (∀ m ∈ [n], m.Nested R) → ∀ m ∈ [c], m.Nested R := by
    simp only [List.forall_mem_singleton]
    intro R hn
    obtain ⟨⟨hle, hwithin⟩, hbelow⟩ := Node.nested_iff.1 hn
    refine Node.nested_iff.2 ⟨⟨by rwa [span], fun m hm => ?_⟩, below.nested R hbelow⟩
    have hmem : m.span ∈ n.children.map Node.span := by
      rw [← below.spans]
      exact List.mem_map_of_mem hm
    obtain ⟨o, ho, hspan⟩ := List.mem_map.1 hmem
    rw [← hspan, span]
    exact hwithin o ho
  have length : ([c].flatMap Descent.full.walk).length = ([n].flatMap Descent.full.walk).length := by
    simp only [List.flatMap_singleton]
    rw [Descent.walk_eq, Descent.walk_eq, List.length_cons, List.length_cons]
    exact congrArg (· + 1) below.length
  by_cases hn : n.sort = .declaration
  · have hc : c.sort = .declaration := h.sort.trans hn
    have hid : c.id = n.id := by
      refine (congrArg Label.id h.label).trans ?_
      rw [hn, Edit.freshCopy_declaration]
      rfl
    rw [hn, Edit.freshCopy_declaration] at below
    refine ⟨congrArg ([·]) span, below.first_le, ?_, ?_, length, nested⟩
    · simpa [Node.plainIds_of_declaration hc] using below.plainIds
    · simpa [Node.declIds_of_declaration hc, Node.declIds_of_declaration hn, hid] using
        below.declIds
  · have hc : c.sort ≠ .declaration := by rwa [h.sort]
    have hid : c.id = first := by
      refine (congrArg Label.id h.label).trans ?_
      rw [Edit.freshCopy_plain hn]
    rw [Edit.freshCopy_plain hn] at below
    have hle : first + 1 ≤ next := below.first_le
    refine ⟨congrArg ([·]) span, by omega, ?_, ?_, length, nested⟩
    · have hsucc : next - first = (next - (first + 1)) + 1 := by omega
      simp only [List.flatMap_singleton]
      rw [Node.plainIds_of_plain hc, hid, below.plainIds, hsucc, List.range'_succ]
    · simpa [Node.declIds_of_plain hc, Node.declIds_of_plain hn] using below.declIds

end Copied

/-- A child of a copy is the copy of a child. -/
theorem Node.exists_original {n c : Node} {first : Nat}
    (hc : c ∈ (n.edit Edit.freshCopy first).1.children) :
    ∃ m ∈ n.children, ∃ first, c = (m.edit Edit.freshCopy first).1 := by
  have run : ∀ (ns : List Node) (first : Nat), c ∈ (ns.mapM (edit Edit.freshCopy) first).1 →
      ∃ m ∈ ns, ∃ first, c = (m.edit Edit.freshCopy first).1 := by
    intro ns
    induction ns with
    | nil => exact fun _ hc => absurd hc List.not_mem_nil
    | cons m ms ih =>
      intro first hc
      rw [List.mapM_cons] at hc
      rcases List.mem_cons.1 hc with rfl | hc
      · exact ⟨m, List.mem_cons_self, first, rfl⟩
      · obtain ⟨o, ho, hcopy⟩ := ih _ hc
        exact ⟨o, List.mem_cons_of_mem m ho, hcopy⟩
  have hcopy := n.edited Edit.freshCopy_keepsShape first
  apply run n.children (Edit.freshCopy.label n.sort n.label first).2
  rw [hcopy.children]
  exact hc

/-- Editing for a copy copies. -/
theorem Node.copied (n : Node) (first : Nat) :
    Copied [n] first [(n.edit Edit.freshCopy first).1] (n.edit Edit.freshCopy first).2 := by
  induction n using descend generalizing first with
  | h n ih =>
    have h := n.edited Edit.freshCopy_keepsShape first
    refine .node h ?_
    -- the children are copied from left to right
    have run : ∀ (ns : List Node), (∀ m ∈ ns, ∀ first,
        Copied [m] first [(m.edit Edit.freshCopy first).1] (m.edit Edit.freshCopy first).2) →
        ∀ first, Copied ns first (ns.mapM (edit Edit.freshCopy) first).1
          (ns.mapM (edit Edit.freshCopy) first).2 := by
      intro ns
      induction ns with
      | nil => exact fun _ first => .nil first
      | cons m ms ihs =>
        intro hms first
        rw [List.forall_mem_cons] at hms
        rw [List.mapM_cons]
        exact .cons (hms.1 first) (ihs hms.2 _)
    have hb := run n.children ih (Edit.freshCopy.label n.sort n.label first).2
    rw [h.children] at hb
    exact hb

end FluxFront
