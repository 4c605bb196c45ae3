import FluxFront.Proofs.ProgramProductions

/-!
# Identities are given out once

Every node of a parse takes a fresh identity, but declarations inside a type that is shared by several
variables are repeated in its copies.

* **Specification**: the identities of statements, expressions and types are distinct, none of them is
  the identity of a declaration, and all are below the counter (`parse_plain_ids`).  Declarations are
  distinct exactly if no type with a declaration inside was copied (`parse_declaration_ids`).
* **Invariant**: declarations outside of types are as good as plain nodes: each identity occurs at most
  once among both, and then not inside types.  This is what lets a declared variable turn into a
  statement.
* **Crux**: occurrences of one identity are counted, so that every step of the induction over what a
  parse can build is arithmetic.
-/

namespace FluxFront

namespace Node

/-! ## Inside and outside of types -/

/-- From a node down to types and not below them. -/
def surface : Descent := .entering (·.sort != .type)

/-- The identities of the declarations from a node down that are not inside a type. -/
def outerIds (n : Node) : List NodeId :=
  ((surface.walk n).filter (·.sort == .declaration)).map id

/-- The identities of the declarations from a node down that are inside a type. -/
def innerIds (n : Node) : List NodeId :=
  (surface.walk n).flatMap fun m => if m.sort = .type then m.declIds else []

theorem surface_walk_of_type {n : Node} (h : n.sort = .type) : surface.walk n = [n] := by
  rw [Descent.walk_eq]
  simp [surface, Descent.entering, h]

theorem surface_walk {n : Node} (h : n.sort ≠ .type) :
    surface.walk n = n :: n.children.flatMap surface.walk := by
  rw [Descent.walk_eq]
  simp [surface, Descent.entering, h]

theorem outerIds_of_type {n : Node} (h : n.sort = .type) : n.outerIds = [] := by
  unfold outerIds
  rw [surface_walk_of_type h]
  simp [h]

theorem outerIds_of_declaration {n : Node} (h : n.sort = .declaration) :
    n.outerIds = n.id :: n.children.flatMap outerIds := by
  unfold outerIds
  rw [surface_walk (by simp [h]), List.filter_cons_of_pos (by simp [h]), List.map_cons,
    List.filter_flatMap, List.map_flatMap]

theorem outerIds_of_plain {n : Node} (h : n.sort ≠ .type) (h' : n.sort ≠ .declaration) :
    n.outerIds = n.children.flatMap outerIds := by
  unfold outerIds
  rw [surface_walk h, List.filter_cons_of_neg (by simpa using h'), List.filter_flatMap,
    List.map_flatMap]

theorem innerIds_of_type {n : Node} (h : n.sort = .type) : n.innerIds = n.declIds := by
  unfold innerIds
  rw [surface_walk_of_type h]
  simp [h]

theorem innerIds_of_other {n : Node} (h : n.sort ≠ .type) :
    n.innerIds = n.children.flatMap innerIds := by
  unfold innerIds
  rw [surface_walk h, List.flatMap_cons, if_neg h, List.nil_append, List.flatMap_assoc]

/-! ## Counting -/

/-- How often an identity belongs to a statement, an expression or a type of some trees. -/
def plainCount (a : Nat) (ns : List Node) : Nat := (ns.flatMap plainIds).count a

/-- How often an identity belongs to a declaration. -/
def declCount (a : Nat) (ns : List Node) : Nat := (ns.flatMap declIds).count a

/-- How often an identity belongs to a declaration outside of types. -/
def outerCount (a : Nat) (ns : List Node) : Nat := (ns.flatMap outerIds).count a

/-- How often an identity belongs to a declaration inside a type. -/
def innerCount (a : Nat) (ns : List Node) : Nat := (ns.flatMap innerIds).count a

theorem count_singleton_eq (b a : Nat) : [b].count a = if b = a then 1 else 0 := by
  rw [List.count_singleton]
  simp only [beq_iff_eq]

section Counts

variable (a : Nat) (xs ys : List Node)

@[simp] theorem plainCount_append :
    plainCount a (xs ++ ys) = plainCount a xs + plainCount a ys := by
  simp [plainCount]

@[simp] theorem declCount_append : declCount a (xs ++ ys) = declCount a xs + declCount a ys := by
  simp [declCount]

@[simp] theorem outerCount_append :
    outerCount a (xs ++ ys) = outerCount a xs + outerCount a ys := by
  simp [outerCount]

@[simp] theorem innerCount_append :
    innerCount a (xs ++ ys) = innerCount a xs + innerCount a ys := by
  simp [innerCount]

@[simp] theorem plainCount_nil : plainCount a [] = 0 := rfl
@[simp] theorem declCount_nil : declCount a [] = 0 := rfl
@[simp] theorem outerCount_nil : outerCount a [] = 0 := rfl
@[simp] theorem innerCount_nil : innerCount a [] = 0 := rfl

end Counts

/-- How the counts at a node come from those below it. -/
structure Counted (a : Nat) (n : Node) : Prop where
  declaration : n.sort = .declaration → plainCount a [n] = plainCount a n.children
    ∧ outerCount a [n] = [n.id].count a + outerCount a n.children
    ∧ innerCount a [n] = innerCount a n.children
  plain : n.sort ≠ .declaration → n.sort ≠ .type →
    plainCount a [n] = [n.id].count a + plainCount a n.children
    ∧ outerCount a [n] = outerCount a n.children ∧ innerCount a [n] = innerCount a n.children
  type : n.sort = .type → plainCount a [n] = [n.id].count a + plainCount a n.children
    ∧ outerCount a [n] = 0 ∧ innerCount a [n] = declCount a n.children

theorem counted (a : Nat) (n : Node) : Counted a n where
  declaration h := by
    have ht : n.sort ≠ .type := by simp [h]
    simp only [plainCount, outerCount, innerCount, List.flatMap_singleton]
    rw [plainIds_of_declaration h, outerIds_of_declaration h, innerIds_of_other ht,
      ← List.singleton_append, List.count_append]
    exact ⟨rfl, rfl, rfl⟩
  plain h ht := by
    simp only [plainCount, outerCount, innerCount, List.flatMap_singleton]
    rw [plainIds_of_plain h, outerIds_of_plain ht h, innerIds_of_other ht,
      ← List.singleton_append, List.count_append]
    exact ⟨rfl, rfl, rfl⟩
  type h := by
    have hd : n.sort ≠ .declaration := by simp [h]
    simp only [plainCount, outerCount, innerCount, declCount, List.flatMap_singleton]
    rw [plainIds_of_plain hd, outerIds_of_type h, innerIds_of_type h, declIds_of_plain hd,
      ← List.singleton_append, List.count_append]
    exact ⟨rfl, rfl, rfl⟩

/-- A declaration is either inside a type or not. -/
theorem declCount_eq (a : Nat) (ns : List Node) :
    declCount a ns = outerCount a ns + innerCount a ns := by
  induction ns using descendAll with
  | nil => rfl
  | cons n more hn hmore =>
    rw [← List.singleton_append, declCount_append, outerCount_append, innerCount_append]
    omega
  | node n below =>
    have hc := counted a n
    by_cases hd : n.sort = .declaration
    · obtain ⟨-, ho, hi⟩ := hc.declaration hd
      have hn : declCount a [n] = [n.id].count a + declCount a n.children := by
        simp only [declCount, List.flatMap_singleton]
        rw [declIds_of_declaration hd, ← List.singleton_append, List.count_append]
      omega
    · have hn : declCount a [n] = declCount a n.children := by
        simp only [declCount, List.flatMap_singleton]
        rw [declIds_of_plain hd]
      by_cases ht : n.sort = .type
      · obtain ⟨-, ho, hi⟩ := hc.type ht
        omega
      · obtain ⟨-, ho, hi⟩ := hc.plain hd ht
        omega

/-- A type anywhere below some nodes has its declarations among those inside types. -/
theorem declCount_le_innerCount (a : Nat) {ns : List Node} {m : Node} (hm : m.sort = .type)
    (h : m ∈ ns.flatMap Descent.full.walk) : declCount a [m] ≤ innerCount a ns := by
  induction ns using descendAll with
  | nil => exact absurd h List.not_mem_nil
  | cons n more hn hmore =>
    rw [List.flatMap_cons, List.mem_append] at h
    rw [← List.singleton_append (x := n), innerCount_append]
    rcases h with h | h
    · exact Nat.le_add_right_of_le (hn (by simpa using h))
    · exact Nat.le_add_left_of_le (hmore h)
  | node n below =>
    have hc := counted a n
    rw [List.flatMap_singleton, Descent.walk_eq, List.mem_cons] at h
    rcases h with rfl | h
    · obtain ⟨-, ho, -⟩ := hc.type hm
      have := declCount_eq a [m]
      omega
    · have hbelow := below h
      by_cases ht : n.sort = .type
      · obtain ⟨-, -, hi⟩ := hc.type ht
        have := declCount_eq a n.children
        omega
      · by_cases hd : n.sort = .declaration
        · obtain ⟨-, -, hi⟩ := hc.declaration hd
          omega
        · obtain ⟨-, -, hi⟩ := hc.plain hd ht
          omega

/-- How the counts change when a node is put over its children: the node is counted, and declarations
outside of types may come to be inside one. -/
theorem counts_over (a : Nat) (before : List Node) (n : Node) :
    ∃ u, u ≤ outerCount a (before ++ n.children)
      ∧ plainCount a (before ++ [n]) + outerCount a (before ++ [n]) + u
        = plainCount a (before ++ n.children) + outerCount a (before ++ n.children)
          + [n.id].count a
      ∧ innerCount a (before ++ [n]) = innerCount a (before ++ n.children) + u := by
  simp only [plainCount_append, outerCount_append, innerCount_append]
  by_cases hd : n.sort = .declaration
  · obtain ⟨hp, ho, hi⟩ := (counted a n).declaration hd
    exact ⟨0, by omega, by omega, by omega⟩
  · by_cases ht : n.sort = .type
    · obtain ⟨hp, ho, hi⟩ := (counted a n).type ht
      have hsum := declCount_eq a n.children
      exact ⟨outerCount a n.children, by omega, by omega, by omega⟩
    · obtain ⟨hp, ho, hi⟩ := (counted a n).plain hd ht
      exact ⟨0, by omega, by omega, by omega⟩

/-! ## Types among nodes -/

/-- The types from some nodes down. -/
def typesOf (ns : List Node) : List Ty :=
  (ns.flatMap Descent.full.walk).filterMap fun
    | type t => some t
    | _ => none

@[simp] theorem typesOf_append (xs ys : List Node) : typesOf (xs ++ ys) = typesOf xs ++ typesOf ys := by
  simp [typesOf]

theorem mem_typesOf {t : Ty} {ns : List Node} :
    t ∈ typesOf ns ↔ .type t ∈ ns.flatMap Descent.full.walk := by
  simp only [typesOf, List.mem_filterMap]
  constructor
  · rintro ⟨n, hn, ht⟩
    split at ht
    · cases ht
      exact hn
    · cases ht
  · exact fun h => ⟨_, h, rfl⟩

theorem typesOf_type (t : Ty) : typesOf [.type t] = t :: typesOf (Node.type t).children := by
  simp only [typesOf, List.flatMap_singleton]
  rw [Descent.walk_eq, List.filterMap_cons]
  rfl

theorem typesOf_other {n : Node} (h : n.sort ≠ .type) : typesOf [n] = typesOf n.children := by
  simp only [typesOf, List.flatMap_singleton]
  rw [Descent.walk_eq, List.filterMap_cons]
  cases n with
  | type t => exact absurd rfl h
  | declaration | statement | expression => rfl

/-- A node below others has no more nodes than all of them. -/
theorem length_walk_le {ns : List Node} {m : Node} (h : m ∈ ns.flatMap Descent.full.walk) :
    (Descent.full.walk m).length ≤ (ns.flatMap Descent.full.walk).length := by
  induction ns using descendAll with
  | nil => exact absurd h List.not_mem_nil
  | cons n more hn hmore =>
    rw [List.flatMap_cons, List.length_append]
    rw [List.flatMap_cons, List.mem_append] at h
    rcases h with h | h
    · exact Nat.le_add_right_of_le (by simpa using hn (by simpa using h))
    · exact Nat.le_add_left_of_le (hmore h)
  | node n below =>
    rw [List.flatMap_singleton] at h ⊢
    rw [Descent.walk_eq, List.mem_cons] at h
    rcases h with rfl | h
    · exact Nat.le_refl _
    · rw [Descent.walk_eq _ n, List.length_cons]
      exact Nat.le_succ_of_le (below h)

end Node

/-- Whatever is below a node that is below others is below them. -/
theorem Node.mem_walk_trans {ns : List Node} {m x : Node} (hm : m ∈ ns.flatMap Descent.full.walk)
    (hx : x ∈ Descent.full.walk m) : x ∈ ns.flatMap Descent.full.walk := by
  induction ns using descendAll with
  | nil => exact absurd hm List.not_mem_nil
  | cons n more hn hmore =>
    rw [List.flatMap_cons, List.mem_append] at hm ⊢
    rcases hm with hm | hm
    · exact .inl (by simpa using hn (by simpa using hm))
    · exact .inr (hmore hm)
  | node n below =>
    rw [List.flatMap_singleton] at hm ⊢
    rw [Descent.walk_eq, List.mem_cons] at hm
    rcases hm with rfl | hm
    · exact hx
    · rw [Descent.walk_eq]
      exact List.mem_cons_of_mem _ (below hm)

/-! ## Shared types -/

/-- The type is what copying another one gives. -/
def Ty.IsCopyOf (c t : Ty) : Prop := c = (t.edit Edit.freshCopy c.id).1

/-- One of two types is a copy of the other, and a declaration is inside. -/
def Ty.Shares (t c : Ty) : Prop := (c.IsCopyOf t ∨ t.IsCopyOf c) ∧ (Node.type t).declIds ≠ []

/-- No two types from some nodes down share a declaration. -/
def Node.Unshared (ns : List Node) : Prop := (typesOf ns).Pairwise fun t c => ¬ t.Shares c

namespace Ty

theorem isCopyOf_edit (t : Ty) (first : NodeId) : (t.edit Edit.freshCopy first).1.IsCopyOf t := by
  have hid : (t.edit Edit.freshCopy first).1.id = first := by
    have h := ((Node.type t).edited Edit.freshCopy_keepsShape first).label
    exact congrArg Label.id h
  rw [IsCopyOf, hid]

theorem IsCopyOf.copied {c t : Ty} (h : c.IsCopyOf t) :
    Copied [.type t] c.id [.type c] (t.edit Edit.freshCopy c.id).2 := by
  have := (Node.type t).copied c.id
  rw [show ((Node.type t).edit Edit.freshCopy c.id).1 = .type c from congrArg Node.type h.symm]
    at this
  exact this

theorem IsCopyOf.declIds {c t : Ty} (h : c.IsCopyOf t) :
    (Node.type c).declIds = (Node.type t).declIds := by
  simpa using h.copied.declIds

theorem Shares.declIds {t c : Ty} (h : t.Shares c) :
    (Node.type c).declIds = (Node.type t).declIds := by
  rcases h.1 with h | h
  · exact h.declIds
  · exact h.declIds.symm

theorem Shares.length {t c : Ty} (h : t.Shares c) :
    (Descent.full.walk (.type c)).length = (Descent.full.walk (.type t)).length := by
  rcases h.1 with h | h
  · simpa using h.copied.length
  · simpa using h.copied.length.symm

theorem Shares.symm {t c : Ty} (h : t.Shares c) : c.Shares t :=
  ⟨h.1.symm, by rw [h.declIds]; exact h.2⟩

end Ty

namespace Node

theorem Unshared.left {xs ys : List Node} (h : Unshared (xs ++ ys)) : Unshared xs := by
  unfold Unshared at h
  rw [typesOf_append, List.pairwise_append] at h
  exact h.1

theorem Unshared.right {xs ys : List Node} (h : Unshared (xs ++ ys)) : Unshared ys := by
  unfold Unshared at h
  rw [typesOf_append, List.pairwise_append] at h
  exact h.2.1

theorem Unshared.perm {xs ys : List Node} (h : Unshared xs) (hp : xs.Perm ys) : Unshared ys := by
  have ht : (typesOf xs).Perm (typesOf ys) := (hp.flatMap_right _).filterMap _
  exact (ht.pairwise_iff fun hts hs => hts hs.symm).1 h

/-- What holds of a node and those before it holds of its children and those before it. -/
theorem Unshared.children {before : List Node} {n : Node} (h : Unshared (before ++ [n])) :
    Unshared (before ++ n.children) := by
  unfold Unshared at *
  refine h.sublist ?_
  rw [typesOf_append, typesOf_append]
  refine .append_left ?_ _
  by_cases ht : n.sort = .type
  · cases n with
    | type t =>
      rw [typesOf_type]
      exact List.sublist_cons_self _ _
    | declaration | statement | expression => exact absurd ht (by simp [sort])
  · exact typesOf_other ht ▸ List.Sublist.refl _

/-- A type never is a copy of something inside it. -/
theorem Unshared.node {n : Node} (h : Unshared n.children) : Unshared [n] := by
  unfold Unshared at *
  cases n with
  | type t =>
    rw [typesOf_type, List.pairwise_cons]
    refine ⟨fun c hc hs => ?_, h⟩
    have hle := length_walk_le (mem_typesOf.1 hc)
    have hlen := hs.length
    rw [Descent.walk_eq _ (.type t), List.length_cons] at hlen
    have : (Descent.full.walk (.type c)).length ≤
        ((Descent.full.next (.type t)).flatMap Descent.full.walk).length := hle
    omega
  | declaration | statement | expression =>
    rwa [typesOf_other (by simp [sort])]

theorem mem_declIds {ns : List Node} {i : NodeId} :
    i ∈ ns.flatMap declIds ↔
      ∃ m ∈ ns.flatMap Descent.full.walk, m.sort = .declaration ∧ m.id = i := by
  simp only [declIds, List.mem_flatMap, List.mem_map, List.mem_filter, beq_iff_eq]
  grind

/-- Where declarations are distinct, no types share one. -/
theorem unshared_of_nodup {ns : List Node} (h : (ns.flatMap declIds).Nodup) : Unshared ns := by
  induction ns using descendAll with
  | nil => exact .nil
  | cons n more hn hmore =>
    rw [List.flatMap_cons, List.nodup_append] at h
    have hone : Unshared [n] := hn (by simpa using h.1)
    unfold Unshared
    rw [← List.singleton_append, typesOf_append, List.pairwise_append]
    refine ⟨hone, hmore h.2.1, fun t ht c hc hs => ?_⟩
    -- a declaration inside both would occur on both sides
    obtain ⟨i, hi⟩ := List.exists_mem_of_ne_nil _ hs.2
    have inside : ∀ (u : Ty) (ns : List Node), u ∈ typesOf ns → i ∈ (Node.type u).declIds →
        i ∈ ns.flatMap declIds := by
      intro u ns hu hi
      have hi' : i ∈ [Node.type u].flatMap declIds := by simpa using hi
      obtain ⟨m, hm, hd⟩ := mem_declIds.1 hi'
      exact mem_declIds.2 ⟨m, mem_walk_trans (mem_typesOf.1 hu) (by simpa using hm), hd⟩
    have hleft := inside t [n] ht hi
    have hright := inside c more hc (by rwa [hs.declIds])
    exact h.2.2 i (by simpa using hleft) i hright rfl
  | node n below =>
    refine .node (below ?_)
    rw [List.flatMap_singleton] at h
    by_cases hd : n.sort = .declaration
    · rw [declIds_of_declaration hd, List.nodup_cons] at h
      exact h.2
    · rwa [declIds_of_plain hd] at h

end Node

namespace Grammar

open Node (plainCount declCount outerCount innerCount Unshared declCount_eq)

/-! ## The invariant -/

/-- How many identities were given out. -/
def State.issued (s : State) : Nat := s.nextId

/-- The identities of nodes that were built between two states. -/
structure Fresh (s : State) (ns : List Node) (s' : State) : Prop where
  issued_le : s.issued ≤ s'.issued
  /-- An identity occurs once outside of types, declarations and other nodes taken together. -/
  own_le (a : Nat) : plainCount a ns + outerCount a ns ≤ 1
  /-- And then no declaration inside a type has it. -/
  apart (a : Nat) : plainCount a ns + outerCount a ns = 1 → innerCount a ns = 0
  range (a : Nat) : 0 < plainCount a ns + outerCount a ns + innerCount a ns →
    s.issued ≤ a ∧ a < s'.issued
  /-- Without shared types, the declarations inside types are distinct, too. -/
  inner_le : Unshared ns → ∀ a : Nat, innerCount a ns ≤ 1

theorem Step.issued_eq {s s' : State} (h : Step s s') : s'.issued = s.issued := by
  cases h with
  | advance =>
    unfold State.advanced
    split
    · rfl
    · split <;> rfl
  | split =>
    unfold State.splitShift
    split
    · split <;> rfl
    · rfl
  | reach => rfl
  | quiet _ _ _ nextId => exact nextId

theorem Steps.issued_eq {s s' : State} (h : Steps s s') : s'.issued = s.issued := by
  induction h with
  | refl => rfl
  | tail _ last ih => rw [last.issued_eq, ih]

namespace Fresh

theorem steps {s s' : State} (h : Steps s s') : Fresh s [] s' where
  issued_le := Nat.le_of_eq h.issued_eq.symm
  own_le _ := Nat.zero_le _
  apart _ _ := rfl
  range _ h := absurd h (by simp)
  inner_le _ _ := Nat.zero_le _

theorem append {s s₁ s₂ : State} {xs ys : List Node} (h₁ : Fresh s xs s₁) (h₂ : Fresh s₁ ys s₂) :
    Fresh s (xs ++ ys) s₂ := by
  have hle₁ := h₁.issued_le
  have hle₂ := h₂.issued_le
  refine ⟨Nat.le_trans hle₁ hle₂, fun a => ?_, fun a => ?_, fun a => ?_, fun hu a => ?_⟩
  all_goals
    simp only [Node.plainCount_append, Node.outerCount_append, Node.innerCount_append]
    have ho₁ := h₁.own_le a
    have ho₂ := h₂.own_le a
    have hr₁ := h₁.range a
    have hr₂ := h₂.range a
    have ha₁ := h₁.apart a
    have ha₂ := h₂.apart a
  · omega
  · omega
  · omega
  · have hi₁ := h₁.inner_le hu.left a
    have hi₂ := h₂.inner_le hu.right a
    omega

/-- Nodes that only lose identities, and none of them inside types, stay fresh. -/
theorem of_counts {s s' : State} {xs ys : List Node} (h : Fresh s xs s')
    (own : ∀ a, plainCount a ys + outerCount a ys ≤ plainCount a xs + outerCount a xs)
    (inner : ∀ a, innerCount a ys = innerCount a xs) (types : Unshared ys → Unshared xs) :
    Fresh s ys s' := by
  refine ⟨h.issued_le, fun a => ?_, fun a => ?_, fun a => ?_, fun hu a => ?_⟩
  · exact Nat.le_trans (own a) (h.own_le a)
  · have hown := own a
    have hle := h.own_le a
    have ha := h.apart a
    have hi := inner a
    omega
  · have hown := own a
    have hr := h.range a
    have hi := inner a
    omega
  · rw [inner a]
    exact h.inner_le (types hu) a

theorem perm {s s' : State} {xs ys : List Node} (h : Fresh s xs s') (hp : xs.Perm ys) :
    Fresh s ys s' := by
  have count : ∀ (f : Node → List NodeId) (a : Nat),
      (ys.flatMap f).count a = (xs.flatMap f).count a :=
    fun f a => ((hp.flatMap_right f).count_eq a).symm
  refine h.of_counts (fun a => ?_) (fun a => count _ a) fun hu => hu.perm hp.symm
  unfold plainCount outerCount
  exact Nat.le_of_eq (by rw [count, count])

/-- A node with the next identity over nodes that are there. -/
theorem node {s s' : State} {before : List Node} {n : Node} (h : Fresh s (before ++ n.children) s')
    (id : n.id = s'.nextId) : Fresh s (before ++ [n]) s'.stamped := by
  have hle := h.issued_le
  have hnext : s'.stamped.issued = s'.issued + 1 := rfl
  have hid : n.id = s'.issued := id
  refine ⟨by omega, fun a => ?_, fun a => ?_, fun a => ?_, fun hu a => ?_⟩
  all_goals
    obtain ⟨u, hu', hown, hinner⟩ := Node.counts_over a before n
    have ho := h.own_le a
    have hr := h.range a
    have ha := h.apart a
    rw [hid, Node.count_singleton_eq] at hown
    split at hown
  · omega
  · omega
  · omega
  · omega
  · omega
  · omega
  · have hi := h.inner_le hu.children a
    omega
  · have hi := h.inner_le hu.children a
    omega

/-- A copy of a type among nodes that are there. -/
theorem copy {s s' : State} {before : List Node} {t : Ty} (h : Fresh s before s')
    (ht : .type t ∈ before.flatMap Descent.full.walk) :
    Fresh s (before ++ [.type (t.edit Edit.freshCopy s'.nextId).1])
      { s' with nextId := (t.edit Edit.freshCopy s'.nextId).2 } := by
  have hc : Copied [.type t] s'.issued [.type (t.edit Edit.freshCopy s'.nextId).1]
      (t.edit Edit.freshCopy s'.nextId).2 := (Node.type t).copied s'.issued
  generalize hcopy : (t.edit Edit.freshCopy s'.nextId).1 = c at *
  generalize (t.edit Edit.freshCopy s'.nextId).2 = next at *
  have hle := h.issued_le
  have hle' : s'.issued ≤ next := hc.first_le
  have hnext : ({ s' with nextId := next } : State).issued = next := rfl
  have hplain : ∀ a : Nat, plainCount a [.type c] ≤ 1
      ∧ (0 < plainCount a [.type c] → s'.issued ≤ a ∧ a < next) := by
    intro a
    unfold plainCount
    rw [hc.plainIds]
    refine ⟨List.nodup_iff_count.1 List.nodup_range' a, fun hpos => ?_⟩
    have hmem := List.mem_range'_1.1 (List.count_pos_iff.1 hpos)
    omega
  have hdecl : ∀ a : Nat, outerCount a [.type c] = 0 ∧ innerCount a [.type c] ≤ innerCount a before
      := by
    intro a
    obtain ⟨-, ho, -⟩ := (Node.counted a (.type c)).type rfl
    have hle := Node.declCount_le_innerCount a rfl ht
    have heq : declCount a [.type c] = declCount a [.type t] := congrArg (List.count a) hc.declIds
    have hsum := declCount_eq a [.type c]
    omega
  refine ⟨by omega, fun a => ?_, fun a => ?_, fun a => ?_, fun hu a => ?_⟩
  all_goals
    simp only [Node.plainCount_append, Node.outerCount_append, Node.innerCount_append]
    have ho := h.own_le a
    have hr := h.range a
    have ha := h.apart a
    obtain ⟨hp, hpr⟩ := hplain a
    obtain ⟨hd, hd'⟩ := hdecl a
  · omega
  · omega
  · omega
  · have hi := h.inner_le hu.left a
    -- a declaration in the copy would be shared with the original
    have none : (Node.type t).declIds = [] := by
      refine Classical.byContradiction fun hne => ?_
      unfold Unshared at hu
      rw [Node.typesOf_append, List.pairwise_append] at hu
      refine hu.2.2 t (Node.mem_typesOf.2 ht) c ?_ ⟨.inl ?_, hne⟩
      · rw [Node.typesOf_type]
        exact List.mem_cons_self
      · rw [← hcopy]
        exact t.isCopyOf_edit _
    have hzero : innerCount a [.type c] = 0 := by
      have heq : declCount a [.type c] = declCount a [.type t] := congrArg (List.count a) hc.declIds
      have hsum := declCount_eq a [.type c]
      have : declCount a [.type t] = 0 := by
        unfold declCount
        rw [List.flatMap_singleton, none, List.count_nil]
      omega
    omega

/-- A pointer becomes a pointer to a function: its pointee and the parameters move below a new type. -/
theorem repoint {s s₁ s₂ : State} {pointee : Ty} {qualifiers : Qualifiers} {span span' : Span}
    {id : NodeId} {params : List Ty}
    (h₁ : Fresh s [.type ⟨.pointer pointee qualifiers, span, id⟩] s₁)
    (h₂ : Fresh s₁ (params.map .type) s₂) :
    Fresh s [.type ⟨.pointer ⟨.function params pointee, span', s₂.nextId⟩ qualifiers, span', id⟩]
      s₂.stamped := by
  have hle₁ := h₁.issued_le
  have hle₂ := h₂.issued_le
  have hnext : s₂.stamped.issued = s₂.issued + 1 := rfl
  -- the counts before and after, in terms of the pointee and the parameters
  have old : ∀ a, plainCount a [.type ⟨.pointer pointee qualifiers, span, id⟩]
        = [id].count a + plainCount a [.type pointee]
      ∧ innerCount a [.type ⟨.pointer pointee qualifiers, span, id⟩]
        = declCount a [.type pointee] :=
    fun a => ⟨((Node.counted a _).type rfl).1, ((Node.counted a _).type rfl).2.2⟩
  generalize hn : Node.type ⟨.pointer ⟨.function params pointee, span', s₂.nextId⟩ qualifiers, span',
    id⟩ = n
  have new : ∀ a, plainCount a [n] = [id].count a + ([s₂.issued].count a
        + (plainCount a (params.map Node.type) + plainCount a [.type pointee]))
      ∧ outerCount a [n] = 0
      ∧ innerCount a [n] = outerCount a (params.map Node.type) + innerCount a (params.map Node.type)
        + declCount a [.type pointee] := by
    intro a
    generalize hf : Node.type ⟨.function params pointee, span', s₂.nextId⟩ = f
    have hnf : n.children = [f] := by rw [← hn, ← hf]; rfl
    have hff : f.children = params.map Node.type ++ [.type pointee] := by rw [← hf]; rfl
    obtain ⟨hp, ho, hi⟩ := (Node.counted a n).type (by rw [← hn]; rfl)
    obtain ⟨hp', ho', hi'⟩ := (Node.counted a f).type (by rw [← hf]; rfl)
    rw [hnf] at hp hi
    rw [hff] at hp' hi'
    have hd := declCount_eq a [f]
    have hdp := declCount_eq a (params.map Node.type)
    rw [Node.plainCount_append] at hp'
    rw [Node.declCount_append] at hi'
    have hid : n.id = id := by rw [← hn]; rfl
    have hid' : f.id = s₂.issued := by rw [← hf]; rfl
    rw [hid] at hp
    rw [hid'] at hp'
    omega
  refine ⟨by omega, fun a => ?_, fun a => ?_, fun a => ?_, fun hu a => ?_⟩
  all_goals
    obtain ⟨hp, ho, hi⟩ := new a
    obtain ⟨hp', hi'⟩ := old a
    have ho₁ := h₁.own_le a
    have ho₂ := h₂.own_le a
    have hr₁ := h₁.range a
    have hr₂ := h₂.range a
    have ha₁ := h₁.apart a
    have ha₂ := h₂.apart a
    rw [Node.count_singleton_eq s₂.issued] at hp
    split at hp
  · omega
  · omega
  · omega
  · omega
  · omega
  · omega
  all_goals
    subst hn
    have hparts : Unshared (params.map Node.type ++ [.type pointee]) :=
      @Unshared.children [] _ (@Unshared.children [] _ hu)
    have hi₁ := h₁.inner_le (.node hparts.right) a
    have hi₂ := h₂.inner_le hparts.left a
    omega

/-- A declaration becomes a statement with the same label and the same children. -/
theorem demote {s s' : State} {before : List Node} {d n : Node}
    (h : Fresh s (before ++ [d]) s') (hd : d.sort = .declaration) (hn : n.sort = .statement)
    (id : n.id = d.id) (children : n.children = d.children) : Fresh s (before ++ [n]) s' := by
  have hcounts : ∀ a, plainCount a [n] + outerCount a [n] = plainCount a [d] + outerCount a [d]
      ∧ innerCount a [n] = innerCount a [d] := by
    intro a
    obtain ⟨hp, ho, hi⟩ := (Node.counted a d).declaration hd
    obtain ⟨hp', ho', hi'⟩ := (Node.counted a n).plain (by simp [hn]) (by simp [hn])
    rw [id, children] at hp'
    rw [children] at ho' hi'
    omega
  refine h.of_counts (fun a => ?_) (fun a => ?_) ?_
  · have := (hcounts a).1
    simp only [Node.plainCount_append, Node.outerCount_append]
    omega
  · rw [Node.innerCount_append, Node.innerCount_append, (hcounts a).2]
  · unfold Unshared
    rw [Node.typesOf_append, Node.typesOf_append, Node.typesOf_other (n := n) (by simp [hn]),
      Node.typesOf_other (n := d) (by simp [hd]), children]
    exact fun hu => hu

/-- An expression gives way to its only child. -/
theorem ungroup {s s' : State} {before : List Node} {n c : Node} (h : Fresh s (before ++ [n]) s')
    (hn : n.sort = .expression) (child : n.children = [c]) : Fresh s (before ++ [c]) s' := by
  have hcounts : ∀ a, plainCount a [c] ≤ plainCount a [n] ∧ outerCount a [c] = outerCount a [n]
      ∧ innerCount a [c] = innerCount a [n] := by
    intro a
    obtain ⟨hp, ho, hi⟩ := (Node.counted a n).plain (by simp [hn]) (by simp [hn])
    rw [child] at hp ho hi
    omega
  refine h.of_counts (fun a => ?_) (fun a => ?_) ?_
  · obtain ⟨hp, ho, -⟩ := hcounts a
    simp only [Node.plainCount_append, Node.outerCount_append]
    omega
  · rw [Node.innerCount_append, Node.innerCount_append, (hcounts a).2.2]
  · unfold Unshared
    rw [Node.typesOf_append, Node.typesOf_append, Node.typesOf_other (n := n) (by simp [hn]), child]
    exact fun hu => hu

end Fresh

/-- Whatever is built has fresh identities. -/
theorem Builds.fresh {strict : Prop} {s s' : State} {ns : List Node} (h : Builds strict s ns s') :
    Fresh s ns s' := by
  induction h with
  | steps h => exact .steps h
  | append _ _ ih₁ ih₂ => exact ih₁.append ih₂
  | perm _ hp ih => exact ih.perm hp
  | node before n _ _ id _ ih => exact ih.node id
  | @missing s n leaf _ id =>
    have reached : Fresh s ([] ++ n.children) s.reached := by
      rw [leaf]
      exact .steps (.single (.reach s))
    exact reached.node id
  | wrap before n _ child _ id ih => exact .node (by rw [child]; exact ih) id
  | copy _ ht ih => exact ih.copy ht
  | repoint _ _ ih₁ ih₂ => exact ih₁.repoint ih₂
  | demote before _ ih => exact ih.demote rfl rfl rfl rfl
  | ungroup before _ ih => exact ih.ungroup rfl rfl

end Grammar

/-! ## Programs -/

namespace Program

/-- The identities of the statements, expressions and types of a program. -/
def plainIds (p : Program) : List NodeId := (p.nodes.filter (·.sort != .declaration)).map Node.id

/-- The identities of the declarations of a program. -/
def declIds (p : Program) : List NodeId := (p.nodes.filter (·.sort == .declaration)).map Node.id

theorem plainIds_eq (p : Program) :
    p.plainIds = (p.declarations.map Node.declaration).flatMap Node.plainIds := by
  rw [plainIds, nodes, walk, List.filter_flatMap, List.map_flatMap, List.flatMap_map]
  rfl

theorem declIds_eq (p : Program) :
    p.declIds = (p.declarations.map Node.declaration).flatMap Node.declIds := by
  rw [declIds, nodes, walk, List.filter_flatMap, List.map_flatMap, List.flatMap_map]
  rfl

theorem types_eq (p : Program) : p.types = Node.typesOf (p.declarations.map Node.declaration) := by
  have h : p.nodes = (p.declarations.map Node.declaration).flatMap Descent.full.walk := by
    rw [nodes, walk, List.flatMap_map]
  unfold types Node.typesOf
  exact congrArg _ h

end Program

/-- What a parse gives has fresh identities. -/
theorem Grammar.program_fresh (config : Config) (tokens : List Token) (maxErrors : Option Nat) :
    Fresh (.ofTokens tokens maxErrors)
      (((programAndErrors config).run (.ofTokens tokens maxErrors)).1.1.declarations.map .declaration)
      ((programAndErrors config).run (.ofTokens tokens maxErrors)).2 :=
  Builds.fresh (programAndErrors_makes config tokens maxErrors)

/-- The identities of statements, expressions and types are distinct, no declaration has one of them,
and all were given out by the counter. -/
theorem parse_plain_ids (tokens : List Token) (config : Config) :
    let run := (Grammar.programAndErrors config).run (.ofTokens tokens config.maxErrors)
    run.1.1.plainIds.Nodup ∧
      ∀ i ∈ run.1.1.plainIds, i ∉ run.1.1.declIds ∧ i < run.2.nextId := by
  intro run
  have h : Grammar.Fresh _ (run.1.1.declarations.map .declaration) run.2 :=
    Grammar.program_fresh config tokens config.maxErrors
  rw [Program.plainIds_eq, Program.declIds_eq]
  refine ⟨List.nodup_iff_count.2 fun a => ?_, fun i hi => ⟨fun hd => ?_, ?_⟩⟩
  · exact Nat.le_trans (Nat.le_add_right _ _) (h.own_le a)
  · have hplain : 0 < Node.plainCount i (run.1.1.declarations.map .declaration) :=
      List.count_pos_iff.2 hi
    have hdecl : 0 < Node.declCount i (run.1.1.declarations.map .declaration) :=
      List.count_pos_iff.2 hd
    have hown := h.own_le i
    have happart := h.apart i
    have hsum := Node.declCount_eq i (run.1.1.declarations.map .declaration)
    omega
  · have hplain : 0 < Node.plainCount i (run.1.1.declarations.map .declaration) :=
      List.count_pos_iff.2 hi
    exact (h.range i (by omega)).2

/-- The identities of declarations are distinct exactly if no type with a declaration inside was
copied. -/
theorem parse_declaration_ids (source : String) (config : Config) :
    (parse source config).program.declIds.Nodup ↔
      (parse source config).program.types.Pairwise fun t c => ¬ t.Shares c := by
  rw [parse_program, parseTokens_program]
  have h := Grammar.program_fresh config (Token.scan source).1 config.maxErrors
  generalize ((Grammar.programAndErrors config).run _).1.1 = p at *
  rw [Program.declIds_eq, Program.types_eq]
  refine ⟨Node.unshared_of_nodup, fun hu => List.nodup_iff_count.2 fun a => ?_⟩
  have hown := h.own_le a
  have happart := h.apart a
  have hinner := h.inner_le hu a
  have hsum := Node.declCount_eq a (p.declarations.map .declaration)
  unfold Node.declCount at hsum
  omega

/-- Two variables whose type has a function in its array size: the copy of the type repeats the
function. -/
theorem parse_declaration_repeated :
    ¬ (parse "T[\x7b def f() -> void; \x7d] a, b;" {}).program.declIds.Nodup := by
  decide +kernel

end FluxFront
