import FluxFront.Proofs.ExprReading
import FluxFront.Proofs.Halves
import FluxFront.Proofs.TypeWords

/-!
# Reading the words of a type

A type is read in full or skimmed; both readings are one production over different entries, and both are
described at once.  What is compared of a type is everything but places if it is read in full, and
nothing if it is skimmed (`Ty.view`).

* **Loop**: a type is a base and modifiers, and a pointee is as loose as the pointer, so reading the words
  of a type leads to the loop of modifiers (`LeadsTy`).
* **Invariant**: `Loops` says what happens in the loop, and what happens behind a `*` that was read
  already.  With both, it does not matter which stars the scanner took together (`Loops.pointer`).
-/

namespace FluxFront

/-! ## Views -/

namespace Ty

/-- What is compared of a type: everything but places if it is read in full, nothing if it is
skimmed. -/
def view (full : Bool) (t : Ty) : Option Ty := if full then some t.bare else none

variable {full : Bool} {span span' : Span} {id id' : NodeId}

theorem bares_of_views {ts ts' : List Ty} (h : ts'.map (view true) = ts.map (view true)) :
    ts'.map bare = ts.map bare := by
  have hmap : ∀ ts : List Ty, ts.map (view true) = (ts.map bare).map some := by
    intro ts
    rw [List.map_map]
    rfl
  rw [hmap, hmap] at h
  exact List.map_inj_right (fun _ _ => Option.some.inj) |>.1 h

theorem view_pointer {pointee pointee' : Ty} {q : Qualifiers} (h : pointee'.view full = pointee.view full) :
    view full ⟨.pointer pointee' q, span', id'⟩ = view full ⟨.pointer pointee q, span, id⟩ := by
  cases full with
  | false => rfl
  | true =>
    have hbare : pointee'.bare = pointee.bare := Option.some.inj h
    exact congrArg some (by rw [bare_pointer, bare_pointer, hbare])

theorem view_array {element element' : Ty} {size size' : Option Expr}
    (h : element'.view full = element.view full)
    (hs : full = true → size'.map Expr.bare = size.map Expr.bare) :
    view full ⟨.array element' size', span', id'⟩ = view full ⟨.array element size, span, id⟩ := by
  cases full with
  | false => rfl
  | true =>
    have hbare : element'.bare = element.bare := Option.some.inj h
    exact congrArg some (by rw [bare_array, bare_array, hbare, hs rfl])

theorem view_function {params params' : List Ty} {result result' : Ty}
    (hp : params'.map (view full) = params.map (view full)) (hr : result'.view full = result.view full) :
    view full ⟨.function params' result', span', id'⟩ = view full ⟨.function params result, span, id⟩ := by
  cases full with
  | false => rfl
  | true =>
    have hbare : result'.bare = result.bare := Option.some.inj hr
    exact congrArg some (by rw [bare_function, bare_function, bares_of_views hp, hbare])

theorem view_applied {base base' : Ty} {args args' : List Ty} (hb : base'.view full = base.view full)
    (ha : args'.map (view full) = args.map (view full)) :
    view full ⟨.applied base' args', span', id'⟩ = view full ⟨.applied base args, span, id⟩ := by
  cases full with
  | false => rfl
  | true =>
    have hbare : base'.bare = base.bare := Option.some.inj hb
    exact congrArg some (by rw [bare_applied, bare_applied, hbare, bares_of_views ha])

end Ty

namespace Grammar

open Token (Kind Word)

variable {ws rest after : List Word}

theorem shown_fixed {halved : Bool} {k : Kind} (h : k ≠ .greater ∧ k ≠ .star) :
    (Word.fixed k).Shown halved := fun _ => h

theorem shown_name {halved : Bool} (name : String) : (Word.name name).Shown halved :=
  fun _ => ⟨nofun, nofun⟩

/-! ## Names and qualifiers -/

theorem gives_segments (tail : List String) (h : Lacks [.dot] rest) :
    Gives true (many segment?) ((tail.flatMap fun segment => [Word.fixed .dot, .name segment]) ++ rest)
      rest (· = tail) := by
  induction tail with
  | nil =>
    obtain ⟨w, more, rfl, hw⟩ := h
    refine .many_stop round_segment ?_ rfl
    exact .check_absent (hw .dot (by decide)) (.kindAt fun _ => .pure rfl)
  | cons segment tail ih =>
    refine .many_step (Q := fun s => s = segment) round_segment ?_ (ih.mono ?_)
    · refine .check_pos (shown_fixed (by decide)) rfl (.kindAt_one (shown_fixed (by decide)) ?_)
      intro k hk
      obtain rfl : k = .identifier := by simpa [Kind.guises, Word.name] using hk
      refine .advance (shown_fixed (by decide)) nofun fun _ _ => ?_
      refine .advance (shown_name segment) nofun fun t ht => .pure ⟨_, rfl, ?_⟩
      exact String.toList_injective (congrArg Word.text ht)
    · rintro _ rfl _ rfl
      rfl

/-- A dotted name. -/
theorem gives_qualifiedName (n : QualifiedName) (expected : String) (h : Lacks [.dot] rest) :
    Gives true (qualifiedName expected) (n.words ++ rest) rest (· = n) := by
  refine .consumeName ((gives_segments n.tail h).bind ?_)
  rintro _ rfl
  exact .pure rfl

/-- One qualifier is read in each round. -/
theorem gives_qualifier {k : Kind} {done next : Qualifiers} {R : Qualifiers → Prop}
    (hk : (k = .kwConst ∧ next = { done with isConst := true }) ∨
      (k = .kwVolatile ∧ next = { done with isVolatile := true }))
    (h : Gives true (iterate qualifier? next) ws after R) :
    Gives true (iterate qualifier? done) (.fixed k :: ws) after R := by
  have hround : Gives true (qualifier? done) (.fixed k :: ws) ws (· = some next) := by
    rcases hk with ⟨rfl, rfl⟩ | ⟨rfl, rfl⟩ <;>
      exact .acceptAny (shown_fixed (by decide)) (by decide) nofun (.pure rfl)
  exact .iterate_step round_qualifier (hround.mono fun o ho => ⟨next, ho, h⟩)

/-- Any number of qualifiers. -/
theorem gives_qualifiers (q : Qualifiers) (h : Lacks [.kwConst, .kwVolatile] rest) :
    Gives true qualifiers (q.words ++ rest) rest (· = q) := by
  have stop : ∀ done : Qualifiers, Gives true (iterate qualifier? done) rest rest (· = done) := by
    intro done
    obtain ⟨w, more, rfl, hw⟩ := h
    exact .iterate_stop round_qualifier (.acceptAny_absent hw (.pure rfl)) rfl
  obtain ⟨isConst, isVolatile⟩ := q
  cases isConst <;> cases isVolatile
  · exact stop _
  · exact gives_qualifier (.inr ⟨rfl, rfl⟩) (stop _)
  · exact gives_qualifier (.inl ⟨rfl, rfl⟩) (stop _)
  · exact gives_qualifier (.inl ⟨rfl, rfl⟩) (gives_qualifier (.inr ⟨rfl, rfl⟩) (stop _))

theorem gives_bitWidth (width : UInt64) :
    Gives true bitWidth (.int width :: rest) rest (· = width) := by
  have hint : (Word.int width).Shown true := fun _ => ⟨nofun, nofun⟩
  refine .check_pos hint rfl (.advance hint nofun fun t ht => ?_)
  have hlit : t.literal = some (.int width) := congrArg Word.literal ht
  rw [hlit]
  exact .pure rfl

/-- A data layout. -/
theorem gives_dataLayout (layout : DataLayout) :
    Gives true dataLayout (layout.words ++ rest) rest (· = layout) := by
  obtain ⟨width, isSigned⟩ := layout
  have layoutFrom : ∀ sign : Option Kind, Gives true (do
      consume .kwData "Expected 'data'"
      consume .leftBrace "Expected '\x7b' after 'data'"
      let bitWidth ← bitWidth
      consume .rightBrace "Expected '\x7d' after bit width"
      return { bitWidth, isSigned := sign == some .kwSigned : DataLayout })
      (.fixed .kwData :: .fixed .leftBrace :: .int width :: .fixed .rightBrace :: rest) rest
      (· = ⟨width, sign == some .kwSigned⟩) := by
    intro sign
    refine .consume (shown_fixed (by decide)) rfl nofun (.consume (shown_fixed (by decide)) rfl nofun ?_)
    refine (gives_bitWidth width).bind ?_
    rintro _ rfl
    exact .consume (shown_fixed (by decide)) rfl nofun (.pure rfl)
  cases isSigned with
  | false => exact .acceptAny_absent (by decide) (layoutFrom none)
  | true => exact .acceptAny (shown_fixed (by decide)) (by decide) nofun (layoutFrom (some .kwSigned))

/-! ## The loop of modifiers -/

/-- The tokens with which a type goes on behind a base. -/
def baseGoesOn : List Kind := [.dot, .less, .kwConst, .kwVolatile]

/-- The tokens with which a type goes on. -/
def typeGoesOn : List Kind := [.star, .starStar, .leftBracket] ++ baseGoesOn

/-- What happens in the loop of modifiers with a type that looks like the given one. -/
structure Loops (full : Bool) (size : Parser Expr) (t : Ty) (rest after : List Word) (R : Ty → Prop) :
    Prop where
  loop (t' : Ty) (start : Location) : t'.view full = t.view full →
    Gives true (iterate (modifiedType? size start) t') rest after R
  /-- The first `*` was read already. -/
  star (t' : Ty) (start : Location) (more : List Word) : rest = .fixed .star :: more →
    t'.view full = t.view full → Gives true (do
      let pointer ← pointerTo t' start
      iterate (modifiedType? size start) pointer) more after R

namespace Loops

variable {full : Bool} {size : Parser Expr} {t : Ty} {R : Ty → Prop}

/-- At the end of a type the loop ends. -/
theorem stop (hsize : Steady True size) (h : Lacks typeGoesOn rest) :
    Loops full size t rest rest fun t' => t'.view full = t.view full := by
  obtain ⟨w, more, rfl, hw⟩ := h
  constructor
  · intro t' start ht'
    refine .iterate_stop (round_modifiedType hsize start) (.kind_guises fun k hk => ?_) ht'
    split
    case h_1 | h_2 | h_3 => exact absurd hk (hw _ (by decide))
    case h_4 => exact .pure rfl
  · intro t' start more' he _
    rw [(List.cons.inj he).1] at hw
    exact absurd (by decide) (hw .star (by decide))

/-- A pointer behind its pointee. -/
theorem pointer (hsize : Steady True size) {q : Qualifiers} {span : Span} {id : NodeId}
    (hrest : Lacks [.kwConst, .kwVolatile] rest)
    (h : Loops full size ⟨.pointer t q, span, id⟩ rest after R) :
    Loops full size t (.fixed .star :: (q.words ++ rest)) after R := by
  have star : ∀ t' start, t'.view full = t.view full → Gives true (do
      let pointer ← pointerTo t' start
      iterate (modifiedType? size start) pointer) (q.words ++ rest) after R := by
    intro t' start ht'
    refine .bind (Q := fun p => p.view full = Ty.view full ⟨.pointer t q, span, id⟩) ?_
      fun p hp => h.loop p start hp
    refine (gives_qualifiers q hrest).bind ?_
    rintro _ rfl
    exact .node fun _ _ => Ty.view_pointer ht'
  constructor
  · intro t' start ht' r s hs
    refine .iterate_step (round_modifiedType hsize start) hs.ample (.kind ?_)
    rcases hs.star with ⟨hk, hbehind⟩ | ⟨hk, us, hus, hbehind⟩
    · rw [hk]
      exact .advance ⟨_, rfl, star t' start ht' r _ hbehind⟩
    · -- two stars in one token: the pointer has no qualifiers, and the next star was read with it
      obtain ⟨rfl, hrest⟩ : q = {} ∧ rest = .fixed .star :: us := by
        obtain ⟨isConst, isVolatile⟩ := q
        cases isConst <;> cases isVolatile <;> first | exact ⟨rfl, hus⟩ | exact absurd hus nofun
      rw [hk]
      exact .advance ⟨_, rfl, h.star _ start us hrest (Ty.view_pointer ht') r _ hbehind.stamped⟩
  · intro t' start more he ht'
    obtain ⟨-, rfl⟩ := List.cons.inj he
    exact star t' start ht'

/-- An array behind the type of its elements. -/
theorem array (hsize : Steady True size) {sizeOf : Option Expr} {span : Span} {id : NodeId}
    (hread : ∀ e ∈ sizeOf, Gives true size (e.words ++ .fixed .rightBracket :: rest)
      (.fixed .rightBracket :: rest) fun e' => full = true → e'.bare = e.bare)
    (hhead : ∀ e ∈ sizeOf, Lacks [.rightBracket] (e.words ++ .fixed .rightBracket :: rest))
    (h : Loops full size ⟨.array t sizeOf, span, id⟩ rest after R) :
    Loops full size t (.fixed .leftBracket :: (Ty.sizeWords sizeOf ++ .fixed .rightBracket :: rest))
      after R := by
  constructor
  · intro t' start ht'
    have finish : ∀ sizeOf' : Option Expr,
        (full = true → sizeOf'.map Expr.bare = sizeOf.map Expr.bare) → Gives true (do
          consume .rightBracket "Expected ']' after array size"
          return some (← node (Ty.mk (.array t' sizeOf')) start)) (.fixed .rightBracket :: rest) rest
          fun o => ∃ next, o = some next ∧ next.view full = Ty.view full ⟨.array t sizeOf, span, id⟩ := by
      intro sizeOf' hs
      refine .consume (shown_fixed (by decide)) rfl nofun (.someNode fun _ _ => ?_)
      exact Ty.view_array ht' hs
    have hround : Gives true (modifiedType? size start t')
        (.fixed .leftBracket :: (Ty.sizeWords sizeOf ++ .fixed .rightBracket :: rest)) rest
        fun o => ∃ next, o = some next ∧ next.view full = Ty.view full ⟨.array t sizeOf, span, id⟩ := by
      refine .kind (shown_fixed (by decide)) (.advance (shown_fixed (by decide)) nofun fun _ _ => ?_)
      cases sizeOf with
      | none => exact .check_pos (shown_fixed (by decide)) rfl (finish none fun _ => rfl)
      | some e =>
        obtain ⟨w, more, hw, hk⟩ := hhead e rfl
        have hsize := (hread e rfl).map (f := some) (R := fun o => full = true → o.map Expr.bare = some e.bare)
          fun e' he' hfull => congrArg some (he' hfull)
        rw [hw] at hsize
        rw [Ty.sizeWords, hw]
        exact .check_absent (hk _ (by decide)) (hsize.bind fun size' hs => finish size' hs)
    refine .iterate_step (round_modifiedType hsize start) (hround.mono ?_)
    rintro o ⟨next, hn, hview⟩
    exact ⟨next, hn, h.loop next start hview⟩
  · intro t' start more he
    exact absurd (congrArg Word.kind (List.cons.inj he).1) (by decide)

end Loops

/-! ## The two readings -/

/-- The entry for types inside a type. -/
def typeEntry (full : Bool) (inner : Level) : Parser Ty := if full then inner.type else inner.skim

/-- The entry for array sizes. -/
def sizeEntry (full : Bool) (inner : Level) : Parser Expr :=
  if full then inner.expression else skippedSize

/-- A type over the entries of a level. -/
def typeOver (full : Bool) (inner : Level) : Parser Ty :=
  typeBody (sizeEntry full inner) (typeEntry full inner)

variable {full : Bool} {limit room : Nat} {t : Ty} {span : Span} {id : NodeId}

theorem typeEntry_succ :
    typeEntry full (grammar limit (room + 1)) = typeOver full (grammar limit room) := by
  cases full with
  | false => exact delay_eq fun _ => typeBody skippedSize (grammar limit room).skim
  | true => exact delay_eq fun _ => typeBody (grammar limit room).expression (grammar limit room).type

theorem steady_typeEntry (full : Bool) (limit room : Nat) :
    Steady True (typeEntry full (grammar limit room)) := by
  cases full with
  | false => exact (grammar_steady limit room).skim.mono False.elim
  | true => exact (grammar_steady limit room).type

theorem steady_sizeEntry (full : Bool) (limit room : Nat) :
    Steady True (sizeEntry full (grammar limit room)) := by
  cases full with
  | false => exact steady_skippedSize
  | true => exact (grammar_steady limit room).expression

/-- A number as an array size. -/
theorem gives_size {e : Expr} (h : Ty.isNumber e = true) :
    Gives true (sizeEntry full (grammar limit (room + 1))) (e.words ++ .fixed .rightBracket :: rest)
      (.fixed .rightBracket :: rest) fun e' => full = true → e'.bare = e.bare := by
  obtain ⟨value, span, id, rfl⟩ := Ty.exists_of_isNumber h
  have hshown : ∀ u ∈ [Word.int value], u.Shown true := by
    simp [Word.Shown, Word.int]
  refine .halve hshown (shown_fixed (by decide)) fun us => ?_
  cases full with
  | false =>
    have hskip : Gives false skipGroup ([Word.int value] ++ .fixed .rightBracket :: us)
        (.fixed .rightBracket :: us) fun _ => True :=
      gives_skipGroup (.word rfl .nil) (by decide)
    exact .here fun start => hskip.bind fun _ _ => .node fun _ _ => nofun
  | true =>
    have hplain : Literal.isPlain (.int value) = true := rfl
    have hholds : Holds (grammar limit room) 18 [Word.int value] fun e => e.form = .literal (.int value) :=
      .of_reads (grammar_steady _ _) (by decide) (fun _ => ⟨_, _, rfl, nofun, rfl⟩) (reads_literal hplain rfl rfl)
        fun h => absurd h (by decide)
    refine ((hholds.reads (Nat.le_refl 1) (by decide)).expression ⟨_, _, rfl, by decide⟩).mono ?_
    rintro ⟨form, span', id'⟩ rfl _
    rfl

/-! ## Bases and modifiers -/

/-- A type is read in front of everything that does not go on with it. -/
def ReadsTy (full : Bool) (inner : Level) (t : Ty) : Prop :=
  ∀ rest, Lacks typeGoesOn rest →
    Gives true (typeOver full inner) (t.words ++ rest) rest fun t' => t'.view full = t.view full

/-- Reading the words of a type leads to the loop of modifiers. -/
def LeadsTy (full : Bool) (inner : Level) (t : Ty) : Prop :=
  ∀ rest after R, Lacks baseGoesOn rest → Loops full (sizeEntry full inner) t rest after R →
    Gives true (typeOver full inner) (t.words ++ rest) after R

theorem Lacks.base (h : Lacks typeGoesOn rest) : Lacks baseGoesOn rest := h.mono (by decide)

theorem LeadsTy.reads (h : LeadsTy full (grammar limit room) t) : ReadsTy full (grammar limit room) t :=
  fun rest hrest => h rest rest _ hrest.base (.stop (steady_sizeEntry full limit room) hrest)

/-- A base leads to the loop. -/
theorem LeadsTy.of_base {inner : Level}
    (h : ∀ rest, Lacks baseGoesOn rest →
      Gives true (baseType (typeEntry full inner)) (t.words ++ rest) rest fun t' => t'.view full = t.view full) :
    LeadsTy full inner t := by
  intro rest after R hrest hloops
  exact .here fun start => (h rest hrest).bind fun t' ht' => hloops.loop t' start ht'

theorem leads_builtin {inner : Level} (name : Builtin) : LeadsTy full inner ⟨.builtin name, span, id⟩ := by
  refine .of_base fun rest _ => ?_
  have hread : Gives true (builtinType name) (.fixed name.kind :: rest) rest
      fun t' => t'.view full = Ty.view full ⟨.builtin name, span, id⟩ := by
    have hne : name.kind ≠ .eof := by cases name <;> nofun
    refine .here fun start => .advance (shown_fixed (by cases name <;> decide)) hne fun _ _ => ?_
    exact .node fun _ _ => rfl
  refine .kind (shown_fixed (by cases name <;> decide)) ?_
  cases name <;> exact hread

theorem leads_data {inner : Level} (layout : DataLayout) :
    LeadsTy full inner ⟨.data layout, span, id⟩ := by
  refine .of_base fun rest _ => ?_
  have hread : Gives true (do
      let start ← here
      let layout ← dataLayout
      node (Ty.mk (.data layout)) start) (layout.words ++ rest) rest
      fun t' => t'.view full = Ty.view full ⟨.data layout, span, id⟩ := by
    refine .here fun start => (gives_dataLayout layout).bind ?_
    rintro _ rfl
    exact .node fun _ _ => rfl
  obtain ⟨width, isSigned⟩ := layout
  cases isSigned <;> exact .kind (shown_fixed (by decide)) hread

/-! ### Names and functions -/

/-- A type starts with a token that starts a type. -/
theorem exists_start (h : t.Plain) : ∃ w more, t.words = w :: more ∧ w.kind ∈ typeStarts := by
  induction h with
  | builtin name => exact ⟨_, _, rfl, by cases name <;> decide⟩
  | named h | qualified h ht => exact ⟨_, _, rfl, List.mem_cons_self⟩
  | data layout =>
    obtain ⟨width, isSigned⟩ := layout
    cases isSigned <;> exact ⟨_, _, rfl, by decide⟩
  | function hp hr ihp ihr => exact ⟨_, _, rfl, by decide⟩
  | applied hb hn ha ihb iha =>
    obtain ⟨w, more, hw, hk⟩ := ihb
    exact ⟨w, _, by rw [Ty.words, hw, List.cons_append], hk⟩
  | pointer q h hf ih | array h hf hs ih =>
    obtain ⟨w, more, hw, hk⟩ := ih
    exact ⟨w, _, by rw [Ty.words, hw, List.cons_append], hk⟩

/-- What is no start of a type does not stand in front of one. -/
theorem lacks_type {ks : List Kind} (h : t.Plain)
    (hk : ∀ k ∈ typeStarts, ∀ k' ∈ ks, k' ∉ k.guises true) : Lacks ks (t.words ++ rest) := by
  obtain ⟨w, more, hw, hstart⟩ := exists_start h
  exact ⟨w, more ++ rest, by rw [hw, List.cons_append], hk w.kind hstart⟩

/-- A list of types up to the word that closes it. -/
theorem gives_types {ts : List Ty} {close : Kind} {closed : Parser Bool}
    (hts : ∀ t ∈ ts, t.Plain) (h : ∀ t ∈ ts, ReadsTy full (grammar limit room) t)
    (hclose : ∀ k ∈ .comma :: typeGoesOn, k ∉ close.guises true)
    (hclosed : Gives true closed (.fixed close :: rest) (.fixed close :: rest) (· = true))
    (hopen : ∀ t : Ty, t.Plain → ∀ ws, Gives true closed (t.words ++ ws) (t.words ++ ws) (· = false)) :
    Gives true (do
      if ← closed then pure [] else commaSeparated (typeEntry full (grammar limit (room + 1))))
      ([Word.fixed .comma].intercalate (Ty.wordsEach ts) ++ .fixed close :: rest) (.fixed close :: rest)
      fun ts' => ts'.map (Ty.view full) = ts.map (Ty.view full) := by
  rw [Ty.wordsEach_eq]
  refine .commaSeparatedUnless (steady_typeEntry _ _ _) (hclose _ List.mem_cons_self) hclosed
    (fun t ht => hopen t (hts t ht)) fun t ht w ws hw => ?_
  rw [typeEntry_succ]
  refine h t ht _ ?_
  rcases hw with rfl | rfl
  · exact ⟨_, _, rfl, by decide⟩
  · exact ⟨_, _, rfl, fun k hk => hclose k (List.mem_cons_of_mem _ hk)⟩

/-- A type that is named without arguments is read from a dotted name. -/
theorem exists_name (full : Bool) (h : t.Plain) (hn : t.isNamed = true) :
    ∃ n : QualifiedName, t.words = n.words ∧ ∀ span id,
      Ty.view full ⟨if n.isSimple then .named n.head else .qualified n, span, id⟩ = t.view full := by
  cases h with
  | @named name _ _ _ => exact ⟨⟨name, []⟩, rfl, fun _ _ => rfl⟩
  | @qualified n _ _ _ htail =>
    refine ⟨n, rfl, fun _ _ => ?_⟩
    rw [QualifiedName.isSimple, List.isEmpty_eq_false_iff.2 htail]
    rfl
  | builtin | data | function | applied | pointer | array => exact absurd hn nofun

/-- A name without arguments. -/
theorem leads_name {inner : Level} (h : t.Plain) (hn : t.isNamed = true) : LeadsTy full inner t := by
  obtain ⟨n, hwords, hview⟩ := exists_name full h hn
  refine .of_base fun rest hrest => ?_
  rw [hwords]
  refine .kind (shown_name n.head) (.here fun start => ?_)
  refine (gives_qualifiedName n _ (hrest.mono (by decide))).bind ?_
  rintro _ rfl
  refine .bind (Q := fun t' => t'.view full = t.view full) (.node hview) fun base hbase => ?_
  obtain ⟨w, more, rfl, hw⟩ := hrest
  exact .accept_absent (hw .less (by decide)) (.pure hbase)

/-- A name with arguments. -/
theorem leads_applied {base : Ty} {args : List Ty} (hb : base.Plain) (hn : base.isNamed = true)
    (hargs : ∀ a ∈ args, a.Plain) (ha : ∀ a ∈ args, ReadsTy full (grammar limit room) a) :
    LeadsTy full (grammar limit (room + 1)) ⟨.applied base args, span, id⟩ := by
  obtain ⟨n, hwords, hview⟩ := exists_name full hb hn
  refine .of_base fun rest hrest => ?_
  have hall : Ty.words ⟨.applied base args, span, id⟩ ++ rest
      = n.words ++ .fixed .less :: ([Word.fixed .comma].intercalate (Ty.wordsEach args)
        ++ .fixed .greater :: rest) := by
    simp [Ty.words, hwords]
  have hnone : ∀ k ∈ typeStarts, ∀ k' ∈ k.guises true, [Kind.greater, .shr].contains k' = false := by
    decide
  have hlist : Gives true (do
      if ← checkAny [.greater, .shr] then pure []
      else commaSeparated (typeEntry full (grammar limit (room + 1))))
      ([Word.fixed .comma].intercalate (Ty.wordsEach args) ++ .fixed .greater :: rest)
      (.fixed .greater :: rest) fun args' => args'.map (Ty.view full) = args.map (Ty.view full) := by
    refine gives_types hargs ha (by decide) ?_ fun t ht ws => ?_
    · exact .last (.checkAny_guises (by decide) (.pure rfl))
    · obtain ⟨w, more, hw, hstart⟩ := exists_start ht
      rw [hw]
      exact .last (.checkAny_guises (hnone _ hstart) (.pure rfl))
  rw [hall]
  refine .kind (shown_name n.head) (.here fun start => ?_)
  refine (gives_qualifiedName n _ ⟨_, _, rfl, by decide⟩).bind ?_
  rintro _ rfl
  refine .bind (Q := fun t' => t'.view full = base.view full) (.node hview) fun base' hbase => ?_
  refine .accept_pos (shown_fixed (by decide)) rfl (by decide) ?_
  refine .choice (hlist.bind fun args' hargs' => ?_)
  refine .closingAngle (.node fun _ _ => ?_)
  exact Ty.view_applied hbase hargs'


/-- A function type. -/
theorem reads_function {params : List Ty} {result : Ty} (hparams : ∀ p ∈ params, p.Plain)
    (hp : ∀ p ∈ params, ReadsTy full (grammar limit room) p)
    (hr : ReadsTy full (grammar limit room) result) :
    ReadsTy full (grammar limit (room + 1)) ⟨.function params result, span, id⟩ := by
  intro rest hrest
  have hall : Ty.words ⟨.function params result, span, id⟩ ++ rest
      = .fixed .kwDef :: .fixed .leftParen :: ([Word.fixed .comma].intercalate (Ty.wordsEach params)
        ++ .fixed .rightParen :: .fixed .arrow :: (result.words ++ rest)) := by
    simp [Ty.words]
  have hlist : Gives true (typeList (typeEntry full (grammar limit (room + 1))) .rightParen)
      ([Word.fixed .comma].intercalate (Ty.wordsEach params)
        ++ .fixed .rightParen :: .fixed .arrow :: (result.words ++ rest))
      (.fixed .rightParen :: .fixed .arrow :: (result.words ++ rest))
      fun ps => ps.map (Ty.view full) = params.map (Ty.view full) := by
    refine gives_types hparams hp (by decide) ?_ fun t ht ws => ?_
    · exact .last (.check_pos (shown_fixed (by decide)) rfl (.pure rfl))
    · obtain ⟨w, more, hw, hstart⟩ := exists_start ht
      rw [hw]
      have hnone : ∀ k ∈ typeStarts, .rightParen ∉ k.guises true := by decide
      exact .last (.check_absent (hnone _ hstart) (.pure rfl))
  have hresult : Gives true (resultType (typeEntry full (grammar limit (room + 1))))
      (.fixed .arrow :: (result.words ++ rest)) rest fun t' => t'.view full = result.view full := by
    refine .accept_pos (shown_fixed (by decide)) rfl (by decide) ?_
    rw [typeEntry_succ]
    exact hr rest hrest
  have hbase : Gives true (baseType (typeEntry full (grammar limit (room + 1))))
      (Ty.words ⟨.function params result, span, id⟩ ++ rest) rest
      fun t' => t'.view full = Ty.view full ⟨.function params result, span, id⟩ := by
    rw [hall]
    refine .kind (shown_fixed (by decide)) (.here fun start => ?_)
    refine .advance (shown_fixed (by decide)) (by decide) fun _ _ => ?_
    refine .consume (shown_fixed (by decide)) rfl (by decide) (hlist.bind fun params' hparams' => ?_)
    refine .consume (shown_fixed (by decide)) rfl (by decide) (hresult.bind fun result' hresult' => ?_)
    exact .node fun _ _ => Ty.view_function hparams' hresult'
  have hstop : Loops full (sizeEntry full (grammar limit (room + 1))) ⟨.function params result, span, id⟩
      rest rest _ := .stop (steady_sizeEntry full limit (room + 1)) hrest
  exact .here fun start => hbase.bind fun t' ht' => hstop.loop t' start ht'

/-! ### Modifiers -/

/-- A pointer leads on from where its pointee leads. -/
theorem leads_pointer {pointee : Ty} (q : Qualifiers) (h : LeadsTy full (grammar limit room) pointee) :
    LeadsTy full (grammar limit room) ⟨.pointer pointee q, span, id⟩ := by
  intro rest after R hrest hloops
  have hwords : Ty.words ⟨.pointer pointee q, span, id⟩ ++ rest
      = pointee.words ++ .fixed .star :: (q.words ++ rest) := by
    simp [Ty.words]
  rw [hwords]
  refine h _ after R ⟨_, _, rfl, by decide⟩ ?_
  exact hloops.pointer (steady_sizeEntry full limit room) (hrest.mono (by decide))

/-- An array leads on from where the type of its elements leads. -/
theorem leads_array {element : Ty} {size : Option Expr} (hs : ∀ e ∈ size, Ty.isNumber e = true)
    (h : LeadsTy full (grammar limit (room + 1)) element) :
    LeadsTy full (grammar limit (room + 1)) ⟨.array element size, span, id⟩ := by
  intro rest after R hrest hloops
  have hwords : Ty.words ⟨.array element size, span, id⟩ ++ rest
      = element.words ++ .fixed .leftBracket :: (Ty.sizeWords size ++ .fixed .rightBracket :: rest) := by
    simp [Ty.words]
  rw [hwords]
  refine h _ after R ⟨_, _, rfl, by decide⟩ ?_
  refine hloops.array (steady_sizeEntry full limit _) (fun e he => gives_size (hs e he)) fun e he => ?_
  obtain ⟨value, _, _, rfl⟩ := Ty.exists_of_isNumber (hs e he)
  have hnumber : ∀ k ∈ [Kind.rightBracket], k ∉ Kind.intLiteral.guises true := by decide
  exact ⟨.int value, _, rfl, hnumber⟩

/-! ## Types as a whole -/

/-- **Reading a type.**  The words of a type are read as the type, if there is room for its nodes.  A type
that is no function leads to the loop of modifiers. -/
theorem leads_and_reads (h : t.Plain) (full : Bool) (limit : Nat) :
    ∀ room, Node.size (.type t) ≤ room →
      (t.isFunction = false → LeadsTy full (grammar limit room) t) ∧ ReadsTy full (grammar limit room) t := by
  have leading : ∀ {t : Ty} {room : Nat}, LeadsTy full (grammar limit room) t →
      (t.isFunction = false → LeadsTy full (grammar limit room) t) ∧ ReadsTy full (grammar limit room) t :=
    fun h => ⟨fun _ => h, h.reads⟩
  induction h with
  | builtin name => exact fun room _ => leading (leads_builtin name)
  | named h => exact fun room _ => leading (leads_name (.named h) rfl)
  | qualified h ht => exact fun room _ => leading (leads_name (.qualified h ht) rfl)
  | data layout => exact fun room _ => leading (leads_data layout)
  | @function params result span id hp hr ihp ihr =>
    intro room hroom
    obtain ⟨less, rfl, hless⟩ := Node.exists_room hroom
    refine ⟨nofun, reads_function hp (fun p hm => (ihp p hm less (hless _ ?_)).2) (ihr less (hless _ ?_)).2⟩
    · exact List.mem_append_left _ (List.mem_map_of_mem hm)
    · exact List.mem_append_right _ List.mem_cons_self
  | @applied base args span id hb hn ha ihb iha =>
    intro room hroom
    obtain ⟨less, rfl, hless⟩ := Node.exists_room hroom
    refine leading (leads_applied hb hn ha fun a hm => (iha a hm less (hless _ ?_)).2)
    exact List.mem_cons_of_mem _ (List.mem_map_of_mem hm)
  | @pointer pointee span id q h hf ih =>
    intro room hroom
    obtain ⟨less, rfl, hless⟩ := Node.exists_room hroom
    have hpointee := Nat.le_succ_of_le (hless (.type pointee) List.mem_cons_self)
    exact leading (leads_pointer q ((ih _ hpointee).1 hf))
  | @array element size span id h hf hs ih =>
    intro room hroom
    obtain ⟨less, rfl, hless⟩ := Node.exists_room hroom
    have helement := Nat.le_succ_of_le (hless (.type element) List.mem_cons_self)
    exact leading (leads_array hs ((ih _ helement).1 hf))

/-- A type is read in full. -/
theorem gives_type (h : t.Plain) (hroom : Node.size (.type t) ≤ room) (hrest : Lacks typeGoesOn rest) :
    Gives true (grammar limit (room + 1)).type (t.words ++ rest) rest fun t' => t'.bare = t.bare := by
  have hreads := (leads_and_reads h true limit room hroom).2 rest hrest
  rw [← typeEntry_succ] at hreads
  exact hreads.mono fun _ ht' => Option.some.inj ht'

/-- A type is skimmed. -/
theorem gives_skim (h : t.Plain) (hroom : Node.size (.type t) ≤ room) (hrest : Lacks typeGoesOn rest) :
    Gives true (grammar limit (room + 1)).skim (t.words ++ rest) rest fun _ => True := by
  have hreads := (leads_and_reads h false limit room hroom).2 rest hrest
  rw [← typeEntry_succ] at hreads
  exact hreads.mono fun _ _ => trivial

end Grammar

end FluxFront
