import FluxFront.Print.Tree
import FluxFront.Proofs.ExprWords

/-!
# The words of a printed type

How a type is spelled, and that the scanner reads it so.

* **Fragment**: `Ty.Plain` are the types made of keywords, names, data layouts, function types, template
  arguments, pointers, and arrays without a size or with a number as their size.
* **Words**: `Ty.words` is the list of words that a type is printed as, where two `>` side by side count as
  two words, and so do two `*`.
* **Composition**: a text that `Sets` its words may stand in front of anything, one that `Spells` them
  only where a name may end.  The rules put texts together; no text is taken apart again.
-/

namespace FluxFront

open Print Token

/-! ## Texts put together -/

namespace Token

/-- In front of anything, the text is made of the words. -/
def Sets (text : String) (ws : List Word) : Prop :=
  ∀ tail us, Writes true tail us → Writes true (text.toList ++ tail) (ws ++ us)

/-- A text at which a name may end. -/
def EndsName (text : String) : Prop := ∀ tail, Breaks (text.toList ++ tail)

variable {a b : String} {ws us : List Word}

theorem Sets.spells (h : Sets a ws) : Spells true a ws := fun tail us _ ht => h tail us ht

theorem Sets.append (ha : Sets a ws) (hb : Sets b us) : Sets (a ++ b) (ws ++ us) := by
  intro tail vs ht
  rw [String.toList_append, List.append_assoc, List.append_assoc]
  exact ha _ _ (hb tail vs ht)

theorem Sets.before (ha : Sets a ws) (hb : Spells true b us) : Spells true (a ++ b) (ws ++ us) := by
  intro tail vs hbreak ht
  rw [String.toList_append, List.append_assoc, List.append_assoc]
  exact ha _ _ (hb tail vs hbreak ht)

theorem Spells.sets (ha : Spells true a ws) (hb : Sets b us) (hs : EndsName b) :
    Sets (a ++ b) (ws ++ us) := by
  intro tail vs ht
  rw [String.toList_append, List.append_assoc, List.append_assoc]
  exact ha _ _ (hs tail) (hb tail vs ht)

theorem Spells.append (ha : Spells true a ws) (hb : Spells true b us)
    (hs : b = "" ∨ EndsName b) : Spells true (a ++ b) (ws ++ us) := by
  intro tail vs hbreak ht
  rw [String.toList_append, List.append_assoc, List.append_assoc]
  refine ha _ _ ?_ (hb tail vs hbreak ht)
  rcases hs with rfl | hs
  · exact hbreak
  · exact hs tail

theorem endsName (h : a.toList.head?.any isBreak = true) : EndsName a := by
  intro tail
  cases ha : a.toList with
  | nil =>
    rw [ha] at h
    exact absurd h (by decide)
  | cons c cs =>
    rw [ha] at h
    exact .cons h _

theorem EndsName.append (h : EndsName a) (b : String) : EndsName (a ++ b) := by
  intro tail
  rw [String.toList_append, List.append_assoc]
  exact h _

/-! ### Fixed texts -/

theorem sets_empty : Sets "" [] := fun _ _ ht => ht

theorem spells_empty : Spells true "" [] := fun _ _ _ ht => ht

theorem sets_blank {c : Char} (hc : Text.isBlank c = true) (h : a.toList = [c]) : Sets a [] := by
  intro tail us ht
  rw [h]
  exact .blank hc ht

/-- Delimiters, which may stand in front of and behind anything. -/
def delimiters : List Kind :=
  [.leftParen, .rightParen, .leftBracket, .rightBracket, .leftBrace, .rightBrace, .semicolon, .comma]

theorem sets_delimiter {k : Kind} (hk : k ∈ delimiters) (h : a.toList = k.spelling) :
    Sets a [.fixed k] := by
  have hall : ∀ k ∈ delimiters, k ∈ Kind.operators ∧ k.isFinal = true ∧ (Word.fixed k).Whole := by
    decide
  obtain ⟨hop, hfinal, hwhole⟩ := hall k hk
  intro tail us ht
  rw [h]
  exact .final hop hfinal (fun _ => hwhole) ht

/-- A text with a delimiter behind it. -/
theorem Spells.closed {k : Kind} (ha : Spells true a ws) (hk : k ∈ delimiters)
    (h : b.toList = k.spelling) : Sets (a ++ b) (ws ++ [.fixed k]) := by
  have hall : ∀ k ∈ delimiters, k.spelling.head?.any isBreak = true := by decide +kernel
  refine ha.sets (sets_delimiter hk h) (endsName ?_)
  rw [h]
  exact hall k hk

/-- An operator with a blank behind it. -/
theorem sets_spaced {k : Kind} (hk : k ∈ Kind.operators) (hw : (Word.fixed k).Whole)
    (h : a.toList = k.spelling ++ [' ']) : Sets a [.fixed k] := by
  intro tail us ht
  rw [h, List.append_assoc]
  exact .spaced hk (fun _ => hw) ht

theorem sets_arrow : Sets (")" ++ (" " ++ "-> ")) ([.fixed .rightParen] ++ ([] ++ [.fixed .arrow])) := by
  have hblank : Sets " " [] := sets_blank (c := ' ') (by decide) rfl
  have harrow : Sets "-> " [.fixed .arrow] := sets_spaced (k := .arrow) (by decide) (by decide) rfl
  exact (sets_delimiter (k := .rightParen) (by decide) rfl).append (hblank.append harrow)

/-- Two `>` or two `*` may stand side by side. -/
theorem spells_half {k : Kind} (hk : k = .greater ∨ k = .star) (h : a.toList = k.spelling) :
    Spells true a [.fixed k] := by
  intro tail us hbreak ht
  rw [h]
  refine .half rfl hk ?_ ht
  cases tail with
  | nil => nofun
  | cons c more =>
    rw [List.head?_cons]
    exact fun he => (hbreak c more rfl).2.1.2 (Option.some.inj he)

theorem spells_keyword {k : Kind} (hk : k ∈ Kind.keywords) (hasm : k ≠ .kwAsm) (hw : (Word.fixed k).Whole)
    (h : a.toList = k.spelling) : Spells true a [.fixed k] := by
  intro tail us hbreak ht
  rw [h]
  exact .word (legible_keyword hk hasm hbreak) (fun _ => hw) ht

/-- A keyword with a blank behind it. -/
theorem sets_keyword {k : Kind} (hk : k ∈ Kind.keywords) (hasm : k ≠ .kwAsm) (hw : (Word.fixed k).Whole)
    (h : a.toList = k.spelling ++ [' ']) : Sets a [.fixed k] := by
  intro tail us ht
  rw [h, List.append_assoc]
  exact .word (legible_keyword hk hasm (.blank _)) (fun _ => hw) (.blank (by decide) ht)

/-- A blank and a keyword. -/
theorem spells_blank_keyword {k : Kind} (hk : k ∈ Kind.keywords) (hasm : k ≠ .kwAsm)
    (hw : (Word.fixed k).Whole) (h : a.toList = ' ' :: k.spelling) : Spells true a [.fixed k] := by
  intro tail us hbreak ht
  rw [h]
  exact .blank (by decide) (.word (legible_keyword hk hasm hbreak) (fun _ => hw) ht)

/-! ### Names and literals -/

theorem spells_name {name : String} (h : isName name = true) : Spells true name [.name name] := by
  intro tail us hbreak ht
  obtain ⟨c, cs, hcs, hc, -⟩ := exists_of_isName h
  refine .word (w := .name name) (legible_isName h hbreak) (fun _ => ⟨rfl, ?_, ?_⟩) ht
  · show name.toList.head? ≠ some '>'
    rw [hcs]
    rintro ⟨⟩
    exact absurd hc (by decide +kernel)
  · show name.toList.head? ≠ some '*'
    rw [hcs]
    rintro ⟨⟩
    exact absurd hc (by decide +kernel)

theorem spells_int (value : UInt64) : Spells true (toString value.toNat) [.int value] := by
  intro tail us hbreak ht
  obtain ⟨c, cs, hcs⟩ := List.exists_cons_of_ne_nil (toDigits_ne_nil value.toNat)
  have hc : c.isDigit = true := isDigit_of_mem_toDigits (by rw [hcs]; exact List.mem_cons_self)
  refine .word (w := .int value) (legible_int value hbreak) (fun _ => ⟨rfl, ?_, ?_⟩) ht
  · rw [text_int, hcs]
    rintro ⟨⟩
    exact absurd hc (by decide)
  · rw [text_int, hcs]
    rintro ⟨⟩
    exact absurd hc (by decide)

theorem sets_string (value : String) : Sets (quoted value) [.string value] := by
  intro tail us ht
  have hall : Writes true _ _ :=
    .word (w := .string value) (legible_string value tail) (fun _ => ⟨rfl, nofun, nofun⟩) ht
  simpa [quoted, escape, Word.string] using hall

/-! ### Lists in angle brackets -/

/-- Whether a text starts like a name. -/
def opensName (text : String) : Bool := text.toList.head?.any Text.startsName

theorem opensName_append (h : opensName a = true) (b : String) : opensName (a ++ b) = true := by
  unfold opensName at h ⊢
  rw [String.toList_append]
  cases ha : a.toList with
  | nil =>
    rw [ha] at h
    exact absurd h (by decide)
  | cons c cs =>
    rw [ha] at h
    exact h

theorem opensName_of_isName {name : String} (h : isName name = true) : opensName name = true := by
  obtain ⟨c, cs, hcs, hc, -⟩ := exists_of_isName h
  unfold opensName
  rw [hcs]
  exact hc

/-- A list starts with its first text. -/
theorem head_separated {α : Type} {f : α → String} {as : List α} (h : ∀ a ∈ as, opensName (f a) = true) :
    separated (as.map f) = "" ∨ opensName (separated (as.map f)) = true := by
  cases as with
  | nil => exact .inl rfl
  | cons a more =>
    have ha := h a List.mem_cons_self
    refine .inr ?_
    cases more with
    | nil => simpa [separated] using ha
    | cons b more =>
      have hall := opensName_append (opensName_append ha ", ") (separated ((b :: more).map f))
      simpa [separated, String.intercalate_cons_cons] using hall

/-- No operator goes on with what a name starts with. -/
theorem clears_opensName {k : Kind} (hk : k ∈ Kind.operators) (h : opensName a = true) :
    a.toList.head?.any k.clears = true := by
  have hall : ∀ c ∈ operatorEnds, Text.startsName c = false :=
    forall_mem_of_all (by decide +kernel)
  unfold opensName at h
  cases hs : a.toList.head? with
  | none =>
    rw [hs] at h
    exact absurd h (by decide)
  | some c =>
    rw [hs] at h
    refine clears_of_not_mem hk fun hm => ?_
    rw [Option.any_some, hall c hm] at h
    exact absurd h (by decide)

/-- An operator right in front of a text. -/
theorem Spells.behind {k : Kind} (hk : k ∈ Kind.operators) (hw : (Word.fixed k).Whole)
    (h : a.toList = k.spelling) (hb : Spells true b ws) (hc : b.toList.head?.any k.clears = true) :
    Spells true (a ++ b) (.fixed k :: ws) := by
  intro tail us hbreak ht
  rw [String.toList_append, h, List.append_assoc]
  refine .operator hk (fun _ => hw) (fun c more he => ?_) (hb tail us hbreak ht)
  cases hs : b.toList with
  | nil =>
    rw [hs] at hc
    exact absurd hc nofun
  | cons d ds =>
    rw [hs] at hc he
    rw [← (List.cons.inj he).1]
    exact hc

/-- A text between angle brackets. -/
theorem spells_angled {inside : String} {ws : List Word} (h : Spells true inside ws)
    (hhead : inside = "" ∨ opensName inside = true) :
    Spells true ("<" ++ inside ++ ">") (.fixed .less :: (ws ++ [.fixed .greater])) := by
  have hclosed := h.append (spells_half (a := ">") (.inl rfl) rfl) (.inr (endsName (by decide +kernel)))
  have hclears : (inside ++ ">").toList.head?.any Kind.less.clears = true := by
    rcases hhead with rfl | hhead
    · decide
    · exact clears_opensName (by decide) (opensName_append hhead ">")
  rw [String.append_assoc]
  exact .behind (by decide) (by decide) rfl hclosed hclears

end Token

/-! ## Plain types -/

/-- The kind of the keyword that names a builtin type. -/
def Builtin.kind : Builtin → Kind
  | void => .kwVoid
  | auto => .kwAuto
  | anyClass => .kwClass
  | anyObject => .kwObject
  | anyStruct => .kwStruct

/-- Whether all segments of a dotted name are names. -/
def QualifiedName.isPlain (n : QualifiedName) : Bool := n.segments.all isName

/-- The words of a dotted name. -/
def QualifiedName.words (n : QualifiedName) : List Word :=
  .name n.head :: n.tail.flatMap fun segment => [.fixed .dot, .name segment]

/-- The words of qualifiers. -/
def Qualifiers.words (q : Qualifiers) : List Word :=
  (if q.isConst then [.fixed .kwConst] else []) ++ if q.isVolatile then [.fixed .kwVolatile] else []

/-- The words of a data layout. -/
def DataLayout.words (layout : DataLayout) : List Word :=
  (if layout.isSigned then [.fixed .kwSigned] else [])
    ++ [.fixed .kwData, .fixed .leftBrace, .int layout.bitWidth, .fixed .rightBrace]

namespace Ty

/-- Whether a type is a function type. -/
def isFunction (t : Ty) : Bool :=
  match t.form with
  | .function _ _ => true
  | _ => false

/-- Whether a type is named without arguments. -/
def isNamed (t : Ty) : Bool :=
  match t.form with
  | .named _ | .qualified _ => true
  | _ => false

/-- Whether an array size is a number. -/
def isNumber (e : Expr) : Bool :=
  match e.form with
  | .literal (.int _) => true
  | _ => false

/-- A type made of keywords, names, data layouts, functions, template arguments, pointers and arrays.
What is pointed to and what an array holds is no function. -/
inductive Plain : Ty → Prop
  | builtin {span : Span} {id : NodeId} (name : Builtin) : Plain ⟨.builtin name, span, id⟩
  | named {name : String} {span : Span} {id : NodeId} (h : isName name = true) :
      Plain ⟨.named name, span, id⟩
  | qualified {name : QualifiedName} {span : Span} {id : NodeId} (h : name.isPlain = true)
      (ht : name.tail ≠ []) : Plain ⟨.qualified name, span, id⟩
  | data {span : Span} {id : NodeId} (layout : DataLayout) : Plain ⟨.data layout, span, id⟩
  | function {params : List Ty} {result : Ty} {span : Span} {id : NodeId}
      (hp : ∀ p ∈ params, Plain p) (hr : Plain result) : Plain ⟨.function params result, span, id⟩
  | applied {base : Ty} {args : List Ty} {span : Span} {id : NodeId} (hb : Plain base)
      (hn : base.isNamed = true) (ha : ∀ a ∈ args, Plain a) : Plain ⟨.applied base args, span, id⟩
  | pointer {pointee : Ty} {span : Span} {id : NodeId} (q : Qualifiers) (h : Plain pointee)
      (hf : pointee.isFunction = false) : Plain ⟨.pointer pointee q, span, id⟩
  | array {element : Ty} {size : Option Expr} {span : Span} {id : NodeId} (h : Plain element)
      (hf : element.isFunction = false) (hs : ∀ e ∈ size, isNumber e = true) :
      Plain ⟨.array element size, span, id⟩

/-- The words of an array size. -/
def sizeWords : Option Expr → List Word
  | none => []
  | some e => e.words

mutual

/-- The words of a type. -/
def words : Ty → List Word
  | ⟨.builtin name, _, _⟩ => [.fixed name.kind]
  | ⟨.named name, _, _⟩ => [.name name]
  | ⟨.qualified name, _, _⟩ => name.words
  | ⟨.data layout, _, _⟩ => layout.words
  | ⟨.function params result, _, _⟩ =>
    .fixed .kwDef :: .fixed .leftParen :: ([Word.fixed .comma].intercalate (wordsEach params)
      ++ .fixed .rightParen :: .fixed .arrow :: result.words)
  | ⟨.applied base args, _, _⟩ =>
    base.words ++ .fixed .less :: ([Word.fixed .comma].intercalate (wordsEach args)
      ++ [.fixed .greater])
  | ⟨.pointer pointee q, _, _⟩ => pointee.words ++ .fixed .star :: q.words
  | ⟨.array element size, _, _⟩ =>
    element.words ++ .fixed .leftBracket :: (sizeWords size ++ [.fixed .rightBracket])
  | ⟨.placeholder, _, _⟩ => []

/-- The words of each of some types. -/
def wordsEach : List Ty → List (List Word)
  | [] => []
  | t :: more => t.words :: wordsEach more

end

theorem printList_eq (ts : List Ty) (level : Nat) : printList ts level = ts.map (·.print level) := by
  induction ts with
  | nil => rfl
  | cons t more ih => exact congrArg (t.print level :: ·) ih

theorem wordsEach_eq (ts : List Ty) : wordsEach ts = ts.map words := by
  induction ts with
  | nil => rfl
  | cons t more ih => exact congrArg (t.words :: ·) ih

end Ty

/-! ## Scanning a printed type -/

theorem QualifiedName.display_eq (head : String) (tail : List String) :
    (display ⟨head, tail⟩).toList = head.toList ++ tail.flatMap fun s => '.' :: s.toList := by
  induction tail generalizing head with
  | nil => simp [display, segments]
  | cons s more ih =>
    have hmore := ih s
    simp only [display, segments] at hmore ⊢
    rw [String.intercalate_cons_cons, String.toList_append, String.toList_append, hmore]
    simp

/-- A dotted name. -/
theorem QualifiedName.spells {n : QualifiedName} (h : n.isPlain = true) :
    Spells true n.display n.words := by
  obtain ⟨head, tail⟩ := n
  rw [isPlain, segments, List.all_cons, Bool.and_eq_true, List.all_eq_true] at h
  obtain ⟨hhead, htail⟩ := h
  intro rest us hbreak hrest
  -- what stands behind a segment ends it, and is made of the segments to come
  have hmore : Breaks ((tail.flatMap fun s => '.' :: s.toList) ++ rest) ∧
      Writes true ((tail.flatMap fun s => '.' :: s.toList) ++ rest)
        ((tail.flatMap fun s => [Word.fixed .dot, .name s]) ++ us) := by
    clear hhead
    induction tail with
    | nil => exact ⟨hbreak, hrest⟩
    | cons s more ih =>
      obtain ⟨hb, hw⟩ := ih fun x hx => htail x (List.mem_cons_of_mem s hx)
      have hs := htail s List.mem_cons_self
      have hname := spells_name hs _ _ hb hw
      have hdot : Writes true (Kind.dot.spelling ++ (s.toList ++ _)) _ :=
        .final (by decide) (by decide) (fun _ => by decide) hname
      obtain ⟨c, cs, hcs, hc, -⟩ := exists_of_isName hs
      rw [List.flatMap_cons, List.flatMap_cons, List.append_assoc, List.append_assoc]
      refine ⟨?_, hdot⟩
      rw [hcs]
      exact .dot (blank_digit_of_startsName hc).2
  rw [display_eq, List.append_assoc]
  exact spells_name hhead _ _ hmore.1 hmore.2

/-- A dotted name starts like a name. -/
theorem QualifiedName.opensName {n : QualifiedName} (h : n.isPlain = true) :
    Token.opensName n.display = true := by
  obtain ⟨head, tail⟩ := n
  rw [isPlain, segments, List.all_cons, Bool.and_eq_true] at h
  obtain ⟨c, cs, hcs, hc, -⟩ := exists_of_isName h.1
  unfold Token.opensName
  rw [display_eq, hcs]
  exact hc

/-- Qualifiers behind a pointer start with a blank, if there are any. -/
theorem pointerQualifiers_cases (q : Qualifiers) :
    pointerQualifiers q = "" ∨ EndsName (pointerQualifiers q) := by
  obtain ⟨isConst, isVolatile⟩ := q
  cases isConst <;> cases isVolatile
  · exact .inl rfl
  all_goals exact .inr (endsName (by decide +kernel))

theorem spells_pointerQualifiers (q : Qualifiers) : Spells true (pointerQualifiers q) q.words := by
  have hconst : Spells true (if q.isConst then " const" else "")
      (if q.isConst then [.fixed .kwConst] else []) := by
    split
    · exact spells_blank_keyword (k := .kwConst) (by decide) nofun (by decide) rfl
    · exact spells_empty
  have hvolatile : Spells true (if q.isVolatile then " volatile" else "")
      (if q.isVolatile then [.fixed .kwVolatile] else []) := by
    split
    · exact spells_blank_keyword (k := .kwVolatile) (by decide) nofun (by decide) rfl
    · exact spells_empty
  refine hconst.append hvolatile ?_
  split
  · exact .inr (endsName (by decide +kernel))
  · exact .inl rfl

theorem sets_dataLayout (layout : DataLayout) : Sets (dataLayout layout) layout.words := by
  have hsign : Sets (if layout.isSigned then "signed " else "")
      (if layout.isSigned then [.fixed .kwSigned] else []) := by
    split
    · exact sets_keyword (k := .kwSigned) (by decide) nofun (by decide) rfl
    · exact sets_empty
  have hdata : Sets ("data" ++ "\x7b") ([.fixed .kwData] ++ [.fixed .leftBrace]) :=
    (spells_keyword (k := .kwData) (by decide) nofun (by decide) rfl).closed (by decide) rfl
  have hwidth : Sets _ ((_ ++ [.int layout.bitWidth]) ++ [.fixed .rightBrace]) :=
    ((hsign.append hdata).before (spells_int layout.bitWidth)).closed (b := "\x7d") (by decide) rfl
  intro tail us ht
  have hall := hwidth tail us ht
  simpa [dataLayout, DataLayout.words] using hall

namespace Ty

/-- A type starts with a name or a keyword. -/
theorem Plain.opensName {t : Ty} (h : t.Plain) (level : Nat) : opensName (t.print level) = true := by
  induction h with
  | builtin name =>
    have hall : Token.opensName name.keyword = true := by cases name <;> decide +kernel
    exact hall
  | named h => exact opensName_of_isName h
  | qualified h ht => exact QualifiedName.opensName h
  | data layout =>
    have hall : ∀ isSigned : Bool, Token.opensName ((if isSigned then "signed " else "") ++ "data\x7b") = true := by
      decide +kernel
    exact opensName_append (opensName_append (hall layout.isSigned) _) _
  | function hp hr ihp ihr =>
    exact opensName_append (opensName_append (opensName_append (by decide +kernel) _) _) _
  | applied hb hn ha ihb => exact opensName_append (opensName_append (opensName_append ihb _) _) _
  | pointer q h hf ih => exact opensName_append (opensName_append ih _) _
  | array h hf hs ih => exact opensName_append (opensName_append (opensName_append ih _) _) _

theorem exists_of_isNumber {e : Expr} (h : isNumber e = true) :
    ∃ value span id, e = ⟨.literal (.int value), span, id⟩ := by
  obtain ⟨form, span, id⟩ := e
  unfold isNumber at h
  split at h
  · rename_i value hform
    obtain rfl : form = .literal (.int value) := hform
    exact ⟨value, span, id, rfl⟩
  · exact absurd h (by decide)

theorem spells_size {size : Option Expr} (h : ∀ e ∈ size, isNumber e = true) (level : Nat) :
    Spells true ((Expr.printOption size level).getD "") (sizeWords size) := by
  cases size with
  | none => exact spells_empty
  | some e =>
    obtain ⟨value, span, id, rfl⟩ := exists_of_isNumber (h e rfl)
    exact spells_int value

/-- **A printed type is read as its words.** -/
theorem Plain.spells {t : Ty} (h : t.Plain) (level : Nat) : Spells true (t.print level) t.words := by
  induction h with
  | builtin name =>
    cases name <;> exact spells_keyword (by decide) nofun (by decide) rfl
  | named h => exact spells_name h
  | qualified h ht => exact QualifiedName.spells h
  | data layout => exact (sets_dataLayout layout).spells
  | @function params result span id hp hr ihp ihr =>
    have hparams := spells_separated (f := (Ty.print · level)) ihp
    rw [← printList_eq, ← wordsEach_eq] at hparams
    have hdef : Sets ("def" ++ "(") ([.fixed .kwDef] ++ [.fixed .leftParen]) :=
      (spells_keyword (k := .kwDef) (by decide) nofun (by decide) rfl).closed (by decide) rfl
    have hall := ((hdef.before hparams).sets sets_arrow (endsName (by decide +kernel))).before ihr
    simpa [print, words] using hall
  | @applied base args span id hb hn ha ihb iha =>
    have hargs := spells_separated (f := (Ty.print · level)) iha
    have hhead := head_separated (f := (Ty.print · level)) fun a hm => (ha a hm).opensName level
    rw [← printList_eq] at hhead hargs
    rw [← wordsEach_eq] at hargs
    have hends : EndsName ("<" ++ separated (printList args level) ++ ">") :=
      ((endsName (by decide +kernel)).append _).append _
    have hall := ihb.append (spells_angled hargs hhead) (.inr hends)
    simpa [print, words, String.append_assoc] using hall
  | @pointer pointee span id q h hf ih =>
    have hstar := ih.append (spells_half (a := "*") (.inr rfl) rfl) (.inr (endsName (by decide +kernel)))
    have hall := hstar.append (spells_pointerQualifiers q) (pointerQualifiers_cases q)
    simpa [print, words] using hall
  | @array element size span id h hf hs ih =>
    have hopen : Sets _ (_ ++ [.fixed .leftBracket]) := ih.closed (b := "[") (by decide) rfl
    have hclosed : Sets _ (_ ++ [.fixed .rightBracket]) :=
      (hopen.before (spells_size hs level)).closed (b := "]") (by decide) rfl
    have hall := hclosed.spells
    simpa [print, words] using hall

end Ty

end FluxFront
