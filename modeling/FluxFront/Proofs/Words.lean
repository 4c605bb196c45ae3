import FluxFront.Proofs.Spellings

/-!
# Words

What the scanner makes of a text that is put together from words and gaps.

* **Word**: a token without its place.  A word is *legible* in front of a text if the scanner, standing
  at the word, reads just the word and leaves the text.
* **Scanning**: `Scans text ws` says that the scanner gives the words `ws` and has nothing to complain
  about.  It is built up from the end of the text to its front: a blank may stand in front of anything,
  and a word in front of a text in which it is legible.
* **Operators** are legible where no longer operator begins, **names** where the name does not go on.
-/

namespace FluxFront.Token

/-- A token without its place. -/
structure Word where
  kind : Kind
  text : List Char
  literal : Option Value := none
deriving DecidableEq, Repr

/-- A token without its place. -/
def word (t : Token) : Word := ⟨t.kind, t.lexeme.toList, t.literal⟩

namespace Word

/-- The end of the text. -/
def eof : Word := ⟨.eof, [], none⟩

/-- The word is read as itself in front of a text. -/
structure Legible (w : Word) (rest : List Char) : Prop where
  nonempty : w.text ≠ []
  gap (here : Location) : skipGap .blank here false (w.text ++ rest) = ⟨w.text ++ rest, here, false, []⟩
  reads (here : Location) (c : Char) (text : List Char) : w.text ++ rest = c :: text →
    readToken here c text = ⟨w.kind, w.text, rest, w.literal, []⟩
  ne_eof : w.kind ≠ .eof
  ne_asm : w.kind ≠ .kwAsm

end Word

/-! ## Gaps -/

theorem skipGap_blank {c : Char} (hc : Text.isBlank c = true) (here : Location) (afterAsm : Bool)
    (text : List Char) :
    skipGap .blank here afterAsm (c :: text) = skipGap .blank (here.next c) afterAsm text := by
  have hne : c ≠ '/' := by
    rintro rfl
    exact absurd hc (by decide)
  rw [skipGap.eq_def]
  split
  all_goals simp_all

/-- A character that starts a token, and no comment, ends a gap. -/
theorem skipGap_start {c : Char} {text : List Char} (hs : startsToken c = true)
    (hb : Text.isBlank c = false)
    (hc : c = '/' → ∀ d rest, text = d :: rest → d ≠ '/' ∧ d ≠ '*') (here : Location)
    (afterAsm : Bool) :
    skipGap .blank here afterAsm (c :: text) = ⟨c :: text, here, afterAsm, []⟩ := by
  rw [skipGap.eq_def]
  split
  all_goals simp_all

/-! ## Scanning words -/

/-- The scanner reads the words of a text and then its end, and has nothing to complain about. -/
def Scans (text : List Char) (ws : List Word) : Prop :=
  ∀ here fuel, text.length < fuel →
    ((Scanner.mk text here false).run fuel).1.map word = ws ++ [.eof]
      ∧ ((Scanner.mk text here false).run fuel).2 = []

namespace Scans

theorem nil : Scans [] [] := by
  intro here fuel hfuel
  obtain ⟨fuel, rfl⟩ : ∃ n, fuel = n + 1 := ⟨fuel - 1, by omega⟩
  exact ⟨rfl, rfl⟩

theorem blank {c : Char} {text : List Char} {ws : List Word} (hc : Text.isBlank c = true)
    (h : Scans text ws) : Scans (c :: text) ws := by
  intro here fuel hfuel
  rw [List.length_cons] at hfuel
  obtain ⟨fuel, rfl⟩ : ∃ n, fuel = n + 1 := ⟨fuel - 1, by omega⟩
  have hnext : (Scanner.mk (c :: text) here false).next = (Scanner.mk text (here.next c) false).next := by
    unfold Scanner.next
    rw [skipGap_blank hc]
  unfold Scanner.run
  rw [hnext]
  exact h (here.next c) (fuel + 1) (by omega)

theorem word {w : Word} {text : List Char} {ws : List Word} (hw : w.Legible text)
    (h : Scans text ws) : Scans (w.text ++ text) (w :: ws) := by
  intro here fuel hfuel
  obtain ⟨c, behind, hsplit⟩ : ∃ c behind, w.text ++ text = c :: behind := by
    cases hw' : w.text ++ text with
    | nil => exact absurd (List.append_eq_nil_iff.1 hw').1 hw.nonempty
    | cons c behind => exact ⟨c, behind, rfl⟩
  obtain ⟨fuel, rfl⟩ : ∃ n, fuel = n + 1 := ⟨fuel - 1, by omega⟩
  have hlen : text.length < fuel := by
    have hpos : 0 < w.text.length := List.length_pos_iff.2 hw.nonempty
    rw [List.length_append] at hfuel
    omega
  have hnext : (Scanner.mk (w.text ++ text) here false).next =
      ({ kind := w.kind, lexeme := String.ofList w.text, span := ⟨here, here.after w.text⟩,
         literal := w.literal }, [], ⟨text, here.after w.text, false⟩) := by
    have hasm : (w.kind == Kind.kwAsm) = false := beq_eq_false_iff_ne.2 hw.ne_asm
    unfold Scanner.next
    rw [hw.gap here]
    simp only [hsplit, hw.reads here c behind hsplit, Bool.false_and, Bool.false_eq_true, if_false,
      hasm, List.append_nil]
    rfl
  have hrest := h (here.after w.text) fuel hlen
  unfold Scanner.run
  rw [hnext]
  simp only [hw.ne_eof, if_false, List.map_cons, hrest.1, hrest.2, List.append_nil, Token.word,
    String.toList_ofList, List.cons_append]
  exact ⟨trivial, trivial⟩

end Scans

/-! ## Operators and delimiters -/

/-- The word of a kind that has a spelling. -/
def Word.fixed (k : Kind) : Word := ⟨k, k.spelling, none⟩

@[simp] theorem Word.kind_fixed (k : Kind) : (Word.fixed k).kind = k := rfl

/-- Whether a character behind an operator neither goes on with another operator nor starts a
comment. -/
def Kind.clears (k : Kind) (c : Char) : Bool :=
  (Kind.operators.all fun other => !(k.spelling ++ [c]).isPrefixOf other.spelling)
    && !(k == .slash && (c == '/' || c == '*'))

/-- No operator of the table starts one that stands behind it. -/
theorem operators_pairwise :
    Kind.operators.Pairwise fun a b => a.spelling.isPrefixOf b.spelling = false := by
  decide

/-- In front of a character that clears it, an operator is the first of the table to match. -/
theorem matchOperator_spelling {k : Kind} (hk : k ∈ Kind.operators) {rest : List Char}
    (h : ∀ c text, rest = c :: text → k.clears c = true) :
    Kind.matchOperator? (k.spelling ++ rest) = some (k, k.spelling, rest) := by
  obtain ⟨before, behind, hsplit⟩ := List.append_of_mem hk
  have hpair := operators_pairwise
  rw [hsplit, List.pairwise_append] at hpair
  refine matchOperator_eq_some_iff.2 ⟨rfl, rfl, before, behind, hsplit, ?_⟩
  rintro other hother ⟨r, hr⟩
  have hmem : other ∈ Kind.operators := by
    rw [hsplit]
    exact List.mem_append_left _ hother
  have hnot : other.spelling.isPrefixOf k.spelling = false :=
    hpair.2.2 other hother k List.mem_cons_self
  -- one of the two spellings goes on where the other has ended
  rcases List.append_eq_append_iff.1 hr.symm with ⟨more, hlong, hrest⟩ | ⟨more, hshort, -⟩
  · cases more with
    | nil =>
      rw [List.append_nil] at hlong
      rw [hlong] at hnot
      exact absurd hnot (by simp)
    | cons c more =>
      have hclear := h c (more ++ r) (by rw [hrest, List.cons_append])
      unfold Kind.clears at hclear
      rw [Bool.and_eq_true, List.all_eq_true] at hclear
      have hno := hclear.1 other hmem
      have hyes : (k.spelling ++ [c]).isPrefixOf other.spelling = true :=
        List.isPrefixOf_iff_prefix.2 ⟨more, by rw [hlong, List.append_assoc, List.cons_append,
          List.nil_append]⟩
      rw [hyes] at hno
      exact absurd hno (by decide)
  · rw [hshort] at hnot
    exact absurd hnot (by simp)

/-- What can be decided of a character holds of those in a list if it does so one by one; no other
character is looked at. -/
theorem forall_mem_of_all {p : Char → Prop} [DecidablePred p] {cs : List Char}
    (h : (cs.all fun c => decide (p c)) = true) : ∀ c ∈ cs, p c :=
  fun c hc => of_decide_eq_true (List.all_eq_true.1 h c hc)

/-- The characters that operators start with start tokens and are no blanks. -/
theorem starts_of_operatorStarts {c : Char} (h : c ∈ operatorStarts) :
    startsToken c = true ∧ Text.isBlank c = false := by
  have table : ∀ c ∈ operatorStarts, Text.isBlank c = false := forall_mem_of_all (by decide)
  exact ⟨by simp [startsToken, h], table c h⟩

/-- Two operators start with a slash. -/
theorem operator_of_slash {k : Kind} (hk : k ∈ Kind.operators) (h : k.spelling.head? = some '/') :
    k = .slash ∨ k = .slashEqual := by
  revert k
  decide

theorem legible_operator {k : Kind} (hk : k ∈ Kind.operators) {rest : List Char}
    (h : ∀ c text, rest = c :: text → k.clears c = true) : (Word.fixed k).Legible rest := by
  obtain ⟨first, more, hfirst, hmem⟩ := Kind.spelling_of_operator hk
  have hstart := starts_of_operatorStarts hmem
  refine ⟨?_, fun here => ?_, fun here c text hsplit => ?_, ?_, ?_⟩
  · show k.spelling ≠ []
    rw [hfirst]
    exact List.cons_ne_nil _ _
  · show skipGap .blank here false (k.spelling ++ rest) = ⟨k.spelling ++ rest, here, false, []⟩
    rw [hfirst, List.cons_append]
    refine skipGap_start hstart.1 hstart.2 ?_ here false
    rintro rfl d text hd
    rcases operator_of_slash hk (by rw [hfirst]; rfl) with rfl | rfl
    · obtain rfl : [] = more := (List.cons.inj hfirst).2
      have hclear := h d text hd
      unfold Kind.clears at hclear
      rw [Bool.and_eq_true] at hclear
      simpa using hclear.2
    · obtain rfl : ['='] = more := (List.cons.inj hfirst).2
      obtain rfl : '=' = d := (List.cons.inj hd).1
      decide
  · have hm := matchOperator_spelling hk h
    have hsplit' : k.spelling ++ rest = c :: text := hsplit
    unfold readToken
    rw [← hsplit', hm]
    rfl
  · show k ≠ .eof
    rintro rfl
    exact absurd hk (by decide)
  · show k ≠ .kwAsm
    rintro rfl
    exact absurd hk (by decide)

/-- The characters that go on with an operator or make a comment of a slash. -/
def operatorEnds : List Char := ['*', '=', '+', '-', '<', '>', '&', '|', '/']

theorem mem_operatorEnds {k : Kind} (hk : k ∈ Kind.operators) :
    ∀ c ∈ k.spelling.drop 1, c ∈ operatorEnds := by
  have table : ∀ k ∈ Kind.operators,
      ((k.spelling.drop 1).all fun c => decide (c ∈ operatorEnds)) = true := by decide
  exact forall_mem_of_all (table k hk)

/-- A character that ends no operator may stand behind every one. -/
theorem clears_of_not_mem {k : Kind} (hk : k ∈ Kind.operators) {c : Char} (hc : c ∉ operatorEnds) :
    k.clears c = true := by
  unfold Kind.clears
  rw [Bool.and_eq_true, List.all_eq_true]
  constructor
  · intro other hother
    rw [Bool.not_eq_true', Bool.eq_false_iff]
    intro hprefix
    obtain ⟨more, hmore⟩ := List.isPrefixOf_iff_prefix.1 hprefix
    obtain ⟨first, others, hs⟩ := List.exists_cons_of_ne_nil (Kind.spelling_ne_nil hk)
    refine hc (mem_operatorEnds hother c ?_)
    rw [← hmore, hs]
    simp
  · have hslash : c ≠ '/' := by
      rintro rfl
      exact hc (by decide)
    have hstar : c ≠ '*' := by
      rintro rfl
      exact hc (by decide)
    simp [hslash, hstar]

/-- Whether no operator goes on with an operator, so that anything may stand behind it. -/
def Kind.isFinal (k : Kind) : Bool :=
  k != .slash && Kind.operators.all fun other =>
    !(k.spelling.isPrefixOf other.spelling && decide (k.spelling.length < other.spelling.length))

theorem clears_of_isFinal {k : Kind} (hk : k.isFinal = true) (c : Char) : k.clears c = true := by
  unfold Kind.isFinal at hk
  rw [Bool.and_eq_true, List.all_eq_true, bne_iff_ne] at hk
  unfold Kind.clears
  rw [Bool.and_eq_true, List.all_eq_true]
  constructor
  · intro other hother
    have hno := hk.2 other hother
    rw [Bool.not_eq_true', Bool.eq_false_iff] at hno ⊢
    intro hprefix
    obtain ⟨more, hmore⟩ := List.isPrefixOf_iff_prefix.1 hprefix
    refine hno ?_
    rw [Bool.and_eq_true, decide_eq_true_eq, ← hmore]
    constructor
    · rw [List.isPrefixOf_iff_prefix, List.append_assoc]
      exact List.prefix_append _ _
    · simp
  · simp [hk.1]

/-! ## Names and keywords -/

/-- A text that does not go on with a name, a number or one of the operators that come in halves, so
that it may stand right behind one. -/
def Breaks (rest : List Char) : Prop :=
  ∀ c text, rest = c :: text → Text.continuesName c = false ∧ (c ≠ '"' ∧ c ≠ '=')
    ∧ (c = '.' → ∀ d more, text = d :: more → d.isDigit = false)

theorem Breaks.nil : Breaks [] := nofun

/-- Whether a character may stand behind a name, whatever comes then. -/
def isBreak (c : Char) : Bool := !Text.continuesName c && ['"', '=', '.'].all (· != c)

/-- Behind a name or a number may stand a blank, a delimiter or an operator. -/
theorem Breaks.cons {c : Char} (hc : isBreak c = true) (text : List Char) : Breaks (c :: text) := by
  unfold isBreak at hc
  simp only [List.all_cons, List.all_nil, Bool.and_true, Bool.and_eq_true, Bool.not_eq_true',
    bne_iff_ne] at hc
  obtain ⟨hname, hquote, hequal, hdot⟩ := hc
  intro d more he
  obtain ⟨rfl, -⟩ := List.cons.inj he
  exact ⟨hname, ⟨hquote.symm, hequal.symm⟩, fun h => absurd h.symm hdot⟩

theorem Breaks.blank (text : List Char) : Breaks (' ' :: text) := .cons (by decide +kernel) text

/-- Behind a name may stand a dot and another name. -/
theorem Breaks.dot {c : Char} {text : List Char} (hc : c.isDigit = false) :
    Breaks ('.' :: c :: text) := by
  intro d more he
  obtain ⟨rfl, rfl⟩ := List.cons.inj he
  refine ⟨by decide +kernel, by decide, fun _ d more he => ?_⟩
  rw [← (List.cons.inj he).1]
  exact hc

/-- Letters and blanks do not overlap. -/
theorem letterRanges_blankRanges :
    (Text.letterRanges.all fun r => Text.blankRanges.all fun b =>
      decide (r.2 < b.1 ∨ b.2 < r.1)) = true := by
  decide +kernel

theorem ascii_letter : ∀ n < 128, (Char.ofNat n).isAlpha = true →
    Text.isBlank (Char.ofNat n) = false ∧ (Char.ofNat n).isDigit = false := by
  decide

theorem toNat_of_isDigit {c : Char} (h : c.isDigit = true) : 48 ≤ c.toNat ∧ c.toNat ≤ 57 := by
  unfold Char.isDigit at h
  rw [Bool.and_eq_true, decide_eq_true_eq, decide_eq_true_eq] at h
  exact ⟨UInt32.le_iff_toNat_le.1 h.1, UInt32.le_iff_toNat_le.1 h.2⟩

/-- A letter is neither a blank nor a digit. -/
theorem blank_digit_of_isLetter {c : Char} (h : Text.isLetter c = true) :
    Text.isBlank c = false ∧ c.isDigit = false := by
  unfold Text.isLetter at h
  by_cases hsmall : c.toNat < 128
  · rw [if_pos hsmall] at h
    have hc := ascii_letter c.toNat hsmall
    rw [Char.ofNat_toNat] at hc
    exact hc h
  · rw [if_neg hsmall] at h
    constructor
    · rw [Bool.eq_false_iff]
      intro hb
      obtain ⟨b, hbm, hb₁, hb₂⟩ := Text.inRanges_eq_true_iff.1 hb
      obtain ⟨r, hrm, hr₁, hr₂⟩ := Text.inRanges_eq_true_iff.1 h
      have hall := letterRanges_blankRanges
      rw [List.all_eq_true] at hall
      have hr := hall r hrm
      rw [List.all_eq_true] at hr
      have hd := of_decide_eq_true (hr b hbm)
      omega
    · rw [Bool.eq_false_iff]
      intro hd
      have hn := toNat_of_isDigit hd
      omega

theorem blank_digit_of_startsName {c : Char} (h : Text.startsName c = true) :
    Text.isBlank c = false ∧ c.isDigit = false := by
  unfold Text.startsName at h
  rw [Bool.or_eq_true, beq_iff_eq] at h
  rcases h with h | rfl
  · exact blank_digit_of_isLetter h
  · decide

theorem matchOperator_none {c : Char} (hc : c ∉ operatorStarts) (text : List Char) :
    Kind.matchOperator? (c :: text) = none := by
  rw [matchOperator_eq_none_iff]
  rintro k hk ⟨more, hmore⟩
  obtain ⟨d, others, hd, hstart⟩ := Kind.spelling_of_operator hk
  rw [hd] at hmore
  exact hc ((List.cons.inj hmore).1 ▸ hstart)

/-- No operator starts like a name. -/
theorem not_operatorStarts_of_startsName {c : Char} (hc : Text.startsName c = true) :
    c ∉ operatorStarts := by
  have hall : (operatorStarts.all fun c => !Text.startsName c) = true := by decide +kernel
  rw [List.all_eq_true] at hall
  intro hm
  have hno := hall c hm
  rw [hc] at hno
  exact absurd hno (by decide)

/-- What is taken off the front of a text ends where the text breaks off. -/
theorem takeWhile_break {p : Char → Bool} {cs rest : List Char} (hcs : ∀ c ∈ cs, p c = true)
    (hrest : ∀ c text, rest = c :: text → p c = false) :
    (cs ++ rest).takeWhile p = cs ∧ (cs ++ rest).dropWhile p = rest := by
  rw [List.takeWhile_append_of_pos hcs, List.dropWhile_append_of_pos hcs]
  cases rest with
  | nil => simp
  | cons c text =>
    rw [List.takeWhile_cons, List.dropWhile_cons, hrest c text rfl]
    simp

/-- A name in front of a break is read as a whole. -/
theorem readToken_name {c : Char} {cs rest : List Char} (hc : Text.startsName c = true)
    (hcs : ∀ d ∈ cs, Text.continuesName d = true) (h : Breaks rest) (here : Location) :
    readToken here c (cs ++ rest) =
      ⟨(Kind.ofKeyword? (String.ofList (c :: cs))).getD .identifier, c :: cs, rest, none, []⟩ := by
  have hne : ∀ x : Char, Text.startsName x = false → c ≠ x := by
    rintro x hx rfl
    rw [hc] at hx
    exact absurd hx (by decide)
  obtain ⟨htake, hdrop⟩ := takeWhile_break hcs fun d text hd => (h d text hd).1
  -- the text behind the first character does not open a string
  have hquote : ∀ behind, cs ++ rest ≠ '"' :: behind := by
    intro behind he
    cases cs with
    | nil => exact (h _ _ he).2.1.1 rfl
    | cons d ds =>
      have hd := hcs d List.mem_cons_self
      rw [(List.cons.inj he).1] at hd
      exact absurd hd (by decide)
  unfold readToken
  rw [matchOperator_none (not_operatorStarts_of_startsName hc)]
  dsimp only
  rw [if_neg (hne _ (by decide)), if_neg (hne _ (by decide)),
    if_neg (by rw [(blank_digit_of_startsName hc).2]; decide)]
  split
  · rename_i he
    exact absurd he (hquote _)
  · unfold readName
    rw [htake, hdrop]

theorem legible_name {w : Word} {c : Char} {cs rest : List Char} (hw : w.text = c :: cs)
    (hc : Text.startsName c = true) (hcs : ∀ d ∈ cs, Text.continuesName d = true)
    (hk : w.kind = (Kind.ofKeyword? (String.ofList (c :: cs))).getD .identifier)
    (hl : w.literal = none) (hasm : w.kind ≠ .kwAsm) (h : Breaks rest) : w.Legible rest := by
  have hslash : c ≠ '/' := by
    rintro rfl
    exact absurd hc (by decide)
  refine ⟨?_, fun here => ?_, fun here d text hsplit => ?_, ?_, hasm⟩
  · rw [hw]
    exact List.cons_ne_nil _ _
  · rw [hw, List.cons_append]
    refine skipGap_start ?_ (blank_digit_of_startsName hc).1 (fun he => absurd he hslash) here false
    unfold startsToken
    rw [hc, Bool.or_true]
  · rw [hw, List.cons_append] at hsplit
    obtain ⟨rfl, rfl⟩ := List.cons.inj hsplit
    rw [readToken_name hc hcs h, hk, hw, hl]
  · rw [hk]
    cases hf : Kind.ofKeyword? (String.ofList (c :: cs)) with
    | none => exact nofun
    | some k =>
      have hm := Kind.mem_of_ofKeyword hf
      rintro rfl
      exact absurd hm (by decide)

/-- Whether a text is read as a name: it starts and goes on as names do, and it is no keyword. -/
def isName (name : String) : Bool :=
  match name.toList with
  | [] => false
  | c :: cs => Text.startsName c && cs.all Text.continuesName && (Kind.ofKeyword? name).isNone

/-- The word of a name. -/
def Word.name (name : String) : Word := ⟨.identifier, name.toList, none⟩

theorem exists_of_isName {name : String} (h : isName name = true) :
    ∃ c cs, name.toList = c :: cs ∧ Text.startsName c = true
      ∧ (∀ d ∈ cs, Text.continuesName d = true) ∧ Kind.ofKeyword? name = none := by
  unfold isName at h
  cases hn : name.toList with
  | nil => simp [hn] at h
  | cons c cs =>
    rw [hn] at h
    simp only [Bool.and_eq_true, List.all_eq_true, Option.isNone_iff_eq_none] at h
    exact ⟨c, cs, rfl, h.1.1, h.1.2, h.2⟩

theorem legible_isName {name : String} (h : isName name = true) {rest : List Char}
    (hr : Breaks rest) : (Word.name name).Legible rest := by
  obtain ⟨c, cs, hn, hc, hcs, hk⟩ := exists_of_isName h
  refine legible_name hn hc hcs ?_ rfl nofun hr
  rw [← hn, String.ofList_toList, hk]
  rfl

/-- Every keyword is spelled like a name and found by its spelling. -/
theorem keyword_spelling {k : Kind} (hk : k ∈ Kind.keywords) :
    (match k.spelling with
      | [] => false
      | c :: cs => Text.startsName c && cs.all Text.continuesName
          && Kind.ofKeyword? (String.ofList (c :: cs)) == some k) = true := by
  revert k
  decide +kernel

theorem legible_keyword {k : Kind} (hk : k ∈ Kind.keywords) (hasm : k ≠ .kwAsm) {rest : List Char}
    (hr : Breaks rest) : (Word.fixed k).Legible rest := by
  have h := keyword_spelling hk
  cases hs : k.spelling with
  | nil => simp [hs] at h
  | cons c cs =>
    rw [hs] at h
    simp only [Bool.and_eq_true, List.all_eq_true, beq_iff_eq] at h
    refine legible_name hs h.1.1 h.1.2 ?_ rfl hasm hr
    rw [h.2]
    rfl

/-! ## Halves -/

namespace Word

/-- The words that a word may be read as. -/
def halves (w : Word) : List Word :=
  match w.kind with
  | .shr => [.fixed .greater, .fixed .greater]
  | .starStar => [.fixed .star, .fixed .star]
  | _ => [w]

/-- The words, or the halves of them. -/
def sight (halved : Bool) (ws : List Word) : List Word := if halved then ws.flatMap halves else ws

theorem sight_cons (halved : Bool) (w : Word) (ws : List Word) :
    sight halved (w :: ws) = sight halved [w] ++ sight halved ws := by
  cases halved with
  | false => rfl
  | true => simp [sight]

/-- A word that neither is nor starts with one of the operators that come in halves. -/
def Whole (w : Word) : Prop :=
  w.halves = [w] ∧ w.text.head? ≠ some '>' ∧ w.text.head? ≠ some '*'

instance (w : Word) : Decidable w.Whole := inferInstanceAs (Decidable (_ ∧ _ ∧ _))

end Word

/-- A text is made of blanks and words.  Where halves count, two `>` may stand side by side although
the scanner makes one word of them, and likewise two `*`. -/
inductive Writes (halved : Bool) : List Char → List Word → Prop
  | nil : Writes halved [] []
  | blank {c : Char} {text : List Char} {ws : List Word} (hc : Text.isBlank c = true)
      (h : Writes halved text ws) : Writes halved (c :: text) ws
  | word {w : Word} {text : List Char} {ws : List Word} (hw : w.Legible text)
      (hh : halved = true → w.Whole) (h : Writes halved text ws) :
      Writes halved (w.text ++ text) (w :: ws)
  | half {k : Kind} {text : List Char} {ws : List Word} (hh : halved = true)
      (hk : k = .greater ∨ k = .star) (hc : text.head? ≠ some '=') (h : Writes halved text ws) :
      Writes halved (k.spelling ++ text) (.fixed k :: ws)

namespace Writes

variable {halved : Bool} {text : List Char} {ws : List Word} {k : Kind}

/-- A half at the front of a text is a word of its own. -/
theorem of_half (hk : k = .greater ∨ k = .star) (h : Writes true text ws) {more : List Char}
    (ht : text = k.spelling ++ more) :
    ∃ us, ws = .fixed k :: us ∧ Writes true more us ∧ more.head? ≠ some '=' := by
  cases h with
  | nil => rcases hk with rfl | rfl <;> exact absurd ht nofun
  | @blank c text ws hc h =>
    rcases hk with rfl | rfl
    · obtain ⟨rfl, -⟩ := List.cons.inj ht
      exact absurd hc (by decide)
    · obtain ⟨rfl, -⟩ := List.cons.inj ht
      exact absurd hc (by decide)
  | @word w text ws hw hh h =>
    obtain ⟨-, hgreater, hstar⟩ := hh rfl
    obtain ⟨c, cs, hc⟩ := List.exists_cons_of_ne_nil hw.nonempty
    rw [hc] at hgreater hstar
    rw [hc, List.cons_append] at ht
    rcases hk with rfl | rfl
    · exact absurd (congrArg some (List.cons.inj ht).1) hgreater
    · exact absurd (congrArg some (List.cons.inj ht).1) hstar
  | @half k' text ws hh hk' hc h =>
    rcases hk with rfl | rfl <;> rcases hk' with rfl | rfl
    · obtain ⟨-, rfl⟩ := List.cons.inj ht
      exact ⟨ws, rfl, h, hc⟩
    · exact absurd (List.cons.inj ht).1 (by decide)
    · exact absurd (List.cons.inj ht).1 (by decide)
    · obtain ⟨-, rfl⟩ := List.cons.inj ht
      exact ⟨ws, rfl, h, hc⟩

/-- The operator of two halves. -/
def doubled (k : Kind) : Kind := if k = .greater then .shr else .starStar

theorem doubled_spec (hk : k = .greater ∨ k = .star) :
    k ∈ Kind.operators ∧ doubled k ∈ Kind.operators ∧ (doubled k).spelling = k.spelling ++ k.spelling ∧
      Word.sight true [.fixed (doubled k)] = [.fixed k, .fixed k] ∧
      Word.sight true [.fixed k] = [.fixed k] := by
  rcases hk with rfl | rfl <;> decide

/-- What goes on with a half is its like or an equals sign; its double goes on with the latter. -/
theorem clears_half (hk : k = .greater ∨ k = .star) {c : Char} (hc : c ≠ '=') :
    (doubled k).clears c = true ∧ (k.spelling ≠ [c] → k.clears c = true) := by
  by_cases hm : c ∈ operatorEnds
  · have hall : ∀ k ∈ [Kind.greater, .star], (operatorEnds.all fun c => decide (c ≠ '=' →
        (doubled k).clears c = true ∧ (k.spelling ≠ [c] → k.clears c = true))) = true := by decide
    exact forall_mem_of_all (hall k (by simpa using hk)) c hm hc
  · obtain ⟨hop, hop₂, -⟩ := doubled_spec hk
    exact ⟨clears_of_not_mem hop₂ hm, fun _ => clears_of_not_mem hop hm⟩

/-- The scanner reads the words of a text, if halves are left out of account. -/
theorem scans (h : Writes halved text ws) : ∃ us, Scans text us ∧ Word.sight halved us = ws := by
  -- two halves are taken at once, so the induction is on the length of the text
  induction hn : text.length using Nat.strongRecOn generalizing text ws with
  | ind n ih =>
    cases h with
    | nil => exact ⟨[], .nil, by cases halved <;> rfl⟩
    | @blank c text ws hc h =>
      obtain ⟨us, hs, he⟩ := ih text.length (by rw [← hn]; exact Nat.lt_succ_self _) h rfl
      exact ⟨us, .blank hc hs, he⟩
    | @word w text ws hw hh h =>
      have hlt : text.length < n := by
        have hpos := List.length_pos_iff.2 hw.nonempty
        rw [List.length_append] at hn
        omega
      obtain ⟨us, hs, he⟩ := ih text.length hlt h rfl
      refine ⟨w :: us, .word hw hs, ?_⟩
      cases halved with
      | false => exact congrArg (w :: ·) he
      | true =>
        have hw' : Word.sight true [w] = [w] := by
          rw [← (hh rfl).1]
          simp [Word.sight, (hh rfl).1]
        rw [Word.sight_cons, hw', he]
        rfl
    | @half k text ws hh hk hc h =>
      subst hh
      obtain ⟨hop, hop₂, hspell, hsight₂, hsight⟩ := doubled_spec hk
      have hlen : k.spelling.length = 1 := by rcases hk with rfl | rfl <;> rfl
      rw [List.length_append, hlen] at hn
      by_cases htwo : ∃ more, text = k.spelling ++ more
      · obtain ⟨more, rfl⟩ := htwo
        obtain ⟨us, rfl, hmore, hc₂⟩ := h.of_half hk rfl
        rw [List.length_append, hlen] at hn
        obtain ⟨vs, hs, he⟩ := ih more.length (by omega) hmore rfl
        have hlegible : (Word.fixed (doubled k)).Legible more := by
          refine legible_operator hop₂ fun c cs hcs => (clears_half hk ?_).1
          rintro rfl
          rw [hcs] at hc₂
          exact hc₂ rfl
        refine ⟨.fixed (doubled k) :: vs, ?_, ?_⟩
        · have hall := Scans.word hlegible hs
          show Scans (k.spelling ++ (k.spelling ++ more)) _
          rw [← List.append_assoc, ← hspell]
          exact hall
        · rw [Word.sight_cons, hsight₂, he]
          rfl
      · obtain ⟨vs, hs, he⟩ := ih text.length (by omega) h rfl
        refine ⟨.fixed k :: vs, .word (legible_operator hop fun c cs hcs => ?_) hs, ?_⟩
        · refine (clears_half hk ?_).2 fun hk' => htwo ⟨cs, by rw [hk', hcs]; rfl⟩
          rintro rfl
          rw [hcs] at hc
          exact hc rfl
        · rw [Word.sight_cons, hsight, he]
          rfl

/-! ### Operators in a text -/

/-- An operator in front of a character that clears it. -/
theorem operator (hk : k ∈ Kind.operators) (hh : halved = true → (Word.fixed k).Whole)
    (hc : ∀ c more, text = c :: more → k.clears c = true) (h : Writes halved text ws) :
    Writes halved (k.spelling ++ text) (.fixed k :: ws) := .word (legible_operator hk hc) hh h

/-- An operator that may stand in front of anything. -/
theorem final (hk : k ∈ Kind.operators) (hf : k.isFinal = true)
    (hh : halved = true → (Word.fixed k).Whole) (h : Writes halved text ws) :
    Writes halved (k.spelling ++ text) (.fixed k :: ws) :=
  .operator hk hh (fun c _ _ => clears_of_isFinal hf c) h

/-- An operator with a blank behind it. -/
theorem spaced (hk : k ∈ Kind.operators) (hh : halved = true → (Word.fixed k).Whole)
    (h : Writes halved text ws) : Writes halved (k.spelling ++ ' ' :: text) (.fixed k :: ws) := by
  refine .operator hk hh (fun c more he => ?_) (.blank (by decide) h)
  obtain ⟨rfl, -⟩ := List.cons.inj he
  exact clears_of_not_mem hk (by decide)

end Writes

/-- In front of everything that a name may stand in front of, the text is made of the words. -/
def Spells (halved : Bool) (text : String) (ws : List Word) : Prop :=
  ∀ tail us, Breaks tail → Writes halved tail us → Writes halved (text.toList ++ tail) (ws ++ us)

end FluxFront.Token
