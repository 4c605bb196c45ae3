import FluxFront.Print.Leaf
import FluxFront.Proofs.Words

/-!
# Literals as words

A literal that is printed is read back with its value, as long as what follows an integer does not go
on with a number.

* **Integers**: the decimal digits of a word read back to the word.
* **Spellings**: a source may spell an integer in another way, with separators or in another radix
  (`Numeral`).  What is read from the spelling alone is read from it in front of a break, too.
* **Quoted text**: every character is written so that the reader of quoted text takes it for itself,
  and so that no quote in it is taken for the closing one.
* **Lists**: the commas between texts are words of their own.
-/

namespace FluxFront.Token

/-! ## Integers -/

/-- The word of an integer literal. -/
def Word.int (value : UInt64) : Word :=
  ⟨.intLiteral, (toString value.toNat).toList, some (.int value)⟩

theorem foldDigits_append (radix : Nat) (a b : List Char) (value : Nat) :
    Decimal.foldDigits? radix value (a ++ b) =
      (Decimal.foldDigits? radix value a).bind fun v => Decimal.foldDigits? radix v b := by
  induction a generalizing value with
  | nil => rfl
  | cons c a ih =>
    simp only [List.cons_append, Decimal.foldDigits?]
    cases Decimal.digitIn? radix c with
    | none => rfl
    | some d => exact ih _

theorem digitIn_digitChar : ∀ d < 10, Decimal.digitIn? 10 (Nat.digitChar d) = some d := by
  decide

/-- The decimal digits of a number have its value. -/
theorem foldDigits_toDigits (n : Nat) : Decimal.foldDigits? 10 0 (Nat.toDigits 10 n) = some n := by
  induction n using Nat.strongRecOn with
  | ind n ih =>
    by_cases hn : n < 10
    · rw [Nat.toDigits_of_lt_base hn]
      simp [Decimal.foldDigits?, digitIn_digitChar n hn]
    · rw [Nat.toDigits_of_base_le (by omega) (by omega), foldDigits_append, ih (n / 10) (by omega)]
      simp [Decimal.foldDigits?, digitIn_digitChar (n % 10) (by omega)]
      omega

theorem toDigits_ne_nil (n : Nat) : Nat.toDigits 10 n ≠ [] := by
  by_cases hn : n < 10
  · rw [Nat.toDigits_of_lt_base hn]
    exact List.cons_ne_nil _ _
  · rw [Nat.toDigits_of_base_le (by omega) (by omega)]
    exact List.append_ne_nil_of_right_ne_nil _ (List.cons_ne_nil _ _)

theorem word_toDigits (value : UInt64) :
    Decimal.word? 10 (Nat.toDigits 10 value.toNat) = some value := by
  unfold Decimal.word? Decimal.natural?
  rw [if_neg (by simp [toDigits_ne_nil value.toNat]), foldDigits_toDigits, Option.bind_some,
    if_pos value.toNat_lt]
  exact congrArg some (UInt64.ofNat_toNat)

theorem text_int (value : UInt64) : (Word.int value).text = Nat.toDigits 10 value.toNat :=
  Nat.toList_repr

theorem isDigit_of_mem_toDigits {n : Nat} {c : Char} (h : c ∈ Nat.toDigits 10 n) :
    c.isDigit = true := Nat.isDigit_of_mem_toDigits (by decide) (by decide) h

/-- The ten digits. -/
theorem mem_of_isDigit {c : Char} (h : c.isDigit = true) :
    c ∈ ['0', '1', '2', '3', '4', '5', '6', '7', '8', '9'] := by
  have hall : ∀ n < 58, 48 ≤ n →
      Char.ofNat n ∈ ['0', '1', '2', '3', '4', '5', '6', '7', '8', '9'] := by decide
  have hn := toNat_of_isDigit h
  have hc := hall c.toNat (by omega) hn.1
  rwa [Char.ofNat_toNat] at hc

/-- A digit starts a number and nothing else. -/
theorem digit_starts {c : Char} (h : c.isDigit = true) :
    c ∉ operatorStarts ∧ c ≠ '"' ∧ c ≠ '\'' ∧ c ≠ '/' ∧ Text.isBlank c = false
      ∧ Text.continuesName c = true ∧ (c != '_') = true ∧ radixOf? c = none := by
  have hall : ∀ c ∈ ['0', '1', '2', '3', '4', '5', '6', '7', '8', '9'],
      c ∉ operatorStarts ∧ c ≠ '"' ∧ c ≠ '\'' ∧ c ≠ '/' ∧ Text.isBlank c = false
        ∧ Text.continuesName c = true ∧ (c != '_') = true ∧ radixOf? c = none :=
    forall_mem_of_all (by decide +kernel)
  exact hall c (mem_of_isDigit h)

/-- What may stand in a number may stand in a name. -/
theorem isDigitOrMark_of_break {c : Char} (h : Text.continuesName c = false) :
    isDigitOrMark c = false := by
  rw [Bool.eq_false_iff]
  intro hd
  unfold isDigitOrMark at hd
  rw [Bool.or_eq_true, beq_iff_eq] at hd
  rcases hd with hd | rfl
  · rw [(digit_starts hd).2.2.2.2.2.1] at h
    exact absurd h (by decide)
  · exact absurd h (by decide)

theorem isAlphanumOrMark_of_break {c : Char} (h : Text.continuesName c = false) :
    isAlphanumOrMark c = false := by
  rw [Bool.eq_false_iff]
  intro hc
  unfold isAlphanumOrMark Char.isAlphanum at hc
  simp only [Bool.or_eq_true, beq_iff_eq] at hc
  rcases hc with (halpha | hdigit) | rfl
  · have hsmall : c.toNat < 128 := by
      unfold Char.isAlpha Char.isUpper Char.isLower at halpha
      simp only [Bool.or_eq_true, Bool.and_eq_true, decide_eq_true_eq, ge_iff_le,
        UInt32.le_iff_toNat_le] at halpha
      show c.val.toNat < 128
      rcases halpha with hc | hc
      · exact Nat.lt_of_le_of_lt hc.2 (by decide)
      · exact Nat.lt_of_le_of_lt hc.2 (by decide)
    have hletter : Text.isLetter c = true := by
      unfold Text.isLetter
      rw [if_pos hsmall, halpha]
    simp [Text.continuesName, hletter] at h
  · rw [(digit_starts hdigit).2.2.2.2.2.1] at h
    exact absurd h (by decide)
  · exact absurd h (by decide)

theorem radixOf_of_break {c : Char} (h : Text.continuesName c = false) : radixOf? c = none := by
  unfold radixOf?
  split
  · exact absurd h (by decide)
  · exact absurd h (by decide)
  · exact absurd h (by decide)
  · exact absurd h (by decide)
  · exact absurd h (by decide)
  · exact absurd h (by decide)
  · rfl

theorem takeFraction_of_breaks {rest : List Char} (h : Breaks rest) : takeFraction rest = ([], rest) := by
  unfold takeFraction
  split
  · rename_i d text
    have hd := (h '.' (d :: text) rfl).2.2 rfl d text rfl
    rw [hd]
    rfl
  · rfl

theorem takeExponent_of_breaks {rest : List Char} (h : Breaks rest) : takeExponent rest = ([], rest) := by
  unfold takeExponent
  split
  · rename_i mark sign text
    rw [if_neg]
    rintro (rfl | rfl)
    · exact absurd (h 'e' (sign :: text) rfl).1 (by decide)
    · exact absurd (h 'E' (sign :: text) rfl).1 (by decide)
  · rfl

theorem radixOf_of_digitOrMark {c : Char} (h : isDigitOrMark c = true) : radixOf? c = none := by
  unfold isDigitOrMark at h
  rw [Bool.or_eq_true, beq_iff_eq] at h
  rcases h with h | rfl
  · exact (digit_starts h).2.2.2.2.2.2.2
  · rfl

/-- A run of digits in front of a break has no radix mark. -/
theorem readNumber_digits {ds rest : List Char} (hds : ∀ d ∈ ds, isDigitOrMark d = true) (h : Breaks rest)
    (here : Location) : readNumber here (ds ++ rest) = readDecimal here (ds ++ rest) := by
  unfold readNumber
  split
  · rename_i mark behind heq
    have hmark : radixOf? mark = none := by
      rcases ds with _ | ⟨d, _ | ⟨d', ds⟩⟩
      · exact absurd (h _ _ heq).1 (by decide)
      · exact radixOf_of_break (h _ _ (List.cons.inj heq).2).1
      · obtain rfl : d' = mark := (List.cons.inj (List.cons.inj heq).2).1
        exact radixOf_of_digitOrMark (hds d' (by simp))
    rw [hmark]
  · rfl

/-- Digits in front of a break are read as their value. -/
theorem readDecimal_digits {ds rest : List Char} {value : UInt64} (hds : ∀ d ∈ ds, isDigitOrMark d = true)
    (hvalue : Decimal.word? 10 (plainDigits ds) = some value) (h : Breaks rest) (here : Location) :
    readDecimal here (ds ++ rest) = ⟨.intLiteral, ds, rest, some (.int value), []⟩ := by
  obtain ⟨htake, hdrop⟩ := takeWhile_break hds fun c text hc => isDigitOrMark_of_break (h c text hc).1
  unfold readDecimal
  rw [htake, hdrop]
  simp only [takeFraction_of_breaks h, takeExponent_of_breaks h, List.append_nil, hvalue,
    List.isEmpty_nil, Bool.and_true, if_true]
  rfl

/-- A word that starts with a digit is legible if it is read as a number. -/
theorem legible_number {w : Word} {c : Char} {cs rest : List Char} (hw : w.text = c :: cs)
    (hc : c.isDigit = true) (hk : w.kind ≠ .eof ∧ w.kind ≠ .kwAsm)
    (hread : ∀ here, readNumber here (w.text ++ rest) = ⟨w.kind, w.text, rest, w.literal, []⟩) :
    w.Legible rest := by
  obtain ⟨hop, hquote, hchar, hslash, hblank, -⟩ := digit_starts hc
  refine ⟨?_, fun here => ?_, fun here d text hsplit => ?_, hk.1, hk.2⟩
  · rw [hw]
    exact List.cons_ne_nil _ _
  · rw [hw, List.cons_append]
    refine skipGap_start ?_ hblank (fun he => absurd he hslash) here false
    unfold startsToken
    rw [hc, Bool.or_true, Bool.true_or]
  · obtain rfl : c = d := by
      rw [hw] at hsplit
      exact (List.cons.inj hsplit).1
    unfold readToken
    rw [matchOperator_none hop]
    dsimp only
    rw [if_neg hquote, if_neg hchar, if_pos hc, ← hsplit, hread]

theorem legible_int (value : UInt64) {rest : List Char} (h : Breaks rest) :
    (Word.int value).Legible rest := by
  obtain ⟨c, cs, hcs⟩ := List.exists_cons_of_ne_nil (toDigits_ne_nil value.toNat)
  have hdigits : ∀ d ∈ Nat.toDigits 10 value.toNat, d.isDigit = true := fun _ => isDigit_of_mem_toDigits
  have hds : ∀ d ∈ Nat.toDigits 10 value.toNat, isDigitOrMark d = true := by
    intro d hd
    unfold isDigitOrMark
    rw [hdigits d hd, Bool.true_or]
  have hplain : plainDigits (Nat.toDigits 10 value.toNat) = Nat.toDigits 10 value.toNat :=
    List.filter_eq_self.2 fun d hd => (digit_starts (hdigits d hd)).2.2.2.2.2.2.1
  refine legible_number ((text_int value).trans hcs) (hdigits c (by rw [hcs]; exact List.mem_cons_self))
    ⟨nofun, nofun⟩ fun here => ?_
  rw [text_int, readNumber_digits hds h, readDecimal_digits hds (by rw [hplain, word_toDigits]) h]
  rfl

/-! ### Spellings -/

/-- An integer literal, however it is spelled: with separators between its digits, or in another radix. -/
structure Numeral where
  text : String
  value : UInt64
  starts : text.toList.head?.any Char.isDigit = true
  reads : readNumber .start text.toList = ⟨.intLiteral, text.toList, [], some (.int value), []⟩

/-- A number that nothing is complained about is valid. -/
theorem numberReading_inv {kind kind' : Kind} {here : Location} {lexeme lexeme' rest rest' : List Char}
    {value value' : Value} {valid : Bool}
    (h : numberReading kind here lexeme rest value valid = ⟨kind', lexeme', rest', some value', []⟩) :
    kind = kind' ∧ lexeme = lexeme' ∧ value = value' ∧ valid = true := by
  unfold numberReading at h
  cases valid with
  | false => simp at h
  | true =>
    simp only [Reading.mk.injEq, Option.some.injEq] at h
    exact ⟨h.1, h.2.1, h.2.2.2.1, rfl⟩

theorem readNumber_marked {mark : Char} {radix : Nat} (h : radixOf? mark = some radix) (here : Location)
    (text : List Char) : readNumber here ('0' :: mark :: text) = readRadix radix mark here text := by
  simp only [readNumber, h]

/-- The value behind a radix mark does not depend on what stands behind the digits. -/
theorem readRadix_append {radix : Nat} {mark : Char} {behind rest : List Char} {here : Location}
    {value : UInt64}
    (h : readRadix radix mark here behind = ⟨.intLiteral, '0' :: mark :: behind, [], some (.int value), []⟩)
    (hrest : Breaks rest) (there : Location) :
    readRadix radix mark there (behind ++ rest) =
      ⟨.intLiteral, '0' :: mark :: behind, rest, some (.int value), []⟩ := by
  unfold readRadix at h
  split at h
  · exact absurd (numberReading_inv h).1 (by decide)
  · rename_i hradix
    obtain ⟨-, hlexeme, hvalue, hsome⟩ := numberReading_inv h
    have hbody : behind.takeWhile isAlphanumOrMark = behind :=
      (List.cons.inj (List.cons.inj hlexeme).2).2
    rw [hbody] at hvalue hsome
    obtain ⟨v, hv⟩ := Option.isSome_iff_exists.1 hsome
    obtain rfl : v = value := by simpa [hv] using hvalue
    have hall : ∀ c ∈ behind, isAlphanumOrMark c = true := hbody ▸ List.all_eq_true.1 List.all_takeWhile
    obtain ⟨htake, hdrop⟩ := takeWhile_break hall fun c text hc => isAlphanumOrMark_of_break (hrest c text hc).1
    unfold readRadix
    rw [htake, hdrop, if_neg hradix]
    simp only [hv]
    rfl

theorem digits_of_readDecimal {ds rest : List Char} {here : Location} {value : UInt64}
    (h : readDecimal here ds = ⟨.intLiteral, ds, rest, some (.int value), []⟩) :
    (∀ d ∈ ds, isDigitOrMark d = true) ∧ Decimal.word? 10 (plainDigits ds) = some value := by
  unfold readDecimal at h
  dsimp only at h
  split at h
  · rename_i hempty
    rw [Bool.and_eq_true, List.isEmpty_iff, List.isEmpty_iff] at hempty
    obtain ⟨-, hlexeme, hvalue, hsome⟩ := numberReading_inv h
    rw [hempty.1, hempty.2, List.append_nil, List.append_nil] at hlexeme hvalue hsome
    rw [hlexeme] at hvalue hsome
    obtain ⟨v, hv⟩ := Option.isSome_iff_exists.1 hsome
    obtain rfl : v = value := by simpa [hv] using hvalue
    exact ⟨hlexeme ▸ List.all_eq_true.1 List.all_takeWhile, hv⟩
  · exact absurd (numberReading_inv h).1 (by decide)

namespace Numeral

/-- The word of an integer literal, as it is spelled. -/
def word (n : Numeral) : Word := ⟨.intLiteral, n.text.toList, some (.int n.value)⟩

/-- In front of a break the literal is read as a whole. -/
theorem reads_append (n : Numeral) {rest : List Char} (h : Breaks rest) (here : Location) :
    readNumber here (n.text.toList ++ rest) =
      ⟨.intLiteral, n.text.toList, rest, some (.int n.value), []⟩ := by
  have decimal : readDecimal .start n.text.toList =
      ⟨.intLiteral, n.text.toList, [], some (.int n.value), []⟩ →
      readNumber here (n.text.toList ++ rest) =
        ⟨.intLiteral, n.text.toList, rest, some (.int n.value), []⟩ := by
    intro hread
    obtain ⟨hds, hvalue⟩ := digits_of_readDecimal hread
    rw [readNumber_digits hds h, readDecimal_digits hds hvalue h]
  have hread := n.reads
  unfold readNumber at hread
  split at hread
  · rename_i mark behind htext
    cases hmark : radixOf? mark with
    | none =>
      rw [hmark] at hread
      exact decimal hread
    | some radix =>
      rw [hmark, htext] at hread
      rw [htext, List.cons_append, List.cons_append, readNumber_marked hmark]
      exact readRadix_append hread h here
  · exact decimal hread

theorem legible (n : Numeral) {rest : List Char} (h : Breaks rest) : n.word.Legible rest := by
  have hstarts := n.starts
  obtain ⟨c, cs, hcs⟩ : ∃ c cs, n.text.toList = c :: cs := by
    cases htext : n.text.toList with
    | nil => simp [htext] at hstarts
    | cons c cs => exact ⟨c, cs, rfl⟩
  rw [hcs, List.head?_cons, Option.any_some] at hstarts
  exact legible_number hcs hstarts ⟨nofun, nofun⟩ (n.reads_append h)

end Numeral

/-! ## Quoted text -/

/-- The word of a character literal. -/
def Word.char (value : Char) : Word :=
  ⟨.charLiteral, '\'' :: (Print.escapeChar '\'' value ++ ['\'']), some (.char value)⟩

/-- The word of a string literal. -/
def Word.string (value : String) : Word :=
  ⟨.stringLiteral, '"' :: (value.toList.flatMap (Print.escapeChar '"') ++ ['"']),
    some (.string value)⟩

/-- How a character is written inside quotes: by an escape sequence or as itself. -/
theorem escapeChar_cases {quote : Char} (hq : quote = '"' ∨ quote = '\'') (c : Char) :
    (∃ e, Print.escapeChar quote c = ['\\', e] ∧ unescape e = c ∧ isEscape e = true) ∨
      (Print.escapeChar quote c = [c] ∧ c ≠ '\\' ∧ c ≠ quote) := by
  unfold Print.escapeChar
  split
  case isTrue h => exact .inl ⟨'n', rfl, h.symm, by decide⟩
  split
  case isTrue h => exact .inl ⟨'t', rfl, h.symm, by decide⟩
  split
  case isTrue h => exact .inl ⟨'r', rfl, h.symm, by decide⟩
  split
  case isTrue h => exact .inl ⟨'0', rfl, h.symm, by decide⟩
  split
  case isTrue h => exact .inl ⟨'\\', rfl, h.symm, by decide⟩
  case isFalse hslash =>
    split
    case isTrue h =>
      subst h
      rcases hq with rfl | rfl
      · exact .inl ⟨'"', rfl, rfl, by decide⟩
      · exact .inl ⟨'\'', rfl, rfl, by decide⟩
    case isFalse h => exact .inr ⟨rfl, hslash, h⟩

theorem escapeErrors_eq_nil {e : Char} (h : isEscape e = true) (here : Location) :
    escapeErrors here e = [] := by
  unfold escapeErrors
  rw [if_pos h]

/-- A text between quotes is read up to its closing quote. -/
theorem readQuoted_escape (text rest : List Char) (here : Location) :
    readQuoted '"' here (text.flatMap (Print.escapeChar '"') ++ '"' :: rest) =
      ⟨text.flatMap (Print.escapeChar '"') ++ ['"'], text, rest, true, []⟩ := by
  induction text generalizing here with
  | nil =>
    unfold readQuoted
    simp
  | cons c text ih =>
    rw [List.flatMap_cons, List.append_assoc, List.append_assoc]
    rcases escapeChar_cases (.inl rfl) c with ⟨e, he, hv, hesc⟩ | ⟨he, hslash, hquote⟩
    · rw [he, List.cons_append, List.cons_append, List.nil_append]
      unfold readQuoted
      simp [ih, hv, escapeErrors_eq_nil hesc]
    · rw [he, List.cons_append, List.nil_append]
      unfold readQuoted
      simp [ih, hslash, hquote]

/-- The quotes start literals and nothing else. -/
theorem quote_starts {c : Char} (h : c = '"' ∨ c = '\'') :
    c ∉ operatorStarts ∧ c ≠ '/' ∧ startsToken c = true ∧ Text.isBlank c = false := by
  rcases h with rfl | rfl <;> decide +kernel

theorem legible_string (value : String) (rest : List Char) : (Word.string value).Legible rest := by
  obtain ⟨hop, hslash, hstart, hblank⟩ := quote_starts (c := '"') (.inl rfl)
  refine ⟨List.cons_ne_nil _ _, fun here => ?_, fun here c text hsplit => ?_, nofun, nofun⟩
  · exact skipGap_start hstart hblank (fun he => absurd he hslash) here false
  · obtain ⟨rfl, rfl⟩ := List.cons.inj hsplit
    unfold readToken
    rw [matchOperator_none hop]
    dsimp only
    have htext : (value.toList.flatMap (Print.escapeChar '"') ++ ['"']).append rest =
        value.toList.flatMap (Print.escapeChar '"') ++ '"' :: rest := List.append_assoc _ _ _
    rw [if_pos rfl, htext]
    unfold readString
    rw [readQuoted_escape]
    simp [stringValue, Word.string]

theorem legible_char (value : Char) (rest : List Char) : (Word.char value).Legible rest := by
  obtain ⟨hop, hslash, hstart, hblank⟩ := quote_starts (c := '\'') (.inr rfl)
  refine ⟨List.cons_ne_nil _ _, fun here => ?_, fun here c text hsplit => ?_, nofun, nofun⟩
  · exact skipGap_start hstart hblank (fun he => absurd he hslash) here false
  · obtain ⟨rfl, rfl⟩ := List.cons.inj hsplit
    unfold readToken
    rw [matchOperator_none hop]
    dsimp only
    have htext : (Print.escapeChar '\'' value ++ ['\'']).append rest =
        Print.escapeChar '\'' value ++ '\'' :: rest := List.append_assoc _ _ _
    rw [if_neg (by decide), if_pos rfl, htext]
    unfold readChar
    rcases escapeChar_cases (.inr rfl) value with ⟨e, he, hv, hesc⟩ | ⟨he, hs, hq⟩
    · simp [he, readCharBody, hv, escapeErrors_eq_nil hesc, Word.char]
    · simp [he, readCharBody, hs, hq, Word.char]

/-! ## Lists -/

/-- Commas may stand in front of anything. -/
theorem writes_comma {halved : Bool} {text : List Char} {ws : List Word} (h : Writes halved text ws) :
    Writes halved (',' :: text) (.fixed .comma :: ws) :=
  .final (k := .comma) (by decide) (by decide) (fun _ => by decide) h

/-- Texts with commas between them are made of the words of the texts with commas between them. -/
theorem spells_separated {α : Type} {halved : Bool} {f : α → String} {g : α → List Word}
    {as : List α} (h : ∀ a ∈ as, Spells halved (f a) (g a)) :
    Spells halved (Print.separated (as.map f)) ([Word.fixed .comma].intercalate (as.map g)) := by
  induction as with
  | nil => exact fun _ _ _ ht => ht
  | cons a more ih =>
    rw [List.forall_mem_cons] at h
    cases more with
    | nil => simpa [Print.separated] using h.1
    | cons b more =>
      intro tail us hb ht
      have hmore := ih h.2 tail us hb ht
      have hcomma := writes_comma (.blank (c := ' ') (by decide) hmore)
      have hall := h.1 _ _ (.cons (by decide +kernel) _) hcomma
      simpa [Print.separated, String.intercalate_cons_cons, List.intercalate_cons_cons] using hall

end FluxFront.Token
