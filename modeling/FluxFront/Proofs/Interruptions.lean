import FluxFront.Proofs.LiteralWords
import FluxFront.Proofs.Readings

/-!
# A separator behind a reading

A reading looks a few characters ahead of its lexeme.  If a separator comes up there instead of the text,
nothing changes.

* **Specification**: a text that goes on differently behind some separator is `Interrupted`.  A reading
  without complaints is the same, at every place, if what it leaves is interrupted
  (`reading_interrupted`).
* **Crux**: whatever a reading looks for has no separator in it, so an interrupted text starts with it
  only if the text does (`Interrupted.begins`).
* **Splitting**: a loop that cuts a text in two is `Firm` if it makes the same cut when the second part
  is interrupted.  The parts of a number are cut off one behind the other.
* **Gaps**: a character at which a gap has stopped stops every gap in front of an interrupted text
  (`StopsGap.interrupted`).
-/

namespace FluxFront.Token

/-! ## Interrupted texts -/

/-- The characters that may be put between two texts. -/
def separators : List Char := [' ', '\n']

/-- The second text goes on as the first one does, up to a separator and anything behind it. -/
inductive Interrupted : List Char → List Char → Prop
  | here {b : Char} (hb : b ∈ separators) (text more : List Char) : Interrupted text (b :: more)
  | there (c : Char) {text text' : List Char} (h : Interrupted text text') :
      Interrupted (c :: text) (c :: text')

namespace Interrupted

variable {text text' : List Char}

theorem append (front : List Char) (h : Interrupted text text') :
    Interrupted (front ++ text) (front ++ text') := by
  induction front with
  | nil => exact h
  | cons c front ih => exact .there c ih

/-- A text that a separator is put behind. -/
theorem behind {b : Char} (hb : b ∈ separators) (text more : List Char) :
    Interrupted text (text ++ b :: more) := by
  have h := (here hb [] more).append text
  rwa [List.append_nil] at h

/-- Without a separator, what the interrupted text starts with, the text starts with. -/
theorem begins (h : Interrupted text text') {start : List Char}
    (hstart : ∀ c ∈ start, c ∉ separators) (hp : start <+: text') : start <+: text := by
  induction h generalizing start with
  | @here b hb text more =>
    cases start with
    | nil => exact List.nil_prefix
    | cons c start =>
      rw [(List.cons_prefix_cons.1 hp).1] at hstart
      exact absurd hb (hstart b List.mem_cons_self)
  | there d h ih =>
    cases start with
    | nil => exact List.nil_prefix
    | cons c start =>
      obtain ⟨rfl, hmore⟩ := List.cons_prefix_cons.1 hp
      exact List.cons_prefix_cons.2 ⟨rfl, ih (List.forall_mem_cons.1 hstart).2 hmore⟩

/-- A character that does not come next does not come next in the interrupted text. -/
theorem next (h : Interrupted text text') {p : Char → Bool} (hp : ∀ b ∈ separators, p b = false)
    (hnext : ∀ c more, text = c :: more → p c = false) :
    ∀ c more, text' = c :: more → p c = false := by
  cases h with
  | here hb =>
    intro c more he
    rw [← (List.cons.inj he).1]
    exact hp _ hb
  | there d =>
    intro c more he
    rw [← (List.cons.inj he).1]
    exact hnext d _ rfl

end Interrupted

/-! ## Cutting a text in two -/

/-- The text is cut at the same place if what stands behind the cut is interrupted. -/
def Firm (cut : List Char → List Char × List Char) : Prop :=
  ∀ text rest, Interrupted (cut text).2 rest → cut ((cut text).1 ++ rest) = ((cut text).1, rest)

theorem takeWhile_firm {p : Char → Bool} (hp : ∀ b ∈ separators, p b = false) (text rest : List Char)
    (h : Interrupted (text.dropWhile p) rest) :
    (text.takeWhile p ++ rest).takeWhile p = text.takeWhile p ∧
      (text.takeWhile p ++ rest).dropWhile p = rest := by
  have hnext := h.next hp fun c more he => by
    have hnot := List.head?_dropWhile_not p text
    rw [he] at hnot
    exact hnot
  exact takeWhile_break (List.all_eq_true.1 List.all_takeWhile) hnext

theorem isDigit_separators : ∀ b ∈ separators, b.isDigit = false := forall_mem_of_all (by decide)

theorem isDigitOrMark_separators : ∀ b ∈ separators, isDigitOrMark b = false :=
  forall_mem_of_all (by decide)

theorem isAlphanumOrMark_separators : ∀ b ∈ separators, isAlphanumOrMark b = false :=
  forall_mem_of_all (by decide)

theorem continuesName_separators : ∀ b ∈ separators, Text.continuesName b = false :=
  forall_mem_of_all (by decide +kernel)

/-- A character of a class without separators is none. -/
theorem not_separator {p : Char → Bool} (hp : ∀ b ∈ separators, p b = false) {c : Char}
    (hc : p c = true) : c ∉ separators := by
  intro hm
  rw [hp c hm] at hc
  exact absurd hc (by decide)

/-- The text starts with a fraction. -/
def HasFraction (text : List Char) : Prop := ∃ d : Char, d.isDigit = true ∧ ['.', d] <+: text

theorem takeFraction_none {text : List Char} (h : ¬ HasFraction text) :
    takeFraction text = ([], text) := by
  unfold takeFraction
  split
  · rename_i d more
    rw [if_neg fun hd => h ⟨d, hd, more, rfl⟩]
  · rfl

theorem takeFraction_digit {d : Char} (hd : d.isDigit = true) (text : List Char) :
    takeFraction ('.' :: d :: text) =
      ('.' :: d :: text.takeWhile isDigitOrMark, text.dropWhile isDigitOrMark) := by
  have hmark : isDigitOrMark d = true := by
    unfold isDigitOrMark
    rw [hd, Bool.true_or]
  simp only [takeFraction, if_pos hd, List.takeWhile_cons_of_pos hmark,
    List.dropWhile_cons_of_pos hmark]

theorem takeFraction_firm : Firm takeFraction := by
  intro text rest h
  by_cases hf : HasFraction text
  · obtain ⟨d, hd, more, rfl⟩ := hf
    rw [List.cons_append, List.cons_append, List.nil_append, takeFraction_digit hd] at h ⊢
    obtain ⟨htake, hdrop⟩ := takeWhile_firm isDigitOrMark_separators more rest h
    rw [List.cons_append, List.cons_append, takeFraction_digit hd, htake, hdrop]
  · rw [takeFraction_none hf] at h ⊢
    refine takeFraction_none ?_
    rintro ⟨d, hd, hp⟩
    refine hf ⟨d, hd, h.begins ?_ hp⟩
    exact List.forall_mem_cons.2 ⟨by decide, List.forall_mem_singleton.2
      (not_separator isDigit_separators hd)⟩

/-- The mark of an exponent. -/
def exponentMarks : List Char := ['e', 'E']

/-- The sign of an exponent. -/
def exponentSigns : List Char := ['+', '-']

/-- The text starts with an exponent without a sign. -/
def HasPlainExponent (text : List Char) : Prop :=
  ∃ mark ∈ exponentMarks, ∃ d : Char, d.isDigit = true ∧ [mark, d] <+: text

/-- The text starts with an exponent with a sign. -/
def HasSignedExponent (text : List Char) : Prop :=
  ∃ mark ∈ exponentMarks, ∃ sign ∈ exponentSigns, ∃ d : Char, d.isDigit = true ∧
    [mark, sign, d] <+: text

theorem takeExponent_none {text : List Char} (h : ¬ HasPlainExponent text)
    (h' : ¬ HasSignedExponent text) : takeExponent text = ([], text) := by
  unfold takeExponent
  split
  · rename_i mark sign more
    split
    · rename_i hmark
      have hmark : mark ∈ exponentMarks := by simpa [exponentMarks] using hmark
      split
      · rename_i hd
        exact absurd ⟨mark, hmark, sign, hd, more, rfl⟩ h
      · split
        · rename_i hsign
          obtain ⟨hsign, hd⟩ := hsign
          obtain ⟨d, behind, rfl⟩ : ∃ d behind, more = d :: behind := by
            cases more with
            | nil => exact absurd hd (by decide)
            | cons d behind => exact ⟨d, behind, rfl⟩
          exact absurd ⟨mark, hmark, sign, by simpa [exponentSigns] using hsign, d, hd, behind, rfl⟩ h'
        · rfl
    · rfl
  · rfl

theorem takeExponent_digit {mark d : Char} (hmark : mark ∈ exponentMarks) (hd : d.isDigit = true)
    (text : List Char) : takeExponent (mark :: d :: text) =
      (mark :: d :: text.takeWhile Char.isDigit, text.dropWhile Char.isDigit) := by
  have hmark : mark = 'e' ∨ mark = 'E' := by simpa [exponentMarks] using hmark
  simp only [takeExponent, if_pos hmark, if_pos hd, List.takeWhile_cons_of_pos hd,
    List.dropWhile_cons_of_pos hd]

theorem takeExponent_sign {mark sign d : Char} (hmark : mark ∈ exponentMarks)
    (hsign : sign ∈ exponentSigns) (hd : d.isDigit = true) (text : List Char) :
    takeExponent (mark :: sign :: d :: text) =
      (mark :: sign :: d :: text.takeWhile Char.isDigit, text.dropWhile Char.isDigit) := by
  have hno : ∀ sign ∈ exponentSigns, ¬ sign.isDigit = true := forall_mem_of_all (by decide)
  have hmark : mark = 'e' ∨ mark = 'E' := by simpa [exponentMarks] using hmark
  have hsigned : (sign = '+' ∨ sign = '-') ∧ (d :: text).head?.any Char.isDigit = true :=
    ⟨by simpa [exponentSigns] using hsign, hd⟩
  simp only [takeExponent, if_pos hmark, if_neg (hno sign hsign), if_pos hsigned,
    List.takeWhile_cons_of_pos hd, List.dropWhile_cons_of_pos hd]

theorem takeExponent_firm : Firm takeExponent := by
  have marks : ∀ mark ∈ exponentMarks, mark ∉ separators := forall_mem_of_all (by decide)
  have signs : ∀ sign ∈ exponentSigns, sign ∉ separators := forall_mem_of_all (by decide)
  intro text rest h
  by_cases hplain : HasPlainExponent text
  · obtain ⟨mark, hmark, d, hd, more, rfl⟩ := hplain
    rw [List.cons_append, List.cons_append, List.nil_append, takeExponent_digit hmark hd] at h ⊢
    obtain ⟨htake, hdrop⟩ := takeWhile_firm isDigit_separators more rest h
    rw [List.cons_append, List.cons_append, takeExponent_digit hmark hd, htake, hdrop]
  by_cases hsigned : HasSignedExponent text
  · obtain ⟨mark, hmark, sign, hsign, d, hd, more, rfl⟩ := hsigned
    rw [List.cons_append, List.cons_append, List.cons_append, List.nil_append,
      takeExponent_sign hmark hsign hd] at h ⊢
    obtain ⟨htake, hdrop⟩ := takeWhile_firm isDigit_separators more rest h
    rw [List.cons_append, List.cons_append, List.cons_append, takeExponent_sign hmark hsign hd, htake,
      hdrop]
  · rw [takeExponent_none hplain hsigned] at h ⊢
    refine takeExponent_none ?_ ?_
    · rintro ⟨mark, hmark, d, hd, hp⟩
      refine hplain ⟨mark, hmark, d, hd, h.begins ?_ hp⟩
      exact List.forall_mem_cons.2 ⟨marks mark hmark, List.forall_mem_singleton.2
        (not_separator isDigit_separators hd)⟩
    · rintro ⟨mark, hmark, sign, hsign, d, hd, hp⟩
      refine hsigned ⟨mark, hmark, sign, hsign, d, hd, h.begins ?_ hp⟩
      exact List.forall_mem_cons.2 ⟨marks mark hmark, List.forall_mem_cons.2 ⟨signs sign hsign,
        List.forall_mem_singleton.2 (not_separator isDigit_separators hd)⟩⟩

/-! ## Readings -/

section Readings

variable {here : Location} {text rest : List Char} (there : Location)

theorem numberReading_interrupted {kind : Kind} {lexeme behind : List Char} {value : Value} {valid : Bool}
    (h : (numberReading kind here lexeme behind value valid).errors = []) (rest : List Char) :
    numberReading kind there lexeme rest value valid =
      { numberReading kind here lexeme behind value valid with rest } := by
  cases valid with
  | true => rfl
  | false => exact absurd h (List.cons_ne_nil _ _)

theorem readRadix_interrupted {radix : Nat} {mark : Char} (h : (readRadix radix mark here text).errors = [])
    (hrest : Interrupted (readRadix radix mark here text).rest rest) :
    (readRadix radix mark here text).lexeme = '0' :: mark :: text.takeWhile isAlphanumOrMark ∧
      readRadix radix mark there (text.takeWhile isAlphanumOrMark ++ rest) =
        { readRadix radix mark here text with rest } := by
  unfold readRadix at h hrest ⊢
  dsimp only at h hrest ⊢
  split at h
  all_goals
    rename_i hradix
    simp only [hradix, if_true, if_false] at hrest ⊢
    obtain ⟨htake, hdrop⟩ := takeWhile_firm isAlphanumOrMark_separators text rest hrest
    rw [htake, hdrop]
    exact ⟨rfl, numberReading_interrupted there h rest⟩

/-- A decimal number from its parts. -/
def decimalReading (here : Location) (whole fraction exponent rest : List Char) : Reading :=
  let lexeme := whole ++ fraction ++ exponent
  let digits := plainDigits lexeme
  if fraction.isEmpty && exponent.isEmpty then
    let value := Decimal.word? 10 digits
    numberReading .intLiteral here lexeme rest (.int (value.getD 0)) value.isSome
  else
    let value := Decimal.number? digits
    numberReading .floatLiteral here lexeme rest (.float (value.getD .zero)) value.isSome

theorem readDecimal_eq {fraction exponent : List Char × List Char}
    (hfraction : takeFraction (text.dropWhile isDigitOrMark) = fraction)
    (hexponent : takeExponent fraction.2 = exponent) : readDecimal here text =
      decimalReading here (text.takeWhile isDigitOrMark) fraction.1 exponent.1 exponent.2 := by
  rw [← hexponent, ← hfraction]
  rfl

theorem decimalReading_lexeme (here : Location) (whole fraction exponent rest : List Char) :
    (decimalReading here whole fraction exponent rest).lexeme = whole ++ fraction ++ exponent ∧
      (decimalReading here whole fraction exponent rest).rest = rest := by
  unfold decimalReading
  dsimp only
  split <;> exact ⟨rfl, rfl⟩

theorem readDecimal_append (here : Location) (text : List Char) :
    (readDecimal here text).lexeme ++ (readDecimal here text).rest = text := by
  rw [readDecimal_eq rfl rfl, (decimalReading_lexeme _ _ _ _ _).1, (decimalReading_lexeme _ _ _ _ _).2,
    List.append_assoc, takeExponent_append, List.append_assoc, takeFraction_append,
    List.takeWhile_append_dropWhile]

theorem decimalReading_interrupted {whole fraction exponent behind : List Char}
    (h : (decimalReading here whole fraction exponent behind).errors = []) (rest : List Char) :
    decimalReading there whole fraction exponent rest =
      { decimalReading here whole fraction exponent behind with rest } := by
  unfold decimalReading at h ⊢
  dsimp only at h ⊢
  split at h
  all_goals
    rename_i hint
    simp only [hint, if_true, if_false, Bool.false_eq_true]
    exact numberReading_interrupted there h rest

theorem readDecimal_interrupted (h : (readDecimal here text).errors = [])
    (hrest : Interrupted (readDecimal here text).rest rest) :
    readDecimal there ((readDecimal here text).lexeme ++ rest) = { readDecimal here text with rest } := by
  obtain ⟨fraction, hfraction⟩ : ∃ p, takeFraction (text.dropWhile isDigitOrMark) = p := ⟨_, rfl⟩
  obtain ⟨exponent, hexponent⟩ : ∃ p, takeExponent fraction.2 = p := ⟨_, rfl⟩
  rw [readDecimal_eq hfraction hexponent] at h hrest ⊢
  rw [(decimalReading_lexeme _ _ _ _ _).2] at hrest
  rw [(decimalReading_lexeme _ _ _ _ _).1, List.append_assoc, List.append_assoc]
  -- the cuts are the same, from the last one to the first one
  have hexponent' : takeExponent (exponent.1 ++ rest) = (exponent.1, rest) := by
    rw [← hexponent] at hrest ⊢
    exact takeExponent_firm _ _ hrest
  have hbehind : Interrupted fraction.2 (exponent.1 ++ rest) := by
    have happend := hrest.append exponent.1
    rwa [← hexponent, takeExponent_append, hexponent] at happend
  have hfraction' : takeFraction (fraction.1 ++ (exponent.1 ++ rest)) =
      (fraction.1, exponent.1 ++ rest) := by
    rw [← hfraction] at hbehind ⊢
    exact takeFraction_firm _ _ hbehind
  have htail : Interrupted (text.dropWhile isDigitOrMark) (fraction.1 ++ (exponent.1 ++ rest)) := by
    have happend := hbehind.append fraction.1
    rwa [← hfraction, takeFraction_append, hfraction] at happend
  obtain ⟨htake, hdrop⟩ := takeWhile_firm isDigitOrMark_separators text _ htail
  rw [readDecimal_eq (by rw [hdrop, hfraction']) hexponent', htake]
  exact decimalReading_interrupted there h rest

/-- A number without a radix mark is a decimal one. -/
theorem readNumber_plain (h : ∀ mark, (radixOf? mark).isSome → ¬ ['0', mark] <+: text) :
    readNumber here text = readDecimal here text := by
  unfold readNumber
  split
  · rename_i mark behind
    have hmark : radixOf? mark = none := by
      rw [← Option.not_isSome_iff_eq_none]
      exact fun hsome => h mark hsome ⟨behind, rfl⟩
    rw [hmark]
  · rfl

theorem radixOf_separators : ∀ b ∈ separators, (radixOf? b).isSome = false :=
  forall_mem_of_all (by decide)

theorem readNumber_interrupted (h : (readNumber here text).errors = [])
    (hrest : Interrupted (readNumber here text).rest rest) :
    readNumber there ((readNumber here text).lexeme ++ rest) = { readNumber here text with rest } := by
  by_cases hmarked : ∃ mark, (radixOf? mark).isSome ∧ ['0', mark] <+: text
  · obtain ⟨mark, hsome, behind, rfl⟩ := hmarked
    obtain ⟨radix, hmark⟩ := Option.isSome_iff_exists.1 hsome
    rw [List.cons_append, List.cons_append, List.nil_append, readNumber_marked hmark] at h hrest ⊢
    obtain ⟨hlexeme, hread⟩ := readRadix_interrupted there h hrest
    rw [hlexeme, List.cons_append, List.cons_append, readNumber_marked hmark, hread]
  · have hplain : ∀ mark, (radixOf? mark).isSome → ¬ ['0', mark] <+: text :=
      fun mark hsome hp => hmarked ⟨mark, hsome, hp⟩
    rw [readNumber_plain hplain] at h hrest ⊢
    rw [readNumber_plain, readDecimal_interrupted there h hrest]
    -- a mark in the interrupted text would stand in the text
    intro mark hsome hp
    refine hplain mark hsome ?_
    have hall := hrest.append (readDecimal here text).lexeme
    rw [readDecimal_append] at hall
    exact hall.begins (List.forall_mem_cons.2 ⟨by decide, List.forall_mem_singleton.2
      (not_separator radixOf_separators hsome)⟩) hp

theorem isEscape_of_escapeErrors {e : Char} (h : escapeErrors here e = []) : isEscape e = true := by
  unfold escapeErrors at h
  split at h
  · assumption
  · exact absurd h (List.cons_ne_nil _ _)

/-- A quoted text that is closed does not depend on what stands behind it. -/
theorem readQuoted_closed {quote : Char} (hclosed : (readQuoted quote here text).closed = true)
    (herrors : (readQuoted quote here text).errors = []) (rest : List Char) :
    readQuoted quote there ((readQuoted quote here text).taken ++ rest) =
      { readQuoted quote here text with rest } := by
  fun_induction readQuoted quote here text generalizing there with
  | case1 | case3 => exact absurd hclosed (by decide)
  | case2 here text =>
    rw [List.singleton_append, readQuoted.eq_def]
    simp
  | case4 here e behind hslash q ih =>
    obtain ⟨hescape, hmore⟩ := List.append_eq_nil_iff.1 herrors
    have hknown := isEscape_of_escapeErrors hescape
    have hread := ih ((there.next '\\').next e) hclosed hmore
    rw [List.cons_append, List.cons_append, readQuoted.eq_def]
    dsimp only
    rw [if_neg hslash, if_pos rfl, hread, escapeErrors_eq_nil hknown, escapeErrors_eq_nil hknown]
  | case5 here c text hquote hslash q ih =>
    have hread := ih (there.next c) hclosed herrors
    rw [List.cons_append, readQuoted.eq_def]
    dsimp only
    rw [if_neg hquote, if_neg hslash, hread]

theorem readString_closed {kind : Kind} {decode : List Char → Value} {opening : List Char}
    (h : (readString kind decode opening here text).errors = []) {taken : List Char}
    (hlexeme : (readString kind decode opening here text).lexeme = opening ++ taken) (rest : List Char) :
    readString kind decode opening there (taken ++ rest) =
      { readString kind decode opening here text with rest } := by
  obtain ⟨herrors, hterminated⟩ := List.append_eq_nil_iff.1 h
  have hclosed : (readQuoted '"' (here.after opening) text).closed = true := by
    split at hterminated
    · assumption
    · exact absurd hterminated (List.cons_ne_nil _ _)
  have hread := readQuoted_closed (there.after opening) hclosed herrors rest
  obtain rfl := List.append_cancel_left hlexeme
  unfold readString
  rw [hread]
  simp [hclosed]

/-- The inside of a character literal, if nothing is wrong with it. -/
theorem readCharBody_append {taken behind : List Char} {value : Char}
    (h : readCharBody here text = (taken, behind, some value, [])) (rest : List Char) :
    readCharBody there (taken ++ rest) = (taken, rest, some value, []) := by
  unfold readCharBody at h
  split at h
  · exact absurd h (by simp)
  · rename_i c more
    split at h
    · rename_i hslash
      split at h
      · exact absurd h (by simp)
      · rename_i e behind'
        obtain ⟨rfl, -, hvalue, hescape⟩ : [c, e] = taken ∧ behind' = behind ∧
          some (unescape e) = some value ∧ escapeErrors (here.next c) e = [] := by simpa using h
        have hknown := isEscape_of_escapeErrors hescape
        simp [readCharBody, hslash, escapeErrors_eq_nil hknown, Option.some.inj hvalue]
    · split at h
      · exact absurd h (by simp)
      · rename_i hslash hquote
        obtain ⟨rfl, -, rfl⟩ : [c] = taken ∧ more = behind ∧ c = value := by simpa using h
        simp [readCharBody, hslash, hquote]

/-- A character literal from its inside. -/
theorem readChar_of_body {taken rest : List Char} {value : Char}
    (h : readCharBody (here.next '\'') text = (taken, '\'' :: rest, some value, [])) :
    readChar here text =
      ⟨.charLiteral, '\'' :: (taken ++ ['\'']), rest, some (.char value), []⟩ := by
  unfold readChar
  rw [h]
  rfl

theorem exists_body_of_readChar (h : (readChar here text).errors = []) : ∃ taken rest value,
    readCharBody (here.next '\'') text = (taken, '\'' :: rest, some value, []) := by
  unfold readChar at h
  rcases hbody : readCharBody (here.next '\'') text with ⟨taken, behind, value, errors⟩
  rw [hbody] at h
  dsimp only at h
  -- without a value or a closing quote there is a complaint
  split at h
  · rename_i hclose
    obtain rfl : errors = [] := h
    split at hclose
    · exact ⟨taken, _, _, rfl⟩
    · exact absurd hclose nofun
  · exact absurd h (by simp)

theorem readChar_closed (h : (readChar here text).errors = []) {taken : List Char}
    (hlexeme : (readChar here text).lexeme = '\'' :: taken) (rest : List Char) :
    readChar there (taken ++ rest) = { readChar here text with rest } := by
  obtain ⟨inside, behind, value, hbody⟩ := exists_body_of_readChar h
  have hbody' := readCharBody_append (there.next '\'') hbody ('\'' :: rest)
  rw [readChar_of_body hbody] at hlexeme ⊢
  obtain rfl : inside ++ ['\''] = taken := (List.cons.inj hlexeme).2
  rw [List.append_assoc, List.singleton_append, readChar_of_body hbody']

/-- Raw text up to its closing brace does not depend on what stands behind it. -/
theorem takeRaw_closed {depth : Nat} {raw rest : List Char} {close : Char}
    (h : takeRaw depth text = (raw, close :: rest)) (rest' : List Char) :
    takeRaw depth (raw ++ close :: rest') = (raw, close :: rest') := by
  fun_induction takeRaw depth text generalizing raw with
  | case1 => exact absurd h (by simp)
  | case2 text =>
    obtain ⟨rfl, rfl, -⟩ : [] = raw ∧ '}' = close ∧ text = rest := by simpa using h
    rfl
  | case3 text outer ih =>
    obtain ⟨hraw, hrest⟩ := Prod.mk.inj h
    rw [← hraw, List.cons_append, takeRaw.eq_def]
    dsimp only
    rw [if_pos rfl, ih (Prod.ext rfl hrest)]
    rfl
  | case4 depth c text hc ih =>
    obtain ⟨hraw, hrest⟩ := Prod.mk.inj h
    rw [← hraw, List.cons_append, takeRaw.eq_def]
    dsimp only
    rw [if_neg hc, ih (Prod.ext rfl hrest)]
    rfl

theorem readRaw_closed (h : (readRaw here text).errors = []) {taken : List Char}
    (hlexeme : (readRaw here text).lexeme = '{' :: taken) (rest : List Char) :
    readRaw there (taken ++ rest) = { readRaw here text with rest } := by
  unfold readRaw at h hlexeme ⊢
  rcases hraw : takeRaw 0 text with ⟨raw, _ | ⟨close, behind⟩⟩
  · rw [hraw] at h
    exact absurd h (List.cons_ne_nil _ _)
  · rw [hraw] at hlexeme
    obtain rfl : raw ++ [close] = taken := (List.cons.inj hlexeme).2
    rw [List.append_assoc, List.singleton_append, takeRaw_closed hraw]

theorem readName_interrupted (c : Char) (hrest : Interrupted (readName c text).rest rest) :
    readName c (text.takeWhile Text.continuesName ++ rest) = { readName c text with rest } := by
  obtain ⟨htake, hdrop⟩ := takeWhile_firm continuesName_separators text rest hrest
  unfold readName
  rw [htake, hdrop]

end Readings

/-! ## Operators -/

theorem spelling_separators {k : Kind} (hk : k ∈ Kind.operators) :
    ∀ c ∈ k.spelling, c ∉ separators := by
  have hall : ∀ k ∈ Kind.operators, (k.spelling.all fun c => decide (c ∉ separators)) = true := by
    decide
  exact forall_mem_of_all (hall k hk)

/-- An operator that the text does not start with, the interrupted text does not start with. -/
theorem no_operator_interrupted {k : Kind} (hk : k ∈ Kind.operators) {text text' : List Char}
    (h : Interrupted text text') (hno : ¬ k.spelling <+: text) : ¬ k.spelling <+: text' :=
  fun hp => hno (h.begins (spelling_separators hk) hp)

theorem matchOperator_interrupted_none {text text' : List Char} (h : Interrupted text text')
    (hnone : Kind.matchOperator? text = none) : Kind.matchOperator? text' = none := by
  rw [matchOperator_eq_none_iff] at hnone ⊢
  exact fun k hk => no_operator_interrupted hk h (hnone k hk)

theorem matchOperator_interrupted {text lexeme behind rest : List Char} {kind : Kind}
    (hfound : Kind.matchOperator? text = some (kind, lexeme, behind)) (h : Interrupted behind rest) :
    Kind.matchOperator? (lexeme ++ rest) = some (kind, lexeme, rest) := by
  obtain ⟨rfl, rfl, before, after, hsplit, hbefore⟩ := matchOperator_eq_some_iff.1 hfound
  refine matchOperator_eq_some_iff.2 ⟨rfl, rfl, before, after, hsplit, fun other hother => ?_⟩
  have hmem : other ∈ Kind.operators := by
    rw [hsplit]
    exact List.mem_append_left _ hother
  exact no_operator_interrupted hmem (h.append kind.spelling) (hbefore other hother)

/-! ## Tokens -/

theorem readToken_operator {c : Char} {text lexeme rest : List Char} {kind : Kind}
    (h : Kind.matchOperator? (c :: text) = some (kind, lexeme, rest)) (here : Location) :
    readToken here c text = ⟨kind, lexeme, rest, none, []⟩ := by
  unfold readToken
  rw [h]

/-- What starts with no operator, no quote and no digit is a name, unless it is an interpolated string. -/
theorem readToken_other {c : Char} {text : List Char} (hop : Kind.matchOperator? (c :: text) = none)
    (hquote : c ≠ '"') (hchar : c ≠ '\'') (hdigit : ¬ c.isDigit = true)
    (hopening : ¬ ['i', '"'] <+: c :: text) (here : Location) : readToken here c text = readName c text := by
  unfold readToken
  rw [hop]
  dsimp only
  rw [if_neg hquote, if_neg hchar, if_neg hdigit]
  split
  · rename_i behind
    exact absurd ⟨behind, rfl⟩ hopening
  · rfl

theorem readToken_interrupted {here : Location} {c : Char} {text taken rest : List Char}
    (h : (readToken here c text).errors = []) (hlexeme : (readToken here c text).lexeme = c :: taken)
    (hrest : Interrupted (readToken here c text).rest rest)
    (hall : Interrupted (c :: text) (c :: (taken ++ rest))) (there : Location) :
    readToken there c (taken ++ rest) = { readToken here c text with rest } := by
  rcases hop : Kind.matchOperator? (c :: text) with _ | ⟨kind, lexeme, behind⟩
  · have hop' := matchOperator_interrupted_none hall hop
    by_cases hopening : ['i', '"'] <+: c :: text
    · obtain ⟨behind, he⟩ := hopening
      obtain ⟨rfl, rfl⟩ : 'i' = c ∧ '"' :: behind = text := List.cons.inj he
      have hread : ∀ here behind, readToken here 'i' ('"' :: behind) =
          readString .interpolatedString partsValue ['i', '"'] here behind := by
        intro here behind
        unfold readToken
        rw [matchOperator_none (by decide)]
        rfl
      rw [hread] at h hlexeme ⊢
      -- the opening of two characters is cut off once more
      obtain ⟨taken', rfl⟩ : ∃ taken', taken = '"' :: taken' := ⟨_, (List.cons.inj hlexeme).2.symm⟩
      rw [List.cons_append, hread, readString_closed there h hlexeme rest]
    have hopening' : ¬ ['i', '"'] <+: c :: (taken ++ rest) := fun hp =>
      hopening (hall.begins (forall_mem_of_all (by decide)) hp)
    by_cases hquote : c = '"'
    · subst hquote
      unfold readToken at h hlexeme ⊢
      simp only [hop, hop', if_true] at h hlexeme ⊢
      exact readString_closed there h hlexeme rest
    by_cases hchar : c = '\''
    · subst hchar
      unfold readToken at h hlexeme ⊢
      simp only [hop, hop', hquote, if_true, if_false] at h hlexeme ⊢
      exact readChar_closed there h hlexeme rest
    by_cases hdigit : c.isDigit = true
    · unfold readToken at h hlexeme hrest ⊢
      simp only [hop, hop', hquote, hchar, hdigit, if_true, if_false] at h hlexeme hrest ⊢
      have hread := readNumber_interrupted there h hrest
      rwa [hlexeme, List.cons_append] at hread
    · rw [readToken_other hop hquote hchar hdigit hopening] at h hlexeme hrest ⊢
      rw [readToken_other hop' hquote hchar hdigit hopening']
      obtain rfl : text.takeWhile Text.continuesName = taken := (List.cons.inj hlexeme).2
      exact readName_interrupted c hrest
  · rw [readToken_operator hop] at hlexeme hrest ⊢
    obtain rfl : lexeme = c :: taken := hlexeme
    exact readToken_operator (matchOperator_interrupted hop hrest) there

/-- A reading that nothing is wrong with comes out the same at every place, whatever stands behind a
separator. -/
theorem reading_interrupted {raw : Bool} {front : List Char} {c : Char} {text rest : List Char}
    (h : (reading raw (placeBehind front) c text).errors = [])
    (hrest : Interrupted (reading raw (placeBehind front) c text).rest rest) (there : Location) :
    ∃ text', (reading raw (placeBehind front) c text).lexeme ++ rest = c :: text' ∧
      Interrupted text text' ∧
      reading raw there c text' = { reading raw (placeBehind front) c text with rest } := by
  obtain ⟨hsplits, hne⟩ : (reading raw (placeBehind front) c text).Splits front (c :: text) ∧
      (reading raw (placeBehind front) c text).lexeme ≠ [] := reading_splits raw front c text
  obtain ⟨d, taken, hlexeme⟩ := List.exists_cons_of_ne_nil hne
  have htext := hsplits.text_eq
  rw [hlexeme, List.cons_append] at htext
  obtain ⟨rfl, hbehind⟩ := List.cons.inj htext
  have htaken : Interrupted text (taken ++ rest) := by
    have happend := hrest.append taken
    rwa [← hbehind] at happend
  refine ⟨taken ++ rest, by rw [hlexeme]; rfl, htaken, ?_⟩
  unfold reading at h hrest hlexeme ⊢
  split at h
  · rename_i hraw
    obtain rfl : c = '{' := by simpa using (Bool.and_eq_true_iff.1 hraw).2
    simp only [hraw, if_true] at hlexeme ⊢
    exact readRaw_closed there h hlexeme rest
  · rename_i hraw
    simp only [hraw] at hrest hlexeme ⊢
    exact readToken_interrupted h hlexeme hrest (htaken.there c) there

/-! ## Gaps without complaints -/

/-- Only a stray character makes the scanner forget that `asm` was read last. -/
theorem skipGap_quiet (mode : GapMode) (here : Location) (afterAsm : Bool) (text : List Char)
    (h : (skipGap mode here afterAsm text).errors = []) :
    (skipGap mode here afterAsm text).afterAsm = afterAsm := by
  fun_induction skipGap mode here afterAsm text with
  | case1 => exact absurd h (List.cons_ne_nil _ _)
  | case2 | case9 => rfl
  | case3 _ _ _ _ ih => exact ih h
  | case4 _ _ _ _ ih => exact ih h
  | case5 _ _ _ _ _ _ ih => exact ih h
  | case6 _ _ _ ih => exact ih h
  | case7 _ _ _ ih => exact ih h
  | case8 _ _ _ _ _ _ _ ih => exact ih h
  | case10 => exact absurd h (List.cons_ne_nil _ _)

theorem Scanner.afterAsm_of_gap {s : Scanner} {rest : List Char} {here : Location} {raw : Bool}
    (h : s.gap = ⟨rest, here, raw, []⟩) : raw = s.afterAsm := by
  have hquiet := skipGap_quiet .blank s.here s.afterAsm s.rest
  rw [show skipGap .blank s.here s.afterAsm s.rest = _ from h] at hquiet
  exact hquiet rfl

/-- A character that a gap stops at starts a token and no comment. -/
structure StopsGap (c : Char) (text : List Char) : Prop where
  starts : startsToken c = true
  notBlank : Text.isBlank c = false
  noComment : c = '/' → ∀ d more, text = d :: more → d ≠ '/' ∧ d ≠ '*'

theorem StopsGap.of_not_comment {c : Char} {text : List Char}
    (hline : ∀ rest, c = '/' → text = '/' :: rest → False)
    (hblock : ∀ rest, c = '/' → text = '*' :: rest → False) (hblank : ¬ Text.isBlank c = true)
    (hstart : startsToken c = true) : StopsGap c text := by
  refine ⟨hstart, by simpa using hblank, ?_⟩
  rintro rfl d more rfl
  exact ⟨fun hd => hline _ rfl (by rw [hd]), fun hd => hblock _ rfl (by rw [hd])⟩

theorem skipGap_stops (mode : GapMode) (here : Location) (afterAsm : Bool) (text : List Char)
    {c : Char} {rest : List Char} (h : (skipGap mode here afterAsm text).rest = c :: rest) :
    StopsGap c rest := by
  fun_induction skipGap mode here afterAsm text with
  | case1 | case2 => exact absurd h.symm (List.cons_ne_nil _ _)
  | case3 _ _ _ _ ih => exact ih h
  | case4 _ _ _ _ ih => exact ih h
  | case5 _ _ _ _ _ _ ih => exact ih h
  | case6 _ _ _ ih => exact ih h
  | case7 _ _ _ ih => exact ih h
  | case8 _ _ _ _ _ _ _ ih => exact ih h
  | case9 _ _ c' rest' hline hblock hblank hstart =>
    obtain ⟨rfl, rfl⟩ := List.cons.inj h
    exact .of_not_comment hline hblock hblank hstart
  | case10 _ _ _ _ _ _ _ _ _ _ ih => exact ih h

/-- In front of a separator, a character stops the gap that it has stopped elsewhere. -/
theorem StopsGap.interrupted {c : Char} {text text' : List Char} (h : StopsGap c text)
    (hi : Interrupted text text') : StopsGap c text' := by
  refine ⟨h.starts, h.notBlank, fun hc d more he => ?_⟩
  have hcomment : ∀ b ∈ separators, (b == '/' || b == '*') = false := forall_mem_of_all (by decide)
  have hno := hi.next hcomment (fun d more he => by simpa using h.noComment hc d more he) d more he
  simpa using hno

theorem StopsGap.gap {c : Char} {text : List Char} (h : StopsGap c text) (here : Location)
    (afterAsm : Bool) : (Scanner.mk (c :: text) here afterAsm).gap = ⟨c :: text, here, afterAsm, []⟩ :=
  skipGap_start h.starts h.notBlank h.noComment here afterAsm

end FluxFront.Token
