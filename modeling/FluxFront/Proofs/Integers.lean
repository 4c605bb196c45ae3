import FluxFront.Proofs.Complaints
import FluxFront.Proofs.Interruptions
import Mathlib.Data.Nat.Digits.Defs

/-!
# Integer literals are exact

* **Program**: the lexer splits an integer into a mark and digits, drops the underscores and reads the
  digits into a 64-bit word.
* **Specification**: the number that digits stand for (`Positional.value`), and when digits are such that
  they have one (`Positional.Valid`).  Both look at the spelling of a token only (`positional`).
* **Crux**: reading the digits from the left is the positional sum (`foldDigits_eq_some_iff`).  Every
  branch that gives an integer is then the same reading of its spelling (`readNumber_integer`).
-/

namespace FluxFront

namespace Token

/-! ## Positional notation -/

/-- The value of a digit: its place among the digits.  For a character that is none it is sixteen. -/
def digitValue (c : Char) : Nat := "0123456789abcdef".toList.idxOf c.toLower

/-- Digits in a radix, the most significant one first. -/
structure Positional where
  radix : Nat
  digits : List Char

namespace Positional

/-- The number that the digits stand for. -/
def value (n : Positional) : Nat := Nat.ofDigits n.radix (n.digits.reverse.map digitValue)

/-- There is a digit, each of them is one of the radix, and the number fits a 64-bit word. -/
structure Valid (n : Positional) : Prop where
  nonempty : n.digits ≠ []
  digits : ∀ c ∈ n.digits, digitValue c < n.radix
  fits : n.value < 2 ^ 64

end Positional

/-- How an integer is spelled: a mark behind a leading zero may announce the radix, and underscores do
not count. -/
def positional (lexeme : List Char) : Positional :=
  match lexeme with
  | '0' :: 'x' :: body | '0' :: 'X' :: body => ⟨16, body.filter (· != '_')⟩
  | '0' :: 'o' :: body | '0' :: 'O' :: body => ⟨8, body.filter (· != '_')⟩
  | _ => ⟨10, lexeme.filter (· != '_')⟩

/-! ## Reading digits -/

theorem digitValue_of_large {c : Char} (hc : 128 ≤ c.toNat) :
    Decimal.digitValue? c = none ∧ digitValue c = 16 := by
  have hle : ∀ {a b : Char}, b.toNat < 128 → ¬ (a ≤ c ∧ c ≤ b) := by
    rintro a b hb ⟨-, hcb⟩
    have hn : c.toNat ≤ b.toNat := UInt32.le_iff_toNat_le.1 hcb
    omega
  constructor
  · unfold Decimal.digitValue?
    rw [if_neg (hle (by decide)), if_neg (hle (by decide)), if_neg (hle (by decide))]
  · have hlower : c.toLower = c := by
      unfold Char.toLower
      rw [dif_neg]
      rintro ⟨hupper, h⟩
      exact hle (a := 'A') (b := 'Z') (by decide) ⟨hupper, h⟩
    have hsmall : ∀ d ∈ "0123456789abcdef".toList, d.toNat < 128 := forall_mem_of_all (by decide)
    unfold digitValue
    rw [hlower]
    exact List.idxOf_eq_length fun hm => absurd (hsmall c hm) (Nat.not_lt.2 hc)

theorem digitValue_eq (c : Char) : Decimal.digitValue? c =
    if digitValue c < 16 then some (digitValue c) else none := by
  by_cases hc : c.toNat < 128
  · have table : ∀ n < 128, Decimal.digitValue? (Char.ofNat n) =
        if digitValue (Char.ofNat n) < 16 then some (digitValue (Char.ofNat n)) else none := by
      decide +kernel
    have h := table c.toNat hc
    rwa [Char.ofNat_toNat] at h
  · obtain ⟨hnone, hsixteen⟩ := digitValue_of_large (Nat.not_lt.1 hc)
    rw [hnone, hsixteen]
    rfl

theorem digitValue_lt_ten {c : Char} : digitValue c < 10 ↔ c.isDigit = true := by
  by_cases hc : c.toNat < 128
  · have table : ∀ n < 128, (digitValue (Char.ofNat n) < 10 ↔ (Char.ofNat n).isDigit = true) := by
      decide +kernel
    have h := table c.toNat hc
    rwa [Char.ofNat_toNat] at h
  · rw [(digitValue_of_large (Nat.not_lt.1 hc)).2]
    refine iff_of_false (by decide) fun hdigit => ?_
    have hle := (toNat_of_isDigit hdigit).2
    omega

theorem digitIn_eq {radix : Nat} (hr : radix ≤ 16) (c : Char) : Decimal.digitIn? radix c =
    if digitValue c < radix then some (digitValue c) else none := by
  unfold Decimal.digitIn?
  rw [digitValue_eq]
  split
  · simp [Option.filter]
  · rw [if_neg (by omega)]
    rfl

/-- Digits are read from the most significant one on. -/
theorem foldDigits_eq_some_iff {radix : Nat} (hr : radix ≤ 16) (digits : List Char) {value m : Nat} :
    Decimal.foldDigits? radix value digits = some m ↔ (∀ c ∈ digits, digitValue c < radix) ∧
      m = value * radix ^ digits.length + Nat.ofDigits radix (digits.reverse.map digitValue) := by
  induction digits generalizing value with
  | nil => simp [Decimal.foldDigits?, eq_comm]
  | cons c digits ih =>
    have hstep : (value * radix + digitValue c) * radix ^ digits.length +
          Nat.ofDigits radix (digits.reverse.map digitValue) =
        value * radix ^ (c :: digits).length +
          Nat.ofDigits radix ((c :: digits).reverse.map digitValue) := by
      rw [List.reverse_cons, List.map_append, Nat.ofDigits_append, List.length_map, List.length_reverse,
        List.length_cons, Nat.pow_succ, Nat.add_mul, Nat.mul_assoc, Nat.mul_comm radix,
        Nat.mul_comm (digitValue c)]
      simp only [List.map_cons, List.map_nil, Nat.ofDigits_singleton]
      omega
    rw [Decimal.foldDigits?, digitIn_eq hr, List.forall_mem_cons]
    by_cases hc : digitValue c < radix
    · rw [if_pos hc, Option.bind_some, ih, hstep, and_iff_right hc]
    · rw [if_neg hc]
      exact iff_of_false (Option.some_ne_none m).symm fun h => hc h.1.1

/-- Digits are read as the number that they stand for, if they are valid. -/
theorem natural_eq_some_iff {n : Positional} (hr : n.radix ≤ 16) {m : Nat} :
    Decimal.natural? n.radix n.digits = some m ↔
      n.digits ≠ [] ∧ (∀ c ∈ n.digits, digitValue c < n.radix) ∧ m = n.value := by
  unfold Decimal.natural?
  by_cases hne : n.digits = []
  · simp [hne]
  · simp [hne, foldDigits_eq_some_iff hr, Positional.value]

/-- A word is read exactly from valid digits, and it is their number. -/
theorem word_eq_some_iff {n : Positional} (hr : n.radix ≤ 16) {v : UInt64} :
    Decimal.word? n.radix n.digits = some v ↔ n.Valid ∧ v.toNat = n.value := by
  unfold Decimal.word?
  rw [Option.bind_eq_some_iff]
  constructor
  · rintro ⟨m, hm, hv⟩
    obtain ⟨hne, hdigits, rfl⟩ := (natural_eq_some_iff hr).1 hm
    obtain ⟨hfits, hv⟩ := Option.ite_none_right_eq_some.1 hv
    obtain rfl : UInt64.ofNat n.value = v := Option.some.inj hv
    exact ⟨⟨hne, hdigits, hfits⟩, UInt64.toNat_ofNat_of_lt' hfits⟩
  · rintro ⟨hvalid, hv⟩
    have hfits : n.value < 0x10000000000000000 := hvalid.fits
    refine ⟨n.value, (natural_eq_some_iff hr).2 ⟨hvalid.nonempty, hvalid.digits, rfl⟩, ?_⟩
    rw [if_pos hfits, ← hv, UInt64.ofNat_toNat]

/-! ## Reading literals -/

theorem readChar_kind (here : Location) (text : List Char) : (readChar here text).kind = .charLiteral := by
  unfold readChar
  dsimp only
  split <;> rfl

/-- A literal of one of these kinds is a number or stands between quotes. -/
theorem reading_of_value {raw : Bool} {here : Location} {c : Char} {text : List Char}
    (h : (reading raw here c text).kind ∈
      [Kind.intLiteral, .bitLiteral, .charLiteral, .stringLiteral]) :
    (c.isDigit = true ∧ reading raw here c text = readNumber here (c :: text)) ∨
      (c = '\'' ∧ reading raw here c text = readChar here text) ∨
      (c = '"' ∧ reading raw here c text = readString .stringLiteral stringValue ['"'] here text) := by
  have name : ∀ c text, (readName c text).kind ∉
      [Kind.intLiteral, .bitLiteral, .charLiteral, .stringLiteral] := by
    intro c text
    show (Kind.ofKeyword? _).getD .identifier ∉ _
    cases hfound : Kind.ofKeyword? (String.ofList (c :: text.takeWhile Text.continuesName)) with
    | none => decide
    | some k =>
      have table : ∀ k ∈ Kind.keywords, k ∉
          [Kind.intLiteral, .bitLiteral, .charLiteral, .stringLiteral] := by decide
      exact table k (Kind.mem_of_ofKeyword hfound)
  revert h
  unfold reading
  split
  · rw [readRaw_kind]
    exact fun h => absurd h (by decide)
  · unfold readToken
    split
    · rename_i kind lexeme rest hm
      have table : ∀ k ∈ Kind.operators, k ∉
          [Kind.intLiteral, .bitLiteral, .charLiteral, .stringLiteral] := by decide
      exact fun h => absurd h (table kind (operator_of_match hm).1)
    · split
      · rename_i hc
        exact fun _ => .inr (.inr ⟨hc, rfl⟩)
      · split
        · rename_i hc
          exact fun _ => .inr (.inl ⟨hc, rfl⟩)
        · split
          · rename_i hc
            exact fun _ => .inl ⟨hc, rfl⟩
          · split
            · exact fun h => absurd h (show Kind.interpolatedString ∉ _ by decide)
            · exact fun h => absurd h (name _ _)

/-- Without a mark behind a leading zero, the digits are decimal ones. -/
theorem positional_of_marks {lexeme : List Char} (h : ∀ c ∈ lexeme, isDigitOrMark c = true) :
    positional lexeme = ⟨10, plainDigits lexeme⟩ := by
  unfold positional
  split
  · exact absurd (h 'x' (by simp)) (by decide)
  · exact absurd (h 'X' (by simp)) (by decide)
  · exact absurd (h 'o' (by simp)) (by decide)
  · exact absurd (h 'O' (by simp)) (by decide)
  · rfl

/-- A mark announces its radix. -/
theorem positional_of_radix {mark : Char} {radix : Nat} (h : radixOf? mark = some radix)
    (hbits : radix ≠ 2) (body : List Char) :
    positional ('0' :: mark :: body) = ⟨radix, plainDigits body⟩ := by
  unfold radixOf? at h
  split at h <;> cases h
  case h_5 | h_6 => exact absurd rfl hbits
  all_goals rfl

theorem radix_positional_le (lexeme : List Char) : (positional lexeme).radix ≤ 16 := by
  unfold positional
  split <;> exact Nat.le_of_ble_eq_true rfl

/-- The reading of an integer from its spelling. -/
def integerReading (here : Location) (lexeme rest : List Char) : Reading :=
  let value := Decimal.word? (positional lexeme).radix (positional lexeme).digits
  numberReading .intLiteral here lexeme rest (.int (value.getD 0)) value.isSome

theorem integerReading_valid {lexeme : List Char} (h : (positional lexeme).Valid) (here : Location)
    (rest : List Char) : ∃ v : UInt64, v.toNat = (positional lexeme).value ∧
      integerReading here lexeme rest = ⟨.intLiteral, lexeme, rest, some (.int v), []⟩ := by
  have hv : (UInt64.ofNat (positional lexeme).value).toNat = (positional lexeme).value :=
    UInt64.toNat_ofNat_of_lt' h.fits
  refine ⟨_, hv, ?_⟩
  unfold integerReading
  rw [(word_eq_some_iff (radix_positional_le lexeme)).2 ⟨h, hv⟩]
  rfl

theorem integerReading_invalid {lexeme : List Char} (h : ¬ (positional lexeme).Valid) (here : Location)
    (rest : List Char) : ∃ message, integerReading here lexeme rest =
      ⟨.intLiteral, lexeme, rest, some (.int 0),
        [.located .invalidNumber message ⟨here, here.after lexeme⟩]⟩ := by
  have hnone : Decimal.word? (positional lexeme).radix (positional lexeme).digits = none :=
    Option.eq_none_iff_forall_ne_some.2 fun _ hv =>
      h ((word_eq_some_iff (radix_positional_le lexeme)).1 hv).1
  unfold integerReading
  rw [hnone]
  exact ⟨_, rfl⟩

theorem decimalReading_integer {here : Location} {whole fraction exponent rest : List Char}
    (hwhole : ∀ c ∈ whole, isDigitOrMark c = true)
    (h : (decimalReading here whole fraction exponent rest).kind = .intLiteral) :
    decimalReading here whole fraction exponent rest = integerReading here whole rest := by
  unfold decimalReading at h ⊢
  dsimp only at h ⊢
  split at h
  · rename_i hempty
    rw [if_pos hempty]
    rw [Bool.and_eq_true, List.isEmpty_iff, List.isEmpty_iff] at hempty
    unfold integerReading
    rw [hempty.1, hempty.2, List.append_nil, List.append_nil, positional_of_marks hwhole]
  · exact absurd h nofun

/-- An integer has the value of its digits, whatever its radix is. -/
theorem readNumber_integer {here : Location} {text : List Char}
    (h : (readNumber here text).kind = .intLiteral) :
    ∃ lexeme rest, readNumber here text = integerReading here lexeme rest := by
  have decimal : (readDecimal here text).kind = .intLiteral →
      ∃ lexeme rest, readDecimal here text = integerReading here lexeme rest := by
    rw [readDecimal_eq rfl rfl]
    exact fun h => ⟨_, _, decimalReading_integer (List.all_eq_true.1 List.all_takeWhile) h⟩
  revert h
  fun_cases readNumber here text with
  | case1 mark behind radix hradix =>
    unfold readRadix
    dsimp only
    split
    · exact fun h => absurd (show Kind.bitLiteral = .intLiteral from h) (by decide)
    · rename_i hbits
      refine fun _ => ⟨'0' :: mark :: behind.takeWhile isAlphanumOrMark,
        behind.dropWhile isAlphanumOrMark, ?_⟩
      unfold integerReading
      rw [positional_of_radix hradix hbits]
  | case2 | case3 => exact decimal

/-! ## Integers of a text -/

/-- **Integer literals are exact.**  If the digits of an integer literal are valid, its value is the
number that they stand for, and nothing is said about the span of the token.  Otherwise its value is
zero, and just one thing is said about that span: that the number is invalid. -/
theorem scan_integers (source : String) : ∀ t ∈ (scan source).1, t.kind = .intLiteral →
    ((positional t.lexeme.toList).Valid →
      (∃ v, t.literal = some (.int v) ∧ v.toNat = (positional t.lexeme.toList).value) ∧
        (scan source).2.filter (·.span = some t.span) = []) ∧
    (¬ (positional t.lexeme.toList).Valid → t.literal = some (.int 0) ∧
      ∃ d, (scan source).2.filter (·.span = some t.span) = [d] ∧ d.kind = .invalidNumber) := by
  intro t ht hkind
  obtain ⟨raw, here, c, text, rfl, hsaid, -⟩ := exists_reading_of_mem_scan ht (by rw [hkind]; decide)
  have hk : (reading raw here c text).kind = .intLiteral := hkind
  obtain ⟨lexeme, rest, hread⟩ :
      ∃ lexeme rest, reading raw here c text = integerReading here lexeme rest := by
    rcases reading_of_value (by rw [hk]; decide) with ⟨-, h⟩ | ⟨-, h⟩ | ⟨-, h⟩
    · rw [h] at hk ⊢
      exact readNumber_integer hk
    · rw [h, readChar_kind] at hk
      exact absurd hk (by decide)
    · rw [h] at hk
      exact absurd hk nofun
  rw [hread] at hsaid ⊢
  have hlexeme : ((integerReading here lexeme rest).token here).lexeme.toList = lexeme :=
    String.toList_ofList
  rw [hlexeme, hsaid]
  constructor
  · intro hvalid
    obtain ⟨v, hvalue, hreading⟩ := integerReading_valid hvalid here rest
    rw [hreading]
    exact ⟨⟨v, rfl, hvalue⟩, rfl⟩
  · intro hvalid
    obtain ⟨message, hreading⟩ := integerReading_invalid hvalid here rest
    rw [hreading]
    refine ⟨rfl, .located .invalidNumber message ⟨here, here.after lexeme⟩, ?_, rfl⟩
    simp [Diagnostic.located, Reading.token, Reading.span]

/-- A hexadecimal integer with a mark between its digits, and an octal one with a wrong digit. -/
theorem scan_integers_hexadecimal :
    let valid : Token := ⟨.intLiteral, "0xFF_ff", ⟨⟨1, 1, 0⟩, ⟨1, 8, 7⟩⟩, some (.int 65535)⟩
    let invalid : Token := ⟨.intLiteral, "0o8", ⟨⟨1, 9, 8⟩, ⟨1, 12, 11⟩⟩, some (.int 0)⟩
    (valid ∈ (scan "0xFF_ff 0o8").1 ∧ (positional "0xFF_ff".toList).Valid ∧
      (scan "0xFF_ff 0o8").2.filter (·.span = some valid.span) = []) ∧
    invalid ∈ (scan "0xFF_ff 0o8").1 ∧ ¬ (positional "0o8".toList).Valid ∧
      ∃ d, (scan "0xFF_ff 0o8").2.filter (·.span = some invalid.span) = [d] ∧
        d.kind = .invalidNumber := by
  intro valid invalid
  have hmem : valid ∈ (scan "0xFF_ff 0o8").1 ∧ invalid ∈ (scan "0xFF_ff 0o8").1 := by decide +kernel
  have hvalid : (positional "0xFF_ff".toList).Valid :=
    ⟨by decide, forall_mem_of_all (by decide), by decide⟩
  have hinvalid : ¬ (positional "0o8".toList).Valid := fun h =>
    absurd (h.digits '8' (by decide)) (by decide)
  refine ⟨⟨hmem.1, hvalid, ?_⟩, hmem.2, hinvalid, ?_⟩
  · exact ((scan_integers _ valid hmem.1 rfl).1 hvalid).2
  · exact ((scan_integers _ invalid hmem.2 rfl).2 hinvalid).2

end Token

end FluxFront
