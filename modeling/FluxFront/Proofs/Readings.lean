import FluxFront.Proofs.Lossless

/-!
# Scanning as gaps and readings

A scan goes from gap to reading to gap up to the end of the text.

* **Program**: `Token.scan` is a loop with fuel over scanners.
* **Specification**: `Scanner.Emits` says what a scanner gives in the end, with a rule for a gap up to
  the end of the text and one for a gap and the reading behind it.  There is no fuel in it.
* **Crux**: the rules determine what comes out (`Scanner.Emits.unique`), and the loop follows them
  (`emits_scan`).  So a scan is known as soon as it is derived by the rules (`scan_eq`).
-/

namespace FluxFront.Token

/-! ## One gap and one reading -/

/-- What is read behind a gap: a block of raw text or a token. -/
def reading (raw : Bool) (here : Location) (c : Char) (text : List Char) : Reading :=
  if raw && c == '{' then readRaw here text else readToken here c text

/-- The token of what was read from a place on. -/
def Reading.token (r : Reading) (here : Location) : Token where
  kind := r.kind
  lexeme := String.ofList r.lexeme
  span := r.span here
  literal := r.literal

/-- The gap in front of the next token. -/
def Scanner.gap (s : Scanner) : Gap := skipGap .blank s.here s.afterAsm s.rest

/-- The scanner behind what was read from a place on. -/
def Reading.behind (r : Reading) (here : Location) : Scanner :=
  ⟨r.rest, here.after r.lexeme, r.kind == .kwAsm⟩

namespace Scanner

variable {s : Scanner} {here : Location} {raw : Bool} {errors : List Diagnostic} {c : Char}
  {text : List Char}

theorem next_of_end (h : s.gap = ⟨[], here, raw, errors⟩) :
    s.next = (endAt here, errors, ⟨[], here, raw⟩) := by
  unfold next
  rw [show skipGap .blank s.here s.afterAsm s.rest = _ from h]

theorem next_of_reading (h : s.gap = ⟨c :: text, here, raw, errors⟩) :
    s.next = ((reading raw here c text).token here, errors ++ (reading raw here c text).errors,
      (reading raw here c text).behind here) := by
  unfold next
  rw [show skipGap .blank s.here s.afterAsm s.rest = _ from h]
  rfl

/-! ## Whole scans -/

/-- The scanner gives tokens up to the end of its text, and complains about it. -/
inductive Emits : Scanner → List Token → List Diagnostic → Prop
  | done {s : Scanner} {here : Location} {raw : Bool} {errors : List Diagnostic}
      (hgap : s.gap = ⟨[], here, raw, errors⟩) : Emits s [endAt here] errors
  | token {s : Scanner} {c : Char} {text : List Char} {here : Location} {raw : Bool}
      {errors more : List Diagnostic} {tokens : List Token}
      (hgap : s.gap = ⟨c :: text, here, raw, errors⟩)
      (hmore : Emits ((reading raw here c text).behind here) tokens more) :
      Emits s ((reading raw here c text).token here :: tokens)
        (errors ++ (reading raw here c text).errors ++ more)

namespace Emits

variable {tokens tokens' : List Token} {errors' : List Diagnostic} {s' : Scanner}

/-- What a scanner gives starts with its gap. -/
theorem of_gap (h : s.Emits tokens errors) (hgap : s'.gap = s.gap) : s'.Emits tokens errors := by
  cases h with
  | done h => exact .done (hgap.trans h)
  | token h hmore => exact .token (hgap.trans h) hmore

theorem unique (h : s.Emits tokens errors) (h' : s.Emits tokens' errors') :
    tokens = tokens' ∧ errors = errors' := by
  induction h generalizing tokens' errors' with
  | done hgap =>
    cases h' with
    | done hgap' =>
      obtain ⟨-, rfl, -, rfl⟩ := Gap.mk.inj (hgap.symm.trans hgap')
      exact ⟨rfl, rfl⟩
    | token hgap' _ => exact absurd (hgap.symm.trans hgap') (by simp)
  | token hgap _ ih =>
    cases h' with
    | done hgap' => exact absurd (hgap.symm.trans hgap') (by simp)
    | token hgap' hmore' =>
      obtain ⟨hrest, rfl, rfl, rfl⟩ := Gap.mk.inj (hgap.symm.trans hgap')
      obtain ⟨rfl, rfl⟩ := List.cons.inj hrest
      obtain ⟨rfl, rfl⟩ := ih hmore'
      exact ⟨rfl, rfl⟩

/-- At least the end of the text is given, and it comes last. -/
theorem exists_end (h : s.Emits tokens errors) : ∃ before stop, tokens = before ++ [endAt stop] := by
  induction h with
  | done => exact ⟨[], _, rfl⟩
  | token _ _ ih =>
    obtain ⟨before, stop, rfl⟩ := ih
    exact ⟨_ :: before, stop, rfl⟩

end Emits

/-! ## Places -/

/-- The scanner keeps count of where it stands: its place is the one behind some characters. -/
def Placed (s : Scanner) : Prop := ∃ front, s.here = placeBehind front

theorem gap_split {front : List Char} (hs : s.here = placeBehind front) {rest : List Char}
    (h : s.gap = ⟨rest, here, raw, errors⟩) :
    ∃ gap, s.rest = gap ++ rest ∧ here = placeBehind (front ++ gap) := by
  have hskips := skipGap_skips (fun _ => True) .blank s.here s.afterAsm s.rest hs fun _ _ => trivial
  rw [show skipGap .blank s.here s.afterAsm s.rest = _ from h] at hskips
  obtain ⟨gap, hrest, hplace, -⟩ := hskips
  exact ⟨gap, hrest, hplace⟩

/-- A reading behind a gap splits the text there. -/
theorem Placed.reading_split (hs : s.Placed) (h : s.gap = ⟨c :: text, here, raw, errors⟩) :
    c :: text = (reading raw here c text).lexeme ++ (reading raw here c text).rest ∧
      ((reading raw here c text).behind here).Placed := by
  obtain ⟨front, hfront⟩ := hs
  obtain ⟨gap, -, rfl⟩ := gap_split hfront h
  exact ⟨(reading_splits raw (front ++ gap) c text).1.text_eq,
    front ++ gap ++ (reading raw (placeBehind (front ++ gap)) c text).lexeme,
    (placeBehind_append _ _).symm⟩

/-- The loop gives what the rules say, if there is fuel for every character. -/
theorem emits_run (fuel : Nat) {s : Scanner} (hfuel : s.rest.length < fuel) (hs : s.Placed) :
    s.Emits (s.run fuel).1 (s.run fuel).2 := by
  induction fuel generalizing s with
  | zero => exact absurd hfuel (Nat.not_lt_zero _)
  | succ fuel ih =>
    obtain ⟨front, hfront⟩ := hs
    have hreport : ∀ d ∈ s.next.2.1, (fun _ => True) d := fun _ _ => trivial
    have htiles := next_tiles hfront hreport
    unfold run
    rcases hgap : s.gap with ⟨rest, here, raw, errors⟩
    cases rest with
    | nil =>
      rw [next_of_end hgap]
      exact .done hgap
    | cons c text =>
      obtain ⟨gap, -, rfl⟩ := gap_split hfront hgap
      have hkind : (reading raw (placeBehind (front ++ gap)) c text).kind ≠ .eof :=
        (reading_splits raw (front ++ gap) c text).1.kind
      rw [next_of_reading hgap] at htiles ⊢
      rcases htiles with ⟨heof, -⟩ | ⟨-, hlt, front', -, hbehind, -⟩
      · exact absurd heof hkind
      · dsimp only
        rw [if_neg (show Token.kind (Reading.token _ _) ≠ .eof from hkind)]
        exact .token hgap (ih (Nat.lt_of_lt_of_le hlt (Nat.le_of_lt_succ hfuel)) ⟨front', hbehind⟩)

end Scanner

theorem emits_scan (source : String) :
    (Scanner.ofString source).Emits (scan source).1 (scan source).2 :=
  Scanner.emits_run _ (by rw [← String.length_toList]; exact Nat.lt_succ_self _) ⟨[], rfl⟩

/-- What the rules give for a text is its scan. -/
theorem scan_eq {source : String} {tokens : List Token} {errors : List Diagnostic}
    (h : (Scanner.ofString source).Emits tokens errors) : scan source = (tokens, errors) := by
  obtain ⟨htokens, herrors⟩ := (emits_scan source).unique h
  exact Prod.ext htokens herrors

end FluxFront.Token
