import OperatorConsole.Proofs.Number.Decimal
import OperatorConsole.Proofs.Query.Spelling

/-!
# Reading spellings

What the scanner takes is the spelling of a lexeme.  Conversely, it takes a lexeme wherever a
spelling begins, and it takes the very lexeme that is spelled if the text does not go on with a
character that a name or a number could go on with.

## String literals
-/

namespace OperatorConsole

namespace Query

section Strings

variable {quote : Char}

theorem scanString_escape (e : Char) (rest : List Char) :
    scanString quote ('\\' :: e :: rest) =
      (scanString quote rest).map fun read => (unescape e :: read.1, read.2) := by
  rw [scanString.eq_def]
  dsimp only
  rw [if_pos rfl]
  cases scanString quote rest with
  | none => rfl
  | some read => rfl

theorem scanString_quote (hquote : quote ≠ '\\') (rest : List Char) :
    scanString quote (quote :: rest) = some ([], rest) := by
  rw [scanString.eq_def]
  dsimp only
  rw [if_neg hquote, if_pos rfl]

theorem scanString_plain {c : Char} (hescape : c ≠ '\\') (hquote : c ≠ quote)
    (rest : List Char) :
    scanString quote (c :: rest) =
      (scanString quote rest).map fun read => (c :: read.1, read.2) := by
  rw [scanString.eq_def]
  dsimp only
  rw [if_neg hescape, if_neg hquote]
  cases scanString quote rest with
  | none => rfl
  | some read => rfl

theorem scanString_of_denotes {raw value : List Char} (hquote : quote ≠ '\\')
    (hdenotes : Denotes quote raw value) (rest : List Char) :
    scanString quote (raw ++ quote :: rest) = some (value, rest) := by
  induction hdenotes with
  | done => exact scanString_quote hquote rest
  | escaped _ ih =>
      rw [List.cons_append, List.cons_append, scanString_escape, ih]
      rfl
  | plain hescape hplain _ ih =>
      rw [List.cons_append, scanString_plain hescape hplain, ih]
      rfl

end Strings

/-! ## Number literals -/

theorem scanDigits_some {digits : List Char} (hdigits : AllDigits digits) (hsome : digits ≠ [])
    (rest : List Char) : (Decimal.scanDigits (digits ++ rest)).1 ≠ [] := by
  unfold Decimal.scanDigits
  rw [List.takeWhile_append_of_pos hdigits]
  intro hempty
  exact hsome (List.append_eq_nil_iff.mp hempty).1

theorem scanFraction_some {fraction : List Char} (hfraction : IsFraction fraction)
    (hsome : fraction ≠ []) (rest : List Char) :
    (Decimal.scanFraction false (fraction ++ rest)).1 ≠ [] := by
  cases hfraction with
  | none => exact absurd rfl hsome
  | @digits digits hdigits hdigitsSome =>
      have htaken := scanDigits_some hdigits hdigitsSome rest
      rw [List.cons_append, Decimal.scanFraction]
      simp [htaken]

theorem scanUnsigned_isSome {text : List Char} (hunsigned : IsUnsigned text) (rest : List Char) :
    (Decimal.scanUnsigned false (text ++ rest)).isSome = true := by
  unfold Decimal.scanUnsigned
  simp only [Bool.false_and]
  split
  · rename_i hnone
    rcases Bool.and_eq_true_iff.mp hnone with ⟨hnoWhole, hnoFraction⟩
    cases hunsigned with
    | @number whole fraction exponent hwhole hfraction hexponent hsome =>
        rw [List.append_assoc, List.append_assoc] at hnoWhole hnoFraction
        cases whole with
        | nil =>
            have hfractionSome : fraction ≠ [] := hsome.resolve_left (fun hne => hne rfl)
            have hhead : forall text, (Decimal.scanDigits (fraction ++ text)) =
                ([], fraction ++ text) := by
              intro text
              cases hfraction with
              | none => exact absurd rfl hfractionSome
              | digits => rfl
            rw [List.nil_append, hhead] at hnoFraction
            exact absurd (List.isEmpty_iff.mp hnoFraction)
              (scanFraction_some hfraction hfractionSome _)
        | cons c whole =>
            exact absurd (List.isEmpty_iff.mp hnoWhole)
              (scanDigits_some hwhole (List.cons_ne_nil _ _) _)
  · rfl

section Exact

variable {rest : List Char}

def EndsNumber (rest : List Char) : Prop :=
  forall c, rest.head? = some c -> ¬ IsNumeralChar c

theorem EndsNumber.endsNotation (hrest : EndsNumber rest) : Decimal.EndsNotation rest := by
  intro c hc
  have hnone := hrest c hc
  constructor
  · rw [Bool.eq_false_iff]
    exact fun hdigit => hnone (Or.inl hdigit)
  · exact fun hmark => hnone (Or.inr (List.mem_append_left ['-', '+'] hmark))

theorem scanUnsigned_of_unsigned {text : List Char} (hunsigned : IsUnsigned text)
    (hrest : EndsNumber rest) :
    exists d, Decimal.scanUnsigned false (text ++ rest) = some (d, rest) := by
  rcases isUnsigned_iff.mp hunsigned with ⟨d, hspells⟩
  exact ⟨d, Decimal.scanUnsigned_of_spells hspells hrest.endsNotation⟩

end Exact

theorem IsUnsigned.head {text : List Char} (hunsigned : IsUnsigned text) :
    exists c rest, text = c :: rest ∧ (c.isDigit = true ∨ c = '.') := by
  cases hunsigned with
  | @number whole fraction exponent hwhole hfraction _ hsome =>
      cases whole with
      | cons c whole => exact ⟨c, _, rfl, Or.inl (hwhole c List.mem_cons_self)⟩
      | nil =>
          cases hfraction with
          | none => simp at hsome
          | digits => exact ⟨'.', _, rfl, Or.inr rfl⟩

theorem scanNumber_minus (body : List Char) :
    scanNumber ('-' :: body) = (Decimal.scanUnsigned false body).map Prod.snd := rfl

theorem scanNumber_plain {c : Char} (hc : c ≠ '-') (rest : List Char) :
    scanNumber (c :: rest) = (Decimal.scanUnsigned false (c :: rest)).map Prod.snd := by
  unfold scanNumber
  split
  · rename_i heq
    exact absurd (List.cons.inj heq).1 hc
  · rfl

theorem ne_minus_of_head {c : Char} (hc : c.isDigit = true ∨ c = '.') : c ≠ '-' := by
  intro hminus
  rw [hminus] at hc
  exact absurd hc (by decide)

theorem scanNumber_isSome {text : List Char} (hnumeral : IsNumeral text) (rest : List Char) :
    (scanNumber (text ++ rest)).isSome = true := by
  cases hnumeral with
  | negative hunsigned =>
      rw [List.cons_append, scanNumber_minus, Option.isSome_map]
      exact scanUnsigned_isSome hunsigned rest
  | plain hunsigned =>
      have hscan := scanUnsigned_isSome hunsigned rest
      rcases hunsigned.head with ⟨c, tail, rfl, hc⟩
      rw [List.cons_append, scanNumber_plain (ne_minus_of_head hc), Option.isSome_map]
      exact hscan

theorem scanNumber_of_numeral {text rest : List Char} (hnumeral : IsNumeral text)
    (hrest : EndsNumber rest) : scanNumber (text ++ rest) = some rest := by
  cases hnumeral with
  | negative hunsigned =>
      rcases scanUnsigned_of_unsigned hunsigned hrest with ⟨d, hscan⟩
      rw [List.cons_append, scanNumber_minus, hscan]
      rfl
  | plain hunsigned =>
      rcases scanUnsigned_of_unsigned hunsigned hrest with ⟨d, hscan⟩
      rcases hunsigned.head with ⟨c, tail, rfl, hc⟩
      rw [List.cons_append] at hscan ⊢
      rw [scanNumber_plain (ne_minus_of_head hc), hscan]
      rfl

theorem scanNumber_nameStart {c : Char} (hc : isNameStart c = true) (rest : List Char) :
    scanNumber (c :: rest) = none := by
  have hdigit : c.isDigit = false := by
    rw [Bool.eq_false_iff]
    intro hdigit
    rw [isNameStart_digit hdigit] at hc
    cases hc
  have hplain : forall {d : Char}, isNameStart d = false -> c ≠ d := by
    intro d hd hsame
    rw [hsame, hd] at hc
    cases hc
  rw [scanNumber_plain (hplain rfl)]
  have hpoint : c ≠ '.' := hplain rfl
  simp [Decimal.scanUnsigned, Decimal.scanDigits, Decimal.scanFraction, hdigit, hpoint]

/-! ## Lexemes -/

theorem ofChar?_nameStart {c : Char} (hc : isNameStart c = true) : Mark.ofChar? c = none :=
  Text.forall_ascii (p := fun c => isNameStart c = true -> Mark.ofChar? c = none)
    (by decide +kernel) (isNameStart_ascii hc) hc

theorem isQuote_nameStart {c : Char} (hc : isNameStart c = true) : isQuote c = false := by
  rw [Bool.eq_false_iff]
  intro hquote
  have hword := isWordChar_nameStart hc
  rw [isWordChar_quote hquote] at hword
  cases hword

theorem ofChar?_digit {c : Char} (hc : c.isDigit = true) :
    Mark.ofChar? c = none ∧ isQuote c = false :=
  Text.forall_ascii (p := fun c => c.isDigit = true -> Mark.ofChar? c = none ∧ isQuote c = false)
    (by decide +kernel) (Text.isDigit_ascii hc) hc

/-- Whether a text begins with no mark, no string and no arrow. -/
structure HeadsPlain (c : Char) (tail : List Char) : Prop where
  noMark : Mark.ofChar? c = none
  noQuote : isQuote c = false
  noArrow : forall rest, c = '-' -> tail ≠ '>' :: rest

/-- The ways in which a text begins, by what the scanner looks for. -/
inductive Begins : Char -> List Char -> Prop where
  | mark (m : Mark) (rest : List Char) : Begins m.char rest
  | string {quote : Char} (hquote : isQuote quote = true) (rest : List Char) : Begins quote rest
  | arrow (rest : List Char) : Begins '-' ('>' :: rest)
  | plain {c : Char} {rest : List Char} (hhead : HeadsPlain c rest) : Begins c rest

theorem begins (c : Char) (rest : List Char) : Begins c rest := by
  cases hmark : Mark.ofChar? c with
  | some m =>
      rw [ofChar?_eq_some hmark]
      exact .mark m rest
  | none =>
      cases hquote : isQuote c with
      | true => exact .string hquote rest
      | false =>
          by_cases harrow : exists after, c = '-' ∧ rest = '>' :: after
          · rcases harrow with ⟨after, rfl, rfl⟩
            exact .arrow after
          · exact .plain ⟨hmark, hquote, fun after hminus hrest => harrow ⟨after, hminus, hrest⟩⟩

theorem headsPlain_unsigned {c : Char} (hc : c.isDigit = true ∨ c = '.') (tail : List Char) :
    HeadsPlain c tail := by
  have hnoArrow : forall rest, c = '-' -> tail ≠ '>' :: rest := by
    intro rest hminus
    exact absurd hminus (ne_minus_of_head hc)
  rcases hc with hdigit | rfl
  · exact ⟨(ofChar?_digit hdigit).1, (ofChar?_digit hdigit).2, hnoArrow⟩
  · exact ⟨rfl, rfl, hnoArrow⟩

theorem IsNumeral.head {text : List Char} (hnumeral : IsNumeral text) :
    exists c tail, text = c :: tail ∧ Text.isBlank c = false ∧
      forall rest, HeadsPlain c (tail ++ rest) := by
  cases hnumeral with
  | plain hunsigned =>
      rcases hunsigned.head with ⟨c, tail, htext, hc⟩
      have hsolid : Text.isBlank c = false := by
        rcases hc with hdigit | rfl
        · exact Text.isBlank_digit hdigit
        · rfl
      exact ⟨c, tail, htext, hsolid, fun rest => headsPlain_unsigned hc _⟩
  | negative hunsigned =>
      rcases hunsigned.head with ⟨c, tail, htext, hc⟩
      subst htext
      refine ⟨'-', c :: tail, rfl, rfl, fun rest => ⟨rfl, rfl, ?_⟩⟩
      intro after _ hsame
      rw [(List.cons.inj hsame).1] at hc
      exact absurd hc (by decide)

section Lexemes

variable {position : Nat} {lexeme : Lexeme} {text rest : List Char}

theorem scanLexeme_mark (m : Mark) :
    scanLexeme position (m.char :: rest) = .ok (.mark m, rest) := by
  cases m with
  | _ => rfl

theorem scanLexeme_string {quote : Char} {value : List Char} (hquote : isQuote quote = true)
    (hscan : scanString quote text = some (value, rest)) :
    scanLexeme position (quote :: text) = .ok (.string (String.ofList value), rest) := by
  rcases isQuote_iff.mp hquote with rfl | rfl
  · simp [scanLexeme, Mark.ofChar?, isQuote, hscan]
  · simp [scanLexeme, Mark.ofChar?, isQuote, hscan]

theorem scanLexeme_unterminated {quote : Char} (hquote : isQuote quote = true)
    (hscan : scanString quote text = none) :
    scanLexeme position (quote :: text) = .error (.unterminatedString position) := by
  rcases isQuote_iff.mp hquote with rfl | rfl
  · simp [scanLexeme, Mark.ofChar?, isQuote, hscan]
  · simp [scanLexeme, Mark.ofChar?, isQuote, hscan]

theorem scanLexeme_plain {c : Char} (hhead : HeadsPlain c text) :
    scanLexeme position (c :: text) =
      match scanNumber (c :: text) with
      | some rest => .ok (.number (spanBefore (c :: text) rest), rest)
      | none =>
          if isNameStart c then
            .ok (.name (String.ofList (c :: text.takeWhile Text.isWordChar)),
              text.dropWhile Text.isWordChar)
          else .error (.unexpectedChar c position) := by
  unfold scanLexeme
  split
  · rename_i heq
    cases heq
  · rename_i after heq
    cases heq
    exact absurd rfl (hhead.noArrow after rfl)
  · rename_i heq
    cases heq
    rw [hhead.noMark, hhead.noQuote]
    rfl

theorem scanLexeme_number {c : Char} (hhead : HeadsPlain c text)
    (hscan : scanNumber (c :: text) = some rest) :
    scanLexeme position (c :: text) = .ok (.number (spanBefore (c :: text) rest), rest) := by
  rw [scanLexeme_plain hhead, hscan]

theorem scanLexeme_name {c : Char} (hc : isNameStart c = true) :
    scanLexeme position (c :: text) =
      .ok (.name (String.ofList (c :: text.takeWhile Text.isWordChar)),
        text.dropWhile Text.isWordChar) := by
  have hhead : HeadsPlain c text := by
    refine ⟨ofChar?_nameStart hc, isQuote_nameStart hc, ?_⟩
    intro rest hminus
    rw [hminus] at hc
    cases hc
  rw [scanLexeme_plain hhead, scanNumber_nameStart hc]
  exact if_pos hc

/-- Whether a text does not go on with a character that a lexeme in front of it could go on
with. -/
def Lexeme.StopsBefore (lexeme : Lexeme) (rest : List Char) : Prop :=
  match lexeme with
  | .name _ => forall c, rest.head? = some c -> Text.isWordChar c = false
  | .number _ => EndsNumber rest
  | _ => True

theorem takeWhile_dropWhile_append {p : Char -> Bool} {word : List Char}
    (hword : forall c, c ∈ word -> p c = true)
    (hrest : forall c, rest.head? = some c -> p c = false) :
    (word ++ rest).takeWhile p = word ∧ (word ++ rest).dropWhile p = rest := by
  rw [List.takeWhile_append_of_pos hword, List.dropWhile_append_of_pos hword]
  cases rest with
  | nil => simp
  | cons c rest => simp [hrest c rfl]

/-- A spelling with nothing behind it that belongs to it is taken as the lexeme that it spells. -/
theorem scanLexeme_of_spells (hspells : Spells lexeme text) (hstops : lexeme.StopsBefore rest) :
    scanLexeme position (text ++ rest) = .ok (lexeme, rest) := by
  cases hspells with
  | name hstart hword =>
      rcases takeWhile_dropWhile_append hword hstops with ⟨htake, hdrop⟩
      rw [List.cons_append, scanLexeme_name hstart, htake, hdrop]
  | string hquote hdenotes =>
      rw [List.cons_append, List.append_assoc, List.singleton_append]
      apply scanLexeme_string hquote
      apply scanString_of_denotes _ hdenotes
      intro hescape
      rw [hescape] at hquote
      cases hquote
  | number hnumeral =>
      have hscan := scanNumber_of_numeral hnumeral hstops
      have hspan := spanBefore_append text rest
      rcases hnumeral.head with ⟨c, tail, rfl, _, hhead⟩
      rw [List.cons_append] at hscan hspan ⊢
      rw [scanLexeme_number (hhead rest) hscan, hspan]
  | arrow => rfl
  | mark m => exact scanLexeme_mark m

theorem scanLexeme_begun (hspells : Spells lexeme text) (rest : List Char) :
    exists taken left, scanLexeme position (text ++ rest) = .ok (taken, left) := by
  cases hspells with
  | name hstart _ => exact ⟨_, _, scanLexeme_name hstart⟩
  | string hquote hdenotes =>
      exact ⟨_, _, scanLexeme_of_spells (.string hquote hdenotes) trivial⟩
  | number hnumeral =>
      rcases Option.isSome_iff_exists.mp (scanNumber_isSome hnumeral rest) with ⟨left, hscan⟩
      rcases hnumeral.head with ⟨c, tail, rfl, _, hhead⟩
      exact ⟨_, _, scanLexeme_number (hhead rest) hscan⟩
  | arrow => exact ⟨_, _, rfl⟩
  | mark m => exact ⟨_, _, scanLexeme_mark m⟩

theorem Spells.head (hspells : Spells lexeme text) :
    exists c tail, text = c :: tail ∧ Text.isBlank c = false := by
  cases hspells with
  | name hstart _ => exact ⟨_, _, rfl, isBlank_nameStart hstart⟩
  | string hquote _ => exact ⟨_, _, rfl, isBlank_quote hquote⟩
  | number hnumeral =>
      rcases hnumeral.head with ⟨c, tail, htext, hsolid, _⟩
      exact ⟨c, tail, htext, hsolid⟩
  | arrow => exact ⟨_, _, rfl, rfl⟩
  | mark m =>
      refine ⟨_, _, rfl, ?_⟩
      cases m with
      | _ => rfl

/-! ## Tokens -/

theorem scan_nil : scan position [] = .ok [] := by
  rw [scan.eq_def]

theorem scan_blank {c : Char} (hc : Text.isBlank c = true) :
    scan position (c :: rest) = scan (position + Text.unitWidth c) rest := by
  rw [scan.eq_def]
  dsimp only
  rw [if_pos hc]

theorem scan_fault {c : Char} {fault : Malformed} (hc : Text.isBlank c = false)
    (hlexeme : scanLexeme position (c :: text) = .error fault) :
    scan position (c :: text) = .error fault := by
  rw [scan.eq_def]
  dsimp only
  rw [if_neg (by simp [hc])]
  split
  · rename_i hfault
    rw [hlexeme] at hfault
    cases hfault
    rfl
  · rename_i hscan
    rw [hlexeme] at hscan
    cases hscan

theorem scan_lexeme {c : Char} (hc : Text.isBlank c = false)
    (hlexeme : scanLexeme position (c :: text) = .ok (lexeme, rest)) :
    scan position (c :: text) =
      (scan (position + (Text.width (c :: text) - Text.width rest)) rest).map
        (List.cons ⟨lexeme, position⟩) := by
  rw [scan.eq_def]
  dsimp only
  rw [if_neg (by simp [hc])]
  split
  · rename_i hfault
    rw [hlexeme] at hfault
    cases hfault
  · rename_i hscan
    rw [hlexeme] at hscan
    cases hscan
    cases scan (position + (Text.width (c :: text) - Text.width rest)) rest with
    | error fault => rfl
    | ok tokens => rfl

theorem scan_of_spells {tokens : List Token} (hspells : Spells lexeme text)
    (hstops : lexeme.StopsBefore rest)
    (hrest : scan (position + Text.width text) rest = .ok tokens) :
    scan position (text ++ rest) = .ok (⟨lexeme, position⟩ :: tokens) := by
  have hlexeme : scanLexeme position (text ++ rest) = .ok (lexeme, rest) :=
    scanLexeme_of_spells hspells hstops
  have hwidth := Text.width_sub text rest
  rcases hspells.head with ⟨c, tail, rfl, hc⟩
  rw [List.cons_append] at hlexeme hwidth ⊢
  rw [scan_lexeme hc hlexeme, hwidth, hrest]
  rfl

end Lexemes

end Query

end OperatorConsole
