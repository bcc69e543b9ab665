import OperatorConsole.Proofs.Number.Notation
import OperatorConsole.Proofs.Text.Letters
import OperatorConsole.Proofs.Text.Units

/-!
# Spelling of tokens

What an expression that splits into tokens is made of: the spellings of its tokens, each at the
position that the token bears, with nothing but blanks between them.  A name is taken to its full
length, so what follows one goes on with no letter.

## String literals

The raw text between two quotes denotes a value: a backslash and the character behind it stand
for one character, and any other character for itself.
-/

namespace OperatorConsole

namespace Query

/-! ## String literals -/

inductive Denotes (quote : Char) : List Char -> List Char -> Prop where
  | done : Denotes quote [] []
  | escaped {c : Char} {raw value : List Char} (hrest : Denotes quote raw value) :
      Denotes quote ('\\' :: c :: raw) (unescape c :: value)
  | plain {c : Char} {raw value : List Char} (hescape : c ≠ '\\') (hquote : c ≠ quote)
      (hrest : Denotes quote raw value) : Denotes quote (c :: raw) (c :: value)

theorem scanString_ok {quote : Char} {text value rest : List Char}
    (hscan : scanString quote text = some (value, rest)) :
    exists raw, text = raw ++ quote :: rest ∧ Denotes quote raw value := by
  fun_induction scanString quote text generalizing value with
  | case1 => cases hscan
  | case2 => cases hscan
  | case3 e text value' rest' hrest ih =>
      cases hscan
      rcases ih hrest with ⟨raw, rfl, hraw⟩
      exact ⟨'\\' :: e :: raw, rfl, .escaped hraw⟩
  | case4 => cases hscan
  | case5 =>
      cases hscan
      exact ⟨[], rfl, .done⟩
  | case6 c text hescape hquote value' rest' hrest ih =>
      cases hscan
      rcases ih hrest with ⟨raw, rfl, hraw⟩
      exact ⟨c :: raw, rfl, .plain hescape hquote hraw⟩
  | case7 => cases hscan

/-! ## Number literals -/

def AllDigits (digits : List Char) : Prop :=
  forall c, c ∈ digits -> c.isDigit = true

inductive IsFraction : List Char -> Prop where
  | none : IsFraction []
  | digits {digits : List Char} (hdigits : AllDigits digits) (hsome : digits ≠ []) :
      IsFraction ('.' :: digits)

inductive IsExponent : List Char -> Prop where
  | none : IsExponent []
  | digits {mark : Char} {sign digits : List Char} (hmark : mark = 'e' ∨ mark = 'E')
      (hsign : sign = [] ∨ sign = ['-'] ∨ sign = ['+']) (hdigits : AllDigits digits)
      (hsome : digits ≠ []) : IsExponent (mark :: (sign ++ digits))

/-- Digits with an optional fraction, or a fraction alone, then an optional exponent. -/
inductive IsUnsigned : List Char -> Prop where
  | number {whole fraction exponent : List Char} (hwhole : AllDigits whole)
      (hfraction : IsFraction fraction) (hexponent : IsExponent exponent)
      (hsome : whole ≠ [] ∨ fraction ≠ []) : IsUnsigned (whole ++ (fraction ++ exponent))

inductive IsNumeral : List Char -> Prop where
  | plain {text : List Char} (hunsigned : IsUnsigned text) : IsNumeral text
  | negative {text : List Char} (hunsigned : IsUnsigned text) : IsNumeral ('-' :: text)

theorem spellsSign_iff {sign : List Char} :
    (exists negative, Decimal.SpellsSign sign negative) ↔
      sign = [] ∨ sign = ['-'] ∨ sign = ['+'] := by
  constructor
  · rintro ⟨negative, hsign⟩
    cases hsign with
    | none => exact Or.inl rfl
    | minus => exact Or.inr (Or.inl rfl)
    | plus => exact Or.inr (Or.inr rfl)
  · rintro (rfl | rfl | rfl)
    · exact ⟨false, .none⟩
    · exact ⟨true, .minus⟩
    · exact ⟨false, .plus⟩

theorem isExponent_iff {exponent : List Char} :
    IsExponent exponent ↔ exists e, Decimal.SpellsExponent exponent e := by
  constructor
  · intro hexponent
    cases hexponent with
    | none => exact ⟨0, .none⟩
    | digits hmark hsign hdigits hsome =>
        rcases spellsSign_iff.mpr hsign with ⟨negative, hspells⟩
        exact ⟨_, .digits hmark hspells hdigits hsome⟩
  · rintro ⟨e, hspells⟩
    cases hspells with
    | none => exact .none
    | digits hmark hsign hdigits hsome =>
        exact .digits hmark (spellsSign_iff.mp ⟨_, hsign⟩) hdigits hsome

/-- Number literals are decimal notation with digits behind each point. -/
theorem isUnsigned_iff {text : List Char} :
    IsUnsigned text ↔ exists d, Decimal.SpellsUnsigned false text d := by
  constructor
  · rintro ⟨hwhole, hfraction, hexponent, hsome⟩
    rcases isExponent_iff.mp hexponent with ⟨e, hspells⟩
    cases hfraction with
    | none => exact ⟨_, .number hwhole .none hspells (by simpa using hsome)⟩
    | digits hdigits hdigitsSome =>
        exact ⟨_, .number hwhole (.digits hdigits (Or.inr hdigitsSome)) hspells
          (Or.inr hdigitsSome)⟩
  · rintro ⟨d, hwhole, hfraction, hexponent, hsome⟩
    have hspells := isExponent_iff.mpr ⟨_, hexponent⟩
    cases hfraction with
    | none => exact .number hwhole .none hspells (by simpa using hsome)
    | digits hdigits hdigitsSome =>
        exact .number hwhole (.digits hdigits (by simpa using hdigitsSome)) hspells
          (Or.inr (List.cons_ne_nil _ _))

theorem scanUnsigned_spells {text rest : List Char} {d : Decimal}
    (hscan : Decimal.scanUnsigned false text = some (d, rest)) :
    exists taken, text = taken ++ rest ∧ IsUnsigned taken := by
  rcases Decimal.scanUnsigned_spells hscan with ⟨taken, htext, hspells⟩
  exact ⟨taken, htext, isUnsigned_iff.mpr ⟨d, hspells⟩⟩

theorem scanNumber_spells {text rest : List Char} (hscan : scanNumber text = some rest) :
    exists taken, text = taken ++ rest ∧ IsNumeral taken := by
  unfold scanNumber at hscan
  split at hscan
  · rcases Option.map_eq_some_iff.mp hscan with ⟨⟨d, rest'⟩, hunsigned, rfl⟩
    rcases scanUnsigned_spells hunsigned with ⟨taken, rfl, htaken⟩
    exact ⟨'-' :: taken, rfl, .negative htaken⟩
  · rcases Option.map_eq_some_iff.mp hscan with ⟨⟨d, rest'⟩, hunsigned, rfl⟩
    rcases scanUnsigned_spells hunsigned with ⟨taken, rfl, htaken⟩
    exact ⟨taken, rfl, .plain htaken⟩

/-! ## Characters of number literals -/

def IsNumeralChar (c : Char) : Prop :=
  c.isDigit = true ∨ c ∈ ['.', 'e', 'E', '-', '+']

theorem IsExponent.chars {exponent : List Char} (hexponent : IsExponent exponent) :
    forall c, c ∈ exponent -> IsNumeralChar c := by
  cases hexponent with
  | none => exact List.forall_mem_nil _
  | @digits mark sign digits hmark hsign hdigits _ =>
      refine List.forall_mem_cons.mpr ⟨?_, ?_⟩
      · rcases hmark with rfl | rfl
        · exact Or.inr (by decide)
        · exact Or.inr (by decide)
      · intro c hc
        rcases List.mem_append.mp hc with hc | hc
        · rcases hsign with rfl | rfl | rfl
          · cases hc
          · exact Or.inr (by simp [List.mem_singleton.mp hc])
          · exact Or.inr (by simp [List.mem_singleton.mp hc])
        · exact Or.inl (hdigits c hc)

theorem IsFraction.chars {fraction : List Char} (hfraction : IsFraction fraction) :
    forall c, c ∈ fraction -> IsNumeralChar c := by
  cases hfraction with
  | none => exact List.forall_mem_nil _
  | digits hdigits _ =>
      exact List.forall_mem_cons.mpr ⟨Or.inr (by decide), fun c hc => Or.inl (hdigits c hc)⟩

theorem IsNumeral.chars {text : List Char} (hnumeral : IsNumeral text) :
    forall c, c ∈ text -> IsNumeralChar c := by
  have hunsigned : forall {text}, IsUnsigned text -> forall c, c ∈ text -> IsNumeralChar c := by
    rintro _ ⟨hwhole, hfraction, hexponent, _⟩ c hc
    rcases List.mem_append.mp hc with hc | hc
    · exact Or.inl (hwhole c hc)
    · rcases List.mem_append.mp hc with hc | hc
      · exact hfraction.chars c hc
      · exact hexponent.chars c hc
  cases hnumeral with
  | plain hplain => exact hunsigned hplain
  | negative hplain =>
      exact List.forall_mem_cons.mpr ⟨Or.inr (by decide), hunsigned hplain⟩

/-! ## Letters in number literals -/

theorem IsFraction.not_nameStart {fraction : List Char} (hfraction : IsFraction fraction) :
    forall c, c ∈ fraction -> isNameStart c = false := by
  cases hfraction with
  | none => exact List.forall_mem_nil _
  | digits hdigits _ =>
      exact List.forall_mem_cons.mpr ⟨rfl, fun c hc => isNameStart_digit (hdigits c hc)⟩

theorem IsExponent.cases_mark {exponent : List Char} (hexponent : IsExponent exponent) :
    exponent = [] ∨ exists mark c rest, exponent = mark :: c :: rest ∧
      forall d, d ∈ c :: rest -> isNameStart d = false := by
  cases hexponent with
  | none => exact Or.inl rfl
  | @digits mark sign digits _ hsign hdigits hsome =>
      have hletters : forall d, d ∈ sign ++ digits -> isNameStart d = false := by
        intro d hd
        rcases List.mem_append.mp hd with hd | hd
        · rcases hsign with rfl | rfl | rfl
          · cases hd
          · rw [List.mem_singleton.mp hd]
            rfl
          · rw [List.mem_singleton.mp hd]
            rfl
        · exact isNameStart_digit (hdigits d hd)
      cases htail : sign ++ digits with
      | nil => exact absurd (List.append_eq_nil_iff.mp htail).2 hsome
      | cons c rest =>
          rw [htail] at hletters
          exact Or.inr ⟨mark, c, rest, rfl, hletters⟩

theorem IsNumeral.parts {text : List Char} (hnumeral : IsNumeral text) :
    exists body exponent, text = body ++ exponent ∧
      (forall c, c ∈ body -> isNameStart c = false) ∧ IsExponent exponent := by
  have hparts : forall {text}, IsUnsigned text -> exists body exponent, text = body ++ exponent ∧
      (forall c, c ∈ body -> isNameStart c = false) ∧ IsExponent exponent := by
    rintro _ ⟨hwhole, hfraction, hexponent, _⟩
    refine ⟨_, _, (List.append_assoc _ _ _).symm, ?_, hexponent⟩
    intro c hc
    rcases List.mem_append.mp hc with hc | hc
    · exact isNameStart_digit (hwhole c hc)
    · exact hfraction.not_nameStart c hc
  cases hnumeral with
  | plain hunsigned => exact hparts hunsigned
  | negative hunsigned =>
      rcases hparts hunsigned with ⟨body, exponent, rfl, hbody, hexponent⟩
      exact ⟨'-' :: body, exponent, rfl, List.forall_mem_cons.mpr ⟨rfl, hbody⟩, hexponent⟩

theorem IsNumeral.letter {text left right : List Char} {c : Char} (hnumeral : IsNumeral text)
    (htext : text = left ++ c :: right) (hc : isNameStart c = true) :
    exists d rest, right = d :: rest ∧ isNameStart d = false := by
  rcases hnumeral.parts with ⟨body, exponent, rfl, hbody, hexponent⟩
  have hplain : forall {chars : List Char}, (forall d, d ∈ chars -> isNameStart d = false) ->
      c ∉ chars := by
    intro chars hchars hmem
    rw [hchars c hmem] at hc
    cases hc
  -- The letter is the mark of the exponent, since nothing else is a letter.
  have hmark : exponent = c :: right := by
    rcases List.append_eq_append_iff.mp htext with ⟨middle, _, hsplit⟩ | ⟨middle, hleft, hsplit⟩
    · cases middle with
      | nil => exact hsplit
      | cons mark middle =>
          rcases hexponent.cases_mark with rfl | ⟨_, d, rest, rfl, htail⟩
          · cases hsplit
          · refine absurd ?_ (hplain htail)
            rw [(List.cons.inj hsplit).2]
            simp
    · cases middle with
      | nil => exact hsplit.symm
      | cons d middle =>
          refine absurd ?_ (hplain hbody)
          rw [hleft, (List.cons.inj hsplit).1]
          simp
  rcases hexponent.cases_mark with hnone | ⟨_, d, rest, hsome, htail⟩
  · rw [hnone] at hmark
    cases hmark
  · rw [hsome] at hmark
    cases hmark
    exact ⟨d, rest, rfl, htail d List.mem_cons_self⟩

/-! ## Tokens -/

/-- The ways to write a lexeme. -/
inductive Spells : Lexeme -> List Char -> Prop where
  | name {c : Char} {rest : List Char} (hstart : isNameStart c = true)
      (hrest : forall d, d ∈ rest -> Text.isWordChar d = true) :
      Spells (.name (String.ofList (c :: rest))) (c :: rest)
  | string {quote : Char} {raw value : List Char} (hquote : isQuote quote = true)
      (hdenotes : Denotes quote raw value) :
      Spells (.string (String.ofList value)) (quote :: (raw ++ [quote]))
  | number {text : List Char} (hnumeral : IsNumeral text) :
      Spells (.number (String.ofList text)) text
  | arrow : Spells .arrow ['-', '>']
  | mark (m : Mark) : Spells (.mark m) [m.char]

/-- Whether a lexeme may end where a text goes on: a name is taken to its full length. -/
def Lexeme.EndsBefore (lexeme : Lexeme) (rest : List Char) : Prop :=
  forall word c, lexeme = .name word -> rest.head? = some c -> Text.isWordChar c = false

/-- A text, from a position on, is the spellings of its tokens with blanks between them. -/
inductive Written : Nat -> List Char -> List Token -> Prop where
  | done (position : Nat) : Written position [] []
  | blank {position : Nat} {c : Char} {rest : List Char} {tokens : List Token}
      (hblank : Text.isBlank c = true) (hrest : Written (position + Text.unitWidth c) rest tokens) :
      Written position (c :: rest) tokens
  | token {position : Nat} {lexeme : Lexeme} {text rest : List Char} {tokens : List Token}
      (hspells : Spells lexeme text) (hends : lexeme.EndsBefore rest)
      (hrest : Written (position + Text.width text) rest tokens) :
      Written position (text ++ rest) (⟨lexeme, position⟩ :: tokens)

theorem ofChar?_eq_some {c : Char} {m : Mark} (hmark : Mark.ofChar? c = some m) : c = m.char := by
  unfold Mark.ofChar? at hmark
  split at hmark
  all_goals cases hmark
  all_goals rfl

theorem spanBefore_append (taken rest : List Char) :
    spanBefore (taken ++ rest) rest = String.ofList taken := by
  unfold spanBefore
  rw [List.length_append, Nat.add_sub_cancel, List.take_left]

theorem scanLexeme_spells {position : Nat} {text rest : List Char} {lexeme : Lexeme}
    (hscan : scanLexeme position text = .ok (lexeme, rest)) :
    exists taken, text = taken ++ rest ∧ Spells lexeme taken ∧ lexeme.EndsBefore rest := by
  unfold scanLexeme at hscan
  split at hscan
  · cases hscan
  · cases hscan
    exact ⟨['-', '>'], rfl, .arrow, fun _ _ hname => by cases hname⟩
  · rename_i c tail _
    split at hscan
    · rename_i m hmark
      cases hscan
      rw [ofChar?_eq_some hmark]
      exact ⟨[m.char], rfl, .mark m, fun _ _ hname => by cases hname⟩
    · split at hscan
      · rename_i hquote
        split at hscan
        · rename_i value rest' hstring
          cases hscan
          rcases scanString_ok hstring with ⟨raw, rfl, hraw⟩
          refine ⟨c :: (raw ++ [c]), ?_, .string hquote hraw, fun _ _ hname => by cases hname⟩
          rw [List.cons_append, List.append_assoc, List.singleton_append]
        · cases hscan
      · split at hscan
        · rename_i rest' hnumber
          cases hscan
          rcases scanNumber_spells hnumber with ⟨taken, htext, hnumeral⟩
          rw [htext, spanBefore_append]
          exact ⟨taken, rfl, .number hnumeral, fun _ _ hname => by cases hname⟩
        · split at hscan
          · rename_i hstart
            cases hscan
            refine ⟨c :: tail.takeWhile Text.isWordChar, ?_, .name hstart ?_, ?_⟩
            · rw [List.cons_append, List.takeWhile_append_dropWhile]
            · exact fun d hd => List.all_eq_true.mp List.all_takeWhile d hd
            · intro _ d _ hd
              have hstops := List.head?_dropWhile_not Text.isWordChar tail
              rw [hd] at hstops
              simpa using hstops
          · cases hscan

theorem scan_written {position : Nat} {text : List Char} {tokens : List Token}
    (hscan : scan position text = .ok tokens) : Written position text tokens := by
  fun_induction scan position text generalizing tokens with
  | case1 position =>
      cases hscan
      exact .done position
  | case2 position c rest hblank ih => exact .blank hblank (ih hscan)
  | case3 => cases hscan
  | case4 => cases hscan
  | case5 position c rest _ lexeme rest' hlexeme =>
      rename_i taken others hothers ih
      cases hscan
      rcases scanLexeme_spells hlexeme with ⟨spelling, htext, hspells, hends⟩
      have hwidth : taken = Text.width spelling := by
        change Text.width (c :: rest) - Text.width rest' = Text.width spelling
        rw [htext, Text.width_sub]
      have hrest := ih hothers
      rw [hwidth] at hrest
      rw [htext]
      exact .token hspells hends hrest

theorem tokenize_written {expression : String} {tokens : List Token}
    (htokens : tokenize expression = .ok tokens) : Written 0 expression.toList tokens :=
  scan_written htokens

end Query

end OperatorConsole
