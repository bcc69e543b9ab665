import OperatorConsole.Proofs.Query.Scanning
import OperatorConsole.Proofs.Text.SameLetters

/-!
# Splitting texts up to letter case

The scanner treats all letters alike where it looks for the end of a lexeme.  Texts with the same
letters are therefore split at the same places into lexemes of the same form, or they fail with
the same fault.

## Names

If in addition the texts differ in nothing but names, the lexemes are the same but for the letter
case of names.
-/

namespace OperatorConsole

namespace Query

open Text

/-! ## Number literals -/

section Numbers

variable {text text' : List Char}

theorem scanDigits_same (hsame : SameLetters text text') :
    SameLetters (Decimal.scanDigits text).1 (Decimal.scanDigits text').1 ∧
      SameLetters (Decimal.scanDigits text).2 (Decimal.scanDigits text').2 :=
  ⟨hsame.takeWhile SameLetter.isDigit, hsame.dropWhile SameLetter.isDigit⟩

theorem scanSign_plain {c : Char} (hminus : c ≠ '-') (hplus : c ≠ '+') (rest : List Char) :
    (Decimal.scanSign (c :: rest)).2 = c :: rest := by
  unfold Decimal.scanSign
  split
  · rename_i heq
    exact absurd (List.cons.inj heq).1 hminus
  · rename_i heq
    exact absurd (List.cons.inj heq).1 hplus
  · rfl

theorem scanSign_same (hsame : SameLetters text text') :
    SameLetters (Decimal.scanSign text).2 (Decimal.scanSign text').2 := by
  cases hsame with
  | nil => exact .nil
  | @cons c d rest rest' hc hrest =>
      by_cases hminus : c = '-'
      · subst hminus
        rw [hc.eq_of_plain rfl]
        exact hrest
      · by_cases hplus : c = '+'
        · subst hplus
          rw [hc.eq_of_plain rfl]
          exact hrest
        · rw [scanSign_plain hminus hplus,
            scanSign_plain (hc.ne_of_plain rfl hminus) (hc.ne_of_plain rfl hplus)]
          exact .cons hc hrest

theorem exponentMark_same {c d : Char} (hsame : SameLetter c d) :
    (c = 'e' || c = 'E') = (d = 'e' || d = 'E') := by
  have hletter : forall {c : Char}, c.isAlpha = true ->
      (decide (c = 'e') || decide (c = 'E')) = decide (c.toLower = 'e') := by
    intro c hc
    exact forall_ascii
      (p := fun c => (decide (c = 'e') || decide (c = 'E')) = decide (c.toLower = 'e'))
      (by decide +kernel) (isAlpha_ascii hc)
  rcases hsame.cases with heq | ⟨hc, hd⟩
  · rw [heq]
  · rw [hletter hc, hletter hd, hsame]

theorem scanExponent_same (hsame : SameLetters text text') :
    SameLetters (Decimal.scanExponent text).2 (Decimal.scanExponent text').2 := by
  cases hsame with
  | nil => exact .nil
  | @cons c d rest rest' hc hrest =>
      rcases scanDigits_same (scanSign_same hrest) with ⟨hdigits, hafter⟩
      unfold Decimal.scanExponent
      dsimp only
      rw [exponentMark_same hc, hdigits.isEmpty]
      split
      · exact hafter
      · exact .cons hc hrest

theorem scanFraction_same (hsame : SameLetters text text') :
    SameLetters (Decimal.scanFraction false text).1 (Decimal.scanFraction false text').1 ∧
      SameLetters (Decimal.scanFraction false text).2 (Decimal.scanFraction false text').2 := by
  cases hsame with
  | nil => exact ⟨.nil, .nil⟩
  | @cons c d rest rest' hc hrest =>
      rcases scanDigits_same hrest with ⟨hdigits, hafter⟩
      have hpoint : decide (c = '.') = decide (d = '.') := by
        by_cases heq : c = '.'
        · subst heq
          rw [hc.eq_of_plain rfl]
        · rw [decide_eq_false heq, decide_eq_false (hc.ne_of_plain rfl heq)]
      unfold Decimal.scanFraction
      dsimp only
      rw [hpoint, hdigits.isEmpty]
      split
      · exact ⟨hdigits, hafter⟩
      · exact ⟨.nil, .cons hc hrest⟩

theorem scanUnsigned_same (hsame : SameLetters text text') :
    Option.Rel SameLetters ((Decimal.scanUnsigned false text).map Prod.snd)
      ((Decimal.scanUnsigned false text').map Prod.snd) := by
  rcases scanDigits_same hsame with ⟨hwhole, hafterWhole⟩
  rcases scanFraction_same hafterWhole with ⟨hfraction, hafterFraction⟩
  unfold Decimal.scanUnsigned
  dsimp only
  rw [Bool.false_and, Bool.false_and, hwhole.isEmpty, hfraction.isEmpty]
  split
  · exact .none
  · exact .some (scanExponent_same hafterFraction)

theorem scanNumber_same (hsame : SameLetters text text') :
    Option.Rel SameLetters (scanNumber text) (scanNumber text') := by
  have hunsigned := scanUnsigned_same hsame
  cases hsame with
  | nil => exact hunsigned
  | @cons c d rest rest' hc hrest =>
      by_cases hminus : c = '-'
      · subst hminus
        rw [hc.eq_of_plain rfl, scanNumber_minus, scanNumber_minus]
        exact scanUnsigned_same hrest
      · rw [scanNumber_plain hminus, scanNumber_plain (hc.ne_of_plain rfl hminus)]
        exact hunsigned

end Numbers

/-! ## String literals -/

theorem isAlpha_quote {quote : Char} (hquote : isQuote quote = true) : quote.isAlpha = false := by
  rcases isQuote_iff.mp hquote with rfl | rfl
  · rfl
  · rfl

theorem map_snd_of_map {α β : Type} (read : Option (α × List Char)) (f : α × List Char -> β) :
    (read.map fun r => (f r, r.2)).map Prod.snd = read.map Prod.snd := by
  rw [Option.map_map]
  rfl

/-- A string ends at the same place, whatever the case of its letters.  The induction is on the
length, as an escape takes two characters. -/
theorem scanString_same {quote : Char} (hquote : isQuote quote = true) {text text' : List Char}
    (hsame : SameLetters text text') :
    Option.Rel SameLetters ((scanString quote text).map Prod.snd)
      ((scanString quote text').map Prod.snd) := by
  have hnoEscape : quote ≠ '\\' := by
    intro hescape
    rw [hescape] at hquote
    cases hquote
  induction hlength : text.length using Nat.strongRecOn generalizing text text' with
  | ind n ih =>
      cases hsame with
      | nil => exact .none
      | @cons c d rest rest' hc hrest =>
          rw [List.length_cons] at hlength
          by_cases hescape : c = '\\'
          · subst hescape
            rw [hc.eq_of_plain rfl]
            cases hrest with
            | nil =>
                rw [scanString.eq_def]
                exact .none
            | @cons e e' rest rest' _ hrest =>
                rw [List.length_cons] at hlength
                rw [scanString_escape, scanString_escape, map_snd_of_map, map_snd_of_map]
                exact ih rest.length (by omega) hrest rfl
          · by_cases hend : c = quote
            · subst hend
              rw [hc.eq_of_plain (isAlpha_quote hquote), scanString_quote hnoEscape,
                scanString_quote hnoEscape]
              exact .some hrest
            · rw [scanString_plain hescape hend, scanString_plain (hc.ne_of_plain rfl hescape)
                (hc.ne_of_plain (isAlpha_quote hquote) hend), map_snd_of_map, map_snd_of_map]
              exact ih rest.length (by omega) hrest rfl

/-! ## Lexemes -/

inductive Lexeme.SameForm : Lexeme -> Lexeme -> Prop where
  | name {word word' : List Char} (hsame : SameLetters word word') :
      SameForm (.name (String.ofList word)) (.name (String.ofList word'))
  | string (value value' : String) : SameForm (.string value) (.string value')
  | number (literal literal' : String) : SameForm (.number literal) (.number literal')
  | arrow : SameForm .arrow .arrow
  | mark (m : Mark) : SameForm (.mark m) (.mark m)

/-- What is read off two texts with the same letters: the same fault, or lexemes of the same form
with texts behind them that have the same letters. -/
inductive ReadsAlike : Except Malformed (Lexeme × List Char) ->
    Except Malformed (Lexeme × List Char) -> Prop where
  | fault (fault : Malformed) : ReadsAlike (.error fault) (.error fault)
  | lexeme {lexeme lexeme' : Lexeme} {rest rest' : List Char} (hform : lexeme.SameForm lexeme')
      (hrest : SameLetters rest rest') : ReadsAlike (.ok (lexeme, rest)) (.ok (lexeme', rest'))

section Lexemes

variable {text text' : List Char} {c d : Char} {position : Nat}

theorem scanLexeme_name_same (hc : SameLetter c d) (hsame : SameLetters text text')
    (hstart : isNameStart c = true) :
    ReadsAlike (scanLexeme position (c :: text)) (scanLexeme position (d :: text')) := by
  rw [scanLexeme_name hstart, scanLexeme_name (hc.isNameStart.symm.trans hstart)]
  exact .lexeme (.name (.cons hc (hsame.takeWhile SameLetter.isWordChar)))
    (hsame.dropWhile SameLetter.isWordChar)

theorem scanLexeme_string_same (hsame : SameLetters text text') (hquote : isQuote c = true) :
    ReadsAlike (scanLexeme position (c :: text)) (scanLexeme position (c :: text')) := by
  have hread := scanString_same hquote hsame
  cases hscan : scanString c text with
  | none =>
      cases hscan' : scanString c text' with
      | none =>
          rw [scanLexeme_unterminated hquote hscan, scanLexeme_unterminated hquote hscan']
          exact .fault _
      | some read' =>
          rw [hscan, hscan'] at hread
          cases hread
  | some read =>
      cases hscan' : scanString c text' with
      | none =>
          rw [hscan, hscan'] at hread
          cases hread
      | some read' =>
          rw [hscan, hscan'] at hread
          rw [scanLexeme_string hquote hscan, scanLexeme_string hquote hscan']
          cases hread with
          | some hrest => exact .lexeme (.string _ _) hrest

theorem HeadsPlain.same (hhead : HeadsPlain c text) (hsame : SameLetters text text') :
    HeadsPlain c text' := by
  refine ⟨hhead.noMark, hhead.noQuote, ?_⟩
  intro rest hminus htext
  rw [htext] at hsame
  cases hsame with
  | cons hd _ => exact hhead.noArrow _ hminus (by rw [hd.symm.eq_of_plain rfl])

theorem scanLexeme_plain_same (hsame : SameLetters text text') (hhead : HeadsPlain c text) :
    ReadsAlike (scanLexeme position (c :: text)) (scanLexeme position (c :: text')) := by
  have hread : Option.Rel SameLetters (scanNumber (c :: text)) (scanNumber (c :: text')) :=
    scanNumber_same (.cons (SameLetter.refl c) hsame)
  rw [scanLexeme_plain hhead, scanLexeme_plain (hhead.same hsame)]
  generalize scanNumber (c :: text) = read at hread ⊢
  generalize scanNumber (c :: text') = read' at hread ⊢
  cases hread with
  | some hrest => exact .lexeme (.number _ _) hrest
  | none =>
      dsimp only
      split
      · exact .lexeme
          (.name (.cons (SameLetter.refl c) (hsame.takeWhile SameLetter.isWordChar)))
          (hsame.dropWhile SameLetter.isWordChar)
      · exact .fault _

theorem scanLexeme_same (hsame : SameLetters text text') :
    ReadsAlike (scanLexeme position text) (scanLexeme position text') := by
  cases hsame with
  | nil => exact .fault _
  | @cons c d rest rest' hc hrest =>
      rcases hc.cases with rfl | ⟨hletter, _⟩
      · cases begins c rest with
        | mark m =>
            rw [scanLexeme_mark, scanLexeme_mark]
            exact .lexeme (.mark m) hrest
        | string hquote => exact scanLexeme_string_same hrest hquote
        | arrow =>
            cases hrest with
            | cons hd htail =>
                rw [hd.eq_of_plain rfl]
                exact .lexeme .arrow htail
        | plain hhead => exact scanLexeme_plain_same hrest hhead
      · exact scanLexeme_name_same hc hrest (isAlpha_nameStart hletter)

end Lexemes

/-! ## Tokens -/

/-- Two texts with the same letters, from a position on, as the spellings of tokens of the same
form with the same blanks between them. -/
inductive WrittenAlike : Nat -> List Char -> List Char -> List Token -> List Token -> Prop where
  | done (position : Nat) : WrittenAlike position [] [] [] []
  | blank {position : Nat} {c : Char} {rest rest' : List Char} {tokens tokens' : List Token}
      (hrest : WrittenAlike (position + Text.unitWidth c) rest rest' tokens tokens') :
      WrittenAlike position (c :: rest) (c :: rest') tokens tokens'
  | token {position : Nat} {lexeme lexeme' : Lexeme} {text text' rest rest' : List Char}
      {tokens tokens' : List Token} (hspells : Spells lexeme text)
      (hspells' : Spells lexeme' text') (hsame : SameLetters text text')
      (hform : lexeme.SameForm lexeme')
      (hrest : WrittenAlike (position + Text.width text) rest rest' tokens tokens') :
      WrittenAlike position (text ++ rest) (text' ++ rest') (⟨lexeme, position⟩ :: tokens)
        (⟨lexeme', position⟩ :: tokens')

inductive SplitsAlike (position : Nat) (text text' : List Char) :
    Except Malformed (List Token) -> Except Malformed (List Token) -> Prop where
  | fault (fault : Malformed) : SplitsAlike position text text' (.error fault) (.error fault)
  | tokens {tokens tokens' : List Token}
      (htokens : WrittenAlike position text text' tokens tokens') :
      SplitsAlike position text text' (.ok tokens) (.ok tokens')

namespace SplitsAlike

variable {position : Nat} {rest rest' : List Char} {split split' : Except Malformed (List Token)}

theorem behind_blank {c : Char}
    (halike : SplitsAlike (position + Text.unitWidth c) rest rest' split split') :
    SplitsAlike position (c :: rest) (c :: rest') split split' := by
  cases halike with
  | fault fault => exact .fault fault
  | tokens htokens => exact .tokens (.blank htokens)

theorem behind_token {lexeme lexeme' : Lexeme} {text text' : List Char}
    (halike : SplitsAlike (position + Text.width text) rest rest' split split')
    (hspells : Spells lexeme text) (hspells' : Spells lexeme' text')
    (hsame : SameLetters text text') (hform : lexeme.SameForm lexeme') :
    SplitsAlike position (text ++ rest) (text' ++ rest')
      (split.map (List.cons ⟨lexeme, position⟩)) (split'.map (List.cons ⟨lexeme', position⟩)) := by
  cases halike with
  | fault fault => exact .fault fault
  | tokens htokens => exact .tokens (.token hspells hspells' hsame hform htokens)

end SplitsAlike

theorem scan_token_same {position : Nat} {c d : Char} {rest rest' after after' : List Char}
    {lexeme lexeme' : Lexeme} (hsame : SameLetters (c :: rest) (d :: rest'))
    (hblank : Text.isBlank c = false)
    (hscan : scanLexeme position (c :: rest) = .ok (lexeme, after))
    (hscan' : scanLexeme position (d :: rest') = .ok (lexeme', after'))
    (hform : lexeme.SameForm lexeme') (hafter : SameLetters after after')
    (hothers : forall position, SplitsAlike position after after' (scan position after)
      (scan position after')) :
    SplitsAlike position (c :: rest) (d :: rest') (scan position (c :: rest))
      (scan position (d :: rest')) := by
  have hblank' : Text.isBlank d = false := by
    cases hsame with
    | cons hc _ => exact hc.isBlank.symm.trans hblank
  rcases scanLexeme_spells hscan with ⟨spelling, htext, hspells, _⟩
  rcases scanLexeme_spells hscan' with ⟨spelling', htext', hspells', _⟩
  rw [scan_lexeme hblank hscan, scan_lexeme hblank' hscan', ← hsame.width, ← hafter.width]
  rw [htext, htext'] at hsame ⊢
  rw [Text.width_sub]
  exact (hothers _).behind_token hspells hspells' (hsame.front hafter) hform

/-- Texts with the same letters are split at the same places. -/
theorem scan_same {position : Nat} {text text' : List Char} (hsame : SameLetters text text') :
    SplitsAlike position text text' (scan position text) (scan position text') := by
  induction hlength : text.length using Nat.strongRecOn generalizing position text text' with
  | ind n ih =>
      cases hsame with
      | nil =>
          rw [scan_nil]
          exact .tokens (.done position)
      | @cons c d rest rest' hc hrest =>
          cases hblank : Text.isBlank c with
          | true =>
              have hsameChar : d = c := hc.eq_of_blank hblank
              subst hsameChar
              have hshorter : rest.length < n := by
                rw [← hlength]
                exact Nat.lt_succ_self _
              rw [scan_blank hblank, scan_blank hblank]
              exact (ih rest.length hshorter hrest rfl).behind_blank
          | false =>
              have hblank' : Text.isBlank d = false := hc.isBlank.symm.trans hblank
              have hread : ReadsAlike (scanLexeme position (c :: rest))
                  (scanLexeme position (d :: rest')) :=
                scanLexeme_same (.cons hc hrest)
              generalize hscan : scanLexeme position (c :: rest) = read at hread
              generalize hscan' : scanLexeme position (d :: rest') = read' at hread
              cases hread with
              | fault fault =>
                  rw [scan_fault hblank hscan, scan_fault hblank' hscan']
                  exact .fault fault
              | lexeme hform hafter =>
                  have hshorter := length_scanLexeme_lt hscan
                  rw [hlength] at hshorter
                  apply scan_token_same (.cons hc hrest) hblank hscan hscan' hform hafter
                  intro position
                  exact ih _ hshorter hafter rfl

theorem WrittenAlike.start_le {start : Nat} {text text' : List Char} {tokens tokens' : List Token}
    (halike : WrittenAlike start text text' tokens tokens') :
    forall token, token ∈ tokens -> start ≤ token.position := by
  induction halike with
  | done => exact List.forall_mem_nil _
  | blank _ ih =>
      intro token htoken
      exact Nat.le_trans (Nat.le_add_right _ _) (ih token htoken)
  | token _ _ _ _ _ ih =>
      intro token htoken
      cases htoken with
      | head => exact Nat.le_refl _
      | tail _ hlater => exact Nat.le_trans (Nat.le_add_right _ _) (ih token hlater)

/-! ## Differences in names -/

inductive Lexeme.Recased : Lexeme -> Lexeme -> Prop where
  | name {word word' : List Char} (hsame : SameLetters word word') :
      Recased (.name (String.ofList word)) (.name (String.ofList word'))
  | same (lexeme : Lexeme) : Recased lexeme lexeme

structure Token.Recased (token token' : Token) : Prop where
  position : token.position = token'.position
  lexeme : token.lexeme.Recased token'.lexeme

def Token.NamesAt (token : Token) (offset : Nat) : Prop :=
  match token.lexeme with
  | .name word => token.position ≤ offset ∧ offset < token.position + Text.width word.toList
  | _ => False

instance (token : Token) (offset : Nat) : Decidable (token.NamesAt offset) :=
  match token with
  | ⟨.name _, _⟩ => inferInstanceAs (Decidable (_ ∧ _))
  | ⟨.string _, _⟩ => isFalse id
  | ⟨.number _, _⟩ => isFalse id
  | ⟨.arrow, _⟩ => isFalse id
  | ⟨.mark _, _⟩ => isFalse id

/-- Whether texts that begin at an offset have different characters only where one of some tokens
is a name. -/
def DifferInNames (start : Nat) (tokens : List Token) (text text' : List Char) : Prop :=
  forall i, text[i]? ≠ text'[i]? ->
    exists token, token ∈ tokens ∧ token.NamesAt (start + Text.width (text.take i))

theorem Token.NamesAt.position_le {token : Token} {offset : Nat} (hat : token.NamesAt offset) :
    token.position ≤ offset := by
  unfold Token.NamesAt at hat
  split at hat
  · exact hat.1
  · cases hat

namespace DifferInNames

variable {start : Nat} {tokens : List Token} {front front' text text' : List Char}

theorem of_check (hlength : text.length = text'.length)
    (hcheck : forall i, i < text.length -> text[i]? ≠ text'[i]? ->
      exists token, token ∈ tokens ∧ token.NamesAt (start + Text.width (text.take i))) :
    DifferInNames start tokens text text' := by
  intro i hdiffer
  by_cases hi : i < text.length
  · exact hcheck i hi hdiffer
  · rw [List.getElem?_eq_none (Nat.not_lt.mp hi),
      List.getElem?_eq_none (hlength ▸ Nat.not_lt.mp hi)] at hdiffer
    exact absurd rfl hdiffer

theorem behind (hnames : DifferInNames start tokens (front ++ text) (front' ++ text'))
    (hlength : front.length = front'.length) :
    DifferInNames (start + Text.width front) tokens text text' := by
  intro i hdiffer
  have hsplit : (front ++ text)[front.length + i]? ≠ (front' ++ text')[front.length + i]? := by
    rw [List.getElem?_append_right (Nat.le_add_right _ _), Nat.add_sub_cancel_left, hlength,
      List.getElem?_append_right (Nat.le_add_right _ _), Nat.add_sub_cancel_left]
    exact hdiffer
  rcases hnames _ hsplit with ⟨token, htoken, hat⟩
  rw [List.take_length_add_append, Text.width_append, ← Nat.add_assoc] at hat
  exact ⟨token, htoken, hat⟩

theorem others {token : Token} (hnames : DifferInNames start (token :: tokens) text text')
    (hpassed : forall offset, start ≤ offset -> ¬ token.NamesAt offset) :
    DifferInNames start tokens text text' := by
  intro i hdiffer
  rcases hnames i hdiffer with ⟨other, hother, hat⟩
  cases hother with
  | head => exact absurd hat (hpassed _ (Nat.le_add_right _ _))
  | tail _ hlater => exact ⟨other, hlater, hat⟩

theorem width_take_lt {i : Nat} {text : List Char} (hi : i < text.length) :
    Text.width (text.take i) < Text.width text := by
  have hsplit : Text.width text = Text.width (text.take i) + Text.width (text.drop i) := by
    rw [← Text.width_append, List.take_append_drop]
  have hpositive : 0 < Text.width (text.drop i) := by
    rw [List.drop_eq_getElem_cons hi, Text.width]
    exact Nat.add_pos_left (Text.unitWidth_pos _) _
  omega

theorem same (hnames : DifferInNames start tokens (front ++ text) (front' ++ text'))
    (hlength : front.length = front'.length)
    (hnone : forall token, token ∈ tokens -> forall offset, offset < start + Text.width front ->
      ¬ token.NamesAt offset) : front = front' := by
  apply List.ext_getElem? _
  intro i
  by_cases hi : i < front.length
  · refine Decidable.byContradiction fun hdiffer => ?_
    have hi' : i < front'.length := by
      rw [← hlength]
      exact hi
    have hsplit : (front ++ text)[i]? ≠ (front' ++ text')[i]? := by
      rw [List.getElem?_append_left hi, List.getElem?_append_left hi']
      exact hdiffer
    rcases hnames i hsplit with ⟨token, htoken, hat⟩
    rw [List.take_append_of_le_length (Nat.le_of_lt hi)] at hat
    exact hnone token htoken _ (Nat.add_lt_add_left (width_take_lt hi) start) hat
  · rw [List.getElem?_eq_none (Nat.not_lt.mp hi),
      List.getElem?_eq_none (hlength ▸ Nat.not_lt.mp hi)]

end DifferInNames

theorem Denotes.unique {quote : Char} {raw value value' : List Char}
    (hdenotes : Denotes quote raw value) (hdenotes' : Denotes quote raw value') :
    value = value' := by
  induction hdenotes generalizing value' with
  | done =>
      cases hdenotes'
      rfl
  | escaped _ ih =>
      cases hdenotes' with
      | escaped hrest => rw [ih hrest]
      | plain hescape => exact absurd rfl hescape
  | plain hescape _ _ ih =>
      cases hdenotes' with
      | escaped => exact absurd rfl hescape
      | plain _ _ hrest => rw [ih hrest]

theorem Spells.unique {lexeme lexeme' : Lexeme} {text : List Char} (hspells : Spells lexeme text)
    (hspells' : Spells lexeme' text) (hform : lexeme.SameForm lexeme') : lexeme = lexeme' := by
  cases hform with
  | name _ =>
      generalize hword : Lexeme.name _ = lexeme at hspells
      generalize hword' : Lexeme.name _ = lexeme' at hspells'
      cases hspells with
      | name =>
          cases hspells' with
          | name => rfl
          | _ => cases hword'
      | _ => cases hword
  | string value value' =>
      cases hspells with
      | string _ hdenotes =>
          generalize htext : _ :: (_ ++ [_]) = text at hspells'
          cases hspells' with
          | string _ hdenotes' =>
              rcases List.cons.inj htext with ⟨rfl, hraw⟩
              rw [List.append_cancel_right hraw] at hdenotes
              rw [hdenotes.unique hdenotes']
  | number literal literal' =>
      cases hspells
      cases hspells'
      rfl
  | arrow => rfl
  | mark m => rfl

theorem Spells.text_of_name {word : String} {text : List Char}
    (hspells : Spells (.name word) text) : text = word.toList := by
  cases hspells
  exact String.toList_ofList.symm

/-- Texts that are split alike and differ in names only have the same tokens up to the case of
names, by induction on how they are written. -/
theorem WrittenAlike.recased {start : Nat} {text text' : List Char} {tokens tokens' : List Token}
    (halike : WrittenAlike start text text' tokens tokens')
    (hnames : DifferInNames start tokens text text') :
    List.Forall₂ Token.Recased tokens tokens' := by
  induction halike with
  | done => exact .nil
  | @blank start c rest rest' tokens tokens' _ ih =>
      have hwhole : DifferInNames start tokens ([c] ++ rest) ([c] ++ rest') := hnames
      exact ih (hwhole.behind rfl)
  | @token start lexeme lexeme' text text' rest rest' tokens tokens' hspells hspells' hsame hform
      hrest ih =>
      have hpassed : forall offset, start + Text.width text ≤ offset ->
          ¬ Token.NamesAt ⟨lexeme, start⟩ offset := by
        intro offset hoffset hat
        cases lexeme with
        | name word =>
            rw [hspells.text_of_name] at hoffset
            exact absurd hat.2 (Nat.not_lt.mpr hoffset)
        | _ => exact hat
      have hothers := ih ((hnames.behind hsame.length_eq).others hpassed)
      refine .cons ⟨rfl, ?_⟩ hothers
      have hplain : (forall word, lexeme ≠ .name word) -> lexeme.Recased lexeme' := by
        intro hnoName
        have htext : text = text' := by
          apply hnames.same hsame.length_eq
          intro token htoken offset hoffset hat
          cases htoken with
          | head =>
              cases lexeme with
              | name word => exact hnoName word rfl
              | _ => exact hat
          | tail _ hlater =>
              have hlow := Nat.le_trans (hrest.start_le token hlater) hat.position_le
              exact absurd hoffset (Nat.not_lt.mpr hlow)
        rw [← htext] at hspells'
        rw [← hspells.unique hspells' hform]
        exact .same lexeme
      cases hform with
      | name hletters => exact .name hletters
      | string => exact hplain nofun
      | number => exact hplain nofun
      | arrow => exact .same _
      | mark m => exact .same _

end Query

end OperatorConsole
