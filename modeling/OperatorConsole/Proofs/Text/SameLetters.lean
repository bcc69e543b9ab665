import Mathlib.Data.List.Forall2
import OperatorConsole.Proofs.Text.Letters

/-!
# Texts up to letter case

Two texts have the same letters if they are the same character by character, up to the case of
ASCII letters.  Whatever treats all letters alike cannot tell such texts apart.
-/

namespace OperatorConsole

namespace Text

/-! ## Characters -/

def SameLetter (c d : Char) : Prop :=
  c.toLower = d.toLower

theorem isAlpha_nameStart {c : Char} (hc : c.isAlpha = true) : Query.isNameStart c = true := by
  unfold Query.isNameStart
  rw [hc, Bool.true_or]

theorem isAlpha_ascii {c : Char} (hc : c.isAlpha = true) : c.toNat < 128 :=
  Query.isNameStart_ascii (isAlpha_nameStart hc)

theorem toLower_plain {c : Char} (hc : c.isAlpha = false) : c.toLower = c := by
  have hupper : c.isUpper = false := (Bool.or_eq_false_iff.mp hc).1
  unfold Char.toLower
  rw [dif_neg]
  intro hcapital
  rw [← Bool.not_eq_true] at hupper
  exact hupper (decide_eq_true hcapital)

theorem isAlpha_toLower {c : Char} (hc : c.isAlpha = true) : c.toLower.isAlpha = true :=
  forall_ascii (p := fun c => c.isAlpha = true -> c.toLower.isAlpha = true) (by decide +kernel)
    (isAlpha_ascii hc) hc

namespace SameLetter

variable {c d : Char}

theorem refl (c : Char) : SameLetter c c := rfl

theorem symm (hsame : SameLetter c d) : SameLetter d c := Eq.symm hsame

theorem cases (hsame : SameLetter c d) : c = d ∨ c.isAlpha = true ∧ d.isAlpha = true := by
  unfold SameLetter at hsame
  cases hc : c.isAlpha with
  | true =>
      cases hd : d.isAlpha with
      | true => exact Or.inr ⟨rfl, rfl⟩
      | false =>
          have hletter := isAlpha_toLower hc
          rw [hsame, toLower_plain hd, hd] at hletter
          cases hletter
  | false =>
      cases hd : d.isAlpha with
      | true =>
          have hletter := isAlpha_toLower hd
          rw [← hsame, toLower_plain hc, hc] at hletter
          cases hletter
      | false =>
          rw [toLower_plain hc, toLower_plain hd] at hsame
          exact Or.inl hsame

theorem congr {f : Char -> β} {b : β} (hletters : forall c, c.isAlpha = true -> f c = b)
    (hsame : SameLetter c d) : f c = f d := by
  rcases hsame.cases with heq | ⟨hc, hd⟩
  · rw [heq]
  · rw [hletters c hc, hletters d hd]

theorem isBlank (hsame : SameLetter c d) : Text.isBlank c = Text.isBlank d :=
  hsame.congr fun _ hc => Query.isBlank_nameStart (isAlpha_nameStart hc)

theorem isDigit (hsame : SameLetter c d) : c.isDigit = d.isDigit := by
  apply hsame.congr (b := false)
  intro e he
  rw [Bool.eq_false_iff]
  intro hdigit
  have hstart := isAlpha_nameStart he
  rw [Query.isNameStart_digit hdigit] at hstart
  cases hstart

theorem isWordChar (hsame : SameLetter c d) : Text.isWordChar c = Text.isWordChar d :=
  hsame.congr fun _ hc => Query.isWordChar_nameStart (isAlpha_nameStart hc)

theorem isNameStart (hsame : SameLetter c d) : Query.isNameStart c = Query.isNameStart d :=
  hsame.congr fun _ hc => isAlpha_nameStart hc

theorem unitWidth (hsame : SameLetter c d) : Text.unitWidth c = Text.unitWidth d := by
  apply hsame.congr (b := 1)
  intro e he
  have hbasic : e.toNat < 0x10000 := Nat.lt_trans (isAlpha_ascii he) (by decide)
  unfold Text.unitWidth
  rw [decide_eq_true hbasic, Bool.true_or, if_pos rfl]

theorem lowerChar (hsame : SameLetter c d) : Text.lowerChar c = Text.lowerChar d := by
  have hletter : forall {e : Char}, e.isAlpha = true -> Text.lowerChar e = e.toLower := by
    intro e he
    apply if_neg
    intro hkelvin
    have hascii := isAlpha_ascii he
    rw [hkelvin] at hascii
    exact absurd hascii (by decide)
  rcases hsame.cases with heq | ⟨hc, hd⟩
  · rw [heq]
  · rw [hletter hc, hletter hd, hsame]

theorem toUpper (hsame : SameLetter c d) : c.toUpper = d.toUpper := by
  have hletter : forall {e : Char}, e.isAlpha = true -> e.toLower.toUpper = e.toUpper := by
    intro e he
    exact forall_ascii (p := fun e => e.toLower.toUpper = e.toUpper) (by decide +kernel)
      (isAlpha_ascii he)
  rcases hsame.cases with heq | ⟨hc, hd⟩
  · rw [heq]
  · rw [← hletter hc, ← hletter hd, hsame]

theorem eq_of_plain (hsame : SameLetter c d) (hc : c.isAlpha = false) : d = c := by
  rcases hsame.cases with heq | ⟨hletter, _⟩
  · exact heq.symm
  · rw [hc] at hletter
    cases hletter

theorem eq_of_blank (hsame : SameLetter c d) (hc : Text.isBlank c = true) : d = c := by
  apply hsame.eq_of_plain
  rw [Bool.eq_false_iff]
  intro hletter
  rw [Query.isBlank_nameStart (isAlpha_nameStart hletter)] at hc
  cases hc

theorem ne_of_plain {e : Char} (hsame : SameLetter c d) (he : e.isAlpha = false) (hc : c ≠ e) :
    d ≠ e := by
  intro hd
  rw [hd] at hsame
  exact hc (hsame.symm.eq_of_plain he)

end SameLetter

/-! ## Texts -/

def SameLetters (text text' : List Char) : Prop :=
  List.Forall₂ SameLetter text text'

namespace SameLetters

variable {text text' : List Char}

theorem symm (hsame : SameLetters text text') : SameLetters text' text := by
  induction hsame with
  | nil => exact .nil
  | cons hc _ ih => exact .cons hc.symm ih

theorem isEmpty (hsame : SameLetters text text') : text.isEmpty = text'.isEmpty := by
  cases hsame with
  | nil => rfl
  | cons _ _ => rfl

theorem width (hsame : SameLetters text text') : Text.width text = Text.width text' := by
  induction hsame with
  | nil => rfl
  | cons hc _ ih => rw [Text.width, Text.width, hc.unitWidth, ih]

theorem lower (hsame : SameLetters text text') : Text.lower text = Text.lower text' := by
  induction hsame with
  | nil => rfl
  | cons hc _ ih =>
      unfold Text.lower at ih ⊢
      rw [List.map_cons, List.map_cons, hc.lowerChar, ih]

theorem front {front front' rest rest' : List Char}
    (hsame : SameLetters (front ++ rest) (front' ++ rest')) (hrest : SameLetters rest rest') :
    SameLetters front front' := by
  have hlength : front.length = front'.length := by
    have hwhole := hsame.length_eq
    rw [List.length_append, List.length_append, hrest.length_eq] at hwhole
    exact Nat.add_right_cancel hwhole
  have htaken := List.forall₂_take front.length hsame
  rw [List.take_left, hlength, List.take_left] at htaken
  exact htaken

section While

variable {p : Char -> Bool} (hp : forall {c d : Char}, SameLetter c d -> p c = p d)
include hp

theorem takeWhile (hsame : SameLetters text text') :
    SameLetters (text.takeWhile p) (text'.takeWhile p) := by
  induction hsame with
  | nil => exact .nil
  | @cons c d rest rest' hc _ ih =>
      rw [List.takeWhile_cons, List.takeWhile_cons, ← hp hc]
      cases p c with
      | true => exact .cons hc ih
      | false => exact .nil

theorem dropWhile (hsame : SameLetters text text') :
    SameLetters (text.dropWhile p) (text'.dropWhile p) := by
  induction hsame with
  | nil => exact .nil
  | @cons c d rest rest' hc hrest ih =>
      rw [List.dropWhile_cons, List.dropWhile_cons, ← hp hc]
      cases p c with
      | true => exact ih
      | false => exact .cons hc hrest

end While

theorem trimLeft (hsame : SameLetters text text') :
    SameLetters (Text.trimLeft text) (Text.trimLeft text') :=
  hsame.dropWhile SameLetter.isBlank

theorem iff_toLower : SameLetters text text' ↔ text.map Char.toLower = text'.map Char.toLower := by
  constructor
  · intro hsame
    induction hsame with
    | nil => rfl
    | cons hc _ ih => rw [List.map_cons, List.map_cons, hc, ih]
  · intro hlower
    induction text generalizing text' with
    | nil =>
        rw [List.map_eq_nil_iff.mp hlower.symm]
        exact .nil
    | cons c rest ih =>
        cases text' with
        | nil => cases hlower
        | cons d rest' =>
            rcases List.cons.inj hlower with ⟨hc, hrest⟩
            exact .cons hc (ih hrest)

end SameLetters

end Text

end OperatorConsole
