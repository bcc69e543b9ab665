import OperatorConsole.Proofs.Text.Letters
import OperatorConsole.Query.Denied

/-!
# Matches of denied patterns

A match is a stretch of a text that the pieces of a pattern take up between them.  `Fits` says
which stretches these are, with no order in which they are tried; the pattern occurs in a text
if it has a match there.  Of the text around a match, only the two characters next to it count,
and of these only whether they belong to a word.
-/

namespace OperatorConsole

namespace Query

namespace DeniedPattern

/-! ## Matches -/

/-- Whether pieces take up the text `taken` where it stands behind the character `before` and in
front of the text `after`. -/
inductive Fits (ignoreCase : Bool) :
    List Piece -> Option Char -> List Char -> List Char -> Prop where
  | done {before : Option Char} {after : List Char} : Fits ignoreCase [] before [] after
  | char {c d : Char} {pieces : List Piece} {before : Option Char} {taken after : List Char}
      (hsame : sameChar ignoreCase c d = true) (hrest : Fits ignoreCase pieces (some d) taken after) :
      Fits ignoreCase (.char c :: pieces) before (d :: taken) after
  | blanks {pieces : List Piece} {before : Option Char} {gap taken after : List Char}
      (hgap : forall b, b ∈ gap -> Text.isBlank b = true)
      (hrest : Fits ignoreCase pieces (gap.getLast?.or before) taken after) :
      Fits ignoreCase (.blanks :: pieces) before (gap ++ taken) after
  | wordBoundary {pieces : List Piece} {before : Option Char} {taken after : List Char}
      (hedge : isWordAt before ≠ isWordAt (taken ++ after).head?)
      (hrest : Fits ignoreCase pieces before taken after) :
      Fits ignoreCase (.wordBoundary :: pieces) before taken after

/-- Whether a pattern matches the middle one of three parts of a text. -/
def Matches (p : DeniedPattern) (left taken right : List Char) : Prop :=
  Fits p.ignoreCase p.pieces left.getLast? taken right

theorem fits_of_matchesHere {ignoreCase : Bool} {pieces : List Piece} {before : Option Char}
    {text : List Char} (hmatches : matchesHere ignoreCase pieces before text = true) :
    exists taken after, text = taken ++ after ∧ Fits ignoreCase pieces before taken after := by
  induction pieces generalizing before text with
  | nil => exact ⟨[], text, rfl, .done⟩
  | cons piece pieces ih =>
      cases piece with
      | char c =>
          cases text with
          | nil => cases hmatches
          | cons d text =>
              rcases Bool.and_eq_true_iff.mp hmatches with ⟨hsame, hrest⟩
              rcases ih hrest with ⟨taken, after, rfl, hfits⟩
              exact ⟨d :: taken, after, rfl, .char hsame hfits⟩
      | blanks =>
          rcases ih hmatches with ⟨taken, after, htext, hfits⟩
          refine ⟨text.takeWhile Text.isBlank ++ taken, after, ?_, .blanks ?_ hfits⟩
          · rw [List.append_assoc, ← htext, List.takeWhile_append_dropWhile]
          · exact fun b hb => List.all_eq_true.mp List.all_takeWhile b hb
      | wordBoundary =>
          rcases Bool.and_eq_true_iff.mp hmatches with ⟨hedge, hrest⟩
          rcases ih hrest with ⟨taken, after, rfl, hfits⟩
          exact ⟨taken, after, rfl, .wordBoundary (bne_iff_ne.mp hedge) hfits⟩

/-! ## Letter case -/

theorem foldCase_ascii {c : Char} (hc : c.toNat < 128) : foldCase c = c.toUpper :=
  if_pos hc

theorem foldCase_other {c : Char} (hc : ¬ c.toNat < 128) : ¬ (foldCase c).toNat < 128 := by
  unfold foldCase
  rw [if_neg hc]
  split
  · split
    · exact hc
    · assumption
  · exact hc

theorem lowerChar_of_sameChar {ignoreCase : Bool} {c d : Char} (hc : c.toNat < 128)
    (hsame : sameChar ignoreCase c d = true) :
    d.toNat < 128 ∧ Text.lowerChar d = Text.lowerChar c := by
  cases ignoreCase with
  | false =>
      have heq : c = d := beq_iff_eq.mp hsame
      rw [← heq]
      exact ⟨hc, rfl⟩
  | true =>
      have hfold : foldCase c = foldCase d := beq_iff_eq.mp hsame
      rw [foldCase_ascii hc] at hfold
      have hd : d.toNat < 128 := by
        refine Decidable.byContradiction fun hother => foldCase_other hother ?_
        rw [← hfold]
        exact Text.toUpper_ascii hc
      rw [foldCase_ascii hd] at hfold
      refine ⟨hd, ?_⟩
      rw [← Text.lowerChar_toUpper hd, ← hfold, Text.lowerChar_toUpper hc]

/-! ## Occurrences -/

def startsSolid : List Piece -> Bool
  | .char c :: _ => c.toNat < 128 && !Text.isBlank c
  | _ => false

/-- Whether all blanks end at a character, so that taking as many as there are misses no match. -/
def isSettled : List Piece -> Bool
  | [] => true
  | piece :: pieces => (piece != .blanks || startsSolid pieces) && isSettled pieces

theorem takeWhile_solid {ignoreCase : Bool} {pieces : List Piece} {before : Option Char}
    {taken after : List Char} (hfits : Fits ignoreCase pieces before taken after)
    (hsolid : startsSolid pieces = true) :
    (taken ++ after).takeWhile Text.isBlank = [] ∧
      (taken ++ after).dropWhile Text.isBlank = taken ++ after := by
  cases hfits with
  | done => cases hsolid
  | blanks => cases hsolid
  | wordBoundary => cases hsolid
  | @char c d _ _ taken _ hsame _ =>
      rcases Bool.and_eq_true_iff.mp hsolid with ⟨hascii, hblank⟩
      rcases lowerChar_of_sameChar (of_decide_eq_true hascii) hsame with ⟨hd, hlower⟩
      have hsolid : Text.isBlank d = false := by
        rw [← Text.isBlank_lowerChar hd, hlower, Text.isBlank_lowerChar (of_decide_eq_true hascii)]
        simpa using hblank
      rw [List.cons_append]
      exact ⟨List.takeWhile_cons_of_neg (by simp [hsolid]),
        List.dropWhile_cons_of_neg (by simp [hsolid])⟩

theorem matchesHere_of_fits {ignoreCase : Bool} {pieces : List Piece} {before : Option Char}
    {taken after : List Char} (hfits : Fits ignoreCase pieces before taken after)
    (hsettled : isSettled pieces = true) :
    matchesHere ignoreCase pieces before (taken ++ after) = true := by
  induction hfits with
  | done => rfl
  | char hsame _ ih =>
      have hrest := (Bool.and_eq_true_iff.mp hsettled).2
      exact Bool.and_eq_true_iff.mpr ⟨hsame, ih hrest⟩
  | @blanks pieces before gap taken after hgap hfits ih =>
      rcases Bool.and_eq_true_iff.mp hsettled with ⟨hsolid, hrest⟩
      rcases takeWhile_solid hfits hsolid with ⟨htake, hdrop⟩
      rw [matchesHere, List.append_assoc, List.takeWhile_append_of_pos hgap, htake,
        List.dropWhile_append_of_pos hgap, hdrop, List.append_nil]
      exact ih hrest
  | wordBoundary hedge _ ih =>
      have hrest := (Bool.and_eq_true_iff.mp hsettled).2
      exact Bool.and_eq_true_iff.mpr ⟨bne_iff_ne.mpr hedge, ih hrest⟩

theorem matchesHere_iff {ignoreCase : Bool} {pieces : List Piece} {before : Option Char}
    {text : List Char} (hsettled : isSettled pieces = true) :
    matchesHere ignoreCase pieces before text = true ↔
      exists taken after, text = taken ++ after ∧ Fits ignoreCase pieces before taken after := by
  constructor
  · exact fits_of_matchesHere
  · rintro ⟨taken, after, rfl, hfits⟩
    exact matchesHere_of_fits hfits hsettled

theorem getLast?_cons_or (c : Char) (text : List Char) (before : Option Char) :
    (c :: text).getLast?.or before = text.getLast?.or (some c) := by
  rw [List.getLast?_cons]
  cases text.getLast? with
  | none => rfl
  | some d => rfl

theorem occursAfter_iff {p : DeniedPattern} (hsettled : isSettled p.pieces = true)
    {before : Option Char} {text : List Char} :
    p.occursAfter before text = true ↔
      exists left taken right, text = left ++ (taken ++ right) ∧
        Fits p.ignoreCase p.pieces (left.getLast?.or before) taken right := by
  -- A match lies at the head of the text, or in its tail behind one character more.
  induction text generalizing before with
  | nil =>
      rw [occursAfter, Bool.or_false, matchesHere_iff hsettled]
      constructor
      · rintro ⟨taken, right, htext, hfits⟩
        exact ⟨[], taken, right, htext, hfits⟩
      · rintro ⟨left, taken, right, htext, hfits⟩
        rcases List.append_eq_nil_iff.mp htext.symm with ⟨rfl, hempty⟩
        exact ⟨taken, right, hempty.symm, hfits⟩
  | cons c rest ih =>
      rw [occursAfter, Bool.or_eq_true_iff, matchesHere_iff hsettled, ih]
      constructor
      · rintro (⟨taken, right, htext, hfits⟩ | ⟨left, taken, right, rfl, hfits⟩)
        · exact ⟨[], taken, right, htext, hfits⟩
        · refine ⟨c :: left, taken, right, rfl, ?_⟩
          rwa [getLast?_cons_or]
      · rintro ⟨left, taken, right, htext, hfits⟩
        cases left with
        | nil => exact Or.inl ⟨taken, right, htext, hfits⟩
        | cons d left =>
            cases htext
            rw [getLast?_cons_or] at hfits
            exact Or.inr ⟨left, taken, right, rfl, hfits⟩

theorem occursIn_iff {p : DeniedPattern} (hsettled : isSettled p.pieces = true) {text : String} :
    p.occursIn text = true ↔
      exists left taken right, text.toList = left ++ (taken ++ right) ∧
        p.Matches left taken right := by
  unfold occursIn Matches
  rw [occursAfter_iff hsettled]
  simp only [Option.or_none]

/-! ## Surroundings -/

theorem Fits.elsewhere {ignoreCase : Bool} {pieces : List Piece} {before : Option Char}
    {taken after : List Char} (hfits : Fits ignoreCase pieces before taken after)
    {before' : Option Char} {after' : List Char} (hbefore : isWordAt before' = isWordAt before)
    (hafter : isWordAt after'.head? = isWordAt after.head?) :
    Fits ignoreCase pieces before' taken after' := by
  induction hfits generalizing before' with
  | done => exact .done
  | char hsame _ ih => exact .char hsame (ih rfl hafter)
  | @blanks pieces before gap taken after hgap _ ih =>
      refine .blanks hgap (ih ?_ hafter)
      cases gap.getLast? with
      | none => exact hbefore
      | some c => rfl
  | @wordBoundary pieces before taken after hedge _ ih =>
      refine .wordBoundary ?_ (ih hbefore hafter)
      cases taken with
      | nil =>
          rw [List.nil_append] at hedge ⊢
          rwa [hbefore, hafter]
      | cons c taken => rwa [hbefore]

/-- A match stays one if what stands next to it is replaced by text that is just as much part of
a word. -/
theorem Matches.elsewhere {p : DeniedPattern} {left taken right left' right' : List Char}
    (hmatches : p.Matches left taken right)
    (hleft : isWordAt left'.getLast? = isWordAt left.getLast?)
    (hright : isWordAt right'.head? = isWordAt right.head?) : p.Matches left' taken right' :=
  Fits.elsewhere hmatches hleft hright

/-! ## What is taken -/

/-- Whether a piece takes no quote, and no character but one that it names up to letter case. -/
def isPlain : Piece -> Bool
  | .char c => c.toNat < 128 && !isQuote c
  | _ => true

def lead : List Piece -> List Char
  | .wordBoundary :: pieces => lead pieces
  | .char c :: pieces => c :: lead pieces
  | _ => []

theorem Fits.takes_no_quote {ignoreCase : Bool} {pieces : List Piece} {before : Option Char}
    {taken after : List Char} (hfits : Fits ignoreCase pieces before taken after)
    (hplain : pieces.all isPlain = true) : forall d, d ∈ taken -> isQuote d = false := by
  induction hfits with
  | done => exact fun d hd => by cases hd
  | @char c d _ _ taken _ hsame _ ih =>
      rcases Bool.and_eq_true_iff.mp hplain with ⟨hc, hrest⟩
      rcases Bool.and_eq_true_iff.mp hc with ⟨hascii, hquote⟩
      rcases lowerChar_of_sameChar (of_decide_eq_true hascii) hsame with ⟨hd, hlower⟩
      refine List.forall_mem_cons.mpr ⟨?_, ih hrest⟩
      rw [← isQuote_lowerChar hd, hlower, isQuote_lowerChar (of_decide_eq_true hascii)]
      simpa using hquote
  | blanks hgap _ ih =>
      intro d hd
      rcases List.mem_append.mp hd with hblank | hrest
      · refine Bool.eq_false_iff.mpr fun hquote => ?_
        have hboth := hgap d hblank
        rw [isBlank_quote hquote] at hboth
        cases hboth
      · exact ih (Bool.and_eq_true_iff.mp hplain).2 d hrest
  | wordBoundary _ _ ih => exact ih (Bool.and_eq_true_iff.mp hplain).2

theorem Fits.takes_lead {ignoreCase : Bool} {pieces : List Piece} {before : Option Char}
    {taken after : List Char} (hfits : Fits ignoreCase pieces before taken after)
    (hplain : pieces.all isPlain = true) :
    exists word more, taken = word ++ more ∧ (forall d, d ∈ word -> d.toNat < 128) ∧
      Text.lower word = Text.lower (lead pieces) := by
  induction hfits with
  | done => exact ⟨[], [], rfl, List.forall_mem_nil _, rfl⟩
  | @char c d _ _ taken _ hsame _ ih =>
      rcases Bool.and_eq_true_iff.mp hplain with ⟨hc, hrest⟩
      rcases lowerChar_of_sameChar (of_decide_eq_true (Bool.and_eq_true_iff.mp hc).1) hsame with
        ⟨hd, hlower⟩
      rcases ih hrest with ⟨word, more, rfl, hword, hlead⟩
      refine ⟨d :: word, more, rfl, List.forall_mem_cons.mpr ⟨hd, hword⟩, ?_⟩
      change Text.lowerChar d :: Text.lower word = _ :: Text.lower _
      rw [hlower, hlead]
  | @blanks _ _ gap taken => exact ⟨[], gap ++ taken, rfl, List.forall_mem_nil _, rfl⟩
  | wordBoundary _ _ ih => exact ih (Bool.and_eq_true_iff.mp hplain).2

end DeniedPattern

end Query

end OperatorConsole
