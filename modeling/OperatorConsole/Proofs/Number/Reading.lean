import Mathlib.Data.Nat.Digits.Defs
import Mathlib.Data.Rat.Defs
import OperatorConsole.Proofs.Number.Decimal
import OperatorConsole.Proofs.Number.Whole

/-!
# Texts that are read as numbers

A text without surrounding blanks writes a value in decimal notation, or it writes a natural in
another base behind a mark.  What is read is the number nearest to that value.  The empty text
writes no value and is read as zero all the same.
-/

namespace OperatorConsole

namespace Decimal

def value (d : Decimal) : Rat :=
  (signed d.negative d.digits : Rat) * 10 ^ d.exponent

theorem spells_toDigits (negative : Bool) (n : Nat) :
    Spells (minus negative ++ Nat.toDigits 10 n) ⟨negative, n, 0⟩ := by
  have hdigits := @SpellsUnsigned.number true (Nat.toDigits 10 n) _ _ _ _ (isDigit_toDigits n) .none
    .none (Or.inl Nat.toDigits_ne_nil)
  have hspells := Spells.signed (minus_spells negative) hdigits
  simpa [naturalOf_toDigits] using hspells

end Decimal

namespace Number

/-! ## Values that texts write -/

def baseMarks : List (Char × Nat) :=
  [('x', 16), ('X', 16), ('o', 8), ('O', 8), ('b', 2), ('B', 2)]

/-- Digits of a base, at least one, and the natural that they write. -/
def SpellsIn (base : Nat) (digits : List Char) (n : Nat) : Prop :=
  digits ≠ [] ∧ exists values,
    List.Forall₂ (fun c v => hexValue? c = some v ∧ v < base) digits values ∧
      Nat.ofDigits base values.reverse = n

inductive Writes : List Char -> Rat -> Prop where
  | decimal {text : List Char} {d : Decimal} (hspells : Decimal.Spells text d) :
      Writes text d.value
  | based {mark : Char} {base n : Nat} {digits : List Char} (hmark : (mark, base) ∈ baseMarks)
      (hdigits : SpellsIn base digits n) : Writes ('0' :: mark :: digits) n

/-- A text and the finite number that it is read as. -/
inductive IsRead : List Char -> Number -> Prop where
  | blank : IsRead [] 0
  | decimal {text : List Char} {d : Decimal} (hspells : Decimal.Spells text d) :
      IsRead text d.toNumber
  | based {mark : Char} {base n : Nat} {digits : List Char} (hmark : (mark, base) ∈ baseMarks)
      (hdigits : SpellsIn base digits n) : IsRead ('0' :: mark :: digits) (.ofNat n)

/-- Only the empty text is read without writing a value. -/
theorem IsRead.writes {text : List Char} {x : Number} (hread : IsRead text x) :
    (text = [] ∧ x = 0) ∨ exists q, Writes text q := by
  cases hread with
  | blank => exact Or.inl ⟨rfl, rfl⟩
  | decimal hspells => exact Or.inr ⟨_, .decimal hspells⟩
  | based hmark hdigits => exact Or.inr ⟨_, .based hmark hdigits⟩

/-! ## Digits of other bases -/

theorem foldl_digits (base : Nat) (values : List Nat) :
    values.foldl (fun n v => base * n + v) 0 = Nat.ofDigits base values.reverse := by
  rw [Nat.ofDigits_eq_foldr, List.foldr_reverse]
  exact congrArg (fun step => values.foldl step 0) (funext₂ fun n v => Nat.add_comm (base * n) v)

def withDigit? (base n : Nat) (c : Char) : Option Nat :=
  match hexValue? c with
  | some v => if v < base then some (base * n + v) else none
  | none => none

theorem withDigit?_eq_some_iff {base n m : Nat} {c : Char} :
    withDigit? base n c = some m ↔
      exists v, (hexValue? c = some v ∧ v < base) ∧ base * n + v = m := by
  unfold withDigit?
  cases hexValue? c with
  | none => simp
  | some v => simp

theorem foldlM_withDigit? {base start n : Nat} {digits : List Char} :
    digits.foldlM (withDigit? base) start = some n ↔
      exists values, List.Forall₂ (fun c v => hexValue? c = some v ∧ v < base) digits values ∧
        values.foldl (fun n v => base * n + v) start = n := by
  induction digits generalizing start with
  | nil => simp
  | cons c rest ih =>
      rw [List.foldlM_cons, Option.bind_eq_bind, Option.bind_eq_some_iff]
      constructor
      · rintro ⟨next, hnext, hrest⟩
        rcases withDigit?_eq_some_iff.mp hnext with ⟨v, hv, rfl⟩
        rcases ih.mp hrest with ⟨values, hvalues, hn⟩
        exact ⟨v :: values, .cons hv hvalues, hn⟩
      · rintro ⟨_, hall, hn⟩
        rcases List.forall₂_cons_left_iff.mp hall with ⟨v, values, hv, hvalues, rfl⟩
        exact ⟨base * start + v, withDigit?_eq_some_iff.mpr ⟨v, hv, rfl⟩,
          ih.mpr ⟨values, hvalues, hn⟩⟩

theorem readBase?_eq_some_iff {base n : Nat} {digits : List Char} :
    readBase? base digits = some n ↔ SpellsIn base digits n := by
  have hread : readBase? base digits =
      if digits.isEmpty then none else digits.foldlM (withDigit? base) 0 := rfl
  rw [hread, Option.ite_none_left_eq_some, foldlM_withDigit?, List.isEmpty_iff]
  simp only [foldl_digits]
  exact Iff.rfl

theorem SpellsIn.unique {base n m : Nat} {digits : List Char} (hn : SpellsIn base digits n)
    (hm : SpellsIn base digits m) : n = m :=
  Option.some.inj ((readBase?_eq_some_iff.mpr hn).symm.trans (readBase?_eq_some_iff.mpr hm))

theorem baseMarks_unique {mark : Char} {base other : Nat} (hmark : (mark, base) ∈ baseMarks)
    (hother : (mark, other) ∈ baseMarks) : base = other := by
  simp only [baseMarks, List.mem_cons, List.not_mem_nil, or_false, Prod.mk.injEq] at hmark hother
  grind

theorem not_spells_based {mark : Char} {base : Nat} (hmark : (mark, base) ∈ baseMarks)
    (digits : List Char) (d : Decimal) : ¬Decimal.Spells ('0' :: mark :: digits) d := by
  intro hspells
  have hmem : mark ∈ baseMarks.map Prod.fst := List.mem_map.mpr ⟨(mark, base), hmark, rfl⟩
  rw [← Decimal.ofText?_eq_some_iff, Decimal.ofText?_base hmem] at hspells
  cases hspells

theorem Writes.unique {text : List Char} {q r : Rat} (hq : Writes text q) (hr : Writes text r) :
    q = r := by
  cases hq with
  | decimal hspells =>
      cases hr with
      | decimal hspells' =>
          rw [← Decimal.ofText?_eq_some_iff] at hspells hspells'
          rw [Option.some.inj (hspells.symm.trans hspells')]
      | based hmark _ => exact absurd hspells (not_spells_based hmark _ _)
  | based hmark hdigits =>
      cases hr with
      | decimal hspells => exact absurd hspells (not_spells_based hmark _ _)
      | based hmark' hdigits' =>
          cases baseMarks_unique hmark hmark'
          rw [hdigits.unique hdigits']

theorem not_writes_nil (q : Rat) : ¬Writes [] q := by
  intro hwrites
  generalize htext : [] = text at hwrites
  cases hwrites with
  | decimal hspells => exact hspells.ne_nil htext.symm
  | based => cases htext

/-! ## Reading -/

theorem readChars_based {mark : Char} {base : Nat} (hmark : (mark, base) ∈ baseMarks)
    (digits : List Char) : readChars ('0' :: mark :: digits) = readChars.ofBase base digits := by
  simp only [baseMarks, List.mem_cons, List.not_mem_nil, or_false, Prod.mk.injEq] at hmark
  rcases hmark with ⟨rfl, rfl⟩ | ⟨rfl, rfl⟩ | ⟨rfl, rfl⟩ | ⟨rfl, rfl⟩ | ⟨rfl, rfl⟩ | ⟨rfl, rfl⟩
  all_goals rfl

theorem isRead_of_ofBase {mark : Char} {base : Nat} {digits : List Char} {x : Number}
    (hmark : (mark, base) ∈ baseMarks) (hread : readChars.ofBase base digits = x)
    (hfinite : x.isFinite = true) : IsRead ('0' :: mark :: digits) x := by
  unfold readChars.ofBase at hread
  split at hread
  case h_1 n hn =>
    subst hread
    exact .based hmark (readBase?_eq_some_iff.mp hn)
  case h_2 =>
    subst hread
    cases hfinite

theorem readChars_eq_iff {text : List Char} {x : Number} (hfinite : x.isFinite = true) :
    readChars text = x ↔ IsRead text x := by
  constructor
  · intro hread
    unfold readChars at hread
    split at hread
    case h_1 =>
      subst hread
      exact .blank
    case h_2 => exact isRead_of_ofBase (by decide) hread hfinite
    case h_3 => exact isRead_of_ofBase (by decide) hread hfinite
    case h_4 => exact isRead_of_ofBase (by decide) hread hfinite
    case h_5 => exact isRead_of_ofBase (by decide) hread hfinite
    case h_6 => exact isRead_of_ofBase (by decide) hread hfinite
    case h_7 => exact isRead_of_ofBase (by decide) hread hfinite
    case h_8 =>
      -- The names of the infinities are not read as finite numbers.
      split at hread
      case isTrue =>
        subst hread
        cases hfinite
      case isFalse =>
        split at hread
        case isTrue =>
          subst hread
          cases hfinite
        case isFalse =>
          split at hread
          case h_1 d hd =>
            subst hread
            exact .decimal (Decimal.ofText?_eq_some_iff.mp hd)
          case h_2 =>
            subst hread
            cases hfinite
  · intro hread
    cases hread with
    | blank => rfl
    | decimal hspells => exact readChars_of_ofText? (Decimal.ofText?_eq_some_iff.mpr hspells)
    | based hmark hdigits =>
        rw [readChars_based hmark, readChars.ofBase, readBase?_eq_some_iff.mpr hdigits]

/-! ## Decimal text -/

/-- A text that writes a number in decimal: all the digits of a whole number, the fewest digits that
tell it, and whatever else is notation for it. -/
inductive IsDecimalText : Number -> List Char -> Prop where
  | digits {x : Number} {n : Int} (hwhole : x.toInt? = some n) :
      IsDecimalText x (Decimal.minus (decide (n < 0)) ++ Nat.toDigits 10 n.natAbs)
  | shortest {x : Number} : IsDecimalText x x.toChars
  | spelled {text : List Char} {d : Decimal} (hspells : Decimal.Spells text d) :
      IsDecimalText d.toNumber text

theorem toNumber_of_units {rank : Fin ranks} {n : Nat} (hunits : unitsOf rank = n * one)
    (hpos : 0 < n) (negative : Bool) :
    (Decimal.mk negative n 0).toNumber = finite negative rank := by
  have hbound : n < 2 ^ 1024 := by
    obtain ⟨k, hk⟩ : exists k, k = 1074 := ⟨1074, rfl⟩
    have hrank : rank.val < (k + 972 + 1) * 2 ^ 52 := by
      rw [hk]
      exact rank.isLt
    have hless : n * 2 ^ k < 2 ^ 1024 * 2 ^ k :=
      calc n * 2 ^ k = unitsOf rank := by rw [hunits, one_eq_pow hk]
        _ < 2 ^ 52 * 2 ^ (k + 972) := unitsOf_lt hrank
        _ = 2 ^ 1024 * 2 ^ k := by rw [← Nat.pow_add, ← Nat.pow_add]; congr 1; omega
    exact Nat.lt_of_mul_lt_mul_right hless
  have hwidth : Decimal.width n ≤ 400 :=
    (Nat.length_toDigits_le_iff (by decide) (by decide)).mpr
      (Nat.lt_of_lt_of_le hbound (by decide +kernel))
  have hround : round negative (n * one * Nat.pow 10 0) (Nat.pow 10 0) = finite negative rank := by
    rw [← hunits]
    refine (round_unitsOf negative rank Nat.one_pos).trans ?_
    exact dif_pos rank.isLt
  unfold Decimal.toNumber
  dsimp only
  rw [if_neg (Nat.ne_of_gt hpos), if_neg (by omega), if_neg (by omega)]
  exact hround

theorem toNumber_of_toInt? {x : Number} {n : Int} (hn : x.toInt? = some n) (hx : x ≠ .zero true) :
    (Decimal.mk (decide (n < 0)) n.natAbs 0).toNumber = x := by
  cases x with
  | finite negative rank =>
      rcases units_of_isInteger (Option.isSome_iff_exists.mpr ⟨n, hn⟩) with ⟨m, hm⟩
      have hunits : unitsOf rank = m * one := hm.trans (Nat.mul_comm one m)
      rcases toInt?_of_units rank hunits with ⟨hplain, hnegated⟩
      have hsigned : n = Decimal.signed negative m := by
        cases negative with
        | false => exact Option.some.inj (hn.symm.trans hplain)
        | true => exact Option.some.inj (hn.symm.trans hnegated)
      rcases Nat.eq_zero_or_pos m with rfl | hpos
      · rw [eq_zero_of_units (hunits.trans (Nat.zero_mul one))] at hx ⊢
        cases negative with
        | false =>
            rw [hsigned]
            rfl
        | true => exact absurd rfl hx
      · have hnegative : decide (n < 0) = negative := by
          cases negative with
          | false => simp [hsigned, Decimal.signed]
          | true => simpa [hsigned, Decimal.signed] using hpos
        have hmagnitude : n.natAbs = m := by
          cases negative with
          | false => simp [hsigned, Decimal.signed]
          | true => simp [hsigned, Decimal.signed]
        rw [hnegative, hmagnitude]
        exact toNumber_of_units hunits hpos negative
  | _ => cases hn

theorem IsDecimalText.spells {x : Number} {text : List Char} (htext : x.IsDecimalText text)
    (hfinite : x.isFinite = true) (hx : x ≠ .zero true) :
    exists d, Decimal.Spells text d ∧ d.toNumber = x := by
  cases htext with
  | digits hwhole => exact ⟨_, Decimal.spells_toDigits _ _, toNumber_of_toInt? hwhole hx⟩
  | spelled hspells => exact ⟨_, hspells, rfl⟩
  | shortest =>
      cases x with
      | finite negative rank =>
          rcases toChars_spells negative rank with ⟨d, hspells, hvalue⟩
          exact ⟨d, hspells.spells, hvalue.trans (unsigned_zero hx)⟩
      | _ => cases hfinite

end Number

end OperatorConsole
