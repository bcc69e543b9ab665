import OperatorConsole.Proofs.Number.Decimal
import OperatorConsole.Proofs.Number.Whole

/-!
# Numbers that values write

A value is a number or it is a text that writes one: between blanks, with a sign or without, in
decimal notation.  What such a text writes is the number nearest to its decimal, and a decimal that
is a whole number is that number.
-/

namespace OperatorConsole

namespace Decimal

/-! ## Whole numbers -/

/-- The decimal is a natural: both are brought over the same power of ten. -/
structure IsNatural (d : Decimal) (n : Nat) : Prop where
  plain : d.negative = false
  same : d.digits * 10 ^ d.exponent.toNat = n * 10 ^ (-d.exponent).toNat

theorem IsNatural.toNumber_eq {d : Decimal} {n : Nat} (hnatural : d.IsNatural n) :
    d.toNumber = toNumber ⟨false, n, 0⟩ := by
  rcases d with ⟨negative, digits, exponent⟩
  rcases hnatural with ⟨hplain, hsame⟩
  dsimp only at hplain hsame
  subst hplain
  have hzero : forall e, toNumber ⟨false, 0, e⟩ = .zero false := by
    intro e
    unfold toNumber
    exact if_pos rfl
  rcases Nat.eq_zero_or_pos digits with rfl | hdigits
  · have hn : n = 0 := by
      rw [Nat.zero_mul] at hsame
      exact (Nat.mul_eq_zero.mp hsame.symm).resolve_right (Nat.ne_of_gt (Nat.pow_pos (by decide)))
    rw [hn, hzero, hzero]
  · rcases Int.le_total 0 exponent with hup | hdown
    · have hnone : (-exponent).toNat = 0 := by omega
      rw [hnone, Nat.pow_zero, Nat.mul_one] at hsame
      have hscale := toNumber_scale false hdigits exponent exponent.toNat
      rw [hsame, Int.toNat_of_nonneg hup, Int.sub_self] at hscale
      exact hscale.symm
    · have hnone : exponent.toNat = 0 := by omega
      rw [hnone, Nat.pow_zero, Nat.mul_one] at hsame
      have hn : 0 < n := Nat.pos_of_mul_pos_right (hsame ▸ hdigits)
      have hscale := toNumber_scale false hn 0 (-exponent).toNat
      rw [← hsame, Int.toNat_of_nonneg (by omega), Int.zero_sub, Int.neg_neg] at hscale
      exact hscale

theorem IsNatural.toNumber_of_finite {d : Decimal} {n : Nat} (hnatural : d.IsNatural n)
    (hfinite : d.toNumber.isFinite = true) : d.toNumber = Number.ofNat n := by
  rw [hnatural.toNumber_eq] at hfinite ⊢
  rcases Nat.eq_zero_or_pos n with rfl | hn
  · exact (@Number.ofNat_of_units ⟨0, by decide⟩ 0 (Nat.zero_mul _).symm).symm
  · unfold toNumber at hfinite ⊢
    dsimp only at hfinite ⊢
    rw [if_neg (Nat.ne_of_gt hn)] at hfinite ⊢
    split
    case isTrue hnear => omega
    case isFalse hnear =>
      rw [if_neg hnear] at hfinite
      split
      case isTrue hfar =>
          rw [if_pos hfar] at hfinite
          cases hfinite
      case isFalse => exact congrArg (Number.round false · 1) (Nat.mul_one _)

end Decimal

/-! ## Values -/

def Text.WritesDecimal (s : String) (d : Decimal) : Prop :=
  exists front body back : List Char, s.toList = front ++ (body ++ back) ∧
    (forall c, c ∈ front -> isBlank c = true) ∧ (forall c, c ∈ back -> isBlank c = true) ∧
    Decimal.Spells body d

theorem Text.writesDecimal_iff {s : String} {d : Decimal} :
    WritesDecimal s d ↔ Decimal.ofText? (trim s.toList) = some d := by
  rw [Decimal.ofText?_eq_some_iff]
  constructor
  · rintro ⟨front, body, back, hs, hfront, hback, hbody⟩
    rw [hs, trim_between hfront hbody.not_blank hbody.ne_nil hback]
    exact hbody
  · intro hbody
    rcases trim_spells s.toList with ⟨front, back, hs, hfront, hback⟩
    exact ⟨front, _, back, hs, hfront, hback, hbody⟩

namespace Value

inductive Writes : Value -> Number -> Prop where
  | number {x : Number} (hfinite : x.isFinite = true) : Writes (.number x) x
  | text {s : String} {d : Decimal} (hwrites : Text.WritesDecimal s d)
      (hfinite : d.toNumber.isFinite = true) : Writes (.text s) d.toNumber

theorem numeric?_eq_some_iff {v : Value} {x : Number} : v.numeric? = some x ↔ v.Writes x := by
  constructor
  · intro hv
    cases v with
    | number y =>
        unfold numeric? at hv
        dsimp only at hv
        split at hv
        case isTrue hfinite =>
            cases hv
            exact .number hfinite
        case isFalse => cases hv
    | text s =>
        unfold numeric? Number.isNumericText Number.ofText at hv
        dsimp only at hv
        cases hread : Decimal.ofText? (Text.trim s.toList) with
        | none => simp [hread] at hv
        | some d =>
            rw [hread] at hv
            dsimp only at hv
            split at hv
            case isTrue hfinite =>
                rw [Number.readChars_of_ofText? hread] at hv
                cases hv
                exact .text (Text.writesDecimal_iff.mpr hread) hfinite
            case isFalse => cases hv
    | _ => cases hv
  · intro hwrites
    cases hwrites with
    | number hfinite => exact if_pos hfinite
    | @text s d htext hfinite =>
        have hread := Text.writesDecimal_iff.mp htext
        have hnumeric : Number.isNumericText s = true := by
          unfold Number.isNumericText
          rw [hread]
          exact hfinite
        refine (if_pos hnumeric).trans (congrArg some ?_)
        exact Number.readChars_of_ofText? hread

end Value

end OperatorConsole
