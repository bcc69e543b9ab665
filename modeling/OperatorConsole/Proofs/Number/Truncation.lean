import OperatorConsole.Proofs.Number.Monotone

/-!
# Cutting off a fraction

Below `2 ^ 53` every whole number is a number, so that nothing is rounded when a fraction is cut
off, and of two numbers the greater one keeps the greater whole part.
-/

namespace OperatorConsole

namespace Number

theorem units?_of_toInt? {x : Number} {n : Int} (hn : x.toInt? = some n) :
    x.units? = some (n * one) := by
  unfold toInt? at hn
  cases hunits : x.units? with
  | none =>
      rw [hunits] at hn
      cases hn
  | some u =>
      rw [hunits] at hn
      dsimp only at hn
      split at hn
      · rename_i hwhole
        rw [← Option.some.inj hn, Int.ediv_mul_cancel (Int.dvd_of_emod_eq_zero hwhole)]
      · cases hn

theorem place_and_units {x : Number} {place u : Int} (hplace : x.place? = some place)
    (hunits : x.units? = some u) :
    exists rank : Nat, (place = rank ∧ u = unitsOf rank) ∨
      (place = -(rank : Int) ∧ u = -(unitsOf rank : Int)) := by
  cases x with
  | nan => cases hunits
  | infinity negative => cases hunits
  | finite negative rank =>
      refine ⟨rank, ?_⟩
      cases negative with
      | false =>
          cases hplace
          cases hunits
          exact Or.inl ⟨rfl, rfl⟩
      | true =>
          cases hplace
          cases hunits
          exact Or.inr ⟨rfl, rfl⟩

theorem units_le {x y : Number} {a b : Int} (hx : x.units? = some a) (hy : y.units? = some b)
    (hle : x.le y = true) : a ≤ b := by
  rcases le_iff.mp hle with ⟨place, place', hplace, hplace', hplaces⟩
  rcases place_and_units hplace hx with ⟨rank, hrank⟩
  rcases place_and_units hplace' hy with ⟨rank', hrank'⟩
  have habove := @unitsOf_le_iff rank rank'
  have hbelow := @unitsOf_le_iff rank' rank
  have hzero : unitsOf 0 = 0 := rfl
  have hnone := @unitsOf_le_iff rank 0
  have hnone' := @unitsOf_le_iff rank' 0
  omega

theorem natAbs_mul_one (q : Int) : (q * one).natAbs = q.natAbs * one := by
  rw [Int.natAbs_mul, Int.natAbs_natCast]

theorem units?_ofUnits {u : Int} {rank : Fin ranks} (hrank : unitsOf rank = u.natAbs)
    (zeroNegative : Bool) : (ofUnits zeroNegative u).units? = some u := by
  have hround : forall negative, round negative u.natAbs 1 = .finite negative rank := by
    intro negative
    have hexact := round_unitsOf negative rank Nat.one_pos
    rw [Nat.mul_one, hrank] at hexact
    exact hexact.trans (dif_pos rank.isLt)
  unfold ofUnits
  rw [hround]
  by_cases hzero : u = 0
  · subst hzero
    cases zeroNegative with
    | false => exact congrArg (fun n : Nat => some (n : Int)) hrank
    | true => exact congrArg (fun n : Nat => some (-(n : Int))) hrank
  · rw [if_neg hzero]
    rcases Int.lt_or_le u 0 with hnegative | hpositive
    · rw [decide_eq_true hnegative]
      exact congrArg some (by omega)
    · rw [decide_eq_false (Int.not_lt.mpr hpositive)]
      exact congrArg some (by omega)

theorem toInt?_of_units? {x : Number} {n : Int} (hx : x.units? = some (n * one)) :
    x.toInt? = some n := by
  have hone : (one : Int) ≠ 0 := Int.natCast_ne_zero.mpr (Nat.ne_of_gt one_pos)
  unfold toInt?
  generalize (one : Int) = unit at hx hone ⊢
  rw [hx]
  dsimp only
  rw [if_pos (Int.mul_emod_left _ _), Int.mul_ediv_cancel _ hone]

theorem toInt?_ofUnits_small {q : Int} (hq : q.natAbs ≤ 2 ^ 53) (zeroNegative : Bool) :
    (ofUnits zeroNegative (q * one)).toInt? = some q := by
  rcases isExact_iff.mp (isExact_of_le hq) with ⟨rank, hunits⟩
  have hmagnitude : unitsOf rank = (q * one).natAbs := hunits.trans (natAbs_mul_one q).symm
  exact toInt?_of_units? (units?_ofUnits hmagnitude zeroNegative)

/-- A whole number that is not small enough stays so when it is rounded. -/
theorem natAbs_of_ofUnits_large {q n : Int} (hq : 2 ^ 53 ≤ q.natAbs) {zeroNegative : Bool}
    (hn : (ofUnits zeroNegative (q * one)).toInt? = some n) : 2 ^ 53 ≤ n.natAbs := by
  rcases isExact_iff.mp (isExact_of_le (Nat.le_refl (2 ^ 53))) with ⟨rank, hunits⟩
  have habove : rank.val ≤ rankOf (q * one).natAbs 1 := by
    apply le_rankOf Nat.one_pos
    rw [Nat.mul_one, hunits, natAbs_mul_one]
    exact Nat.mul_le_mul_right one hq
  have hresult := units?_of_toInt? hn
  unfold ofUnits round ofRank at hresult
  split at hresult
  · rename_i hfinite
    have hmagnitude : unitsOf (rankOf (q * one).natAbs 1) = n.natAbs * one := by
      rw [← natAbs_mul_one]
      generalize (if q * one = 0 then zeroNegative else decide (q * one < 0)) = negative at hresult
      cases negative with
      | false => rw [← Option.some.inj hresult, Int.natAbs_natCast]
      | true => rw [← Option.some.inj hresult, Int.natAbs_neg, Int.natAbs_natCast]
    have hunitsLe := unitsOf_le_iff.mpr habove
    rw [hmagnitude, hunits] at hunitsLe
    exact Nat.le_of_mul_le_mul_right hunitsLe one_pos
  · cases hresult

theorem toInt?_truncate {x : Number} {n : Int} (hn : x.truncate.toInt? = some n)
    (hsmall : n.natAbs < 2 ^ 53) : exists u, x.units? = some u ∧ u.tdiv one = n := by
  cases x with
  | nan => cases hn
  | infinity negative => cases hn
  | finite negative rank =>
      have hwhole : forall u : Int, (finite negative rank).units? = some u ->
          (ofUnits negative (u.tdiv one * one)).toInt? = some n -> u.tdiv one = n := by
        intro u _ htruncated
        rcases Nat.lt_or_ge (u.tdiv one).natAbs (2 ^ 53) with hfits | hlarge
        · rw [toInt?_ofUnits_small (Nat.le_of_lt hfits)] at htruncated
          exact Option.some.inj htruncated
        · exact absurd (natAbs_of_ofUnits_large hlarge htruncated) (Nat.not_le.mpr hsmall)
      cases negative with
      | false => exact ⟨_, rfl, hwhole _ rfl hn⟩
      | true => exact ⟨_, rfl, hwhole _ rfl hn⟩

end Number

end OperatorConsole
