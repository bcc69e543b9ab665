import Mathlib.Algebra.Group.Nat.Defs
import OperatorConsole.Proofs.Number.Order

/-!
# Rounding

Rounding depends on the quotient alone, not on the two naturals that write it, and leaves a
quotient that is a magnitude as it is.
-/

namespace OperatorConsole

namespace Number

/-! ## Quotients -/

theorem roundQuotient_scale (n d : Nat) {k : Nat} (hk : 0 < k) :
    roundQuotient (n * k) (d * k) = roundQuotient n d := by
  unfold roundQuotient
  have hdouble : forall r : Nat, 2 * (r * k) = 2 * r * k := fun r => (Nat.mul_assoc 2 r k).symm
  simp only [Nat.mul_div_mul_right n d hk, Nat.mul_mod_mul_right, hdouble,
    Nat.mul_lt_mul_right hk]

theorem roundQuotient_exact (q : Nat) {d : Nat} (hd : 0 < d) : roundQuotient (q * d) d = q := by
  unfold roundQuotient
  simp [Nat.mul_div_cancel q hd, hd]

theorem rankOf_scale (n d : Nat) {k : Nat} (hk : 0 < k) : rankOf (n * k) (d * k) = rankOf n d := by
  unfold rankOf
  simp only [Nat.mul_div_mul_right n d hk]
  rw [Nat.mul_right_comm d k, roundQuotient_scale n _ hk]

/-- Two ways to write one quotient are rounded to the same number. -/
theorem round_eq_of_cross {n d n' d' : Nat} (negative : Bool) (hd : 0 < d) (hd' : 0 < d')
    (hcross : n * d' = n' * d) : round negative n d = round negative n' d' := by
  have hrank : rankOf n d = rankOf n' d' :=
    calc rankOf n d = rankOf (n * d') (d * d') := (rankOf_scale n d hd').symm
      _ = rankOf (n' * d) (d' * d) := by rw [hcross, Nat.mul_comm d d']
      _ = rankOf n' d' := rankOf_scale n' d' hd
  unfold round
  rw [hrank]

/-! ## Magnitudes -/

theorem unitsOf_normal {m : Nat} (e : Nat) (hlow : 2 ^ 52 ≤ m) (hhigh : m < 2 ^ 53) :
    unitsOf (e * 2 ^ 52 + m) = m * 2 ^ e := by
  have hrank : e * 2 ^ 52 + m = 2 ^ 52 * (e + 1) + (m - 2 ^ 52) := by omega
  have hrest : m - 2 ^ 52 < 2 ^ 52 := by omega
  unfold unitsOf
  rw [if_neg (by simp only [Nat.pow_eq]; omega), hrank]
  simp only [Nat.pow_eq]
  rw [Nat.mul_add_mod, Nat.mod_eq_of_lt hrest, Nat.mul_add_div (by decide),
    Nat.div_eq_of_lt hrest, Nat.add_sub_cancel' hlow]
  rfl

theorem unitsOf_lt {rank e : Nat} (hrank : rank < (e + 1) * 2 ^ 52) :
    unitsOf rank < 2 ^ 52 * 2 ^ e := by
  rcases Nat.lt_or_ge rank (2 ^ 52) with hsmall | hlarge
  · have hunits : unitsOf rank = rank := if_pos hsmall
    rw [hunits]
    exact Nat.lt_of_lt_of_le hsmall (Nat.le_mul_of_pos_right _ (Nat.two_pow_pos e))
  · have hsplit : rank = (rank / 2 ^ 52 - 1) * 2 ^ 52 + (2 ^ 52 + rank % 2 ^ 52) := by omega
    have hdouble : 2 ^ 53 = 2 ^ 52 * 2 := Nat.pow_succ 2 52
    rw [hsplit, unitsOf_normal _ (by omega) (by omega)]
    calc (2 ^ 52 + rank % 2 ^ 52) * 2 ^ (rank / 2 ^ 52 - 1)
        < 2 ^ 53 * 2 ^ (rank / 2 ^ 52 - 1) :=
          Nat.mul_lt_mul_of_pos_right (by omega) (Nat.two_pow_pos _)
      _ = 2 ^ 52 * 2 ^ (rank / 2 ^ 52 - 1 + 1) := by
          rw [Nat.pow_add_one' (n := rank / 2 ^ 52 - 1), ← Nat.mul_assoc, ← hdouble]
      _ ≤ 2 ^ 52 * 2 ^ e :=
          Nat.mul_le_mul_left _ (Nat.pow_le_pow_right (by decide) (by omega))

theorem rankOf_normal {m : Nat} (e : Nat) (hlow : 2 ^ 52 ≤ m) (hhigh : m < 2 ^ 53) :
    rankOf (m * 2 ^ e) 1 = e * 2 ^ 52 + m := by
  have hpos : m * 2 ^ e ≠ 0 :=
    Nat.mul_ne_zero (Nat.ne_of_gt (Nat.lt_of_lt_of_le (by decide) hlow))
      (Nat.ne_of_gt (Nat.two_pow_pos e))
  have hlog : (m * 2 ^ e).log2 = 52 + e := by
    rw [Nat.log2_eq_iff hpos, Nat.pow_add, Nat.add_right_comm, Nat.pow_add 2 53 e]
    exact ⟨Nat.mul_le_mul_right _ hlow, Nat.mul_lt_mul_of_pos_right hhigh (Nat.two_pow_pos e)⟩
  unfold rankOf
  simp only [Nat.div_one, hlog, Nat.add_sub_cancel_left, Nat.pow_eq, Nat.one_mul]
  rw [roundQuotient_exact m (Nat.two_pow_pos e)]

theorem rankOf_unitsOf_one (rank : Nat) : rankOf (unitsOf rank) 1 = rank := by
  rcases Nat.lt_or_ge rank (2 ^ 52) with hsmall | hlarge
  · have hunits : unitsOf rank = rank := if_pos hsmall
    have hlog : rank.log2 - 52 = 0 := by
      rcases Nat.eq_zero_or_pos rank with rfl | hpos
      · rfl
      · have := (Nat.log2_lt (Nat.ne_of_gt hpos)).mpr hsmall
        omega
    rw [hunits]
    unfold rankOf
    simpa [hlog] using roundQuotient_exact rank Nat.one_pos
  · have hsplit : rank = (rank / 2 ^ 52 - 1) * 2 ^ 52 + (2 ^ 52 + rank % 2 ^ 52) := by omega
    rw [hsplit, unitsOf_normal _ (by omega) (by omega), rankOf_normal _ (by omega) (by omega)]

theorem rankOf_unitsOf (rank : Nat) {d : Nat} (hd : 0 < d) : rankOf (unitsOf rank * d) d = rank :=
  calc rankOf (unitsOf rank * d) d = rankOf (unitsOf rank * d) (1 * d) := by rw [Nat.one_mul]
    _ = rankOf (unitsOf rank) 1 := rankOf_scale (unitsOf rank) 1 hd
    _ = rank := rankOf_unitsOf_one rank

theorem round_unitsOf (negative : Bool) (rank : Nat) {d : Nat} (hd : 0 < d) :
    round negative (unitsOf rank * d) d = ofRank negative rank := by
  unfold round
  rw [rankOf_unitsOf rank hd]

/-! ## Whole numbers -/

theorem neg_ofRank (rank : Nat) : (ofRank false rank).neg = ofRank true rank := by
  unfold ofRank
  split
  · rfl
  · rfl

theorem place?_ofRank {rank : Nat} (hrank : rank < ranks) :
    (ofRank false rank).place? = some (rank : Int) := by
  unfold ofRank
  rw [dif_pos hrank]
  rfl

theorem ofNat_eq_round (n : Nat) : (OfNat.ofNat n : Number) = round false (n * one) 1 := by
  delta OfNat.ofNat instOfNat ofNat
  exact Eq.refl _

theorem one_eq_mul {a b : Nat} (h : a + b = 1074) : one = 2 ^ a * 2 ^ b := by
  delta one
  rw [← h]
  exact Nat.pow_add 2 a b

theorem place?_ofNat {n rank : Nat} (hrank : rank < ranks) (hunits : n * one = unitsOf rank) :
    (OfNat.ofNat n : Number).place? = some (rank : Int) := by
  have hround := round_unitsOf false rank Nat.one_pos
  rw [Nat.mul_one, ← hunits] at hround
  rw [ofNat_eq_round, hround, place?_ofRank hrank]

theorem place?_zero : (0 : Number).place? = some 0 :=
  @place?_ofNat 0 0 (by decide) (Nat.zero_mul _)

theorem place?_one : (1 : Number).place? = some ((1022 * 2 ^ 52 + 2 ^ 52 : Nat) : Int) := by
  have hunits : unitsOf (1022 * 2 ^ 52 + 2 ^ 52) = one := by
    rw [unitsOf_normal 1022 (Nat.le_refl _) (by decide)]
    exact (one_eq_mul (a := 52) (b := 1022) rfl).symm
  exact place?_ofNat (n := 1) (by decide) ((Nat.one_mul _).trans hunits.symm)

theorem unitsOf_pos {rank : Nat} (hrank : 0 < rank) : 0 < unitsOf rank := by
  rcases Nat.eq_zero_or_pos (unitsOf rank) with hzero | hpos
  · have hback := rankOf_unitsOf_one rank
    rw [hzero] at hback
    exact absurd hback.symm (Nat.ne_of_gt hrank)
  · exact hpos

theorem units_of_isInteger {negative : Bool} {rank : Fin ranks}
    (hwhole : (finite negative rank).isInteger = true) : one ∣ unitsOf rank := by
  have hdvd : forall u : Int, (finite negative rank).units? = some u -> (one : Int) ∣ u := by
    intro u hu
    unfold isInteger toInt? at hwhole
    rw [hu] at hwhole
    refine Int.dvd_of_emod_eq_zero (Decidable.byContradiction fun hrest => ?_)
    dsimp only at hwhole
    rw [if_neg hrest] at hwhole
    cases hwhole
  cases negative with
  | false => exact Int.natCast_dvd_natCast.mp (hdvd _ rfl)
  | true => exact Int.natCast_dvd_natCast.mp (Int.dvd_neg.mp (hdvd _ rfl))

theorem isFinite_of_isInteger {x : Number} (hwhole : x.isInteger = true) : x.isFinite = true := by
  cases x with
  | nan => cases hwhole
  | infinity negative => cases hwhole
  | finite negative rank => rfl

theorem ne_zero_of_positive {x : Number} (hpositive : Number.lt 0 x = true) (negative : Bool) :
    x ≠ .zero negative := by
  rintro rfl
  rcases lt_iff.mp hpositive with ⟨a, b, ha, hb, hab⟩
  have hzero : (zero negative).place? = some 0 := by cases negative <;> rfl
  rw [place?_zero] at ha
  rw [hzero] at hb
  cases ha
  cases hb
  exact Int.lt_irrefl 0 hab

theorem one_le_of_positive {x : Number} (hwhole : x.isInteger = true)
    (hpositive : Number.lt 0 x = true) : Number.le 1 x = true := by
  rcases lt_iff.mp hpositive with ⟨a, b, ha, hb, hab⟩
  rw [place?_zero] at ha
  cases ha
  cases x with
  | nan => cases hb
  | infinity negative => cases hwhole
  | finite negative rank =>
      cases negative with
      | true =>
          cases hb
          omega
      | false =>
          cases hb
          refine le_iff.mpr ⟨_, _, place?_one, rfl, ?_⟩
          have hunits : one ≤ unitsOf rank :=
            Nat.le_of_dvd (unitsOf_pos (by omega)) (units_of_isInteger hwhole)
          rw [one_eq_mul (a := 52) (b := 1022) rfl] at hunits
          have hrank := Nat.not_lt.mp fun hlow =>
            Nat.not_lt.mpr hunits (unitsOf_lt (e := 1022) hlow)
          omega

end Number

end OperatorConsole
