import OperatorConsole.Proofs.Number.Whole

/-!
# Rounding keeps the order

A quotient that is at most a magnitude is rounded to at most that magnitude, and one that is at
least a magnitude to at least that.  So a result that is exact stays on its side of any number
when it is rounded, whatever its sign.
-/

namespace OperatorConsole

namespace Number

/-! ## Magnitudes -/

theorem pow_dvd_unitsOf {rank e : Nat} (hrank : (e + 1) * 2 ^ 52 ≤ rank) :
    2 ^ e ∣ unitsOf rank := by
  have hsplit : rank = (rank / 2 ^ 52 - 1) * 2 ^ 52 + (2 ^ 52 + rank % 2 ^ 52) := by omega
  rw [hsplit, unitsOf_normal _ (by omega) (by omega)]
  exact Nat.dvd_mul_left_of_dvd (Nat.pow_dvd_pow 2 (by omega)) _

theorem unitsOf_le_iff {rank rank' : Nat} : unitsOf rank ≤ unitsOf rank' ↔ rank ≤ rank' := by
  rw [← Nat.not_lt, ← Nat.not_lt, unitsOf_lt_iff]

section Quotients

variable {n d rank : Nat}

theorem rankOf_le (hd : 0 < d) (hbound : n ≤ unitsOf rank * d) : rankOf n d ≤ rank := by
  have hwhole : 2 ^ shiftOf n d ∣ unitsOf rank := by
    rcases Nat.eq_zero_or_pos (shiftOf n d) with hnone | hsome
    · rw [hnone]
      exact Nat.one_dvd _
    · apply pow_dvd_unitsOf
      refine Nat.not_lt.mp fun hsmall => ?_
      have hfit : 2 ^ 52 * 2 ^ shiftOf n d * d ≤ unitsOf rank * d := by
        calc 2 ^ 52 * 2 ^ shiftOf n d * d = d * 2 ^ shiftOf n d * 2 ^ 52 := by ac_rfl
          _ ≤ n := pow_shiftOf_le hsome
          _ ≤ unitsOf rank * d := hbound
      exact Nat.not_lt.mpr (Nat.le_of_mul_le_mul_right hfit hd) (unitsOf_lt hsmall)
  rcases hwhole with ⟨c, hc⟩
  apply unitsOf_le_iff.mp
  rw [unitsOf_rankOf n hd, hc, Nat.mul_comm]
  refine Nat.mul_le_mul_left _ (roundQuotient_le (Nat.mul_pos hd (Nat.two_pow_pos _)) ?_)
  rw [hc] at hbound
  calc n ≤ 2 ^ shiftOf n d * c * d := hbound
    _ = c * (d * 2 ^ shiftOf n d) := by ac_rfl

theorem le_rankOf (hd : 0 < d) (hbound : unitsOf rank * d ≤ n) : rank ≤ rankOf n d := by
  have hunit : 0 < d * 2 ^ shiftOf n d := Nat.mul_pos hd (Nat.two_pow_pos _)
  apply unitsOf_le_iff.mp
  rw [unitsOf_rankOf n hd]
  rcases Nat.lt_or_ge rank ((shiftOf n d + 1) * 2 ^ 52) with hsmall | hlarge
  · -- The magnitude has a smaller exponent than the quotient, if that is cut off at all.
    rcases Nat.eq_zero_or_pos (shiftOf n d) with hnone | hsome
    · rw [hnone, Nat.pow_zero, Nat.mul_one, Nat.mul_one]
      exact le_roundQuotient hd hbound
    · refine Nat.le_of_lt (Nat.lt_of_lt_of_le (unitsOf_lt hsmall) (Nat.mul_le_mul_right _ ?_))
      refine le_roundQuotient hunit ?_
      rw [Nat.mul_comm]
      exact pow_shiftOf_le hsome
  · rcases pow_dvd_unitsOf hlarge with ⟨c, hc⟩
    rw [hc, Nat.mul_comm]
    refine Nat.mul_le_mul_right _ (le_roundQuotient hunit ?_)
    rw [hc] at hbound
    calc c * (d * 2 ^ shiftOf n d) = 2 ^ shiftOf n d * c * d := by ac_rfl
      _ ≤ n := hbound

end Quotients

/-! ## Signed results -/

theorem exists_place?_ofRank (negative : Bool) (r : Nat) :
    exists place : Nat,
      (ofRank negative r).place? = some (if negative then -(place : Int) else place) ∧
        place ≤ r ∧ forall rank : Fin ranks, rank.val ≤ r -> rank.val ≤ place := by
  unfold ofRank
  rcases Nat.lt_or_ge r ranks with hsmall | hlarge
  · rw [dif_pos hsmall]
    refine ⟨r, ?_, Nat.le_refl r, fun _ hrank => hrank⟩
    cases negative with
    | false => rfl
    | true => rfl
  · rw [dif_neg (Nat.not_lt.mpr hlarge)]
    refine ⟨ranks, ?_, hlarge, fun rank _ => Nat.le_of_lt rank.isLt⟩
    cases negative with
    | false => rfl
    | true => rfl

/-- An exact result that is at most a number is rounded to at most that number. -/
theorem ofUnits_le {x : Number} {u bound : Int} (hx : x.units? = some bound) (hle : u ≤ bound)
    (zeroNegative : Bool) : (ofUnits zeroNegative u).le x = true := by
  have hbelow : forall rank, u.natAbs ≤ unitsOf rank -> rankOf u.natAbs 1 ≤ rank := by
    intro rank hunits
    exact rankOf_le Nat.one_pos (by rwa [Nat.mul_one])
  have habove : forall rank, unitsOf rank ≤ u.natAbs -> rank ≤ rankOf u.natAbs 1 := by
    intro rank hunits
    exact le_rankOf Nat.one_pos (by rwa [Nat.mul_one])
  have hzero : u = 0 -> rankOf u.natAbs 1 ≤ 0 := by
    rintro rfl
    exact hbelow 0 (Nat.zero_le _)
  unfold ofUnits round
  generalize rankOf u.natAbs 1 = r at hbelow habove hzero ⊢
  rcases exists_place?_ofRank (if u = 0 then zeroNegative else u < 0) r with
    ⟨place, hplace, hplaceLe, hplaceGe⟩
  cases x with
  | nan => cases hx
  | infinity negative => cases hx
  | finite negative rank =>
      cases negative with
      | false =>
          have hbound : bound = unitsOf rank := (Option.some.inj hx).symm
          have hrank := hbelow rank
          refine le_iff.mpr ⟨_, rank.val, hplace, rfl, ?_⟩
          grind
      | true =>
          have hbound : bound = -(unitsOf rank : Int) := (Option.some.inj hx).symm
          have hrank := habove rank
          have hrank' := hplaceGe rank
          refine le_iff.mpr ⟨_, -(rank.val : Int), hplace, rfl, ?_⟩
          grind

/-! ## Differences -/

theorem sub_eq_ofUnits {x y : Number} {a b : Int} (hx : x.units? = some a)
    (hy : y.units? = some b) : exists zeroNegative, x.sub y = ofUnits zeroNegative (a - b) := by
  cases x with
  | nan => cases hx
  | infinity negative => cases hx
  | finite negative rank =>
      cases y with
      | nan => cases hy
      | infinity negative' => cases hy
      | finite negative' rank' =>
          refine ⟨negative && !negative', ?_⟩
          have ha : (if negative then -(unitsOf rank : Int) else unitsOf rank) = a := by
            cases negative <;> exact Option.some.inj hx
          have hb : (if (!negative') then -(unitsOf rank' : Int) else unitsOf rank') = -b := by
            cases negative' <;> exact (Option.some.inj hy) ▸ (by simp)
          change ofUnits _ ((if negative then -(unitsOf rank : Int) else unitsOf rank) +
            (if !negative' then -(unitsOf rank' : Int) else unitsOf rank')) = _
          rw [ha, hb, Int.sub_eq_add_neg]

theorem sub_le {x y bound : Number} {a b c : Int} (hx : x.units? = some a) (hy : y.units? = some b)
    (hbound : bound.units? = some c) (hle : a - b ≤ c) : (x.sub y).le bound = true := by
  rcases sub_eq_ofUnits hx hy with ⟨zeroNegative, hsub⟩
  rw [hsub]
  exact ofUnits_le hbound hle zeroNegative

theorem sub_infinity {x : Number} {a : Int} (hx : x.units? = some a) :
    x.sub (.infinity false) = .infinity true := by
  cases x with
  | nan => cases hx
  | infinity negative => cases hx
  | finite negative rank => rfl

theorem infinity_le {x : Number} {a : Int} (hx : x.units? = some a) :
    (infinity true).le x = true := by
  cases x with
  | nan => cases hx
  | infinity negative => cases hx
  | finite negative rank =>
      have hrank : (rank.val : Int) < (ranks : Int) := Int.ofNat_lt.mpr rank.isLt
      cases negative with
      | false =>
          refine le_iff.mpr ⟨-(ranks : Int), rank.val, rfl, rfl, ?_⟩
          exact Int.le_trans (Int.neg_nonpos_of_nonneg (Int.natCast_nonneg _))
            (Int.natCast_nonneg _)
      | true =>
          refine le_iff.mpr ⟨-(ranks : Int), -(rank.val : Int), rfl, rfl, ?_⟩
          exact Int.neg_le_neg (Int.le_of_lt hrank)

theorem units_of_mul {n m : Nat} (hn : IsExact n) (hpos : 0 < n) (hm : IsExact m) :
    (Number.ofNat n).mul (Number.ofNat m) = .infinity false ∨
      exists b : Nat, ((Number.ofNat n).mul (Number.ofNat m)).units? = some (b : Int) ∧
        m * one ≤ b := by
  rcases hm.finite with ⟨rank, _, hunits⟩
  have hrank : rank.val ≤ rankOf (n * m * one) 1 := by
    refine le_rankOf Nat.one_pos ?_
    rw [Nat.mul_one, hunits, Nat.mul_assoc]
    exact Nat.le_mul_of_pos_left _ hpos
  rw [ofNat_mul hn hm]
  unfold Number.ofNat round ofRank
  generalize rankOf (n * m * one) 1 = r at hrank ⊢
  rcases Nat.lt_or_ge r ranks with hsmall | hlarge
  · rw [dif_pos hsmall]
    refine Or.inr ⟨unitsOf r, rfl, ?_⟩
    rw [← hunits]
    exact unitsOf_le_iff.mpr hrank
  · exact Or.inl (dif_neg (Nat.not_lt.mpr hlarge))

end Number

end OperatorConsole
