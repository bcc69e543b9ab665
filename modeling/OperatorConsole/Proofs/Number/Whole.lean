import Mathlib.Algebra.Order.Floor.Div
import OperatorConsole.Proofs.Number.Rounding

/-!
# Whole numbers

Every whole number up to `2 ^ 53` is a number, and so are some of the greater ones.  As long as the
results are numbers too, sums, differences and products are those of naturals; the quotient of two
naturals is rounded, but up to `2 ^ 53` not past a whole number.
-/

namespace OperatorConsole

namespace Number

/-- A whole number that is not negative. -/
def IsCount (x : Number) : Prop :=
  exists n : Nat, x.toInt? = some (n : Int)

/-- Whether a natural is a number, so that no rounding changes it. -/
def IsExact (n : Nat) : Prop :=
  exists x : Number, x.toInt? = some (n : Int)

/-! ## Naturals that are numbers -/

theorem one_eq_pow {k : Nat} (hk : k = 1074) : one = 2 ^ k := by
  delta one
  rw [← hk]
  rfl

theorem one_pos : 0 < one := by
  obtain ⟨k, hk⟩ : exists k, k = 1074 := ⟨1074, rfl⟩
  rw [one_eq_pow hk]
  exact Nat.two_pow_pos k

theorem units_of_toInt? {negative : Bool} {rank : Fin ranks} {n : Nat}
    (hn : (finite negative rank).toInt? = some (n : Int)) : unitsOf rank = n * one := by
  have hunits : forall u : Int, (finite negative rank).units? = some u ->
      u = ((n * one : Nat) : Int) := by
    intro u hu
    unfold toInt? at hn
    rw [hu] at hn
    dsimp only at hn
    split at hn
    · rename_i hrest
      rw [Int.natCast_mul, ← Option.some.inj hn,
        Int.ediv_mul_cancel (Int.dvd_of_emod_eq_zero hrest)]
    · cases hn
  cases negative with
  | false => exact Int.natCast_inj.mp (hunits _ rfl)
  | true =>
      have hnegated := hunits _ rfl
      omega

theorem toInt?_of_units (rank : Fin ranks) {n : Nat} (hunits : unitsOf rank = n * one) :
    (finite false rank).toInt? = some (n : Int) ∧
      (finite true rank).toInt? = some (-(n : Int)) := by
  have hone : (one : Int) ≠ 0 := Int.natCast_ne_zero.mpr (Nat.ne_of_gt one_pos)
  unfold toInt? units?
  dsimp only
  rw [hunits, Int.natCast_mul, ← Int.neg_mul, if_pos (Int.mul_emod_left _ _),
    if_pos (Int.mul_emod_left _ _), Int.mul_ediv_cancel _ hone, Int.mul_ediv_cancel _ hone]
  exact ⟨rfl, rfl⟩

theorem ofNat_of_units {rank : Fin ranks} {n : Nat} (hunits : unitsOf rank = n * one) :
    Number.ofNat n = .finite false rank := by
  have hround := round_unitsOf false rank Nat.one_pos
  rw [Nat.mul_one, hunits] at hround
  unfold Number.ofNat
  rw [hround]
  exact dif_pos rank.isLt

theorem isExact_iff {n : Nat} : IsExact n ↔ exists rank : Fin ranks, unitsOf rank = n * one := by
  constructor
  · rintro ⟨x, hx⟩
    cases x with
    | nan => cases hx
    | infinity negative => cases hx
    | finite negative rank => exact ⟨rank, units_of_toInt? hx⟩
  · rintro ⟨rank, hunits⟩
    exact ⟨.finite false rank, (toInt?_of_units _ hunits).1⟩

theorem IsExact.toInt? {n : Nat} (hn : IsExact n) : (Number.ofNat n).toInt? = some (n : Int) := by
  rcases isExact_iff.mp hn with ⟨rank, hunits⟩
  rw [ofNat_of_units hunits, (toInt?_of_units _ hunits).1]

theorem isExact_of_normal {n m e : Nat} (hlow : 2 ^ 52 ≤ m) (hhigh : m < 2 ^ 53) (he : e ≤ 2045)
    (hunits : m * 2 ^ e = n * one) : IsExact n := by
  have hrank : e * 2 ^ 52 + m < ranks := by
    unfold ranks
    simp only [Nat.pow_eq]
    omega
  exact isExact_iff.mpr ⟨⟨_, hrank⟩, (unitsOf_normal e hlow hhigh).trans hunits⟩

theorem isExact_of_le {n : Nat} (hn : n ≤ 2 ^ 53) : IsExact n := by
  obtain ⟨k, hk⟩ : exists k, k = 1074 := ⟨1074, rfl⟩
  rcases Nat.eq_zero_or_pos n with rfl | hpos
  · exact isExact_iff.mpr ⟨⟨0, by decide⟩, (Nat.zero_mul _).symm⟩
  rcases Nat.lt_or_eq_of_le hn with hsmall | rfl
  · have hlog : n.log2 < 53 := (Nat.log2_lt (Nat.ne_of_gt hpos)).mpr hsmall
    have hlow := Nat.log2_self_le (Nat.ne_of_gt hpos)
    have hhigh := Nat.lt_log2_self (n := n)
    have hfill : n.log2 + (52 - n.log2) = 52 := by omega
    refine isExact_of_normal (m := n * 2 ^ (52 - n.log2)) (e := k + n.log2 - 52) ?_ ?_
      (by omega) ?_
    · calc 2 ^ 52 = 2 ^ n.log2 * 2 ^ (52 - n.log2) := by rw [← Nat.pow_add, hfill]
        _ ≤ n * 2 ^ (52 - n.log2) := Nat.mul_le_mul_right _ hlow
    · calc n * 2 ^ (52 - n.log2) < 2 ^ (n.log2 + 1) * 2 ^ (52 - n.log2) :=
          Nat.mul_lt_mul_of_pos_right hhigh (Nat.two_pow_pos _)
        _ = 2 ^ 53 := by rw [← Nat.pow_add, Nat.add_right_comm, hfill]
    · rw [one_eq_pow hk, Nat.mul_assoc, ← Nat.pow_add]
      congr 2
      omega
  · refine isExact_of_normal (m := 2 ^ 52) (e := k + 1) (Nat.le_refl _) (by decide) (by omega) ?_
    rw [one_eq_pow hk, ← Nat.pow_add, ← Nat.pow_add]
    congr 1
    omega

theorem IsExact.significand {n : Nat} (hn : IsExact n) :
    exists m e, m < 2 ^ 53 ∧ n = m * 2 ^ e := by
  obtain ⟨k, hk⟩ : exists k, k = 1074 := ⟨1074, rfl⟩
  rcases isExact_iff.mp hn with ⟨rank, hunits⟩
  obtain ⟨m, e, hm, hsplit⟩ : exists m e, m < 2 ^ 53 ∧ unitsOf rank = m * 2 ^ e := by
    rcases Nat.lt_or_ge rank.val (2 ^ 52) with hsmall | hlarge
    · exact ⟨rank, 0, by omega, (if_pos hsmall).trans (Nat.mul_one _).symm⟩
    · refine ⟨2 ^ 52 + rank.val % 2 ^ 52, rank.val / 2 ^ 52 - 1, by omega, ?_⟩
      exact if_neg (Nat.not_lt.mpr hlarge)
  rw [hsplit, one_eq_pow hk] at hunits
  rcases Nat.le_total k e with hlong | hshort
  · refine ⟨m, e - k, hm, Nat.eq_of_mul_eq_mul_right (Nat.two_pow_pos k) ?_⟩
    rw [← hunits, Nat.mul_assoc, ← Nat.pow_add, Nat.sub_add_cancel hlong]
  · have hwhole : m = n * 2 ^ (k - e) := by
      refine Nat.eq_of_mul_eq_mul_right (Nat.two_pow_pos e) ?_
      rw [hunits, Nat.mul_assoc, ← Nat.pow_add, Nat.sub_add_cancel hshort]
    have hle : n ≤ m := by
      rw [hwhole]
      exact Nat.le_mul_of_pos_right n (Nat.two_pow_pos _)
    exact ⟨n, 0, Nat.lt_of_le_of_lt hle hm, (Nat.mul_one n).symm⟩

/-- If a product is a number and so is the successor of a factor, then the factor is one as well:
a factor with more than 53 digits would be odd, and the product would keep these digits. -/
theorem IsExact.factor {n m : Nat} (hm : 0 < m) (hproduct : IsExact (n * m))
    (hsucc : IsExact (n + 1)) : IsExact n := by
  rcases Nat.lt_or_ge (2 ^ 53) n with hlarge | hsmall
  · exfalso
    have hodd : n % 2 = 1 := by
      rcases hsucc.significand with ⟨m', e, hm', hsplit⟩
      cases e with
      | zero => omega
      | succ e =>
          rw [Nat.pow_succ, ← Nat.mul_assoc] at hsplit
          omega
    have hcoprime : Nat.Coprime 2 n := by
      rw [Nat.coprime_iff_gcd_eq_one, Nat.gcd_rec, hodd, Nat.gcd_one_left]
    rcases hproduct.significand with ⟨m', e, hm', hsplit⟩
    have hdvd : n ∣ m' := by
      refine (hcoprime.symm.pow_right e).dvd_of_dvd_mul_right ?_
      rw [← hsplit]
      exact Nat.dvd_mul_right n m
    have hpos : 0 < m' := by
      rcases Nat.eq_zero_or_pos m' with rfl | hpos
      · have hproduct_pos : 0 < n * m := Nat.mul_pos (by omega) hm
        omega
      · exact hpos
    have hle := Nat.le_of_dvd hpos hdvd
    omega
  · exact isExact_of_le hsmall

/-! ## Rounded quotients -/

theorem roundQuotient_cases (n d : Nat) :
    (roundQuotient n d = n / d ∧ 2 * (n % d) ≤ d) ∨
      (roundQuotient n d = n / d + 1 ∧ d ≤ 2 * (n % d)) := by
  unfold roundQuotient
  dsimp only
  split
  · exact Or.inl ⟨rfl, by omega⟩
  · split
    · exact Or.inr ⟨rfl, by omega⟩
    · rcases Nat.mod_two_eq_zero_or_one (n / d) with heven | hodd
      · exact Or.inl ⟨by omega, by omega⟩
      · exact Or.inr ⟨by omega, by omega⟩

theorem roundQuotient_near (n : Nat) {d : Nat} (hd : 0 < d) :
    2 * n ≤ 2 * (roundQuotient n d * d) + d ∧ 2 * (roundQuotient n d * d) ≤ 2 * n + d := by
  have hsplit := Nat.div_add_mod n d
  rw [Nat.mul_comm] at hsplit
  rcases roundQuotient_cases n d with ⟨hround, hrest⟩ | ⟨hround, hrest⟩
  · rw [hround]
    omega
  · have hbelow := Nat.mod_lt n hd
    rw [hround, Nat.add_mul]
    omega

theorem roundQuotient_le {n d c : Nat} (hd : 0 < d) (hbound : n ≤ c * d) :
    roundQuotient n d ≤ c := by
  refine Nat.le_of_lt_succ (Nat.lt_of_mul_lt_mul_right (a := 2 * d) ?_)
  have hnear := (roundQuotient_near n hd).2
  calc roundQuotient n d * (2 * d) = 2 * (roundQuotient n d * d) := by rw [Nat.mul_left_comm]
    _ < 2 * (c * d) + 2 * d := by omega
    _ = (c + 1) * (2 * d) := by rw [Nat.add_mul, Nat.one_mul, Nat.mul_left_comm]

theorem le_roundQuotient {n d c : Nat} (hd : 0 < d) (hbound : c * d ≤ n) :
    c ≤ roundQuotient n d := by
  refine Nat.le_of_lt_succ (Nat.lt_of_mul_lt_mul_right (a := 2 * d) ?_)
  have hnear := (roundQuotient_near n hd).1
  calc c * (2 * d) = 2 * (c * d) := by rw [Nat.mul_left_comm]
    _ < 2 * (roundQuotient n d * d) + 2 * d := by omega
    _ = (roundQuotient n d + 1) * (2 * d) := by rw [Nat.add_mul, Nat.one_mul, Nat.mul_left_comm]

/-- How many binary places are cut off a quotient. -/
def shiftOf (n d : Nat) : Nat :=
  (n / d).log2 - 52

theorem pow_shiftOf_le {n d : Nat} (hshift : 0 < shiftOf n d) :
    d * 2 ^ shiftOf n d * 2 ^ 52 ≤ n := by
  have hlog : (n / d).log2 = shiftOf n d + 52 := by
    unfold shiftOf at hshift ⊢
    omega
  have hsome : n / d ≠ 0 := by
    intro hzero
    rw [hzero, Nat.log2_zero] at hlog
    omega
  have hlow := Nat.log2_self_le hsome
  rw [hlog, Nat.pow_add] at hlow
  calc d * 2 ^ shiftOf n d * 2 ^ 52 = d * (2 ^ shiftOf n d * 2 ^ 52) := Nat.mul_assoc _ _ _
    _ ≤ d * (n / d) := Nat.mul_le_mul_left d hlow
    _ ≤ n := Nat.mul_div_le n d

theorem lt_pow_shiftOf (n : Nat) {d : Nat} (hd : 0 < d) : n < 2 ^ 53 * (d * 2 ^ shiftOf n d) := by
  have hlog : (n / d).log2 + 1 ≤ 53 + shiftOf n d := by
    unfold shiftOf
    omega
  have hhigh : n / d < 2 ^ 53 * 2 ^ shiftOf n d := by
    rw [← Nat.pow_add]
    exact Nat.lt_of_lt_of_le Nat.lt_log2_self (Nat.pow_le_pow_right Nat.two_pos hlog)
  rw [Nat.mul_left_comm, Nat.mul_comm]
  exact (Nat.div_lt_iff_lt_mul hd).mp hhigh

theorem unitsOf_rankOf (n : Nat) {d : Nat} (hd : 0 < d) :
    unitsOf (rankOf n d) = roundQuotient n (d * 2 ^ shiftOf n d) * 2 ^ shiftOf n d := by
  have hunit : 0 < d * 2 ^ shiftOf n d := Nat.mul_pos hd (Nat.two_pow_pos _)
  have hhigh : roundQuotient n (d * 2 ^ shiftOf n d) ≤ 2 ^ 53 :=
    roundQuotient_le hunit (Nat.le_of_lt (lt_pow_shiftOf n hd))
  have hrank : rankOf n d =
      shiftOf n d * 2 ^ 52 + roundQuotient n (d * 2 ^ shiftOf n d) := rfl
  rw [hrank]
  rcases Nat.eq_or_lt_of_le hhigh with hfull | hbelow
  · have hnext : shiftOf n d * 2 ^ 52 + 2 ^ 53 = (shiftOf n d + 1) * 2 ^ 52 + 2 ^ 52 := by omega
    rw [hfull, hnext, unitsOf_normal _ (Nat.le_refl _) (by decide), Nat.pow_succ 2 (shiftOf n d),
      ← Nat.mul_assoc, Nat.mul_right_comm, ← Nat.pow_succ]
  · rcases Nat.eq_zero_or_pos (shiftOf n d) with hnone | hsome
    · rw [hnone, Nat.zero_mul, Nat.zero_add, Nat.pow_zero, Nat.mul_one, Nat.mul_one]
      rw [hnone, Nat.pow_zero, Nat.mul_one] at hbelow
      rcases Nat.lt_or_ge (roundQuotient n d) (2 ^ 52) with hsmall | hlarge
      · exact if_pos hsmall
      · have hnormal := unitsOf_normal 0 hlarge hbelow
        rwa [Nat.zero_mul, Nat.zero_add, Nat.pow_zero, Nat.mul_one] at hnormal
    · have hlow : 2 ^ 52 ≤ roundQuotient n (d * 2 ^ shiftOf n d) := by
        refine le_roundQuotient hunit ?_
        rw [Nat.mul_comm]
        exact pow_shiftOf_le hsome
      exact unitsOf_normal _ hlow hbelow

/-! ## Arithmetic -/

theorem IsExact.finite {n : Nat} (hn : IsExact n) :
    exists rank : Fin ranks, Number.ofNat n = .finite false rank ∧ unitsOf rank = n * one := by
  rcases isExact_iff.mp hn with ⟨rank, hunits⟩
  exact ⟨rank, ofNat_of_units hunits, hunits⟩

theorem IsExact.isCount {n : Nat} (hn : IsExact n) : (Number.ofNat n).IsCount :=
  ⟨n, hn.toInt?⟩

theorem ofNat_literal (n : Nat) : (OfNat.ofNat n : Number) = Number.ofNat n := by
  delta OfNat.ofNat instOfNat
  exact Eq.refl _

theorem isExact_zero : IsExact 0 :=
  isExact_of_le (Nat.zero_le _)

theorem isExact_one : IsExact 1 :=
  isExact_of_le (by decide)

theorem ofUnits_natCast (k : Nat) : ofUnits false (k : Int) = round false k 1 := by
  have hsign : (if (k : Int) = 0 then false else decide ((k : Int) < 0)) = false := by
    split
    · rfl
    · exact decide_eq_false (Int.not_lt.mpr (Int.natCast_nonneg k))
  unfold ofUnits
  rw [hsign, Int.natAbs_natCast]

section Arithmetic

variable {n m : Nat}

theorem ofNat_add (hn : IsExact n) (hm : IsExact m) :
    (Number.ofNat n).add (Number.ofNat m) = Number.ofNat (n + m) := by
  rcases hn.finite with ⟨i, hi, hiunits⟩
  rcases hm.finite with ⟨j, hj, hjunits⟩
  rw [hi, hj]
  change ofUnits false ((unitsOf i : Int) + unitsOf j) = _
  rw [← Int.natCast_add, hiunits, hjunits, ← Nat.add_mul, ofUnits_natCast]
  rfl

theorem ofNat_sub (hn : IsExact n) (hm : IsExact m) (hle : m ≤ n) :
    (Number.ofNat n).sub (Number.ofNat m) = Number.ofNat (n - m) := by
  rcases hn.finite with ⟨i, hi, hiunits⟩
  rcases hm.finite with ⟨j, hj, hjunits⟩
  rw [hi, hj]
  change ofUnits false ((unitsOf i : Int) + -(unitsOf j : Int)) = _
  rw [hiunits, hjunits, ← Int.sub_eq_add_neg,
    ← Int.natCast_sub (Nat.mul_le_mul_right one hle), ← Nat.sub_mul, ofUnits_natCast]
  rfl

theorem ofNat_mul (hn : IsExact n) (hm : IsExact m) :
    (Number.ofNat n).mul (Number.ofNat m) = Number.ofNat (n * m) := by
  rcases hn.finite with ⟨i, hi, hiunits⟩
  rcases hm.finite with ⟨j, hj, hjunits⟩
  rw [hi, hj]
  change round false (unitsOf i * unitsOf j) one = round false (n * m * one) 1
  refine round_eq_of_cross false one_pos Nat.one_pos ?_
  rw [hiunits, hjunits, Nat.mul_one, Nat.mul_mul_mul_comm, ← Nat.mul_assoc]

theorem ofNat_div (hn : IsExact n) (hm : IsExact m) (hpos : 0 < m) :
    (Number.ofNat n).div (Number.ofNat m) = round false (n * one) m := by
  rcases hn.finite with ⟨i, hi, hiunits⟩
  rcases hm.finite with ⟨j, hj, hjunits⟩
  have hunits : 0 < unitsOf j := by
    rw [hjunits]
    exact Nat.mul_pos hpos one_pos
  have hsome : j.val ≠ 0 := by
    intro hzero
    rw [hzero] at hunits
    exact Nat.lt_irrefl 0 hunits
  rw [hi, hj]
  change (if j.val = 0 then _ else round false (unitsOf i * one) (unitsOf j)) = _
  rw [if_neg hsome]
  refine round_eq_of_cross false hunits hpos ?_
  rw [hiunits, hjunits, Nat.mul_assoc (n * one), Nat.mul_comm one m]

end Arithmetic

/-! ## Counts -/

theorem isCount_zero (negative : Bool) : (zero negative).IsCount := by
  have hunits : unitsOf 0 = 0 * one := (Nat.zero_mul _).symm
  cases negative with
  | false => exact ⟨0, (toInt?_of_units ⟨0, by decide⟩ hunits).1⟩
  | true => exact ⟨0, (toInt?_of_units ⟨0, by decide⟩ hunits).2⟩

theorem eq_zero_of_units {negative : Bool} {rank : Fin ranks} (hunits : unitsOf rank = 0) :
    finite negative rank = zero negative := by
  have hrank : rank.val = 0 :=
    Nat.eq_zero_of_not_pos fun hpos => Nat.ne_of_gt (unitsOf_pos hpos) hunits
  rw [show rank = ⟨0, by decide⟩ from Fin.ext hrank]
  rfl

theorem IsCount.cases {x : Number} (hx : x.IsCount) :
    (exists negative, x = zero negative) ∨ exists n, 0 < n ∧ IsExact n ∧ x = Number.ofNat n := by
  rcases hx with ⟨n, hn⟩
  cases x with
  | nan => cases hn
  | infinity negative => cases hn
  | finite negative rank =>
      have hunits := units_of_toInt? hn
      rcases Nat.eq_zero_or_pos n with rfl | hpos
      · rw [Nat.zero_mul] at hunits
        exact Or.inl ⟨negative, eq_zero_of_units hunits⟩
      · refine Or.inr ⟨n, hpos, ⟨_, hn⟩, ?_⟩
        cases negative with
        | false => exact (ofNat_of_units hunits).symm
        | true =>
            rw [(toInt?_of_units _ hunits).2] at hn
            have hsame := Option.some.inj hn
            omega

theorem isCount_iff {x : Number} : x.IsCount ↔ (x.isInteger && !x.lt 0) = true := by
  have hplace : forall (rank : Fin ranks), (finite false rank).lt 0 = false ∧
      ((finite true rank).lt 0 = false → rank.val = 0) := by
    intro rank
    unfold lt
    rw [place?_zero]
    constructor
    · simp [place?]
    · simp [place?]
  constructor
  · rintro ⟨n, hn⟩
    have hinteger : x.isInteger = true := by
      unfold isInteger
      rw [hn]
      rfl
    rcases IsCount.cases ⟨n, hn⟩ with ⟨negative, rfl⟩ | ⟨m, _, hexact, rfl⟩
    · have hsign : (zero negative).lt 0 = false := by
        unfold lt
        rw [place?_zero]
        cases negative <;> rfl
      rw [hinteger, hsign]
      rfl
    · rcases hexact.finite with ⟨rank, hrank, _⟩
      rw [hinteger, hrank, (hplace rank).1]
      rfl
  · intro hx
    rw [Bool.and_eq_true, Bool.not_eq_true'] at hx
    cases x with
    | nan => cases hx.1
    | infinity negative => cases hx.1
    | finite negative rank =>
        rcases units_of_isInteger hx.1 with ⟨n, hn⟩
        rw [Nat.mul_comm] at hn
        cases negative with
        | false => exact ⟨n, (toInt?_of_units _ hn).1⟩
        | true =>
            have hrank := (hplace rank).2 hx.2
            rw [show rank = ⟨0, by decide⟩ from Fin.ext hrank]
            exact isCount_zero true

/-! ## Order -/

theorem unitsOf_lt_of_lt {rank rank' : Nat} (hlt : rank < rank') :
    unitsOf rank < unitsOf rank' := by
  rcases Nat.lt_or_ge rank' (2 ^ 52) with hsmall | hlarge
  · have hsmall' : rank < 2 ^ 52 := Nat.lt_trans hlt hsmall
    have hunits : unitsOf rank = rank := if_pos hsmall'
    have hunits' : unitsOf rank' = rank' := if_pos hsmall
    rw [hunits, hunits']
    exact hlt
  · obtain ⟨e, m, hlow, hhigh, hrank⟩ :
        exists e m, 2 ^ 52 ≤ m ∧ m < 2 ^ 53 ∧ rank' = e * 2 ^ 52 + m :=
      ⟨rank' / 2 ^ 52 - 1, 2 ^ 52 + rank' % 2 ^ 52, by omega, by omega, by omega⟩
    rw [hrank, unitsOf_normal e hlow hhigh]
    rcases Nat.lt_or_ge rank ((e + 1) * 2 ^ 52) with hbelow | habove
    · exact Nat.lt_of_lt_of_le (unitsOf_lt hbelow) (Nat.mul_le_mul_right _ hlow)
    · obtain ⟨m', hsplit⟩ : exists m', rank = e * 2 ^ 52 + m' :=
        ⟨rank - e * 2 ^ 52, by omega⟩
      rw [hsplit, unitsOf_normal e (by omega) (by omega)]
      exact Nat.mul_lt_mul_of_pos_right (by omega) (Nat.two_pow_pos e)

theorem unitsOf_lt_iff {rank rank' : Nat} : unitsOf rank < unitsOf rank' ↔ rank < rank' := by
  refine ⟨fun hlt => ?_, unitsOf_lt_of_lt⟩
  rcases Nat.lt_trichotomy rank rank' with hless | rfl | hmore
  · exact hless
  · exact absurd hlt (Nat.lt_irrefl _)
  · exact absurd (unitsOf_lt_of_lt hmore) (Nat.lt_asymm hlt)

theorem ofNat_lt {n m : Nat} (hn : IsExact n) (hm : IsExact m) :
    (Number.ofNat n).lt (Number.ofNat m) = decide (n < m) := by
  rcases hn.finite with ⟨i, hi, hiunits⟩
  rcases hm.finite with ⟨j, hj, hjunits⟩
  rw [hi, hj]
  change decide ((i.val : Int) < j.val) = _
  rw [decide_eq_decide, Int.ofNat_lt, ← unitsOf_lt_iff, hiunits, hjunits,
    Nat.mul_lt_mul_right one_pos]

theorem max_ofNat {n m : Nat} (hn : IsExact n) (hm : IsExact m) :
    Number.max (Number.ofNat n) (Number.ofNat m) = Number.ofNat (Max.max n m) := by
  have hless := ofNat_lt hn hm
  rcases hn.finite with ⟨i, hi, _⟩
  rcases hm.finite with ⟨j, hj, _⟩
  have hmax : Number.max (Number.ofNat n) (Number.ofNat m) =
      if (Number.ofNat n).lt (Number.ofNat m) then Number.ofNat m else Number.ofNat n := by
    rw [hi, hj]
    unfold Number.max
    simp [isNaN, isNegative]
  rw [hmax, hless]
  by_cases h : n < m
  · rw [if_pos (decide_eq_true h), Nat.max_eq_right (Nat.le_of_lt h)]
  · rw [if_neg (by simpa using h), Nat.max_eq_left (Nat.not_lt.mp h)]

/-- A count other than zero. -/
def IsPositive (x : Number) : Prop :=
  exists n, 0 < n ∧ IsExact n ∧ x = Number.ofNat n

theorem isPositive_iff {x : Number} : x.IsPositive ↔ x.IsCount ∧ x.equals 0 = false := by
  constructor
  · rintro ⟨n, hpos, hexact, rfl⟩
    refine ⟨hexact.isCount, ?_⟩
    rcases hexact.finite with ⟨rank, hrank, hunits⟩
    have hsome : (rank.val : Int) ≠ 0 := by
      intro hzero
      rw [Int.natCast_eq_zero.mp hzero] at hunits
      exact Nat.ne_of_gt (Nat.mul_pos hpos one_pos) hunits.symm
    rw [hrank]
    unfold equals
    rw [place?_zero]
    exact decide_eq_false hsome
  · rintro ⟨hcount, hsome⟩
    rcases hcount.cases with ⟨negative, rfl⟩ | hpositive
    · have hzero : (zero negative).equals 0 = true := by
        cases negative <;> decide +kernel
      rw [hzero] at hsome
      cases hsome
    · exact hpositive

theorem isCount_literal {n : Nat} (hn : n ≤ 2 ^ 53) : (OfNat.ofNat n : Number).IsCount := by
  rw [ofNat_literal]
  exact (isExact_of_le hn).isCount

theorem isPositive_literal {n : Nat} (hpos : 0 < n) (hn : n ≤ 2 ^ 53) :
    (OfNat.ofNat n : Number).IsPositive :=
  ⟨n, hpos, isExact_of_le hn, ofNat_literal n⟩

/-! ## Quotients of whole numbers -/

theorem rankOf_lt {n d : Nat} (hd : 0 < d) (hbound : n ≤ 2 ^ 53 * one) : rankOf n d < ranks := by
  obtain ⟨k, hk⟩ : exists k, k = 1074 := ⟨1074, rfl⟩
  rw [one_eq_pow hk] at hbound
  have hhigh : roundQuotient n (d * 2 ^ shiftOf n d) ≤ 2 ^ 53 :=
    roundQuotient_le (Nat.mul_pos hd (Nat.two_pow_pos _)) (Nat.le_of_lt (lt_pow_shiftOf n hd))
  have hshift : shiftOf n d ≤ k + 1 := by
    rcases Nat.eq_zero_or_pos (shiftOf n d) with hnone | hsome
    · omega
    · refine (Nat.pow_le_pow_iff_right Nat.one_lt_two).mp ?_
      refine Nat.le_of_mul_le_mul_right (c := 2 ^ 52) ?_ (Nat.two_pow_pos 52)
      calc 2 ^ shiftOf n d * 2 ^ 52 ≤ d * 2 ^ shiftOf n d * 2 ^ 52 :=
            Nat.mul_le_mul_right _ (Nat.le_mul_of_pos_left _ hd)
        _ ≤ n := pow_shiftOf_le hsome
        _ ≤ 2 ^ 53 * 2 ^ k := hbound
        _ = 2 ^ (k + 1) * 2 ^ 52 := by
            rw [← Nat.pow_add, ← Nat.pow_add]
            congr 1
            omega
  have hrank : rankOf n d = shiftOf n d * 2 ^ 52 + roundQuotient n (d * 2 ^ shiftOf n d) := rfl
  unfold ranks
  simp only [Nat.pow_eq]
  omega

theorem shiftOf_le {n m k : Nat} (hm : 2 ≤ m) (hn : n ≤ 2 ^ 53) : shiftOf (n * 2 ^ k) m ≤ k := by
  rcases Nat.eq_zero_or_pos (shiftOf (n * 2 ^ k) m) with hnone | hsome
  · omega
  · refine (Nat.pow_le_pow_iff_right Nat.one_lt_two).mp ?_
    refine Nat.le_of_mul_le_mul_left (c := 2 ^ 53) ?_ (Nat.two_pow_pos 53)
    calc 2 ^ 53 * 2 ^ shiftOf (n * 2 ^ k) m = 2 * 2 ^ shiftOf (n * 2 ^ k) m * 2 ^ 52 :=
          Nat.mul_right_comm 2 (2 ^ 52) _
      _ ≤ m * 2 ^ shiftOf (n * 2 ^ k) m * 2 ^ 52 :=
          Nat.mul_le_mul_right _ (Nat.mul_le_mul_right _ hm)
      _ ≤ n * 2 ^ k := pow_shiftOf_le hsome
      _ ≤ 2 ^ 53 * 2 ^ k := Nat.mul_le_mul_right _ hn

theorem quotient_le {n m c : Nat} (hm : 2 ≤ m) (hn : n ≤ 2 ^ 53) (habove : n ≤ c * m) :
    unitsOf (rankOf (n * one) m) ≤ c * one := by
  obtain ⟨k, hk⟩ : exists k, k = 1074 := ⟨1074, rfl⟩
  have hpos : 0 < m := by omega
  have hshift := shiftOf_le (k := k) hm hn
  rw [unitsOf_rankOf _ hpos, one_eq_pow hk]
  generalize shiftOf (n * 2 ^ k) m = shift at hshift ⊢
  have hwhole : c * 2 ^ k = c * 2 ^ (k - shift) * 2 ^ shift := by
    rw [Nat.mul_assoc, ← Nat.pow_add, Nat.sub_add_cancel hshift]
  rw [hwhole]
  refine Nat.mul_le_mul_right _ (roundQuotient_le (Nat.mul_pos hpos (Nat.two_pow_pos _)) ?_)
  calc n * 2 ^ k ≤ c * m * 2 ^ k := Nat.mul_le_mul_right _ habove
    _ = c * 2 ^ (k - shift) * (m * 2 ^ shift) := by
        rw [Nat.mul_right_comm, hwhole, Nat.mul_assoc, Nat.mul_comm (2 ^ shift)]

/-- A quotient above a whole number is not rounded down to it: up to `2 ^ 53`, numbers that are that
close to a whole number can be told from it. -/
theorem lt_quotient {n m c : Nat} (hm : 2 ≤ m) (hnle : n ≤ 2 ^ 53) (hmle : m ≤ 2 ^ 53)
    (hbelow : c * m < n) : c * one < unitsOf (rankOf (n * one) m) := by
  obtain ⟨k, hk⟩ : exists k, k = 1074 := ⟨1074, rfl⟩
  have hpos : 0 < m := by omega
  have hunit : 0 < 2 ^ k := Nat.two_pow_pos k
  rw [unitsOf_rankOf _ hpos, one_eq_pow hk]
  have hshift := shiftOf_le (k := k) hm hnle
  have hfits := fun hsome => pow_shiftOf_le (n := n * 2 ^ k) (d := m) hsome
  generalize shiftOf (n * 2 ^ k) m = shift at hshift hfits ⊢
  have hnear := (roundQuotient_near (n * 2 ^ k) (Nat.mul_pos hpos (Nat.two_pow_pos shift))).1
  generalize roundQuotient (n * 2 ^ k) (m * 2 ^ shift) = q at hnear ⊢
  refine Nat.not_le.mp fun hdown => ?_
  have hscaled : q * (m * 2 ^ shift) ≤ c * m * 2 ^ k := by
    calc q * (m * 2 ^ shift) = q * 2 ^ shift * m := by rw [Nat.mul_comm m, Nat.mul_assoc]
      _ ≤ c * 2 ^ k * m := Nat.mul_le_mul_right m hdown
      _ = c * m * 2 ^ k := Nat.mul_right_comm _ _ _
  have hmore : c * m * 2 ^ k + 2 ^ k ≤ n * 2 ^ k := by
    rw [← Nat.succ_mul]
    exact Nat.mul_le_mul_right _ hbelow
  have hwide : 2 * 2 ^ k ≤ m * 2 ^ shift := by omega
  have hsome : 0 < shift := by
    refine Nat.pos_of_ne_zero ?_
    rintro rfl
    have hlarge : 2 ^ 53 ≤ 2 ^ k := Nat.pow_le_pow_right Nat.two_pos (by omega)
    omega
  have hfit := hfits hsome
  have hlimit : n * 2 ^ k ≤ 2 ^ 53 * 2 ^ k := Nat.mul_le_mul_right _ hnle
  have hequal : m * 2 ^ shift = 2 * 2 ^ k := by omega
  -- Only `2 ^ 53` itself is left, over a power of two, and it is not one more than a multiple.
  have hn : n = 2 ^ 53 := Nat.eq_of_mul_eq_mul_right hunit (by omega)
  have hodd : n = c * m + 1 := Nat.eq_of_mul_eq_mul_right hunit (by rw [Nat.succ_mul]; omega)
  have heven : m = 2 ^ (k - shift) * 2 := by
    refine Nat.eq_of_mul_eq_mul_right (Nat.two_pow_pos shift) ?_
    rw [hequal, Nat.mul_right_comm, ← Nat.pow_add, Nat.sub_add_cancel hshift, Nat.mul_comm]
  rw [heven, ← Nat.mul_assoc] at hodd
  omega

theorem ceil_finite {rank : Fin ranks} {c : Nat} (hbelow : c * one < unitsOf rank)
    (habove : unitsOf rank ≤ (c + 1) * one) :
    (Number.finite false rank).ceil = Number.ofNat (c + 1) := by
  have hpos : (0 : Int) < (one : Int) := Int.natCast_pos.mpr one_pos
  have hbelow' : ((c : Int)) * one < unitsOf rank := by
    rw [← Int.natCast_mul]
    exact Int.ofNat_lt.mpr hbelow
  have habove' : (unitsOf rank : Int) ≤ ((c : Int) + 1) * one := by
    rw [← Int.natCast_succ, ← Int.natCast_mul]
    exact Int.ofNat_le.mpr habove
  have hquotient : -(unitsOf rank : Int) / (one : Int) = -((c : Int) + 1) := by
    refine Int.le_antisymm (Int.le_of_lt_add_one (Int.ediv_lt_of_lt_mul hpos ?_))
      (Int.le_ediv_of_mul_le hpos ?_)
    · rw [Int.neg_add, Int.neg_add_cancel_right, Int.neg_mul]
      omega
    · rw [Int.neg_mul]
      omega
  change ofUnits false (-(-(unitsOf rank : Int) / (one : Int)) * one) = _
  rw [hquotient, Int.neg_neg, ← Int.natCast_succ, ← Int.natCast_mul, ofUnits_natCast]
  rfl

theorem ceil_ofNat {n : Nat} (hn : IsExact n) : (Number.ofNat n).ceil = Number.ofNat n := by
  rcases hn.finite with ⟨rank, hrank, hunits⟩
  have hone : (one : Int) ≠ 0 := Int.natCast_ne_zero.mpr (Nat.ne_of_gt one_pos)
  rw [hrank]
  change ofUnits false (-(-(unitsOf rank : Int) / (one : Int)) * one) = _
  rw [hunits, Int.natCast_mul, ← Int.neg_mul, Int.mul_ediv_cancel _ hone, Int.neg_neg,
    ← Int.natCast_mul, ofUnits_natCast, ← hrank]
  rfl

theorem ceil_div {n m : Nat} (hm : 0 < m) (hnle : n ≤ 2 ^ 53) (hmle : m ≤ 2 ^ 53) :
    ((Number.ofNat n).div (Number.ofNat m)).ceil = Number.ofNat (n ⌈/⌉ m) := by
  rw [ofNat_div (isExact_of_le hnle) (isExact_of_le hmle) hm]
  rcases Nat.eq_zero_or_pos n with rfl | hpos
  · have hround : round false (0 * one) m = Number.ofNat 0 :=
      round_eq_of_cross false hm Nat.one_pos (by rw [Nat.zero_mul, Nat.zero_mul, Nat.zero_mul])
    rw [hround, zero_ceilDiv, ceil_ofNat isExact_zero]
  have hceil : n ⌈/⌉ m = (n - 1) / m + 1 := by
    rw [Nat.ceilDiv_eq_add_pred_div, ← Nat.add_div_right _ hm]
    congr 1
    omega
  rcases Nat.lt_or_ge m 2 with hsingle | hmany
  · obtain rfl : m = 1 := by omega
    rw [hceil, Nat.div_one, Nat.sub_add_cancel hpos]
    exact ceil_ofNat (isExact_of_le hnle)
  · have hrank : rankOf (n * one) m < ranks := rankOf_lt hm (Nat.mul_le_mul_right _ hnle)
    have hround : round false (n * one) m = .finite false ⟨rankOf (n * one) m, hrank⟩ :=
      dif_pos hrank
    have hbelow : (n - 1) / m * m < n := by
      have := Nat.div_mul_le_self (n - 1) m
      omega
    have habove : n ≤ ((n - 1) / m + 1) * m := by
      have := Nat.lt_div_mul_add (a := n - 1) hm
      rw [Nat.succ_mul]
      omega
    rw [hround, hceil]
    exact ceil_finite (lt_quotient hmany hnle hmle hbelow) (quotient_le hmany hnle habove)

end Number

end OperatorConsole
