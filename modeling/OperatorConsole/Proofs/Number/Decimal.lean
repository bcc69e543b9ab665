import Mathlib.Data.List.Basic
import OperatorConsole.Proofs.Number.Notation
import OperatorConsole.Proofs.Number.Rounding
import OperatorConsole.Scalar

/-!
# Decimal text reads back

The text of a number is read back as that number; only the sign of a negative zero is lost.

A number is written from a decimal that reads back, and a layout only moves the point of
its digits: it adds zeros behind them or an exponent.  A decimal with zeros added and its
exponent lowered as far has the same value.
-/

namespace OperatorConsole

namespace Decimal

/-! ## Digits -/

theorem naturalOf_toDigits (n : Nat) : naturalOf (Nat.toDigits 10 n) = n :=
  Nat.ofDigitChars_ten_toDigits

theorem naturalOf_append_zeros (digits : List Char) (k : Nat) :
    naturalOf (digits ++ List.replicate k '0') = naturalOf digits * 10 ^ k := by
  change Nat.ofDigitChars 10 (digits ++ List.replicate k '0') 0 = Nat.ofDigitChars 10 digits 0 * _
  rw [Nat.ofDigitChars_append, Nat.ofDigitChars_replicate_zero, Nat.mul_comm]

theorem naturalOf_zeros_append (k : Nat) (digits : List Char) :
    naturalOf (List.replicate k '0' ++ digits) = naturalOf digits := by
  change Nat.ofDigitChars 10 (List.replicate k '0' ++ digits) 0 = Nat.ofDigitChars 10 digits 0
  rw [Nat.ofDigitChars_append, Nat.ofDigitChars_replicate_zero, Nat.mul_zero]

theorem width_mul_pow {n : Nat} (hn : 0 < n) (k : Nat) : width (n * 10 ^ k) = width n + k := by
  induction k with
  | zero => simp
  | succ k ih =>
      have hdigits := Nat.toDigits_append_toDigits (b := 10) (n := n * 10 ^ k) (d := 0)
        (by decide) (Nat.mul_pos hn (Nat.pow_pos (by decide))) (by decide)
      have hnext : n * 10 ^ (k + 1) = 10 * (n * 10 ^ k) + 0 := by
        rw [Nat.pow_succ, ← Nat.mul_assoc, Nat.mul_comm (n * 10 ^ k) 10, Nat.add_zero]
      unfold width at ih ⊢
      rw [hnext, ← hdigits, List.length_append, ih]
      rfl

/-! ## Values -/

/-- Zeros behind the digits make up for an exponent that is lower. -/
theorem toNumber_scale (negative : Bool) {n : Nat} (hn : 0 < n) (e : Int) (k : Nat) :
    toNumber ⟨negative, n * 10 ^ k, e - k⟩ = toNumber ⟨negative, n, e⟩ := by
  have hpow : 0 < 10 ^ k := Nat.pow_pos (by decide)
  have hzero : n * 10 ^ k ≠ 0 := Nat.ne_of_gt (Nat.mul_pos hn hpow)
  have hscale : e - k + ((width n + k : Nat) : Int) = e + width n := by omega
  unfold toNumber
  simp only [width_mul_pow hn, hscale, if_neg hzero, if_neg (Nat.ne_of_gt hn)]
  have hround : Number.round negative
        (n * 10 ^ k * Number.one * Nat.pow 10 (e - k).toNat) (Nat.pow 10 (-(e - k)).toNat) =
      Number.round negative (n * Number.one * Nat.pow 10 e.toNat) (Nat.pow 10 (-e).toNat) := by
    refine Number.round_eq_of_cross negative (Nat.pow_pos (by decide)) (Nat.pow_pos (by decide)) ?_
    have hexponents : k + (e - k).toNat + (-e).toNat = e.toNat + (-(e - k)).toNat := by omega
    generalize Number.one = unit
    calc n * 10 ^ k * unit * 10 ^ (e - k).toNat * 10 ^ (-e).toNat
        = n * unit * 10 ^ (k + (e - k).toNat + (-e).toNat) := by
          rw [Nat.pow_add, Nat.pow_add]
          ac_rfl
      _ = n * unit * 10 ^ e.toNat * 10 ^ (-(e - k)).toNat := by
          rw [hexponents, Nat.pow_add]
          ac_rfl
  rw [hround]

theorem toNumber_negative (n : Nat) (e : Int) :
    toNumber ⟨true, n, e⟩ = (toNumber ⟨false, n, e⟩).neg := by
  have hround : forall a b : Nat, Number.round true a b = (Number.round false a b).neg :=
    fun a b => (Number.neg_ofRank (Number.rankOf a b)).symm
  unfold toNumber
  simp only
  split
  · rfl
  · split
    · rfl
    · split
      · rfl
      · exact hround _ _

/-! ## Digits with a point and a mark -/

theorem isDigit_toDigits (n : Nat) : forall c, c ∈ Nat.toDigits 10 n -> c.isDigit = true :=
  fun _ hc => Nat.isDigit_of_mem_toDigits (by decide) (by decide) hc

theorem isDigit_zeros (n : Nat) : forall c, c ∈ List.replicate n '0' -> c.isDigit = true := by
  intro c hc
  rw [List.eq_of_mem_replicate hc]
  rfl

theorem isDigit_append {front back : List Char}
    (hfront : forall c, c ∈ front -> c.isDigit = true)
    (hback : forall c, c ∈ back -> c.isDigit = true) :
    forall c, c ∈ front ++ back -> c.isDigit = true := by
  intro c hc
  rcases List.mem_append.mp hc with hc | hc
  · exact hfront c hc
  · exact hback c hc

def mark (exponent : Int) : List Char :=
  'e' :: (if exponent < 0 then '-' else '+') :: Nat.toDigits 10 exponent.natAbs

theorem mark_spells (exponent : Int) : SpellsExponent (mark exponent) exponent := by
  have hsigned : signed (decide (exponent < 0)) (naturalOf (Nat.toDigits 10 exponent.natAbs)) =
      exponent := by
    unfold signed
    rw [naturalOf_toDigits]
    simp only [decide_eq_true_eq]
    omega
  have hsign : SpellsSign [if exponent < 0 then '-' else '+'] (decide (exponent < 0)) := by
    by_cases hneg : exponent < 0
    · rw [if_pos hneg, decide_eq_true hneg]
      exact .minus
    · rw [if_neg hneg, decide_eq_false hneg]
      exact .plus
  have hmark := SpellsExponent.digits (Or.inl rfl) hsign (isDigit_toDigits exponent.natAbs)
    Nat.toDigits_ne_nil
  rwa [hsigned] at hmark

section Layouts

variable {whole fraction : List Char}
  (hwhole : forall c, c ∈ whole -> c.isDigit = true) (hsome : whole ≠ [])

include hwhole hsome

theorem spells_digits : SpellsUnsigned false whole ⟨false, naturalOf whole, 0⟩ := by
  have hspells := @SpellsUnsigned.number false _ _ _ _ _ hwhole .none .none (Or.inl hsome)
  simpa using hspells

theorem spells_fraction (hfraction : forall c, c ∈ fraction -> c.isDigit = true)
    (hpoint : fraction ≠ []) :
    SpellsUnsigned false (whole ++ '.' :: fraction)
      ⟨false, naturalOf (whole ++ fraction), -(fraction.length : Int)⟩ := by
  have hspells := @SpellsUnsigned.number false _ _ _ _ _ hwhole
    (.digits hfraction (Or.inr hpoint)) .none (Or.inl hsome)
  simpa using hspells

theorem spells_scientific (hfraction : forall c, c ∈ fraction -> c.isDigit = true)
    (exponent : Int) :
    SpellsUnsigned false
      (whole ++ ((if fraction = [] then [] else '.' :: fraction) ++ mark exponent))
      ⟨false, naturalOf (whole ++ fraction), exponent - fraction.length⟩ := by
  have hpoint : SpellsFraction (false && !whole.isEmpty)
      (if fraction = [] then [] else '.' :: fraction) fraction := by
    by_cases hnone : fraction = []
    · rw [if_pos hnone, hnone]
      exact .none
    · rw [if_neg hnone]
      exact .digits hfraction (Or.inr hnone)
  exact .number hwhole hpoint (mark_spells exponent) (Or.inl hsome)

end Layouts

theorem ofText?_base {c : Char} (hc : c ∈ ['x', 'X', 'o', 'O', 'b', 'B']) (rest : List Char) :
    ofText? ('0' :: c :: rest) = none := by
  have hscan : scanUnsigned true ('0' :: c :: rest) = some (⟨false, 0, 0⟩, c :: rest) := by
    simp only [List.mem_cons, List.not_mem_nil, or_false] at hc
    rcases hc with rfl | rfl | rfl | rfl | rfl | rfl <;> rfl
  have hsign : scanSign ('0' :: c :: rest) = (false, '0' :: c :: rest) := rfl
  unfold ofText?
  simp only [hsign, hscan]

end Decimal

namespace Number

/-! ## Layout -/

theorem layout_whole {digits : List Char} {point : Int}
    (hwhole : (digits.length : Int) ≤ point ∧ point ≤ 21) :
    layout digits point = digits ++ List.replicate (point - digits.length).toNat '0' := by
  simp [layout, hwhole]

theorem layout_inside {digits : List Char} {point : Int}
    (hinside : 0 < point ∧ point < digits.length ∧ point ≤ 21) :
    layout digits point = digits.take point.toNat ++ '.' :: digits.drop point.toNat := by
  simp [layout, hinside, Int.not_le.mpr hinside.2.1]

theorem layout_before {digits : List Char} {point : Int} (hsome : digits ≠ [])
    (hbefore : -6 < point ∧ point ≤ 0) :
    layout digits point =
      List.replicate 1 '0' ++ '.' :: (List.replicate (-point).toNat '0' ++ digits) := by
  have hlength := List.length_pos_iff.mpr hsome
  have hwhole : ¬(digits.length : Int) ≤ point := by omega
  simp [layout, hbefore, hwhole, Int.not_lt.mpr hbefore.2]

theorem layout_scientific {d : Char} {rest : List Char} {point : Int}
    (hlong : 21 < point ∨ point ≤ -6) :
    layout (d :: rest) point =
      [d] ++ ((if rest = [] then [] else '.' :: rest) ++ Decimal.mark (point - 1)) := by
  have hwhole : (((d :: rest).length : Int) ≤ point && point ≤ 21) = false := by
    simp only [List.length_cons, Bool.and_eq_false_iff, decide_eq_false_iff_not]
    omega
  have hinside : ((0 : Int) < point && point ≤ 21) = false := by
    simp only [Bool.and_eq_false_iff, decide_eq_false_iff_not]
    omega
  have hbefore : ((-6 : Int) < point && point ≤ 0) = false := by
    simp only [Bool.and_eq_false_iff, decide_eq_false_iff_not]
    omega
  unfold layout
  simp only [hwhole, hinside, hbefore, Bool.false_eq_true, if_false]
  cases rest with
  | nil => rfl
  | cons c rest => simp [Decimal.mark]

theorem layout_spells {digits : List Char} (point : Int)
    (hdigits : forall c, c ∈ digits -> c.isDigit = true) (hsome : digits ≠ []) :
    exists k : Nat, Decimal.SpellsUnsigned false (layout digits point)
      ⟨false, Decimal.naturalOf digits * 10 ^ k, point - digits.length - k⟩ := by
  by_cases hwhole : (digits.length : Int) ≤ point ∧ point ≤ 21
  · have hspells := Decimal.spells_digits (Decimal.isDigit_append hdigits
      (Decimal.isDigit_zeros (point - digits.length).toNat)) (by simp [hsome])
    have hexponent : point - digits.length - (point - digits.length).toNat = 0 := by omega
    exists (point - digits.length).toNat
    rw [Decimal.naturalOf_append_zeros] at hspells
    rwa [layout_whole hwhole, hexponent]
  -- From here on the layout adds no zeros behind the digits.
  refine ⟨0, ?_⟩
  rw [Nat.pow_zero, Nat.mul_one, Int.natCast_zero, Int.sub_zero]
  by_cases hinside : 0 < point ∧ point ≤ 21
  · have hlength : point < digits.length := by omega
    have hexponent : -((digits.drop point.toNat).length : Int) = point - digits.length := by
      rw [List.length_drop]
      omega
    have hfront : digits.take point.toNat ≠ [] := by
      rw [Ne, List.take_eq_nil_iff, not_or]
      exact ⟨by omega, hsome⟩
    have hback : digits.drop point.toNat ≠ [] := by
      rw [Ne, List.drop_eq_nil_iff]
      omega
    have hspells := Decimal.spells_fraction
      (fun c hc => hdigits c (List.mem_of_mem_take hc)) hfront
      (fun c hc => hdigits c (List.mem_of_mem_drop hc)) hback
    rw [List.take_append_drop, hexponent] at hspells
    rwa [layout_inside ⟨hinside.1, hlength, hinside.2⟩]
  by_cases hbefore : -6 < point ∧ point ≤ 0
  · have hexponent : -((List.replicate (-point).toNat '0' ++ digits).length : Int) =
        point - digits.length := by
      rw [List.length_append, List.length_replicate]
      omega
    have hspells := Decimal.spells_fraction (Decimal.isDigit_zeros 1) (by simp)
      (Decimal.isDigit_append (Decimal.isDigit_zeros (-point).toNat) hdigits) (by simp [hsome])
    rw [Decimal.naturalOf_zeros_append, Decimal.naturalOf_zeros_append, hexponent] at hspells
    rwa [layout_before hsome hbefore]
  · rcases List.exists_cons_of_ne_nil hsome with ⟨d, rest, rfl⟩
    have hd : forall c, c ∈ [d] -> c.isDigit = true := by
      intro c hc
      exact hdigits c (List.mem_singleton.mp hc ▸ List.mem_cons_self)
    have hexponent : point - 1 - (rest.length : Int) = point - (d :: rest).length := by
      rw [List.length_cons]
      omega
    have hspells := Decimal.spells_scientific hd (by simp)
      (fun c hc => hdigits c (List.mem_cons_of_mem _ hc)) (point - 1)
    rw [hexponent] at hspells
    rwa [layout_scientific (by omega)]

theorem layout_startsPlain {digits : List Char} (point : Int)
    (hdigits : forall c, c ∈ digits -> c.isDigit = true) (hsome : digits ≠ [])
    (hhead : digits.head? ≠ some '0') : Decimal.StartsPlain (layout digits point) := by
  rcases List.exists_cons_of_ne_nil hsome with ⟨d, rest, rfl⟩
  have hplain : forall text, Decimal.StartsPlain (d :: text) := by
    intro text
    refine ⟨d, text, rfl, hdigits d List.mem_cons_self, ?_⟩
    rintro rfl
    exact absurd rfl hhead
  by_cases hwhole : ((d :: rest).length : Int) ≤ point ∧ point ≤ 21
  · rw [layout_whole hwhole]
    exact hplain _
  by_cases hinside : 0 < point ∧ point ≤ 21
  · have htake : (d :: rest).take point.toNat = d :: rest.take (point.toNat - 1) :=
      List.take_cons (by omega)
    rw [layout_inside ⟨hinside.1, by omega, hinside.2⟩, htake]
    exact hplain _
  by_cases hbefore : -6 < point ∧ point ≤ 0
  · rw [layout_before hsome hbefore]
    refine ⟨'0', _, rfl, rfl, ?_⟩
    intro _ c hc
    cases hc
    rfl
  · rw [layout_scientific (by omega)]
    exact hplain _

/-! ## The shortest decimal -/

/-- Tenths of units that are written with so many powers of five. -/
theorem toNumber_tenths {u five k : Nat} (hten : five * one = Nat.pow 10 k) (hsome : 0 < u * five)
    (hnear : ¬-(k : Int) + Decimal.width (u * five) < -400)
    (hfar : ¬400 < -(k : Int) + Decimal.width (u * five)) :
    (Decimal.mk false (u * five) (-(k : Int))).toNumber = round false (u * 1) 1 := by
  have hup : (-(k : Int)).toNat = 0 := by omega
  have hdown : (- -(k : Int)).toNat = k := by omega
  unfold Decimal.toNumber
  simp only [if_neg (Nat.ne_of_gt hsome), if_neg hnear, if_neg hfar, hup, hdown]
  refine round_eq_of_cross false (Nat.pow_pos (by decide)) Nat.one_pos ?_
  rw [← hten]
  generalize one = unit
  simp [Nat.mul_assoc]

theorem exactDecimal_eq (rank : Nat) :
    exists five k : Nat, exactDecimal rank = ⟨false, unitsOf rank * five, -(k : Int)⟩ ∧
      k = 1074 ∧ five * one = Nat.pow 10 k ∧
      10 ^ 673 ≤ five ∧ 2 ^ 52 * 2 ^ 2046 * five ≤ 10 ^ 1474 :=
  ⟨Nat.pow 5 1074, 1074, Eq.refl _, rfl, by decide +kernel, by decide +kernel, by decide +kernel⟩

theorem exactDecimal_toNumber {rank : Nat} (hpos : 0 < rank) (hrank : rank < ranks) :
    (exactDecimal rank).toNumber = ofRank false rank := by
  rcases exactDecimal_eq rank with ⟨five, k, hexact, hk, hten, hlow, hhigh⟩
  have hsome : 0 < five := Nat.lt_of_lt_of_le (Nat.pow_pos (by decide)) hlow
  have hunits : unitsOf rank < 2 ^ 52 * 2 ^ 2046 := unitsOf_lt (e := 2046) hrank
  have hwidth : forall k, 0 < k ->
      (Decimal.width (unitsOf rank * five) ≤ k ↔ unitsOf rank * five < 10 ^ k) :=
    fun k hk => Nat.length_toDigits_le_iff (by decide) hk
  have hlong : ¬Decimal.width (unitsOf rank * five) ≤ 673 := by
    rw [hwidth 673 (by decide)]
    exact Nat.not_lt.mpr (Nat.le_trans hlow (Nat.le_mul_of_pos_left five (unitsOf_pos hpos)))
  have hshort : Decimal.width (unitsOf rank * five) ≤ 1474 := by
    rw [hwidth 1474 (by decide)]
    exact Nat.lt_of_lt_of_le (Nat.mul_lt_mul_of_pos_right hunits hsome) hhigh
  rw [hexact, ← round_unitsOf false rank Nat.one_pos]
  exact toNumber_tenths hten (Nat.mul_pos (unitsOf_pos hpos) hsome) (by omega) (by omega)

theorem nearer?_eq_some {units : Nat} {low high d : Decimal} {lowReads highReads : Bool}
    (hd : nearer? units low high lowReads highReads = some d) :
    (d = low ∧ lowReads = true) ∨ (d = high ∧ highReads = true) := by
  unfold nearer? at hd
  grind

theorem withDigits?_toNumber {rank count : Nat} {d : Decimal}
    (hd : withDigits? rank count = some d) :
    d.negative = false ∧ d.toNumber = ofRank false rank := by
  rcases nearer?_eq_some hd with ⟨rfl, hreads⟩ | ⟨rfl, hreads⟩
  · exact ⟨rfl, eq_of_beq hreads⟩
  · exact ⟨rfl, eq_of_beq hreads⟩

theorem shortest_toNumber {rank : Nat} (hpos : 0 < rank) (hrank : rank < ranks) :
    (shortest rank).negative = false ∧ (shortest rank).toNumber = ofRank false rank := by
  unfold shortest
  cases hfound : (List.range' 1 17).findSome? (withDigits? rank) with
  | none => exact ⟨rfl, exactDecimal_toNumber hpos hrank⟩
  | some d =>
      rcases List.exists_of_findSome?_eq_some hfound with ⟨count, _, hd⟩
      exact withDigits?_toNumber hd

theorem stripZeros_append (digits : List Char) :
    exists k, digits = stripZeros digits ++ List.replicate k '0' := by
  refine ⟨(digits.reverse.takeWhile (· == '0')).length, ?_⟩
  have hzeros : digits.reverse.takeWhile (· == '0') =
      List.replicate (digits.reverse.takeWhile (· == '0')).length '0' := by
    refine List.eq_replicate_of_mem fun c hc => ?_
    exact eq_of_beq (List.all_eq_true.mp List.all_takeWhile c hc)
  have hsplit : digits.reverse.takeWhile (· == '0') ++ digits.reverse.dropWhile (· == '0') =
      digits.reverse := List.takeWhile_append_dropWhile
  rw [hzeros] at hsplit
  have hreverse := congrArg List.reverse hsplit
  rw [List.reverse_append, List.reverse_reverse, List.reverse_replicate] at hreverse
  exact hreverse.symm

theorem digits_pos_of_toNumber {d : Decimal} {rank : Nat} (hpos : 0 < rank)
    (hrank : rank < ranks) (hd : d.toNumber = ofRank false rank) : 0 < d.digits := by
  rcases Nat.eq_zero_or_pos d.digits with hzero | hsome
  · have hnone : d.toNumber = .zero d.negative := by simp [Decimal.toNumber, hzero]
    have hplace := congrArg place? (hnone.symm.trans hd)
    rw [place?_ofRank hrank] at hplace
    cases hnegative : d.negative <;> simp [zero, place?, hnegative] at hplace <;> omega
  · exact hsome

theorem head_toDigits {n : Nat} (hn : 0 < n) : (Nat.toDigits 10 n).head? ≠ some '0' := by
  have hdigit : forall k, k < 10 -> 0 < k -> Nat.digitChar k ≠ '0' := by decide
  induction n using Nat.strongRecOn with
  | ind n ih =>
      by_cases hlast : n < 10
      · rw [Nat.toDigits_of_lt_base hlast]
        intro hzero
        exact hdigit n hlast hn (Option.some.inj hzero)
      · have hfront : 0 < n / 10 := Nat.div_pos (Nat.not_lt.mp hlast) (by decide)
        rw [Nat.toDigits_of_base_le (by decide) (Nat.not_lt.mp hlast),
          List.head?_append_of_ne_nil _ Nat.toDigits_ne_nil]
        exact ih (n / 10) (Nat.div_lt_self hn (by decide)) hfront

/-- The layout of the digits of a decimal, less the zeros at their end, writes a decimal of the
same value. -/
theorem layout_digits {n : Nat} (hn : 0 < n) (e : Int) :
    let text := layout (stripZeros (Nat.toDigits 10 n)) (e + (Nat.toDigits 10 n).length)
    Decimal.StartsPlain text ∧
      exists n' e', Decimal.SpellsUnsigned false text ⟨false, n', e'⟩ ∧
        forall negative,
          (Decimal.mk negative n' e').toNumber = (Decimal.mk negative n e).toNumber := by
  dsimp only
  rcases stripZeros_append (Nat.toDigits 10 n) with ⟨k, hzeros⟩
  have hhead := head_toDigits hn
  generalize stripZeros (Nat.toDigits 10 n) = digits at hzeros ⊢
  have hdigits : forall c, c ∈ digits -> c.isDigit = true := by
    intro c hc
    exact Decimal.isDigit_toDigits n c (hzeros ▸ List.mem_append_left _ hc)
  have hvalue : n = Decimal.naturalOf digits * 10 ^ k := by
    rw [← Decimal.naturalOf_append_zeros, ← hzeros, Decimal.naturalOf_toDigits]
  have hnatural : 0 < Decimal.naturalOf digits := Nat.pos_of_mul_pos_right (hvalue ▸ hn)
  have hsome : digits ≠ [] := by
    rintro rfl
    exact absurd hnatural (by decide)
  have hlength : (Nat.toDigits 10 n).length = digits.length + k := by
    rw [hzeros, List.length_append, List.length_replicate]
  rw [hzeros, List.head?_append_of_ne_nil _ hsome] at hhead
  refine ⟨layout_startsPlain _ hdigits hsome hhead, ?_⟩
  rcases layout_spells (e + (Nat.toDigits 10 n).length) hdigits hsome with ⟨j, hspells⟩
  refine ⟨_, _, hspells, fun negative => ?_⟩
  have hexponent : e + ((Nat.toDigits 10 n).length : Int) - digits.length = e + k := by omega
  have hback : e + (k : Int) - k = e := by omega
  calc (Decimal.mk negative (Decimal.naturalOf digits * 10 ^ j)
          (e + ((Nat.toDigits 10 n).length : Int) - digits.length - j)).toNumber
      = (Decimal.mk negative (Decimal.naturalOf digits) (e + k)).toNumber := by
        rw [hexponent, Decimal.toNumber_scale negative hnatural]
    _ = (Decimal.mk negative (Decimal.naturalOf digits * 10 ^ k) (e + k - k)).toNumber :=
        (Decimal.toNumber_scale negative hnatural (e + k) k).symm
    _ = (Decimal.mk negative n e).toNumber := by rw [hback, ← hvalue]

theorem magnitudeText_spells (negative : Bool) {rank : Nat} (hpos : 0 < rank)
    (hrank : rank < ranks) :
    exists d, Decimal.SpellsPlainly (Decimal.minus negative ++ magnitudeText rank) d ∧
      d.toNumber = ofRank negative rank := by
  rcases shortest_toNumber hpos hrank with ⟨hnegative, hshortest⟩
  have hsome := digits_pos_of_toNumber hpos hrank hshortest
  unfold magnitudeText
  generalize shortest rank = d at hnegative hshortest hsome ⊢
  rcases d with ⟨_, n, e⟩
  cases hnegative
  rcases layout_digits hsome e with ⟨hstart, n', e', hspells, hvalue⟩
  refine ⟨_, .signed hspells hstart, (hvalue negative).trans ?_⟩
  cases negative with
  | false => exact hshortest
  | true => rw [Decimal.toNumber_negative, hshortest, neg_ofRank]

/-! ## Whole texts -/

theorem readChars_of_ofText? {text : List Char} {d : Decimal}
    (hread : Decimal.ofText? text = some d) : readChars text = d.toNumber := by
  have hbase : forall {c : Char} {rest : List Char}, c ∈ ['x', 'X', 'o', 'O', 'b', 'B'] ->
      text ≠ '0' :: c :: rest := by
    rintro c rest hc rfl
    rw [Decimal.ofText?_base hc] at hread
    cases hread
  have hinfinity : text ≠ "Infinity".toList ∧ text ≠ "+Infinity".toList ∧
      text ≠ "-Infinity".toList := by
    refine ⟨?_, ?_, ?_⟩ <;> rintro rfl <;> cases hread
  unfold readChars
  split
  case h_1 => cases hread
  case h_2 => exact absurd rfl (hbase (by decide))
  case h_3 => exact absurd rfl (hbase (by decide))
  case h_4 => exact absurd rfl (hbase (by decide))
  case h_5 => exact absurd rfl (hbase (by decide))
  case h_6 => exact absurd rfl (hbase (by decide))
  case h_7 => exact absurd rfl (hbase (by decide))
  case h_8 =>
      have hpositive : ¬(text = "Infinity".toList || text = "+Infinity".toList) = true := by
        rw [Bool.or_eq_true, decide_eq_true_iff, decide_eq_true_iff]
        exact not_or.mpr ⟨hinfinity.1, hinfinity.2.1⟩
      rw [if_neg hpositive, if_neg hinfinity.2.2, hread]

-- Nothing here may be left to reduction, which would write out the shortest decimal.
theorem toChars_finite (negative : Bool) (rank : Fin ranks) :
    (finite negative rank).toChars =
      if rank.val = 0 then ['0'] else Decimal.minus negative ++ magnitudeText rank := by
  have hminus : forall text, Decimal.minus true ++ text = '-' :: text := fun _ => rfl
  have hplus : forall text, Decimal.minus false ++ text = text := fun _ => rfl
  by_cases hzero : rank.val = 0
  · rw [if_pos hzero]
    exact if_pos hzero
  · rw [if_neg hzero]
    cases negative with
    | true =>
        rw [hminus]
        exact (if_neg hzero).trans (if_pos rfl)
    | false =>
        rw [hplus]
        exact (if_neg hzero).trans (if_neg Bool.false_ne_true)

/-- The decimal that the text of a number writes; a zero loses its sign. -/
theorem toChars_spells (negative : Bool) (rank : Fin ranks) :
    exists d, Decimal.SpellsPlainly (finite negative rank).toChars d ∧
      d.toNumber = if rank.val = 0 then zero false else finite negative rank := by
  rw [toChars_finite]
  rcases Nat.eq_zero_or_pos rank.val with hzero | hpos
  · rw [if_pos hzero, if_pos hzero]
    exact ⟨_, Decimal.spellsPlainly_zero, rfl⟩
  · rw [if_neg (Nat.ne_of_gt hpos), if_neg (Nat.ne_of_gt hpos)]
    rcases magnitudeText_spells negative hpos rank.isLt with ⟨d, hspells, hvalue⟩
    refine ⟨d, hspells, hvalue.trans ?_⟩
    unfold ofRank
    rw [dif_pos rank.isLt]

theorem unsigned_zero {negative : Bool} {rank : Fin ranks}
    (hx : finite negative rank ≠ .zero true) :
    (if rank.val = 0 then zero false else finite negative rank) = finite negative rank := by
  split
  case isTrue hzero =>
    have hrank : rank = ⟨0, by decide⟩ := Fin.ext hzero
    subst hrank
    cases negative with
    | false => rfl
    | true => exact absurd rfl hx
  case isFalse => rfl

theorem ofText?_toChars (negative : Bool) (rank : Fin ranks) :
    exists d, Decimal.ofText? (finite negative rank).toChars = some d ∧
      d.toNumber = if rank.val = 0 then zero false else finite negative rank := by
  rcases toChars_spells negative rank with ⟨d, hspells, hvalue⟩
  exact ⟨d, Decimal.ofText?_eq_some_iff.mpr hspells.spells, hvalue⟩

theorem toChars_solid (negative : Bool) (rank : Fin ranks) :
    (finite negative rank).toChars ≠ [] ∧
      forall c, c ∈ (finite negative rank).toChars -> Text.isBlank c = false := by
  rcases toChars_spells negative rank with ⟨d, hspells, _⟩
  exact ⟨hspells.spells.ne_nil, hspells.spells.not_blank⟩

theorem trim_toText (negative : Bool) (rank : Fin ranks) :
    Text.trim (finite negative rank).toText.toList = (finite negative rank).toChars := by
  unfold toText
  rw [String.toList_ofList, Text.trim_solid (toChars_solid negative rank).2]

theorem numeric?_toText {x : Number} (hfinite : x.isFinite = true) (hx : x ≠ .zero true) :
    (Value.text x.toText).numeric? = some x := by
  cases x with
  | nan => cases hfinite
  | infinity negative => cases hfinite
  | finite negative rank =>
      rcases ofText?_toChars negative rank with ⟨d, hread, hvalue⟩
      have hback : d.toNumber = finite negative rank := hvalue.trans (unsigned_zero hx)
      have hnumeric : isNumericText (finite negative rank).toText = true := by
        unfold isNumericText
        simp only [trim_toText, hread, hback]
        rfl
      have htext : ofText (finite negative rank).toText = finite negative rank := by
        unfold ofText
        rw [trim_toText, readChars_of_ofText? hread, hback]
      unfold Value.numeric?
      simp only [hnumeric, if_true, htext]

theorem isBlankString_toText {x : Number} (hfinite : x.isFinite = true) :
    Text.isBlankString x.toText = false := by
  cases x with
  | nan => cases hfinite
  | infinity negative => cases hfinite
  | finite negative rank =>
      rcases toChars_solid negative rank with ⟨hsome, hsolid⟩
      rcases List.exists_cons_of_ne_nil hsome with ⟨c, rest, hchars⟩
      have hc := hsolid c (hchars ▸ List.mem_cons_self)
      unfold Text.isBlankString toText
      rw [String.toList_ofList, hchars, List.all_cons, hc, Bool.false_and]

end Number

end OperatorConsole
