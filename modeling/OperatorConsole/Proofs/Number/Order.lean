import OperatorConsole.Number.Basic

/-!
# Order of numbers

Numbers other than NaN are ordered by their places; NaN is related to nothing.
-/

namespace OperatorConsole

namespace Number

theorem round_not_nan (negative : Bool) (numerator denominator : Nat) :
    (round negative numerator denominator).isNaN = false := by
  unfold round ofRank
  split
  · rfl
  · rfl

theorem ofNat_not_nan (n : Nat) : (OfNat.ofNat n : Number).isNaN = false :=
  round_not_nan false (n * one) 1

theorem place?_eq_none_iff {x : Number} : x.place? = none ↔ x.isNaN = true := by
  cases x with
  | nan => simp [place?, isNaN]
  | infinity negative => cases negative <;> simp [place?, isNaN]
  | finite negative rank => cases negative <;> simp [place?, isNaN]

theorem place?_of_not_nan {x : Number} (hx : x.isNaN = false) : exists a, x.place? = some a := by
  cases hplace : x.place? with
  | some a => exact ⟨a, rfl⟩
  | none =>
      rw [place?_eq_none_iff.mp hplace] at hx
      cases hx

theorem lt_iff {x y : Number} :
    x.lt y = true ↔ exists a b, x.place? = some a ∧ y.place? = some b ∧ a < b := by
  unfold lt
  cases x.place? with
  | none => simp
  | some a =>
      cases y.place? with
      | none => simp
      | some b => simp

theorem le_iff {x y : Number} :
    x.le y = true ↔ exists a b, x.place? = some a ∧ y.place? = some b ∧ a ≤ b := by
  unfold le
  cases x.place? with
  | none => simp
  | some a =>
      cases y.place? with
      | none => simp
      | some b => simp

theorem le_self {x : Number} (hx : x.isNaN = false) : x.le x = true := by
  rcases place?_of_not_nan hx with ⟨a, ha⟩
  exact le_iff.mpr ⟨a, a, ha, ha, Int.le_refl a⟩

theorem lt_of_lt_of_le {x y z : Number} (hxy : x.lt y = true) (hyz : y.le z = true) :
    x.lt z = true := by
  rcases lt_iff.mp hxy with ⟨a, b, ha, hb, hab⟩
  rcases le_iff.mp hyz with ⟨b', c, hb', hc, hbc⟩
  rw [hb] at hb'
  cases hb'
  exact lt_iff.mpr ⟨a, c, ha, hc, Int.lt_of_lt_of_le hab hbc⟩

theorem not_lt_of_le {x y : Number} (hyx : y.le x = true) : x.lt y = false := by
  rw [Bool.eq_false_iff]
  intro hxy
  rcases lt_iff.mp (lt_of_lt_of_le hxy hyx) with ⟨a, b, ha, hb, hab⟩
  rw [ha] at hb
  cases hb
  exact Int.lt_irrefl a hab

theorem le_eq_not_lt {x y : Number} (hx : x.isNaN = false) (hy : y.isNaN = false) :
    y.le x = !x.lt y := by
  rcases place?_of_not_nan hx with ⟨a, ha⟩
  rcases place?_of_not_nan hy with ⟨b, hb⟩
  unfold le lt
  rw [ha, hb]
  by_cases hab : a < b
  · simp [hab, Int.not_le.mpr hab]
  · simp [hab, Int.not_lt.mp hab]

end Number

end OperatorConsole
