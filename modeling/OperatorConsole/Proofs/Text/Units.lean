import OperatorConsole.Text.Basic

/-!
# Units of texts

The width of a text is the count of its 16-bit units, and the width of texts one behind the other
is the sum of their widths.
-/

namespace OperatorConsole

namespace Text

theorem unitWidth_pos (c : Char) : 0 < unitWidth c := by
  unfold unitWidth
  split
  · exact Nat.one_pos
  · exact Nat.two_pos

theorem width_append (text rest : List Char) : width (text ++ rest) = width text + width rest := by
  induction text with
  | nil => rw [List.nil_append, width, Nat.zero_add]
  | cons c text ih => rw [List.cons_append, width, width, ih, Nat.add_assoc]

theorem width_sub (text rest : List Char) : width (text ++ rest) - width rest = width text := by
  rw [width_append, Nat.add_sub_cancel]

/-! ## Units -/

theorem units_append (text rest : List Char) : units (text ++ rest) = units text ++ units rest :=
  List.flatMap_append

theorem length_unitsOf (c : Char) : (unitsOf c).length = unitWidth c := by
  unfold unitsOf unitWidth
  by_cases hbasic : c.toNat < 0x10000
  · simp [hbasic]
  · cases hhalf : isHalf c with
    | true => simp [hbasic]
    | false => simp [hbasic]

theorem length_units (text : List Char) : (units text).length = width text := by
  induction text with
  | nil => rfl
  | cons c rest ih =>
      rw [units, List.flatMap_cons, List.length_append, length_unitsOf, width]
      exact congrArg (unitWidth c + ·) ih

theorem units_cons_basic {c : Char} (hbasic : c.toNat < 0x10000) (rest : List Char) :
    units (c :: rest) = c.toNat :: units rest := by
  rw [units, List.flatMap_cons, unitsOf, if_pos hbasic]
  rfl

theorem width_cons_basic {c : Char} (hbasic : c.toNat < 0x10000) (rest : List Char) :
    width (c :: rest) = width rest + 1 := by
  rw [← length_units, units_cons_basic hbasic, List.length_cons, length_units]

/-! ## Filling up -/

theorem width_replicate {c : Char} (hbasic : c.toNat < 0x10000) (count : Nat) :
    width (List.replicate count c) = count := by
  induction count with
  | zero => rfl
  | succ count ih => rw [List.replicate_succ, width_cons_basic hbasic, ih]

theorem width_padRight {target : Nat} {text : List Char} (hfits : width text ≤ target) :
    width (padRight target text) = target := by
  rw [padRight, width_append, width_replicate (by decide), Nat.add_sub_cancel' hfits]

end Text

end OperatorConsole
