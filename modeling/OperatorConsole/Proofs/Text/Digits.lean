import Mathlib.Algebra.Group.Nat.Defs
import Mathlib.Data.List.Forall2
import Mathlib.Data.List.Lex
import OperatorConsole.Calendar

/-!
# Numbers in columns

Numbers that are written with as many digits as their columns have can be compared as text: the
order of characters is the order of the numbers, the first column before the second.
-/

namespace OperatorConsole

namespace Text

def lastDigits : Nat -> Nat -> List Char
  | 0, _ => []
  | count + 1, n => lastDigits count (n / 10) ++ [Nat.digitChar (n % 10)]

theorem length_lastDigits (count n : Nat) : (lastDigits count n).length = count := by
  induction count generalizing n with
  | zero => rfl
  | succ count ih => rw [lastDigits, List.length_append, ih, List.length_singleton]

theorem lastDigits_zero (count : Nat) : lastDigits count 0 = List.replicate count '0' := by
  induction count with
  | zero => rfl
  | succ count ih =>
      rw [lastDigits, Nat.zero_div, ih, List.replicate_succ']
      rfl

theorem padded_eq {count n : Nat} (hn : n < 10 ^ (count + 1)) :
    Calendar.padded (count + 1) n = lastDigits (count + 1) n := by
  unfold Calendar.padded
  dsimp only
  induction count generalizing n with
  | zero =>
      have hdigit : n < 10 := by simpa using hn
      rw [Nat.toDigits_of_lt_base hdigit, lastDigits, Nat.mod_eq_of_lt hdigit]
      rfl
  | succ count ih =>
      rcases Nat.lt_or_ge n 10 with hsmall | hlarge
      · rw [Nat.toDigits_of_lt_base hsmall, lastDigits, Nat.div_eq_of_lt hsmall, lastDigits_zero,
          Nat.mod_eq_of_lt hsmall]
        rfl
      · have hrest : n / 10 < 10 ^ (count + 1) := by
          rw [Nat.pow_succ] at hn
          exact Nat.div_lt_of_lt_mul (by rwa [Nat.mul_comm])
        rw [Nat.toDigits_of_base_le (by decide) hlarge, lastDigits, ← ih hrest,
          List.length_append, List.length_singleton, Nat.add_sub_add_right, List.append_assoc]

/-! ## Order -/

theorem append_lt_append {front other : List Char} (hlt : front < other)
    (hlength : front.length = other.length) (rest others : List Char) :
    front ++ rest < other ++ others := by
  induction front generalizing other with
  | nil =>
      rw [List.length_eq_zero_iff.mp hlength.symm] at hlt
      exact absurd hlt (List.lt_irrefl _)
  | cons c front ih =>
      cases other with
      | nil => cases hlength
      | cons d other =>
          rw [List.cons_append, List.cons_append, List.cons_lt_cons_iff]
          rcases List.cons_lt_cons_iff.mp hlt with hfirst | ⟨hsame, hrest⟩
          · exact Or.inl hfirst
          · exact Or.inr ⟨hsame, ih hrest (Nat.succ.inj hlength)⟩

theorem digitChar_lt : forall n, n < 10 -> forall m, m < 10 -> n < m ->
    Nat.digitChar n < Nat.digitChar m := by
  decide

theorem lastDigits_lt {count n m : Nat} (hlt : n < m) (hm : m < 10 ^ count) :
    lastDigits count n < lastDigits count m := by
  induction count generalizing n m with
  | zero => omega
  | succ count ih =>
      have hlength : (lastDigits count (n / 10)).length = (lastDigits count (m / 10)).length := by
        rw [length_lastDigits, length_lastDigits]
      rw [lastDigits, lastDigits]
      rcases Nat.lt_or_eq_of_le (Nat.div_le_div_right (c := 10) (Nat.le_of_lt hlt)) with
        hrest | hrest
      · have hfits : m / 10 < 10 ^ count := by
          rw [Nat.pow_succ] at hm
          exact Nat.div_lt_of_lt_mul (by rwa [Nat.mul_comm])
        exact append_lt_append (ih hrest hfits) hlength _ _
      · have hlast : n % 10 < m % 10 := by omega
        rw [hrest]
        apply List.append_left_lt
        rw [List.cons_lt_cons_iff]
        exact Or.inl (digitChar_lt _ (Nat.mod_lt _ (by decide)) _ (Nat.mod_lt _ (by decide)) hlast)

/-! ## Columns -/

abbrev Column := Nat × List Char

def Column.Fits (column : Column) (n : Nat) : Prop :=
  n < 10 ^ column.1

def columns : List Column -> List Nat -> List Char
  | column :: layout, n :: numbers =>
      lastDigits column.1 n ++ (column.2 ++ columns layout numbers)
  | _, _ => []

theorem columns_lt {layout : List Column} {numbers others : List Nat}
    (hnumbers : List.Forall₂ Column.Fits layout numbers)
    (hothers : List.Forall₂ Column.Fits layout others) (hlt : numbers < others) :
    columns layout numbers < columns layout others := by
  induction hnumbers generalizing others with
  | nil =>
      cases hothers
      exact absurd hlt (List.lt_irrefl _)
  | @cons column n layout numbers _ _ ih =>
      rcases hothers with _ | ⟨hm, hothers⟩
      rename_i m others
      rcases List.cons_lt_cons_iff.mp hlt with hfirst | ⟨hsame, hrest⟩
      · apply append_lt_append (lastDigits_lt hfirst hm)
        rw [length_lastDigits, length_lastDigits]
      · subst hsame
        exact List.append_left_lt (List.append_left_lt (ih hothers hrest))

end Text

end OperatorConsole
