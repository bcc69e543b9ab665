import OperatorConsole.Query.Token

/-!
# Letters

Names and keywords are words of ASCII letters.  What is said of all ASCII characters is settled
by looking at each of them.
-/

namespace OperatorConsole

namespace Text

theorem forall_ascii {p : Char -> Prop} (hall : forall n : Fin 128, p (Char.ofNat n.val))
    {c : Char} (hc : c.toNat < 128) : p c := by
  have hp := hall ⟨c.toNat, hc⟩
  rwa [Char.ofNat_toNat] at hp

theorem isDigit_ascii {c : Char} (hc : c.isDigit = true) : c.toNat < 128 :=
  Nat.lt_of_le_of_lt (Char.isDigit_iff_toNat.mp hc).2 (by decide)

theorem toUpper_ascii {c : Char} (hc : c.toNat < 128) : c.toUpper.toNat < 128 :=
  forall_ascii (p := fun c => c.toUpper.toNat < 128) (by decide +kernel) hc

theorem lowerChar_toUpper {c : Char} (hc : c.toNat < 128) : lowerChar c.toUpper = lowerChar c :=
  forall_ascii (p := fun c => lowerChar c.toUpper = lowerChar c) (by decide +kernel) hc

theorem isBlank_lowerChar {c : Char} (hc : c.toNat < 128) : isBlank (lowerChar c) = isBlank c :=
  forall_ascii (p := fun c => isBlank (lowerChar c) = isBlank c) (by decide +kernel) hc

theorem isWordChar_digit {c : Char} (hc : c.isDigit = true) : isWordChar c = true := by
  have hword : isWordChar c = ((c.isAlpha || c.isDigit) || c == '_') := rfl
  rw [hword, hc, Bool.or_true, Bool.true_or]

end Text

namespace Query

open Text

theorem isNameStart_lowerChar {c : Char} (hc : c.toNat < 128) :
    isNameStart (lowerChar c) = isNameStart c :=
  forall_ascii (p := fun c => isNameStart (lowerChar c) = isNameStart c) (by decide +kernel) hc

theorem isQuote_lowerChar {c : Char} (hc : c.toNat < 128) : isQuote (lowerChar c) = isQuote c :=
  forall_ascii (p := fun c => isQuote (lowerChar c) = isQuote c) (by decide +kernel) hc

theorem isNameStart_digit {c : Char} (hc : c.isDigit = true) : isNameStart c = false :=
  forall_ascii (p := fun c => c.isDigit = true -> isNameStart c = false) (by decide +kernel)
    (isDigit_ascii hc) hc

theorem isNameStart_ascii {c : Char} (hc : isNameStart c = true) : c.toNat < 128 := by
  have hbound : forall {d : Char}, c.val ≤ d.val -> d.toNat < 128 -> c.toNat < 128 := by
    intro d hle hd
    exact Nat.lt_of_le_of_lt (UInt32.le_iff_toNat_le.mp hle) hd
  rcases Bool.or_eq_true_iff.mp hc with halpha | hunderscore
  · rcases Bool.or_eq_true_iff.mp halpha with hupper | hlower
    · exact hbound (of_decide_eq_true hupper).2 (by decide : 'Z'.toNat < 128)
    · exact hbound (of_decide_eq_true (Bool.and_eq_true_iff.mp hlower).2)
        (by decide : 'z'.toNat < 128)
  · rw [beq_iff_eq.mp hunderscore]
    decide

theorem isBlank_nameStart {c : Char} (hc : isNameStart c = true) : isBlank c = false :=
  forall_ascii (p := fun c => isNameStart c = true -> isBlank c = false) (by decide +kernel)
    (isNameStart_ascii hc) hc

theorem isWordChar_nameStart {c : Char} (hc : isNameStart c = true) : isWordChar c = true := by
  have hword : isWordChar c = ((c.isAlpha || c.isDigit) || c == '_') := rfl
  rw [hword]
  rcases Bool.or_eq_true_iff.mp hc with halpha | hunderscore
  · rw [halpha, Bool.true_or, Bool.true_or]
  · rw [hunderscore, Bool.or_true]

theorem isQuote_iff {c : Char} : isQuote c = true ↔ c = '\x27' ∨ c = '\x22' := by
  unfold isQuote
  rw [Bool.or_eq_true_iff, beq_iff_eq, beq_iff_eq]

theorem isWordChar_quote {c : Char} (hc : isQuote c = true) : isWordChar c = false := by
  rcases isQuote_iff.mp hc with rfl | rfl
  · rfl
  · rfl

theorem isBlank_quote {c : Char} (hc : isQuote c = true) : isBlank c = false := by
  rcases isQuote_iff.mp hc with rfl | rfl
  · rfl
  · rfl

end Query

end OperatorConsole
