import OperatorConsole.Text.Basic

/-!
# Splitting at a character

What stands between the places of a character are the texts without that character that give the
whole again once the character is put between them.  There is always at least one of them.
-/

namespace OperatorConsole

namespace Text

/-! ## Splitting and joining are those of lists -/

theorem splitOn_eq (c : Char) (text : List Char) : splitOn c text = List.splitOn c text := by
  induction text with
  | nil => exact (List.splitOn_nil c).symm
  | cons d rest ih =>
      rw [splitOn, List.splitOn_cons_eq_if_modifyHead, ih]
      by_cases hsame : d = c
      · rw [if_pos hsame, if_pos (beq_iff_eq.mpr hsame)]
      · rw [if_neg hsame, if_neg (by simpa using hsame)]
        rcases List.exists_cons_of_ne_nil (List.splitOn_ne_nil c rest) with ⟨part, parts, hparts⟩
        rw [hparts]
        rfl

theorem joinWith_eq (separator : List Char) (parts : List (List Char)) :
    joinWith separator parts = separator.intercalate parts := by
  fun_induction joinWith separator parts with
  | case1 => exact List.intercalate_nil.symm
  | case2 part => exact List.intercalate_singleton.symm
  | case3 part parts hsome ih =>
      rw [ih, List.intercalate_cons_of_ne_nil (by simpa using hsome)]

/-! ## Pieces -/

structure IsSplit (c : Char) (text : List Char) (pieces : List (List Char)) : Prop where
  joined : joinWith [c] pieces = text
  some : pieces ≠ []
  free : forall piece, piece ∈ pieces -> c ∉ piece

theorem free_splitOn {c : Char} {text piece : List Char} (hpiece : piece ∈ splitOn c text) :
    c ∉ piece := by
  induction text generalizing piece with
  | nil =>
      rw [List.mem_singleton.mp hpiece]
      exact List.not_mem_nil
  | cons d rest ih =>
      rw [splitOn] at hpiece
      split at hpiece
      case isTrue =>
        rcases List.mem_cons.mp hpiece with rfl | hrest
        · exact List.not_mem_nil
        · exact ih hrest
      case isFalse hother =>
        split at hpiece
        case h_1 =>
          rw [List.mem_singleton.mp hpiece, List.mem_singleton]
          exact Ne.symm hother
        case h_2 part parts hparts =>
          rw [hparts] at ih
          rcases List.mem_cons.mp hpiece with rfl | hrest
          · rw [List.mem_cons, not_or]
            exact ⟨Ne.symm hother, ih List.mem_cons_self⟩
          · exact ih (List.mem_cons_of_mem part hrest)

theorem splitOn_eq_iff {c : Char} {text : List Char} {pieces : List (List Char)} :
    splitOn c text = pieces ↔ IsSplit c text pieces := by
  constructor
  · rintro rfl
    refine ⟨?_, ?_, fun piece => free_splitOn⟩
    · rw [splitOn_eq, joinWith_eq, List.intercalate_splitOn]
    · rw [splitOn_eq]
      exact List.splitOn_ne_nil c text
  · rintro ⟨rfl, hsome, hfree⟩
    rw [splitOn_eq, joinWith_eq, List.splitOn_intercalate c hfree hsome]

theorem isSplit_splitOn (c : Char) (text : List Char) : IsSplit c text (splitOn c text) :=
  splitOn_eq_iff.mp rfl

end Text

end OperatorConsole
