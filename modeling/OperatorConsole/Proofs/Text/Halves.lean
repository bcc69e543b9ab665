import Mathlib.Data.List.Chain
import OperatorConsole.Text.Basic

/-!
# Halves of pairs

Where characters are taken out of a text, halves of a character may come to stand side by side.
Joining them leaves no such halves.

It only makes characters outside the basic plane, so a word in that plane is in a joined text
where it was before.
-/

namespace OperatorConsole

namespace Text

/-- No two characters in a row hold the halves of a character. -/
def IsJoined (text : List Char) : Prop :=
  text.IsChain fun a b => ¬MakeOne a b

/-! ## Pairs -/

theorem MakeOne.isHalf_left {a b : Char} (hone : MakeOne a b) : isHalf a = true :=
  hone.1.1.1

theorem MakeOne.isHalf_right {a b : Char} (hone : MakeOne a b) : isHalf b = true :=
  hone.1.2.1

/-- What halves make lies outside the basic plane. -/
theorem MakeOne.le_toNat {a b : Char} (hone : MakeOne a b) : 0x10000 ≤ (ofHalves a b).toNat := by
  rcases hone with ⟨⟨⟨_, hhigh⟩, _, hlow⟩, _⟩
  unfold IsHigh at hhigh
  unfold IsLow at hlow
  have hvalid : (0x10000 + (a.toNat - 0x10D800) * 0x400 + (b.toNat - 0x10DC00)).isValidChar := by
    right
    omega
  have hnat : (ofHalves a b).toNat =
      0x10000 + (a.toNat - 0x10D800) * 0x400 + (b.toNat - 0x10DC00) := by
    unfold ofHalves
    rw [Char.ofNat, dif_pos hvalid]
    rfl
  omega

/-! ## Joining -/

theorem joinHalves_pair {a b : Char} (hone : MakeOne a b) (rest : List Char) :
    joinHalves (a :: b :: rest) = ofHalves a b :: joinHalves rest :=
  if_pos hone

theorem joinHalves_apart {a b : Char} (hapart : ¬MakeOne a b) (rest : List Char) :
    joinHalves (a :: b :: rest) = a :: joinHalves (b :: rest) :=
  if_neg hapart

theorem joinHalves_of_isJoined {text : List Char} (hjoined : IsJoined text) :
    joinHalves text = text := by
  induction text with
  | nil => rfl
  | cons c rest ih =>
      cases rest with
      | nil => rfl
      | cons d rest =>
          rw [joinHalves_apart (List.isChain_cons_cons.mp hjoined).1, ih hjoined.tail]

theorem head_joinHalves {c y : Char} {rest : List Char}
    (hy : y ∈ (joinHalves (c :: rest)).head?) : y = c ∨ isHalf y = false := by
  cases rest with
  | nil => exact Or.inl (Option.some.inj hy).symm
  | cons d rest =>
      by_cases hone : MakeOne c d
      · rw [joinHalves_pair hone] at hy
        exact Or.inr (Option.some.inj hy ▸ hone.2)
      · rw [joinHalves_apart hone] at hy
        exact Or.inl (Option.some.inj hy).symm

theorem isJoined_joinHalves (text : List Char) : IsJoined (joinHalves text) := by
  fun_induction joinHalves text with
  | case1 => exact List.isChain_nil
  | case2 c => exact List.isChain_singleton c
  | case3 c d rest hone ih =>
      refine List.isChain_cons.mpr ⟨fun y _ hagain => ?_, ih⟩
      exact Bool.false_ne_true (hone.2.symm.trans hagain.isHalf_left)
  | case4 c d rest hapart ih =>
      refine List.isChain_cons.mpr ⟨fun y hy hone => ?_, ih⟩
      rcases head_joinHalves hy with rfl | hwhole
      · exact hapart hone
      · exact Bool.false_ne_true (hwhole.symm.trans hone.isHalf_right)

theorem IsJoined.within {text part : List Char} (hjoined : IsJoined text)
    (hpart : part <:+: text) : IsJoined part :=
  List.IsChain.infix hjoined hpart

theorem mem_joinHalves {text : List Char} {c : Char} (hc : c ∈ joinHalves text) :
    c ∈ text ∨ exists a, a ∈ text ∧ isHalf a = true := by
  fun_induction joinHalves text with
  | case1 => cases hc
  | case2 d => exact Or.inl hc
  | case3 a b rest hone ih =>
      exact Or.inr ⟨a, List.mem_cons_self, hone.isHalf_left⟩
  | case4 d e rest hapart ih =>
      rcases List.mem_cons.mp hc with rfl | hrest
      · exact Or.inl List.mem_cons_self
      · rcases ih hrest with hmem | ⟨a, ha, hhalf⟩
        · exact Or.inl (List.mem_cons_of_mem d hmem)
        · exact Or.inr ⟨a, List.mem_cons_of_mem d ha, hhalf⟩

theorem length_joinHalves_le (text : List Char) : (joinHalves text).length ≤ text.length := by
  fun_induction joinHalves text with
  | case1 => exact Nat.le_refl _
  | case2 => exact Nat.le_refl _
  | case3 a b rest hone ih =>
      simp only [List.length_cons]
      omega
  | case4 c d rest hapart ih =>
      simp only [List.length_cons] at ih ⊢
      omega

/-! ## Where a character was -/

/-- What follows a character in a joined text was joined from what followed it before. -/
theorem joinHalves_eq_append {text front back : List Char}
    (htext : joinHalves text = front ++ back) :
    exists front' back', text = front' ++ back' ∧ joinHalves back' = back := by
  fun_induction joinHalves text generalizing front with
  | case1 =>
      rcases List.append_eq_nil_iff.mp htext.symm with ⟨rfl, rfl⟩
      exact ⟨[], [], rfl, rfl⟩
  | case2 c =>
      cases front with
      | nil => exact ⟨[], [c], rfl, htext⟩
      | cons d front =>
          rcases List.append_eq_nil_iff.mp (List.cons.inj htext).2.symm with ⟨_, rfl⟩
          exact ⟨[c], [], rfl, rfl⟩
  | case3 a b rest hone ih =>
      cases front with
      | nil => exact ⟨[], a :: b :: rest, rfl, (joinHalves_pair hone rest).trans htext⟩
      | cons d front =>
          rcases ih (List.cons.inj htext).2 with ⟨front', back', rfl, hback⟩
          exact ⟨a :: b :: front', back', rfl, hback⟩
  | case4 c d rest hapart ih =>
      cases front with
      | nil => exact ⟨[], c :: d :: rest, rfl, (joinHalves_apart hapart rest).trans htext⟩
      | cons e front =>
          rcases ih (List.cons.inj htext).2 with ⟨front', back', hrest, hback⟩
          exact ⟨c :: front', back', congrArg (c :: ·) hrest, hback⟩

theorem joinHalves_eq_cons {text rest : List Char} {c : Char}
    (htext : joinHalves text = c :: rest) :
    (exists rest', text = c :: rest' ∧ joinHalves rest' = rest) ∨
      exists a b rest', text = a :: b :: rest' ∧ MakeOne a b ∧ ofHalves a b = c := by
  fun_cases joinHalves text with
  | case1 => cases htext
  | case2 d =>
      cases htext
      exact Or.inl ⟨[], rfl, rfl⟩
  | case3 a b rest' hone =>
      rw [joinHalves_pair hone] at htext
      exact Or.inr ⟨a, b, rest', rfl, hone, (List.cons.inj htext).1⟩
  | case4 d e rest' hapart =>
      rw [joinHalves_apart hapart] at htext
      rcases List.cons.inj htext with ⟨rfl, hrest⟩
      exact Or.inl ⟨e :: rest', rfl, hrest⟩

theorem joinHalves_eq_word {word : List Char} (hword : forall c, c ∈ word -> c.toNat < 0x10000)
    {text rest : List Char} (htext : joinHalves text = word ++ rest) :
    exists rest', text = word ++ rest' ∧ joinHalves rest' = rest := by
  induction word generalizing text with
  | nil => exact ⟨text, rfl, htext⟩
  | cons c word ih =>
      rcases joinHalves_eq_cons htext with ⟨rest', rfl, hrest⟩ | ⟨a, b, _, _, hone, rfl⟩
      · rcases ih (fun d hd => hword d (List.mem_cons_of_mem c hd)) hrest with ⟨rest'', rfl, hback⟩
        exact ⟨rest'', rfl, hback⟩
      · exact absurd (hword _ List.mem_cons_self) (Nat.not_lt.mpr hone.le_toNat)

end Text

end OperatorConsole
