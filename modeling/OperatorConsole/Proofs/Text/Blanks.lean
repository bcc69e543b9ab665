import Mathlib.Data.List.Basic
import Mathlib.Data.List.TakeWhile
import OperatorConsole.Text.Basic

/-!
# Blanks around a text

Trimming takes blanks away on both sides and nothing else, and a text without blanks at its ends is
not trimmed.
-/

namespace OperatorConsole

namespace Text

theorem isBlank_digit {c : Char} (hc : c.isDigit = true) : isBlank c = false := by
  have hrange : 48 ≤ c.toNat ∧ c.toNat ≤ 57 := Char.isDigit_iff_toNat.mp hc
  unfold isBlank
  simp
  omega

theorem trim_spells (text : List Char) :
    exists front back, text = front ++ (trim text ++ back) ∧
      (forall c, c ∈ front -> isBlank c = true) ∧ forall c, c ∈ back -> isBlank c = true := by
  refine ⟨text.takeWhile isBlank, ((trimLeft text).reverse.takeWhile isBlank).reverse, ?_, ?_, ?_⟩
  · rw [trim, trimRight, ← List.reverse_append, List.takeWhile_append_dropWhile,
      List.reverse_reverse, trimLeft, List.takeWhile_append_dropWhile]
  · exact fun c hc => List.all_eq_true.mp List.all_takeWhile c hc
  · exact fun c hc => List.all_eq_true.mp List.all_takeWhile c (List.mem_reverse.mp hc)

theorem trimLeft_solid {c : Char} (hc : isBlank c = false) (rest : List Char) :
    trimLeft (c :: rest) = c :: rest :=
  List.dropWhile_cons_of_neg (by simp [hc])

/-! ## Trimmed texts -/

theorem head_trimLeft {text : List Char} {c : Char} (hc : c ∈ (trimLeft text).head?) :
    isBlank c = false := by
  have hhead := List.head?_dropWhile_not isBlank text
  unfold trimLeft at hc
  rw [Option.mem_def.mp hc] at hhead
  exact hhead

theorem getLast_trim {text : List Char} {c : Char} (hc : c ∈ (trim text).getLast?) :
    isBlank c = false := by
  unfold trim trimRight at hc
  rw [List.getLast?_reverse] at hc
  exact head_trimLeft hc

theorem trimRight_prefix (text : List Char) : trimRight text <+: text := by
  refine ⟨(text.reverse.takeWhile isBlank).reverse, ?_⟩
  rw [trimRight, ← List.reverse_append, List.takeWhile_append_dropWhile, List.reverse_reverse]

theorem head_trim {text : List Char} {c : Char} (hc : c ∈ (trim text).head?) :
    isBlank c = false := by
  rcases trimRight_prefix (trimLeft text) with ⟨back, hback⟩
  have hhead : (trimRight (trimLeft text)).head? = some c := hc
  apply head_trimLeft
  rw [← hback, List.head?_append, hhead]
  rfl

theorem trimLeft_of_head {text : List Char}
    (hhead : forall c, c ∈ text.head? -> isBlank c = false) : trimLeft text = text := by
  cases text with
  | nil => rfl
  | cons c rest => exact trimLeft_solid (hhead c rfl) rest

theorem trimRight_before {text back : List Char}
    (hlast : forall c, c ∈ text.getLast? -> isBlank c = false)
    (hback : forall c, c ∈ back -> isBlank c = true) : trimRight (text ++ back) = text := by
  have hsolid : trimLeft text.reverse = text.reverse := by
    apply trimLeft_of_head
    rwa [List.head?_reverse]
  have hend : trimLeft (back.reverse ++ text.reverse) = text.reverse :=
    (List.dropWhile_append_of_pos fun c hc => hback c (List.mem_reverse.mp hc)).trans hsolid
  rw [trimRight, List.reverse_append]
  change (trimLeft (back.reverse ++ text.reverse)).reverse = text
  rw [hend, List.reverse_reverse]

theorem trim_of_ends {text : List Char} (hhead : forall c, c ∈ text.head? -> isBlank c = false)
    (hlast : forall c, c ∈ text.getLast? -> isBlank c = false) : trim text = text := by
  have hright := trimRight_before hlast (List.forall_mem_nil _)
  rw [trim, trimLeft_of_head hhead]
  rwa [List.append_nil] at hright

theorem trim_solid {text : List Char} (htext : forall c, c ∈ text -> isBlank c = false) :
    trim text = text :=
  trim_of_ends (fun c hc => htext c (List.mem_of_mem_head? hc))
    fun c hc => htext c (List.mem_of_mem_getLast? hc)

theorem trim_blank {text : List Char} (htext : forall c, c ∈ text -> isBlank c = true) :
    trim text = [] := by
  rw [trim, trimLeft, List.dropWhile_eq_nil_iff.mpr htext]
  rfl

theorem trim_around {front text back : List Char}
    (hfront : forall c, c ∈ front -> isBlank c = true) (hsome : text ≠ [])
    (htext : trim text = text) (hback : forall c, c ∈ back -> isBlank c = true) :
    trim (front ++ (text ++ back)) = text := by
  have hlast : forall c, c ∈ text.getLast? -> isBlank c = false := by
    rw [← htext]
    exact fun c => getLast_trim
  have hstart : trimLeft (front ++ (text ++ back)) = text ++ back := by
    rcases List.exists_cons_of_ne_nil hsome with ⟨c, rest, rfl⟩
    refine (List.dropWhile_append_of_pos hfront).trans ?_
    exact trimLeft_solid (head_trim (by rw [htext]; rfl)) (rest ++ back)
  rw [trim, hstart, trimRight_before hlast hback]

theorem trim_between {front text back : List Char}
    (hfront : forall c, c ∈ front -> isBlank c = true)
    (htext : forall c, c ∈ text -> isBlank c = false) (hsome : text ≠ [])
    (hback : forall c, c ∈ back -> isBlank c = true) : trim (front ++ (text ++ back)) = text :=
  trim_around hfront hsome (trim_solid htext) hback

/-! ## Padded texts -/

def IsPadded (body text : List Char) : Prop :=
  exists front back, text = front ++ (body ++ back) ∧
    (forall c, c ∈ front -> isBlank c = true) ∧ forall c, c ∈ back -> isBlank c = true

theorem IsPadded.not_mem {body text : List Char} {c : Char} (hpadded : IsPadded body text)
    (hc : isBlank c = false) (hbody : c ∉ body) : c ∉ text := by
  rcases hpadded with ⟨front, back, rfl, hfront, hback⟩
  intro hmem
  rcases List.mem_append.mp hmem with hmem | hmem
  · exact Bool.false_ne_true (hc.symm.trans (hfront c hmem))
  · rcases List.mem_append.mp hmem with hmem | hmem
    · exact hbody hmem
    · exact Bool.false_ne_true (hc.symm.trans (hback c hmem))

theorem IsPadded.trim_eq {body text : List Char} (hpadded : IsPadded body text) (hsome : body ≠ [])
    (hbody : trim body = body) : trim text = body := by
  rcases hpadded with ⟨front, back, rfl, hfront, hback⟩
  exact trim_around hfront hsome hbody hback

/-- Only the outer blanks of two texts around a character are trimmed away. -/
theorem IsPadded.trim_pair {first second head tail : List Char} (hhead : IsPadded first head)
    (htail : IsPadded second tail) (hfirst : first ≠ [] ∧ trim first = first)
    (hsecond : second ≠ [] ∧ trim second = second) (c : Char) :
    exists head' tail', trim (head ++ c :: tail) = head' ++ c :: tail' ∧
      IsPadded first head' ∧ IsPadded second tail' := by
  rcases hhead with ⟨front, gap, rfl, hfront, hgap⟩
  rcases htail with ⟨gap', back, rfl, hgap', hback⟩
  refine ⟨first ++ gap, gap' ++ second, ?_, ⟨[], gap, rfl, List.forall_mem_nil _, hgap⟩,
    gap', [], by rw [List.append_nil], hgap', List.forall_mem_nil _⟩
  have hends : trim (first ++ gap ++ c :: (gap' ++ second)) =
      first ++ gap ++ c :: (gap' ++ second) := by
    apply trim_of_ends
    · intro d hd
      rw [List.append_assoc, List.head?_append_of_ne_nil _ hfirst.1, ← hfirst.2] at hd
      exact head_trim hd
    · intro d hd
      rw [← List.cons_append, ← List.append_assoc, List.getLast?_append_of_ne_nil _ hsecond.1,
        ← hsecond.2] at hd
      exact getLast_trim hd
  have htrim := trim_around hfront (by simp) hends hback
  rw [← htrim]
  simp

end Text

end OperatorConsole
