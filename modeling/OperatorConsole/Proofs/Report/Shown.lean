import OperatorConsole.Report.Execution
import OperatorConsole.Proofs.Json.Document
import OperatorConsole.Proofs.Value.Data

/-!
# Heads and feet that can be written

Only times outside the calendar and options that cannot be put into words keep an execution
from having a head and a foot.  The foot of an execution that went wrong shows neither.
-/

namespace OperatorConsole

open Value

/-! ## Values -/

/-- Data can always be written, since no routine answers for it. -/
theorem Value.Data.document {v : Value} (hdata : Data v) (layout : Json.Layout) :
    exists text, Json.document layout v = .ok text := by
  have hwritable := hdata.inexact.writable
  cases v with
  | record fields base =>
      apply Json.document_plain _ hwritable
      intro routine hstored
      exact not_data_routine routine (hdata.stored hstored)
  | _ => exact Json.document_other _ hwritable fun _ _ => Value.noConfusion

theorem Value.Answer.shown {v : Value} (hv : Answer v) :
    exists text, Report.resultChars v = .ok text := by
  cases hv with
  | routine name => exact Json.document_other _ rfl fun _ _ => Value.noConfusion
  | data hdata =>
      cases v with
      | absent => exact ⟨_, rfl⟩
      | null => exact ⟨_, rfl⟩
      | bool b => exact ⟨_, rfl⟩
      | number x => exact ⟨_, rfl⟩
      | text s => exact ⟨_, rfl⟩
      | _ => exact hdata.document _

namespace Report

/-! ## Times -/

theorem displayText_of_valid {time : Number} (hvalid : (Calendar.milliseconds? time).isSome) :
    exists text, Calendar.displayText time = .ok text := by
  unfold Calendar.displayText Calendar.leadingText
  rcases Option.isSome_iff_exists.mp hvalid with ⟨ms, hms⟩
  rw [hms]
  exact ⟨_, rfl⟩

/-! ## Heads -/

theorem Header.optionLines_of_answers {options : Fields}
    (hoptions : forall field, field ∈ options -> Answer field.2) :
    exists lines, Header.optionLines options = .ok lines := by
  induction options with
  | nil => exact ⟨_, rfl⟩
  | cons field rest ih =>
      rcases ih fun other hother => hoptions other (List.mem_cons_of_mem field hother) with
        ⟨lines, hlines⟩
      rcases (hoptions field List.mem_cons_self).shown with ⟨text, htext⟩
      rcases field with ⟨key, v⟩
      by_cases habsent : v = .absent
      · rw [habsent]
        exact ⟨lines, hlines⟩
      · rw [Header.optionLines, htext, hlines]
        · exact ⟨_, rfl⟩
        · exact habsent

theorem Header.text_of_answers {header : Header}
    (hvalid : (Calendar.milliseconds? header.startedAt).isSome)
    (hoptions : forall field, field ∈ header.options -> Answer field.2) :
    exists text, header.text = .ok text := by
  rcases displayText_of_valid hvalid with ⟨started, hstarted⟩
  rcases Header.optionLines_of_answers hoptions with ⟨lines, hlines⟩
  unfold Header.text
  rw [hstarted, hlines]
  exact ⟨_, rfl⟩

/-! ## Feet -/

theorem Footer.text_of_valid {footer : Footer}
    (hvalid : (Calendar.milliseconds? footer.completedAt).isSome) :
    exists text, footer.text = .ok text := by
  unfold Footer.text Footer.outcomeLines
  cases footer.error with
  | some error => exact ⟨_, rfl⟩
  | none =>
      rcases displayText_of_valid hvalid with ⟨completed, hcompleted⟩
      rw [hcompleted]
      exact ⟨_, rfl⟩

/-! ## First characters

A head and the foot of an execution that went wrong begin differently. -/

theorem head_joinLines (c : Char) (line : List Char) (lines : List (List Char)) :
    (joinLines ((c :: line) :: lines)).head? = some c := by
  cases lines with
  | nil => rfl
  | cons other lines => rfl

theorem head_boxed (title : List Char) (width : Nat) : (boxed title width).head? = some '╭' :=
  head_joinLines _ _ _

theorem Header.head_text {header : Header} {text : String} (htext : header.text = .ok text) :
    text.toList.head? = some '╭' := by
  have hboxed (title : List Char) (width : Nat) (lines : List (List Char)) :
      (joinLines (boxed title width :: lines)).head? = some '╭' := by
    have hhead := head_boxed title width
    cases hbox : boxed title width with
    | nil =>
        rw [hbox] at hhead
        cases hhead
    | cons c rest =>
        rw [hbox] at hhead
        rw [head_joinLines]
        exact hhead
  unfold Header.text at htext
  cases hstarted : Calendar.displayText header.startedAt with
  | error failure =>
      rw [hstarted] at htext
      cases htext
  | ok started =>
      cases hoptions : Header.optionLines header.options with
      | error failure =>
          rw [hstarted, hoptions] at htext
          cases htext
      | ok options =>
          rw [hstarted, hoptions] at htext
          injection htext with htext
          rw [← htext, String.toList_ofList, List.head?_append]
          simp only [List.cons_append]
          rw [hboxed]
          rfl

theorem Footer.head_text {footer : Footer} {message text : String}
    (herror : footer.error = some message) (htext : footer.text = .ok text) :
    text.toList.head? = some '\n' := by
  unfold Footer.text Footer.outcomeLines at htext
  rw [herror] at htext
  injection htext with htext
  rw [← htext, String.toList_ofList, List.head?_append]
  rfl

end Report

end OperatorConsole
