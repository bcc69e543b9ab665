import OperatorConsole.Json.Document

/-!
# Documents that cannot be written

A value without exact integers nearly always has a document.  The exceptions are records
that answer for themselves with a routine that will not be called, or whose silence leaves
them with no text either.
-/

namespace OperatorConsole

namespace Json

def definingRoutines : List String :=
  ["__defineGetter__", "__defineSetter__"]

/-- The records whose documents fail although they hold no exact integer. -/
inductive Balks : Value -> Prop where
  | defining {fields base routine}
      (hstored : Value.stored? standInKey (.record fields base) = some (.routine routine))
      (hdefining : routine ∈ definingRoutines) :
      Balks (.record fields base)
  | localized {fields base failure}
      (hstored : Value.stored? standInKey (.record fields base) = some (.routine "toLocaleString"))
      (hlocal : localText ⟨fields, base⟩ = .error failure) :
      Balks (.record fields base)
  | silent {fields base routine}
      (hstored : Value.stored? standInKey (.record fields base) = some (.routine routine))
      (hsilent : Value.isSilent routine = true)
      (htext : Value.chars? (.record fields base) = none) :
      Balks (.record fields base)

/-- A value with a document of its own: neither absent nor a function nor unwritable. -/
def Printable (v : Value) : Prop :=
  isWritable v = true ∧ forall layout level, (print? layout level v).isSome

theorem printable_text (s : String) : Printable (.text s) :=
  ⟨rfl, fun _ _ => rfl⟩

theorem printable_bool (b : Bool) : Printable (.bool b) :=
  ⟨rfl, fun _ _ => rfl⟩

theorem printable_record {fields : Fields} {base : Value}
    (hwritable : isWritable (.record fields base) = true) : Printable (.record fields base) :=
  ⟨hwritable, fun _ _ => rfl⟩

theorem localText_printable {r : Record} {v : Value} (hlocal : localText r = .ok v) :
    Printable v := by
  unfold localText at hlocal
  split at hlocal
  · cases hlocal
  · cases hlocal
  · split at hlocal
    · cases hlocal
      exact printable_text _
    · cases hlocal

/-- What becomes of calling a routine on a record: it asks for a function, it looks for the
local text, it is silent, or it answers with something that can be printed. -/
inductive Answer (r : Record) : String -> Except Failure Value -> Prop where
  | defining {routine failure} (hdefining : routine ∈ definingRoutines) :
      Answer r routine (.error failure)
  | localized : Answer r "toLocaleString" (localText r)
  | silent {routine} (hsilent : Value.isSilent routine = true) : Answer r routine (.ok .absent)
  | printable {routine shown} (hdefining : routine ∉ definingRoutines)
      (hlocal : routine ≠ "toLocaleString") (hsilent : Value.isSilent routine = false)
      (hshown : Printable shown) :
      Answer r routine (.ok shown)

theorem answer (routine : String) {r : Record} (hr : isWritable r.toValue = true) :
    Answer r routine (answerOf routine r) := by
  unfold answerOf
  split
  · rename_i hroutine
    subst hroutine
    exact .printable (by decide) (by decide) (by decide) (printable_text _)
  split
  · rename_i hroutine
    subst hroutine
    exact .printable (by decide) (by decide) (by decide) (printable_text _)
  split
  · rename_i hroutine
    subst hroutine
    exact .localized
  rename_i hlocal
  split
  · rename_i hroutine
    have hroutine : routine = "hasOwnProperty" ∨ routine = "propertyIsEnumerable" := by
      simpa using hroutine
    rcases hroutine with rfl | rfl
    · exact .printable (by decide) (by decide) (by decide) (printable_bool _)
    · exact .printable (by decide) (by decide) (by decide) (printable_bool _)
  split
  · rename_i hroutine
    subst hroutine
    exact .printable (by decide) (by decide) (by decide) (printable_bool _)
  split
  · rename_i hroutine
    exact .defining hroutine
  rename_i hdefining
  split
  · rename_i hsilent
    exact .silent hsilent
  · rename_i hsilent
    exact .printable hdefining hlocal (eq_false_of_ne_true hsilent) (printable_record hr)

theorem standIn_record {fields : Fields} {base : Value} {routine : String}
    (hstored : Value.stored? standInKey (.record fields base) = some (.routine routine)) :
    standIn (.record fields base) = answerOf routine ⟨fields, base⟩ := by
  unfold standIn
  dsimp only
  rw [hstored]

/-! ## Documents -/

theorem document_printable (layout : Layout) {v shown : Value} (hstandIn : standIn v = .ok shown)
    (hshown : Printable shown) :
    exists text, document layout v = .ok text := by
  rcases hshown with ⟨hwritable, hprint⟩
  rcases Option.isSome_iff_exists.mp (hprint layout 0) with ⟨text, htext⟩
  refine ⟨text, ?_⟩
  unfold document
  rw [hstandIn]
  change (if isWritable shown = true then _ else _) = _
  rw [if_pos hwritable, htext]

/-- A value that is no record has a document or a text. -/
theorem document_other (layout : Layout) {v : Value} (hwritable : isWritable v = true)
    (hother : forall fields base, v ≠ .record fields base) :
    exists text, document layout v = .ok text := by
  cases v with
  | record fields base => exact absurd rfl (hother fields base)
  | exact n => cases hwritable
  | list items => exact document_printable layout rfl ⟨hwritable, fun _ _ => rfl⟩
  | _ => exact ⟨_, rfl⟩

theorem document_silent (layout : Layout) {v : Value} (hstandIn : standIn v = .ok .absent) :
    (exists failure, document layout v = .error failure) ↔ v.chars? = none := by
  cases htext : v.chars? with
  | some text =>
      have hdocument : document layout v = .ok text := by
        unfold document
        rw [hstandIn, htext]
        rfl
      simp [hdocument]
  | none =>
      have hdocument : document layout v = .error Failure.noText := by
        unfold document
        rw [hstandIn, htext]
        rfl
      simp [hdocument]

section Routine

variable {fields : Fields} {base : Value} {routine : String}
  (hstored : Value.stored? standInKey (.record fields base) = some (.routine routine))

include hstored

theorem balks_iff :
    Balks (.record fields base) ↔
      routine ∈ definingRoutines ∨
      (routine = "toLocaleString" ∧ exists failure, localText ⟨fields, base⟩ = .error failure) ∨
      (Value.isSilent routine = true ∧ Value.chars? (.record fields base) = none) := by
  constructor
  · intro hbalks
    cases hbalks with
    | defining hstored' hdefining =>
        rw [hstored] at hstored'
        cases hstored'
        exact Or.inl hdefining
    | localized hstored' hlocal =>
        rw [hstored] at hstored'
        cases hstored'
        exact Or.inr (Or.inl ⟨rfl, _, hlocal⟩)
    | silent hstored' hsilent htext =>
        rw [hstored] at hstored'
        cases hstored'
        exact Or.inr (Or.inr ⟨hsilent, htext⟩)
  · rintro (hdefining | ⟨rfl, failure, hlocal⟩ | ⟨hsilent, htext⟩)
    · exact .defining hstored hdefining
    · exact .localized hstored hlocal
    · exact .silent hstored hsilent htext

theorem document_routine (layout : Layout) (hwritable : isWritable (.record fields base) = true) :
    (exists failure, document layout (.record fields base) = .error failure) ↔
      Balks (.record fields base) := by
  have hstandIn := standIn_record hstored
  have hanswer := answer routine (r := ⟨fields, base⟩) hwritable
  rw [balks_iff hstored]
  generalize answerOf routine ⟨fields, base⟩ = result at hstandIn hanswer
  cases hanswer with
  | @defining _ failure hdefining =>
      refine iff_of_true ⟨failure, ?_⟩ (Or.inl hdefining)
      unfold document
      rw [hstandIn]
      rfl
  | localized =>
      cases hlocal : localText ⟨fields, base⟩ with
      | error failure =>
          refine iff_of_true ⟨failure, ?_⟩ (Or.inr (Or.inl ⟨rfl, failure, rfl⟩))
          unfold document
          rw [hstandIn, hlocal]
          rfl
      | ok shown =>
          rw [hlocal] at hstandIn
          rcases document_printable layout hstandIn (localText_printable hlocal) with ⟨text, htext⟩
          rw [htext]
          simp [definingRoutines, Value.isSilent]
  | silent hsilent =>
      have hdefining : routine ∉ definingRoutines ∧ routine ≠ "toLocaleString" := by
        have hroutine : routine = "__lookupGetter__" ∨ routine = "__lookupSetter__" := by
          simpa [Value.isSilent] using hsilent
        rcases hroutine with rfl | rfl
        · decide
        · decide
      rw [document_silent layout hstandIn]
      simp [hdefining, hsilent]
  | printable hdefining hlocal hsilent hshown =>
      rcases document_printable layout hstandIn hshown with ⟨text, htext⟩
      rw [htext]
      simp [hdefining, hlocal, hsilent]

end Routine

theorem document_plain (layout : Layout) {fields : Fields} {base : Value}
    (hwritable : isWritable (.record fields base) = true)
    (hplain : forall routine,
      Value.stored? standInKey (.record fields base) ≠ some (.routine routine)) :
    exists text, document layout (.record fields base) = .ok text := by
  refine document_printable layout ?_ (printable_record hwritable)
  unfold standIn
  dsimp only
  split
  · rename_i routine hstored
    exact absurd hstored (hplain routine)
  · rfl

/-- Of the values that hold no exact integer, exactly those that balk have no document. -/
theorem document_fails_iff (layout : Layout) {v : Value} (hwritable : isWritable v = true) :
    (exists failure, document layout v = .error failure) ↔ Balks v := by
  by_cases hroutine : exists fields base routine, v = .record fields base ∧
      Value.stored? standInKey v = some (.routine routine)
  · rcases hroutine with ⟨fields, base, routine, rfl, hstored⟩
    exact document_routine hstored layout hwritable
  · have hwritten : exists text, document layout v = .ok text := by
      by_cases hrecord : exists fields base, v = .record fields base
      · rcases hrecord with ⟨fields, base, rfl⟩
        apply document_plain layout hwritable
        intro routine hstored
        exact hroutine ⟨fields, base, routine, rfl, hstored⟩
      · apply document_other layout hwritable
        intro fields base hv
        exact hrecord ⟨fields, base, hv⟩
    rcases hwritten with ⟨text, htext⟩
    rw [htext]
    refine iff_of_false ?_ ?_
    · rintro ⟨failure, hfailed⟩
      cases hfailed
    · intro hbalks
      cases hbalks with
      | defining hstored => exact hroutine ⟨_, _, _, rfl, hstored⟩
      | localized hstored => exact hroutine ⟨_, _, _, rfl, hstored⟩
      | silent hstored => exact hroutine ⟨_, _, _, rfl, hstored⟩

end Json

end OperatorConsole
