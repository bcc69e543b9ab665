import OperatorConsole.Proofs.Check.Stable
import OperatorConsole.Proofs.Number.Order

/-!
# Shapes

A shape says what a value has to look like, without any reading of it.  A check is for a shape if
it passes just the values of that shape.  Which shape a check is for is put together along the
constructs of checks.
-/

namespace OperatorConsole

abbrev Shape := Value -> Prop

namespace Shape

def switch : Shape := fun v =>
  exists b, v = .bool b

def filledText : Shape := fun v =>
  exists s, v = .text s ∧ s ≠ ""

def positive : Shape := fun v =>
  exists x, v = .number x ∧ Number.lt 0 x = true

def positiveInteger : Shape := fun v =>
  exists x, v = .number x ∧ x.isInteger = true ∧ Number.lt 0 x = true

def word (words : List String) : Shape := fun v =>
  exists s, v = .text s ∧ s ∈ words

def listOf (shape : Shape) : Shape := fun v =>
  exists items, v = .list items ∧ forall item, item ∈ items -> shape item

def mapOf (shape : Shape) : Shape := fun v =>
  exists r, Check.record? v = some r ∧ forall field, field ∈ r.fields -> shape field.2

def optional (shape : Shape) : Shape := fun v =>
  v = .absent ∨ shape v

/-- A record that answers to some names with a value of a shape each. -/
def record (fields : List (String × Shape)) : Shape := fun v =>
  exists r, Check.record? v = some r ∧
    forall field, field ∈ fields -> field.2 (r.get field.1)

end Shape

namespace Check

def Passes (c : Check α) : Prop :=
  exists a, c = ok a

@[simp]
theorem passes_map {f : α -> β} {c : Check α} : Passes (f <$> c) ↔ Passes c := by
  constructor
  · intro hpass
    rcases hpass with ⟨b, hb⟩
    rcases map_eq_ok.mp hb with ⟨a, ha, _⟩
    exact ⟨a, ha⟩
  · intro hpass
    rcases hpass with ⟨a, ha⟩
    exact ⟨f a, map_eq_ok.mpr ⟨a, ha, rfl⟩⟩

@[simp]
theorem passes_seq {f : Check (α -> β)} {c : Check α} :
    Passes (f <*> c) ↔ Passes f ∧ Passes c := by
  constructor
  · intro hpass
    rcases hpass with ⟨b, hb⟩
    rcases seq_eq_ok.mp hb with ⟨g, a, hg, ha, _⟩
    exact ⟨⟨g, hg⟩, a, ha⟩
  · intro hpasses
    rcases hpasses with ⟨⟨g, hg⟩, a, ha⟩
    exact ⟨g a, seq_eq_ok.mpr ⟨g, a, hg, ha, rfl⟩⟩

theorem passes_require {test : α -> Bool} {message : String} {c : Check α} :
    Passes (c.require test message) ↔ exists a, c = ok a ∧ test a = true :=
  exists_congr fun _ => require_eq_ok

/-- Whether a check passes just the values of a shape. -/
def IsFor (check : Value -> Check α) (shape : Shape) : Prop :=
  forall v, Passes (check v) ↔ shape v

/-! ## Simple shapes -/

theorem boolean_isFor : IsFor boolean .switch := by
  intro v
  constructor
  · intro hpass
    rcases hpass with ⟨b, hb⟩
    cases v with
    | bool c => exact ⟨c, rfl⟩
    | _ => simp [boolean, wrongKind_ne_ok] at hb
  · intro hshape
    rcases hshape with ⟨b, rfl⟩
    exact ⟨b, rfl⟩

theorem width_pos_iff {text : List Char} : 1 ≤ Text.width text ↔ text ≠ [] := by
  cases text with
  | nil => simp [Text.width]
  | cons c rest =>
      have hunit : 1 ≤ Text.unitWidth c := by
        unfold Text.unitWidth
        split
        · exact Nat.le_refl 1
        · exact Nat.le_succ 1
      exact iff_of_true (Nat.le_add_right_of_le hunit) (List.cons_ne_nil c rest)

theorem filledText_isFor : IsFor (fun v => (string v).atLeast 1) .filledText := by
  have hfilled : forall s : String, decide (1 ≤ length s) = true ↔ s ≠ "" := by
    intro s
    rw [decide_eq_true_iff, length, width_pos_iff, Ne, Ne, String.toList_eq_nil_iff]
  intro v
  unfold atLeast
  rw [passes_require]
  constructor
  · intro hpass
    rcases hpass with ⟨s, hs, htest⟩
    exact ⟨s, string_passed hs, (hfilled s).mp htest⟩
  · intro hshape
    rcases hshape with ⟨s, rfl, hs⟩
    exact ⟨s, rfl, (hfilled s).mpr hs⟩

theorem number_of_positive {x : Number} (hpositive : Number.lt 0 x = true) :
    number (.number x) = ok x := by
  rcases Number.lt_iff.mp hpositive with ⟨_, _, _, hplace, _⟩
  cases x with
  | nan => cases hplace
  | _ => rfl

theorem positive_isFor : IsFor (fun v => (number v).positive) .positive := by
  intro v
  unfold positive
  rw [passes_require]
  constructor
  · intro hpass
    rcases hpass with ⟨x, hx, htest⟩
    exact ⟨x, number_passed hx, htest⟩
  · intro hshape
    rcases hshape with ⟨x, rfl, hx⟩
    exact ⟨x, number_of_positive hx, hx⟩

theorem positiveInteger_isFor : IsFor (fun v => (integer v).positive) .positiveInteger := by
  intro v
  unfold positive integer
  rw [passes_require]
  constructor
  · intro hpass
    rcases hpass with ⟨x, hx, htest⟩
    rcases require_eq_ok.mp hx with ⟨hnumber, hinteger⟩
    exact ⟨x, number_passed hnumber, hinteger, htest⟩
  · intro hshape
    rcases hshape with ⟨x, rfl, hinteger, hx⟩
    exact ⟨x, require_eq_ok.mpr ⟨number_of_positive hx, hinteger⟩, hx⟩

theorem oneOf_isFor (words : List (String × α)) :
    IsFor (oneOf words) (.word (words.map Prod.fst)) := by
  intro v
  constructor
  · intro hpass
    rcases hpass with ⟨a, ha⟩
    rcases oneOf_eq_ok.mp ha with ⟨s, rfl, hlookup⟩
    rcases List.lookup_eq_some_iff.mp hlookup with ⟨before, after, hsplit, _⟩
    exact ⟨s, rfl, by simp [hsplit]⟩
  · intro hshape
    rcases hshape with ⟨s, rfl, hs⟩
    cases hlookup : words.lookup s with
    | none =>
        rcases List.mem_map.mp hs with ⟨listed, hlisted, hsame⟩
        have hother := List.lookup_eq_none_iff.mp hlookup listed hlisted
        simp [hsame] at hother
    | some a => exact ⟨a, oneOf_eq_ok.mpr ⟨s, rfl, hlookup⟩⟩

/-! ## Compound shapes -/

section Compound

variable {check : Value -> Check α} {shape : Shape}

theorem IsFor.optional (hfor : IsFor check shape) :
    IsFor (Check.optional check) (.optional shape) := by
  intro v
  unfold Shape.optional
  rw [← hfor v]
  cases v with
  | absent => exact iff_of_true ⟨none, rfl⟩ (Or.inl rfl)
  | _ => exact (passes_map (f := some)).trans (or_iff_right Value.noConfusion).symm

theorem IsFor.withDefault (hfor : IsFor check shape) (a : α) :
    IsFor (Check.withDefault a check) (.optional shape) := by
  intro v
  unfold Shape.optional
  rw [← hfor v]
  cases v with
  | absent => exact iff_of_true ⟨a, rfl⟩ (Or.inl rfl)
  | _ => exact (or_iff_right Value.noConfusion).symm

theorem passes_items {index : Nat} {vs : List Value} :
    Passes (items check index vs) ↔ forall v, v ∈ vs -> Passes (check v) := by
  induction vs generalizing index with
  | nil => exact iff_of_true ⟨[], rfl⟩ (List.forall_mem_nil _)
  | cons v rest ih =>
      rw [items, passes_seq, passes_map, ih, List.forall_mem_cons]
      exact and_congr_left fun _ => exists_congr fun _ => under_eq_ok

theorem IsFor.list (hfor : IsFor check shape) : IsFor (Check.list check) (.listOf shape) := by
  intro v
  constructor
  · intro hpass
    rcases hpass with ⟨as, has⟩
    rcases list_eq_ok.mp has with ⟨vs, rfl, hitems⟩
    exact ⟨vs, rfl, fun item hitem => (hfor item).mp (passes_items.mp ⟨as, hitems⟩ item hitem)⟩
  · intro hshape
    rcases hshape with ⟨vs, rfl, hvs⟩
    exact passes_items.mpr fun item hitem => (hfor item).mpr (hvs item hitem)

theorem passes_record {check : Record -> Check α} {v : Value} :
    Passes (record check v) ↔ exists r, record? v = some r ∧ Passes (check r) := by
  constructor
  · intro hpass
    rcases hpass with ⟨a, ha⟩
    rcases record_eq_ok.mp ha with ⟨r, hr, hcheck⟩
    exact ⟨r, hr, a, hcheck⟩
  · intro hpasses
    rcases hpasses with ⟨r, hr, a, hcheck⟩
    exact ⟨a, record_eq_ok.mpr ⟨r, hr, hcheck⟩⟩

theorem IsFor.map? (hfor : IsFor check shape) : IsFor (Check.map? check) (.mapOf shape) := by
  intro v
  unfold Check.map?
  rw [passes_record]
  apply exists_congr
  intro r
  apply and_congr_right
  intro _
  exact entries_pass_iff.trans (forall₂_congr fun field _ => hfor field.2)

theorem IsFor.field (hfor : IsFor check shape) (r : Record) (name : String) :
    Passes (Check.field r name check) ↔ shape (r.get name) :=
  (exists_congr fun _ => field_eq_ok).trans (hfor (r.get name))

theorem record_isFor {check : Record -> Check α} {fields : List (String × Shape)}
    (hfields : forall r, Passes (check r) ↔
      forall field, field ∈ fields -> field.2 (r.get field.1)) :
    IsFor (record check) (.record fields) := by
  intro v
  rw [passes_record]
  exact exists_congr fun r => and_congr_right fun _ => hfields r

end Compound

end Check

end OperatorConsole
