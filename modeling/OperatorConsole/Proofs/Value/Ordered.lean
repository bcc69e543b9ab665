import Mathlib.Data.List.Basic
import OperatorConsole.Proofs.Value.Fields

/-!
# Order of fields

In a record no key stands twice, keys that are canonical array indices come first, ascending, and
the other keys have the order in which they were defined.  Defining a field keeps this order, and
fields that have it are defined one after the other without moving.
-/

namespace OperatorConsole

namespace Fields

/-! ## Index keys -/

section Digit

variable {c : Char} (hc : c.isDigit = true)

include hc

theorem toNat_digit : c.toNat = Decimal.digitValue c + 48 ∧ Decimal.digitValue c < 10 := by
  have hrange : 48 ≤ c.toNat ∧ c.toNat ≤ 57 := Char.isDigit_iff_toNat.mp hc
  unfold Decimal.digitValue
  omega

theorem toDigits_digitValue : Nat.toDigits 10 (Decimal.digitValue c) = [c] := by
  have hback : forall n, n < 10 -> (Nat.digitChar n).toNat = n + 48 := by decide
  rcases toNat_digit hc with ⟨hvalue, hdigit⟩
  have hchar : Nat.digitChar (Decimal.digitValue c) = c := by
    apply Char.toNat_inj.mp
    rw [hback _ hdigit, ← hvalue]
  rw [Nat.toDigits_of_lt_base hdigit, hchar]

theorem digitValue_pos (hzero : c ≠ '0') : 0 < Decimal.digitValue c := by
  have hnat : c.toNat ≠ 48 := fun heq => hzero (Char.toNat_inj.mp heq)
  have hvalue := (toNat_digit hc).1
  omega

end Digit

theorem toDigits_foldl {digits : List Char} (hdigits : forall c, c ∈ digits -> c.isDigit = true)
    {n : Nat} (hn : 0 < n) :
    Nat.toDigits 10 (digits.foldl (fun n c => 10 * n + Decimal.digitValue c) n) =
      Nat.toDigits 10 n ++ digits := by
  induction digits generalizing n with
  | nil => exact (List.append_nil _).symm
  | cons c rest ih =>
      rcases List.forall_mem_cons.mp hdigits with ⟨hc, hrest⟩
      rw [List.foldl_cons, ih hrest (by omega),
        ← Nat.toDigits_append_toDigits (by decide) hn (toNat_digit hc).2, toDigits_digitValue hc,
        List.append_assoc, List.singleton_append]

theorem toList_of_index? {key : String} {n : Nat} (hindex : index? key = some n) :
    key.toList = Nat.toDigits 10 n := by
  unfold index? at hindex
  split at hindex
  case h_1 => cases hindex
  case h_2 hkey =>
      cases hindex
      rw [hkey]
      rfl
  case h_3 => cases hindex
  case h_4 digits hsome _ hhead =>
      split at hindex
      case isFalse => cases hindex
      case isTrue hdigits =>
        dsimp only at hindex
        split at hindex
        case isFalse => cases hindex
        case isTrue =>
          cases hindex
          rw [Bool.and_eq_true, List.all_eq_true] at hdigits
          rcases List.exists_cons_of_ne_nil hsome with ⟨c, rest, hkey⟩
          rw [hkey] at hdigits hhead ⊢
          rcases List.forall_mem_cons.mp hdigits.1 with ⟨hc, hrest⟩
          have hvalue : 0 < Decimal.digitValue c :=
            digitValue_pos hc fun heq => hhead rest (by rw [heq])
          have hfold := toDigits_foldl hrest hvalue
          rw [toDigits_digitValue hc, List.singleton_append] at hfold
          have hnatural : Decimal.naturalOf (c :: rest) =
              rest.foldl (fun n c => 10 * n + Decimal.digitValue c) (Decimal.digitValue c) := by
            rw [Decimal.naturalOf, List.foldl_cons, Nat.mul_zero, Nat.zero_add]
          rw [hnatural, hfold]

theorem index?_inj {key other : String} {n : Nat} (hkey : index? key = some n)
    (hother : index? other = some n) : key = other :=
  String.toList_inj.mp ((toList_of_index? hkey).trans (toList_of_index? hother).symm)

/-! ## Order -/

def ComesBefore (key other : String) : Prop :=
  match index? key, index? other with
  | some m, some n => m < n
  | some _, none => True
  | none, some _ => False
  | none, none => key ≠ other

instance (key other : String) : Decidable (ComesBefore key other) := by
  unfold ComesBefore
  split
  · infer_instance
  · infer_instance
  · infer_instance
  · infer_instance

def IsOrdered (fields : Fields) : Prop :=
  fields.Pairwise fun field other => ComesBefore field.1 other.1

theorem comesBefore_index {key other : String} {n : Nat} (hkey : index? key = some n) :
    ComesBefore key other ↔ forall m, index? other = some m -> n < m := by
  unfold ComesBefore
  rw [hkey]
  cases index? other with
  | some m => simp
  | none => simp

theorem comesBefore_other {key other : String} (hkey : index? key = none) :
    ComesBefore key other ↔ index? other = none ∧ key ≠ other := by
  unfold ComesBefore
  rw [hkey]
  cases index? other with
  | some m => simp
  | none => simp

theorem comesBefore_of_lt {key other : String} {n m : Nat} (hkey : index? key = some n)
    (hother : index? other = some m) (hlt : n < m) : ComesBefore key other := by
  rw [comesBefore_index hkey, hother]
  intro l hl
  cases hl
  exact hlt

theorem comesBefore_indexless {key other : String} {n : Nat} (hkey : index? key = some n)
    (hother : index? other = none) : ComesBefore key other := by
  rw [comesBefore_index hkey, hother]
  intro m hm
  cases hm

/-- What an index key stands before, it stands before with all that follows. -/
theorem ComesBefore.followed {key next other : String} {n : Nat} (hkey : index? key = some n)
    (hnext : ComesBefore key next) (hother : ComesBefore next other) : ComesBefore key other := by
  rw [comesBefore_index hkey] at hnext ⊢
  intro m hm
  cases hindex : index? next with
  | some l => exact Nat.lt_trans (hnext l hindex) ((comesBefore_index hindex).mp hother m hm)
  | none =>
      rw [((comesBefore_other hindex).mp hother).1] at hm
      cases hm

theorem ComesBefore.ne {key other : String} (hbefore : ComesBefore key other) : key ≠ other := by
  rintro rfl
  cases hkey : index? key with
  | some n => exact Nat.lt_irrefl n ((comesBefore_index hkey).mp hbefore n hkey)
  | none => exact ((comesBefore_other hkey).mp hbefore).2 rfl

/-! ## Defining fields in their order -/

section Last

variable {fields : Fields} {key : String} {v : Value}

theorem insertIndex_last {n : Nat} (hkey : index? key = some n)
    (hbefore : forall field, field ∈ fields -> ComesBefore field.1 key) :
    fields.insertIndex n key v = fields ++ [(key, v)] := by
  induction fields with
  | nil => rfl
  | cons field rest ih =>
      rcases field with ⟨k, w⟩
      rcases List.forall_mem_cons.mp hbefore with ⟨hfirst, hrest⟩
      rw [insertIndex, ih hrest]
      cases hindex : index? k with
      | some m => exact if_pos ((comesBefore_index hindex).mp hfirst n hkey)
      | none =>
          rw [((comesBefore_other hindex).mp hfirst).1] at hkey
          cases hkey

theorem define_last (hbefore : forall field, field ∈ fields -> ComesBefore field.1 key) :
    fields.define key v = fields ++ [(key, v)] := by
  have hmissing : fields.hasOwn key = false := by
    apply List.any_eq_false.mpr
    intro field hfield
    simpa using (hbefore field hfield).ne
  unfold define
  rw [if_neg (by rw [hmissing]; exact Bool.false_ne_true)]
  cases hkey : index? key with
  | none => rfl
  | some n => exact insertIndex_last hkey hbefore

end Last

theorem IsOrdered.ofList_eq {fields : Fields} (hordered : fields.IsOrdered) :
    ofList fields = fields := by
  have hfold : forall front : Fields, (front ++ fields).IsOrdered ->
      fields.foldl (fun fields member => fields.define member.1 member.2) front =
        front ++ fields := by
    clear hordered
    induction fields with
    | nil => exact fun front _ => (List.append_nil front).symm
    | cons field rest ih =>
        intro front hordered
        have hbefore : forall earlier, earlier ∈ front -> ComesBefore earlier.1 field.1 :=
          fun earlier hearlier =>
            (List.pairwise_append.mp hordered).2.2 earlier hearlier field List.mem_cons_self
        rw [List.append_cons] at hordered ⊢
        rw [List.foldl_cons, define_last hbefore]
        exact ih _ hordered
  exact hfold [] hordered

/-! ## The order is kept -/

section Kept

variable {fields : Fields} {key : String} (v : Value)

theorem IsOrdered.replace (hordered : fields.IsOrdered) (key : String) :
    (fields.replace key v).IsOrdered := by
  have hkeys : (fields.replace key v).map Prod.fst = fields.map Prod.fst := by
    clear hordered
    induction fields with
    | nil => rfl
    | cons field rest ih =>
        rcases field with ⟨k, w⟩
        rw [Fields.replace]
        split
        · rfl
        · rw [List.map_cons, List.map_cons, ih]
  unfold IsOrdered at hordered ⊢
  rw [← List.pairwise_map (f := Prod.fst) (R := ComesBefore)] at hordered ⊢
  rw [hkeys]
  exact hordered

theorem IsOrdered.insertIndex (hordered : fields.IsOrdered) {n : Nat}
    (hkey : index? key = some n) (hmissing : forall field, field ∈ fields -> field.1 ≠ key) :
    (fields.insertIndex n key v).IsOrdered := by
  induction fields with
  | nil => exact List.pairwise_singleton _ _
  | cons field rest ih =>
      rcases field with ⟨k, w⟩
      rcases List.pairwise_cons.mp hordered with ⟨hfirst, hrest⟩
      rcases List.forall_mem_cons.mp hmissing with ⟨hother, hothers⟩
      have hfront : ComesBefore key k -> Fields.IsOrdered ((key, v) :: (k, w) :: rest) := by
        intro hbefore
        refine List.pairwise_cons.mpr ⟨List.forall_mem_cons.mpr ⟨hbefore, ?_⟩, hordered⟩
        exact fun field hfield => hbefore.followed hkey (hfirst field hfield)
      rw [Fields.insertIndex]
      cases hindex : index? k with
      | some m =>
          dsimp only
          split
          case isTrue hsmaller =>
              refine List.pairwise_cons.mpr ⟨?_, ih hrest hothers⟩
              intro field hfield
              rcases mem_insertIndex hfield with hold | rfl
              · exact hfirst field hold
              · exact comesBefore_of_lt hindex hkey hsmaller
          case isFalse hlarger =>
              have hne : m ≠ n := fun heq => hother (index?_inj hindex (heq ▸ hkey))
              exact hfront (comesBefore_of_lt hkey hindex (by omega))
      | none => exact hfront (comesBefore_indexless hkey hindex)

theorem IsOrdered.define (hordered : fields.IsOrdered) (key : String) :
    (fields.define key v).IsOrdered := by
  unfold Fields.define
  split
  case isTrue => exact hordered.replace v key
  case isFalse hmissing =>
    have hothers : forall field, field ∈ fields -> field.1 ≠ key := by
      intro field hfield hsame
      exact hmissing (List.any_eq_true.mpr ⟨field, hfield, beq_iff_eq.mpr hsame⟩)
    cases hkey : index? key with
    | some n => exact hordered.insertIndex v hkey hothers
    | none =>
        refine List.pairwise_append.mpr ⟨hordered, List.pairwise_singleton _ _, ?_⟩
        intro field hfield other hother
        rw [List.mem_singleton.mp hother]
        cases hindex : index? field.1 with
        | some m => exact comesBefore_indexless hindex hkey
        | none => exact (comesBefore_other hindex).mpr ⟨hkey, hothers field hfield⟩

end Kept

end Fields

end OperatorConsole
