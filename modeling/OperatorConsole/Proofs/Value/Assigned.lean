import OperatorConsole.Proofs.Value.Ordered

/-!
# Entries stored by assignment

A record that entries are assigned to, one after the other, holds under each ordinary key the last
value that an entry had for it, and no key twice.

## The key of the base

Under `Fields.baseKey` entries are lost as long as the key stands for the base.  A null among them
takes the base away, and from then on the key is one like all others.
-/

namespace OperatorConsole

namespace Fields

/-- The values that entries have for a key, in their order. -/
def valuesUnder (key : String) (entries : List (String × Value)) : List Value :=
  (entries.filter fun entry => entry.1 = key).map Prod.snd

theorem valuesUnder_cons_self (key : String) (v : Value) (entries : List (String × Value)) :
    valuesUnder key ((key, v) :: entries) = v :: valuesUnder key entries := by
  simp [valuesUnder]

theorem valuesUnder_cons_other {key name : String} (hname : name ≠ key) (v : Value)
    (entries : List (String × Value)) :
    valuesUnder name ((key, v) :: entries) = valuesUnder name entries := by
  simp [valuesUnder, hname.symm]

theorem IsOrdered.nodup_keys {fields : Fields} (hordered : fields.IsOrdered) :
    fields.keys.Nodup :=
  List.pairwise_map.mpr (hordered.imp fun hbefore => hbefore.ne)

theorem mem_keys_iff {fields : Fields} {key : String} :
    key ∈ fields.keys ↔ exists v, fields.own? key = some v := by
  induction fields with
  | nil => simp [keys]
  | cons field rest ih =>
      rcases field with ⟨name, v⟩
      rw [own?_cons]
      change key ∈ name :: keys rest ↔ _
      rw [List.mem_cons, ih]
      by_cases hkey : key = name
      · rw [if_pos hkey]
        exact iff_of_true (Or.inl hkey) ⟨v, rfl⟩
      · rw [if_neg hkey]
        exact or_iff_right hkey

end Fields

/-- Whether a value that becomes a base leaves the key of the base as it is, null apart. -/
def Value.IsBareBase (v : Value) : Prop :=
  v.isBase = true -> v = .null ∨ (v.isRooted = true ∧ v.stored? Fields.baseKey = none)

namespace Record

open Fields (baseKey valuesUnder valuesUnder_cons_self valuesUnder_cons_other)

/-- Stores entries by assignment, one after the other. -/
def assignAll (r : Record) (entries : List (String × Value)) : Record :=
  entries.foldl (fun r entry => r.assign entry.1 entry.2) r

theorem assignAll_cons (r : Record) (entry : String × Value) (entries : List (String × Value)) :
    r.assignAll (entry :: entries) = (r.assign entry.1 entry.2).assignAll entries := rfl

theorem own?_assignAll (r : Record) (entries : List (String × Value)) {name : String}
    (hname : name ≠ baseKey) :
    (r.assignAll entries).fields.own? name =
      (valuesUnder name entries).getLast?.or (r.fields.own? name) := by
  induction entries generalizing r with
  | nil => rfl
  | cons entry rest ih =>
      rcases entry with ⟨key, v⟩
      rw [assignAll_cons, ih, own?_assign _ _ _ hname]
      by_cases hkey : name = key
      · subst hkey
        rw [if_pos rfl, valuesUnder_cons_self, List.getLast?_cons, Option.or_some, Option.some_or]
      · rw [if_neg hkey, valuesUnder_cons_other hkey]

theorem isOrdered_assign {r : Record} (hordered : r.fields.IsOrdered) (key : String) (v : Value) :
    (r.assign key v).fields.IsOrdered := by
  unfold assign
  split
  · split
    · exact hordered
    · exact hordered
  · exact hordered.define v key

theorem isOrdered_assignAll {r : Record} (hordered : r.fields.IsOrdered)
    (entries : List (String × Value)) : (r.assignAll entries).fields.IsOrdered := by
  induction entries generalizing r with
  | nil => exact hordered
  | cons entry rest ih => exact ih (isOrdered_assign hordered entry.1 entry.2)

/-! ## Under the key of the base -/

theorem isBaseKey_eq (r : Record) :
    r.isBaseKey baseKey =
      (r.base.isRooted && ((r.fields.own? baseKey).or (r.base.stored? baseKey)).isNone) := by
  unfold isBaseKey toValue
  rw [decide_eq_true rfl, Bool.true_and, Value.stored?]
  cases r.fields.own? baseKey with
  | none => rfl
  | some v => rfl

theorem own?_of_isBaseKey {r : Record} (hbase : r.isBaseKey baseKey = true) :
    r.fields.own? baseKey = none := by
  rw [isBaseKey_eq, Bool.and_eq_true, Option.isNone_iff_eq_none, Option.or_eq_none_iff] at hbase
  exact hbase.2.1

theorem isBaseKey_assign_other (r : Record) {key : String} (hkey : key ≠ baseKey) (v : Value) :
    (r.assign key v).isBaseKey baseKey = r.isBaseKey baseKey := by
  rw [assign_ordinary r hkey, isBaseKey_eq, isBaseKey_eq]
  dsimp only
  rw [Fields.own?_define, if_neg hkey.symm]

/-- While the key stands for the base nothing is stored under it, and only null ends that. -/
theorem assign_base {r : Record} (hbase : r.isBaseKey baseKey = true) {v : Value}
    (hv : v.IsBareBase) :
    (r.assign baseKey v).fields = r.fields ∧
      (r.assign baseKey v).isBaseKey baseKey = (v != .null) := by
  have hown := own?_of_isBaseKey hbase
  unfold assign
  rw [if_pos hbase]
  split
  case isTrue hisBase =>
    refine ⟨rfl, ?_⟩
    rw [isBaseKey_eq]
    dsimp only
    rcases hv hisBase with hnull | ⟨hrooted, hstored⟩
    · rw [hnull]
      rfl
    · have hother : v ≠ .null := by
        intro hnull
        rw [hnull] at hrooted
        cases hrooted
      rw [hown, hrooted, hstored, bne_iff_ne.mpr hother]
      rfl
  case isFalse hnoBase =>
    have hother : v ≠ .null := by
      intro hnull
      rw [hnull] at hnoBase
      exact hnoBase rfl
    exact ⟨rfl, by rw [hbase, bne_iff_ne.mpr hother]⟩

/-- A key that does not stand for the base any more is stored under like all others. -/
theorem assign_free {r : Record} (hfree : r.isBaseKey baseKey = false) (v : Value) :
    (r.assign baseKey v).fields.own? baseKey = some v ∧
      (r.assign baseKey v).isBaseKey baseKey = false := by
  have hassign : r.assign baseKey v = { r with fields := r.fields.define baseKey v } := by
    unfold assign
    rw [hfree]
    rfl
  have hown : (r.assign baseKey v).fields.own? baseKey = some v := by
    rw [hassign, Fields.own?_define, if_pos rfl]
  refine ⟨hown, ?_⟩
  rw [isBaseKey_eq, hown]
  exact Bool.and_false _

theorem own?_assignAll_free {r : Record} (hfree : r.isBaseKey baseKey = false)
    (entries : List (String × Value)) :
    (r.assignAll entries).fields.own? baseKey =
      (valuesUnder baseKey entries).getLast?.or (r.fields.own? baseKey) := by
  induction entries generalizing r with
  | nil => rfl
  | cons entry rest ih =>
      rcases entry with ⟨key, v⟩
      rw [assignAll_cons]
      by_cases hkey : key = baseKey
      · subst hkey
        rcases assign_free hfree v with ⟨hown, hstill⟩
        rw [ih hstill, hown, valuesUnder_cons_self, List.getLast?_cons, Option.or_some,
          Option.some_or]
      · have hstill := (isBaseKey_assign_other r hkey v).trans hfree
        rw [ih hstill, valuesUnder_cons_other (Ne.symm hkey), assign_ordinary r hkey]
        dsimp only
        rw [Fields.own?_define, if_neg (Ne.symm hkey)]

/-- What is left of the values under the key of the base: the last one behind the first null. -/
theorem own?_assignAll_base {r : Record} (hbase : r.isBaseKey baseKey = true)
    {entries : List (String × Value)}
    (hentries : forall v, v ∈ valuesUnder baseKey entries -> v.IsBareBase) :
    (r.assignAll entries).fields.own? baseKey =
      ((valuesUnder baseKey entries).dropWhile fun v => v != .null).tail.getLast? := by
  induction entries generalizing r with
  | nil => exact own?_of_isBaseKey hbase
  | cons entry rest ih =>
      rcases entry with ⟨key, v⟩
      rw [assignAll_cons]
      by_cases hkey : key = baseKey
      · subst hkey
        rw [valuesUnder_cons_self] at hentries ⊢
        rcases List.forall_mem_cons.mp hentries with ⟨hv, hrest⟩
        rcases assign_base hbase hv with ⟨hfields, hstill⟩
        by_cases hnull : v = .null
        · have hfree : (r.assign baseKey v).isBaseKey baseKey = false := by
            rw [hstill, hnull]
            rfl
          rw [own?_assignAll_free hfree, hfields, own?_of_isBaseKey hbase, Option.or_none, hnull]
          rfl
        · rw [ih (hstill.trans (bne_iff_ne.mpr hnull)) hrest, List.dropWhile_cons_of_pos]
          exact bne_iff_ne.mpr hnull
      · rw [valuesUnder_cons_other (Ne.symm hkey)] at hentries ⊢
        exact ih ((isBaseKey_assign_other r hkey v).trans hbase) hentries

end Record

end OperatorConsole
