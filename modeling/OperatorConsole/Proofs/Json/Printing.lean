import OperatorConsole.Proofs.Json.Grammar
import OperatorConsole.Proofs.Number.Decimal
import OperatorConsole.Proofs.Value.Ordered

/-!
# Documents of flat records

A record without structures inside is written by its compact document, save for what a document
does not hold: absent values are left out, and a zero has no sign.
-/

namespace OperatorConsole

/-! ## Flat values -/

/-- The number with the zero that has no sign in the place of the one that has. -/
def Number.unsigned (x : Number) : Number :=
  if x = .zero true then .zero false else x

namespace Value

def unsigned : Value -> Value
  | .number x => .number x.unsigned
  | v => v

/-- A value without parts: absent, null, a truth value, a finite number or a text. -/
def IsFlat : Value -> Prop
  | .absent => True
  | .null => True
  | .bool _ => True
  | .number x => x.isFinite = true
  | .text s => Text.IsWhole s.toList
  | _ => False

instance : (v : Value) -> Decidable v.IsFlat
  | .absent => isTrue True.intro
  | .null => isTrue True.intro
  | .bool _ => isTrue True.intro
  | .number x => instDecidableEqBool x.isFinite true
  | .text s => inferInstanceAs (Decidable (Text.IsWhole s.toList))
  | .exact _ => isFalse id
  | .bytes _ => isFalse id
  | .list _ => isFalse id
  | .record _ _ => isFalse id
  | .ancestor => isFalse id
  | .supplier _ => isFalse id
  | .routine _ => isFalse id

end Value

namespace Fields

/-- Fields of a record that holds flat values only.  That they are ordered and that texts are whole
limits no record; it is the form in which fields and texts are held. -/
structure AreFlat (fields : Fields) : Prop where
  ordered : fields.IsOrdered
  keys : forall field, field ∈ fields -> Text.IsWhole field.1.toList
  values : forall field, field ∈ fields -> field.2.IsFlat

def recorded (fields : Fields) : Fields :=
  (fields.filter fun field => !field.2.isAbsent).map fun field => (field.1, field.2.unsigned)

theorem AreFlat.tail {field : String × Value} {fields : Fields}
    (hflat : AreFlat (field :: fields)) : AreFlat fields := by
  constructor
  case ordered => exact (List.pairwise_cons.mp hflat.ordered).2
  case keys => exact (List.forall_mem_cons.mp hflat.keys).2
  case values => exact (List.forall_mem_cons.mp hflat.values).2

theorem recorded_isOrdered {fields : Fields} (hordered : fields.IsOrdered) :
    fields.recorded.IsOrdered :=
  List.pairwise_map.mpr (hordered.sublist List.filter_sublist)

end Fields

namespace Json

/-! ## Texts and numbers -/

theorem quote_writes {s : String} (hwhole : Text.IsWhole s.toList) :
    WritesString (quote s.toList) s := by
  rcases quoted_content hwhole with ⟨pieces, hcontent, hdenote⟩
  have hwrites := WritesString.quoted hcontent
  rw [hdenote, String.ofList_toList] at hwrites
  exact hwrites

theorem toChars_writes {x : Number} (hfinite : x.isFinite = true) :
    Writes x.toChars (.number x.unsigned) := by
  cases x with
  | nan => cases hfinite
  | infinity negative => cases hfinite
  | finite negative rank =>
      rcases Number.toChars_spells negative rank with ⟨d, hspells, hvalue⟩
      have hunsigned : d.toNumber = (Number.finite negative rank).unsigned := by
        rw [hvalue]
        unfold Number.unsigned
        by_cases hzero : rank.val = 0
        · have hrank : rank = ⟨0, by decide⟩ := Fin.ext hzero
          subst hrank
          rw [if_pos rfl]
          cases negative with
          | true => exact (if_pos rfl).symm
          | false => exact (if_neg nofun).symm
        · rw [if_neg hzero, if_neg]
          intro heq
          cases heq
          exact hzero rfl
      have hwrites := Writes.number hspells
      rw [hunsigned] at hwrites
      exact hwrites

theorem print?_flat {v : Value} (hflat : v.IsFlat) (hpresent : v.isAbsent = false)
    (layout : Layout) (level : Nat) :
    exists text, print? layout level v = some text ∧ Writes text v.unsigned := by
  cases v with
  | absent => cases hpresent
  | null => exact ⟨_, rfl, .null⟩
  | bool b =>
      cases b with
      | true => exact ⟨_, rfl, .yes⟩
      | false => exact ⟨_, rfl, .no⟩
  | number x => exact ⟨_, congrArg some (if_pos hflat), toChars_writes hflat⟩
  | text s => exact ⟨_, rfl, .text (quote_writes hflat)⟩
  | _ => cases hflat

/-! ## Records -/

theorem isBlank_nil : IsBlank [] :=
  List.forall_mem_nil _

theorem Writes.between {text : List Char} {v : Value} (hwrites : Writes text v) :
    WritesBetween text v := by
  have hbetween := WritesBetween.between isBlank_nil hwrites isBlank_nil
  rw [List.append_nil] at hbetween
  exact hbetween

theorem member_writes {key : String} (hkey : Text.IsWhole key.toList) {text : List Char}
    {v : Value} (hwrites : Writes text v) :
    WritesMember (quote key.toList ++ Layout.compact.colon ++ text) (key, v) := by
  have hmember := WritesMember.member isBlank_nil (quote_writes hkey) isBlank_nil
    hwrites.between
  rw [List.append_assoc]
  exact hmember

theorem printFields_flat {fields : Fields} (hflat : fields.AreFlat) (level : Nat) :
    List.Forall₂ WritesMember (printFields .compact level fields) fields.recorded := by
  induction fields with
  | nil => exact .nil
  | cons field rest ih =>
      rcases field with ⟨key, v⟩
      have hrest := ih hflat.tail
      have hvalue := hflat.values (key, v) List.mem_cons_self
      cases habsent : v.isAbsent with
      | true =>
          -- An absent value is neither printed nor recorded.
          cases v with
          | absent => exact hrest
          | _ => cases habsent
      | false =>
          rcases print?_flat hvalue habsent .compact level with ⟨text, htext, hwrites⟩
          have hmember := member_writes (hflat.keys (key, v) List.mem_cons_self) hwrites
          have hrecorded : Fields.recorded ((key, v) :: rest) =
              (key, v.unsigned) :: Fields.recorded rest := by
            unfold Fields.recorded
            rw [List.filter_cons_of_pos (by rw [habsent]; rfl)]
            rfl
          rw [hrecorded, printFields, htext]
          exact .cons hmember hrest

theorem joinWith_writes {texts : List (List Char)} {members : List (String × Value)}
    (hmembers : List.Forall₂ WritesMember texts members) (hsome : members ≠ []) :
    WritesMembers (Text.joinWith [','] texts) members := by
  induction hmembers with
  | nil => exact absurd rfl hsome
  | @cons text member texts members hmember hrest ih =>
      cases hrest with
      | nil => exact .last hmember
      | cons hnext hothers =>
          have hmore := WritesMembers.more hmember (ih (List.cons_ne_nil _ _))
          rw [Text.joinWith, List.append_assoc]
          · exact hmore
          · exact nofun

theorem enclose_writes {texts : List (List Char)} {members : Fields}
    (hmembers : List.Forall₂ WritesMember texts members) (hordered : members.IsOrdered)
    (level : Nat) : Writes (Layout.compact.enclose level '{' '}' texts) (.ofFields members) := by
  cases hmembers with
  | nil => exact .emptyRecord isBlank_nil
  | @cons text member texts members hmember hrest =>
      have hinner := joinWith_writes (.cons hmember hrest) (List.cons_ne_nil member members)
      have hrecord := Writes.record hinner
      rw [hordered.ofList_eq] at hrecord
      change Writes ('{' :: ([] ++ Text.joinWith [','] (text :: texts) ++ [] ++ ['}'])) _
      rw [List.nil_append, List.append_nil]
      exact hrecord

/-- The compact document of a flat record writes what is recorded of it. -/
theorem compact?_flat {fields : Fields} (hflat : fields.AreFlat) :
    exists document, compact? (.ofFields fields) = some document ∧
      Writes document.toList (.ofFields fields.recorded) := by
  refine ⟨_, rfl, ?_⟩
  rw [String.toList_ofList]
  exact enclose_writes (printFields_flat hflat 1) (Fields.recorded_isOrdered hflat.ordered) 0

end Json

end OperatorConsole
