import OperatorConsole.Proofs.Query.Composed

/-!
# What verbs compose

Each terminal verb concludes with a value that is composed of what the rows answer to the columns
it reads, and each result verb makes such values of such values.
-/

namespace OperatorConsole

open OperatorConsole.Action Value

namespace Query

variable {names : String -> Prop}

/-! ## Verbs that read columns -/

theorem columnOf_ok {verb column : String} {arg : Option Operand}
    (hcolumn : columnOf verb arg = .ok column) :
    arg = some (.scalar (.text column)) ∧ isColumnName column = true := by
  unfold columnOf at hcolumn
  split at hcolumn
  · split at hcolumn
    · rename_i hname
      cases hcolumn
      exact ⟨rfl, hname⟩
    · cases hcolumn
  · cases hcolumn

/-- Whether all columns that are named among some operands have a property. -/
def ColumnsAre (names : String -> Prop) (args : List Operand) : Prop :=
  forall column, Operand.scalar (.text column) ∈ args -> isColumnName column = true -> names column

theorem yields_columnOf {args : List Operand} (hargs : ColumnsAre names args) (verb : String)
    (i : Nat) : Yields names (columnOf verb args[i]?) := by
  intro column hcolumn
  rcases columnOf_ok hcolumn with ⟨harg, hname⟩
  exact hargs column (List.mem_of_getElem? harg) hname

namespace TerminalVerb

/-- Whether the values of a column are what a verb gives. -/
def ReadsColumn (verb : TerminalVerb) : Prop :=
  verb = .pluck ∨ verb = .value

variable {plan : Plan} {args : List Operand}

theorem askPluck_composed (hargs : ColumnsAre names args) (verb : String) :
    Yields (Inquiry.Concludes ScalarRow (Composed names) fun _ => True)
      (askPluck verb plan args) := by
  refine Yields.behind fun _ => (yields_columnOf hargs verb 0).bind ?_
  intro valueColumn hvalueColumn
  split
  · refine Yields.behind fun keyColumn => Yields.ok ?_
    intro answer hanswer
    have hkeyed := composed_keyedRecord hanswer hvalueColumn keyColumn
    dsimp only
    cases hrecord : keyedRecord valueColumn keyColumn answer with
    | error failure => exact trivial
    | ok record =>
        rw [hrecord] at hkeyed
        exact hkeyed
  · refine Yields.ok ?_
    intro answer hanswer
    refine Composed.list ?_
    intro item hitem
    rcases List.mem_map.mp hitem with ⟨row, hrow, rfl⟩
    exact composed_at (hanswer row hrow) hvalueColumn

theorem askValue_composed (hargs : ColumnsAre names args) (verb : String) :
    Yields (Inquiry.Concludes ScalarRow (Composed names) fun _ => True)
      (askValue verb plan args) := by
  refine Yields.behind fun _ => (yields_columnOf hargs verb 0).bind ?_
  intro column hcolumn
  refine Yields.ok ?_
  intro answer hanswer
  cases answer with
  | nil => exact composed_null
  | cons row rest => exact composed_at (hanswer row List.mem_cons_self) hcolumn

theorem askFind_composed (required : Bool) (verb entity key : String) :
    Yields (Inquiry.Concludes ScalarRow (Composed names) fun _ => True)
      (askFind required verb entity key plan args) := by
  refine Yields.behind fun _ => Yields.behind fun id => Yields.ok ?_
  intro answer hanswer
  unfold found
  dsimp only
  split
  · exact trivial
  · exact composed_rowOrNull hanswer

theorem askSole_composed (verb : String) :
    Yields (Inquiry.Concludes ScalarRow (Composed names) fun _ => True)
      (askSole verb plan args) := by
  refine Yields.behind fun _ => Yields.ok ?_
  intro answer hanswer
  unfold only
  split
  · exact trivial
  · exact composed_row (hanswer _ List.mem_cons_self)
  · exact trivial

theorem askAggregate_composed (fn : AggregateFunction) (verb : String) :
    Yields (Inquiry.Concludes ScalarRow (Composed names) fun _ => True)
      (askAggregate fn verb plan args) :=
  Yields.behind fun _ => Yields.behind fun _ =>
    Yields.ok fun answer => composed_numberOrNull answer

theorem askExists_composed (wanted : Bool) (verb : String) :
    Yields (Inquiry.Concludes ScalarRow (Composed names) fun _ => True)
      (askExists wanted verb plan args) :=
  Yields.behind fun _ => Yields.ok fun _ => .scalar (.bool _)

/-- What an inquiry concludes is composed of data, and of what its verb reads from columns. -/
theorem inquiry_composed (verb : TerminalVerb) (entity key : String)
    (hargs : verb.ReadsColumn -> ColumnsAre names args) :
    Yields (Inquiry.Concludes ScalarRow (Composed names) fun _ => True)
      (verb.inquiry entity key plan args) := by
  cases verb with
  | get =>
      exact Yields.behind fun _ => Yields.ok fun _ hanswer => composed_rows hanswer
  | first =>
      exact Yields.behind fun _ => Yields.ok fun _ hanswer => composed_rowOrNull hanswer
  | find => exact askFind_composed _ _ entity key
  | findOrFail => exact askFind_composed _ _ entity key
  | sole => exact askSole_composed _
  | pluck => exact askPluck_composed (hargs (Or.inl rfl)) _
  | value => exact askValue_composed (hargs (Or.inr rfl)) _
  | count => exact Yields.behind fun _ => Yields.ok fun _ => .scalar (.number _)
  | min => exact askAggregate_composed _ _
  | max => exact askAggregate_composed _ _
  | avg => exact askAggregate_composed _ _
  | sum =>
      exact Yields.behind fun _ => Yields.behind fun _ =>
        Yields.ok fun _ => .scalar (.number _)
  | «exists» => exact askExists_composed _ _
  | doesntExist => exact askExists_composed _ _
  | paginate =>
      refine Yields.behind fun _ => Yields.ok fun total answer hanswer => ?_
      exact composed_page hanswer (by simp [Value.scalar?])
  | simplePaginate =>
      refine Yields.behind fun _ => Yields.ok fun answer hanswer => ?_
      refine composed_page ?_ (by simp [Value.scalar?])
      intro row hrow
      exact hanswer row (List.mem_of_mem_take hrow)
  | lazy =>
      exact Yields.behind fun _ => Yields.ok fun _ hanswer => composed_rows hanswer

end TerminalVerb

/-! ## Result verbs -/

theorem yields_items {verb : String} {v : Value} (hv : Composed names v) :
    Yields (fun items => forall item, item ∈ items -> Composed names item) (itemsOf verb v) := by
  cases v with
  | list items => exact Yields.ok hv.parts
  | _ => exact Yields.error _

theorem composed_printed {v : Value} (hv : Composed names v) (hprinted : Json.compact? v = none) :
    exists w, Inherits names w := by
  cases hv with
  | scalar s =>
      cases s with
      | _ => cases hprinted
  | list _ => cases hprinted
  | record _ _ => cases hprinted
  | inherited hinherits => exact ⟨_, hinherits⟩
  | missing hinherits => exact ⟨_, hinherits⟩

theorem composed_jsonOf {v : Value} (hv : Composed names v) :
    Yields (Composed names) (jsonOf v) := by
  have hstandIn : Yields (fun shown => Json.compact? shown = none -> exists w, Inherits names w)
      (Json.standIn v) := by
    unfold Json.standIn
    split
    · split
      · rename_i routine hstored
        intro shown _ _
        exact ⟨_, (composed_stored hv hstored).parts⟩
      · exact Yields.ok (composed_printed hv)
    · exact Yields.ok (composed_printed hv)
  refine hstandIn.bind ?_
  intro shown hshown
  split
  · split
    · exact Yields.ok (.scalar (.text _))
    · rename_i hnone
      rcases hshown hnone with ⟨w, hinherits⟩
      exact Yields.ok (.missing hinherits)
  · exact Yields.error _

namespace ResultVerb

variable {args : List Operand} {v : Value}

theorem countItems_composed (verb : String) : Yields (Composed names) (countItems verb args v) := by
  refine Yields.behind fun _ => ?_
  split
  · exact Yields.ok (.scalar (.number _))
  · exact Yields.ok (.scalar (.number _))
  · exact Yields.ok (.scalar (.number _))
  · exact Yields.error _

theorem firstItem_composed (hv : Composed names v) (verb : String) :
    Yields (Composed names) (firstItem verb args v) := by
  refine Yields.behind fun _ => (yields_items hv).bind ?_
  intro items hitems
  refine Yields.ok (Composed.orNull ?_)
  cases items with
  | nil => exact composed_null
  | cons item rest => exact hitems item List.mem_cons_self

theorem takeItems_composed (hv : Composed names v) (verb : String) :
    Yields (Composed names) (takeItems verb args v) := by
  refine Yields.behind fun _ => (yields_items hv).bind ?_
  intro items hitems
  refine Yields.behind fun n => Yields.ok (.list ?_)
  intro item hitem
  exact hitems item (List.mem_of_mem_take hitem)

theorem skipItems_composed (hv : Composed names v) (verb : String) :
    Yields (Composed names) (skipItems verb args v) := by
  refine Yields.behind fun _ => (yields_items hv).bind ?_
  intro items hitems
  refine Yields.behind fun n => Yields.ok (.list ?_)
  intro item hitem
  exact hitems item (List.mem_of_mem_drop hitem)

theorem pluckItems_composed (hv : Composed names v) (hargs : ColumnsAre names args)
    (verb : String) : Yields (Composed names) (pluckItems verb args v) := by
  refine Yields.behind fun _ => (yields_columnOf hargs verb 0).bind ?_
  intro column hcolumn
  refine (yields_items hv).bind ?_
  intro items hitems
  refine Yields.ok (.list ?_)
  intro item hitem
  rcases List.mem_map.mp hitem with ⟨old, hold, rfl⟩
  exact composed_fieldOf (hitems old hold) hcolumn

theorem reduceItems_composed (reduce : List Number -> Option Number) (verb : String) :
    Yields (Composed names) (reduceItems reduce verb args v) := by
  refine Yields.behind fun _ => ?_
  have hreduced : forall column : Option String, Yields (Composed names) (do
      let items ← itemsOf verb v
      pure (numberOrNull (reduce (numbersIn column items)))) :=
    fun column => Yields.behind fun _ => Yields.ok (composed_numberOrNull _)
  dsimp only
  split
  · exact Yields.behind fun column => hreduced column
  · exact Yields.behind fun column => hreduced column

theorem yields_checked {checked : Checked Value} (hchecked : Yields (Composed names) checked) :
    Yields (Composed names) (checked.mapError EvaluationFault.toFailure) := by
  cases checked with
  | ok x => exact Yields.ok (hchecked x rfl)
  | error fault => exact Yields.error _

/-- What a result verb makes of a value is composed of what the value is composed of, and of what
the verb reads from columns. -/
theorem apply_composed (verb : ResultVerb) (hv : Composed names v)
    (hargs : verb = .pluck -> ColumnsAre names args) :
    Yields (Composed names) (verb.apply args v) := by
  cases verb with
  | toArray =>
      apply yields_checked
      cases checkArity (text .toArray) args 0 0 with
      | ok _ => exact Yields.ok hv
      | error fault => exact Yields.error fault
  | toJson =>
      unfold apply
      dsimp only
      split
      · exact composed_jsonOf hv
      · exact Yields.error _
  | count => exact yields_checked (countItems_composed _)
  | first => exact yields_checked (firstItem_composed hv _)
  | take => exact yields_checked (takeItems_composed hv _)
  | skip => exact yields_checked (skipItems_composed hv _)
  | pluck => exact yields_checked (pluckItems_composed hv (hargs rfl) _)
  | sum => exact yields_checked (reduceItems_composed _ _)
  | avg => exact yields_checked (reduceItems_composed _ _)
  | min => exact yields_checked (reduceItems_composed _ _)
  | max => exact yields_checked (reduceItems_composed _ _)

end ResultVerb

end Query

end OperatorConsole
