import OperatorConsole.Proofs.Query.Building
import OperatorConsole.Proofs.Query.InvokedNames
import OperatorConsole.Proofs.Query.Provenance
import OperatorConsole.Proofs.Query.Reached

/-!
# Plans part by part

The plan that builder calls reach is told part by part from what the calls contribute, without
going through the calls: most parts are the contributions to them in a row, a limit or an offset is
the last one that was given, and the columns are those since the last selection.

So the order of two calls matters only if they are about the same part.
-/

namespace OperatorConsole

namespace Query

open OperatorConsole.Action

/-! ## Contributions to one part -/

namespace Contribution

def clauses : Contribution -> List Clause
  | .clause c => [c]
  | _ => []

def sortKeys : Contribution -> List SortKey
  | .order key => [key]
  | _ => []

def grouped : Contribution -> List String
  | .groups columns => columns
  | _ => []

def havings : Contribution -> List Having
  | .having h => [h]
  | _ => []

def added : Contribution -> List String
  | .addSelect columns => columns
  | _ => []

def limit? : Contribution -> Option Number
  | .limit n => some n
  | _ => none

def offset? : Contribution -> Option Number
  | .offset n => some n
  | _ => none

end Contribution

/-- What the parts of a plan are that is made of some contributions. -/
structure Plan.IsMadeOf (plan : Plan) (contributions : List Contribution) : Prop where
  conditions : plan.conditions = contributions.flatMap Contribution.clauses
  orders : plan.orders = contributions.flatMap Contribution.sortKeys
  groups : plan.groups = contributions.flatMap Contribution.grouped
  havings : plan.havings = contributions.flatMap Contribution.havings
  /-- The last selection counts, and what is added to it. -/
  selected : forall before columns after, contributions = before ++ .select columns :: after ->
    (forall others, .select others ∉ after) ->
    plan.columns = columns ++ after.flatMap Contribution.added
  unselected : (forall columns, .select columns ∉ contributions) ->
    plan.columns = contributions.flatMap Contribution.added
  limit : plan.limit = (contributions.filterMap Contribution.limit?).getLast?
  offset : plan.offset = (contributions.filterMap Contribution.offset?).getLast?
  distinct : plan.distinct = true ↔ .distinct ∈ contributions

/-! ## One contribution after the other -/

section Put

variable (plan : Plan) (c : Contribution)

theorem put_conditions : (plan.put c).conditions = plan.conditions ++ c.clauses := by
  cases c <;> simp [Plan.put, Contribution.clauses]

theorem put_orders : (plan.put c).orders = plan.orders ++ c.sortKeys := by
  cases c <;> simp [Plan.put, Contribution.sortKeys]

theorem put_groups : (plan.put c).groups = plan.groups ++ c.grouped := by
  cases c <;> simp [Plan.put, Contribution.grouped]

theorem put_havings : (plan.put c).havings = plan.havings ++ c.havings := by
  cases c <;> simp [Plan.put, Contribution.havings]

theorem put_limit : (plan.put c).limit = c.limit?.or plan.limit := by
  cases c <;> simp [Plan.put, Contribution.limit?]

theorem put_offset : (plan.put c).offset = c.offset?.or plan.offset := by
  cases c <;> simp [Plan.put, Contribution.offset?]

end Put

section Fold

variable (contributions : List Contribution) (plan : Plan)

theorem foldl_put_append {field : Plan -> List α} {part : Contribution -> List α}
    (hput : forall plan c, field (plan.put c) = field plan ++ part c) :
    field (contributions.foldl Plan.put plan) = field plan ++ contributions.flatMap part := by
  induction contributions generalizing plan with
  | nil => exact (List.append_nil _).symm
  | cons c rest ih =>
      rw [List.foldl_cons, ih, hput, List.flatMap_cons, List.append_assoc]

theorem foldl_put_last {field : Plan -> Option α} {part : Contribution -> Option α}
    (hput : forall plan c, field (plan.put c) = (part c).or (field plan)) :
    field (contributions.foldl Plan.put plan) =
      (contributions.filterMap part).getLast?.or (field plan) := by
  induction contributions generalizing plan with
  | nil => rfl
  | cons c rest ih =>
      rw [List.foldl_cons, ih, hput]
      cases hpart : part c with
      | none => rw [List.filterMap_cons_none hpart, Option.none_or]
      | some x =>
          rw [List.filterMap_cons_some hpart, List.getLast?_cons, Option.some_or]
          cases (rest.filterMap part).getLast? with
          | none => rfl
          | some y => rfl

theorem foldl_put_distinct :
    (contributions.foldl Plan.put plan).distinct = true ↔
      plan.distinct = true ∨ .distinct ∈ contributions := by
  induction contributions generalizing plan with
  | nil => simp
  | cons c rest ih =>
      rw [List.foldl_cons, ih, List.mem_cons]
      cases c <;> simp [Plan.put]

theorem foldl_put_columns (hunselected : forall columns, .select columns ∉ contributions) :
    (contributions.foldl Plan.put plan).columns =
      plan.columns ++ contributions.flatMap Contribution.added := by
  induction contributions generalizing plan with
  | nil => exact (List.append_nil _).symm
  | cons c rest ih =>
      have hrest : forall columns, .select columns ∉ rest :=
        fun columns hmem => hunselected columns (List.mem_cons_of_mem c hmem)
      rw [List.foldl_cons, ih _ hrest, List.flatMap_cons, ← List.append_assoc]
      congr 1
      cases c with
      | select columns => exact absurd List.mem_cons_self (hunselected columns)
      | addSelect columns => rfl
      | _ => exact (List.append_nil _).symm

end Fold

theorem last_selection (contributions : List Contribution) :
    (forall columns, .select columns ∉ contributions) ∨
      exists before columns after, contributions = before ++ .select columns :: after ∧
        forall others, .select others ∉ after := by
  induction contributions with
  | nil => exact Or.inl fun _ => List.not_mem_nil
  | cons c rest ih =>
      rcases ih with hrest | ⟨before, columns, after, rfl, hafter⟩
      · by_cases hselect : exists columns, c = .select columns
        · rcases hselect with ⟨columns, rfl⟩
          exact Or.inr ⟨[], columns, rest, rfl, hrest⟩
        · refine Or.inl fun columns hmem => ?_
          rcases List.mem_cons.mp hmem with hsame | hlater
          · exact hselect ⟨columns, hsame.symm⟩
          · exact hrest columns hlater
      · exact Or.inr ⟨c :: before, columns, after, rfl, hafter⟩

theorem isMadeOf_foldl (contributions : List Contribution) :
    (contributions.foldl Plan.put .empty).IsMadeOf contributions := by
  constructor
  case conditions => exact foldl_put_append contributions .empty put_conditions
  case orders => exact foldl_put_append contributions .empty put_orders
  case groups => exact foldl_put_append contributions .empty put_groups
  case havings => exact foldl_put_append contributions .empty put_havings
  case selected =>
    rintro before columns after rfl hafter
    rw [List.foldl_append, List.foldl_cons, foldl_put_columns _ _ hafter]
    rfl
  case unselected => exact fun hunselected => foldl_put_columns contributions .empty hunselected
  case limit =>
    rw [foldl_put_last contributions .empty put_limit]
    exact Option.or_none
  case offset =>
    rw [foldl_put_last contributions .empty put_offset]
    exact Option.or_none
  case distinct => exact (foldl_put_distinct contributions .empty).trans (or_iff_right nofun)

theorem Plan.isMadeOf_iff {plan : Plan} {contributions : List Contribution} :
    plan.IsMadeOf contributions ↔ plan = contributions.foldl Plan.put .empty := by
  have hmade := isMadeOf_foldl contributions
  constructor
  · intro hplan
    have hcolumns : plan.columns = (contributions.foldl Plan.put .empty).columns := by
      rcases last_selection contributions with hnone | ⟨before, columns, after, hsplit, hafter⟩
      · rw [hplan.unselected hnone, hmade.unselected hnone]
      · rw [hplan.selected _ _ _ hsplit hafter, hmade.selected _ _ _ hsplit hafter]
    have hdistinct : plan.distinct = (contributions.foldl Plan.put .empty).distinct :=
      Bool.eq_iff_iff.mpr (hplan.distinct.trans hmade.distinct.symm)
    have hconditions := hplan.conditions.trans hmade.conditions.symm
    have horders := hplan.orders.trans hmade.orders.symm
    have hgroups := hplan.groups.trans hmade.groups.symm
    have hhavings := hplan.havings.trans hmade.havings.symm
    have hlimit := hplan.limit.trans hmade.limit.symm
    have hoffset := hplan.offset.trans hmade.offset.symm
    cases plan
    dsimp only at hcolumns hdistinct hconditions hgroups hhavings horders hlimit hoffset
    rw [hcolumns, hdistinct, hconditions, hgroups, hhavings, horders, hlimit, hoffset]
  · rintro rfl
    exact hmade

/-! ## Operands that are always the same -/

/-- The action has the same outcome at any time and leaves no trace. -/
def IsSteady (a : Action σ α) : Prop :=
  exists result, forall s, a s = (result, s)

theorem IsSteady.pure (x : α) : IsSteady (Pure.pure x : Action σ α) :=
  ⟨.ok x, fun _ => rfl⟩

theorem IsSteady.bind {a : Action σ β} {step : β -> Action σ α} (ha : IsSteady a)
    (hstep : forall x, IsSteady (step x)) : IsSteady (a >>= step) := by
  rcases ha with ⟨result, ha⟩
  cases result with
  | ok x =>
      rcases hstep x with ⟨result, hresult⟩
      refine ⟨result, fun s => ?_⟩
      rw [bind_apply, ha, next_ok, hresult]
  | error failure =>
      refine ⟨.error failure, fun s => ?_⟩
      rw [bind_apply, ha, next_error]

section Steady

variable {clock : Action σ Number}

mutual

theorem steady_resolve :
    (arg : Argument) -> IsSteady clock ∨ arg.helperNames = [] ->
      IsSteady (Argument.resolve clock arg)
  | .scalar v, _ => by
      rw [Argument.resolve]
      exact IsSteady.pure _
  | .helper h, hsteady => by
      have hclock : IsSteady clock := hsteady.resolve_right (List.cons_ne_nil _ _)
      rw [Argument.resolve]
      refine hclock.bind fun time => ?_
      cases h.textAt time with
      | ok text => exact IsSteady.pure _
      | error failure => exact ⟨.error failure, fun _ => rfl⟩
  | .list items, hsteady => by
      rw [Argument.helperNames] at hsteady
      rw [Argument.resolve]
      exact (steady_resolveAll items hsteady).bind fun _ => IsSteady.pure _

theorem steady_resolveAll :
    (args : List Argument) -> IsSteady clock ∨ Argument.helperNamesIn args = [] ->
      IsSteady (Argument.resolveAll clock args)
  | [], _ => by
      rw [Argument.resolveAll]
      exact IsSteady.pure _
  | arg :: args, hsteady => by
      rw [Argument.helperNamesIn, List.append_eq_nil_iff, or_and_left] at hsteady
      rw [Argument.resolveAll]
      refine (steady_resolve arg hsteady.1).bind fun operand => ?_
      exact (steady_resolveAll args hsteady.2).bind fun operands => IsSteady.pure _

end

end Steady

namespace Chain

variable {source : EntitySource σ} {clock : Action σ Number}

/-! ## Calls that change places -/

theorem resolves_append {front back : Chain} {directives : List Directive}
    {s t : Session σ} (hresolves : Resolves clock (front ++ back) s directives t) :
    exists before after r, directives = before ++ after ∧ front.length = before.length ∧
      Resolves clock front s before r ∧ Resolves clock back r after t := by
  induction front generalizing directives s with
  | nil => exact ⟨[], directives, s, rfl, rfl, .done, hresolves⟩
  | cons call calls ih =>
      cases hresolves with
      | next hverb hargs hrest =>
          rcases ih hrest with ⟨before, after, r, rfl, hlength, hbefore, hafter⟩
          refine ⟨_ :: before, after, r, rfl, ?_, .next hverb hargs hbefore, hafter⟩
          rw [List.length_cons, List.length_cons, hlength]

theorem Resolves.append {front back : Chain} {before after : List Directive}
    {s r t : Session σ} (hfront : Resolves clock front s before r)
    (hback : Resolves clock back r after t) :
    Resolves clock (front ++ back) s (before ++ after) t := by
  induction hfront with
  | done => exact hback
  | next hverb hargs _ ih => exact .next hverb hargs (ih hback)

theorem Resolves.swap {front back : Chain} {a b : Call} {s t : Session σ}
    {before after : List Directive} {x y : Directive}
    (hresolves : Resolves clock (front ++ a :: b :: back) s (before ++ x :: y :: after) t)
    (hlength : front.length = before.length)
    (hsteady : IsSteady (Argument.resolveAll clock a.args) ∨
      IsSteady (Argument.resolveAll clock b.args)) :
    Resolves clock (front ++ b :: a :: back) s (before ++ y :: x :: after) t := by
  rcases resolves_append hresolves with ⟨before', rest, r, hsplit, hlength', hfront, hrest⟩
  rcases List.append_inj hsplit (hlength.symm.trans hlength') with ⟨rfl, rfl⟩
  cases hrest with
  | next hverb hargs hrest =>
      cases hrest with
      | next hverb' hargs' hback =>
          refine hfront.append ?_
          rcases hsteady with ⟨result, hresult⟩ | ⟨result, hresult⟩
          · cases (hresult r).symm.trans hargs
            exact .next hverb' hargs' (.next hverb (hresult _) hback)
          · cases (hresult _).symm.trans hargs'
            exact .next hverb' (hresult r) (.next hverb hargs hback)

theorem AreStated.joints {directives : List Directive}
    {contributions : List Contribution} (hstated : AreStated directives contributions) :
    (contributions.flatMap Contribution.clauses).map Clause.joint =
      (directives.filter fun directive => directive.1.part = .conditions).map
        fun directive => directive.1.joint := by
  induction hstated with
  | nil => rfl
  | @cons directive c directives contributions hstates _ ih =>
      have hclauses : c.clauses.map Clause.joint =
          if directive.1.part = .conditions then [directive.1.joint] else [] := by
        rcases directive with ⟨verb, args⟩
        cases verb <;> cases hstates <;> rfl
      rw [List.flatMap_cons, List.map_append, ih, hclauses, List.filter_cons]
      by_cases hpart : directive.1.part = .conditions
      · rw [if_pos hpart, if_pos (decide_eq_true hpart)]
        rfl
      · rw [if_neg hpart, if_neg (by simpa using hpart)]
        rfl

theorem AreStated.swap {before after : List Directive} {x y : Directive}
    {contributions : List Contribution}
    (hstated : AreStated (before ++ x :: y :: after) contributions)
    (hparts : x.1.part ≠ y.1.part) :
    exists swapped, AreStated (before ++ y :: x :: after) swapped ∧
      forall plan, swapped.foldl Plan.put plan = contributions.foldl Plan.put plan := by
  induction before generalizing contributions with
  | nil =>
      cases hstated with
      | @cons _ c _ _ hc hrest =>
          cases hrest with
          | @cons _ d _ rest hd hrest =>
              refine ⟨d :: c :: rest, .cons hd (.cons hc hrest), fun plan => ?_⟩
              rw [← hc.part_eq, ← hd.part_eq] at hparts
              rw [List.foldl_cons, List.foldl_cons, List.foldl_cons, List.foldl_cons,
                Plan.put_comm plan hparts]
  | cons directive before ih =>
      cases hstated with
      | @cons _ c _ _ hc hrest =>
          rcases ih hrest with ⟨swapped, hswapped, hplan⟩
          exact ⟨c :: swapped, .cons hc hswapped, fun plan => hplan (plan.put c)⟩

/-- The plan that builder calls reach, part by part.  If every call states a contribution, the
calls reach the one plan that is made of the contributions, and they reach no plan otherwise.  The
conditions are joined by the words of the verbs that test something, one each.

Two neighbours that are about different parts can change places.  The same operands make the same
plan then; and if the operands of one of them do not change with the time, whatever stands behind
the calls runs as before. -/
theorem reaches_by_parts (source : EntitySource σ) (clock : Action σ Number) {calls : Chain}
    {directives : List Directive} {s t : Session σ}
    (hresolves : Resolves clock calls s directives t) :
    (forall contributions, AreStated directives contributions ->
      exists plan, Reaches source clock calls s plan t ∧
        (forall other, other.IsMadeOf contributions ↔ other = plan) ∧
        plan.conditions.map Clause.joint =
          (directives.filter fun directive => directive.1.part = .conditions).map
            fun directive => directive.1.joint) ∧
      (forall plan u, Reaches source clock calls s plan u ->
        u = t ∧ exists contributions, AreStated directives contributions ∧
          plan.IsMadeOf contributions) ∧
      forall before x y after plan, directives = before ++ x :: y :: after ->
        x.1.part ≠ y.1.part -> Reaches source clock calls s plan t ->
        (forall swapped s' t', Resolves clock swapped s' (before ++ y :: x :: after) t' ->
          Reaches source clock swapped s' plan t') ∧
        forall front a b back, calls = front ++ a :: b :: back -> front.length = before.length ->
          IsSteady clock ∨ Argument.helperNamesIn a.args = [] ∨
            Argument.helperNamesIn b.args = [] ->
          Reaches source clock (front ++ b :: a :: back) s plan t ∧
          forall rest, Chain.evaluate source clock (front ++ b :: a :: back ++ rest) s =
            Chain.evaluate source clock (calls ++ rest) s := by
  refine ⟨?_, ?_, ?_⟩
  · intro contributions hstated
    refine ⟨contributions.foldl Plan.put .empty, ?_, fun other => Plan.isMadeOf_iff, ?_⟩
    · exact hresolves.leads_iff.mpr ⟨rfl, contributions, hstated, rfl⟩
    · rw [(isMadeOf_foldl contributions).conditions]
      exact hstated.joints
  · intro plan u hreaches
    rcases hresolves.leads_iff.mp hreaches with ⟨hsession, contributions, hstated, hplan⟩
    exact ⟨hsession, contributions, hstated, Plan.isMadeOf_iff.mpr hplan⟩
  · rintro before x y after plan rfl hparts hreaches
    rcases hresolves.leads_iff.mp hreaches with ⟨_, contributions, hstated, rfl⟩
    rcases hstated.swap hparts with ⟨others, hothers, hplan⟩
    have hswapped : forall swapped s' t',
        Resolves clock swapped s' (before ++ y :: x :: after) t' ->
        Reaches source clock swapped s' (contributions.foldl Plan.put .empty) t' :=
      fun swapped s' t' hfound => hfound.leads_iff.mpr ⟨rfl, others, hothers, (hplan _).symm⟩
    refine ⟨hswapped, ?_⟩
    rintro front a b back rfl hlength hhelpers
    have hsteady : IsSteady (Argument.resolveAll clock a.args) ∨
        IsSteady (Argument.resolveAll clock b.args) := by
      rcases hhelpers with hclock | hfirst | hsecond
      · exact Or.inl (steady_resolveAll a.args (Or.inl hclock))
      · exact Or.inl (steady_resolveAll a.args (Or.inr hfirst))
      · exact Or.inr (steady_resolveAll b.args (Or.inr hsecond))
    have hother := hswapped _ _ _ (hresolves.swap hlength hsteady)
    refine ⟨hother, fun rest => ?_⟩
    rw [evaluate_of_reaches hother, evaluate_of_reaches hreaches]

theorem reaches_by_parts_null_limit :
    let test : Call := ⟨"orWhere", [.scalar (.text "b"), .scalar (.text "<>"), .scalar .null], 0⟩
    let limit : Call := ⟨"Limit", [.scalar (.number 5)], 26⟩
    let source := singleRowSource [("b", .number 1)]
    let s : Session Unit := ⟨(), []⟩
    (exists plan, Reaches source (pure 0) [test, limit] s plan s ∧
      plan.conditions = [⟨.or, .isNull "b" true⟩] ∧ plan.limit = some 5) ∧
      Chain.evaluate source (pure 0) [limit, test, ⟨"get", [], 35⟩] s =
        Chain.evaluate source (pure 0) [test, limit, ⟨"get", [], 35⟩] s := by
  intro test limit source s
  let directives : List Directive :=
    [(.orWhere, [.column "b", .column "<>", .scalar .null]), (.limit, [.scalar (.number 5)])]
  let contributions : List Contribution := [.clause ⟨.or, .isNull "b" true⟩, .limit 5]
  have hresolves : Resolves (pure 0) [test, limit] s directives s :=
    .next (by decide) rfl (.next (by decide) rfl .done)
  have hstated : AreStated directives contributions := by
    have hcompares : Compares [.column "b", .column "<>", .scalar .null] "b" .differs .null :=
      .written (by decide) (by unfold Comparison.IsWritten; decide)
    have hfive : (5 : Number).IsCount := Number.isCount_iff.mpr (by decide +kernel)
    exact .cons (.notNull (Or.inr rfl) hcompares) (.cons (.count hfive) .nil)
  rcases reaches_by_parts source (pure 0) hresolves with ⟨hmade, _, hswap⟩
  rcases hmade contributions hstated with ⟨plan, hreaches, hplan, _⟩
  have hparts := (hplan plan).mpr rfl
  refine ⟨⟨plan, hreaches, hparts.conditions, hparts.limit⟩, ?_⟩
  have hother := (hswap [] _ _ [] plan rfl (by decide) hreaches).2 [] test limit [] rfl rfl
    (Or.inr (Or.inl rfl))
  exact hother.2 [⟨"get", [], 35⟩]

end Chain

end Query

end OperatorConsole
