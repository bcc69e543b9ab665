import Mathlib.Data.List.Nodup
import OperatorConsole.Proofs.Runner.Catalog
import OperatorConsole.Proofs.Value.Fields

/-!
# The catalog by categories

Grouping the catalog takes each entry to the group of its category and changes nothing else.
Without the commands that may not run here, the groups of the registry are the same.

The groups are kept as the fields of a record.  A category that every record answers by itself
finds something in place of its group that takes no entries, so that the grouping fails.  This
is the only way in which it fails where the catalog does not.
-/

namespace OperatorConsole

open OperatorConsole.Action

namespace Runner

/-! ## Arranging -/

theorem arrange_perm (groups : List (String × List α)) : (arrange groups).Perm groups := by
  have hindexed :
      (groups.filterMap fun group => (Fields.index? group.1).map fun n => (n, group)).map
          Prod.snd =
        groups.filter fun group => !(Fields.index? group.1).isNone := by
    rw [List.map_filterMap, ← List.filterMap_eq_filter]
    congr 1
    funext group
    cases hindex : Fields.index? group.1 with
    | none => simp [hindex, Option.guard]
    | some n => simp [hindex, Option.guard]
  unfold arrange
  dsimp only
  refine (((List.mergeSort_perm _ _).map Prod.snd).append_right _).trans ?_
  rw [hindexed]
  exact List.perm_append_comm.trans (List.filter_append_perm _ groups)

theorem isUsableCategory_iff {category : String} :
    isUsableCategory category = true ↔ Fields.inherited? category = none := by
  unfold isUsableCategory Record.empty
  rw [Record.get_inherited (Fields.own?_nil category)]
  cases hinherited : Fields.inherited? category with
  | none => exact ⟨fun _ => rfl, fun _ => rfl⟩
  | some v =>
      rcases Fields.inherited?_cases hinherited with rfl | ⟨routine, rfl⟩
      · exact ⟨nofun, nofun⟩
      · exact ⟨nofun, nofun⟩

/-! ## Entries and commands -/

theorem catalogEntry_category {command : Command σ} {confirmation : Bool} {s : Session σ}
    {entry : CatalogEntry} (hentry : (command.catalogEntry confirmation s).1 = .ok entry) :
    entry.category = command.descriptor.category := by
  rcases bind_ok hentry with ⟨options, _, _, hgiven⟩
  cases hgiven
  rfl

variable {runner : Runner σ} {s : Session σ} {entries : List CatalogEntry}

theorem catalog_categories (hcatalog : (runner.catalog s).1 = .ok entries) :
    entries.map (fun entry => (entry.name, entry.category)) =
      (eligibleCommands runner.gate runner.registry runner.environment).map fun command =>
        (command.name, command.descriptor.category) := by
  apply mapM_shows _ hcatalog
  intro command t entry hentry
  rw [(catalogEntry_shows hentry).1, catalogEntry_category hentry]

/-! ## Groups -/

/-- The groups of the registry without the commands that may not run here, and without the
groups that have no others. -/
def eligibleGroups (runner : Runner σ) : List (String × List (Command σ)) :=
  (runner.registry.groupByCategory.map fun group =>
      (group.1, group.2.filter fun c =>
        runner.gate.isEligible c.descriptor.riskLevel runner.environment)).filter
    fun group => !group.2.isEmpty

structure IsGrouped (runner : Runner σ) (entries : List CatalogEntry)
    (groups : List (String × List CatalogEntry)) : Prop where
  categories_nodup : (groups.map Prod.fst).Nodup
  categories : forall category, category ∈ groups.map Prod.fst ↔
    exists entry, entry ∈ entries ∧ entry.category = category
  listed : forall category items, (category, items) ∈ groups ->
    items = entries.filter fun entry => entry.category == category
  registered : (groups.map fun group => (group.1, group.2.map CatalogEntry.name)).Perm
    (runner.eligibleGroups.map fun group => (group.1, group.2.map Command.name))

/-- The groups of the registry are, order apart, those of the commands that may run. -/
theorem eligibleGroups_perm (runner : Runner σ) :
    runner.eligibleGroups.Perm (Registry.groupsBy (fun c => c.descriptor.category)
      (eligibleCommands runner.gate runner.registry runner.environment)) := by
  have hkeys : (runner.eligibleGroups.map Prod.fst).Nodup := by
    unfold eligibleGroups
    refine List.Nodup.sublist (List.filter_sublist.map _) ?_
    rw [List.map_map, Registry.groupByCategory_eq]
    exact Registry.groupsBy_keys_nodup _ _
  rw [List.perm_ext_iff_of_nodup (hkeys.of_map _) ((Registry.groupsBy_keys_nodup _ _).of_map _)]
  rintro ⟨category, commands⟩
  have hcomm (items : List (Command σ)) :
      (items.filter fun c => c.descriptor.category == category).filter (fun c =>
          runner.gate.isEligible c.descriptor.riskLevel runner.environment) =
        (items.filter fun c =>
          runner.gate.isEligible c.descriptor.riskLevel runner.environment).filter
            fun c => c.descriptor.category == category := by
    rw [List.filter_filter, List.filter_filter]
    simp only [Bool.and_comm]
  unfold eligibleGroups eligibleCommands
  rw [Registry.mem_groupsBy, List.mem_filter, List.mem_map, Registry.groupByCategory_eq,
    ← hcomm]
  simp only [Bool.not_eq_true', List.isEmpty_eq_false_iff]
  constructor
  · rintro ⟨⟨⟨k, items⟩, hgroup, hsame⟩, hfilled⟩
    cases hsame
    rw [(Registry.mem_groupsBy.mp hgroup).2] at hfilled ⊢
    exact ⟨hfilled, rfl⟩
  · rintro ⟨hfilled, rfl⟩
    refine ⟨⟨(category, _), Registry.mem_groupsBy.mpr ⟨?_, rfl⟩, rfl⟩, hfilled⟩
    intro hnone
    rw [hnone] at hfilled
    exact hfilled rfl

theorem isGrouped_groupsBy (hcatalog : (runner.catalog s).1 = .ok entries) :
    runner.IsGrouped entries (arrange (Registry.groupsBy CatalogEntry.category entries)) := by
  have harranged := arrange_perm (Registry.groupsBy CatalogEntry.category entries)
  constructor
  case categories_nodup =>
    exact (harranged.map Prod.fst).nodup_iff.mpr (Registry.groupsBy_keys_nodup _ _)
  case categories =>
    intro category
    rw [(harranged.map Prod.fst).mem_iff, Registry.groupsBy_keys, List.mem_eraseDups,
      List.mem_map]
  case listed =>
    intro category items hmem
    exact (Registry.mem_groupsBy.mp (harranged.mem_iff.mp hmem)).2
  case registered =>
    refine (harranged.map _).trans ?_
    rw [Registry.groupsBy_shown (catalog_categories hcatalog)]
    exact (runner.eligibleGroups_perm.map _).symm

/-! ## Commands on file

In production the runner shows only the commands of low risk. -/

namespace Filed

def warming : Descriptor :=
  ⟨"cache:warm", "Warm the cache", "Reads what is used most.", "cache", .low, false, []⟩

/-- Its category is the name of something that every record answers. -/
def building : Descriptor :=
  ⟨"parts:build", "Build the parts", "Builds what is missing.", "constructor", .low, false, []⟩

def runnerOf (descriptors : List Descriptor) : Runner Unit :=
  { Restricted.runner with registry := ⟨descriptors.map Restricted.command⟩ }

def caching : Runner Unit :=
  runnerOf [Restricted.clearing, Restricted.purging, warming]

def entry (d : Descriptor) : CatalogEntry :=
  ⟨d.name, d.displayName, d.description, d.category, d.riskLevel, false, []⟩

end Filed

/-! ## Grouping -/

theorem groupedCatalog_apply (hcatalog : (runner.catalog s).1 = .ok entries) :
    runner.groupedCatalog s =
      (if entries.any fun entry => !isUsableCategory entry.category then .error unusableCategory
        else .ok (arrange (Registry.groupsBy CatalogEntry.category entries)),
      (runner.catalog s).2) := by
  unfold groupedCatalog
  rw [bind_apply, next_of_ok hcatalog]
  split
  · rfl
  · have hgroups := Registry.foldl_addToGroup CatalogEntry.category [] entries
    exact congrArg (fun groups => (Except.ok (arrange groups), (runner.catalog s).2)) hgroups

/-- Where there is a catalog it is grouped by its categories, unless one of them is the name of
something that every record answers. -/
theorem groupedCatalog_lists (hcatalog : (runner.catalog s).1 = .ok entries) :
    ((forall entry, entry ∈ entries -> Fields.inherited? entry.category = none) ->
        exists groups, runner.groupedCatalog s = (.ok groups, (runner.catalog s).2) ∧
          runner.IsGrouped entries groups) ∧
      ((exists entry, entry ∈ entries ∧ Fields.inherited? entry.category ≠ none) ->
        runner.groupedCatalog s = (.error unusableCategory, (runner.catalog s).2)) := by
  rw [groupedCatalog_apply hcatalog]
  constructor
  · intro husable
    have hall : ¬ (entries.any fun entry => !isUsableCategory entry.category) = true := by
      rw [Bool.not_eq_true, List.any_eq_false]
      intro entry hentry
      simp [isUsableCategory_iff.mpr (husable entry hentry)]
    rw [if_neg hall]
    exact ⟨_, rfl, isGrouped_groupsBy hcatalog⟩
  · rintro ⟨entry, hentry, hinherited⟩
    have hany : (entries.any fun entry => !isUsableCategory entry.category) = true := by
      rw [List.any_eq_true]
      refine ⟨entry, hentry, ?_⟩
      rw [Bool.not_eq_true', Bool.eq_false_iff]
      exact fun husable => hinherited (isUsableCategory_iff.mp husable)
    rw [if_pos hany]

/-- The command of high risk is left out, and the other two are found under their category. -/
theorem groupedCatalog_lists_cache :
    exists groups,
      (Filed.caching.catalog ⟨(), []⟩).1 =
          .ok [Filed.entry Restricted.clearing, Filed.entry Filed.warming] ∧
        (Filed.caching.groupedCatalog ⟨(), []⟩).1 = .ok groups ∧
        groups.map Prod.fst = ["cache"] ∧
        forall items, ("cache", items) ∈ groups ->
          items = [Filed.entry Restricted.clearing, Filed.entry Filed.warming] := by
  have hcatalog : (Filed.caching.catalog ⟨(), []⟩).1 =
      .ok [Filed.entry Restricted.clearing, Filed.entry Filed.warming] := rfl
  rcases (groupedCatalog_lists hcatalog).1 (by decide) with ⟨groups, hgroups, hgrouped⟩
  refine ⟨groups, hcatalog, by rw [hgroups], ?_, ?_⟩
  · apply List.perm_singleton.mp
    rw [List.perm_ext_iff_of_nodup hgrouped.categories_nodup (by decide)]
    intro category
    rw [hgrouped.categories]
    simp [Filed.entry, Restricted.clearing, Filed.warming, eq_comm]
  · intro items hmem
    rw [hgrouped.listed _ _ hmem]
    rfl

/-- A catalog with a category of this kind is there and cannot be grouped. -/
theorem grouping_fails :
    (Filed.runnerOf [Filed.building]).registry.Reached ∧
      ((Filed.runnerOf [Filed.building]).catalog ⟨(), []⟩).1 = .ok [Filed.entry Filed.building] ∧
      ((Filed.runnerOf [Filed.building]).groupedCatalog ⟨(), []⟩).1 = .error unusableCategory := by
  refine ⟨?_, rfl, ?_⟩
  · exact ⟨[.register (Restricted.candidate Filed.building)], ⟨(), []⟩, rfl⟩
  · rfl

end Runner

end OperatorConsole
