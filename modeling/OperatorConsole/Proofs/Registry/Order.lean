import OperatorConsole.Proofs.Registry.Calls

/-!
# Order in a registry

Names stand in the order in which they were first registered, and the command that is found
under a name is the last one that was registered under it.  Groups and risks split the commands
and keep them in order.
-/

namespace OperatorConsole

/-- Parts of a whole, without loss or duplication, each in the order of the whole. -/
structure Splits (parts : List (List α)) (whole : List α) : Prop where
  together : parts.flatten.Perm whole
  ordered : forall part, part ∈ parts -> part.Sublist whole

theorem nodup_eraseDups [BEq α] [LawfulBEq α] (items : List α) : items.eraseDups.Nodup := by
  induction hlength : items.length using Nat.strongRecOn generalizing items with
  | ind n ih =>
      cases items with
      | nil => simp
      | cons item rest =>
          rw [List.eraseDups_cons, List.nodup_cons]
          constructor
          · simp
          · apply ih _ _ _ rfl
            rw [← hlength]
            exact Nat.lt_succ_of_le (List.length_filter_le _ _)

theorem splits_by [BEq β] [LawfulBEq β] {key : α -> β} {keys : List β} {items : List α}
    (hnodup : keys.Nodup) (hall : forall x, x ∈ items -> key x ∈ keys) :
    Splits (keys.map fun k => items.filter fun x => key x == k) items := by
  constructor
  · induction keys generalizing items with
    | nil =>
        cases items with
        | nil => exact List.Perm.refl []
        | cons x rest => cases hall x List.mem_cons_self
    | cons k keys ih =>
        rcases List.nodup_cons.mp hnodup with ⟨hk, hnodup⟩
        -- what the other keys pick out of all items they pick out of those without the first key
        have hothers : (keys.map fun k' => items.filter fun x => key x == k') =
            keys.map fun k' => (items.filter fun x => !(key x == k)).filter fun x =>
              key x == k' := by
          apply List.map_congr_left
          intro k' hk'
          rw [List.filter_filter]
          apply List.filter_congr
          intro x _
          by_cases hx : key x = k'
          · have hne : key x ≠ k := fun hsame => hk (by rwa [← hsame, hx])
            rw [beq_eq_false_iff_ne.mpr hne]
            simp
          · rw [beq_eq_false_iff_ne.mpr hx]
            simp
        have hkeys : forall x, x ∈ items.filter (fun x => !(key x == k)) -> key x ∈ keys := by
          intro x hx
          rcases List.mem_filter.mp hx with ⟨hmem, hne⟩
          rcases List.mem_cons.mp (hall x hmem) with hsame | hother
          · simp [hsame] at hne
          · exact hother
        rw [List.map_cons, List.flatten_cons, hothers]
        exact ((ih hnodup hkeys).append_left _).trans (List.filter_append_perm _ items)
  · intro part hpart
    rcases List.mem_map.mp hpart with ⟨k, _, rfl⟩
    exact List.filter_sublist

namespace Registry

/-! ## Inserting -/

theorem names_insert (registry : Registry σ) (command : Command σ) :
    (registry.insert command).names =
      if command.name ∈ registry.names then registry.names
      else registry.names ++ [command.name] := by
  cases registry with
  | mk commands =>
      unfold names insert
      induction commands with
      | nil => simp [place]
      | cons c rest ih =>
          dsimp only at ih
          by_cases hname : c.name = command.name
          · simp [place, hname]
          · have hother : command.name ≠ c.name := fun h => hname h.symm
            simp only [place, if_neg hname, List.map_cons, ih, List.mem_cons, hother, false_or]
            split
            · rfl
            · rfl

theorem get?_insert (registry : Registry σ) (command : Command σ) (name : String) :
    (registry.insert command).get? name =
      if command.name = name then some command else registry.get? name := by
  cases registry with
  | mk commands =>
      unfold get? insert
      induction commands with
      | nil => by_cases hfound : command.name = name <;> simp [place, hfound]
      | cons c rest ih =>
          dsimp only at ih
          by_cases hname : c.name = command.name
          · by_cases hfound : command.name = name
            · simp [place, hname, hfound]
            · simp [place, hname, hfound]
          · by_cases hfound : command.name = name
            · have hother : c.name ≠ name := by rwa [← hfound]
              rw [place, if_neg hname, List.find?_cons_of_neg (by simpa using hother), ih,
                if_pos hfound, if_pos hfound]
            · rw [place, if_neg hname, List.find?_cons, List.find?_cons, ih, if_neg hfound,
                if_neg hfound]

theorem mem_insert {registry : Registry σ} {command c : Command σ}
    (hmem : c ∈ (registry.insert command).commands) : c = command ∨ c ∈ registry.commands := by
  cases registry with
  | mk commands =>
      unfold insert at hmem
      induction commands with
      | nil => exact Or.inl (List.mem_singleton.mp hmem)
      | cons first rest ih =>
          by_cases hname : first.name = command.name
          · simp only [place, if_pos hname] at hmem
            rcases List.mem_cons.mp hmem with hsame | hrest
            · exact Or.inl hsame
            · exact Or.inr (List.mem_cons_of_mem first hrest)
          · simp only [place, if_neg hname] at hmem
            rcases List.mem_cons.mp hmem with hsame | hrest
            · exact Or.inr (hsame ▸ List.mem_cons_self)
            · rcases ih hrest with hnew | hold
              · exact Or.inl hnew
              · exact Or.inr (List.mem_cons_of_mem first hold)

/-! ## Commands registered one by one -/

theorem names_insertAll (registry : Registry σ) (commands : List (Command σ)) :
    (registry.insertAll commands).names =
      registry.names ++ ((commands.map Command.name).removeAll registry.names).eraseDups := by
  induction commands generalizing registry with
  | nil => simp [insertAll, List.removeAll]
  | cons command rest ih =>
      change ((registry.insert command).insertAll rest).names = _
      rw [ih, names_insert]
      by_cases hname : command.name ∈ registry.names
      · simp [hname, List.removeAll]
      · have hlater : (rest.map Command.name).removeAll (registry.names ++ [command.name]) =
            ((rest.map Command.name).removeAll registry.names).filter
              fun name => !(name == command.name) := by
          simp only [List.removeAll, List.filter_filter]
          apply List.filter_congr
          intro name _
          by_cases hname : name = command.name
          · simp [hname]
          · simp [hname]
        rw [if_neg hname, hlater, List.append_assoc]
        simp [List.removeAll, hname, List.eraseDups_cons]

theorem get?_insertAll (registry : Registry σ) (commands : List (Command σ)) (name : String) :
    (registry.insertAll commands).get? name =
      (commands.reverse.find? (·.name == name)).or (registry.get? name) := by
  induction commands generalizing registry with
  | nil => rfl
  | cons command rest ih =>
      change ((registry.insert command).insertAll rest).get? name = _
      rw [ih, get?_insert, List.reverse_cons, List.find?_append, Option.or_assoc]
      by_cases hname : command.name = name
      · simp [hname]
      · simp [hname]

theorem mem_insertAll {registry : Registry σ} {commands : List (Command σ)} {c : Command σ}
    (hmem : c ∈ (registry.insertAll commands).commands) :
    c ∈ commands ∨ c ∈ registry.commands := by
  induction commands generalizing registry with
  | nil => exact Or.inr hmem
  | cons command rest ih =>
      rcases ih hmem with hrest | hinserted
      · exact Or.inl (List.mem_cons_of_mem command hrest)
      · rcases mem_insert hinserted with hsame | hold
        · exact Or.inl (hsame ▸ List.mem_cons_self)
        · exact Or.inr hold

/-! ## Groups -/

def groupsBy (key : α -> String) (items : List α) : List (String × List α) :=
  (items.map key).eraseDups.map fun k => (k, items.filter fun x => key x == k)

theorem groupsBy_keys (key : α -> String) (items : List α) :
    (groupsBy key items).map Prod.fst = (items.map key).eraseDups := by
  unfold groupsBy
  rw [List.map_map]
  exact List.map_id _

theorem groupsBy_keys_nodup (key : α -> String) (items : List α) :
    ((groupsBy key items).map Prod.fst).Nodup := by
  rw [groupsBy_keys]
  exact nodup_eraseDups _

theorem mem_groupsBy {key : α -> String} {items group : List α} {k : String} :
    (k, group) ∈ groupsBy key items ↔
      group ≠ [] ∧ group = items.filter fun x => key x == k := by
  have hkeys : k ∈ (items.map key).eraseDups ↔ (items.filter fun x => key x == k) ≠ [] := by
    rw [List.mem_eraseDups, List.mem_map, ne_eq, List.filter_eq_nil_iff]
    simp
  unfold groupsBy
  rw [List.mem_map]
  constructor
  · rintro ⟨k', hk', hsame⟩
    cases hsame
    exact ⟨hkeys.mp hk', rfl⟩
  · rintro ⟨hfilled, rfl⟩
    exact ⟨k, hkeys.mpr hfilled, rfl⟩

theorem groupsBy_shown {shown : α -> γ} {key : α -> String} {shown' : β -> γ}
    {key' : β -> String} {items : List α} {items' : List β}
    (hsame : items.map (fun x => (shown x, key x)) = items'.map fun x => (shown' x, key' x)) :
    (groupsBy key items).map (fun group => (group.1, group.2.map shown)) =
      (groupsBy key' items').map fun group => (group.1, group.2.map shown') := by
  have hkeys := congrArg (List.map Prod.snd) hsame
  simp only [List.map_map] at hkeys
  have hpicked (k : String) := congrArg
    (fun pairs => (pairs.filter fun p => p.2 == k).map Prod.fst) hsame
  simp only [List.filter_map, List.map_map] at hpicked
  unfold groupsBy
  rw [List.map_map, List.map_map, show items.map key = items'.map key' from hkeys]
  apply List.map_congr_left
  intro k _
  exact congrArg (Prod.mk k) (hpicked k)

theorem addToGroup_map {keys : List String} (hnodup : keys.Nodup) (items : String -> List α)
    (key : String) (x : α) :
    addToGroup key x (keys.map fun k => (k, items k)) =
      (keys.map fun k => (k, if k = key then items k ++ [x] else items k)) ++
        if key ∈ keys then [] else [(key, [x])] := by
  induction keys with
  | nil => simp [addToGroup]
  | cons k keys ih =>
      rcases List.nodup_cons.mp hnodup with ⟨hk, hnodup⟩
      rw [List.map_cons, addToGroup, List.map_cons]
      by_cases hkey : k = key
      · have hothers : (keys.map fun k => (k, items k)) =
            keys.map fun k => (k, if k = key then items k ++ [x] else items k) := by
          apply List.map_congr_left
          intro k' hk'
          rw [if_neg]
          intro hsame
          exact hk (by rwa [hkey, ← hsame])
        rw [if_pos hkey, if_pos hkey, hothers]
        simp [hkey]
      · have hother : key ≠ k := fun h => hkey h.symm
        rw [if_neg hkey, ih hnodup, if_neg hkey]
        simp [hother]

theorem addToGroup_groupsBy (key : α -> String) (items : List α) (x : α) :
    addToGroup (key x) x (groupsBy key items) = groupsBy key (items ++ [x]) := by
  have hgroups (k : String) :
      (items ++ [x]).filter (fun y => key y == k) =
        if k = key x then items.filter (fun y => key y == k) ++ [x]
        else items.filter fun y => key y == k := by
    rw [List.filter_append]
    by_cases hkey : k = key x
    · simp [hkey]
    · have hother : key x ≠ k := fun h => hkey h.symm
      simp [hkey, hother]
  unfold groupsBy
  rw [addToGroup_map (nodup_eraseDups _), List.map_append, List.eraseDups_append, List.map_append]
  simp only [hgroups, List.mem_eraseDups]
  by_cases hmem : key x ∈ items.map key
  · simp [List.removeAll, List.mem_map.mp hmem]
  · have hnone : items.filter (fun y => key y == key x) = [] := by
      rw [List.filter_eq_nil_iff]
      intro y hy hsame
      exact hmem (List.mem_map.mpr ⟨y, hy, of_decide_eq_true hsame⟩)
    have hadded : [key x].removeAll (items.map key) = [key x] := by
      simpa [List.removeAll] using hmem
    simp only [List.map_cons, List.map_nil, hadded, if_neg hmem, List.eraseDups_cons,
      List.filter_nil, List.eraseDups_nil, if_true, hnone, List.nil_append]

theorem foldl_addToGroup (key : α -> String) (before after : List α) :
    after.foldl (fun groups x => addToGroup (key x) x groups) (groupsBy key before) =
      groupsBy key (before ++ after) := by
  induction after generalizing before with
  | nil => rw [List.foldl_nil, List.append_nil]
  | cons x after ih =>
      rw [List.foldl_cons, addToGroup_groupsBy, ih, List.append_assoc]
      rfl

theorem groupByCategory_eq (registry : Registry σ) :
    registry.groupByCategory = groupsBy (fun c => c.descriptor.category) registry.commands :=
  foldl_addToGroup (fun c : Command σ => c.descriptor.category) [] registry.commands

theorem groupByCategory_splits (registry : Registry σ) :
    Splits (registry.groupByCategory.map Prod.snd) registry.commands := by
  rw [groupByCategory_eq, groupsBy, List.map_map]
  apply splits_by (nodup_eraseDups _)
  intro c hc
  rw [List.mem_eraseDups]
  exact List.mem_map.mpr ⟨c, hc, rfl⟩

theorem filterByRisk_splits {registry : Registry σ}
    (hrisks : forall c, c ∈ registry.commands -> c.descriptor.riskLevel ∈ RiskLevel.all) :
    Splits (RiskLevel.all.map registry.filterByRisk) registry.commands :=
  splits_by (by decide) hrisks

end Registry

end OperatorConsole
