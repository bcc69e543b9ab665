import Mathlib.Data.List.Forall2

/-!
# Lists gone through item by item

A list is read by reading its items in turn.  It is read just if all items are, each giving the
result in its own place; otherwise the first item that is not read is reported.
-/

namespace OperatorConsole

theorem exists_paired {Pairs : α -> β -> Prop} {items : List α} {others : List β}
    (hpairs : List.Forall₂ Pairs items others) :
    (forall x, x ∈ items -> exists y, y ∈ others ∧ Pairs x y) ∧
      forall y, y ∈ others -> exists x, x ∈ items ∧ Pairs x y := by
  induction hpairs with
  | nil => exact ⟨List.forall_mem_nil _, List.forall_mem_nil _⟩
  | @cons x y items others hpair _ ih =>
      rcases ih with ⟨hitems, hothers⟩
      constructor
      · refine List.forall_mem_cons.mpr ⟨⟨y, List.mem_cons_self, hpair⟩, ?_⟩
        intro x' hx'
        rcases hitems x' hx' with ⟨y', hy', hpair'⟩
        exact ⟨y', List.mem_cons_of_mem y hy', hpair'⟩
      · refine List.forall_mem_cons.mpr ⟨⟨x, List.mem_cons_self, hpair⟩, ?_⟩
        intro y' hy'
        rcases hothers y' hy' with ⟨x', hx', hpair'⟩
        exact ⟨x', List.mem_cons_of_mem x hx', hpair'⟩

theorem paired_at {Pairs : α -> β -> Prop} {items : List α} {others : List β}
    (hpairs : List.Forall₂ Pairs items others) {i : Nat} {x : α} (hx : items[i]? = some x) :
    exists y, others[i]? = some y ∧ Pairs x y := by
  induction hpairs generalizing i with
  | nil => cases hx
  | @cons first other items others hpair _ ih =>
      cases i with
      | zero =>
          cases hx
          exact ⟨other, rfl, hpair⟩
      | succ i => exact ih hx

variable {ε : Type} {f : α -> Except ε β}

theorem mapM_eq_ok_iff {items : List α} {results : List β} :
    items.mapM f = .ok results ↔
      List.Forall₂ (fun item result => f item = .ok result) items results := by
  induction items generalizing results with
  | nil => simp [pure, Except.pure, eq_comm]
  | cons item rest ih =>
      rw [List.mapM_cons, List.forall₂_cons_left_iff]
      cases hitem : f item with
      | error e => simp [bind, Except.bind]
      | ok result =>
          cases hrest : rest.mapM f with
          | error e => simp [bind, Except.bind, ← ih, hrest]
          | ok others => simp [bind, Except.bind, pure, Except.pure, ← ih, hrest, eq_comm]

theorem exists_mapM_eq_ok {Pairs : α -> β -> Prop} {items : List α}
    (hitems : forall item, item ∈ items -> exists result, f item = .ok result ∧ Pairs item result) :
    exists results, items.mapM f = .ok results ∧ List.Forall₂ Pairs items results := by
  induction items with
  | nil => exact ⟨[], rfl, .nil⟩
  | cons item rest ih =>
      rcases List.forall_mem_cons.mp hitems with ⟨⟨result, hresult, hpair⟩, hrest⟩
      rcases ih hrest with ⟨results, hresults, hpairs⟩
      refine ⟨result :: results, ?_, .cons hpair hpairs⟩
      rw [List.mapM_cons, hresult, hresults]
      rfl

theorem mapM_cons_eq_error_iff {item : α} {rest : List α} {e : ε} :
    (item :: rest).mapM f = .error e ↔
      f item = .error e ∨ (exists result, f item = .ok result) ∧ rest.mapM f = .error e := by
  rw [List.mapM_cons]
  cases f item with
  | error e' => simp [bind, Except.bind]
  | ok result =>
      cases rest.mapM f with
      | error e' => simp [bind, Except.bind]
      | ok others => simp [bind, Except.bind, pure, Except.pure]

theorem mapM_eq_error_iff {items : List α} {e : ε} :
    items.mapM f = .error e ↔
      exists before item after, items = before ++ item :: after ∧
        (forall earlier, earlier ∈ before -> exists result, f earlier = .ok result) ∧
        f item = .error e := by
  induction items with
  | nil => simp [pure, Except.pure]
  | cons first rest ih =>
      rw [mapM_cons_eq_error_iff, ih]
      constructor
      · rintro (hfirst | ⟨hfirst, before, item, after, rfl, hbefore, hitem⟩)
        · exact ⟨[], first, rest, rfl, List.forall_mem_nil _, hfirst⟩
        · exact ⟨first :: before, item, after, rfl, List.forall_mem_cons.mpr ⟨hfirst, hbefore⟩,
            hitem⟩
      · rintro ⟨before, item, after, hsplit, hbefore, hitem⟩
        cases before with
        | nil =>
            cases hsplit
            exact Or.inl hitem
        | cons earlier before =>
            cases hsplit
            rcases List.forall_mem_cons.mp hbefore with ⟨hfirst, hbefore⟩
            exact Or.inr ⟨hfirst, before, item, after, rfl, hbefore, hitem⟩

end OperatorConsole
