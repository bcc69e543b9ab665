import OperatorConsole.Check

/-!
# Checks that pass

A check passes with a reading if it finds no issue, that is, if it equals `Check.ok` of that
reading.  A compound check passes just if its parts do.

## Stability

A check is stable under a way of writing readings if every reading that it has given passes it
again, unchanged, once it is written.  Stability is put together along the constructs of checks.
-/

namespace OperatorConsole

namespace Check

/-! ## Passing -/

theorem result?_eq_some {c : Check α} {a : α} : c.result? = some a ↔ c = ok a := by
  cases c with
  | mk reading issues =>
      cases issues with
      | nil => simp [result?, ok]
      | cons issue issues => simp [result?, ok]

theorem toExcept_eq_ok {c : Check α} {a : α} : c.toExcept = .ok a ↔ c = ok a := by
  rw [← result?_eq_some]
  unfold toExcept
  cases c.result? with
  | none => simp
  | some b => simp

theorem map_eq_ok {f : α -> β} {c : Check α} {b : β} :
    f <$> c = ok b ↔ exists a, c = ok a ∧ f a = b := by
  constructor
  · intro hmap
    change c.map f = ok b at hmap
    cases c with
    | mk reading issues =>
        cases reading with
        | none => simp [map, ok] at hmap
        | some a =>
            simp only [map, Option.map_some, ok, mk.injEq, Option.some.injEq] at hmap
            exact ⟨a, by rw [hmap.2]; rfl, hmap.1⟩
  · rintro ⟨a, rfl, rfl⟩
    rfl

theorem seq_eq_ok {f : Check (α -> β)} {c : Check α} {b : β} :
    f <*> c = ok b ↔ exists g a, f = ok g ∧ c = ok a ∧ g a = b := by
  constructor
  · intro hseq
    change f.seq (fun _ => c) = ok b at hseq
    cases f with
    | mk reading issues =>
        cases c with
        | mk reading' issues' =>
            simp only [seq, ok, mk.injEq, List.append_eq_nil_iff] at hseq
            rcases hseq with ⟨hreading, hissues, hissues'⟩
            rcases Option.bind_eq_some_iff.mp hreading with ⟨g, hg, hmap⟩
            rcases Option.map_eq_some_iff.mp hmap with ⟨a, ha, hb⟩
            exact ⟨g, a, by rw [hg, hissues]; rfl, by rw [ha, hissues']; rfl, hb⟩
  · rintro ⟨g, a, rfl, rfl, rfl⟩
    rfl

theorem under_eq_ok {name : String} {c : Check α} {a : α} : c.under name = ok a ↔ c = ok a := by
  cases c with
  | mk reading issues => simp [under, ok]

theorem alsoIssues_eq_ok {issuesOf : α -> List Issue} {c : Check α} {a : α} :
    c.alsoIssues issuesOf = ok a ↔ c = ok a ∧ issuesOf a = [] := by
  cases c with
  | mk reading issues =>
      cases reading with
      | none => simp [alsoIssues, ok]
      | some b =>
          simp only [alsoIssues, ok, mk.injEq, Option.some.injEq, List.append_eq_nil_iff]
          constructor
          · rintro ⟨rfl, hissues, hfurther⟩
            exact ⟨⟨rfl, hissues⟩, hfurther⟩
          · rintro ⟨⟨rfl, hissues⟩, hfurther⟩
            exact ⟨rfl, hissues, hfurther⟩

theorem require_eq_ok {test : α -> Bool} {message : String} {c : Check α} {a : α} :
    c.require test message = ok a ↔ c = ok a ∧ test a = true := by
  unfold require
  rw [alsoIssues_eq_ok]
  cases test a with
  | true => simp
  | false => simp

theorem wrongKind_ne_ok {expected : String} {v : Value} {a : α} : wrongKind expected v ≠ ok a := by
  unfold wrongKind
  cases v with
  | _ => simp [wrong, ok]

theorem string_passed {v : Value} {s : String} (hpass : string v = ok s) : v = .text s := by
  cases v with
  | text t =>
      cases hpass
      rfl
  | _ => simp [string, wrongKind_ne_ok] at hpass

theorem number_passed {v : Value} {x : Number} (hpass : number v = ok x) : v = .number x := by
  cases v with
  | number y =>
      cases y with
      | nan => simp [number, wrongKind_ne_ok] at hpass
      | infinity negative =>
          cases hpass
          rfl
      | finite negative rank =>
          cases hpass
          rfl
  | _ => simp [number, wrongKind_ne_ok] at hpass

theorem scalar_passed {v : Value} {s : Scalar} (hpass : scalar v = ok s) : v = s.toValue := by
  cases v with
  | null =>
      cases hpass
      rfl
  | bool b =>
      cases hpass
      rfl
  | text t =>
      cases hpass
      rfl
  | number x =>
      cases x with
      | nan => cases hpass
      | infinity negative =>
          cases hpass
          rfl
      | finite negative rank =>
          cases hpass
          rfl
  | _ => cases hpass

theorem optional_eq_ok {check : Value -> Check α} {v : Value} {a? : Option α} :
    optional check v = ok a? ↔
      (v = .absent ∧ a? = none) ∨ (v ≠ .absent ∧ exists a, check v = ok a ∧ a? = some a) := by
  by_cases habsent : v = .absent
  · subst habsent
    simp [optional, ok, eq_comm]
  · have hoptional : optional check v = some <$> check v := by
      cases v with
      | absent => exact absurd rfl habsent
      | _ => rfl
    rw [hoptional, map_eq_ok]
    simp [habsent, eq_comm]

theorem withDefault_eq_ok {default a : α} {check : Value -> Check α} {v : Value}
    (hpass : withDefault default check v = ok a) :
    (v = .absent ∧ a = default) ∨ check v = ok a := by
  cases v with
  | absent =>
      left
      simpa [withDefault, ok, eq_comm] using hpass
  | _ => exact Or.inr hpass

theorem withDefault_present {default : α} {check : Value -> Check α} {v : Value}
    (hpresent : v ≠ .absent) : withDefault default check v = check v := by
  cases v with
  | absent => exact absurd rfl hpresent
  | _ => rfl

theorem oneOf_eq_ok {words : List (String × α)} {v : Value} {a : α} :
    oneOf words v = ok a ↔ exists s, v = .text s ∧ words.lookup s = some a := by
  cases v with
  | text s =>
      unfold oneOf
      dsimp only
      cases hlookup : words.lookup s with
      | none => simp [wrong, ok, hlookup]
      | some b => simp [ok, hlookup]
  | _ => simp [oneOf, wrongKind_ne_ok]

theorem items_mem {check : Value -> Check α} {index : Nat} {vs : List Value} {as : List α}
    (hpass : items check index vs = ok as) {a : α} (ha : a ∈ as) :
    exists v, check v = ok a := by
  induction vs generalizing index as with
  | nil =>
      simp only [items, ok, mk.injEq, Option.some.injEq] at hpass
      rw [← hpass.1] at ha
      cases ha
  | cons v vs ih =>
      rw [items, seq_eq_ok] at hpass
      rcases hpass with ⟨g, rest, hfirst, hrest, happly⟩
      rcases map_eq_ok.mp hfirst with ⟨first, hunder, hg⟩
      subst hg
      subst happly
      rcases List.mem_cons.mp ha with hsame | htail
      · rw [hsame]
        exact ⟨v, under_eq_ok.mp hunder⟩
      · exact ih hrest htail

theorem list_eq_ok {check : Value -> Check α} {v : Value} {as : List α} :
    list check v = ok as ↔ exists vs, v = .list vs ∧ items check 0 vs = ok as := by
  cases v with
  | list vs => simp [list]
  | _ => simp [list, wrongKind_ne_ok]

theorem list_mem {check : Value -> Check α} {v : Value} {as : List α}
    (hpass : list check v = ok as) {a : α} (ha : a ∈ as) : exists w, check w = ok a := by
  rcases list_eq_ok.mp hpass with ⟨vs, _, hitems⟩
  exact items_mem hitems ha

theorem sequence_cons_eq_ok {c : Check α} {rest : List (Check α)} {as : List α} :
    sequence (c :: rest) = ok as ↔
      exists a others, c = ok a ∧ sequence rest = ok others ∧ as = a :: others := by
  rw [sequence, seq_eq_ok]
  constructor
  · rintro ⟨_, others, hfirst, hrest, rfl⟩
    rcases map_eq_ok.mp hfirst with ⟨a, ha, rfl⟩
    exact ⟨a, others, ha, hrest, rfl⟩
  · rintro ⟨a, others, ha, hrest, rfl⟩
    exact ⟨_, others, map_eq_ok.mpr ⟨a, ha, rfl⟩, hrest, rfl⟩

theorem record_eq_ok {check : Record -> Check α} {v : Value} {a : α} :
    record check v = ok a ↔ exists r, record? v = some r ∧ check r = ok a := by
  unfold record
  cases record? v with
  | none => simp [wrongKind_ne_ok]
  | some r => simp

theorem field_eq_ok {r : Record} {name : String} {check : Value -> Check α} {a : α} :
    field r name check = ok a ↔ check (r.get name) = ok a :=
  under_eq_ok

theorem scalar_eq_ok {v : Value} {s : Scalar} :
    scalar v = ok s ↔ v = s.toValue ∧ v ≠ .number .nan := by
  constructor
  · intro hpass
    refine ⟨scalar_passed hpass, ?_⟩
    rintro rfl
    cases hpass
  · rintro ⟨rfl, hnan⟩
    cases s with
    | number x =>
        cases x with
        | nan => exact absurd rfl hnan
        | _ => rfl
    | _ => rfl

/-! ## Entries of maps -/

section Entries

variable {check : Value -> Check α} {fields : Fields}

theorem entries_cons_eq_ok {key : String} {v : Value} {as : List (String × α)} :
    entries check ((key, v) :: fields) = ok as ↔
      exists a others, check v = ok a ∧ entries check fields = ok others ∧
        as = if key = Fields.baseKey then others else (key, a) :: others := by
  rw [entries, seq_eq_ok]
  constructor
  · rintro ⟨_, others, hfirst, hrest, happly⟩
    rcases map_eq_ok.mp hfirst with ⟨a, hunder, rfl⟩
    exact ⟨a, others, under_eq_ok.mp hunder, hrest, happly.symm⟩
  · rintro ⟨a, others, hcheck, hrest, rfl⟩
    exact ⟨_, others, map_eq_ok.mpr ⟨a, under_eq_ok.mpr hcheck, rfl⟩, hrest, rfl⟩

theorem entries_pass_iff :
    (exists as, entries check fields = ok as) ↔
      forall field, field ∈ fields -> exists a, check field.2 = ok a := by
  induction fields with
  | nil => exact iff_of_true ⟨[], rfl⟩ (List.forall_mem_nil _)
  | cons field rest ih =>
      rcases field with ⟨key, v⟩
      rw [List.forall_mem_cons, ← ih]
      constructor
      · rintro ⟨as, hpass⟩
        rcases entries_cons_eq_ok.mp hpass with ⟨a, others, hcheck, hrest, _⟩
        exact ⟨⟨a, hcheck⟩, others, hrest⟩
      · rintro ⟨⟨a, hcheck⟩, others, hrest⟩
        exact ⟨_, entries_cons_eq_ok.mpr ⟨a, others, hcheck, hrest, rfl⟩⟩

/-- The readings of a map, written again, are its fields without the one under the key of the
base. -/
theorem entries_written {write : α -> Value}
    (hwrite : forall v a, check v = ok a -> v = write a) {as : List (String × α)}
    (hpass : entries check fields = ok as) :
    as.map (fun entry => (entry.1, write entry.2)) =
      fields.filter fun field => field.1 != Fields.baseKey := by
  induction fields generalizing as with
  | nil =>
      cases hpass
      rfl
  | cons field rest ih =>
      rcases field with ⟨key, v⟩
      rcases entries_cons_eq_ok.mp hpass with ⟨a, others, hcheck, hrest, rfl⟩
      by_cases hbase : key = Fields.baseKey
      · rw [if_pos hbase, List.filter_cons_of_neg (by simpa using hbase), ih hrest]
      · rw [if_neg hbase, List.filter_cons_of_pos (by simpa using hbase), List.map_cons, ih hrest,
          hwrite v a hcheck]

end Entries

/-! ## Stability -/

def Stable (check : Value -> Check α) (write : α -> Value) : Prop :=
  forall v a, check v = ok a -> check (write a) = ok a

theorem stable_string : Stable string Value.text := by
  intro v s _
  rfl

theorem stable_boolean : Stable boolean Value.bool := by
  intro v b _
  rfl

theorem stable_number : Stable number Value.number := by
  intro v x hpass
  rw [← number_passed hpass]
  exact hpass

theorem stable_scalar : Stable scalar Scalar.toValue := by
  intro v s hpass
  rw [← scalar_passed hpass]
  exact hpass

theorem Stable.require {check : Value -> Check α} {write : α -> Value}
    (hstable : Stable check write) (test : α -> Bool) (message : String) :
    Stable (fun v => (check v).require test message) write := by
  intro v a hpass
  rcases require_eq_ok.mp hpass with ⟨hcheck, htest⟩
  exact require_eq_ok.mpr ⟨hstable v a hcheck, htest⟩

theorem Stable.written {check : Value -> Check α} {write : α -> Value}
    (hstable : Stable check write) : Stable (fun v => write <$> check v) id := by
  intro v w hpass
  rcases map_eq_ok.mp hpass with ⟨a, hcheck, rfl⟩
  exact map_eq_ok.mpr ⟨a, hstable v a hcheck, rfl⟩

theorem oneOf_passed {words : List (String × α)} {word : α -> String}
    (hwords : forall listed, listed ∈ words -> word listed.2 = listed.1) {v : Value} {a : α}
    (hpass : oneOf words v = ok a) : v = .text (word a) := by
  rcases oneOf_eq_ok.mp hpass with ⟨s, hv, hlookup⟩
  rcases List.lookup_eq_some_iff.mp hlookup with ⟨before, after, hsplit, _⟩
  have hlisted : (s, a) ∈ words := by
    rw [hsplit]
    simp
  rw [hv, hwords (s, a) hlisted]

theorem stable_oneOf {words : List (String × α)} {word : α -> String}
    (hwords : forall listed, listed ∈ words -> word listed.2 = listed.1) :
    Stable (oneOf words) (fun a => .text (word a)) := by
  intro v a hpass
  have hv := oneOf_passed hwords hpass
  rw [hv] at hpass
  exact hpass

theorem Stable.optional {check : Value -> Check α} {write : α -> Value}
    (hstable : Stable check write) (hpresent : forall v a, check v = ok a -> v ≠ .absent ->
      write a ≠ .absent) :
    Stable (optional check) (fun a? => (a?.map write).getD .absent) := by
  intro v a? hpass
  rcases optional_eq_ok.mp hpass with ⟨_, hnone⟩ | ⟨hv, a, hcheck, hsome⟩
  · subst hnone
    rfl
  · subst hsome
    exact optional_eq_ok.mpr (Or.inr ⟨hpresent v a hcheck hv, a, hstable v a hcheck, rfl⟩)

theorem Stable.withDefault {check : Value -> Check α} {write : α -> Value}
    (hstable : Stable check write) (hpresent : forall a, write a ≠ .absent) {default : α}
    (hdefault : check (write default) = ok default) :
    Stable (withDefault default check) write := by
  intro v a hpass
  rw [withDefault_present (hpresent a)]
  rcases withDefault_eq_ok hpass with ⟨_, hsame⟩ | hcheck
  · rw [hsame]
    exact hdefault
  · exact hstable v a hcheck

theorem Stable.items {check : Value -> Check α} {write : α -> Value}
    (hstable : Stable check write) {index : Nat} {vs : List Value} {as : List α}
    (hpass : Check.items check index vs = ok as) (index' : Nat) :
    Check.items check index' (as.map write) = ok as := by
  induction vs generalizing index as index' with
  | nil =>
      simp only [Check.items, ok, mk.injEq, Option.some.injEq] at hpass
      rw [← hpass.1]
      rfl
  | cons v vs ih =>
      rw [Check.items, seq_eq_ok] at hpass
      rcases hpass with ⟨g, rest, hfirst, hrest, happly⟩
      rcases map_eq_ok.mp hfirst with ⟨first, hunder, hg⟩
      subst hg
      subst happly
      have hwritten := hstable v first (under_eq_ok.mp hunder)
      rw [List.map_cons, Check.items, seq_eq_ok]
      exact ⟨_, rest, map_eq_ok.mpr ⟨first, under_eq_ok.mpr hwritten, rfl⟩,
        ih hrest (index' + 1), rfl⟩

theorem Stable.list {check : Value -> Check α} {write : α -> Value}
    (hstable : Stable check write) :
    Stable (Check.list check) (fun as => .list (as.map write)) := by
  intro v as hpass
  rcases list_eq_ok.mp hpass with ⟨vs, _, hitems⟩
  exact hstable.items hitems 0

theorem Stable.entries {check : Value -> Check α} {write : α -> Value}
    (hstable : Stable check write) {fields : Fields} {as : List (String × α)}
    (hpass : Check.entries check fields = ok as) :
    Check.entries check (as.map fun entry => (entry.1, write entry.2)) = ok as := by
  induction fields generalizing as with
  | nil =>
      simp only [Check.entries, ok, mk.injEq, Option.some.injEq] at hpass
      rw [← hpass.1]
      rfl
  | cons field rest ih =>
      rcases field with ⟨key, v⟩
      rcases entries_cons_eq_ok.mp hpass with ⟨first, others, hcheck, hrest, rfl⟩
      by_cases hbase : key = Fields.baseKey
      · rw [if_pos hbase]
        exact ih hrest
      · rw [if_neg hbase, List.map_cons]
        refine entries_cons_eq_ok.mpr ⟨first, others, hstable v first hcheck, ih hrest, ?_⟩
        exact (if_neg hbase).symm

theorem Stable.map? {check : Value -> Check α} {write : α -> Value}
    (hstable : Stable check write) :
    Stable (Check.map? check)
      (fun as => .ofFields (as.map fun entry => (entry.1, write entry.2))) := by
  intro v as hpass
  rcases record_eq_ok.mp hpass with ⟨r, _, hentries⟩
  exact record_eq_ok.mpr ⟨_, rfl, hstable.entries hentries⟩

theorem Stable.field {check : Value -> Check α} {write : α -> Value}
    (hstable : Stable check write) {r other : Record} {name : String} {a : α}
    (hpass : Check.field r name check = ok a) (hwritten : other.get name = write a) :
    Check.field other name check = ok a := by
  rw [field_eq_ok, hwritten]
  exact hstable _ a (field_eq_ok.mp hpass)

end Check

end OperatorConsole
