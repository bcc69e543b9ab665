import Mathlib.Data.List.Lex
import OperatorConsole.Discovery

/-!
# The modules of a directory

A file is a module if a stem and one of three extensions make up its name, and if it is not one
of declarations.  The modules of a directory are these files in the order of their names, which
are compared by 16-bit units.
-/

namespace OperatorConsole

/-- A file whose name is a stem with the extension of a module, other than a file of
declarations. -/
structure DirectoryEntry.IsModule (entry : DirectoryEntry σ) : Prop where
  file : entry.isFile = true
  named : exists stem ending, stem ≠ [] ∧ ending ∈ Discovery.moduleExtensions ∧
    entry.name.toList = stem ++ ending
  notDeclarations : ¬ ".d.ts".toList <:+ entry.name.toList

namespace Discovery

/-! ## Extensions -/

theorem extension_cases (name : List Char) :
    extension name = [] ∨ exists stem, stem ≠ [] ∧ name = stem ++ extension name := by
  have hsplit : name.reverse.takeWhile (· != '.') ++ name.reverse.dropWhile (· != '.') =
      name.reverse := List.takeWhile_append_dropWhile
  unfold extension
  dsimp only
  split
  case h_1 c stem hrest =>
    refine Or.inr ⟨(c :: stem).reverse, by simp, ?_⟩
    rw [hrest] at hsplit
    have hname := congrArg List.reverse hsplit
    rw [List.reverse_reverse, List.reverse_append] at hname
    simpa using hname.symm
  case h_2 => exact Or.inl rfl

theorem extension_append {stem tail : List Char} (hstem : stem ≠ []) (htail : '.' ∉ tail) :
    extension (stem ++ '.' :: tail) = '.' :: tail := by
  have hplain : forall c, c ∈ tail.reverse -> (c != '.') = true := by
    intro c hc
    rw [bne_iff_ne]
    rintro rfl
    exact htail (List.mem_reverse.mp hc)
  have hreverse : (stem ++ '.' :: tail).reverse = tail.reverse ++ '.' :: stem.reverse := by simp
  unfold extension
  dsimp only
  rw [hreverse, List.takeWhile_append_of_pos hplain, List.dropWhile_append_of_pos hplain]
  cases hbefore : stem.reverse with
  | nil => exact absurd (List.reverse_eq_nil_iff.mp hbefore) hstem
  | cons c more => simp

theorem moduleExtension_cases {ending : List Char} (hending : ending ∈ moduleExtensions) :
    exists tail, ending = '.' :: tail ∧ '.' ∉ tail := by
  unfold moduleExtensions at hending
  simp only [List.mem_cons, List.not_mem_nil, or_false] at hending
  rcases hending with rfl | rfl | rfl
  · exact ⟨"js".toList, rfl, by decide⟩
  · exact ⟨"mjs".toList, rfl, by decide⟩
  · exact ⟨"ts".toList, rfl, by decide⟩

theorem extension_isModule {name : List Char} :
    extension name ∈ moduleExtensions ↔
      exists stem ending, stem ≠ [] ∧ ending ∈ moduleExtensions ∧ name = stem ++ ending := by
  constructor
  · intro hlisted
    rcases extension_cases name with hnone | ⟨stem, hstem, hname⟩
    · rw [hnone] at hlisted
      exact absurd hlisted (by decide)
    · exact ⟨stem, _, hstem, hlisted, hname⟩
  · rintro ⟨stem, ending, hstem, hending, rfl⟩
    rcases moduleExtension_cases hending with ⟨tail, rfl, htail⟩
    rw [extension_append hstem htail]
    exact hending

/-! ## Modules -/

theorem isModuleName_iff {name : String} :
    isModuleName name = true ↔
      (exists stem ending, stem ≠ [] ∧ ending ∈ moduleExtensions ∧
        name.toList = stem ++ ending) ∧ ¬ ".d.ts".toList <:+ name.toList := by
  have hdeclares : name.toList.reverse.take 5 = "st.d.".toList ↔
      ".d.ts".toList <:+ name.toList := by
    rw [← List.reverse_prefix, List.prefix_iff_eq_take]
    exact eq_comm
  unfold isModuleName
  rw [Bool.and_eq_true, List.contains_iff_mem, extension_isModule, Bool.not_eq_true',
    beq_eq_false_iff_ne, ne_eq, hdeclares]

theorem isModule_iff {entry : DirectoryEntry σ} :
    (entry.isFile && isModuleName entry.name) = true ↔ entry.IsModule := by
  rw [Bool.and_eq_true, isModuleName_iff]
  constructor
  · rintro ⟨hfile, hnamed, hdeclares⟩
    exact ⟨hfile, hnamed, hdeclares⟩
  · intro hmodule
    exact ⟨hmodule.file, hmodule.named, hmodule.notDeclarations⟩

instance : DecidablePred (@DirectoryEntry.IsModule σ) :=
  fun _ => decidable_of_iff _ isModule_iff

/-! ## Order of names -/

theorem unitsLe_iff {a b : List Nat} : Text.unitsLe a b = true ↔ a ≤ b := by
  rw [← not_lt]
  induction a generalizing b with
  | nil => exact ⟨fun _ => List.not_lt_nil b, fun _ => rfl⟩
  | cons m a ih =>
      cases b with
      | nil => exact ⟨nofun, fun hnot => absurd (List.nil_lt_cons m a) hnot⟩
      | cons n b =>
          rw [Text.unitsLe, List.cons_lt_cons_iff]
          split
          case isTrue hless =>
            have hdiffer : n ≠ m := Nat.ne_of_gt hless
            simp [hdiffer, Nat.lt_asymm hless]
          case isFalse hless =>
            split
            case isTrue hgreater => simp [hgreater]
            case isFalse hgreater =>
              have hsame : n = m := Nat.le_antisymm (Nat.not_lt.mp hless) (Nat.not_lt.mp hgreater)
              rw [ih]
              simp [hsame]

theorem nameLe_iff {a b : String} :
    nameLe a b = true ↔ Text.units a.toList ≤ Text.units b.toList :=
  unitsLe_iff

theorem modulesOf_sorted (entries : List (DirectoryEntry σ)) :
    (modulesOf entries).Perm (entries.filter fun entry => decide entry.IsModule) ∧
      (modulesOf entries).Pairwise fun a b =>
        Text.units a.name.toList ≤ Text.units b.name.toList := by
  have hfilter : (fun entry : DirectoryEntry σ => entry.isFile && isModuleName entry.name) =
      fun entry => decide entry.IsModule := by
    funext entry
    rw [Bool.eq_iff_iff, isModule_iff, decide_eq_true_iff]
  unfold modulesOf
  rw [hfilter]
  constructor
  · exact List.mergeSort_perm _ _
  · refine (List.pairwise_mergeSort ?_ ?_ _).imp nameLe_iff.mp
    · intro a b c hab hbc
      rw [nameLe_iff] at hab hbc ⊢
      exact le_trans hab hbc
    · intro a b
      rw [Bool.or_eq_true, nameLe_iff, nameLe_iff]
      exact le_total _ _

end Discovery

end OperatorConsole
