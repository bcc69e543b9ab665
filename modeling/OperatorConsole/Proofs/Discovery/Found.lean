import OperatorConsole.Proofs.Discovery.Listing
import OperatorConsole.Proofs.Runner.Observed

/-!
# Discovered commands

The modules of a directory are visited in order, and each visit comes to a command, to nothing
or to a failure.  The default export decides unless there is nothing usable in it; then the
export `command` does.  A constructor that fails decides as well: its module fails with it,
whatever the other export is.

A module that fails is noted and passed over.  Only a failure without a text cannot be noted,
and it ends the discovery.
-/

namespace OperatorConsole

/-! ## Single modules

What is looked for in a module comes to a candidate, to nothing or to a failure, and the session
goes on from there. -/

inductive ModuleExport.ComesTo : ModuleExport σ -> Session σ ->
    Except Failure (Option (Candidate σ)) -> Session σ -> Prop where
  | command {c s} (hrunnable : c.isRunnable s.host = true) :
      ComesTo (.candidate c) s (.ok (some c)) s
  | other {c s} (hrunnable : c.isRunnable s.host = false) :
      ComesTo (.candidate c) s (.ok none) s
  | builtCommand {build c s t} (hbuild : build s = (.ok c, t))
      (hrunnable : c.isRunnable t.host = true) :
      ComesTo (.buildable 0 build) s (.ok (some c)) t
  | builtOther {build c s t} (hbuild : build s = (.ok c, t))
      (hrunnable : c.isRunnable t.host = false) :
      ComesTo (.buildable 0 build) s (.ok none) t
  | unbuilt {build failure s t} (hbuild : build s = (.error failure, t)) :
      ComesTo (.buildable 0 build) s (.error failure) t
  | demanding {n build s} : ComesTo (.buildable (n + 1) build) s (.ok none) s

/-- What an export that may be missing comes to. -/
inductive ModuleExport.SlotComesTo : Option (ModuleExport σ) -> Session σ ->
    Except Failure (Option (Candidate σ)) -> Session σ -> Prop where
  | missing {s} : SlotComesTo none s (.ok none) s
  | filled {e s outcome t} (hexport : e.ComesTo s outcome t) :
      SlotComesTo (some e) s outcome t

inductive CommandModule.ComesTo (m : CommandModule σ) : Session σ ->
    Except Failure (Option (Candidate σ)) -> Session σ -> Prop where
  | default {s outcome t} (hdefault : ModuleExport.SlotComesTo m.default s outcome t)
      (hdecides : outcome ≠ .ok none) : m.ComesTo s outcome t
  | command {s t outcome u} (hdefault : ModuleExport.SlotComesTo m.default s (.ok none) t)
      (hcommand : ModuleExport.SlotComesTo m.command t outcome u) : m.ComesTo s outcome u

inductive DirectoryEntry.ComesTo (entry : DirectoryEntry σ) : Session σ ->
    Except Failure (Option (Candidate σ)) -> Session σ -> Prop where
  | unloaded {s failure t} (hload : entry.load s = (.error failure, t)) :
      entry.ComesTo s (.error failure) t
  | loaded {s m t outcome u} (hload : entry.load s = (.ok m, t))
      (hmodule : m.ComesTo t outcome u) : entry.ComesTo s outcome u

namespace Discovery

/-! ## Visits -/

/-- The fact that is noted of every visit. -/
def place (directory : String) (entry : DirectoryEntry σ) : String × Value :=
  ("file", .text (directory ++ "/" ++ entry.name))

def note (file : String × Value) : Except String (Option (Candidate σ)) -> LogEntry
  | .ok (some _) => ⟨.debug, "Discovered command module", some (.ofFields [file])⟩
  | .ok none => ⟨.warn, "Module exports no command", some (.ofFields [file])⟩
  | .error text =>
      ⟨.error, "Failed to load command module", some (.ofFields [file, ("error", .text text)])⟩

/-- A visit of a module, with what is found and the session after it. -/
inductive Visit (directory : String) (entry : DirectoryEntry σ) :
    Session σ -> Option (Candidate σ) -> Session σ -> Prop where
  | finished {s found t} (hentry : entry.ComesTo s (.ok found) t) :
      Visit directory entry s found
        { t with journal := t.journal ++ [note (place directory entry) (.ok found)] }
  | failed {s failure t text} (hentry : entry.ComesTo s (.error failure) t)
      (htext : failure.message = .ok text) :
      Visit directory entry s none
        { t with journal := t.journal ++ [@note σ (place directory entry) (.error text)] }

inductive Visits (directory : String) : List (DirectoryEntry σ) -> Session σ ->
    List (Option (Candidate σ)) -> Session σ -> Prop where
  | none {s} : Visits directory [] s [] s
  | next {entry rest s found t others u} (hvisit : Visit directory entry s found t)
      (hrest : Visits directory rest t others u) :
      Visits directory (entry :: rest) s (found :: others) u

/-- Visits up to a module that fails without a text. -/
inductive VisitsStop (directory : String) : List (DirectoryEntry σ) -> Session σ ->
    Session σ -> Prop where
  | here {entry rest s failure t} (hentry : entry.ComesTo s (.error failure) t)
      (hnoText : failure.message = .error .noText) : VisitsStop directory (entry :: rest) s t
  | later {entry rest s found t u} (hvisit : Visit directory entry s found t)
      (hrest : VisitsStop directory rest t u) : VisitsStop directory (entry :: rest) s u

open OperatorConsole.Action

variable {s t u : Session σ} {outcome : Except Failure (Option (Candidate σ))}

/-! ## Looking into a module -/

theorem usable_apply (candidate : Candidate σ) (s : Session σ) :
    usable? candidate s =
      (.ok (if candidate.isRunnable s.host then some candidate else none), s) := rfl

theorem offer_apply {e : ModuleExport σ} (hexport : e.ComesTo s outcome t) :
    offer? e s = (outcome, t) := by
  cases hexport with
  | command hrunnable => rw [offer?, usable_apply, if_pos hrunnable]
  | other hrunnable => rw [offer?, usable_apply, hrunnable, if_neg Bool.false_ne_true]
  | builtCommand hbuild hrunnable =>
      rw [offer?, bind_apply, hbuild, next_ok, usable_apply, if_pos hrunnable]
  | builtOther hbuild hrunnable =>
      rw [offer?, bind_apply, hbuild, next_ok, usable_apply, hrunnable,
        if_neg Bool.false_ne_true]
  | unbuilt hbuild => rw [offer?, bind_apply, hbuild, next_error]
  | demanding => rfl

theorem export_comesTo (e : ModuleExport σ) (s : Session σ) :
    exists outcome t, e.ComesTo s outcome t := by
  cases e with
  | candidate c =>
      cases hrunnable : c.isRunnable s.host with
      | true => exact ⟨_, _, .command hrunnable⟩
      | false => exact ⟨_, _, .other hrunnable⟩
  | buildable arity build =>
      cases arity with
      | succ n => exact ⟨_, _, .demanding⟩
      | zero =>
          rcases hbuild : build s with ⟨built, t⟩
          cases built with
          | error failure => exact ⟨_, _, .unbuilt hbuild⟩
          | ok c =>
              cases hrunnable : c.isRunnable t.host with
              | true => exact ⟨_, _, .builtCommand hbuild hrunnable⟩
              | false => exact ⟨_, _, .builtOther hbuild hrunnable⟩

theorem slot_comesTo (e? : Option (ModuleExport σ)) (s : Session σ) :
    exists outcome t, ModuleExport.SlotComesTo e? s outcome t := by
  cases e? with
  | none => exact ⟨_, _, .missing⟩
  | some e =>
      rcases export_comesTo e s with ⟨outcome, t, hexport⟩
      exact ⟨outcome, t, .filled hexport⟩

theorem firstOffer_decided {e? : Option (ModuleExport σ)} {rest : List (ModuleExport σ)}
    (hslot : ModuleExport.SlotComesTo e? s outcome t) (hdecides : outcome ≠ .ok none) :
    firstOffer? (e?.toList ++ rest) s = (outcome, t) := by
  cases hslot with
  | missing => exact absurd rfl hdecides
  | filled hexport =>
      change firstOffer? (_ :: rest) s = _
      rw [firstOffer?, bind_apply, offer_apply hexport]
      cases outcome with
      | error failure => rfl
      | ok found =>
          cases found with
          | none => exact absurd rfl hdecides
          | some c => rfl

theorem firstOffer_passed {e? : Option (ModuleExport σ)} {rest : List (ModuleExport σ)}
    (hslot : ModuleExport.SlotComesTo e? s (.ok none) t) :
    firstOffer? (e?.toList ++ rest) s = firstOffer? rest t := by
  cases hslot with
  | missing => rfl
  | filled hexport =>
      change firstOffer? (_ :: rest) s = _
      rw [firstOffer?, bind_apply, offer_apply hexport]
      rfl

theorem commandOf_apply {m : CommandModule σ} (hmodule : m.ComesTo s outcome t) :
    commandOf? m s = (outcome, t) := by
  unfold commandOf?
  cases hmodule with
  | default hdefault hdecides => exact firstOffer_decided hdefault hdecides
  | command hdefault hcommand =>
      rw [firstOffer_passed hdefault, ← List.append_nil m.command.toList]
      by_cases hdecides : outcome = .ok none
      · rw [hdecides] at hcommand ⊢
        exact firstOffer_passed hcommand
      · exact firstOffer_decided hcommand hdecides

theorem module_comesTo (m : CommandModule σ) (s : Session σ) :
    exists outcome t, m.ComesTo s outcome t := by
  rcases slot_comesTo m.default s with ⟨first, t, hdefault⟩
  by_cases hdecides : first = .ok none
  · rw [hdecides] at hdefault
    rcases slot_comesTo m.command t with ⟨outcome, u, hcommand⟩
    exact ⟨outcome, u, .command hdefault hcommand⟩
  · exact ⟨first, t, .default hdefault hdecides⟩

theorem load_apply {entry : DirectoryEntry σ} (hentry : entry.ComesTo s outcome t) :
    (entry.load >>= commandOf?) s = (outcome, t) := by
  cases hentry with
  | unloaded hload => rw [bind_apply, hload, next_error]
  | loaded hload hmodule => rw [bind_apply, hload, next_ok, commandOf_apply hmodule]

theorem entry_comesTo (entry : DirectoryEntry σ) (s : Session σ) :
    exists outcome t, entry.ComesTo s outcome t := by
  rcases hload : entry.load s with ⟨loaded, t⟩
  cases loaded with
  | error failure => exact ⟨_, _, .unloaded hload⟩
  | ok m =>
      rcases module_comesTo m t with ⟨outcome, u, hmodule⟩
      exact ⟨outcome, u, .loaded hload hmodule⟩

/-! ## Visiting modules -/

section

variable {directory : String} {entry : DirectoryEntry σ} {modules : List (DirectoryEntry σ)}

theorem visit_apply {found : Option (Candidate σ)} (hvisit : Visit directory entry s found t) :
    visit directory entry s = (.ok found, t) := by
  unfold visit
  cases hvisit with
  | finished hentry =>
      rw [bind_apply, attempt_apply, load_apply hentry, next_ok]
      cases found with
      | some c => rfl
      | none => rfl
  | failed hentry htext =>
      rw [bind_apply, attempt_apply, load_apply hentry, next_ok]
      dsimp only
      rw [bind_apply]
      unfold messageOf
      rw [settle_apply, htext]
      rfl

theorem visit_stopped {failure : Failure} (hentry : entry.ComesTo s (.error failure) t)
    (hnoText : failure.message = .error .noText) :
    visit directory entry s = (.error .noText, t) := by
  unfold visit
  rw [bind_apply, attempt_apply, load_apply hentry, next_ok]
  dsimp only
  rw [bind_apply]
  unfold messageOf
  rw [settle_apply, hnoText]
  rfl

theorem message_cases (failure : Failure) :
    (exists text, failure.message = .ok text) ∨ failure.message = .error .noText := by
  cases failure with
  | thrown v =>
      change (exists text, Failure.textOf v = .ok text) ∨ Failure.textOf v = .error .noText
      unfold Failure.textOf
      cases v.text? with
      | some text => exact Or.inl ⟨text, rfl⟩
      | none => exact Or.inr rfl
  | _ => exact Or.inl ⟨_, rfl⟩

theorem mapM_visits {outcomes : List (Option (Candidate σ))}
    (hvisits : Visits directory modules s outcomes t) :
    modules.mapM (visit directory) s = (.ok outcomes, t) := by
  induction hvisits with
  | none => rfl
  | next hvisit hrest ih =>
      rw [List.mapM_cons, bind_apply, visit_apply hvisit, next_ok, bind_apply, ih]
      rfl

theorem mapM_visitsStop (hstop : VisitsStop directory modules s t) :
    modules.mapM (visit directory) s = (.error .noText, t) := by
  induction hstop with
  | here hentry hnoText =>
      rw [List.mapM_cons, bind_apply, visit_stopped hentry hnoText]
      rfl
  | later hvisit hrest ih =>
      rw [List.mapM_cons, bind_apply, visit_apply hvisit, next_ok, bind_apply, ih]
      rfl

theorem visit_or_stop (directory : String) (entry : DirectoryEntry σ) (s : Session σ) :
    (exists found t, Visit directory entry s found t) ∨
      exists failure t, entry.ComesTo s (.error failure) t ∧
        failure.message = .error .noText := by
  rcases entry_comesTo entry s with ⟨outcome, t, hentry⟩
  cases outcome with
  | ok found => exact Or.inl ⟨found, _, .finished hentry⟩
  | error failure =>
      rcases message_cases failure with ⟨text, htext⟩ | hnoText
      · exact Or.inl ⟨none, _, .failed hentry htext⟩
      · exact Or.inr ⟨failure, t, hentry, hnoText⟩

theorem visits_or_stop (directory : String) (modules : List (DirectoryEntry σ))
    (s : Session σ) :
    (exists outcomes t, Visits directory modules s outcomes t) ∨
      exists t, VisitsStop directory modules s t := by
  induction modules generalizing s with
  | nil => exact Or.inl ⟨[], s, .none⟩
  | cons entry rest ih =>
      rcases visit_or_stop directory entry s with
        ⟨found, t, hvisit⟩ | ⟨failure, t, hentry, hnoText⟩
      · rcases ih t with ⟨outcomes, u, hrest⟩ | ⟨u, hrest⟩
        · exact Or.inl ⟨_, u, .next hvisit hrest⟩
        · exact Or.inr ⟨u, .later hvisit hrest⟩
      · exact Or.inr ⟨t, .here hentry hnoText⟩

end

/-! ## Whole directories -/

structure GoesByModules (directory : String) (entries modules : List (DirectoryEntry σ)) :
    Prop where
  listed : modules.Perm (entries.filter fun entry => decide entry.IsModule)
  ordered : modules.Pairwise fun a b =>
    Text.units a.name.toList ≤ Text.units b.name.toList
  found : forall s commands t,
    discover directory (some entries) s = (.ok commands, t) ↔
      exists outcomes, Visits directory modules s outcomes t ∧
        commands = outcomes.filterMap id
  stopped : forall s failure t,
    discover directory (some entries) s = (.error failure, t) ↔
      failure = .noText ∧ VisitsStop directory modules s t
  /-- If each module comes to the same from every session, what is found in one does not depend
  on the others. -/
  separate : forall outcome : DirectoryEntry σ -> Option (Candidate σ),
    (forall entry, entry ∈ modules ->
        forall s, exists t, Visit directory entry s (outcome entry) t) ->
      forall s, (discover directory (some entries) s).1 = .ok (modules.filterMap outcome)

section

variable {directory : String} {entries modules : List (DirectoryEntry σ)}

theorem discover_visits {outcomes : List (Option (Candidate σ))}
    (hvisits : Visits directory (modulesOf entries) s outcomes t) :
    discover directory (some entries) s = (.ok (outcomes.filterMap id), t) := by
  unfold discover
  dsimp only
  rw [bind_apply, mapM_visits hvisits]
  rfl

theorem discover_visitsStop (hstop : VisitsStop directory (modulesOf entries) s t) :
    discover directory (some entries) s = (.error .noText, t) := by
  unfold discover
  dsimp only
  rw [bind_apply, mapM_visitsStop hstop]
  rfl

theorem discover_eq_ok_iff {commands : List (Candidate σ)} :
    discover directory (some entries) s = (.ok commands, t) ↔
      exists outcomes, Visits directory (modulesOf entries) s outcomes t ∧
        commands = outcomes.filterMap id := by
  constructor
  · intro hdiscover
    rcases visits_or_stop directory (modulesOf entries) s with
      ⟨outcomes, u, hvisits⟩ | ⟨u, hstop⟩
    · rw [discover_visits hvisits] at hdiscover
      cases hdiscover
      exact ⟨outcomes, hvisits, rfl⟩
    · rw [discover_visitsStop hstop] at hdiscover
      cases hdiscover
  · rintro ⟨outcomes, hvisits, rfl⟩
    exact discover_visits hvisits

theorem discover_eq_error_iff {failure : Failure} :
    discover directory (some entries) s = (.error failure, t) ↔
      failure = .noText ∧ VisitsStop directory (modulesOf entries) s t := by
  constructor
  · intro hdiscover
    rcases visits_or_stop directory (modulesOf entries) s with
      ⟨outcomes, u, hvisits⟩ | ⟨u, hstop⟩
    · rw [discover_visits hvisits] at hdiscover
      cases hdiscover
    · rw [discover_visitsStop hstop] at hdiscover
      cases hdiscover
      exact ⟨rfl, hstop⟩
  · rintro ⟨rfl, hstop⟩
    exact discover_visitsStop hstop

theorem visits_map {outcome : DirectoryEntry σ -> Option (Candidate σ)}
    (hsteady : forall entry, entry ∈ modules ->
      forall s, exists t, Visit directory entry s (outcome entry) t) (s : Session σ) :
    exists t, Visits directory modules s (modules.map outcome) t := by
  induction modules generalizing s with
  | nil => exact ⟨s, .none⟩
  | cons entry rest ih =>
      rcases hsteady entry List.mem_cons_self s with ⟨t, hvisit⟩
      rcases ih (fun other hother => hsteady other (List.mem_cons_of_mem entry hother)) t with
        ⟨u, hrest⟩
      exact ⟨u, .next hvisit hrest⟩

end

/-! ## Modules on the disk -/

namespace Shipped

def exporting (name : String) (default command : Option (ModuleExport Unit)) :
    DirectoryEntry Unit :=
  ⟨name, true, pure ⟨default, command⟩⟩

def clearing : ModuleExport Unit :=
  .candidate (Restricted.candidate Restricted.clearing)

def failing : ModuleExport Unit :=
  .buildable 0 (throw (.fault .general "no build"))

def demanding : ModuleExport Unit :=
  .buildable 1 (throw (.fault .general "nothing given"))

def unloadable : DirectoryEntry Unit :=
  ⟨"absent.js", true, throw (.fault .general "no such module")⟩

def modules : List (DirectoryEntry Unit) :=
  [unloadable, exporting "building.mjs" (some failing) none,
    exporting "clearing.ts" (some demanding) (some clearing)]

/-- Beside the modules there is a file of declarations. -/
def entries : List (DirectoryEntry Unit) :=
  modules ++ [exporting "types.d.ts" (some clearing) none]

theorem modulesOf_entries : modulesOf entries = modules :=
  List.mergeSort_of_pairwise (by decide)

/-- Its export `command` can be used. -/
def parts (default : Option (ModuleExport Unit)) : DirectoryEntry Unit :=
  exporting "parts.js" default (some clearing)

theorem modulesOf_parts (default : Option (ModuleExport Unit)) :
    modulesOf [parts default] = [parts default] := by
  have hmodule : isModuleName "parts.js" = true := by decide
  unfold modulesOf
  simp [parts, exporting, hmodule]

end Shipped

/-! ## Discovery -/

/-- The modules of a directory are its files with the name of a module, in order.  Discovery
gives the commands of the modules that come to one, in this order, and nothing for the others;
it ends early only at a failure without a text.  A directory that does not exist gives none. -/
theorem discover_goesByModules (directory : String) :
    (forall s : Session σ, (discover directory none s).1 = .ok []) ∧
      forall entries : List (DirectoryEntry σ),
        GoesByModules directory entries (modulesOf entries) := by
  refine ⟨fun s => rfl, fun entries => ?_⟩
  rcases modulesOf_sorted entries with ⟨hlisted, hordered⟩
  constructor
  case listed => exact hlisted
  case ordered => exact hordered
  case found => exact fun s commands t => discover_eq_ok_iff
  case stopped => exact fun s failure t => discover_eq_error_iff
  case separate =>
    intro outcome hsteady s
    rcases visits_map hsteady s with ⟨t, hvisits⟩
    rw [discover_visits hvisits, List.filterMap_map]
    rfl

/-- Two modules fail, and the command of the third is found. -/
theorem discover_goesByModules_clearing :
    (discover "modules" (some Shipped.entries) ⟨(), []⟩).1 =
      .ok [Restricted.candidate Restricted.clearing] := by
  have hgoes := (discover_goesByModules "modules").2 Shipped.entries
  rw [Shipped.modulesOf_entries] at hgoes
  refine hgoes.separate (fun entry => if entry.name = "clearing.ts" then
    some (Restricted.candidate Restricted.clearing) else none) ?_ ⟨(), []⟩
  unfold Shipped.modules
  simp only [List.forall_mem_cons]
  refine ⟨fun s => ?_, fun s => ?_, fun s => ?_, nofun⟩
  · exact ⟨_, .failed (.unloaded rfl) rfl⟩
  · exact ⟨_, .failed (.loaded rfl (.default (.filled (.unbuilt rfl)) nofun)) rfl⟩
  · exact ⟨_, .finished (.loaded rfl (.command (.filled .demanding) (.filled (.command rfl))))⟩

/-- The export `command` is found by itself, and not beside a default export that cannot be
built. -/
theorem command_hidden :
    (discover "modules" (some [Shipped.parts none]) ⟨(), []⟩).1 =
        .ok [Restricted.candidate Restricted.clearing] ∧
      (discover "modules" (some [Shipped.parts (some Shipped.failing)]) ⟨(), []⟩).1 = .ok [] := by
  constructor
  · unfold discover
    dsimp only
    rw [Shipped.modulesOf_parts]
    rfl
  · unfold discover
    dsimp only
    rw [Shipped.modulesOf_parts]
    rfl

end Discovery

end OperatorConsole
