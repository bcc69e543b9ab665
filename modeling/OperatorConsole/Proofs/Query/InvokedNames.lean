import OperatorConsole.Proofs.Query.Admission
import OperatorConsole.Proofs.Query.Grammar

/-!
# Names in a chain

The first test of an expression looks at the names that stand before an opening parenthesis.
It knows nothing of calls and arguments, yet it sees every name that a chain can come to
hold: the names of an admitted chain, read from left to right, are the invoked names of its
tokens.

## Letter case

A helper is kept without its spelling, so names are compared in lower case.
-/

namespace OperatorConsole

namespace Query

/-! ## Names of chains -/

mutual

def Argument.helperNames : Argument -> List String
  | .scalar _ => []
  | .helper h => [h.text]
  | .list items => Argument.helperNamesIn items

def Argument.helperNamesIn : List Argument -> List String
  | [] => []
  | item :: items => Argument.helperNames item ++ Argument.helperNamesIn items

end

def Call.names (call : Call) : List String :=
  call.verb :: Argument.helperNamesIn call.args

def Chain.names (chain : Chain) : List String :=
  chain.flatMap Call.names

theorem Chain.names_cons (call : Call) (chain : Chain) :
    Chain.names (call :: chain) = call.names ++ chain.names :=
  List.flatMap_cons

def lowered (names : List String) : List String :=
  names.map Text.lowerString

@[simp] theorem lowered_cons (name : String) (names : List String) :
    lowered (name :: names) = Text.lowerString name :: lowered names := rfl

@[simp] theorem lowered_append (names names' : List String) :
    lowered (names ++ names') = lowered names ++ lowered names' :=
  List.map_append

/-! ## Invoked names, token by token -/

def opensNext (tokens : List Token) : Prop :=
  exists token rest, tokens = token :: rest ∧ token.lexeme = .mark .opening

theorem not_opensNext_mark {m : Mark} (hm : m ≠ .opening) (position : Nat) (rest : List Token) :
    ¬ opensNext (⟨.mark m, position⟩ :: rest) := by
  rintro ⟨token, rest', htokens, hopening⟩
  cases htokens
  cases hopening
  exact hm rfl

theorem invokedNames_other {token : Token} {rest : List Token}
    (hlexeme : forall word, token.lexeme ≠ .name word) :
    invokedNames (token :: rest) = invokedNames rest := by
  cases token with
  | mk lexeme position =>
      cases lexeme with
      | name word => exact absurd rfl (hlexeme word)
      | _ =>
          rw [invokedNames]
          simp

theorem invokedNames_mark {token : Token} {rest : List Token} {m : Mark}
    (hlexeme : token.lexeme = .mark m) :
    invokedNames (token :: rest) = invokedNames rest := by
  apply invokedNames_other
  intro word hname
  rw [hlexeme] at hname
  cases hname

theorem invokedNames_plain {token : Token} {rest : List Token} (hrest : ¬ opensNext rest) :
    invokedNames (token :: rest) = invokedNames rest := by
  cases token with
  | mk lexeme position =>
      cases lexeme with
      | name word =>
          cases rest with
          | nil => rw [invokedNames]; simp
          | cons next rest =>
              rw [invokedNames, if_neg]
              intro hopening
              exact hrest ⟨next, rest, rfl, hopening⟩
      | _ => exact invokedNames_other (by simp)

theorem invokedNames_call {token next : Token} {rest : List Token} {word : String}
    (hname : token.lexeme = .name word) (hopening : next.lexeme = .mark .opening) :
    invokedNames (token :: next :: rest) = word :: invokedNames rest := by
  cases token with
  | mk lexeme position =>
      subst hname
      rw [invokedNames, if_pos hopening, invokedNames_mark hopening]

/-! ## Along derivations -/

mutual

/-- In front of what is no argument list, the invoked names of an argument are the names of the
helpers in it.  A word that stands for a value would be one if an argument list followed. -/
theorem DerivesArgument.invokedNames {tokens : List Token} {item : Argument} :
    DerivesArgument tokens item -> forall {rest : List Token}, ¬ opensNext rest ->
      lowered (Query.invokedNames (tokens ++ rest)) =
        lowered item.helperNames ++ lowered (Query.invokedNames rest)
  | .string s position, rest, hrest => by
      rw [List.singleton_append, invokedNames_plain hrest, Argument.helperNames]
      rfl
  | .number literal position, rest, hrest => by
      rw [List.singleton_append, invokedNames_plain hrest, Argument.helperNames]
      rfl
  | .keyword position hword, rest, hrest => by
      rw [List.singleton_append, invokedNames_plain hrest, Argument.helperNames]
      rfl
  | @DerivesArgument.helper word h first second third hword, rest, _ => by
      rw [List.cons_append, List.cons_append, List.singleton_append,
        invokedNames_call rfl rfl, invokedNames_mark rfl, Argument.helperNames, lowered_cons,
        lowered_cons, hword, lowerString_text]
      rfl
  | .list first last hitems, rest, hrest => by
      have hplain : ¬ opensNext (⟨.mark .closeList, last⟩ :: rest) :=
        not_opensNext_mark (by decide) _ _
      rw [List.cons_append, List.append_assoc, List.singleton_append, invokedNames_mark rfl,
        hitems.invokedNames hplain, invokedNames_mark rfl, Argument.helperNames]

theorem DerivesArguments.invokedNames {tokens : List Token} {items : List Argument} :
    DerivesArguments tokens items -> forall {rest : List Token}, ¬ opensNext rest ->
      lowered (Query.invokedNames (tokens ++ rest)) =
        lowered (Argument.helperNamesIn items) ++ lowered (Query.invokedNames rest)
  | .none, rest, _ => rfl
  | .some hitems, rest, hrest => hitems.invokedNames hrest

theorem DerivesItems.invokedNames {tokens : List Token} {items : List Argument} :
    DerivesItems tokens items -> forall {rest : List Token}, ¬ opensNext rest ->
      lowered (Query.invokedNames (tokens ++ rest)) =
        lowered (Argument.helperNamesIn items) ++ lowered (Query.invokedNames rest)
  | .last hitem, rest, hrest => by
      rw [hitem.invokedNames hrest, Argument.helperNamesIn, Argument.helperNamesIn,
        List.append_nil]
  | @DerivesItems.more tokens others item items comma hitem hitems, rest, hrest => by
      have hplain : ¬ opensNext (⟨.mark .comma, comma⟩ :: (others ++ rest)) :=
        not_opensNext_mark (by decide) _ _
      rw [List.append_assoc, List.cons_append, hitem.invokedNames hplain, invokedNames_mark rfl,
        hitems.invokedNames hrest, Argument.helperNamesIn, lowered_append, List.append_assoc]

end

theorem DerivesCall.invokedNames {tokens : List Token} {call : Call}
    (hcall : DerivesCall tokens call) (rest : List Token) :
    lowered (Query.invokedNames (tokens ++ rest)) =
      lowered call.names ++ lowered (Query.invokedNames rest) := by
  cases hcall with
  | @call inner args verb position first last hargs =>
      have hplain : ¬ opensNext (⟨.mark .closing, last⟩ :: rest) :=
        not_opensNext_mark (by decide) _ _
      rw [List.cons_append, List.cons_append, List.append_assoc, List.singleton_append,
        invokedNames_call rfl rfl, lowered_cons, hargs.invokedNames hplain,
        invokedNames_mark rfl]
      rfl

theorem DerivesCalls.invokedNames {tokens : List Token} {calls : Chain}
    (hcalls : DerivesCalls tokens calls) (rest : List Token) :
    lowered (Query.invokedNames (tokens ++ rest)) =
      lowered (Chain.names calls) ++ lowered (Query.invokedNames rest) := by
  induction hcalls with
  | @last tokens call hcall =>
      rw [hcall.invokedNames, Chain.names_cons, lowered_append]
      simp [Chain.names, lowered]
  | @more tokens others call calls arrow hcall _ ih =>
      have harrow : Query.invokedNames (⟨.arrow, arrow⟩ :: (others ++ rest)) =
          Query.invokedNames (others ++ rest) := invokedNames_other (by simp)
      rw [List.append_assoc, List.cons_append, hcall.invokedNames, harrow, ih, Chain.names_cons,
        lowered_append, List.append_assoc]

/-- The invoked names of tokens that stand for a chain are the names of the chain. -/
theorem DerivesChain.invokedNames {tokens : List Token} {chain : Chain}
    (hchain : DerivesChain tokens chain) :
    lowered (Query.invokedNames tokens) = lowered chain.names := by
  cases hchain with
  | plain hcalls =>
      have hnames := hcalls.invokedNames []
      rw [List.append_nil] at hnames
      rw [hnames]
      simp [Query.invokedNames, lowered]
  | ended semicolon hcalls =>
      rw [hcalls.invokedNames, invokedNames_mark rfl]
      simp [Query.invokedNames, lowered]

namespace Chain

theorem ofTokens_sees {tokens : List Token} {chain : Chain}
    (hread : ofTokens tokens = .ok chain) :
    lowered (invokedNames tokens) = lowered chain.names :=
  (derives_of_ofTokens hread).invokedNames

theorem names_allowed {tokens : List Token} {chain : Chain} (hread : ofTokens tokens = .ok chain)
    (hallowed : forall name, name ∈ invokedNames tokens -> isAllowedName name = true) :
    forall name, name ∈ chain.names -> isAllowedName name = true := by
  intro name hname
  have hlowered : Text.lowerString name ∈ lowered (invokedNames tokens) := by
    rw [ofTokens_sees hread]
    exact List.mem_map_of_mem hname
  rcases List.mem_map.mp hlowered with ⟨invoked, hinvoked, hspelling⟩
  unfold isAllowedName
  rw [← hspelling]
  exact hallowed invoked hinvoked

theorem verb_mem_names {chain : Chain} {call : Call} (hcall : call ∈ chain) :
    call.verb ∈ chain.names :=
  List.mem_flatMap.mpr ⟨call, hcall, List.mem_cons_self⟩

end Chain

/-! ## Admission -/

namespace Validator

/-- Every name in an admitted chain has been seen by the test of names, and allowed: the
verbs and the helpers of the chain are the invoked names of the tokens, in the same order. -/
theorem accept_names_allowed {v : Validator} {expression : String} {s : Session σ}
    {chain : Chain} (haccept : (v.accept expression s).1 = .ok chain) :
    exists tokens, tokenize expression = .ok tokens ∧
      chain.names.map Text.lowerString = (invokedNames tokens).map Text.lowerString ∧
      forall name, name ∈ chain.names -> Text.lowerString name ∈ allowedNames := by
  rcases verdict_accepted (accept_ok.mp haccept) with ⟨tokens, htokens, hchain, hallowed⟩
  have hsame : lowered chain.names = lowered (invokedNames tokens) :=
    (Chain.ofTokens_sees hchain).symm
  refine ⟨tokens, htokens, hsame, ?_⟩
  intro name hname
  have hlowered : Text.lowerString name ∈ lowered (invokedNames tokens) := by
    rw [← hsame]
    exact List.mem_map_of_mem hname
  rcases List.mem_map.mp hlowered with ⟨invoked, hinvoked, hspelling⟩
  rw [← hspelling]
  exact List.contains_iff_mem.mp (hallowed invoked hinvoked)

theorem accept_names_allowed_nested :
    exists chain,
      (standard.accept "whereIn('day', [Today(), [now()]])->get()"
        (⟨(), []⟩ : Session Unit)).1 = .ok chain ∧
      chain.names.map Text.lowerString = ["wherein", "today", "now", "get"] ∧
      forall name, name ∈ chain.names -> Text.lowerString name ∈ allowedNames := by
  have hadmitted : (standard.verdict "whereIn('day', [Today(), [now()]])->get()").isAccepted := by
    decide +kernel
  have hinvoked : (tokenize "whereIn('day', [Today(), [now()]])->get()").toOption.map
      (fun tokens => (invokedNames tokens).map Text.lowerString) =
      some ["wherein", "today", "now", "get"] := by
    decide +kernel
  cases hverdict : standard.verdict "whereIn('day', [Today(), [now()]])->get()" with
  | rejected rejection =>
      rw [hverdict] at hadmitted
      cases hadmitted
  | accepted chain =>
      have haccept := (accept_ok (s := (⟨(), []⟩ : Session Unit))).mpr hverdict
      rcases accept_names_allowed haccept with ⟨tokens, htokens, hnames, hallowed⟩
      rw [htokens] at hinvoked
      refine ⟨chain, haccept, ?_, hallowed⟩
      rw [hnames]
      exact Option.some.inj hinvoked

end Validator

end Query

end OperatorConsole
