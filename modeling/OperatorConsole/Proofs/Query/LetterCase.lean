import OperatorConsole.Proofs.Query.InvokedNames
import OperatorConsole.Proofs.Query.Matching
import OperatorConsole.Proofs.Query.Observed
import OperatorConsole.Proofs.Query.Recasing
import OperatorConsole.Proofs.Query.Spans

/-!
# Letter case of names

Expressions that differ only in the letter case of their names are judged alike: each of the
tests of an expression either looks at no letters or looks at them in either case.  If they are
admitted, they stand for chains that differ only in how the verbs are spelled, and these are
evaluated alike.
-/

namespace OperatorConsole

namespace Query

open Text

/-! ## Names -/

namespace Lexeme.Recased

variable {lexeme lexeme' : Lexeme}

theorem of_name {word : String} (hrecased : (Lexeme.name word).Recased lexeme') :
    exists word', lexeme' = .name word' ∧ Text.lower word.toList = Text.lower word'.toList := by
  generalize hword : Lexeme.name word = lexeme at hrecased
  cases hrecased with
  | @name letters letters' hsame =>
      cases hword
      refine ⟨String.ofList letters', rfl, ?_⟩
      rw [String.toList_ofList, String.toList_ofList, hsame.lower]
  | same => exact ⟨word, hword.symm, rfl⟩

theorem of_other (hrecased : lexeme.Recased lexeme') (hother : forall word, lexeme ≠ .name word) :
    lexeme' = lexeme := by
  cases hrecased with
  | name => exact absurd rfl (hother _)
  | same => rfl

theorem symm (hrecased : lexeme.Recased lexeme') : lexeme'.Recased lexeme := by
  cases hrecased with
  | name hsame => exact .name hsame.symm
  | same => exact .same lexeme

end Lexeme.Recased

/-- The same tokens up to the letter case of names. -/
abbrev Recasing (tokens tokens' : List Token) : Prop :=
  List.Forall₂ Token.Recased tokens tokens'

namespace Recasing

variable {tokens tokens' : List Token}

theorem symm (hrecasing : Recasing tokens tokens') : Recasing tokens' tokens := by
  induction hrecasing with
  | nil => exact .nil
  | cons htoken _ ih => exact .cons ⟨htoken.position.symm, htoken.lexeme.symm⟩ ih

theorem append_left {front back : List Token} (hrecasing : Recasing (front ++ back) tokens') :
    exists front' back', tokens' = front' ++ back' ∧ Recasing front front' ∧
      Recasing back back' := by
  induction front generalizing tokens' with
  | nil => exact ⟨[], tokens', rfl, .nil, hrecasing⟩
  | cons token front ih =>
      cases hrecasing with
      | @cons _ token' _ _ htoken hrest =>
          rcases ih hrest with ⟨front', back', htokens, hfront, hback⟩
          refine ⟨token' :: front', back', ?_, .cons htoken hfront, hback⟩
          rw [htokens, List.cons_append]

theorem cons_other {lexeme : Lexeme} {position : Nat} {rest : List Token}
    (hrecasing : Recasing (⟨lexeme, position⟩ :: rest) tokens')
    (hother : forall word, lexeme ≠ .name word) :
    exists rest', tokens' = ⟨lexeme, position⟩ :: rest' ∧ Recasing rest rest' := by
  cases hrecasing with
  | @cons _ token' _ rest' htoken hrest =>
      refine ⟨rest', ?_, hrest⟩
      have hlexeme : token'.lexeme = lexeme := htoken.lexeme.of_other hother
      have hposition : position = token'.position := htoken.position
      rw [hposition, ← hlexeme]

theorem cons_mark {m : Mark} {position : Nat} {rest : List Token}
    (hrecasing : Recasing (⟨.mark m, position⟩ :: rest) tokens') :
    exists rest', tokens' = ⟨.mark m, position⟩ :: rest' ∧ Recasing rest rest' :=
  hrecasing.cons_other nofun

theorem cons_name {word : String} {position : Nat} {rest : List Token}
    (hrecasing : Recasing (⟨.name word, position⟩ :: rest) tokens') :
    exists word' rest', tokens' = ⟨.name word', position⟩ :: rest' ∧
      Text.lower word.toList = Text.lower word'.toList ∧ Recasing rest rest' := by
  cases hrecasing with
  | @cons _ token' _ rest' htoken hrest =>
      rcases htoken.lexeme.of_name with ⟨word', hlexeme, hword⟩
      have hposition : position = token'.position := htoken.position
      refine ⟨word', rest', ?_, hword, hrest⟩
      rw [hposition, ← hlexeme]

theorem single_other {lexeme : Lexeme} {position : Nat}
    (hrecasing : Recasing [⟨lexeme, position⟩] tokens')
    (hother : forall word, lexeme ≠ .name word) : tokens' = [⟨lexeme, position⟩] := by
  rcases hrecasing.cons_other hother with ⟨rest', rfl, hrest⟩
  cases hrest
  rfl

theorem single_mark {m : Mark} {position : Nat}
    (hrecasing : Recasing [⟨.mark m, position⟩] tokens') : tokens' = [⟨.mark m, position⟩] :=
  hrecasing.single_other nofun

theorem opensNext (hrecasing : Recasing tokens tokens') (hopens : opensNext tokens) :
    Query.opensNext tokens' := by
  rcases hopens with ⟨⟨lexeme, position⟩, rest, rfl, hopening⟩
  change lexeme = .mark .opening at hopening
  subst hopening
  rcases hrecasing.cons_mark with ⟨rest', rfl, _⟩
  exact ⟨_, rest', rfl, rfl⟩

end Recasing

theorem lowerString_congr {word word' : String}
    (hword : Text.lower word.toList = Text.lower word'.toList) :
    Text.lowerString word = Text.lowerString word' :=
  congrArg String.ofList hword

theorem invokedNames_recased {tokens tokens' : List Token} (hrecasing : Recasing tokens tokens') :
    lowered (invokedNames tokens) = lowered (invokedNames tokens') := by
  induction tokens generalizing tokens' with
  | nil =>
      cases hrecasing
      rfl
  | cons token rest ih =>
      rcases token with ⟨lexeme, position⟩
      by_cases hname : exists word, lexeme = .name word
      · rcases hname with ⟨word, rfl⟩
        rcases hrecasing.cons_name with ⟨word', rest', rfl, hword, hrest⟩
        have hothers := ih hrest
        by_cases hopens : opensNext rest
        · rcases hopens with ⟨⟨opening, place⟩, others, rfl, hopening⟩
          change opening = .mark .opening at hopening
          subst hopening
          rcases hrest.cons_mark with ⟨others', rfl, _⟩
          rw [invokedNames_mark rfl, invokedNames_mark rfl] at hothers
          rw [invokedNames_call rfl rfl, invokedNames_call rfl rfl, lowered_cons, lowered_cons,
            lowerString_congr hword, hothers]
        · have hcloses : ¬ opensNext rest' := fun hopens' => hopens (hrest.symm.opensNext hopens')
          rw [invokedNames_plain hopens, invokedNames_plain hcloses, hothers]
      · have hother : forall word, lexeme ≠ .name word := fun word heq => hname ⟨word, heq⟩
        rcases hrecasing.cons_other hother with ⟨rest', rfl, hrest⟩
        rw [invokedNames_other hother, invokedNames_other hother, ih hrest]

/-! ## Chains -/

mutual

theorem DerivesArgument.recased {tokens tokens' : List Token} {item : Argument} :
    DerivesArgument tokens item -> Recasing tokens tokens' -> DerivesArgument tokens' item
  | .string s position, hrecasing => by
      rw [hrecasing.single_other nofun]
      exact .string s position
  | .number literal position, hrecasing => by
      rw [hrecasing.single_other nofun]
      exact .number literal position
  | .keyword position hword, hrecasing => by
      rcases hrecasing.cons_name with ⟨word', rest', rfl, hlower, hrest⟩
      cases hrest
      rw [lowerString_congr hlower] at hword
      exact .keyword position hword
  | .helper first second third hword, hrecasing => by
      rcases hrecasing.cons_name with ⟨word', rest', rfl, hlower, hrest⟩
      rcases hrest.cons_mark with ⟨rest'', rfl, hclosing⟩
      rw [hclosing.single_mark]
      rw [lowerString_congr hlower] at hword
      exact .helper first second third hword
  | .list first last hitems, hrecasing => by
      rcases hrecasing.cons_mark with ⟨rest', rfl, hrest⟩
      rcases hrest.append_left with ⟨inner', back', rfl, hinner, hback⟩
      rw [hback.single_mark]
      exact .list first last (hitems.recased hinner)

theorem DerivesArguments.recased {tokens tokens' : List Token} {items : List Argument} :
    DerivesArguments tokens items -> Recasing tokens tokens' -> DerivesArguments tokens' items
  | .none, hrecasing => by
      cases hrecasing
      exact .none
  | .some hitems, hrecasing => .some (hitems.recased hrecasing)

theorem DerivesItems.recased {tokens tokens' : List Token} {items : List Argument} :
    DerivesItems tokens items -> Recasing tokens tokens' -> DerivesItems tokens' items
  | .last hitem, hrecasing => .last (hitem.recased hrecasing)
  | .more comma hitem hitems, hrecasing => by
      rcases hrecasing.append_left with ⟨first', rest', rfl, hfirst, hrest⟩
      rcases hrest.cons_mark with ⟨others', rfl, hothers⟩
      exact .more comma (hitem.recased hfirst) (hitems.recased hothers)

end

structure Call.Recased (call call' : Call) : Prop where
  verb : Text.lower call.verb.toList = Text.lower call'.verb.toList
  args : call.args = call'.args
  position : call.position = call'.position

theorem DerivesCall.recased {tokens tokens' : List Token} {call : Call}
    (hcall : DerivesCall tokens call) (hrecasing : Recasing tokens tokens') :
    exists call', DerivesCall tokens' call' ∧ call.Recased call' := by
  cases hcall with
  | @call inner args verb position first last hargs =>
      rcases hrecasing.cons_name with ⟨verb', rest', rfl, hverb, hrest⟩
      rcases hrest.cons_mark with ⟨behind', rfl, hbehind⟩
      rcases hbehind.append_left with ⟨inner', back', rfl, hinner, hback⟩
      rw [hback.single_mark]
      exact ⟨⟨verb', args, position⟩, .call verb' position first last (hargs.recased hinner),
        ⟨hverb, rfl, rfl⟩⟩

theorem DerivesCalls.recased {tokens tokens' : List Token} {calls : Chain}
    (hcalls : DerivesCalls tokens calls) (hrecasing : Recasing tokens tokens') :
    exists calls', DerivesCalls tokens' calls' ∧ List.Forall₂ Call.Recased calls calls' := by
  induction hcalls generalizing tokens' with
  | last hcall =>
      rcases hcall.recased hrecasing with ⟨call', hcall', hsame⟩
      exact ⟨[call'], .last hcall', .cons hsame .nil⟩
  | more arrow hcall _ ih =>
      rcases hrecasing.append_left with ⟨first', rest', rfl, hfirst, hrest⟩
      rcases hrest.cons_other nofun with ⟨others', rfl, hothers⟩
      rcases hcall.recased hfirst with ⟨call', hcall', hsame⟩
      rcases ih hothers with ⟨calls', hcalls', hsameCalls⟩
      exact ⟨call' :: calls', .more arrow hcall' hcalls', .cons hsame hsameCalls⟩

namespace Chain

theorem ofTokens_recased {tokens tokens' : List Token} {chain : Chain}
    (hchain : ofTokens tokens = .ok chain) (hrecasing : Recasing tokens tokens') :
    exists chain', ofTokens tokens' = .ok chain' ∧ List.Forall₂ Call.Recased chain chain' := by
  cases derives_of_ofTokens hchain with
  | plain hcalls =>
      rcases hcalls.recased hrecasing with ⟨chain', hcalls', hsame⟩
      exact ⟨chain', ofTokens_of_derives (.plain hcalls'), hsame⟩
  | ended semicolon hcalls =>
      rcases hrecasing.append_left with ⟨calls', back', rfl, hfront, hback⟩
      rcases hcalls.recased hfront with ⟨chain', hcalls', hsame⟩
      rw [hback.single_mark]
      exact ⟨chain', ofTokens_of_derives (.ended semicolon hcalls'), hsame⟩

end Chain

/-! ## Evaluation -/

section Evaluation

variable {source : EntitySource σ} {clock : Action σ Number}

/-- A call of a known verb does the same however the verb is spelled: no message has the verb as
it is written. -/
theorem step_recased {call call' : Call} (hrecased : call.Recased call')
    (hknown : (canonicalVerb? call.verb).isSome = true) (progress : Progress) :
    step source clock progress call = step source clock progress call' := by
  have hcanonical : canonicalVerb? call.verb = canonicalVerb? call'.verb :=
    findVerb?_congr hrecased.verb
  have hbuilding : forall plan canonical args,
      applyBuilding source plan call.verb canonical args =
        applyBuilding source plan call'.verb canonical args := by
    intro plan canonical args
    unfold applyBuilding BuilderVerb.ofName? TerminalVerb.ofName?
    rw [findVerb?_congr hrecased.verb, findVerb?_congr hrecased.verb]
  have hfinished : forall result canonical args,
      (applyFinished result call.verb canonical args : Action σ Progress) =
        applyFinished result call'.verb canonical args := by
    intro result canonical args
    unfold applyFinished ResultVerb.ofName?
    rw [findVerb?_congr hrecased.verb]
  unfold step
  rw [hcanonical] at hknown ⊢
  cases hverb : canonicalVerb? call'.verb with
  | none =>
      rw [hverb] at hknown
      cases hknown
  | some canonical =>
      cases progress with
      | building plan => simp only [hbuilding, hrecased.args]
      | finished result => simp only [hfinished, hrecased.args]

theorem evaluate_recased {chain chain' : Chain} (hrecased : List.Forall₂ Call.Recased chain chain')
    (hknown : forall call, call ∈ chain -> (canonicalVerb? call.verb).isSome = true) :
    chain.evaluate source clock = chain'.evaluate source clock := by
  have hsteps : forall progress,
      chain.foldlM (step source clock) progress = chain'.foldlM (step source clock) progress := by
    induction hrecased with
    | nil => exact fun _ => rfl
    | cons hcall _ ih =>
        rcases List.forall_mem_cons.mp hknown with ⟨hverb, hothers⟩
        intro progress
        rw [List.foldlM_cons, List.foldlM_cons, step_recased hcall hverb]
        exact congrArg _ (funext (ih hothers))
  unfold Chain.evaluate
  rw [hsteps]

end Evaluation

/-! ## Denied patterns -/

namespace DeniedPattern

def isLetterless : Piece -> Bool
  | .char c => !c.isAlpha
  | _ => true

/-- Whether a pattern takes letters in either case, as far as it names any. -/
def isCaseBlind (p : DeniedPattern) : Bool :=
  p.ignoreCase || p.pieces.all isLetterless

theorem foldCase_same {c d : Char} (hsame : SameLetter c d) : foldCase c = foldCase d := by
  rcases hsame.cases with heq | ⟨hc, hd⟩
  · rw [heq]
  · rw [foldCase_ascii (isAlpha_ascii hc), foldCase_ascii (isAlpha_ascii hd), hsame.toUpper]

section Blind

variable {ignoreCase : Bool}

theorem sameChar_same {c d d' : Char} (hblind : (ignoreCase || !c.isAlpha) = true)
    (hsame : SameLetter d d') : sameChar ignoreCase c d = sameChar ignoreCase c d' := by
  unfold sameChar
  cases ignoreCase with
  | true => rw [if_pos rfl, if_pos rfl, foldCase_same hsame]
  | false =>
      have hplain : c.isAlpha = false := by simpa using hblind
      rw [if_neg Bool.false_ne_true, if_neg Bool.false_ne_true]
      by_cases heq : d = c
      · subst heq
        rw [hsame.eq_of_plain hplain]
      · have hne := hsame.ne_of_plain hplain heq
        rw [beq_eq_false_iff_ne.mpr (Ne.symm heq), beq_eq_false_iff_ne.mpr (Ne.symm hne)]

theorem isWordAt_head_same {text text' : List Char} (hsame : SameLetters text text') :
    isWordAt text.head? = isWordAt text'.head? := by
  cases hsame with
  | nil => rfl
  | cons hc _ => exact hc.isWordChar

theorem takeWhile_blank_same {text text' : List Char} (hsame : SameLetters text text') :
    text.takeWhile Text.isBlank = text'.takeWhile Text.isBlank := by
  induction hsame with
  | nil => rfl
  | @cons c d rest rest' hc _ ih =>
      cases hblank : Text.isBlank c with
      | true =>
          have hchar := hc.eq_of_blank hblank
          subst hchar
          rw [List.takeWhile_cons, List.takeWhile_cons, ih]
      | false =>
          have hblank' : Text.isBlank d = false := hc.isBlank.symm.trans hblank
          rw [List.takeWhile_cons, List.takeWhile_cons, hblank, hblank']
          rfl

theorem matchesHere_same {pieces : List Piece}
    (hblind : (ignoreCase || pieces.all isLetterless) = true) {before before' : Option Char}
    (hbefore : isWordAt before = isWordAt before') {text text' : List Char}
    (hsame : SameLetters text text') :
    matchesHere ignoreCase pieces before text = matchesHere ignoreCase pieces before' text' := by
  induction pieces generalizing before before' text text' with
  | nil => rfl
  | cons piece pieces ih =>
      have hpieces : (ignoreCase || isLetterless piece) = true ∧
          (ignoreCase || pieces.all isLetterless) = true := by
        cases ignoreCase with
        | true => exact ⟨rfl, rfl⟩
        | false => simpa using hblind
      cases piece with
      | char c =>
          cases hsame with
          | nil => rfl
          | @cons d d' rest rest' hd hrest =>
              have hword : isWordAt (some d) = isWordAt (some d') := hd.isWordChar
              rw [matchesHere, matchesHere, sameChar_same hpieces.1 hd, ih hpieces.2 hword hrest]
      | blanks =>
          rw [matchesHere, matchesHere, takeWhile_blank_same hsame]
          apply ih hpieces.2 _ (hsame.dropWhile SameLetter.isBlank)
          cases (text'.takeWhile Text.isBlank).getLast? with
          | none => exact hbefore
          | some c => rfl
      | wordBoundary =>
          rw [matchesHere, matchesHere, hbefore, isWordAt_head_same hsame,
            ih hpieces.2 hbefore hsame]

end Blind

theorem occursAfter_same {p : DeniedPattern} (hblind : p.isCaseBlind = true)
    {text text' : List Char} (hsame : SameLetters text text') {before before' : Option Char}
    (hbefore : isWordAt before = isWordAt before') :
    p.occursAfter before text = p.occursAfter before' text' := by
  induction hsame generalizing before before' with
  | nil => rw [occursAfter, occursAfter, matchesHere_same hblind hbefore .nil]
  | @cons c d rest rest' hc hrest ih =>
      have hword : isWordAt (some c) = isWordAt (some d) := hc.isWordChar
      rw [occursAfter, occursAfter, matchesHere_same hblind hbefore (.cons hc hrest), ih hword]

/-- The standard patterns take the word of a call in any case; the only ones that do not are
single signs. -/
theorem standard_isCaseBlind {p : DeniedPattern} (hp : p ∈ standard) : p.isCaseBlind = true := by
  have hall : standard.all isCaseBlind = true := by decide +kernel
  exact List.all_eq_true.mp hall p hp

end DeniedPattern

/-! ## Words before parentheses -/

theorem looseInvocations_skip {c : Char} (hc : isNameStart c = false) (rest : List Char) :
    looseInvocations (c :: rest) = looseInvocations rest := by
  rw [looseInvocations.eq_def]
  dsimp only
  rw [if_neg (by simp [hc])]

theorem looseInvocations_word {c : Char} (hc : isNameStart c = true) (rest : List Char) :
    looseInvocations (c :: rest) =
      if (Text.trimLeft (rest.dropWhile Text.isWordChar)).head? = some '(' then
        String.ofList (c :: rest.takeWhile Text.isWordChar) ::
          looseInvocations (rest.dropWhile Text.isWordChar)
      else looseInvocations (rest.dropWhile Text.isWordChar) := by
  rw [looseInvocations.eq_def]
  dsimp only
  rw [if_pos hc]
  split
  · rename_i heq
    rw [heq, if_pos List.head?_cons]
  · rename_i hother
    rw [if_neg]
    intro hhead
    cases hafter : Text.trimLeft (rest.dropWhile Text.isWordChar) with
    | nil =>
        rw [hafter] at hhead
        cases hhead
    | cons d tail =>
        rw [hafter] at hhead
        cases hhead
        exact hother tail hafter

theorem head_plain_same {text text' : List Char} {c : Char} (hc : c.isAlpha = false)
    (hsame : SameLetters text text') : text.head? = some c ↔ text'.head? = some c := by
  cases hsame with
  | nil => exact Iff.rfl
  | cons hd _ =>
      rw [List.head?_cons, List.head?_cons, Option.some.injEq, Option.some.injEq]
      constructor
      · intro heq
        rw [heq] at hd
        exact hd.eq_of_plain hc
      · intro heq
        rw [heq] at hd
        exact hd.symm.eq_of_plain hc

theorem looseInvocations_same {text text' : List Char} (hsame : SameLetters text text') :
    lowered (looseInvocations text) = lowered (looseInvocations text') := by
  induction hlength : text.length using Nat.strongRecOn generalizing text text' with
  | ind n ih =>
      cases hsame with
      | nil => rfl
      | @cons c d rest rest' hc hrest =>
          rw [List.length_cons] at hlength
          cases hstart : isNameStart c with
          | false =>
              have hstart' : isNameStart d = false := hc.isNameStart.symm.trans hstart
              rw [looseInvocations_skip hstart, looseInvocations_skip hstart']
              exact ih rest.length (by omega) hrest rfl
          | true =>
              have hstart' : isNameStart d = true := hc.isNameStart.symm.trans hstart
              have hafter := SameLetters.dropWhile SameLetter.isWordChar hrest
              have hword : SameLetters (c :: rest.takeWhile Text.isWordChar)
                  (d :: rest'.takeWhile Text.isWordChar) :=
                .cons hc (SameLetters.takeWhile SameLetter.isWordChar hrest)
              have hlower : Text.lowerString (String.ofList (c :: rest.takeWhile Text.isWordChar)) =
                  Text.lowerString (String.ofList (d :: rest'.takeWhile Text.isWordChar)) := by
                apply lowerString_congr
                rw [String.toList_ofList, String.toList_ofList, hword.lower]
              have hparenthesis := head_plain_same (c := '(') rfl hafter.trimLeft
              have hshorter := (List.dropWhile_suffix (l := rest) Text.isWordChar).length_le
              have hothers := ih _ (by omega) hafter rfl
              rw [looseInvocations_word hstart, looseInvocations_word hstart']
              by_cases hopens :
                  (Text.trimLeft (rest.dropWhile Text.isWordChar)).head? = some '('
              · rw [if_pos hopens, if_pos (hparenthesis.mp hopens), lowered_cons, lowered_cons,
                  hlower, hothers]
              · rw [if_neg hopens, if_neg (fun hopens' => hopens (hparenthesis.mpr hopens')),
                  hothers]

/-! ## Verdicts -/

namespace Verdict

def rejectedVerb? : Verdict -> Option String
  | .rejected (.disallowedVerb verb) => some verb
  | _ => none

def rejectedPattern? : Verdict -> Option String
  | .rejected (.disallowedPattern pattern) => some pattern
  | _ => none

/-- The same verdict, up to the spelling of verbs in a chain and what is told of a text that is
malformed. -/
inductive Alike : Verdict -> Verdict -> Prop where
  | accepted {chain chain' : Chain} (hrecased : List.Forall₂ Call.Recased chain chain') :
      Alike (.accepted chain) (.accepted chain')
  | verb (verb : String) :
      Alike (.rejected (.disallowedVerb verb)) (.rejected (.disallowedVerb verb))
  | pattern (pattern : String) :
      Alike (.rejected (.disallowedPattern pattern)) (.rejected (.disallowedPattern pattern))
  | malformed (detail detail' : String) :
      Alike (.rejected (.malformed detail)) (.rejected (.malformed detail'))

end Verdict

/-- Two expressions that differ only in the case of ASCII letters, and only in names if the first
one is split into tokens. -/
structure Recases (expression expression' : String) : Prop where
  letters : SameLetters expression.toList expression'.toList
  names : forall tokens, tokenize expression = .ok tokens ->
    DifferInNames 0 tokens expression.toList expression'.toList

theorem Recases.tokens {expression expression' : String}
    (hrecases : Recases expression expression') :
    (exists fault, tokenize expression = .error fault ∧ tokenize expression' = .error fault) ∨
      exists tokens tokens', tokenize expression = .ok tokens ∧ tokenize expression' = .ok tokens' ∧
        Recasing tokens tokens' := by
  have halike : SplitsAlike 0 expression.toList expression'.toList (tokenize expression)
      (tokenize expression') := scan_same hrecases.letters
  generalize hsplit : tokenize expression = split at halike
  generalize tokenize expression' = split' at halike
  cases halike with
  | fault fault => exact Or.inl ⟨fault, rfl, rfl⟩
  | tokens htokens =>
      exact Or.inr ⟨_, _, rfl, rfl, htokens.recased (hrecases.names _ hsplit)⟩

namespace Validator

theorem disallowedVerb?_eq (names : List String) :
    disallowedVerb? names = (lowered names).find? fun name => !allowedNames.contains name := by
  unfold disallowedVerb? lowered
  rw [List.find?_map]
  rfl

theorem disallowedVerb?_recased {expression expression' : String}
    (hrecases : Recases expression expression') :
    disallowedVerb? (namesOf expression (tokenize expression)) =
      disallowedVerb? (namesOf expression' (tokenize expression')) := by
  rw [disallowedVerb?_eq, disallowedVerb?_eq]
  rcases hrecases.tokens with ⟨fault, hsplit, hsplit'⟩ | ⟨tokens, tokens', hsplit, hsplit', hsame⟩
  · rw [hsplit, hsplit', namesOf, namesOf, looseInvocations_same hrecases.letters]
  · rw [hsplit, hsplit', namesOf, namesOf, invokedNames_recased hsame]

theorem deniedPattern?_same {expression expression' : String}
    (hsame : SameLetters expression.toList expression'.toList) :
    standard.deniedPattern? expression = standard.deniedPattern? expression' := by
  have hdenials : standard.denials = DeniedPattern.standard.map DeniedPattern.denial :=
    List.append_nil _
  have hoccurs : forall patterns : List DeniedPattern, patterns ⊆ DeniedPattern.standard ->
      (patterns.find? fun p => p.occursIn expression) =
        patterns.find? fun p => p.occursIn expression' := by
    intro patterns hpatterns
    induction patterns with
    | nil => rfl
    | cons p patterns ih =>
        rcases List.cons_subset.mp hpatterns with ⟨hp, hothers⟩
        have hblind := DeniedPattern.standard_isCaseBlind hp
        have hsamePattern : p.occursIn expression = p.occursIn expression' :=
          DeniedPattern.occursAfter_same hblind hsame rfl
        rw [List.find?_cons, List.find?_cons, hsamePattern, ih hothers]
  unfold deniedPattern?
  rw [hdenials, List.find?_map, List.find?_map]
  exact congrArg (fun found => (Option.map DeniedPattern.denial found).map Denial.source)
    (hoccurs _ (List.Subset.refl _))

theorem verdict_recased {expression expression' : String}
    (hrecases : Recases expression expression') :
    (standard.verdict expression).Alike (standard.verdict expression') := by
  unfold verdict
  dsimp only
  rw [← disallowedVerb?_recased hrecases, ← deniedPattern?_same hrecases.letters]
  split
  · exact .verb _
  · split
    · exact .pattern _
    · rcases hrecases.tokens with
        ⟨fault, hsplit, hsplit'⟩ | ⟨tokens, tokens', hsplit, hsplit', hsame⟩
      · rw [hsplit, hsplit']
        exact .malformed _ _
      · rw [hsplit, hsplit']
        dsimp only
        cases hread : Chain.ofTokens tokens with
        | ok chain =>
            rcases Chain.ofTokens_recased hread hsame with ⟨chain', hread', hrecased⟩
            rw [hread']
            exact .accepted hrecased
        | error fault =>
            cases hread' : Chain.ofTokens tokens' with
            | ok chain' =>
                rcases Chain.ofTokens_recased hread' hsame.symm with ⟨chain, hok, _⟩
                rw [hread] at hok
                cases hok
            | error fault' => exact .malformed _ _

/-- The letter case of names never matters.  Expressions that differ in nothing else get the same
verdict, with the same verb or pattern for which they are rejected.  If they are accepted and
have no verb but those of the language, their evaluations are the same over every source and
clock: they ask the same questions and end with the same value or the same failure. -/
theorem verdict_ignores_case {expression expression' : String}
    (hrecases : Recases expression expression') :
    (standard.verdict expression).isAccepted = (standard.verdict expression').isAccepted ∧
    (standard.verdict expression).rejectedVerb? = (standard.verdict expression').rejectedVerb? ∧
    (standard.verdict expression).rejectedPattern? =
      (standard.verdict expression').rejectedPattern? ∧
    forall chain chain', standard.verdict expression = .accepted chain ->
      standard.verdict expression' = .accepted chain' ->
      (forall call, call ∈ chain -> (canonicalVerb? call.verb).isSome = true) ->
      forall {σ : Type} (source : EntitySource σ) (clock : Action σ Number),
        chain.evaluate source clock = chain'.evaluate source clock ∧
        chain.evaluate source.observed (observedClock clock) =
          chain'.evaluate source.observed (observedClock clock) := by
  have halike := verdict_recased hrecases
  generalize standard.verdict expression = verdict at halike ⊢
  generalize standard.verdict expression' = verdict' at halike ⊢
  cases halike with
  | accepted hrecased =>
      refine ⟨rfl, rfl, rfl, ?_⟩
      intro chain chain' hchain hchain' hknown σ source clock
      cases hchain
      cases hchain'
      exact ⟨evaluate_recased hrecased hknown, evaluate_recased hrecased hknown⟩
  | verb verb => exact ⟨rfl, rfl, rfl, nofun⟩
  | pattern pattern => exact ⟨rfl, rfl, rfl, nofun⟩
  | malformed detail detail' => exact ⟨rfl, rfl, rfl, nofun⟩

theorem verdict_ignores_case_helper :
    exists chain chain', standard.verdict "Find('D',NOW())" = .accepted chain ∧
      standard.verdict "fIND('D',now())" = .accepted chain' ∧
      forall {σ : Type} (source : EntitySource σ) (clock : Action σ Number),
        chain.evaluate source clock = chain'.evaluate source clock := by
  have hsplit : (tokenize "Find('D',NOW())").toOption = some
      [⟨.name "Find", 0⟩, ⟨.mark .opening, 4⟩, ⟨.string "D", 5⟩, ⟨.mark .comma, 8⟩,
        ⟨.name "NOW", 9⟩, ⟨.mark .opening, 12⟩, ⟨.mark .closing, 13⟩, ⟨.mark .closing, 14⟩] := by
    decide +kernel
  have hrecases : Recases "Find('D',NOW())" "fIND('D',now())" := by
    constructor
    · exact SameLetters.iff_toLower.mpr (by decide +kernel)
    · intro tokens htokens
      rw [tokenize_eq_ok_iff.mp htokens] at hsplit
      cases hsplit
      apply DifferInNames.of_check (by decide +kernel)
      decide +kernel
  have halike := verdict_ignores_case hrecases
  have haccepted :
      (standard.verdict "Find('D',NOW())").chain?.any (fun chain =>
        chain.all fun call => (canonicalVerb? call.verb).isSome) = true := by
    decide +kernel
  cases hverdict : standard.verdict "Find('D',NOW())" with
  | rejected rejection =>
      rw [hverdict] at haccepted
      cases haccepted
  | accepted chain =>
      rw [hverdict] at halike haccepted
      cases hother : standard.verdict "fIND('D',now())" with
      | rejected rejection =>
          rw [hother] at halike
          cases halike.1
      | accepted chain' =>
          rw [hother] at halike
          refine ⟨chain, chain', rfl, rfl, ?_⟩
          intro σ source clock
          have hknown := List.all_eq_true.mp haccepted
          exact (halike.2.2.2 chain chain' rfl rfl hknown source clock).1

end Validator

end Query

end OperatorConsole
