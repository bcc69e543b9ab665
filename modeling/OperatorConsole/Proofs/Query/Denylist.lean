import OperatorConsole.Proofs.Query.Spelling
import OperatorConsole.Proofs.Query.Vocabulary

/-!
# The denylist and chains

The denied patterns look at the whole text of an expression, literals and all.  Each of them
begins with a word that no chain is written with, or with a character that no token but a literal
has.  In an expression that reads as a chain of allowed calls, a match can therefore only begin
inside a string literal; and as no pattern takes a quote, it ends there as well.
-/

namespace OperatorConsole

namespace Query

open DeniedPattern

/-! ## Beginnings outside of literals -/

theorem isForeign_numeral {c : Char} (hc : IsNumeralChar c) : isForeign c = false := by
  rcases hc with hdigit | hsign
  · unfold isForeign
    rw [Text.isWordChar_digit hdigit, Bool.true_or, Bool.true_or, Bool.true_or]
    rfl
  · have hsigns : (['.', 'e', 'E', '-', '+'].all fun c => !isForeign c) = true := by decide +kernel
    simpa using List.all_eq_true.mp hsigns c hsign

theorem isForeign_word {c : Char} (hc : Text.isWordChar c = true) : isForeign c = false := by
  unfold isForeign
  rw [hc, Bool.true_or, Bool.true_or, Bool.true_or]
  rfl

theorem isForeign_blank {c : Char} (hc : Text.isBlank c = true) : isForeign c = false := by
  unfold isForeign
  rw [hc, Bool.or_true, Bool.true_or, Bool.true_or]
  rfl

theorem Telling.head {word : List Char} (htelling : Telling word) :
    exists c rest, word = c :: rest ∧ (isForeign c = true ∨ isNameStart c = true) := by
  cases htelling with
  | foreign hforeign => exact ⟨_, _, rfl, Or.inl hforeign⟩
  | strange hstarts _ => exact ⟨_, _, rfl, Or.inr (hstarts _ List.mem_cons_self)⟩

def markChars : List Char :=
  "()[],;->".toList

theorem mark_not_telling {c : Char} {rest word more : List Char} (hc : c ∈ markChars)
    (hbegins : c :: rest = word ++ more) : ¬ Telling word := by
  intro htelling
  have hmarks : (markChars.all fun d => !(isForeign d || isNameStart d)) = true := by
    decide +kernel
  have hnone := List.all_eq_true.mp hmarks c hc
  rcases htelling.head with ⟨first, others, rfl, hhead⟩
  rw [← (List.cons.inj hbegins).1] at hhead
  rw [Bool.or_eq_true_iff.mpr hhead] at hnone
  cases hnone

theorem numeral_not_telling {text left back rest word more : List Char} {c : Char}
    (hnumeral : IsNumeral text) (htext : text = left ++ c :: back)
    (hbegins : c :: (back ++ rest) = word ++ more) : ¬ Telling word := by
  intro htelling
  cases htelling with
  | foreign hforeign =>
      have hc : c ∈ text := by
        rw [htext]
        simp
      rw [← (List.cons.inj hbegins).1, isForeign_numeral (hnumeral.chars c hc)] at hforeign
      cases hforeign
  | strange hstarts _ =>
      rcases List.forall_mem_cons.mp hstarts with ⟨hfirst, hothers⟩
      rcases List.cons.inj hbegins with ⟨hhead, htail⟩
      rw [← hhead] at hfirst
      -- Another letter would have to follow, in the number literal.
      rcases hnumeral.letter htext hfirst with ⟨d, others, rfl, hd⟩
      rw [(List.cons.inj htail).1, hothers _ List.mem_cons_self] at hd
      cases hd

theorem prefix_of_letters {first second word more : List Char}
    (hword : forall c, c ∈ word -> Text.isWordChar c = true)
    (hends : forall c, second.head? = some c -> Text.isWordChar c = false)
    (htext : first ++ second = word ++ more) : exists others, first = word ++ others := by
  rcases List.append_eq_append_iff.mp htext with ⟨middle, rfl, hsplit⟩ | ⟨middle, hfirst, _⟩
  · cases middle with
    | nil => exact ⟨[], by simp⟩
    | cons c middle =>
        have hc := hends c (by rw [hsplit]; rfl)
        rw [hword c (by simp)] at hc
        cases hc
  · exact ⟨middle, hfirst⟩

theorem name_not_telling {name left back rest word more : List Char} {c : Char}
    (hname : forall d, d ∈ name -> Text.isWordChar d = true)
    (hknown : Text.lowerString (String.ofList name) ∈ vocabulary)
    (hends : forall d, rest.head? = some d -> Text.isWordChar d = false)
    (htext : name = left ++ c :: back) (hbegins : c :: (back ++ rest) = word ++ more) :
    ¬ Telling word := by
  intro htelling
  cases htelling with
  | foreign hforeign =>
      have hc : c ∈ name := by
        rw [htext]
        simp
      rw [← (List.cons.inj hbegins).1, isForeign_word (hname c hc)] at hforeign
      cases hforeign
  | @strange a b tail hstarts hstrange =>
      have hword := fun e he => isWordChar_nameStart (hstarts e he)
      have hletters : (c :: back) ++ rest = (a :: b :: tail) ++ more := hbegins
      rcases prefix_of_letters hword hends hletters with ⟨others, hinside⟩
      refine hstrange _ hknown ⟨Text.lower left, Text.lower others, ?_⟩
      unfold Text.lowerString Text.lower
      rw [String.toList_ofList, String.toList_ofList, htext, hinside, ← List.map_append,
        ← List.map_append, List.append_assoc]

/-! ## Literals -/

/-- A string literal among the tokens of a text, from a position on: what stands before it, its
quote, the raw text between the quotes and what stands behind it. -/
structure IsLiteral (position : Nat) (text : List Char) (tokens : List Token) (front : List Char)
    (quote : Char) (raw back : List Char) : Prop where
  text : text = front ++ quote :: (raw ++ quote :: back)
  quoted : isQuote quote = true
  token : exists value, Denotes quote raw value ∧
    ⟨.string (String.ofList value), position + Text.width front⟩ ∈ tokens

def LiesInLiteral (position : Nat) (text : List Char) (tokens : List Token)
    (left taken right : List Char) : Prop :=
  exists front quote raw back inner outer, IsLiteral position text tokens front quote raw back ∧
    left = front ++ quote :: inner ∧ raw = inner ++ (taken ++ outer) ∧ right = outer ++ quote :: back

theorem LiesInLiteral.behind {position : Nat} {before text : List Char} {tokens others : List Token}
    {left taken right : List Char} (htokens : tokens ⊆ others)
    (hlies : LiesInLiteral (position + Text.width before) text tokens left taken right) :
    LiesInLiteral position (before ++ text) others (before ++ left) taken right := by
  rcases hlies with ⟨front, quote, raw, back, inner, outer, hliteral, hleft, hraw, hright⟩
  rcases hliteral.token with ⟨value, hdenotes, htoken⟩
  refine ⟨before ++ front, quote, raw, back, inner, outer, ⟨?_, hliteral.quoted, ?_⟩, ?_, hraw, hright⟩
  · rw [hliteral.text, List.append_assoc]
  · refine ⟨value, hdenotes, ?_⟩
    rw [Text.width_append, ← Nat.add_assoc]
    exact htokens htoken
  · rw [hleft, List.append_assoc]

theorem ends_at_quote {text rest taken right : List Char} {quote : Char} (hquote : quote ∉ taken)
    (hsplit : text ++ quote :: rest = taken ++ right) :
    exists outer, text = taken ++ outer ∧ right = outer ++ quote :: rest := by
  rcases List.append_eq_append_iff.mp hsplit with ⟨middle, htaken, hrest⟩ | ⟨outer, htext, hright⟩
  · cases middle with
    | nil => exact ⟨[], by simpa using htaken.symm, hrest.symm⟩
    | cons c middle =>
        rw [htaken, (List.cons.inj hrest).1] at hquote
        simp at hquote
  · exact ⟨outer, htext, hright⟩

theorem string_stretch {raw rest left taken right : List Char} {quote : Char}
    (hquote : quote ∉ taken) (hsome : taken ≠ [])
    (hinside : left.length < raw.length + 2)
    (hsplit : quote :: (raw ++ quote :: rest) = left ++ (taken ++ right)) :
    exists inner outer, left = quote :: inner ∧ raw = inner ++ (taken ++ outer) ∧
      right = outer ++ quote :: rest := by
  cases left with
  | nil =>
      cases taken with
      | nil => exact absurd rfl hsome
      | cons c taken =>
          rw [(List.cons.inj hsplit).1] at hquote
          simp at hquote
  | cons c inner =>
      rcases List.cons.inj hsplit with ⟨rfl, htail⟩
      rcases List.append_eq_append_iff.mp htail with ⟨middle, hinner, hrest⟩ | ⟨middle, hraw, hrest⟩
      · -- The stretch would begin at the closing quote.
        have hnone : middle = [] := by
          rw [hinner, List.length_cons, List.length_append] at hinside
          exact List.eq_nil_of_length_eq_zero (by omega)
        rw [hnone, List.nil_append] at hrest
        cases taken with
        | nil => exact absurd rfl hsome
        | cons c taken =>
            rw [(List.cons.inj hrest).1] at hquote
            simp at hquote
      · rcases ends_at_quote hquote hrest.symm with ⟨outer, rfl, hright⟩
        exact ⟨inner, outer, rfl, hraw, hright⟩

/-- A telling word that begins within the spelling of a token begins between the quotes of a
literal; a stretch that begins with it and takes no quote ends there. -/
theorem spelling_telling {position : Nat} {lexeme : Lexeme} {text rest : List Char}
    {tokens : List Token} (hspells : Spells lexeme text) (hends : lexeme.EndsBefore rest)
    (hknown : Token.IsKnown ⟨lexeme, position⟩) {left back right word more : List Char} {c : Char}
    (htext : text = left ++ c :: back)
    (hsplit : c :: (back ++ rest) = (word ++ more) ++ right) (htelling : Telling word)
    (hquotes : forall d, d ∈ word ++ more -> isQuote d = false) :
    LiesInLiteral position (text ++ rest) (⟨lexeme, position⟩ :: tokens) left (word ++ more) right := by
  have hbegins : c :: (back ++ rest) = word ++ (more ++ right) := by
    rw [hsplit, List.append_assoc]
  have hmem : c ∈ text := by
    rw [htext]
    simp
  cases hspells with
  | @name d rest' hstart hrest =>
      have hletters : forall e, e ∈ d :: rest' -> Text.isWordChar e = true :=
        List.forall_mem_cons.mpr ⟨isWordChar_nameStart hstart, hrest⟩
      refine absurd htelling ?_
      exact name_not_telling hletters (hknown _ rfl) (fun e => hends _ e rfl) htext hbegins
  | number hnumeral => exact absurd htelling (numeral_not_telling hnumeral htext hbegins)
  | arrow =>
      have harrow : ['-', '>'] ⊆ markChars := by decide
      exact absurd htelling (mark_not_telling (harrow hmem) hbegins)
  | mark m =>
      have hmark : m.char ∈ markChars := by
        cases m with
        | _ => decide
      rw [← List.mem_singleton.mp hmem] at hmark
      exact absurd htelling (mark_not_telling hmark hbegins)
  | @string quote raw value hquote hdenotes =>
      have hnotQuote : quote ∉ word ++ more := by
        intro hin
        rw [hquotes quote hin] at hquote
        cases hquote
      have hsome : word ++ more ≠ [] := by
        rcases htelling.head with ⟨first, others, rfl, _⟩
        exact List.cons_ne_nil _ _
      have hwhole : quote :: (raw ++ quote :: rest) = left ++ ((word ++ more) ++ right) := by
        calc quote :: (raw ++ quote :: rest) = (quote :: (raw ++ [quote])) ++ rest := by simp
          _ = left ++ c :: (back ++ rest) := by rw [htext, List.append_assoc, List.cons_append]
          _ = left ++ ((word ++ more) ++ right) := by rw [hsplit]
      have hinside : left.length < raw.length + 2 := by
        have hlength := congrArg List.length htext
        simp only [List.length_cons, List.length_append, List.length_nil] at hlength
        omega
      rcases string_stretch hnotQuote hsome hinside hwhole with ⟨inner, outer, hleft, hraw, hright⟩
      refine ⟨[], quote, raw, rest, inner, outer, ⟨?_, hquote, value, hdenotes, ?_⟩, hleft, hraw,
        hright⟩
      · simp
      · exact List.mem_cons_self

theorem Written.lies_in_literal {position : Nat} {text : List Char} {tokens : List Token}
    (hwritten : Written position text tokens)
    (hknown : forall token, token ∈ tokens -> token.IsKnown) {left right word more : List Char}
    (htext : text = left ++ ((word ++ more) ++ right)) (htelling : Telling word)
    (hquotes : forall d, d ∈ word ++ more -> isQuote d = false) :
    LiesInLiteral position text tokens left (word ++ more) right := by
  -- The stretch begins at what the text begins with, or behind it.
  induction hwritten generalizing left with
  | done =>
      rcases htelling.head with ⟨c, rest, rfl, _⟩
      cases left with
      | nil => cases htext
      | cons d left => cases htext
  | @blank position c rest tokens hblank _ ih =>
      cases left with
      | nil =>
          rcases htelling.head with ⟨d, others, rfl, hhead⟩
          rcases List.cons.inj htext with ⟨rfl, _⟩
          rcases hhead with hforeign | hstart
          · rw [isForeign_blank hblank] at hforeign
            cases hforeign
          · rw [isBlank_nameStart hstart] at hblank
            cases hblank
      | cons d left =>
          rcases List.cons.inj htext with ⟨rfl, hrest⟩
          have hlies : LiesInLiteral (position + Text.width [c]) rest tokens left _ right :=
            ih hknown hrest
          exact hlies.behind fun _ htoken => htoken
  | @token position lexeme spelling rest tokens hspells hends _ ih =>
      rcases List.forall_mem_cons.mp hknown with ⟨hthis, hothers⟩
      rcases List.append_eq_append_iff.mp htext with ⟨behind, rfl, hrest⟩ | ⟨back, hspelling, hsplit⟩
      · exact (ih hothers hrest).behind (List.subset_cons_self _ _)
      · cases back with
        | nil =>
            rw [List.append_nil] at hspelling
            subst hspelling
            have hlies : LiesInLiteral (position + Text.width spelling) rest tokens [] _ right :=
              ih hothers hsplit.symm
            have hwhole := hlies.behind (List.subset_cons_self ⟨lexeme, position⟩ tokens)
            rwa [List.append_nil] at hwhole
        | cons c back =>
            exact spelling_telling hspells hends hthis hspelling hsplit.symm htelling hquotes

/-! ## Admission -/

section Admission

variable {expression : String} {tokens : List Token} {p : DeniedPattern}

theorem match_in_literal (htokens : tokenize expression = .ok tokens)
    (hknown : forall token, token ∈ tokens -> token.IsKnown) (hp : p ∈ DeniedPattern.standard)
    {left taken right : List Char} (htext : expression.toList = left ++ (taken ++ right))
    (hmatches : p.Matches left taken right) :
    LiesInLiteral 0 expression.toList tokens left taken right := by
  rcases standard_telling hp with ⟨hplain, _, htelling⟩
  have hquotes := Fits.takes_no_quote hmatches hplain
  rcases Fits.takes_lead hmatches hplain with ⟨word, more, rfl, hascii, hlead⟩
  rw [← hlead] at htelling
  exact (tokenize_written htokens).lies_in_literal hknown htext
    (telling_of_isTelling hascii htelling) hquotes

theorem isWordAt_behind_quote {front inner : List Char} {quote : Char}
    (hquote : isQuote quote = true) :
    isWordAt (front ++ quote :: inner).getLast? = isWordAt inner.getLast? := by
  rw [List.getLast?_append, List.getLast?_cons]
  cases inner.getLast? with
  | none => exact isWordChar_quote hquote
  | some c => rfl

theorem isWordAt_before_quote {outer back : List Char} {quote : Char}
    (hquote : isQuote quote = true) :
    isWordAt (outer ++ quote :: back).head? = isWordAt outer.head? := by
  cases outer with
  | nil => exact isWordChar_quote hquote
  | cons c outer => rfl

/-- A pattern occurs between the quotes of a literal if it matches a part of it, as the quotes
are no part of a word. -/
theorem occursIn_literal_iff (hp : p ∈ DeniedPattern.standard) {quote : Char}
    (hquote : isQuote quote = true) (front raw back : List Char) :
    p.occursIn (String.ofList raw) = true ↔
      exists inner taken outer, raw = inner ++ (taken ++ outer) ∧
        p.Matches (front ++ quote :: inner) taken (outer ++ quote :: back) := by
  rw [occursIn_iff (standard_telling hp).2.1, String.toList_ofList]
  constructor
  · rintro ⟨inner, taken, outer, hraw, hmatches⟩
    exact ⟨inner, taken, outer, hraw,
      hmatches.elsewhere (isWordAt_behind_quote hquote) (isWordAt_before_quote hquote)⟩
  · rintro ⟨inner, taken, outer, hraw, hmatches⟩
    exact ⟨inner, taken, outer, hraw,
      hmatches.elsewhere (isWordAt_behind_quote hquote).symm (isWordAt_before_quote hquote).symm⟩

theorem occursIn_iff_literal (htokens : tokenize expression = .ok tokens)
    (hknown : forall token, token ∈ tokens -> token.IsKnown) (hp : p ∈ DeniedPattern.standard) :
    p.occursIn expression = true ↔
      exists front quote raw back, IsLiteral 0 expression.toList tokens front quote raw back ∧
        p.occursIn (String.ofList raw) = true := by
  have hsettled := (standard_telling hp).2.1
  constructor
  · intro hoccurs
    rcases (occursIn_iff hsettled).mp hoccurs with ⟨left, taken, right, htext, hmatches⟩
    rcases match_in_literal htokens hknown hp htext hmatches with
      ⟨front, quote, raw, back, inner, outer, hliteral, rfl, hraw, rfl⟩
    exact ⟨front, quote, raw, back, hliteral,
      (occursIn_literal_iff hp hliteral.quoted front raw back).mpr ⟨inner, taken, outer, hraw, hmatches⟩⟩
  · rintro ⟨front, quote, raw, back, hliteral, hoccurs⟩
    rcases (occursIn_literal_iff hp hliteral.quoted front raw back).mp hoccurs with
      ⟨inner, taken, outer, rfl, hmatches⟩
    refine (occursIn_iff hsettled).mpr ⟨_, taken, _, ?_, hmatches⟩
    rw [hliteral.text]
    simp

namespace Validator

theorem verdict_iff {v : Validator} {chain : Chain} (htokens : tokenize expression = .ok tokens)
    (hallowed : forall name, name ∈ invokedNames tokens -> isAllowedName name = true)
    (hchain : Chain.ofTokens tokens = .ok chain) :
    v.verdict expression = .accepted chain ↔
      forall d, d ∈ v.denials -> d.occursIn expression = false := by
  have hverbs : disallowedVerb? (namesOf expression (tokenize expression)) = none := by
    rw [htokens]
    refine Option.map_eq_none_iff.mpr (List.find?_eq_none.mpr ?_)
    intro name hname
    rw [hallowed name hname]
    decide
  have hdenied : v.deniedPattern? expression = none ↔
      forall d, d ∈ v.denials -> d.occursIn expression = false := by
    unfold deniedPattern?
    rw [Option.map_eq_none_iff, List.find?_eq_none]
    simp only [Bool.not_eq_true]
  rw [← hdenied]
  unfold verdict
  dsimp only
  rw [hverbs, htokens]
  dsimp only
  rw [hchain]
  cases v.deniedPattern? expression with
  | none => exact iff_of_true rfl rfl
  | some pattern => exact iff_of_false (fun h => by cases h) (fun h => by cases h)

/-- The denylist rejects no chain of allowed calls for what stands outside of its literals.  Such
a chain is accepted exactly if no standard pattern occurs in the raw text between the quotes of
one of its literals, and every match of a pattern lies between the quotes of one. -/
theorem verdict_of_chain {chain : Chain} (htokens : tokenize expression = .ok tokens)
    (hallowed : forall name, name ∈ invokedNames tokens -> isAllowedName name = true)
    (hchain : Chain.ofTokens tokens = .ok chain) :
    (standard.verdict expression = .accepted chain ↔
      forall p, p ∈ DeniedPattern.standard -> forall front quote raw back,
        IsLiteral 0 expression.toList tokens front quote raw back ->
          p.occursIn (String.ofList raw) = false) ∧
    forall p, p ∈ DeniedPattern.standard ->
      (p.occursIn expression = true ↔ exists left taken right,
        expression.toList = left ++ (taken ++ right) ∧ p.Matches left taken right) ∧
      forall left taken right, expression.toList = left ++ (taken ++ right) ->
        p.Matches left taken right ->
          LiesInLiteral 0 expression.toList tokens left taken right := by
  have hknown := known_of_ofTokens hchain hallowed
  refine ⟨?_, ?_⟩
  · have hdenials : standard.denials = DeniedPattern.standard.map DeniedPattern.denial :=
      List.append_nil _
    rw [verdict_iff htokens hallowed hchain, hdenials, List.forall_mem_map]
    constructor
    · intro hclear p hp front quote raw back hliteral
      refine Bool.eq_false_iff.mpr fun hoccurs => ?_
      have hwhole := (occursIn_iff_literal htokens hknown hp).mpr
        ⟨front, quote, raw, back, hliteral, hoccurs⟩
      exact absurd hwhole (Bool.eq_false_iff.mp (hclear p hp))
    · intro hclear p hp
      refine Bool.eq_false_iff.mpr fun hoccurs => ?_
      rcases (occursIn_iff_literal htokens hknown hp).mp hoccurs with
        ⟨front, quote, raw, back, hliteral, hinside⟩
      rw [hclear p hp front quote raw back hliteral] at hinside
      cases hinside
  · intro p hp
    exact ⟨occursIn_iff (standard_telling hp).2.1,
      fun _ _ _ htext hmatches => match_in_literal htokens hknown hp htext hmatches⟩

theorem verdict_of_chain_quoted :
    exists tokens chain, tokenize "where('note', \x22it's (new)\x22)->get();" = .ok tokens ∧
      Chain.ofTokens tokens = .ok chain ∧
      standard.verdict "where('note', \x22it's (new)\x22)->get();" = .accepted chain ∧
      forall p, p ∈ DeniedPattern.standard -> forall front quote raw back,
        IsLiteral 0 "where('note', \x22it's (new)\x22)->get();".toList tokens front quote raw back ->
          p.occursIn (String.ofList raw) = false := by
  have haccepted :
      (standard.verdict "where('note', \x22it's (new)\x22)->get();").chain?.isSome = true := by
    decide +kernel
  rcases Option.isSome_iff_exists.mp haccepted with ⟨chain, hchain⟩
  have hverdict := Verdict.chain?_eq_some.mp hchain
  rcases verdict_accepted hverdict with ⟨tokens, htokens, hreads, hallowed⟩
  exact ⟨tokens, chain, htokens, hreads, hverdict,
    (verdict_of_chain htokens hallowed hreads).1.mp hverdict⟩

end Validator

end Admission

end Query

end OperatorConsole
