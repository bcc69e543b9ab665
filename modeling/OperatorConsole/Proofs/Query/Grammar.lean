import OperatorConsole.Failure
import OperatorConsole.Query.Chain

/-!
# Grammar of chains

The grammar of a query, over tokens:

```text
chain     := calls [';']
calls     := call ('->' call)*
call      := name '(' arguments ')'
arguments := [items]
items     := argument (',' argument)*
argument  := string | number | keyword | helper '(' ')' | '[' arguments ']'
```

Keywords and helpers are words in any letter case.  A derivation relates all the tokens of a
form to what the form stands for, so nothing is left over.

## Both directions

A reader takes a form off the front of its tokens and gives the rest.  What it takes is
derivable, and on derivable tokens it takes exactly those, whatever follows, as long as it may
go deep enough: three levels for each token are enough.
-/

namespace OperatorConsole

namespace Query

/-! ## Derivations -/

def keywords : List (String × Scalar) :=
  [("true", .bool true), ("false", .bool false), ("null", .null)]

mutual

inductive DerivesArgument : List Token -> Argument -> Prop where
  | string (s : String) (position : Nat) :
      DerivesArgument [⟨.string s, position⟩] (.scalar (.text s))
  | number (literal : String) (position : Nat) :
      DerivesArgument [⟨.number literal, position⟩] (.scalar (.number (Number.ofText literal)))
  | keyword {word : String} {v : Scalar} (position : Nat)
      (hword : (Text.lowerString word, v) ∈ keywords) :
      DerivesArgument [⟨.name word, position⟩] (.scalar v)
  | helper {word : String} {h : Helper} (first second third : Nat)
      (hword : Text.lowerString word = h.text) :
      DerivesArgument [⟨.name word, first⟩, ⟨.mark .opening, second⟩, ⟨.mark .closing, third⟩]
        (.helper h)
  | list {tokens : List Token} {items : List Argument} (first last : Nat)
      (hitems : DerivesArguments tokens items) :
      DerivesArgument (⟨.mark .openList, first⟩ :: (tokens ++ [⟨.mark .closeList, last⟩]))
        (.list items)

inductive DerivesArguments : List Token -> List Argument -> Prop where
  | none : DerivesArguments [] []
  | some {tokens : List Token} {items : List Argument} (hitems : DerivesItems tokens items) :
      DerivesArguments tokens items

inductive DerivesItems : List Token -> List Argument -> Prop where
  | last {tokens : List Token} {item : Argument} (hitem : DerivesArgument tokens item) :
      DerivesItems tokens [item]
  | more {tokens others : List Token} {item : Argument} {items : List Argument} (comma : Nat)
      (hitem : DerivesArgument tokens item) (hitems : DerivesItems others items) :
      DerivesItems (tokens ++ ⟨.mark .comma, comma⟩ :: others) (item :: items)

end

inductive DerivesCall : List Token -> Call -> Prop where
  | call {tokens : List Token} {args : List Argument} (verb : String) (position first last : Nat)
      (hargs : DerivesArguments tokens args) :
      DerivesCall
        (⟨.name verb, position⟩ :: ⟨.mark .opening, first⟩ ::
          (tokens ++ [⟨.mark .closing, last⟩]))
        ⟨verb, args, position⟩

inductive DerivesCalls : List Token -> Chain -> Prop where
  | last {tokens : List Token} {call : Call} (hcall : DerivesCall tokens call) :
      DerivesCalls tokens [call]
  | more {tokens others : List Token} {call : Call} {calls : Chain} (arrow : Nat)
      (hcall : DerivesCall tokens call) (hcalls : DerivesCalls others calls) :
      DerivesCalls (tokens ++ ⟨.arrow, arrow⟩ :: others) (call :: calls)

inductive DerivesChain : List Token -> Chain -> Prop where
  | plain {tokens : List Token} {calls : Chain} (hcalls : DerivesCalls tokens calls) :
      DerivesChain tokens calls
  | ended {tokens : List Token} {calls : Chain} (semicolon : Nat)
      (hcalls : DerivesCalls tokens calls) :
      DerivesChain (tokens ++ [⟨.mark .semicolon, semicolon⟩]) calls

/-! ## Words -/

theorem lowerString_eq_iff {word plain : String} :
    Text.lowerString word = plain ↔ Text.lower word.toList = plain.toList := by
  unfold Text.lowerString
  constructor
  · intro hword
    rw [← hword, String.toList_ofList]
  · intro hword
    rw [hword, String.ofList_toList]

theorem lowerString_text (h : Helper) : Text.lowerString h.text = h.text := by
  cases h with
  | now => decide
  | today => decide

theorem helper_lowered {word : String} {h : Helper} (hname : Helper.ofName? word = some h) :
    Text.lowerString h.text = Text.lowerString word := by
  have hfound := List.find?_some hname
  unfold Text.lowerString
  rw [eq_of_beq hfound]

theorem ofName?_eq_some_iff {word : String} {h : Helper} :
    Helper.ofName? word = some h ↔ Text.lowerString word = h.text := by
  constructor
  · intro hname
    rw [← helper_lowered hname, lowerString_text]
  · intro hword
    have hlower : Text.lower word.toList = h.text.toList := lowerString_eq_iff.mp hword
    unfold Helper.ofName? findVerb?
    rw [hlower]
    cases h with
    | now => decide
    | today => decide

namespace Chain

theorem keyword?_eq_some_iff {word : String} {v : Scalar} :
    keyword? word = some v ↔ (Text.lowerString word, v) ∈ keywords := by
  have htrue : Text.lowerString word = "true" ↔ Text.lower word.toList = "true".toList :=
    lowerString_eq_iff
  have hfalse : Text.lowerString word = "false" ↔ Text.lower word.toList = "false".toList :=
    lowerString_eq_iff
  have hnull : Text.lowerString word = "null" ↔ Text.lower word.toList = "null".toList :=
    lowerString_eq_iff
  unfold keyword? keywords
  dsimp only
  split
  · rename_i hlower
    simp [htrue.mpr hlower, eq_comm]
  · rename_i hnotTrue
    split
    · rename_i hlower
      simp [hfalse.mpr hlower, eq_comm]
    · rename_i hnotFalse
      split
      · rename_i hlower
        simp [hnull.mpr hlower, eq_comm]
      · rename_i hnotNull
        simp [mt htrue.mp hnotTrue, mt hfalse.mp hnotFalse, mt hnull.mp hnotNull]

theorem keyword?_helper {word : String} {h : Helper} (hword : Text.lowerString word = h.text) :
    keyword? word = none := by
  rw [Option.eq_none_iff_forall_ne_some]
  intro v hkeyword
  have hmem := keyword?_eq_some_iff.mp hkeyword
  rw [hword] at hmem
  cases h with
  | now => simp [keywords, Helper.text] at hmem
  | today => simp [keywords, Helper.text] at hmem

/-! ## What is read is derivable -/

theorem expectMark_cons (m : Mark) (position : Nat) (rest : List Token) :
    expectMark m (⟨.mark m, position⟩ :: rest) = .ok rest := by
  rw [expectMark, if_pos rfl]

theorem expectMark_ok {m : Mark} {tokens rest : List Token}
    (hread : expectMark m tokens = .ok rest) :
    exists token, tokens = token :: rest ∧ token.lexeme = .mark m := by
  cases tokens with
  | nil => cases hread
  | cons token rest' =>
      rw [expectMark] at hread
      split at hread
      · rename_i hlexeme
        cases hread
        exact ⟨token, rfl, hlexeme⟩
      · cases hread

theorem opensHelper?_some {word : String} {rest : List Token} {h : Helper}
    (hopens : opensHelper? word rest = some h) :
    Helper.ofName? word = some h ∧
      exists next rest', rest = next :: rest' ∧ next.lexeme = .mark .opening := by
  unfold opensHelper? at hopens
  split at hopens
  · rename_i helper next rest' hname
    split at hopens
    · rename_i hlexeme
      cases hopens
      exact ⟨hname, next, rest', rfl, hlexeme⟩
    · cases hopens
  · cases hopens

theorem token_of_lexeme {token : Token} {lexeme : Lexeme} (hlexeme : token.lexeme = lexeme) :
    token = ⟨lexeme, token.position⟩ := by
  rw [← hlexeme]

theorem readArgument_derivable {depth : Nat} {tokens rest : List Token} {item : Argument}
    (hlists : forall {tokens items rest},
      readArguments depth .closeList tokens = .ok (items, rest) ->
        exists taken last, tokens = taken ++ ⟨.mark .closeList, last⟩ :: rest ∧
          DerivesArguments taken items)
    (hread : readArgument (depth + 1) tokens = .ok (item, rest)) :
    exists taken, tokens = taken ++ rest ∧ DerivesArgument taken item := by
  cases tokens with
  | nil => cases hread
  | cons token tokens =>
      cases token with
      | mk lexeme position =>
          cases lexeme with
          | string s =>
              cases hread
              exact ⟨_, rfl, .string s position⟩
          | number literal =>
              cases hread
              exact ⟨_, rfl, .number literal position⟩
          | arrow => cases hread
          | mark m =>
              cases m with
              | openList =>
                  rw [readArgument] at hread
                  dsimp only at hread
                  split at hread
                  · rename_i items after hitems
                    cases hread
                    rcases hlists hitems with ⟨taken, last, htokens, hderives⟩
                    refine ⟨_, ?_, .list position last hderives⟩
                    rw [htokens]
                    simp
                  · cases hread
              | opening => cases hread
              | closing => cases hread
              | comma => cases hread
              | closeList => cases hread
              | semicolon => cases hread
          | name word =>
              rw [readArgument] at hread
              dsimp only at hread
              split at hread
              · rename_i v _ hkeyword
                cases hread
                exact ⟨_, rfl, .keyword position (keyword?_eq_some_iff.mp hkeyword)⟩
              · rename_i h _ hopens
                rcases opensHelper?_some hopens with ⟨hname, next, after, htokens, hopening⟩
                subst htokens
                split at hread
                · rename_i after' hclosing
                  cases hread
                  rcases expectMark_ok hclosing with ⟨closing, hafter, hmark⟩
                  change after = closing :: rest at hafter
                  have hword := ofName?_eq_some_iff.mp hname
                  refine ⟨_, ?_, .helper position next.position closing.position hword⟩
                  rw [hafter, token_of_lexeme hopening, token_of_lexeme hmark]
                  rfl
                · cases hread
              · cases hread

/-- What the three readers of arguments take is derivable, by induction on the depth. A list of
arguments is taken with the mark that closes it. -/
theorem readers_derivable (depth : Nat) :
    (forall {tokens item rest}, readArgument depth tokens = .ok (item, rest) ->
      exists taken, tokens = taken ++ rest ∧ DerivesArgument taken item) ∧
    (forall {stop tokens items rest}, readArguments depth stop tokens = .ok (items, rest) ->
      exists taken last, tokens = taken ++ ⟨.mark stop, last⟩ :: rest ∧
        DerivesArguments taken items) ∧
    (forall {stop tokens items rest}, readItems depth stop tokens = .ok (items, rest) ->
      exists taken last, tokens = taken ++ ⟨.mark stop, last⟩ :: rest ∧
        DerivesItems taken items) := by
  induction depth with
  | zero =>
      refine ⟨?_, ?_, ?_⟩
      · intro tokens item rest hread
        cases hread
      · intro stop tokens items rest hread
        cases hread
      · intro stop tokens items rest hread
        cases hread
  | succ depth ih =>
      rcases ih with ⟨ihArgument, ihArguments, ihItems⟩
      refine ⟨?_, ?_, ?_⟩
      · intro tokens item rest hread
        exact readArgument_derivable ihArguments hread
      · intro stop tokens items rest hread
        have hsome : readItems depth stop tokens = .ok (items, rest) ->
            exists taken last, tokens = taken ++ ⟨.mark stop, last⟩ :: rest ∧
              DerivesArguments taken items := by
          intro hitems
          rcases ihItems hitems with ⟨taken, last, htokens, hderives⟩
          exact ⟨taken, last, htokens, .some hderives⟩
        unfold readArguments at hread
        split at hread
        · rename_i token tokens
          split at hread
          · rename_i hstop
            cases hread
            refine ⟨[], token.position, ?_, .none⟩
            rw [token_of_lexeme hstop]
            rfl
          · exact hsome hread
        · exact hsome hread
      · intro stop tokens items rest hread
        rw [readItems] at hread
        split at hread
        · cases hread
        · rename_i item after hitem
          rcases ihArgument hitem with ⟨taken, htokens, hderives⟩
          subst htokens
          split at hread
          · rename_i token after'
            split at hread
            · rename_i hcomma
              split at hread
              · rename_i items' rest' hitems
                cases hread
                rcases ihItems hitems with ⟨others, last, hafter, hothers⟩
                refine ⟨_, last, ?_, .more token.position hderives hothers⟩
                rw [hafter, token_of_lexeme hcomma]
                simp
              · cases hread
            · split at hread
              · rename_i hstop
                cases hread
                refine ⟨taken, token.position, ?_, .last hderives⟩
                rw [token_of_lexeme hstop]
              · cases hread
          · cases hread

theorem readCall_derivable {tokens rest : List Token} {call : Call}
    (hread : readCall tokens = .ok (call, rest)) :
    exists taken, tokens = taken ++ rest ∧ DerivesCall taken call := by
  cases tokens with
  | nil => cases hread
  | cons token tokens =>
      rw [readCall] at hread
      split at hread
      · rename_i verb hverb
        split at hread
        · cases hread
        · rename_i after hopening
          rcases expectMark_ok hopening with ⟨opening, htokens, hmark⟩
          subst htokens
          split at hread
          · rename_i args rest' hargs
            cases hread
            rcases (readers_derivable _).2.1 hargs with ⟨taken, last, hafter, hderives⟩
            refine ⟨_, ?_, .call verb token.position opening.position last hderives⟩
            rw [hafter, token_of_lexeme hverb, token_of_lexeme hmark]
            simp
          · cases hread
      · cases hread

theorem readRest_derivable {bound : Nat} {call : Call} {taken tokens : List Token} {chain : Chain}
    (hcall : DerivesCall taken call) (hread : readRest bound tokens = .ok chain) :
    DerivesChain (taken ++ tokens) (call :: chain) := by
  induction bound generalizing call taken tokens chain with
  | zero =>
      cases tokens with
      | nil =>
          cases hread
          rw [List.append_nil]
          exact .plain (.last hcall)
      | cons token tokens => cases hread
  | succ bound ih =>
      cases tokens with
      | nil =>
          cases hread
          rw [List.append_nil]
          exact .plain (.last hcall)
      | cons token tokens =>
          unfold readRest at hread
          split at hread
          · rename_i harrow
            split at hread
            · cases hread
            · rename_i next after hnext
              split at hread
              · rename_i calls hcalls
                cases hread
                rcases readCall_derivable hnext with ⟨takenNext, htokens, hderives⟩
                have hchain := ih hderives hcalls
                rw [← htokens] at hchain
                rw [token_of_lexeme harrow]
                cases hchain with
                | plain hrest => exact .plain (.more token.position hcall hrest)
                | @ended others _ semicolon hrest =>
                    have hmore := DerivesCalls.more token.position hcall hrest
                    have hended := DerivesChain.ended semicolon hmore
                    rw [List.append_assoc] at hended
                    exact hended
              · cases hread
          · rename_i hsemicolon
            split at hread
            · cases hread
              rw [token_of_lexeme hsemicolon]
              exact .ended token.position (.last hcall)
            · cases hread
          · cases hread

theorem derives_of_ofTokens {tokens : List Token} {chain : Chain}
    (hread : ofTokens tokens = .ok chain) : DerivesChain tokens chain := by
  unfold ofTokens at hread
  split at hread
  · cases hread
  · split at hread
    · cases hread
    · rename_i call rest hcall
      split at hread
      · rename_i calls hcalls
        cases hread
        rcases readCall_derivable hcall with ⟨taken, htokens, hderives⟩
        rw [htokens]
        exact readRest_derivable hderives hcalls
      · cases hread

/-! ## What is derivable is read -/

theorem argument_head {tokens : List Token} {item : Argument}
    (hitem : DerivesArgument tokens item) :
    exists token rest, tokens = token :: rest ∧
      forall m, token.lexeme = .mark m -> m = .openList := by
  cases hitem with
  | string s position => exact ⟨_, _, rfl, by simp⟩
  | number literal position => exact ⟨_, _, rfl, by simp⟩
  | keyword position hword => exact ⟨_, _, rfl, by simp⟩
  | helper first second third hword => exact ⟨_, _, rfl, by simp⟩
  | list first last hitems => exact ⟨_, _, rfl, by simp⟩

theorem items_head {tokens : List Token} {items : List Argument}
    (hitems : DerivesItems tokens items) :
    exists token rest, tokens = token :: rest ∧
      forall m, token.lexeme = .mark m -> m = .openList := by
  cases hitems with
  | last hitem => exact argument_head hitem
  | more comma hitem hothers =>
      rcases argument_head hitem with ⟨token, rest, htokens, hmark⟩
      rw [htokens]
      exact ⟨token, _, rfl, hmark⟩

theorem readArguments_some {depth : Nat} {stop : Mark} {tokens : List Token}
    (hhead : exists token rest, tokens = token :: rest ∧
      forall m, token.lexeme = .mark m -> m = .openList)
    (hstop : stop ≠ .openList) :
    readArguments (depth + 1) stop tokens = readItems depth stop tokens := by
  rcases hhead with ⟨token, rest, htokens, hmark⟩
  subst htokens
  rw [readArguments, if_neg]
  intro hlexeme
  exact hstop (hmark stop hlexeme)

theorem readItems_last {depth : Nat} {stop : Mark} {tokens rest : List Token} {item : Argument}
    {last : Nat} (hstop : stop ≠ .comma)
    (hitem : readArgument depth tokens = .ok (item, ⟨.mark stop, last⟩ :: rest)) :
    readItems (depth + 1) stop tokens = .ok ([item], rest) := by
  rw [readItems, hitem]
  dsimp only
  rw [if_neg, if_pos rfl]
  intro hcomma
  cases hcomma
  exact hstop rfl

theorem readItems_more {depth : Nat} {stop : Mark} {tokens others rest : List Token}
    {item : Argument} {items : List Argument} {comma : Nat}
    (hitem : readArgument depth tokens = .ok (item, ⟨.mark .comma, comma⟩ :: others))
    (hitems : readItems depth stop others = .ok (items, rest)) :
    readItems (depth + 1) stop tokens = .ok (item :: items, rest) := by
  rw [readItems, hitem]
  dsimp only
  rw [if_pos rfl, hitems]

theorem readArgument_of_derives {depth : Nat} {tokens rest : List Token} {item : Argument}
    (hlists : forall {inner items last},
      DerivesArguments inner items -> 3 * inner.length + 2 ≤ depth ->
        readArguments depth .closeList (inner ++ ⟨.mark .closeList, last⟩ :: rest) =
          .ok (items, rest))
    (hitem : DerivesArgument tokens item) (hdepth : 3 * tokens.length ≤ depth + 1) :
    readArgument (depth + 1) (tokens ++ rest) = .ok (item, rest) := by
  cases hitem with
  | string s position => rfl
  | number literal position => rfl
  | keyword position hword =>
      rw [List.singleton_append, readArgument]
      dsimp only
      rw [keyword?_eq_some_iff.mpr hword]
  | @helper word h first second third hword =>
      have hopens : opensHelper? word
          (⟨.mark .opening, second⟩ :: ⟨.mark .closing, third⟩ :: rest) = some h := by
        unfold opensHelper?
        rw [ofName?_eq_some_iff.mpr hword]
        rfl
      rw [List.cons_append, List.cons_append, List.singleton_append, readArgument]
      dsimp only
      rw [keyword?_helper hword, hopens]
      rfl
  | @list inner items first last hitems =>
      have hinner : 3 * inner.length + 2 ≤ depth := by
        simp only [List.length_cons, List.length_append, List.length_nil] at hdepth
        omega
      rw [List.cons_append, List.append_assoc, List.singleton_append, readArgument]
      dsimp only
      rw [hlists hitems hinner]

theorem readers_of_derives (depth : Nat) :
    (forall {tokens item} rest, DerivesArgument tokens item -> 3 * tokens.length ≤ depth ->
      readArgument depth (tokens ++ rest) = .ok (item, rest)) ∧
    (forall {stop tokens items} last rest, stop ≠ .comma -> stop ≠ .openList ->
      DerivesArguments tokens items -> 3 * tokens.length + 2 ≤ depth ->
      readArguments depth stop (tokens ++ ⟨.mark stop, last⟩ :: rest) = .ok (items, rest)) ∧
    (forall {stop tokens items} last rest, stop ≠ .comma ->
      DerivesItems tokens items -> 3 * tokens.length + 1 ≤ depth ->
      readItems depth stop (tokens ++ ⟨.mark stop, last⟩ :: rest) = .ok (items, rest)) := by
  induction depth with
  | zero =>
      refine ⟨?_, ?_, ?_⟩
      · intro tokens item rest hitem hdepth
        rcases argument_head hitem with ⟨token, others, htokens, _⟩
        rw [htokens, List.length_cons] at hdepth
        omega
      · intro stop tokens items last rest _ _ _ hdepth
        omega
      · intro stop tokens items last rest _ _ hdepth
        omega
  | succ depth ih =>
      rcases ih with ⟨ihArgument, ihArguments, ihItems⟩
      refine ⟨?_, ?_, ?_⟩
      · intro tokens item rest hitem hdepth
        apply readArgument_of_derives _ hitem hdepth
        intro inner items last hitems hinner
        exact ihArguments last rest (by decide) (by decide) hitems hinner
      · intro stop tokens items last rest hcomma hopen hargs hdepth
        cases hargs with
        | none =>
            rw [List.nil_append, readArguments]
            dsimp only
            rw [if_pos rfl]
        | some hitems =>
            have hhead : exists token others,
                tokens ++ ⟨.mark stop, last⟩ :: rest = token :: others ∧
                  forall m, token.lexeme = .mark m -> m = .openList := by
              rcases items_head hitems with ⟨token, others, htokens, hmark⟩
              exact ⟨token, _, by rw [htokens]; rfl, hmark⟩
            rw [readArguments_some hhead hopen]
            exact ihItems last rest hcomma hitems (by omega)
      · intro stop tokens items last rest hcomma hitems hdepth
        cases hitems with
        | last hitem => exact readItems_last hcomma (ihArgument _ hitem (by omega))
        | @more first others item items comma hitem hothers =>
            rw [List.length_append, List.length_cons] at hdepth
            rw [List.append_assoc, List.cons_append]
            have hfirst := ihArgument (⟨.mark .comma, comma⟩ ::
              (others ++ ⟨.mark stop, last⟩ :: rest)) hitem (by omega)
            have hrest := ihItems last rest hcomma hothers (by omega)
            exact readItems_more hfirst hrest

theorem readCall_of_derives {tokens : List Token} {call : Call} (rest : List Token)
    (hcall : DerivesCall tokens call) : readCall (tokens ++ rest) = .ok (call, rest) := by
  cases hcall with
  | @call inner args verb position first last hargs =>
      have hdepth : 3 * inner.length + 2 ≤
          3 * (inner ++ ⟨.mark .closing, last⟩ :: rest).length + 3 := by
        rw [List.length_append]
        omega
      have hread := (readers_of_derives _).2.1 last rest (show Mark.closing ≠ .comma by decide)
        (by decide) hargs hdepth
      rw [List.cons_append, List.cons_append, List.append_assoc, List.singleton_append, readCall]
      dsimp only
      rw [expectMark_cons]
      dsimp only
      rw [hread]

theorem call_length {tokens : List Token} {call : Call} (hcall : DerivesCall tokens call) :
    0 < tokens.length := by
  cases hcall with
  | call verb position first last hargs => simp

inductive Ended : List Token -> Prop where
  | plain : Ended []
  | semicolon (position : Nat) : Ended [⟨.mark .semicolon, position⟩]

theorem readRest_ended {bound : Nat} {tokens : List Token} (hended : Ended tokens)
    (hbound : tokens.length ≤ bound) : readRest bound tokens = .ok [] := by
  cases hended with
  | plain =>
      cases bound with
      | zero => rfl
      | succ bound => rfl
  | semicolon position =>
      cases bound with
      | zero => cases hbound
      | succ bound => rfl

theorem readCalls_of_derives {tokens : List Token} {calls : Chain}
    (hcalls : DerivesCalls tokens calls) {ending : List Token} (hended : Ended ending) :
    exists call others rest, calls = call :: others ∧
      readCall (tokens ++ ending) = .ok (call, rest) ∧
      rest.length < (tokens ++ ending).length ∧
      forall bound, rest.length ≤ bound -> readRest bound rest = .ok others := by
  induction hcalls with
  | @last tokens call hcall =>
      refine ⟨call, [], ending, rfl, readCall_of_derives ending hcall, ?_, ?_⟩
      · have hlength := call_length hcall
        rw [List.length_append]
        omega
      · intro bound hbound
        exact readRest_ended hended hbound
  | @more tokens others call calls arrow hcall hcalls ih =>
      rcases ih with ⟨next, further, rest, hnext, hread, hlength, hrest⟩
      refine ⟨call, calls, ⟨.arrow, arrow⟩ :: (others ++ ending), rfl, ?_, ?_, ?_⟩
      · rw [List.append_assoc, List.cons_append]
        exact readCall_of_derives _ hcall
      · have hpositive := call_length hcall
        simp only [List.length_append, List.length_cons]
        omega
      · intro bound hbound
        cases bound with
        | zero => simp at hbound
        | succ bound =>
            rw [List.length_cons] at hbound
            unfold readRest
            dsimp only
            rw [hread]
            dsimp only
            rw [hrest bound (by omega), hnext]

theorem ofTokens_of_derives {tokens : List Token} {chain : Chain}
    (hchain : DerivesChain tokens chain) : ofTokens tokens = .ok chain := by
  have hread : forall {taken ending : List Token}, DerivesCalls taken chain -> Ended ending ->
      ofTokens (taken ++ ending) = .ok chain := by
    intro taken ending hcalls hended
    rcases readCalls_of_derives hcalls hended with
      ⟨call, others, rest, hchain, hcall, hlength, hrest⟩
    unfold ofTokens
    split
    · rename_i hnil
      rw [hnil] at hlength
      cases hlength
    · rw [hcall]
      dsimp only
      rw [hrest rest.length (Nat.le_refl _), hchain]
  cases hchain with
  | plain hcalls =>
      have hplain := hread hcalls .plain
      rw [List.append_nil] at hplain
      exact hplain
  | ended semicolon hcalls => exact hread hcalls (.semicolon semicolon)

theorem derives_unique {tokens : List Token} {chain chain' : Chain}
    (hchain : DerivesChain tokens chain) (hchain' : DerivesChain tokens chain') :
    chain = chain' := by
  have hread := ofTokens_of_derives hchain
  rw [ofTokens_of_derives hchain'] at hread
  exact (Except.ok.inj hread).symm

/-- Exactly the derivable tokens are read, as the chain that they derive; all others are
turned away as malformed. -/
theorem ofTokens_accepts_grammar (tokens : List Token) :
    (forall chain, ofTokens tokens = .ok chain ↔ DerivesChain tokens chain) ∧
    ((forall chain, ¬ DerivesChain tokens chain) ->
      exists fault, ofTokens tokens = .error fault ∧
        (QueryRejection.malformed fault.detail).reason = "malformed") := by
  constructor
  · intro chain
    constructor
    · exact derives_of_ofTokens
    · exact ofTokens_of_derives
  · intro hnone
    cases hread : ofTokens tokens with
    | ok chain => exact absurd (derives_of_ofTokens hread) (hnone chain)
    | error fault => exact ⟨fault, rfl, rfl⟩

end Chain

end Query

end OperatorConsole
