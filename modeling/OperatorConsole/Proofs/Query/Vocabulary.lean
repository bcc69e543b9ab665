import OperatorConsole.Proofs.Query.InvokedNames
import OperatorConsole.Proofs.Query.Matching

/-!
# Words of chains

Outside of its literals, a chain of allowed calls is written with few words: verbs, helpers and
keywords.  A word or a character that is not among them tells that a text is no part of a chain;
each of the denied patterns begins with such a one.
-/

namespace OperatorConsole

namespace Query

open DeniedPattern

/-! ## Words of a chain -/

/-- In lower case, the words that chains are written with outside of literals. -/
def vocabulary : List String :=
  allowedNames ++ keywords.map Prod.fst

def Token.IsKnown (token : Token) : Prop :=
  forall word, token.lexeme = .name word -> Text.lowerString word ∈ vocabulary

theorem isKnown_name {word : String} {position : Nat} (hword : Text.lowerString word ∈ vocabulary) :
    Token.IsKnown ⟨.name word, position⟩ := by
  intro other hother
  cases hother
  exact hword

theorem isKnown_other {lexeme : Lexeme} {position : Nat} (hlexeme : lexeme.kind ≠ "identifier") :
    Token.IsKnown ⟨lexeme, position⟩ := by
  rintro word rfl
  exact absurd rfl hlexeme

theorem isKnown_mark (m : Mark) (position : Nat) : Token.IsKnown ⟨.mark m, position⟩ :=
  isKnown_other (by decide : "punct" ≠ "identifier")

theorem helper_known (h : Helper) : h.text ∈ vocabulary := by
  refine List.mem_append_left _ ?_
  cases h with
  | now => decide +kernel
  | today => decide +kernel

mutual

theorem DerivesArgument.known {tokens : List Token} {item : Argument} :
    DerivesArgument tokens item -> forall token, token ∈ tokens -> token.IsKnown
  | .string _ _ =>
      List.forall_mem_singleton.mpr (isKnown_other (by decide : "string" ≠ "identifier"))
  | .number _ _ =>
      List.forall_mem_singleton.mpr (isKnown_other (by decide : "number" ≠ "identifier"))
  | .keyword _ hword =>
      List.forall_mem_singleton.mpr
        (isKnown_name (List.mem_append_right _ (List.mem_map_of_mem hword)))
  | .helper _ second third hword => by
      refine List.forall_mem_cons.mpr ⟨isKnown_name ?_, ?_⟩
      · rw [hword]
        exact helper_known _
      · exact List.forall_mem_cons.mpr
          ⟨isKnown_mark _ second, List.forall_mem_singleton.mpr (isKnown_mark _ third)⟩
  | .list first last hitems =>
      List.forall_mem_cons.mpr ⟨isKnown_mark _ first, List.forall_mem_append.mpr
        ⟨hitems.known, List.forall_mem_singleton.mpr (isKnown_mark _ last)⟩⟩

theorem DerivesArguments.known {tokens : List Token} {items : List Argument} :
    DerivesArguments tokens items -> forall token, token ∈ tokens -> token.IsKnown
  | .none => List.forall_mem_nil _
  | .some hitems => hitems.known

theorem DerivesItems.known {tokens : List Token} {items : List Argument} :
    DerivesItems tokens items -> forall token, token ∈ tokens -> token.IsKnown
  | .last hitem => hitem.known
  | .more comma hitem hitems =>
      List.forall_mem_append.mpr
        ⟨hitem.known, List.forall_mem_cons.mpr ⟨isKnown_mark _ comma, hitems.known⟩⟩

end

theorem DerivesCall.known {tokens : List Token} {call : Call} (hcall : DerivesCall tokens call)
    (hverb : Text.lowerString call.verb ∈ allowedNames) :
    forall token, token ∈ tokens -> token.IsKnown := by
  cases hcall with
  | call verb position first last hargs =>
      refine List.forall_mem_cons.mpr ⟨isKnown_name (List.mem_append_left _ hverb), ?_⟩
      refine List.forall_mem_cons.mpr ⟨isKnown_mark _ first, ?_⟩
      exact List.forall_mem_append.mpr
        ⟨hargs.known, List.forall_mem_singleton.mpr (isKnown_mark _ last)⟩

theorem DerivesCalls.known {tokens : List Token} {calls : Chain} (hcalls : DerivesCalls tokens calls)
    (hverbs : forall call, call ∈ calls -> Text.lowerString call.verb ∈ allowedNames) :
    forall token, token ∈ tokens -> token.IsKnown := by
  induction hcalls with
  | last hcall => exact hcall.known (hverbs _ List.mem_cons_self)
  | more arrow hcall _ ih =>
      rcases List.forall_mem_cons.mp hverbs with ⟨hverb, hothers⟩
      refine List.forall_mem_append.mpr ⟨hcall.known hverb, List.forall_mem_cons.mpr ⟨?_, ih hothers⟩⟩
      exact isKnown_other (by decide : "arrow" ≠ "identifier")

theorem known_of_ofTokens {tokens : List Token} {chain : Chain}
    (hchain : Chain.ofTokens tokens = .ok chain)
    (hallowed : forall name, name ∈ invokedNames tokens -> isAllowedName name = true) :
    forall token, token ∈ tokens -> token.IsKnown := by
  have hverbs : forall call, call ∈ chain -> Text.lowerString call.verb ∈ allowedNames := by
    intro call hcall
    have hverb := Chain.names_allowed hchain hallowed call.verb (Chain.verb_mem_names hcall)
    exact List.contains_iff_mem.mp hverb
  cases Chain.derives_of_ofTokens hchain with
  | plain hcalls => exact hcalls.known hverbs
  | ended semicolon hcalls =>
      exact List.forall_mem_append.mpr
        ⟨hcalls.known hverbs, List.forall_mem_singleton.mpr (isKnown_mark _ semicolon)⟩

/-! ## Telling words -/

/-- Whether a character stands in no token but a literal, nor between tokens. -/
def isForeign (c : Char) : Bool :=
  !(Text.isWordChar c || Text.isBlank c || isQuote c || "()[],;->.+".toList.contains c)

/-- Beginnings of text that is not written outside of literals. -/
inductive Telling : List Char -> Prop where
  | foreign {c : Char} {rest : List Char} (hforeign : isForeign c = true) : Telling (c :: rest)
  | strange {c d : Char} {rest : List Char}
      (hstarts : forall e, e ∈ c :: d :: rest -> isNameStart e = true)
      (hstrange : forall known, known ∈ vocabulary ->
        ¬ Text.lower (c :: d :: rest) <:+: known.toList) :
      Telling (c :: d :: rest)

def standsIn (word : List Nat) : List Nat -> Bool
  | [] => word.isEmpty
  | n :: text => word.isPrefixOf (n :: text) || standsIn word text

theorem standsIn_of_within {word text : List Nat} (hwithin : word <:+: text) :
    standsIn word text = true := by
  rcases hwithin with ⟨before, after, rfl⟩
  rw [List.append_assoc]
  induction before with
  | nil =>
      rw [List.nil_append]
      cases htext : word ++ after with
      | nil =>
          rw [(List.append_eq_nil_iff.mp htext).1]
          rfl
      | cons n text =>
          rw [standsIn, ← htext, List.isPrefixOf_iff_prefix.mpr (List.prefix_append word after),
            Bool.true_or]
  | cons n before ih => rw [List.cons_append, standsIn, ih, Bool.or_true]

/-- The test of a word in lower case, which looks for it in the vocabulary by the codes of its
characters. -/
def isTelling : List Char -> Bool
  | [] => false
  | [c] => isForeign c
  | word => word.all isNameStart && vocabulary.all fun known =>
      !standsIn (word.map Char.toNat) (known.toList.map Char.toNat)

theorem isForeign_lowerChar {c : Char} (hc : c.toNat < 128) :
    isForeign (Text.lowerChar c) = isForeign c :=
  Text.forall_ascii (p := fun c => isForeign (Text.lowerChar c) = isForeign c) (by decide +kernel) hc

theorem telling_of_isTelling {word : List Char} (hascii : forall c, c ∈ word -> c.toNat < 128)
    (htelling : isTelling (Text.lower word) = true) : Telling word := by
  match word with
  | [] => cases htelling
  | [c] =>
      refine .foreign ?_
      rw [← isForeign_lowerChar (hascii c List.mem_cons_self)]
      exact htelling
  | c :: d :: rest =>
      rcases Bool.and_eq_true_iff.mp htelling with ⟨hstarts, hstrange⟩
      refine .strange ?_ ?_
      · intro e he
        rw [← isNameStart_lowerChar (hascii e he)]
        exact List.all_eq_true.mp hstarts _ (List.mem_map_of_mem he)
      · intro known hknown
        have hnone := List.all_eq_true.mp hstrange known hknown
        intro hwithin
        have habsent := Bool.eq_false_iff.mp ((Bool.not_eq_true' _).mp hnone)
        exact habsent (standsIn_of_within (hwithin.map Char.toNat))

/-- Each of the standard patterns takes no quote, misses no match and begins with a telling
word. -/
theorem standard_telling {p : DeniedPattern} (hp : p ∈ DeniedPattern.standard) :
    p.pieces.all isPlain = true ∧ isSettled p.pieces = true ∧
      isTelling (Text.lower (lead p.pieces)) = true := by
  have hall : (DeniedPattern.standard.all fun p => p.pieces.all isPlain &&
      (isSettled p.pieces && isTelling (Text.lower (lead p.pieces)))) = true := by
    decide +kernel
  have htelling := List.all_eq_true.mp hall p hp
  rwa [Bool.and_eq_true_iff, Bool.and_eq_true_iff] at htelling

end Query

end OperatorConsole
