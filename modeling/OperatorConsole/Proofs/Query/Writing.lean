import OperatorConsole.Proofs.Query.Grammar
import OperatorConsole.Proofs.Query.Scanning

/-!
# Writing tokens down

Every list of legal lexemes has a text that is split into it again: each lexeme as it reads, one
space between two of them, and strings in quotes of either style with a backslash in front of
every backslash and every quote of that style.

## Arguments

A string may therefore hold anything, quotes, backslashes and text that looks like a call
included, and is still a single argument of a query.
-/

namespace OperatorConsole

namespace Query

/-! ## String literals -/

inductive QuoteStyle where
  | single
  | double
  deriving DecidableEq, Repr

def QuoteStyle.char : QuoteStyle -> Char
  | .single => '\x27'
  | .double => '\x22'

def escaped (quote : Char) (value : List Char) : List Char :=
  value.flatMap fun c => if c = '\\' ∨ c = quote then ['\\', c] else [c]

theorem isQuote_char (style : QuoteStyle) : isQuote style.char = true := by
  cases style with
  | single => rfl
  | double => rfl

theorem unescape_special {style : QuoteStyle} {c : Char} (hc : c = '\\' ∨ c = style.char) :
    unescape c = c := by
  rcases hc with rfl | rfl
  · rfl
  · cases style with
    | single => rfl
    | double => rfl

/-- What is escaped denotes what it was, one character at a time. -/
theorem denotes_escaped (style : QuoteStyle) (value : List Char) :
    Denotes style.char (escaped style.char value) value := by
  induction value with
  | nil => exact .done
  | cons c value ih =>
      unfold escaped at ih ⊢
      rw [List.flatMap_cons]
      by_cases hc : c = '\\' ∨ c = style.char
      · have hescaped := Denotes.escaped (c := c) ih
        rw [unescape_special hc] at hescaped
        rw [if_pos hc]
        exact hescaped
      · rw [if_neg hc]
        exact .plain (fun hescape => hc (Or.inl hescape)) (fun hquote => hc (Or.inr hquote)) ih

/-! ## Lexemes -/

/-- Whether a lexeme is one that tokens have: a name and a number have their form, and a string
may be anything. -/
def Lexeme.IsLegal : Lexeme -> Prop
  | .name word => exists c rest, word.toList = c :: rest ∧ isNameStart c = true ∧
      forall d, d ∈ rest -> Text.isWordChar d = true
  | .number literal => IsNumeral literal.toList
  | _ => True

structure Quoted where
  lexeme : Lexeme
  style : QuoteStyle
  deriving DecidableEq, Repr

def Quoted.text (item : Quoted) : List Char :=
  match item.lexeme with
  | .string value => item.style.char :: (escaped item.style.char value.toList ++ [item.style.char])
  | lexeme => lexeme.text.toList

theorem Quoted.spells {item : Quoted} (hlegal : item.lexeme.IsLegal) :
    Spells item.lexeme item.text := by
  cases item with
  | mk lexeme style =>
      cases lexeme with
      | name word =>
          rcases hlegal with ⟨c, rest, hword, hstart, hrest⟩
          have hspells := Spells.name hstart hrest
          rw [← hword, String.ofList_toList] at hspells
          exact hspells
      | string value =>
          have hspells := Spells.string (isQuote_char style) (denotes_escaped style value.toList)
          rw [String.ofList_toList] at hspells
          exact hspells
      | number literal =>
          have hspells := Spells.number hlegal
          rw [String.ofList_toList] at hspells
          exact hspells
      | arrow =>
          have htext : (Quoted.mk .arrow style).text = ['-', '>'] := String.toList_ofList
          rw [htext]
          exact .arrow
      | mark m =>
          have htext : (Quoted.mk (.mark m) style).text = [m.char] := String.toList_ofList
          rw [htext]
          exact .mark m

/-! ## Texts -/

def writeAll (items : List Quoted) : List Char :=
  Text.joinWith [' '] (items.map Quoted.text)

def written (items : List Quoted) : String :=
  String.ofList (writeAll items)

/-- The tokens of the text that begins at an offset. -/
def tokensFrom (position : Nat) : List Quoted -> List Token
  | [] => []
  | item :: rest =>
      ⟨item.lexeme, position⟩ :: tokensFrom (position + Text.width item.text + 1) rest

theorem tokensFrom_lexemes (position : Nat) (items : List Quoted) :
    (tokensFrom position items).map Token.lexeme = items.map Quoted.lexeme := by
  induction items generalizing position with
  | nil => rfl
  | cons item rest ih => rw [tokensFrom, List.map_cons, List.map_cons, ih]

theorem stopsBefore_nil (lexeme : Lexeme) : lexeme.StopsBefore [] := by
  cases lexeme with
  | name word => simp [Lexeme.StopsBefore]
  | number literal => simp [Lexeme.StopsBefore, EndsNumber]
  | _ => trivial

theorem stopsBefore_space (lexeme : Lexeme) (rest : List Char) :
    lexeme.StopsBefore (' ' :: rest) := by
  cases lexeme with
  | name word =>
      intro c hc
      cases hc
      rfl
  | number literal =>
      intro c hc
      cases hc
      simp [IsNumeralChar]
  | _ => trivial

/-- What is written is read, lexeme by lexeme. -/
theorem scan_writeAll {items : List Quoted}
    (hlegal : forall item, item ∈ items -> item.lexeme.IsLegal) (position : Nat) :
    scan position (writeAll items) = .ok (tokensFrom position items) := by
  induction items generalizing position with
  | nil =>
      rw [writeAll, List.map_nil, Text.joinWith, scan_nil, tokensFrom]
  | cons item rest ih =>
      rcases List.forall_mem_cons.mp hlegal with ⟨hitem, hrest⟩
      have hspells := Quoted.spells hitem
      cases rest with
      | nil =>
          have hscan : scan position (item.text ++ []) = .ok [⟨item.lexeme, position⟩] :=
            scan_of_spells hspells (stopsBefore_nil _) scan_nil
          rwa [List.append_nil] at hscan
      | cons next others =>
          have hothers : scan (position + Text.width item.text) (' ' :: writeAll (next :: others)) =
              .ok (tokensFrom (position + Text.width item.text + 1) (next :: others)) := by
            rw [scan_blank rfl]
            exact ih hrest _
          have hscan := scan_of_spells hspells (stopsBefore_space _ _) hothers
          have htext : writeAll (item :: next :: others) =
              item.text ++ ' ' :: writeAll (next :: others) := by
            simp [writeAll, Text.joinWith]
          rw [htext]
          exact hscan

theorem tokenize_written_down {items : List Quoted}
    (hlegal : forall item, item ∈ items -> item.lexeme.IsLegal) :
    tokenize (written items) = .ok (tokensFrom 0 items) := by
  unfold tokenize written
  rw [String.toList_ofList]
  exact scan_writeAll hlegal 0

/-! ## Calls -/

def argumentItems : List (String × QuoteStyle) -> List Quoted
  | [] => []
  | [value] => [⟨.string value.1, value.2⟩]
  | value :: rest =>
      ⟨.string value.1, value.2⟩ :: ⟨.mark .comma, .single⟩ :: argumentItems rest

def callItems (verb : String) (values : List (String × QuoteStyle)) : List Quoted :=
  ⟨.name verb, .single⟩ :: ⟨.mark .opening, .single⟩ ::
    (argumentItems values ++ [⟨.mark .closing, .single⟩])

theorem argumentItems_legal (values : List (String × QuoteStyle)) :
    forall item, item ∈ argumentItems values -> item.lexeme.IsLegal := by
  fun_induction argumentItems values with
  | case1 => exact List.forall_mem_nil _
  | case2 value => exact List.forall_mem_singleton.mpr trivial
  | case3 value rest _ ih =>
      exact List.forall_mem_cons.mpr ⟨trivial, List.forall_mem_cons.mpr ⟨trivial, ih⟩⟩

theorem callItems_legal {verb : String} (hverb : (Lexeme.name verb).IsLegal)
    (values : List (String × QuoteStyle)) :
    forall item, item ∈ callItems verb values -> item.lexeme.IsLegal := by
  have hclosed : forall item, item ∈ argumentItems values ++ [⟨.mark .closing, .single⟩] ->
      item.lexeme.IsLegal :=
    List.forall_mem_append.mpr
      ⟨argumentItems_legal values, List.forall_mem_singleton.mpr trivial⟩
  exact List.forall_mem_cons.mpr ⟨hverb, List.forall_mem_cons.mpr ⟨trivial, hclosed⟩⟩

theorem tokensFrom_append (position : Nat) (items others : List Quoted) :
    exists middle, tokensFrom position (items ++ others) =
      tokensFrom position items ++ tokensFrom middle others := by
  induction items generalizing position with
  | nil => exact ⟨position, rfl⟩
  | cons item rest ih =>
      rcases ih (position + Text.width item.text + 1) with ⟨middle, hrest⟩
      exact ⟨middle, by rw [List.cons_append, tokensFrom, tokensFrom, hrest, List.cons_append]⟩

theorem derivesItems_of_values (position : Nat) (value : String × QuoteStyle)
    (rest : List (String × QuoteStyle)) :
    DerivesItems (tokensFrom position (argumentItems (value :: rest)))
      ((value :: rest).map fun value => .scalar (.text value.1)) := by
  induction rest generalizing position value with
  | nil => exact .last (.string value.1 position)
  | cons next others ih => exact .more _ (.string value.1 position) (ih _ next)

theorem derivesArguments_of_values (position : Nat) (values : List (String × QuoteStyle)) :
    DerivesArguments (tokensFrom position (argumentItems values))
      (values.map fun value => .scalar (.text value.1)) := by
  cases values with
  | nil => exact .none
  | cons value rest => exact .some (derivesItems_of_values position value rest)

theorem ofExpression_callItems {verb : String} (hverb : (Lexeme.name verb).IsLegal)
    (values : List (String × QuoteStyle)) :
    Chain.ofExpression (written (callItems verb values)) =
      .ok [⟨verb, values.map fun value => .scalar (.text value.1), 0⟩] := by
  unfold Chain.ofExpression
  rw [tokenize_written_down (callItems_legal hverb values)]
  dsimp only
  apply Chain.ofTokens_of_derives
  unfold callItems
  rw [tokensFrom, tokensFrom]
  rcases tokensFrom_append _ (argumentItems values) [⟨.mark .closing, .single⟩] with ⟨last, hsplit⟩
  rw [hsplit]
  exact .plain (.last (.call verb 0 _ last (derivesArguments_of_values _ values)))

/-! ## Every list of lexemes -/

/-- Every list of legal lexemes can be written down, its strings in quotes of any style: what is
written is split into these lexemes again, in the same order.  In particular any strings at all
are the arguments of a query, one for each. -/
theorem tokenize_written_lexemes :
    (forall items : List Quoted, (forall item, item ∈ items -> item.lexeme.IsLegal) ->
      exists tokens, tokenize (written items) = .ok tokens ∧
        tokens.map Token.lexeme = items.map Quoted.lexeme) ∧
    forall (verb : String) (values : List (String × QuoteStyle)), (Lexeme.name verb).IsLegal ->
      Chain.ofExpression (written (callItems verb values)) =
        .ok [⟨verb, values.map fun value => .scalar (.text value.1), 0⟩] := by
  constructor
  · intro items hlegal
    exact ⟨_, tokenize_written_down hlegal, tokensFrom_lexemes 0 items⟩
  · intro verb values hverb
    exact ofExpression_callItems hverb values

theorem tokenize_written_lexemes_mixed :
    (exists tokens, tokenize (written
        [⟨.name "e5", .single⟩, ⟨.number "-.5e+3", .single⟩, ⟨.arrow, .single⟩,
          ⟨.string "it's \\n", .single⟩, ⟨.string "\x22->get()", .double⟩]) = .ok tokens ∧
      tokens.map Token.lexeme =
        [.name "e5", .number "-.5e+3", .arrow, .string "it's \\n", .string "\x22->get()"]) ∧
    Chain.ofExpression (written (callItems "where"
        [("')->delete('\\", .single), ("\n", .double)])) =
      .ok [⟨"where", [.scalar (.text "')->delete('\\"), .scalar (.text "\n")], 0⟩] := by
  constructor
  · apply tokenize_written_lexemes.1
    have hname : (Lexeme.name "e5").IsLegal :=
      ⟨'e', ['5'], rfl, rfl, List.forall_mem_singleton.mpr rfl⟩
    have hfraction : IsFraction ['.', '5'] :=
      .digits (List.forall_mem_singleton.mpr rfl) (List.cons_ne_nil _ _)
    have hexponent : IsExponent ('e' :: (['+'] ++ ['3'])) :=
      .digits (Or.inl rfl) (Or.inr (Or.inr rfl)) (List.forall_mem_singleton.mpr rfl)
        (List.cons_ne_nil _ _)
    have hnumber : (Lexeme.number "-.5e+3").IsLegal :=
      .negative (.number (List.forall_mem_nil _) hfraction hexponent
        (Or.inr (List.cons_ne_nil _ _)))
    simp only [List.forall_mem_cons]
    exact ⟨hname, hnumber, trivial, trivial, trivial, List.forall_mem_nil _⟩
  · have hverb : (Lexeme.name "where").IsLegal :=
      ⟨'w', ['h', 'e', 'r', 'e'], rfl, rfl, List.all_eq_true.mp rfl⟩
    exact tokenize_written_lexemes.2 "where" _ hverb

end Query

end OperatorConsole
