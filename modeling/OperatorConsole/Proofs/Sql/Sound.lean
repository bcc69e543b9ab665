import OperatorConsole.Proofs.Sql.Draft
import OperatorConsole.Proofs.Sql.Lexer

/-!
# Sound drafts

A draft is sound over some names if its words are those of the compiler, its identifiers
are among the names, and no fragment runs into the one before it.  The text of a sound
draft then has the fixed vocabulary for its lexemes, apart from the names in quotes.

## Edges

Whether a fragment runs into the one before it depends on how that one ends and how this one
starts.  The words of the compiler come in four kinds, by their two edges; the kinds say where
a word may stand.
-/

namespace OperatorConsole

namespace Sql

/-! ## Vocabulary -/

/-- Words with no letter at either edge; they may stand anywhere. -/
def looseWords : List String :=
  [", ", " ", " FROM ", " WHERE ", " AND ", " GROUP BY ", " HAVING ", " ORDER BY ", " LIMIT ",
    " OFFSET ", " IN (", " NOT IN (", " BETWEEN ", " NOT BETWEEN ", "*", "(", ")",
    ") AS INTEGER)", ") AS aggregate FROM ("] ++
    Query.Comparison.all.map fun operator => s!" {operatorWord operator} "

def leadingWords : List String :=
  ["SELECT ", "SELECT DISTINCT ", "AND ", "OR ", "q.", "date(", "time(",
    "CAST(strftime('%m', ", "CAST(strftime('%Y', "]

def trailingWords : List String :=
  [" IS NULL", " IS NOT NULL", " ASC", " DESC", ") AS q"]

/-- Words that start and end with a letter or a digit. -/
def solidWords : List String :=
  ["0 = 1", "1 = 1", "COUNT", "MIN", "MAX", "AVG", "SUM"]

def words : List String :=
  looseWords ++ leadingWords ++ trailingWords ++ solidWords

def keywords : List String :=
  ["SELECT", "DISTINCT", "FROM", "WHERE", "AND", "OR", "NOT", "IN", "BETWEEN", "IS", "NULL",
    "LIKE", "GROUP", "BY", "HAVING", "ORDER", "ASC", "DESC", "LIMIT", "OFFSET", "AS", "CAST",
    "INTEGER"]

def functionNames : List String :=
  ["COUNT", "MIN", "MAX", "AVG", "SUM", "date", "time", "strftime"]

def aliasNames : List String :=
  ["aggregate", "q"]

/-- Everything that occurs in a statement beside quoted names. -/
def vocabulary : List Lexeme :=
  (keywords ++ functionNames ++ aliasNames).map .word ++
    [.literal "%m", .literal "%Y", .number "0", .number "1"] ++
    ["=", "!=", "<>", "<", ">", "<=", ">="].map .operator ++
    ['(', ')', ',', '.', '*', '?'].map .mark

/-! ## Edges -/

inductive Edge where
  | free
  | letter
  | quote
  deriving DecidableEq, Repr

namespace Edge

def ofChar (c : Char) : Edge :=
  if Text.isWordChar c then .letter else if c = '\x22' then .quote else .free

/-- Whether what starts with an edge can follow what ends with one. -/
def meets (ending start : Edge) : Bool :=
  ending != start || ending == .free

theorem meets_free (ending : Edge) : ending.meets .free = true := by
  cases ending with
  | free => rfl
  | letter => rfl
  | quote => rfl

end Edge

namespace Fragment

def opens : Fragment -> Edge
  | .word text => (text.toList.head?.map Edge.ofChar).getD .free
  | .identifier _ => .quote
  | .parameter _ => .free

def closes : Fragment -> Edge
  | .word text => (text.toList.getLast?.map Edge.ofChar).getD .free
  | .identifier _ => .quote
  | .parameter _ => .free

end Fragment

theorem looseWords_edges {text : String} (htext : text ∈ looseWords) :
    (Fragment.word text).opens = .free ∧ (Fragment.word text).closes = .free := by
  revert text
  decide +kernel

theorem leadingWords_edges {text : String} (htext : text ∈ leadingWords) :
    (Fragment.word text).opens = .letter ∧ (Fragment.word text).closes = .free := by
  revert text
  decide +kernel

theorem trailingWords_edges {text : String} (htext : text ∈ trailingWords) :
    (Fragment.word text).opens = .free ∧ (Fragment.word text).closes = .letter := by
  revert text
  decide +kernel

theorem solidWords_edges {text : String} (htext : text ∈ solidWords) :
    (Fragment.word text).opens = .letter ∧ (Fragment.word text).closes = .letter := by
  revert text
  decide +kernel

/-! ## Soundness -/

def Permitted (names : List String) : Fragment -> Prop
  | .word text => text ∈ words
  | .identifier name => name ∈ names
  | .parameter _ => True

/-- What follows a given edge is made of permitted fragments, none of which runs into the one
before it. -/
def Sound (names : List String) : Edge -> Draft -> Prop
  | _, [] => True
  | ending, f :: rest =>
      ending.meets f.opens = true ∧ Permitted names f ∧ Sound names f.closes rest

section Rules

variable {names : List String} {rest : Draft} {text : String}

theorem sound_nil (ending : Edge) : Sound names ending [] :=
  trivial

theorem sound_loose (htext : text ∈ looseWords) (hrest : Sound names .free rest)
    (ending : Edge) : Sound names ending (.word text :: rest) := by
  rcases looseWords_edges htext with ⟨hopens, hcloses⟩
  refine ⟨?_, ?_, ?_⟩
  · rw [hopens]
    exact ending.meets_free
  · exact List.mem_append_left _ (List.mem_append_left _ (List.mem_append_left _ htext))
  · rw [hcloses]
    exact hrest

theorem sound_leading (htext : text ∈ leadingWords) (hrest : Sound names .free rest) :
    Sound names .free (.word text :: rest) := by
  rcases leadingWords_edges htext with ⟨hopens, hcloses⟩
  refine ⟨?_, ?_, ?_⟩
  · rw [hopens]
    rfl
  · exact List.mem_append_left _ (List.mem_append_left _ (List.mem_append_right _ htext))
  · rw [hcloses]
    exact hrest

theorem sound_trailing (htext : text ∈ trailingWords) (hrest : Sound names .letter rest)
    (ending : Edge) : Sound names ending (.word text :: rest) := by
  rcases trailingWords_edges htext with ⟨hopens, hcloses⟩
  refine ⟨?_, ?_, ?_⟩
  · rw [hopens]
    exact ending.meets_free
  · exact List.mem_append_left _ (List.mem_append_right _ htext)
  · rw [hcloses]
    exact hrest

theorem sound_solid (htext : text ∈ solidWords) (hrest : Sound names .letter rest) :
    Sound names .free (.word text :: rest) := by
  rcases solidWords_edges htext with ⟨hopens, hcloses⟩
  refine ⟨?_, ?_, ?_⟩
  · rw [hopens]
    rfl
  · exact List.mem_append_right _ htext
  · rw [hcloses]
    exact hrest

theorem sound_identifier {name : String} (hname : name ∈ names)
    (hrest : Sound names .quote rest) : Sound names .free (.identifier name :: rest) :=
  ⟨rfl, hname, hrest⟩

theorem sound_parameter (value : Scalar) (hrest : Sound names .free rest) (ending : Edge) :
    Sound names ending (.parameter value :: rest) :=
  ⟨ending.meets_free, trivial, hrest⟩

theorem sound_append {ending : Edge} {first : Draft} (hfirst : Sound names ending first)
    (hrest : forall edge, Sound names edge rest) : Sound names ending (first ++ rest) := by
  induction first generalizing ending with
  | nil => exact hrest ending
  | cons f first ih =>
      rcases hfirst with ⟨hmeets, hpermitted, hfirst⟩
      exact ⟨hmeets, hpermitted, ih hfirst⟩

theorem sound_joinWith {separator : String} (hseparator : separator ∈ looseWords)
    {parts : List Draft} (hparts : forall part, part ∈ parts -> Sound names .free part) :
    Sound names .free (Draft.joinWith separator parts) := by
  induction parts with
  | nil => exact trivial
  | cons part parts ih =>
      have hpart := hparts part List.mem_cons_self
      have hjoined := ih (fun other hother => hparts other (List.mem_cons_of_mem part hother))
      cases parts with
      | nil => exact hpart
      | cons next parts => exact sound_append hpart (sound_loose hseparator hjoined)

end Rules

/-! ## Lexemes of sound drafts -/

/-- The lexemes that a statement over some names may have. -/
def Admissible (names : List String) (lexeme : Lexeme) : Prop :=
  lexeme ∈ vocabulary ∨ exists name, name ∈ names ∧ lexeme = .quoted name

/-- The edge of a text that has been read; there is none where the next character may belong
to an operator or a literal. -/
def Partial.edge? : Partial -> Option Edge
  | .nothing => some .free
  | .word _ => some .letter
  | .number _ => some .letter
  | .quotedEnd _ => some .quote
  | _ => none

theorem extend?_of_meets {p : Partial} {ending : Edge} {c : Char}
    (hedge : p.edge? = some ending) (hmeets : ending.meets (Edge.ofChar c) = true) :
    p.extend? c = none := by
  cases p with
  | nothing => rfl
  | word read =>
      cases hedge
      have hword : Text.isWordChar c = false := by
        apply eq_false_of_ne_true
        intro hword
        rw [Edge.ofChar, if_pos hword] at hmeets
        cases hmeets
      simp [Partial.extend?, hword]
  | number digits =>
      cases hedge
      have hdigit : c.isDigit = false := by
        apply eq_false_of_ne_true
        intro hdigit
        have hword : Text.isWordChar c = true := by
          simp [Text.isWordChar, Char.isAlphanum, hdigit]
        rw [Edge.ofChar, if_pos hword] at hmeets
        cases hmeets
      simp [Partial.extend?, hdigit]
  | quotedEnd name =>
      cases hedge
      have hquote : c ≠ '\x22' := by
        rintro rfl
        cases hmeets
      simp [Partial.extend?, hquote]
  | operator read => cases hedge
  | literal read => cases hedge
  | literalEnd read => cases hedge
  | quoted read => cases hedge

/-- Whether a word on its own consists of lexemes of the vocabulary and ends with its edge. -/
def readsAlone (text : String) : Bool :=
  match text.toList, feed .nothing text.toList with
  | _ :: _, some (lexemes, p) =>
      lexemes.all vocabulary.contains && (p.finish?.getD []).all vocabulary.contains &&
        p.edge? = some (Fragment.word text).closes
  | _, _ => false

theorem words_readAlone : forall text, text ∈ words -> readsAlone text = true := by
  decide +kernel

structure Settled (names : List String) (p : Partial) (ending : Edge) : Prop where
  edge : p.edge? = some ending
  finish : exists last, p.finish? = some last ∧ forall lexeme, lexeme ∈ last ->
    Admissible names lexeme

structure Reads (names : List String) (f : Fragment) : Prop where
  start : exists c rest, f.text.toList = c :: rest ∧ Edge.ofChar c = f.opens
  lexemes : exists done p, feed .nothing f.text.toList = some (done, p) ∧
    (forall lexeme, lexeme ∈ done -> Admissible names lexeme) ∧ Settled names p f.closes

theorem settled_of_edge {names : List String} {p : Partial} {ending : Edge}
    (hedge : p.edge? = some ending)
    (hlast : forall lexeme, lexeme ∈ p.finish?.getD [] -> Admissible names lexeme) :
    Settled names p ending := by
  refine ⟨hedge, ?_⟩
  cases hfinish : p.finish? with
  | none => cases p <;> cases hedge <;> cases hfinish
  | some last =>
      refine ⟨last, rfl, ?_⟩
      rw [hfinish] at hlast
      exact hlast

theorem reads_of_permitted {names : List String} {f : Fragment} (hf : Permitted names f) :
    Reads names f := by
  cases f with
  | word text =>
      have hreads := words_readAlone text hf
      unfold readsAlone at hreads
      split at hreads
      · rename_i c rest lexemes p htext hfeed
        simp only [Bool.and_eq_true, List.all_eq_true, List.contains_iff_mem,
          decide_eq_true_eq] at hreads
        rcases hreads with ⟨⟨hlexemes, hlast⟩, hedge⟩
        refine ⟨⟨c, rest, htext, ?_⟩, lexemes, p, hfeed, ?_, settled_of_edge hedge ?_⟩
        · rw [Fragment.opens, htext]
          rfl
        · intro lexeme hlexeme
          exact Or.inl (hlexemes lexeme hlexeme)
        · intro lexeme hlexeme
          exact Or.inl (hlast lexeme hlexeme)
      · cases hreads
  | identifier name =>
      have hopens : Edge.ofChar '\x22' = .quote := by decide
      refine ⟨⟨'\x22', doubleQuotes name.toList ++ ['\x22'], ?_, hopens⟩,
        [], .quotedEnd name.toList, feed_quoteIdentifier name, ?_, settled_of_edge rfl ?_⟩
      · change (quoteIdentifier name).toList = _
        rw [quoteIdentifier, String.toList_ofList]
      · intro lexeme hlexeme
        cases hlexeme
      · intro lexeme hlexeme
        rw [List.mem_singleton.mp hlexeme, String.ofList_toList]
        exact Or.inr ⟨name, hf, rfl⟩
  | parameter value =>
      have htext : (Fragment.parameter value).text.toList = ['?'] := by
        change "?".toList = ['?']
        decide
      have hopens : Edge.ofChar '?' = .free := by decide
      have hfeed : feed .nothing ['?'] = some ([.mark '?'], .nothing) := by decide
      refine ⟨⟨'?', [], htext, hopens⟩, [.mark '?'], .nothing, ?_, ?_, settled_of_edge rfl ?_⟩
      · rw [htext]
        exact hfeed
      · intro lexeme hlexeme
        rw [List.mem_singleton.mp hlexeme]
        exact Or.inl (by decide)
      · intro lexeme hlexeme
        cases hlexeme

/-- The fragments of a sound draft are read one after the other. -/
theorem feed_of_sound {names : List String} {ending : Edge} {s : Draft} {p : Partial}
    (hsound : Sound names ending s) (hp : Settled names p ending) :
    exists lexemes q edge, feed p (Draft.text s).toList = some (lexemes, q) ∧
      (forall lexeme, lexeme ∈ lexemes -> Admissible names lexeme) ∧ Settled names q edge := by
  induction s generalizing ending p with
  | nil =>
      refine ⟨[], p, ending, rfl, ?_, hp⟩
      intro lexeme hlexeme
      cases hlexeme
  | cons f rest ih =>
      rcases hsound with ⟨hmeets, hpermitted, hrest⟩
      rcases reads_of_permitted hpermitted with
        ⟨⟨c, tail, htext, hopens⟩, done, q, hfeed, hdone, hq⟩
      rcases hp.finish with ⟨last, hlast, hadmissible⟩
      rcases ih hrest hq with ⟨more, r, edge, hmore, hmoreAdmissible, hr⟩
      have hextend : p.extend? c = none := by
        refine extend?_of_meets hp.edge ?_
        rw [hopens]
        exact hmeets
      have hhere : feed p f.text.toList = some (last ++ done, q) := by
        rw [htext] at hfeed ⊢
        exact feed_fresh hextend hlast hfeed
      refine ⟨last ++ done ++ more, r, edge, ?_, ?_, hr⟩
      · rw [Draft.text_cons, String.toList_append]
        exact feed_append hhere hmore
      · intro lexeme hlexeme
        rcases List.mem_append.mp hlexeme with hhead | htail
        · rcases List.mem_append.mp hhead with hbefore | hnow
          · exact hadmissible lexeme hbefore
          · exact hdone lexeme hnow
        · exact hmoreAdmissible lexeme htail

theorem lex_of_sound {names : List String} {s : Draft} (hsound : Sound names .free s) :
    exists lexemes, lex (Draft.text s).toList = some lexemes ∧
      forall lexeme, lexeme ∈ lexemes -> Admissible names lexeme := by
  have hstart : Settled names .nothing .free := by
    refine ⟨rfl, [], rfl, ?_⟩
    intro lexeme hlexeme
    cases hlexeme
  rcases feed_of_sound hsound hstart with ⟨lexemes, p, edge, hfeed, hlexemes, hp⟩
  rcases hp.finish with ⟨last, hlast, hlastAdmissible⟩
  refine ⟨lexemes ++ last, ?_, ?_⟩
  · unfold lex
    rw [hfeed]
    dsimp only
    rw [hlast]
    rfl
  · intro lexeme hlexeme
    rcases List.mem_append.mp hlexeme with hread | hfinished
    · exact hlexemes lexeme hread
    · exact hlastAdmissible lexeme hfinished

end Sql

end OperatorConsole
