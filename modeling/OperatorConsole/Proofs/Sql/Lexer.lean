import OperatorConsole.Sql.Statement

/-!
# Lexical structure of SQL

The text of a statement as the database reads it.  A lexer goes through the text one
character at a time; what it has read of an unfinished lexeme is its state.  Between double
quotes every character belongs to the name, a doubled quote standing for one; between single
quotes the same holds for literals.

A state can be *extended* by a character or else is finished by it, so a text can be read in
parts as long as no part extends the last lexeme of the one before.
-/

namespace OperatorConsole

namespace Sql

inductive Lexeme where
  | word (text : String)
  | number (digits : String)
  | operator (text : String)
  | mark (c : Char)
  | literal (text : String)
  | quoted (name : String)
  deriving DecidableEq, Repr

/-- What has been read of a lexeme that may go on. -/
inductive Partial where
  | nothing
  | word (text : List Char)
  | number (digits : List Char)
  | operator (text : List Char)
  /-- Inside single quotes. -/
  | literal (text : List Char)
  /-- Behind a single quote that ends a literal unless another one follows. -/
  | literalEnd (text : List Char)
  /-- Inside double quotes. -/
  | quoted (name : List Char)
  /-- Behind a double quote that ends a name unless another one follows. -/
  | quotedEnd (name : List Char)
  deriving DecidableEq, Repr

def isOperatorChar (c : Char) : Bool :=
  ['=', '<', '>', '!'].contains c

def isMark (c : Char) : Bool :=
  ['(', ')', ',', '.', '*', '?'].contains c

namespace Partial

/-- The lexemes that are complete if the text ends here; there are none to complete between
quotes. -/
def finish? : Partial -> Option (List Lexeme)
  | .nothing => some []
  | .word text => some [.word (String.ofList text)]
  | .number digits => some [.number (String.ofList digits)]
  | .operator text => some [.operator (String.ofList text)]
  | .literal _ => none
  | .literalEnd text => some [.literal (String.ofList text)]
  | .quoted _ => none
  | .quotedEnd name => some [.quoted (String.ofList name)]

def extend? : Partial -> Char -> Option Partial
  | .nothing, _ => none
  | .word text, c => if Text.isWordChar c then some (.word (text ++ [c])) else none
  | .number digits, c => if c.isDigit then some (.number (digits ++ [c])) else none
  | .operator text, c => if isOperatorChar c then some (.operator (text ++ [c])) else none
  | .literal text, c => some (if c = '\x27' then .literalEnd text else .literal (text ++ [c]))
  | .literalEnd text, c => if c = '\x27' then some (.literal (text ++ [c])) else none
  | .quoted name, c => some (if c = '\x22' then .quotedEnd name else .quoted (name ++ [c]))
  | .quotedEnd name, c => if c = '\x22' then some (.quoted (name ++ [c])) else none

end Partial

def begin? (c : Char) : Option (List Lexeme × Partial) :=
  if Text.isBlank c then some ([], .nothing)
  else if c = '\x22' then some ([], .quoted [])
  else if c = '\x27' then some ([], .literal [])
  else if c.isDigit then some ([], .number [c])
  else if Text.isWordChar c then some ([], .word [c])
  else if isOperatorChar c then some ([], .operator [c])
  else if isMark c then some ([.mark c], .nothing)
  else none

def Partial.step? (p : Partial) (c : Char) : Option (List Lexeme × Partial) :=
  match p.extend? c with
  | some q => some ([], q)
  | none =>
      match p.finish?, begin? c with
      | some done, some (more, q) => some (done ++ more, q)
      | _, _ => none

/-- Reads a text: the lexemes that are complete, and the state at the end. -/
def feed : Partial -> List Char -> Option (List Lexeme × Partial)
  | p, [] => some ([], p)
  | p, c :: rest =>
      match p.step? c with
      | none => none
      | some (done, q) =>
          match feed q rest with
          | none => none
          | some (more, r) => some (done ++ more, r)

/-- The lexemes of a whole text, if it has only such. -/
def lex (text : List Char) : Option (List Lexeme) :=
  match feed .nothing text with
  | none => none
  | some (lexemes, p) => p.finish?.map fun last => lexemes ++ last

/-! ## Reading in parts -/

theorem feed_append {p q r : Partial} {first second : List Char} {done more : List Lexeme}
    (hfirst : feed p first = some (done, q)) (hsecond : feed q second = some (more, r)) :
    feed p (first ++ second) = some (done ++ more, r) := by
  induction first generalizing p done with
  | nil =>
      cases hfirst
      exact hsecond
  | cons c rest ih =>
      rw [feed] at hfirst
      rw [List.cons_append, feed]
      cases hstep : p.step? c with
      | none =>
          rw [hstep] at hfirst
          cases hfirst
      | some outcome =>
          rcases outcome with ⟨now, p'⟩
          rw [hstep] at hfirst
          dsimp only at hfirst ⊢
          cases hrest : feed p' rest with
          | none =>
              rw [hrest] at hfirst
              cases hfirst
          | some outcome =>
              rcases outcome with ⟨later, q'⟩
              rw [hrest] at hfirst
              cases hfirst
              rw [ih hrest]
              simp

/-- A text that does not extend the last lexeme is read as on its own. -/
theorem feed_fresh {p q : Partial} {c : Char} {rest : List Char} {last lexemes : List Lexeme}
    (hextend : p.extend? c = none) (hfinish : p.finish? = some last)
    (hfeed : feed .nothing (c :: rest) = some (lexemes, q)) :
    feed p (c :: rest) = some (last ++ lexemes, q) := by
  have hstep : p.step? c = (begin? c).map fun outcome => (last ++ outcome.1, outcome.2) := by
    unfold Partial.step?
    rw [hextend, hfinish]
    cases begin? c with
    | none => rfl
    | some outcome => rfl
  have hbegin : Partial.nothing.step? c = begin? c := by
    unfold Partial.step?
    change (match (some [] : Option (List Lexeme)), begin? c with
      | some done, some (more, q) => some (done ++ more, q)
      | _, _ => none) = _
    cases begin? c with
    | none => rfl
    | some outcome => rfl
  rw [feed, hbegin] at hfeed
  rw [feed, hstep]
  cases hfirst : begin? c with
  | none =>
      rw [hfirst] at hfeed
      cases hfeed
  | some outcome =>
      rcases outcome with ⟨now, p'⟩
      rw [hfirst] at hfeed
      dsimp only [Option.map_some] at hfeed ⊢
      cases hrest : feed p' rest with
      | none =>
          rw [hrest] at hfeed
          cases hfeed
      | some outcome =>
          rw [hrest] at hfeed
          cases hfeed
          simp

/-- Behind a text that is read to the end of its last lexeme, the rest is read on its own. -/
theorem lex_append {first second : List Char} {done lexemes : List Lexeme}
    (hfirst : feed .nothing first = some (done, .nothing)) (hsecond : lex second = some lexemes) :
    lex (first ++ second) = some (done ++ lexemes) := by
  unfold lex at hsecond ⊢
  cases hfeed : feed .nothing second with
  | none =>
      rw [hfeed] at hsecond
      cases hsecond
  | some outcome =>
      rcases outcome with ⟨more, p⟩
      rw [hfeed] at hsecond
      rw [feed_append hfirst hfeed]
      dsimp only at hsecond ⊢
      cases hfinish : p.finish? with
      | none =>
          rw [hfinish] at hsecond
          cases hsecond
      | some last =>
          rw [hfinish] at hsecond
          cases hsecond
          rw [Option.map_some, List.append_assoc]

/-! ## Quoted identifiers -/

/-- Inside quotes, doubled quotes give back the text, whatever it is. -/
theorem feed_doubleQuotes (read name : List Char) :
    feed (.quoted read) (doubleQuotes name) = some ([], .quoted (read ++ name)) := by
  induction name generalizing read with
  | nil => simp [doubleQuotes, feed]
  | cons c rest ih =>
      rw [doubleQuotes]
      split
      · rename_i hquote
        subst hquote
        simp [feed, Partial.step?, Partial.extend?, ih]
      · rename_i hother
        simp [feed, Partial.step?, Partial.extend?, hother, ih]

theorem feed_quoteIdentifier (name : String) :
    feed .nothing (quoteIdentifier name).toList = some ([], .quotedEnd name.toList) := by
  have hopening : feed .nothing ['\x22'] = some ([], .quoted []) := by decide
  have hclosing : feed (.quoted name.toList) ['\x22'] = some ([], .quotedEnd name.toList) := by
    simp [feed, Partial.step?, Partial.extend?]
  have hname := feed_doubleQuotes [] name.toList
  unfold quoteIdentifier
  rw [String.toList_ofList]
  exact feed_append hopening (feed_append hname hclosing)

end Sql

end OperatorConsole
