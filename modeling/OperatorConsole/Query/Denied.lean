import OperatorConsole.Text.Basic
import OperatorConsole.Text.Upper

/-!
# Denied patterns

Patterns that must not occur anywhere in a query expression, quoted text
included: write verbs, raw statements and access to the system.

## Patterns

A pattern is a sequence of pieces, matched from left to right: a character, any
number of blanks, or a place where a word ends or begins.  `DeniedPattern.source`
writes it in the usual notation for regular expressions.

## Denials

A host can deny more than such patterns can say.  A `Denial` is any test of an
expression under the text by which it is reported; every pattern is one.
-/

namespace OperatorConsole

namespace Query

inductive Piece where
  | char (c : Char)
  | blanks
  | wordBoundary
  deriving DecidableEq, Repr

namespace Piece

def isSpecial (c : Char) : Bool :=
  "\\^$.|?*+()[]/\x7b\x7d".toList.contains c

def source : Piece -> List Char
  | .char c => if isSpecial c then ['\\', c] else [c]
  | .blanks => "\\s*".toList
  | .wordBoundary => "\\b".toList

end Piece

structure DeniedPattern where
  pieces : List Piece
  ignoreCase : Bool
  deriving DecidableEq, Repr

namespace DeniedPattern

/-- The pattern as text; an empty one is written as an empty group. -/
def source (p : DeniedPattern) : String :=
  if p.pieces.isEmpty then "(?:)" else String.ofList (p.pieces.flatMap Piece.source)

def flags (p : DeniedPattern) : String :=
  if p.ignoreCase then "i" else ""

/-! ## Matching -/

/-- The character that stands for all cases of a character: its upper case, if that is
one character and does not turn a character into an ASCII one. -/
def foldCase (c : Char) : Char :=
  if c.toNat < 128 then c.toUpper
  else
    match Text.upper c with
    | [u] => if u.toNat < 128 then c else u
    | _ => c

def sameChar (ignoreCase : Bool) (c d : Char) : Bool :=
  if ignoreCase then foldCase c == foldCase d else c == d

def isWordAt : Option Char -> Bool
  | some c => Text.isWordChar c
  | none => false

/-- Whether the pieces match at the head of a text that follows the character
`before`.  Blanks are taken as far as they go, as no pattern has a blank next. -/
def matchesHere (ignoreCase : Bool) : List Piece -> Option Char -> List Char -> Bool
  | [], _, _ => true
  | .char c :: pieces, _, d :: text =>
      sameChar ignoreCase c d && matchesHere ignoreCase pieces (some d) text
  | .char _ :: _, _, [] => false
  | .blanks :: pieces, before, text =>
      let before := (text.takeWhile Text.isBlank).getLast?.or before
      matchesHere ignoreCase pieces before (text.dropWhile Text.isBlank)
  | .wordBoundary :: pieces, before, text =>
      isWordAt before != isWordAt text.head? && matchesHere ignoreCase pieces before text

def occursAfter (p : DeniedPattern) (before : Option Char) (text : List Char) : Bool :=
  matchesHere p.ignoreCase p.pieces before text ||
    match text with
    | [] => false
    | c :: rest => occursAfter p (some c) rest

def occursIn (p : DeniedPattern) (expression : String) : Bool :=
  p.occursAfter none expression.toList

end DeniedPattern

/-- A test of expressions, with the text by which it is reported. -/
structure Denial where
  source : String
  occursIn : String -> Bool

def DeniedPattern.denial (p : DeniedPattern) : Denial where
  source := p.source
  occursIn := p.occursIn

namespace DeniedPattern

/-! ## The patterns -/

def word (text : String) (ignoreCase : Bool) : DeniedPattern :=
  ⟨text.toList.map .char, ignoreCase⟩

/-- The word before further characters, with blanks allowed in between. -/
def before (text following : String) : DeniedPattern :=
  ⟨text.toList.map .char ++ .blanks :: following.toList.map .char, true⟩

def invoked (text : String) : DeniedPattern :=
  before text "("

def wholeWord (text : String) : DeniedPattern :=
  ⟨.wordBoundary :: text.toList.map .char ++ [.wordBoundary], true⟩

def writes : List DeniedPattern :=
  ["save", "create", "update", "upsert", "delete", "destroy", "forceDelete", "insert",
    "truncate", "increment", "decrement", "touch", "push"].map invoked

def schemaChanges : List DeniedPattern :=
  ["drop", "dropIfExists", "alter"].map invoked

def rawStatements : List DeniedPattern :=
  ["raw", "statement", "unprepared", "exec", "query", "connection", "attach"].map invoked ++
    [wholeWord "pragma", before "schema" "::", before "db" "::"]

def interpolation : List DeniedPattern :=
  [word "$" false, word "\x60" false]

def systemAccess : List DeniedPattern :=
  ["eval", "assert", "system", "passthru", "shell_exec", "proc_open", "popen", "require",
    "import"].map invoked ++
    [before "process" ".", word "child_process" true, word "constructor" true,
      word "__proto__" true, word "prototype" true, invoked "function"]

def standard : List DeniedPattern :=
  writes ++ schemaChanges ++ rawStatements ++ interpolation ++ systemAccess

end DeniedPattern

end Query

end OperatorConsole
