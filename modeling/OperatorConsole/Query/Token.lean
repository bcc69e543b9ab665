import OperatorConsole.Number.Decimal
import OperatorConsole.Query.Verb

/-!
# Tokens of a query expression

`tokenize` splits an expression into tokens.  A string literal is a single token,
so nothing inside quotes is ever read as a verb.  Positions count 16-bit units
from the start of the expression.

## Faults

Every way in which an expression fails to be a query is a `Malformed`, with its
message in `Malformed.detail`.
-/

namespace OperatorConsole

namespace Query

/-! ## Lexemes -/

inductive Mark where
  | opening
  | closing
  | comma
  | openList
  | closeList
  | semicolon
  deriving DecidableEq, Repr

namespace Mark

def char : Mark -> Char
  | .opening => '('
  | .closing => ')'
  | .comma => ','
  | .openList => '['
  | .closeList => ']'
  | .semicolon => ';'

def ofChar? : Char -> Option Mark
  | '(' => some .opening
  | ')' => some .closing
  | ',' => some .comma
  | '[' => some .openList
  | ']' => some .closeList
  | ';' => some .semicolon
  | _ => none

end Mark

inductive Lexeme where
  | name (text : String)
  | string (value : String)
  | number (literal : String)
  | arrow
  | mark (m : Mark)
  deriving DecidableEq, Repr

namespace Lexeme

/-- The text of a lexeme; of a string, the text that it denotes. -/
def text : Lexeme -> String
  | .name s => s
  | .string s => s
  | .number s => s
  | .arrow => "->"
  | .mark m => String.ofList [m.char]

def kind : Lexeme -> String
  | .name _ => "identifier"
  | .string _ => "string"
  | .number _ => "number"
  | .arrow => "arrow"
  | .mark _ => "punct"

end Lexeme

structure Token where
  lexeme : Lexeme
  position : Nat
  deriving DecidableEq, Repr

/-! ## Faults -/

inductive Malformed where
  | unterminatedString (position : Nat)
  | unexpectedChar (c : Char) (position : Nat)
  | empty
  | expectedName (position : Option Nat)
  | expectedMark (m : Mark) (position : Option Nat)
  | expectedArgument
  | unexpectedToken (lexeme : Lexeme) (position : Nat)
  | expectedArrow (position : Nat)
  | extraStatement (position : Nat)
  deriving DecidableEq, Repr

namespace Malformed

def place : Option Nat -> String
  | some position => s!" at position {position}"
  | none => " but the query ended"

/-- The unit that stands at the position of a character. -/
def firstUnit (c : Char) : Char :=
  if Text.unitWidth c = 1 then c else Text.ofHalf ((Text.unitsOf c).headD 0)

def detail : Malformed -> String
  | .unterminatedString position => s!"unterminated string starting at position {position}"
  | .unexpectedChar c position =>
      "unexpected character '" ++ String.ofList [firstUnit c] ++ s!"' at position {position}"
  | .empty => "query is empty"
  | .expectedName position => "expected a method name" ++ place position
  | .expectedMark m position => "expected '" ++ String.ofList [m.char] ++ "'" ++ place position
  | .expectedArgument => "expected an argument" ++ place none
  | .unexpectedToken lexeme position => s!"unexpected '{lexeme.text}' at position {position}"
  | .expectedArrow position => "expected \"->\" between calls" ++ place (some position)
  | .extraStatement position => "only one statement is allowed" ++ place (some position)

end Malformed

/-! ## Scanning one token -/

def isNameStart (c : Char) : Bool :=
  c.isAlpha || c == '_'

def isQuote (c : Char) : Bool :=
  c == '\x27' || c == '\x22'

def unescape : Char -> Char
  | 'n' => '\n'
  | 't' => '\t'
  | 'r' => '\r'
  | c => c

/-- Reads string content up to the closing quote: the denoted text and what follows. -/
def scanString (quote : Char) : List Char -> Option (List Char × List Char)
  | [] => none
  | c :: rest =>
      if c = '\\' then
        match rest with
        | [] => none
        | e :: rest =>
            match scanString quote rest with
            | some (value, rest) => some (unescape e :: value, rest)
            | none => none
      else if c = quote then some ([], rest)
      else
        match scanString quote rest with
        | some (value, rest) => some (c :: value, rest)
        | none => none

def scanNumber (text : List Char) : Option (List Char) :=
  match text with
  | '-' :: body => (Decimal.scanUnsigned false body).map Prod.snd
  | _ => (Decimal.scanUnsigned false text).map Prod.snd

/-- What is left of a text when its tail `rest` is cut off. -/
def spanBefore (text rest : List Char) : String :=
  String.ofList (text.take (text.length - rest.length))

/-- Reads the lexeme at the head of a text that starts with no blank. -/
def scanLexeme (position : Nat) (text : List Char) : Except Malformed (Lexeme × List Char) :=
  match text with
  | [] => .error .empty
  | '-' :: '>' :: rest => .ok (.arrow, rest)
  | c :: rest =>
      match Mark.ofChar? c with
      | some m => .ok (.mark m, rest)
      | none =>
          if isQuote c then
            match scanString c rest with
            | some (value, rest) => .ok (.string (String.ofList value), rest)
            | none => .error (.unterminatedString position)
          else
            match scanNumber (c :: rest) with
            | some rest' => .ok (.number (spanBefore (c :: rest) rest'), rest')
            | none =>
                if isNameStart c then
                  .ok (.name (String.ofList (c :: rest.takeWhile Text.isWordChar)),
                    rest.dropWhile Text.isWordChar)
                else .error (.unexpectedChar c position)

/-! ## The whole expression -/

theorem length_scanString_lt {quote : Char} {text value rest : List Char}
    (h : scanString quote text = some (value, rest)) : rest.length < text.length := by
  fun_induction scanString quote text generalizing value with
  | case1 => simp at h
  | case2 => simp at h
  | case3 e text value' rest' heq ih =>
      simp only [Option.some.injEq, Prod.mk.injEq] at h
      obtain ⟨_, rfl⟩ := h
      have := ih heq
      simp only [List.length_cons]
      omega
  | case4 => simp at h
  | case5 =>
      simp only [Option.some.injEq, Prod.mk.injEq] at h
      obtain ⟨_, rfl⟩ := h
      simp
  | case6 c text _ _ value' rest' heq ih =>
      simp only [Option.some.injEq, Prod.mk.injEq] at h
      obtain ⟨_, rfl⟩ := h
      have := ih heq
      simp only [List.length_cons]
      omega
  | case7 => simp at h

theorem length_scanNumber_lt {text rest : List Char} (h : scanNumber text = some rest) :
    rest.length < text.length := by
  unfold scanNumber at h
  split at h
  · obtain ⟨⟨d, rest'⟩, hd, rfl⟩ := Option.map_eq_some_iff.mp h
    have := Decimal.length_scanUnsigned_lt hd
    simp only [List.length_cons]
    omega
  · obtain ⟨⟨d, rest'⟩, hd, rfl⟩ := Option.map_eq_some_iff.mp h
    exact Decimal.length_scanUnsigned_lt hd

theorem length_scanLexeme_lt {position : Nat} {text rest : List Char} {lexeme : Lexeme}
    (h : scanLexeme position text = .ok (lexeme, rest)) : rest.length < text.length := by
  unfold scanLexeme at h
  split at h
  · simp at h
  · simp only [Except.ok.injEq, Prod.mk.injEq] at h
    obtain ⟨_, rfl⟩ := h
    simp only [List.length_cons]
    omega
  · rename_i c tail _
    split at h
    · simp only [Except.ok.injEq, Prod.mk.injEq] at h
      obtain ⟨_, rfl⟩ := h
      simp
    · split at h
      · split at h
        · rename_i value rest' heq
          simp only [Except.ok.injEq, Prod.mk.injEq] at h
          obtain ⟨_, rfl⟩ := h
          have := length_scanString_lt heq
          simp only [List.length_cons]
          omega
        · simp at h
      · split at h
        · rename_i rest' heq
          simp only [Except.ok.injEq, Prod.mk.injEq] at h
          obtain ⟨_, rfl⟩ := h
          exact length_scanNumber_lt heq
        · split at h
          · simp only [Except.ok.injEq, Prod.mk.injEq] at h
            obtain ⟨_, rfl⟩ := h
            have := (List.dropWhile_suffix (l := tail) Text.isWordChar).length_le
            simp only [List.length_cons]
            omega
          · simp at h

def scan (position : Nat) (text : List Char) : Except Malformed (List Token) :=
  match text with
  | [] => .ok []
  | c :: rest =>
      if Text.isBlank c then scan (position + Text.unitWidth c) rest
      else
        match h : scanLexeme position (c :: rest) with
        | .error fault => .error fault
        | .ok (lexeme, rest') =>
            have := length_scanLexeme_lt h
            let taken := Text.width (c :: rest) - Text.width rest'
            match scan (position + taken) rest' with
            | .error fault => .error fault
            | .ok tokens => .ok (⟨lexeme, position⟩ :: tokens)
termination_by text.length
decreasing_by
  · simp only [List.length_cons]
    omega
  · assumption

def tokenize (expression : String) : Except Malformed (List Token) :=
  scan 0 expression.toList

/-! ## Invoked names -/

/-- The names that stand directly before an opening parenthesis, in order. -/
def invokedNames : List Token -> List String
  | ⟨.name s, _⟩ :: next :: rest =>
      if next.lexeme = .mark .opening then s :: invokedNames (next :: rest)
      else invokedNames (next :: rest)
  | _ :: rest => invokedNames rest
  | [] => []

/-- Words before an opening parenthesis in a text that need not consist of tokens. -/
def looseInvocations (text : List Char) : List String :=
  match text with
  | [] => []
  | c :: rest =>
      if isNameStart c then
        let after := rest.dropWhile Text.isWordChar
        match Text.trimLeft after with
        | '(' :: _ =>
            String.ofList (c :: rest.takeWhile Text.isWordChar) :: looseInvocations after
        | _ => looseInvocations after
      else looseInvocations rest
termination_by text.length
decreasing_by
  all_goals
    have := (List.dropWhile_suffix (l := rest) Text.isWordChar).length_le
    simp only [List.length_cons]
    omega

end Query

end OperatorConsole
