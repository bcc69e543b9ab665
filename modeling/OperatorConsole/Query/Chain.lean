import OperatorConsole.Query.Token
import OperatorConsole.Scalar

/-!
# Chains of calls

A query is a chain of calls such as `where('age', '>', 18)->orderBy('name')->get()`:
calls joined by arrows, with an optional semicolon at the end.  `Chain.ofTokens`
reads one from its tokens and `Chain.ofExpression` from its text.

## Arguments

An argument is a scalar, a list of arguments in brackets or a helper call.  The
words `true`, `false` and `null` and the helpers are read in any letter case; no
other word is an argument.  Arguments may be nested to any depth: the limit that an
engine sets to recursion is left out.
-/

namespace OperatorConsole

namespace Query

inductive Argument where
  | scalar (v : Scalar)
  | helper (h : Helper)
  | list (items : List Argument)
  deriving Repr

structure Call where
  verb : String
  args : List Argument
  position : Nat
  deriving Repr

abbrev Chain := List Call

namespace Chain

/-! ## Reading tokens -/

def expectMark (m : Mark) : List Token -> Except Malformed (List Token)
  | [] => .error (.expectedMark m none)
  | token :: rest =>
      if token.lexeme = .mark m then .ok rest
      else .error (.expectedMark m (some token.position))

/-- The value of a word that stands for one. -/
def keyword? (word : String) : Option Scalar :=
  let lowered := Text.lower word.toList
  if lowered = "true".toList then some (.bool true)
  else if lowered = "false".toList then some (.bool false)
  else if lowered = "null".toList then some .null
  else none

def opensHelper? (word : String) (rest : List Token) : Option Helper :=
  match Helper.ofName? word, rest with
  | some h, next :: _ => if next.lexeme = .mark .opening then some h else none
  | _, _ => none

mutual

/-- Reads one argument. The number bounds the nesting; the number of tokens is
always enough. -/
def readArgument : Nat -> List Token -> Except Malformed (Argument × List Token)
  | 0, _ => .error .expectedArgument
  | _ + 1, [] => .error .expectedArgument
  | depth + 1, token :: rest =>
      match token.lexeme with
      | .string s => .ok (.scalar (.text s), rest)
      | .number literal => .ok (.scalar (.number (Number.ofText literal)), rest)
      | .mark .openList =>
          match readArguments depth .closeList rest with
          | .ok (items, rest) => .ok (.list items, rest)
          | .error fault => .error fault
      | .name word =>
          match keyword? word, opensHelper? word rest with
          | some v, _ => .ok (.scalar v, rest)
          | none, some h =>
              match expectMark .closing (rest.drop 1) with
              | .ok rest => .ok (.helper h, rest)
              | .error fault => .error fault
          | none, none => .error (.unexpectedToken token.lexeme token.position)
      | _ => .error (.unexpectedToken token.lexeme token.position)

def readArguments : Nat -> Mark -> List Token -> Except Malformed (List Argument × List Token)
  | 0, _, _ => .error .expectedArgument
  | depth + 1, stop, tokens =>
      match tokens with
      | token :: rest =>
          if token.lexeme = .mark stop then .ok ([], rest)
          else readItems depth stop (token :: rest)
      | [] => readItems depth stop []

def readItems : Nat -> Mark -> List Token -> Except Malformed (List Argument × List Token)
  | 0, _, _ => .error .expectedArgument
  | depth + 1, stop, tokens =>
      match readArgument depth tokens with
      | .error fault => .error fault
      | .ok (item, rest) =>
          match rest with
          | token :: rest' =>
              if token.lexeme = .mark .comma then
                match readItems depth stop rest' with
                | .ok (items, rest) => .ok (item :: items, rest)
                | .error fault => .error fault
              else if token.lexeme = .mark stop then .ok ([item], rest')
              else .error (.expectedMark stop (some token.position))
          | [] => .error (.expectedMark stop none)

end

def readCall (tokens : List Token) : Except Malformed (Call × List Token) :=
  match tokens with
  | [] => .error (.expectedName none)
  | token :: rest =>
      match token.lexeme with
      | .name verb =>
          match expectMark .opening rest with
          | .error fault => .error fault
          | .ok rest =>
              match readArguments (3 * rest.length + 3) .closing rest with
              | .ok (args, rest) => .ok (⟨verb, args, token.position⟩, rest)
              | .error fault => .error fault
      | _ => .error (.expectedName (some token.position))

/-- Reads what follows the first call: calls behind arrows up to the end. The
number bounds the calls; the number of tokens is always enough. -/
def readRest : Nat -> List Token -> Except Malformed Chain
  | _, [] => .ok []
  | 0, _ => .error .empty
  | bound + 1, token :: rest =>
      match token.lexeme with
      | .arrow =>
          match readCall rest with
          | .error fault => .error fault
          | .ok (call, rest) =>
              match readRest bound rest with
              | .ok calls => .ok (call :: calls)
              | .error fault => .error fault
      | .mark .semicolon =>
          match rest with
          | [] => .ok []
          | extra :: _ => .error (.extraStatement extra.position)
      | _ => .error (.expectedArrow token.position)

def ofTokens (tokens : List Token) : Except Malformed Chain :=
  match tokens with
  | [] => .error .empty
  | _ =>
      match readCall tokens with
      | .error fault => .error fault
      | .ok (call, rest) =>
          match readRest rest.length rest with
          | .ok calls => .ok (call :: calls)
          | .error fault => .error fault

def ofExpression (expression : String) : Except Malformed Chain :=
  match tokenize expression with
  | .ok tokens => ofTokens tokens
  | .error fault => .error fault

end Chain

/-! ## Values of tokens and calls -/

def Token.toValue (t : Token) : Value :=
  .ofFields [("type", .text t.lexeme.kind), ("value", .text t.lexeme.text),
    ("position", .number (Number.ofNat t.position))]

mutual

def Argument.toValue : Argument -> Value
  | .scalar v => v.toValue
  | .helper h => .ofFields [("helper", .text h.text)]
  | .list items => .list (Argument.toValues items)

def Argument.toValues : List Argument -> List Value
  | [] => []
  | item :: items => item.toValue :: Argument.toValues items

end

def Call.toValue (c : Call) : Value :=
  .ofFields [("verb", .text c.verb), ("args", .list (Argument.toValues c.args)),
    ("position", .number (Number.ofNat c.position))]

end Query

end OperatorConsole
