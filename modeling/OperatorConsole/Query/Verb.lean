import OperatorConsole.Text.Basic

/-!
# Verbs

The words of the query language.  Builder verbs shape a query, a terminal verb
runs it and result verbs work on what it gave; some words serve twice.  Verbs are
written in any letter case.

## Names

Each vocabulary lists its verbs once, in order, with the canonical spelling.
`allowedNames` holds, in lower case, every word that may stand before an opening
parenthesis: the verbs and the value helpers.
-/

namespace OperatorConsole

namespace Query

inductive BuilderVerb where
  | where | orWhere | whereIn | whereNotIn | whereBetween | whereNotBetween
  | whereNull | whereNotNull | whereDate | whereMonth | whereYear | whereTime | whereColumn
  | orderBy | orderByDesc | latest | oldest
  | limit | take | offset | skip
  | select | addSelect | distinct | groupBy | having
  deriving DecidableEq, Repr

inductive TerminalVerb where
  | get | first | find | findOrFail | sole | pluck | value
  | count | min | max | avg | sum | exists | doesntExist
  | paginate | simplePaginate | lazy
  deriving DecidableEq, Repr

inductive ResultVerb where
  | pluck | first | count | take | skip | sum | avg | min | max | toArray | toJson
  deriving DecidableEq, Repr

inductive Helper where
  | now
  | today
  deriving DecidableEq, Repr

def findVerb? (all : List α) (text : α -> String) (name : String) : Option α :=
  all.find? fun v => Text.lower (text v).toList == Text.lower name.toList

namespace BuilderVerb

def all : List BuilderVerb :=
  [.where, .orWhere, .whereIn, .whereNotIn, .whereBetween, .whereNotBetween,
    .whereNull, .whereNotNull, .whereDate, .whereMonth, .whereYear, .whereTime, .whereColumn,
    .orderBy, .orderByDesc, .latest, .oldest,
    .limit, .take, .offset, .skip,
    .select, .addSelect, .distinct, .groupBy, .having]

def text : BuilderVerb -> String
  | .where => "where"
  | .orWhere => "orWhere"
  | .whereIn => "whereIn"
  | .whereNotIn => "whereNotIn"
  | .whereBetween => "whereBetween"
  | .whereNotBetween => "whereNotBetween"
  | .whereNull => "whereNull"
  | .whereNotNull => "whereNotNull"
  | .whereDate => "whereDate"
  | .whereMonth => "whereMonth"
  | .whereYear => "whereYear"
  | .whereTime => "whereTime"
  | .whereColumn => "whereColumn"
  | .orderBy => "orderBy"
  | .orderByDesc => "orderByDesc"
  | .latest => "latest"
  | .oldest => "oldest"
  | .limit => "limit"
  | .take => "take"
  | .offset => "offset"
  | .skip => "skip"
  | .select => "select"
  | .addSelect => "addSelect"
  | .distinct => "distinct"
  | .groupBy => "groupBy"
  | .having => "having"

def ofName? : String -> Option BuilderVerb :=
  findVerb? all text

end BuilderVerb

namespace TerminalVerb

def all : List TerminalVerb :=
  [.get, .first, .find, .findOrFail, .sole, .pluck, .value,
    .count, .min, .max, .avg, .sum, .exists, .doesntExist,
    .paginate, .simplePaginate, .lazy]

def text : TerminalVerb -> String
  | .get => "get"
  | .first => "first"
  | .find => "find"
  | .findOrFail => "findOrFail"
  | .sole => "sole"
  | .pluck => "pluck"
  | .value => "value"
  | .count => "count"
  | .min => "min"
  | .max => "max"
  | .avg => "avg"
  | .sum => "sum"
  | .exists => "exists"
  | .doesntExist => "doesntExist"
  | .paginate => "paginate"
  | .simplePaginate => "simplePaginate"
  | .lazy => "lazy"

def ofName? : String -> Option TerminalVerb :=
  findVerb? all text

end TerminalVerb

namespace ResultVerb

def all : List ResultVerb :=
  [.pluck, .first, .count, .take, .skip, .sum, .avg, .min, .max, .toArray, .toJson]

def text : ResultVerb -> String
  | .pluck => "pluck"
  | .first => "first"
  | .count => "count"
  | .take => "take"
  | .skip => "skip"
  | .sum => "sum"
  | .avg => "avg"
  | .min => "min"
  | .max => "max"
  | .toArray => "toArray"
  | .toJson => "toJson"

def ofName? : String -> Option ResultVerb :=
  findVerb? all text

end ResultVerb

namespace Helper

def all : List Helper :=
  [.now, .today]

def text : Helper -> String
  | .now => "now"
  | .today => "today"

def ofName? : String -> Option Helper :=
  findVerb? all text

end Helper

def verbTexts : List String :=
  BuilderVerb.all.map BuilderVerb.text ++ TerminalVerb.all.map TerminalVerb.text ++
    ResultVerb.all.map ResultVerb.text

def canonicalVerb? (name : String) : Option String :=
  findVerb? verbTexts id name

/-- In lower case, every name that may stand before an opening parenthesis. -/
def allowedNames : List String :=
  (verbTexts ++ Helper.all.map Helper.text).map Text.lowerString

def isAllowedName (name : String) : Bool :=
  allowedNames.contains (Text.lowerString name)

end Query

end OperatorConsole
