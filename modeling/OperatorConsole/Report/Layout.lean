import OperatorConsole.Text.Basic

/-!
# Rules and boxes

Reports are plain text with rules, boxes and borders drawn in line characters.  All
widths count 16-bit units.
-/

namespace OperatorConsole

namespace Report

def ruleWidth : Nat :=
  60

def line (c : Char) (count : Nat) : List Char :=
  List.replicate count c

def heavyRule : List Char :=
  line '═' ruleWidth

def lightRule : List Char :=
  line '─' ruleWidth

def joinLines : List (List Char) -> List Char :=
  Text.joinWith ['\n']

def page (lines : List String) : String :=
  String.ofList (joinLines (lines.map String.toList) ++ ['\n'])

/-- A title in the middle of a box; the box keeps its width when the title is wider. -/
def boxed (title : List Char) (innerWidth : Nat) : List Char :=
  let space := innerWidth - Text.width title
  let left := space / 2
  joinLines
    ['╭' :: (line '─' innerWidth ++ ['╮']),
      '│' :: (line ' ' left ++ title ++ line ' ' (space - left) ++ ['│']),
      '╰' :: (line '─' innerWidth ++ ['╯'])]

def sectionHead (title : String) : String :=
  String.ofList ('\n' :: (boxed title.toList (ruleWidth - 2) ++ ['\n']))

end Report

end OperatorConsole
