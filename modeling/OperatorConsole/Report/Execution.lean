import OperatorConsole.Calendar
import OperatorConsole.Report.Layout
import OperatorConsole.Report.Result

/-!
# Heads and feet of executions

What an operator sees around the output of a command: who ran what with which
options, and how it ended.
-/

namespace OperatorConsole

namespace Report

structure Header where
  commandName : String
  userName : String
  environment : String
  startedAt : Number
  options : Fields

structure Footer where
  completedAt : Number
  elapsedSeconds : Number
  exitCode : Number
  /-- What went wrong, if the execution failed with an error. -/
  error : Option String

namespace Header

def optionLines : Fields -> Except Failure (List (List Char))
  | [] => .ok []
  | (_, .absent) :: rest => optionLines rest
  | (key, v) :: rest => do
      let text ← resultChars v
      let lines ← optionLines rest
      .ok (("  - ".toList ++ key.toList ++ ": ".toList ++ text) :: lines)

def text (header : Header) : Except Failure String := do
  let started ← Calendar.displayText header.startedAt
  let options ← optionLines header.options
  let lines :=
    [boxed "COMMAND EXECUTION".toList 53, [], ("Command: " ++ header.commandName).toList,
      ("User: " ++ header.userName).toList, ("Started: " ++ started).toList,
      ("Environment: " ++ header.environment).toList] ++
    (if options.isEmpty then [] else "Options:".toList :: options) ++
    [heavyRule, []]
  .ok (String.ofList (joinLines lines ++ ['\n']))

end Header

namespace Footer

def statusText (exitCode : Number) : String :=
  if exitCode.equals 0 then "✅ SUCCESS" else "❌ FAILED"

def outcomeLines (footer : Footer) : Except Failure (List String) :=
  match footer.error with
  | some error => .ok ["❌ EXECUTION ERROR", "Error: " ++ error]
  | none => do
      let completed ← Calendar.displayText footer.completedAt
      .ok ["Completed: " ++ completed, s!"Duration: {footer.elapsedSeconds.toText}s",
        "Exit Code: " ++ footer.exitCode.toText, "Status: " ++ statusText footer.exitCode]

def text (footer : Footer) : Except Failure String := do
  let lines ← footer.outcomeLines
  .ok (String.ofList (joinLines ([] :: heavyRule :: lines.map String.toList) ++ ['\n']))

end Footer

end Report

end OperatorConsole
