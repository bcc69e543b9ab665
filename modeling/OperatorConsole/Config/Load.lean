import OperatorConsole.Config.Variables
import OperatorConsole.Json.Reader

/-!
# Loading a configuration

Overrides win over environment variables, which win over a file, which wins over the
standard settings.
-/

namespace OperatorConsole

namespace Config

/-- Issues as they are reported; one about the whole is about the configuration. -/
def invalid (issues : List Issue) : Failure :=
  .validation (.invalidValue "config"
    (some (Text.joinStrings "; " (issues.map (Issue.textWith "config: ")))))

def ofLayers (layers : List Layer) : Except Failure Config :=
  (check (.ofFields (Layer.merge layers))).toExcept.mapError invalid

/-- Overrides must not be null; anything else that is no record overrides nothing. -/
def overridesLayer : Value -> Except Failure Layer
  | .null => .error (.fault .wrongType
      "Cannot read properties of null (reading 'databaseLogging')")
  | v => .ok (.ofFields v.fields)

def loadOver (base : Layer) (overrides : Value) (given : Variables) :
    Except Failure Config := do
  let fromVariables ← given.layer
  let fromOverrides ← overridesLayer overrides
  ofLayers [base, fromVariables, fromOverrides]

def load (overrides : Value) (given : Variables) : Except Failure Config :=
  loadOver .empty overrides given

/-- Loads a configuration from the content of a file; there is no content if the file
cannot be read. -/
def loadFile (path : String) (content : Option String) (overrides : Value)
    (given : Variables) : Except Failure Config :=
  match content.bind Json.parse? with
  | none => .error (.validation (.invalidValue "config" (some ("could not read " ++ path))))
  | some document => do
      let settings ← (checkPartial document).toExcept.mapError invalid
      loadOver (.ofFields settings) overrides given

end Config

end OperatorConsole
