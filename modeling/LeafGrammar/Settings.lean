import LeafGrammar.Fault
import LeafGrammar.Settings.File
import LeafGrammar.Text.Case

/-!
# Settings

Two settings, read from environment variables and from a settings file. The names
of variables are compared without regard to case, and a variable of the
environment goes before one of the file.
-/

namespace LeafGrammar

/-- The settings. -/
structure Settings where
  /-- Report every application of a rule. -/
  trace : Bool
  /-- The least level of messages when none is asked for. -/
  logLevel : String
deriving DecidableEq, Repr

namespace Settings

/-- The settings when nothing is set. -/
def default : Settings := ⟨false, "WARNING"⟩

/-- The variable that sets `trace`, in lower case. -/
def traceVariable : String := "sparser_trace"

/-- The variable that sets `logLevel`, in lower case. -/
def levelVariable : String := "sparser_log_level"

/-- The truth value that a text stands for. -/
def truth? (s : String) : Option Bool :=
  let word := Text.asciiLower s
  if ["1", "true", "t", "yes", "y", "on"].contains word then some true
  else if ["0", "false", "f", "no", "n", "off"].contains word then some false
  else none

/-- The last value with a name. The name is given in lower case. -/
def last? {α : Type} (name : String) (bindings : List (String × α)) : Option α :=
  (bindings.reverse.find? fun b => Text.asciiLower b.1 == name).map (·.2)

/-- Read the settings from the environment and the text of a settings file. -/
def read (environment : List Variable) (file : String) : Except Fault Settings := do
  let inFile := fileEntries environment file
  let value (name : String) : Option String :=
    (last? name environment).or (last? name inFile).join
  let trace ← match value traceVariable with
    | none => pure default.trace
    | some s =>
      match truth? s with
      | some b => pure b
      | none => throw (.notATruthValue "trace")
  return ⟨trace, (value levelVariable).getD default.logLevel⟩

end Settings

end LeafGrammar
