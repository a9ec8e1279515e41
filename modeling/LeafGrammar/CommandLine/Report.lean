import LeafGrammar.CommandLine.Arguments
import LeafGrammar.Settings

/-!
# Carrying out a request

Exit codes: 0 for success, 1 for a parse failure, 2 for a grammar or usage
error, 3 for a fault raised while the result was built. A token that cannot be
shown is a fault that leaves the program after the tokens before it have been
printed.
-/

namespace LeafGrammar

/-- How the program ends. -/
inductive Ending where
  | exit (code : Nat)
  /-- A fault that nothing catches. -/
  | escaped (f : Fault)
  | outOfFuel

/-- What the program has printed and how it ends. -/
structure Report where
  ending : Ending
  stdout : String
  stderr : String

namespace Report

/-- An exit code with a text on standard error. -/
def failed (code : Nat) (stderr : String) : Report := ⟨.exit code, "", stderr⟩

/-- A fault that nothing catches, before anything was printed. -/
def escape (f : Fault) : Report := ⟨.escaped f, "", ""⟩

/-- The digits of `i`, at least three. -/
def index (i : Nat) : String :=
  let ds := Nat.toDigits 10 i
  String.ofList (List.replicate (3 - ds.length) '0' ++ ds)

/-- One line for each token, from token number `i` on, after the lines in `acc`,
last first. -/
def tokenLines : Nat → List Value → List String → Ending × List String
  | _, [], acc => (.exit 0, acc)
  | i, token :: rest, acc =>
    match token.shown with
    | .error f => (.escaped f, acc)
    | .ok shown => tokenLines (i + 1) rest ((index i ++ ": " ++ shown ++ "\n") :: acc)

/-- The report on tokens. -/
def ofTokens (tokens : List Value) : Report :=
  let (ending, lines) := tokenLines 0 tokens []
  ⟨ending, String.join lines.reverse, ""⟩

/-- The report on a grammar fault. -/
def ofGrammarFault (cause : GrammarFault) : Report :=
  failed 2 ("[GRAMMAR ERROR] " ++ cause.message ++ "\n")

/-- The report on a fault that ended a parse. -/
def ofFault : Fault → Report
  | .parse failure =>
    let head := "[PARSE ERROR]\n"
    match failure.render with
    | .ok rendering => failed 1 (head ++ rendering ++ "\n")
    | .error f => ⟨.escaped f, "", head⟩
  | .grammar cause => ofGrammarFault cause
  | f => failed 3 ("[EVAL ERROR] " ++ f.kindName ++ " " ++ f.message ++ "\n")

/-- The report on the outcome of a parse. -/
def ofOutcome : Outcome (List Value) → Report
  | .value tokens => ofTokens tokens
  | .raised f => ofFault f
  | .outOfFuel => ⟨.outOfFuel, "", ""⟩

end Report

/-- Parse a text and report on it. -/
def Session.report (s : Session) (fuel : Nat) (r : Rule) (text : List Char) : Report × Session :=
  let (outcome, s) := s.parse fuel r text
  (Report.ofOutcome outcome, s)

namespace CommandLine

/-- The report on arguments that stop the program. -/
def Stop.report : Stop → Report
  | .help c => ⟨.exit 0, c.help, ""⟩
  | .usage c e => .failed 2 (c.usage ++ c.program ++ ": error: " ++ e.message ++ "\n")

/-- A rule that is ready to run and the source of its text. -/
structure Job where
  session : Session
  rule : Rule
  source : Source

/-- The program before it has read its text: it has ended, or it has a job. -/
inductive Start where
  | finished (r : Report)
  | job (j : Job)

/-- The sink that is standard error. -/
def stderrSink : SinkId := 0

/-- The session under the settings; debugging writes every message to standard
error. -/
def sessionFor (settings : Settings) (debug : Bool) : Session :=
  let journal := Journal.new settings.trace settings.logLevel
  .new (if debug then (journal.configure (some "TRACE") (some true) stderrSink).2 else journal)

/-- A bound as a value. -/
def boundValue : Option Int → Value
  | none => .null
  | some n => .int n

/-- How patterns are read: which pattern a text stands for under some switches, or why none. -/
abbrev PatternReader := String → Pattern.Flags → Except PatternFault Pattern

/-- The rule of a task. A leaf is repeated only if a bound is given. -/
def Task.build (read : PatternReader) : Task → Build Rule
  | .demo grammar => grammar.build
  | .matching pattern min max => do
    let rule ← Build.leafRead pattern (read pattern .none)
    if min.isSome || max.isSome then Build.rep rule (.int (min.getD 0)) (boundValue max)
    else return rule

/-- Read the arguments and build the rule, with the patterns as they are read. -/
def start (read : PatternReader) (settings : Settings) (args : List String) : Start :=
  match readRequest args with
  | .error stop => .finished stop.report
  | .ok request =>
    match request.task.build read (sessionFor settings request.debug) with
    | (.ok rule, session) => .job ⟨session, rule, request.source⟩
    | (.error (.grammar cause), _) => .finished (.ofGrammarFault cause)
    | (.error f, _) => .finished (.escape f)

/-- Parse the text that the source gave, or end with the fault that it gave. The
messages of the journal go before the report's own. -/
def Job.finish (fuel : Nat) (j : Job) (input : Except Fault (List Char)) : Report :=
  match input with
  | .error f => .escape f
  | .ok text =>
    let (report, session) := j.session.report fuel j.rule text
    { report with stderr := session.journal.textSince 0 (· == stderrSink) ++ report.stderr }

/-- A path without empty and idle parts. -/
def normalPath (path : String) : String :=
  let parts := (path.splitOn "/").filter fun p => !p.isEmpty && p != "."
  let body := "/".intercalate parts
  if path.startsWith "/" then rootOf path ++ body else if parts.isEmpty then "." else body
where
  /-- Two slashes are a root of their own; more than two are one. -/
  rootOf (path : String) : String :=
    if path.startsWith "//" && !path.startsWith "///" then "//" else "/"

/-- The text of a file's bytes. -/
def decodeInput (bytes : List UInt8) : Except Fault (List Char) :=
  (Text.Utf8.decode bytes).mapError .undecodable

end CommandLine

end LeafGrammar
