import LeafGrammar.Fault
import LeafGrammar.Text.Case

/-!
# The journal

Messages about parsing and running go to handlers. Each handler has a number of
its own, a least level, a sink and a format. `Journal.configure` installs one
handler and takes away the one it installed before; handlers of the host are never
touched. The host may take a handler away by its number. Nothing is written before
the first successful `configure`, by the host's handlers either.
-/

namespace LeafGrammar

/-- How important a message is. -/
inductive Level where
  | trace
  | debug
  | info
  | success
  | warning
  | error
  | critical
deriving DecidableEq, Repr

namespace Level

/-- The rank of a level; a higher one is more important. -/
def rank : Level → Nat
  | .trace => 5
  | .debug => 10
  | .info => 20
  | .success => 25
  | .warning => 30
  | .error => 40
  | .critical => 50

/-- The name of a level. -/
def name : Level → String
  | .trace => "TRACE"
  | .debug => "DEBUG"
  | .info => "INFO"
  | .success => "SUCCESS"
  | .warning => "WARNING"
  | .error => "ERROR"
  | .critical => "CRITICAL"

/-- All levels. -/
def all : List Level := [.trace, .debug, .info, .success, .warning, .error, .critical]

/-- The level of a name in upper case. -/
def ofName? (s : String) : Option Level := all.find? (·.name == s)

end Level

/-- The number of a handler. -/
abbrev HandlerId := Nat

/-- The number of a sink. -/
abbrev SinkId := Nat

/-- A line written to a sink by a handler. -/
structure Entry where
  handler : HandlerId
  sink : SinkId
  line : String
deriving DecidableEq, Repr

/-- Where messages of a least level go, and how they are written there. -/
structure Handler where
  id : HandlerId
  level : Level
  sink : SinkId
  /-- The line for a message of a level, from a part of the program. -/
  format : Level → String → String → String

namespace Handler

/-- Does the handler take messages of this level? -/
def takes (h : Handler) (level : Level) : Bool := h.level.rank ≤ level.rank

/-- What the handler makes of a message. -/
def entry (h : Handler) (level : Level) (speaker message : String) : Entry :=
  ⟨h.id, h.sink, h.format level speaker message⟩

end Handler

/-- Handlers, the settings that steer them and what has been written. -/
structure Journal where
  /-- Is every application of a rule reported? -/
  trace : Bool
  /-- The level taken when none is given. -/
  defaultLevel : String
  /-- Has `configure` succeeded before? -/
  enabled : Bool
  handlers : List Handler
  /-- The handler that `configure` installed last; it may be gone by now. -/
  own : Option HandlerId
  /-- No handler so far has this number or a higher one. -/
  nextId : HandlerId
  /-- What has been written, last first. -/
  written : List Entry

namespace Journal

/-- A journal with no handlers under the given settings. -/
def new (trace : Bool) (defaultLevel : String) : Journal :=
  ⟨trace, defaultLevel, false, [], none, 0, []⟩

/-- Take a handler away by its number; `none` if there is no such handler. -/
def remove? (j : Journal) (id : HandlerId) : Option Journal :=
  if j.handlers.any (·.id == id) then
    some { j with handlers := j.handlers.filter (·.id != id) }
  else none

/-- Take away the handler that `configure` installed last, if it is still there. -/
def removeOwn (j : Journal) : Journal :=
  match j.own with
  | none => j
  | some id => (j.remove? id).getD j

/-- The level that a request asks for: that of the given name, or of the default
one if the name is absent or empty. -/
def requested (j : Journal) (level : Option String) : String :=
  Text.upper ((level.filter (!·.isEmpty)).getD j.defaultLevel)

/-- A text with spaces after it up to a width. -/
def padded (width : Nat) (s : String) : String :=
  s ++ String.ofList (List.replicate (width - s.length) ' ')

/-- The time of day on every line. It is pinned, so that equal runs write equal
lines. -/
def clock : String := "00:00:00"

/-- The format of the handlers that `configure` installs: the time, the level, the
part of the program that speaks, the message. -/
def line (level : Level) (speaker message : String) : String :=
  clock ++ " │ " ++ padded 5 level.name ++ " │ " ++ padded 12 speaker ++ " ║ " ++ message ++ "\n"

/-- Add a handler under a new number, after those that are there. -/
def add (j : Journal) (level : Level) (sink : SinkId)
    (format : Level → String → String → String) : Journal :=
  { j with
    handlers := j.handlers ++ [⟨j.nextId, level, sink, format⟩]
    nextId := j.nextId + 1 }

/-- Install a handler for the sink and switch the journal on. Tracing is set first
and the previous handler is taken away before the level is looked at, so both
have happened even if the level is unknown. -/
def configure (j : Journal) (level : Option String) (trace : Option Bool) (sink : SinkId) :
    Except Fault Unit × Journal :=
  let j := { j with trace := trace.getD j.trace }.removeOwn
  let name := j.requested level
  match Level.ofName? name with
  | none => (.error (.value (.unknownLevel name)), j)
  | some lvl => (.ok (), { j.add lvl sink line with own := some j.nextId, enabled := true })

/-- The host takes away the handler that `configure` installed last; `none` if it
is gone already. Where none was ever installed there is nothing to take away. -/
def removeByHost (j : Journal) : Option Journal :=
  match j.own with
  | none => some j
  | some id => j.remove? id

/-- Would a message of this level be written anywhere? -/
def wants (j : Journal) (level : Level) : Bool := j.enabled && j.handlers.any (·.takes level)

/-- Write a message through every handler that takes its level, the oldest first. -/
def write (j : Journal) (level : Level) (speaker message : String) : Journal :=
  if j.enabled then
    let takers := j.handlers.filter (·.takes level)
    let entries := takers.map (·.entry level speaker message)
    { j with written := entries.reverse ++ j.written }
  else j

/-- What has been written to a sink since the journal held `already` entries. -/
def textSince (j : Journal) (already : Nat) (sinks : SinkId → Bool) : String :=
  let fresh := (j.written.take (j.written.length - already)).reverse
  String.join ((fresh.filter fun e => sinks e.sink).map (·.line))

end Journal

end LeafGrammar
