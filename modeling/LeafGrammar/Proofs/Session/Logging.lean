import LeafGrammar.Proofs.Engine.Listing
import LeafGrammar.Proofs.Journal.Handlers
import LeafGrammar.Proofs.Session.Calls

/-!
# Logging, whatever has happened before

The handler that `configure` installs may be taken away by the host, or by a later call that then
asks for a level that is not known, and the number that was noted for it stays behind. The host has
handlers of its own, from the start or added later, and changes the settings when it likes.
`LogEvent` lists all this, and a history is a list of such events.

From the history alone it can be told whether a handler of `configure` is there, and with which
level and sink (`standing`). `Session.parse_logs` says that this is so after every history, that the
host keeps its handlers, and what a parse has written: each message once by the handler of
`configure` that stands and takes it, by no other handler of `configure`, and once by each handler of
the host that takes it, if `configure` has ever succeeded. The host's handlers may be on the sink that
`configure` is given, and a record whose text cannot be made out is written by nobody
(`Session.written_unlike_standing`).
-/

namespace LeafGrammar

/-! ### What a parse says -/

/-- A note about parsing as a message. -/
def Message.note (t : String) : Message := ⟨.debug, "parse", .ok t⟩

namespace Session

/-- What is reported of a rule that is run from the start of the text: nothing if the check stops it
or the trace is off. -/
def trail (s : Session) (fuel : Nat) (r : Rule) (text : List Char) : List Machine.Record :=
  match (Build.check r s).1 with
  | .error _ => []
  | .ok _ =>
    if s.journal.trace then
      Machine.reported s.slots text fuel (.visit r.node (.num 0) []) s.journal
    else []

/-- What is said at the end of a parse: why a result is not the tokens of the text. -/
def closing (text : List Char) : Outcome Result → List Message
  | .value result =>
    match conclude text result with
    | .ok _ => []
    | .error (_, reason) => [.note reason]
  | .raised _ | .outOfFuel => []

/-- All that a parse says: which rule is run, the trace, and what has kept it from succeeding. -/
def messages (s : Session) (fuel : Nat) (r : Rule) (text : List Char) : List Message :=
  match r.node.label with
  | .error _ => []
  | .ok label =>
    let opening := "parse " ++ label ++ " over " ++ toString text.length ++ " chars"
    let noted := s.note opening
    .note opening :: (noted.trail fuel r text).map Machine.Record.message ++
      closing text (noted.run fuel r text (.int 0)).1

theorem takes_note (s : Session) (t : String) :
    s.journal.Takes [.note t] (s.note t).journal := .write s.journal .debug "parse" t

theorem takes_trail (s : Session) (fuel : Nat) (r : Rule) (text : List Char) :
    s.journal.Takes ((s.trail fuel r text).map Machine.Record.message)
      (s.run fuel r text (.int 0)).2.journal := by
  obtain ⟨passed, hpassed⟩ := Build.check_snd r s
  have hstart : startOf (.int 0) = .ok (.num 0) := rfl
  unfold trail run
  rw [hstart]
  simp only
  generalize Build.check r s = checked at hpassed ⊢
  obtain ⟨verdict, s'⟩ := checked
  obtain rfl : s' = _ := hpassed
  cases verdict with
  | error f => exact .nil s.journal
  | ok _ =>
    unfold evaluate evaluateIn
    simp only
    split
    · exact Machine.takes_reported fuel _ s.journal
    · exact .nil s.journal

/-- **What a parse says goes into the journal**, and nothing else does. -/
theorem takes_messages (s : Session) (fuel : Nat) (r : Rule) (text : List Char) :
    s.journal.Takes (s.messages fuel r text) (s.parse fuel r text).2.journal := by
  unfold messages parse
  cases r.node.label with
  | error f => exact .nil s.journal
  | ok label =>
    simp only
    generalize "parse " ++ label ++ " over " ++ toString text.length ++ " chars" = opening
    have hopened := (s.takes_note opening).append ((s.note opening).takes_trail fuel r text)
    generalize (s.note opening).run fuel r text (.int 0) = ran at hopened ⊢
    obtain ⟨outcome, s'⟩ := ran
    cases outcome with
    | outOfFuel => simpa [closing] using hopened
    | raised f => simpa [closing] using hopened
    | value result =>
      cases hconclude : conclude text result with
      | ok tokens => simpa [closing, hconclude] using hopened
      | error failed =>
        obtain ⟨failure, reason⟩ := failed
        simpa [closing, hconclude] using hopened.append (s'.takes_note reason)

end Session

/-! ### Histories -/

/-- What can happen to the handlers, to the settings that steer them, and to the journal. -/
inductive LogEvent where
  /-- `configure` is called, with a level or without, and with a choice for the trace or without. -/
  | configure (level : Option String) (trace : Option Bool) (sink : SinkId)
  /-- The host takes away the handler that `configure` has installed last, if it is there. -/
  | hostRemoves
  /-- The host adds a handler of its own. -/
  | hostAdds (level : Level) (sink : SinkId) (format : Level → String → String → String)
  | setTrace (on : Bool)
  | setLevel (name : String)
  | parse (fuel : Nat) (r : Rule) (text : List Char)

/-- The session after an event. -/
def LogEvent.perform (s : Session) : LogEvent → Session
  | .configure level trace sink => { s with journal := (s.journal.configure level trace sink).2 }
  | .hostRemoves => { s with journal := s.journal.removeByHost.getD s.journal }
  | .hostAdds level sink format => { s with journal := s.journal.add level sink format }
  | .setTrace on => { s with journal := { s.journal with trace := on } }
  | .setLevel name => { s with journal := { s.journal with defaultLevel := name } }
  | .parse fuel r text => (s.parse fuel r text).2

/-- The default level after some events, the latest of which comes first. -/
def levelSetting (initial : String) : List LogEvent → String
  | [] => initial
  | .setLevel name :: _ => name
  | _ :: earlier => levelSetting initial earlier

/-- The level and sink of the latest call of `configure`, if its level was known and the host has not
taken the handler away since. -/
def standing (initial : String) : List LogEvent → Option (Level × SinkId)
  | [] => none
  | .configure level _ sink :: earlier =>
    (Journal.levelOf? level (levelSetting initial earlier)).map (·, sink)
  | .hostRemoves :: _ => none
  | _ :: earlier => standing initial earlier

/-- Has a call of `configure` asked for a level that was known? -/
def switchedOn (initial : String) : List LogEvent → Bool
  | [] => false
  | .configure level _ _ :: earlier =>
    (Journal.levelOf? level (levelSetting initial earlier)).isSome || switchedOn initial earlier
  | _ :: earlier => switchedOn initial earlier

namespace Session

/-- The session after some events, the latest of which comes first. -/
def after (s : Session) : List LogEvent → Session
  | [] => s
  | e :: earlier => e.perform (s.after earlier)

/-- The numbers that `configure` has given to handlers. -/
def installed (s : Session) : List LogEvent → List HandlerId
  | [] => []
  | .configure level trace sink :: earlier =>
    match (s.after earlier).journal.configure level trace sink with
    | (.ok _, j) => j.own.toList ++ s.installed earlier
    | (.error _, _) => s.installed earlier
  | _ :: earlier => s.installed earlier

/-- The handlers of the host: those that are there before any event, and those that it has added. -/
def hostHandlers (s : Session) : List LogEvent → List Handler
  | [] => s.journal.handlers
  | .hostAdds level sink format :: earlier =>
    s.hostHandlers earlier ++ [⟨(s.after earlier).journal.nextId, level, sink, format⟩]
  | _ :: earlier => s.hostHandlers earlier

/-- Before any events nothing has been logged, and all handlers are the host's. -/
def unlogged (s : Session) (hosts : Hosts) (trace : Bool) (level : String) : Session :=
  { s with journal := .newFor hosts trace level }

variable (s : Session) (hosts : Hosts) (trace : Bool) (initial : String)

theorem defaultLevel_after (history : List LogEvent) :
    ((s.unlogged hosts trace initial).after history).journal.defaultLevel =
      levelSetting initial history := by
  induction history with
  | nil => rfl
  | cons e earlier ih =>
    rw [after]
    generalize (s.unlogged hosts trace initial).after earlier = now at ih ⊢
    cases e with
    | configure level trace' sink => exact (Journal.defaultLevel_configure ..).trans ih
    | hostRemoves =>
      rw [LogEvent.perform, Journal.removeByHost_getD]
      exact (Journal.defaultLevel_removeOwn _).trans ih
    | parse fuel r text =>
      obtain ⟨written, hj⟩ := (now.takes_messages fuel r text).exists_eq
      rw [LogEvent.perform, hj]
      exact ih
    | setLevel name => rfl
    | _ => exact ih

/-- The account is right after every history: each event keeps it. -/
theorem ledger_after (history : List LogEvent) :
    ((s.unlogged hosts trace initial).after history).journal.Ledger
      ((s.unlogged hosts trace initial).installed history)
      ((s.unlogged hosts trace initial).hostHandlers history) (standing initial history) := by
  induction history with
  | nil => exact .newFor hosts trace initial
  | cons e earlier ih =>
    have hsetting := s.defaultLevel_after hosts trace initial earlier
    cases e with
    | configure level choice sink =>
      simp only [after, installed, hostHandlers, standing, ← hsetting, LogEvent.perform]
      generalize ((s.unlogged hosts trace initial).after earlier).journal = j at ih ⊢
      have hchosen : Journal.Ledger { j with trace := choice.getD j.trace } _ _ _ :=
        ih.congr rfl rfl rfl rfl
      have hremoved := hchosen.removeOwn
      rcases Journal.configure_cases j level choice sink with ⟨hlevel, f, h⟩ | ⟨least, hlevel, h⟩
      · rw [hlevel, h]
        exact hremoved
      · rw [hlevel, h]
        exact hremoved.install least sink
    | hostRemoves =>
      rw [after, LogEvent.perform, Journal.removeByHost_getD]
      exact ih.removeOwn
    | hostAdds level sink format => exact ih.addHost level sink format
    | parse fuel r text =>
      have htakes := ((s.unlogged hosts trace initial).after earlier).takes_messages fuel r text
      obtain ⟨written, hj⟩ := htakes.exists_eq
      rw [after, LogEvent.perform, hj]
      exact ih.congr rfl rfl rfl rfl
    | setTrace on => exact ih.congr rfl rfl rfl rfl
    | setLevel name => exact ih.congr rfl rfl rfl rfl

theorem enabled_after (history : List LogEvent) :
    ((s.unlogged hosts trace initial).after history).journal.enabled =
      switchedOn initial history := by
  induction history with
  | nil => rfl
  | cons e earlier ih =>
    have hsetting := s.defaultLevel_after hosts trace initial earlier
    rw [after]
    generalize (s.unlogged hosts trace initial).after earlier = now at ih hsetting ⊢
    cases e with
    | configure level choice sink =>
      have hremoved : ({ now.journal with
          trace := choice.getD now.journal.trace }.removeOwn).enabled = now.journal.enabled := by
        rw [Journal.removeOwn_eq]
      rw [switchedOn, ← hsetting, LogEvent.perform]
      rcases now.journal.configure_cases level choice sink with ⟨hlevel, f, h⟩ | ⟨least, hlevel, h⟩
      · rw [hlevel, h]
        exact hremoved.trans ih
      · rw [hlevel, h]
        rfl
    | hostRemoves =>
      rw [LogEvent.perform, Journal.removeByHost_getD, Journal.removeOwn_eq]
      exact ih
    | parse fuel r text =>
      obtain ⟨written, hj⟩ := (now.takes_messages fuel r text).exists_eq
      rw [LogEvent.perform, hj]
      exact ih
    | _ => exact ih

/-- **Logging, whatever has happened before.** After every history there is at most one handler of
`configure`, and its number is the one noted; the handlers of the host are all there. Of what a parse
then says, `configure` has each message written to a sink once and in order if its latest call was
for that sink and for a level that was known and is not above that of the message, and if the handler
has not been taken away since. It has nothing else written. Apart from that each handler of the host
writes what it takes to its own sink, if a call of `configure` has ever succeeded. -/
theorem parse_logs (history : List LogEvent) :
    let start := s.unlogged hosts trace initial
    let now := start.after history
    let live := now.journal.handlers.filter (·.id ∈ start.installed history)
    live.length ≤ 1 ∧ (∀ h ∈ live, now.journal.own = some h.id) ∧
      now.journal.handlers.filter (·.id ∉ start.installed history) = start.hostHandlers history ∧
      ∀ (fuel : Nat) (r : Rule) (text : List Char),
        let said := now.messages fuel r text
        ∃ entries : List Entry, (now.parse fuel r text).2.journal.written =
            entries.reverse ++ now.journal.written ∧
          (∀ sink, List.Forall₂ Message.IsWrittenAs
            (said.filter (Journal.isFor (standing initial history) sink))
            ((entries.filter fun e =>
              e.sink = sink ∧ e.handler ∈ start.installed history).map (·.line))) ∧
          (∀ h ∈ start.hostHandlers history, List.Forall₂ h.Writes
            (if switchedOn initial history then said.filter (h.takes ·.level) else [])
            (entries.filter (·.handler = h.id))) ∧
          ∀ e ∈ entries, e.handler ∈ start.installed history ∨
            ∃ h ∈ start.hostHandlers history, e.handler = h.id := by
  intro start now live
  have w : now.journal.Ledger (start.installed history) (start.hostHandlers history)
      (standing initial history) := s.ledger_after hosts trace initial history
  refine ⟨?_, ?_, w.hosts_eq, ?_⟩
  · have hlength := congrArg List.length w.standing_eq
    rw [List.length_map] at hlength
    rw [hlength]
    exact Option.length_toList_le
  · intro h hh
    obtain ⟨hmem, hid⟩ := List.mem_filter.mp hh
    exact w.own_eq h hmem (by simpa using hid)
  · intro fuel r text said
    have htakes : now.journal.Takes said (now.parse fuel r text).2.journal :=
      now.takes_messages fuel r text
    refine ⟨said.flatMap now.journal.entriesFor, congrArg Journal.written htakes.eq,
      w.forall₂_isWrittenAs htakes, fun h hh => ?_, fun e => w.handler_mem⟩
    rw [← s.enabled_after hosts trace initial history]
    exact w.forall₂_writes_host htakes hh

/-- A call with a level that is not known takes away the handler that is there and installs none. -/
example :
    standing "WARNING" [.configure (some "loud") none 2, .configure (some "debug") none 1] = none := by
  decide +kernel

/-- A letter `a`. -/
def letterA : Node := .leaf 0 (.ofRegex "a" (.one (.ofChar 'a') .exact))

/-- A host with one handler, number `0`, for `debug` on sink `0`, which writes bare messages. -/
def bareHost : Hosts := .single .debug 0 fun _ _ t => t

/-- Where `configure` is given the sink of a handler of the host, each of the two writes once what a
parse says. -/
theorem parse_logs_twice :
    let start := (Session.new (Journal.new false "WARNING")).unlogged bareHost false "WARNING"
    let history := [LogEvent.configure (some "DEBUG") none 0]
    let now := start.after history
    ∃ entries : List Entry,
      (now.parse 10 ⟨0, letterA, 0⟩ ['a']).2.journal.written =
        entries.reverse ++ now.journal.written ∧
      (entries.filter fun e => e.sink = 0 ∧ e.handler ∈ start.installed history).length = 1 ∧
      (entries.filter (·.handler = 0)).length = 1 := by
  refine ((parse_logs (.new (.new false "WARNING")) bareHost false "WARNING"
    [.configure (some "DEBUG") none 0]).2.2.2 10 ⟨0, letterA, 0⟩ ['a']).imp fun entries h => ?_
  obtain ⟨hwritten, hours, hhost, -⟩ := h
  refine ⟨hwritten, ?_, ?_⟩
  · rw [← List.length_map (f := (·.line)), ← (hours 0).length_eq]
    decide +kernel
  · rw [← (hhost ⟨0, .debug, 0, fun _ _ t => t⟩ List.mem_cons_self).length_eq]
    decide +kernel

/-- An integer that is too long to be written. -/
def longValue : Value := .int (Int.ofNat (Nat.pow 10 digitLimit))

/-- A letter in whose place there is that integer. -/
def longNumber : Node := .map 1 letterA ⟨"long", fun _ => .ok (.list [longValue])⟩

/-- The same, but the integer is dropped. -/
def droppedNumber : Node := .map 2 longNumber discard

/-- What is written may be unlike what the handler that stands would take. A sink that `configure`
has been given for errors alone gets what a handler of the host writes there, though no message is
an error. And of the five records of a derivation only four are written next to the opening of the
parse, where the handler that stands takes them all: the text of the fifth cannot be made out. -/
theorem written_unlike_standing :
    let quiet := Session.new (Journal.new false "WARNING")
    let errors := [LogEvent.configure (some "ERROR") none 0]
    let all := [LogEvent.configure (some "TRACE") (some true) 0]
    let besideHost := (quiet.unlogged bareHost false "WARNING").after errors
    let alone := (quiet.unlogged .none false "WARNING").after all
    (standing "WARNING" errors = some (.error, 0) ∧
      (besideHost.messages 10 ⟨0, letterA, 0⟩ ['a']).map (·.level) = [.debug] ∧
      (besideHost.parse 10 ⟨0, letterA, 0⟩ ['a']).2.journal.written =
        [⟨0, 0, "parse /a/ over 1 chars"⟩]) ∧
    standing "WARNING" all = some (.trace, 0) ∧
      (∃ listing, IsListing alone.slots ['a'] droppedNumber (.num 0) (.success [] (.num 1)) listing ∧
        listing.length = 5) ∧
      (alone.parse 10 ⟨0, droppedNumber, 0⟩ ['a']).2.journal.written.length = 1 + 4 := by
  refine ⟨⟨by decide +kernel, by decide +kernel, by decide +kernel⟩, by decide +kernel, ?_,
    by decide +kernel⟩
  have hletter : Lists #[] ['a'] letterA (.num 0) [] [] := .nil
  have hlong : Lists #[] ['a'] longNumber (.num 0) [.success [.text "a"] (.num 1)] _ :=
    Lists.nil.snoc rfl hletter rfl
  have hdropped : Lists #[] ['a'] droppedNumber (.num 0) [.success [longValue] (.num 1)] _ :=
    Lists.nil.snoc rfl hlong rfl
  exact ⟨_, ⟨_, _, hdropped, rfl, rfl⟩, rfl⟩

end Session

end LeafGrammar
