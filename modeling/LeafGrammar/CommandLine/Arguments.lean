import LeafGrammar.CommandLine.Usage

/-!
# Reading the arguments

The program takes a command, and the command takes options and one positional
argument, in any order. An option may be cut short as long as one option only
starts that way, and its value may be joined to it by an equals sign. All
arguments are sorted into options and others first; then they are taken up from
left to right.
-/

namespace LeafGrammar.CommandLine

/-- What an option is for. -/
inductive Purpose where
  | help
  | min
  | max
  | text
  | input
  | debug
deriving DecidableEq, Repr

/-- An option: its purpose, its names and whether it takes a value. -/
structure Switch where
  purpose : Purpose
  names : List String
  takesValue : Bool
deriving DecidableEq, Repr

/-- The name of an option in complaints. -/
def Switch.title (o : Switch) : String := "/".intercalate o.names

/-- The options of a command. -/
def switches : Command → List Switch
  | .top => [help]
  | .matching => [help, ⟨.min, ["--min"], true⟩, ⟨.max, ["--max"], true⟩, text, input, debug]
  | .demo => [help, text, input, debug]
where
  help : Switch := ⟨.help, ["-h", "--help"], false⟩
  text : Switch := ⟨.text, ["--text"], true⟩
  input : Switch := ⟨.input, ["--input"], true⟩
  debug : Switch := ⟨.debug, ["-D", "--debug"], false⟩

/-- The names of a command's options, each with its option. -/
def namedSwitches (c : Command) : List (String × Switch) :=
  (switches c).flatMap fun o => o.names.map fun n => (n, o)

/-- What an argument is. -/
inductive Role where
  | positional
  /-- The two hyphens after which there are no options. -/
  | hyphens
  /-- An option under the name that was meant, with the value joined to it. -/
  | known (o : Switch) (name : String) (joined : Option String)
  | unknown

/-- An argument and what it is. -/
structure Word where
  given : String
  role : Role

/-- Is it a negative number, perhaps with a line feed after it? -/
def isNegativeNumber (s : List Char) : Bool :=
  match s with
  | '-' :: body =>
    let body := if body.getLast? = some '\n' then body.dropLast else body
    let (whole, rest) := body.span Text.isDecimalDigit
    match rest with
    | [] => !whole.isEmpty
    | '.' :: fraction => !fraction.isEmpty && fraction.all Text.isDecimalDigit
    | _ => false
  | _ => false

/-- The text before the first equals sign and the text after it. -/
def splitEquals (s : List Char) : List Char × Option (List Char) :=
  match s.span (· != '=') with
  | (name, []) => (name, none)
  | (name, _ :: value) => (name, some value)

/-- The options that an argument may be short for, each with the value joined to
it. After a single hyphen a letter may have its value right behind it. -/
def candidates (c : Command) (s : List Char) : List (Switch × String × Option String) :=
  match s with
  | '-' :: '-' :: _ =>
    let (short, value) := splitEquals s
    (namedSwitches c).filterMap fun (name, o) =>
      if short.isPrefixOf name.toList then
        some (o, name, value.map String.ofList)
      else none
  | _ =>
    (namedSwitches c).filterMap fun (name, o) =>
      if name.toList = s.take 2 then some (o, name, some (String.ofList (s.drop 2)))
      else if s.isPrefixOf name.toList then some (o, name, none)
      else none

/-- What an argument before the two hyphens is. -/
def roleOf (c : Command) (given : String) : Except UsageError Role :=
  let s := given.toList
  match s with
  | [] | ['-'] => .ok .positional
  | '-' :: _ =>
    match (namedSwitches c).lookup given with
    | some o => .ok (.known o given none)
    | none =>
      let (name, value) := splitEquals s
      match value, (namedSwitches c).lookup (String.ofList name) with
      | some v, some o => .ok (.known o (String.ofList name) (some (String.ofList v)))
      | _, _ =>
        match candidates c s with
        | [(o, name, v)] => .ok (.known o name v)
        | [] =>
          if isNegativeNumber s || s.contains ' ' then .ok .positional else .ok .unknown
        | several => .error (.ambiguous given (several.map fun (_, name, _) => name))
  | _ => .ok .positional

/-- All arguments and what they are. -/
def sortAll (c : Command) : List String → Except UsageError (List Word)
  | [] => .ok []
  | "--" :: rest => .ok (⟨"--", .hyphens⟩ :: rest.map fun g => ⟨g, .positional⟩)
  | given :: rest => do
    let role ← roleOf c given
    return ⟨given, role⟩ :: (← sortAll c rest)

/-- What a command has been given so far. -/
structure Given where
  positional : Option String
  min : Option Int
  max : Option Int
  text : Option String
  input : Option String
  debug : Bool
  /-- Arguments that have no meaning, last first. -/
  extras : List String

/-- Nothing yet. -/
def Given.nothing : Given := ⟨none, none, none, none, none, false, []⟩

/-- Why the program stops at its arguments. -/
inductive Stop where
  | help (c : Command)
  | usage (c : Command) (e : UsageError)

/-- Take up an integer. -/
def intValue (c : Command) (o : Switch) (value : String) : Except Stop Int :=
  match Number.readInt value with
  | .ok n => .ok n
  | .error _ => .error (.usage c (.invalidInt o.title value))

/-- Take up an option with its value. -/
def apply (c : Command) (o : Switch) (value : String) (g : Given) : Except Stop Given :=
  match o.purpose with
  | .help => .error (.help c)
  | .debug => .ok { g with debug := true }
  | .min => do return { g with min := some (← intValue c o value) }
  | .max => do return { g with max := some (← intValue c o value) }
  | .text =>
    if g.input.isSome then .error (.usage c (.conflict "--text" "--input"))
    else .ok { g with text := some value }
  | .input =>
    if g.text.isSome then .error (.usage c (.conflict "--input" "--text"))
    else .ok { g with input := some value }

/-- The flags that are written behind one hyphen: `o` and one for each further
letter. A letter that is no flag is refused, together with what follows it. -/
def flagsOf (c : Command) (o : Switch) : List Char → Except Stop (List Switch)
  | [] => .ok [o]
  | letter :: more =>
    match (namedSwitches c).lookup (String.ofList ['-', letter]) with
    | some next => do return o :: (← flagsOf c next more)
    | none => .error (.usage c (.ignoredValue o.title (String.ofList (letter :: more))))

/-- Take up some flags. -/
def applyFlags (c : Command) : List Switch → Given → Except Stop Given
  | [], g => .ok g
  | o :: rest, g => do applyFlags c rest (← apply c o "" g)

/-- Does an option's name start with two hyphens? -/
def isLong (name : String) : Bool := ['-', '-'].isPrefixOf name.toList

/-- Take up an option to which a text is joined. The text is the value of an option
that takes one; behind a single hyphen it is further flags, whether or not an
equals sign stands before it. -/
def applyJoined (c : Command) (o : Switch) (name joined : String) (g : Given) :
    Except Stop Given :=
  if o.takesValue then apply c o joined g
  else if isLong name || joined.isEmpty then .error (.usage c (.ignoredValue o.title joined))
  else do applyFlags c (← flagsOf c o joined.toList) g

/-- Take up the arguments of a command from left to right. The two hyphens before
or right after the positional argument go with it; `after` says that the
positional argument has just been taken up. -/
def takeUp (c : Command) (check : String → Except Stop Unit) :
    List Word → Bool → Given → Except Stop Given
  | [], _, g => .ok g
  | ⟨given, .unknown⟩ :: rest, _, g =>
    takeUp c check rest false { g with extras := given :: g.extras }
  | ⟨_, .known o name (some joined)⟩ :: rest, _, g => do
    let g ← applyJoined c o name joined g
    takeUp c check rest false g
  | ⟨_, .known o _ none⟩ :: rest, _, g =>
    if o.takesValue then
      match rest with
      | ⟨value, .positional⟩ :: rest => do
        let g ← apply c o value g
        takeUp c check rest false g
      | _ => .error (.usage c (.expectedOne o.title))
    else do
      let g ← apply c o "" g
      takeUp c check rest false g
  | ⟨given, .positional⟩ :: rest, _, g =>
    match g.positional with
    | some _ => takeUp c check rest false { g with extras := given :: g.extras }
    | none => do
      check given
      takeUp c check rest true { g with positional := some given }
  | ⟨given, .hyphens⟩ :: rest, after, g =>
    if after then takeUp c check rest false g
    else
      match g.positional, rest with
      | none, ⟨value, _⟩ :: rest => do
        check value
        takeUp c check rest false { g with positional := some value }
      | _, rest => takeUp c check rest false { g with extras := given :: g.extras }

/-- Where the text to be parsed comes from. -/
inductive Source where
  | text (s : String)
  | stdin
  | file (path : String)
deriving DecidableEq, Repr

/-- What a command is asked to do. -/
inductive Task where
  | matching (pattern : String) (min max : Option Int)
  | demo (grammar : Grammar.Bundled)

/-- A request that can be carried out. -/
structure Request where
  task : Task
  source : Source
  debug : Bool

/-- The source that a command was given. -/
def sourceOf (c : Command) (g : Given) : Except Stop Source :=
  match g.text, g.input with
  | some s, _ => .ok (.text s)
  | none, some "-" => .ok .stdin
  | none, some path => .ok (.file path)
  | none, none => .error (.usage c .sourceRequired)

/-- The name of a command's positional argument. -/
def positionalName : Command → String
  | .top => "cmd"
  | .matching => "pattern"
  | .demo => "grammar"

/-- Read the arguments of `match`. -/
def readMatching (args : List String) : Except Stop (Request × List String) := do
  let c := Command.matching
  let words ← (sortAll c args).mapError (.usage c)
  let g ← takeUp c (fun _ => .ok ()) words false .nothing
  match g.positional with
  | none => throw (.usage c (.required (positionalName c)))
  | some pattern =>
    let source ← sourceOf c g
    return (⟨.matching pattern g.min g.max, source, g.debug⟩, g.extras.reverse)

/-- The bundled grammar of a name, which must be one. -/
def grammarOf (name : String) : Except Stop Grammar.Bundled :=
  match Grammar.Bundled.ofName? name with
  | some grammar => .ok grammar
  | none =>
    let choices := Grammar.Bundled.all.map (·.name)
    .error (.usage .demo (.invalidChoice (positionalName .demo) name choices))

/-- Read the arguments of `demo`. -/
def readDemo (args : List String) : Except Stop (Request × List String) := do
  let c := Command.demo
  let words ← (sortAll c args).mapError (.usage c)
  let g ← takeUp c (fun name => (grammarOf name).map fun _ => ()) words false .nothing
  match g.positional with
  | none => throw (.usage c (.required (positionalName c)))
  | some name =>
    let grammar ← grammarOf name
    let source ← sourceOf c g
    return (⟨.demo grammar, source, g.debug⟩, g.extras.reverse)

/-- Read the arguments from the command on. -/
def readCommand (name : String) (args : List String) : Except Stop (Request × List String) :=
  if name = "match" then readMatching args
  else if name = "demo" then readDemo args
  else
    .error (.usage .top (.invalidChoice (positionalName .top) name ["match", "demo"]))

/-- Take up the arguments up to the command, and leave the rest to it; `extras` are
the arguments so far that have no meaning, last first. -/
def takeCommand : List Word → List String → Except Stop (Request × List String)
  | [], _ => .error (.usage .top (.required (positionalName .top)))
  | ⟨given, role⟩ :: rest, extras =>
    match role with
    | .unknown => takeCommand rest (given :: extras)
    | .known o name joined => do
      let _ ← match joined with
        | some j => applyJoined .top o name j .nothing
        | none => apply .top o "" .nothing
      takeCommand rest extras
    | .hyphens =>
      if rest.isEmpty then .error (.usage .top (.required (positionalName .top)))
      else .error (.usage .top (.invalidChoice (positionalName .top) given ["match", "demo"]))
    | .positional => do
      let (request, more) ← readCommand given (rest.map (·.given))
      return (request, extras.reverse ++ more)

/-- Read all arguments. -/
def readRequest (args : List String) : Except Stop Request := do
  let words ← (sortAll .top args).mapError (.usage .top)
  let (request, extras) ← takeCommand words []
  if extras.isEmpty then return request else throw (.usage .top (.unrecognized extras))

end LeafGrammar.CommandLine
