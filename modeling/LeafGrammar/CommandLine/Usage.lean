import LeafGrammar.Grammar.Catalogue

/-!
# Usage texts

What the command line says about itself: the usage lines, the help texts and the
complaints about arguments.
-/

namespace LeafGrammar.CommandLine

/-- The program itself or one of its commands. -/
inductive Command where
  | top
  | matching
  | demo
deriving DecidableEq, Repr

namespace Command

/-- The name under which the program speaks. -/
def program : Command → String
  | .top => "sparserc"
  | .matching => "sparserc match"
  | .demo => "sparserc demo"

/-- The lines joined, each ended. -/
def lines (ls : List String) : String := String.join (ls.map (· ++ "\n"))

/-- The usage lines. -/
def usage : Command → String
  | .top => lines ["usage: sparserc [-h] \x7bmatch,demo\x7d ..."]
  | .matching => lines
      ["usage: sparserc match [-h] [--min MIN] [--max MAX]",
       "                      (--text TEXT | --input INPUT) [-D]",
       "                      pattern"]
  | .demo => lines
      ["usage: sparserc demo [-h] (--text TEXT | --input INPUT) [-D] \x7bcalc,kv,nested\x7d"]

/-- The help text after the usage lines. -/
def details : Command → String
  | .top => lines
      ["",
       "sparser parser-combinator CLI",
       "",
       "positional arguments:",
       "  \x7bmatch,demo\x7d",
       "    match       parse the input with a single regex leaf",
       "    demo        parse the input with a bundled grammar",
       "",
       "options:",
       "  -h, --help    show this help message and exit"]
  | .matching => lines
      ["",
       "positional arguments:",
       "  pattern        regular expression for the leaf",
       "",
       "options:",
       "  -h, --help     show this help message and exit",
       "  --min MIN      minimum repetitions (default 0 when --max is set)",
       "  --max MAX      maximum repetitions (default unbounded)",
       "  --text TEXT    input text given directly",
       "  --input INPUT  input file path ('-' for stdin)",
       "  -D, --debug    trace every rule application on stderr"]
  | .demo => lines
      ["",
       "positional arguments:",
       "  \x7bcalc,kv,nested\x7d  bundled grammar name",
       "",
       "options:",
       "  -h, --help        show this help message and exit",
       "  --text TEXT       input text given directly",
       "  --input INPUT     input file path ('-' for stdin)",
       "  -D, --debug       trace every rule application on stderr"]

/-- The full help text. -/
def help (c : Command) : String := c.usage ++ c.details

end Command

/-- What is wrong with the arguments. -/
inductive UsageError where
  | required (name : String)
  | invalidChoice (name given : String) (choices : List String)
  | sourceRequired
  | conflict (name other : String)
  | expectedOne (name : String)
  | invalidInt (name given : String)
  | ambiguous (given : String) (candidates : List String)
  | ignoredValue (name given : String)
  | unrecognized (given : List String)
deriving DecidableEq, Repr

/-- The words for a complaint. -/
def UsageError.message : UsageError → String
  | .required name => "the following arguments are required: " ++ name
  | .invalidChoice name given choices =>
    "argument " ++ name ++ ": invalid choice: " ++ Text.quoted given ++ " (choose from "
      ++ ", ".intercalate (choices.map Text.quoted) ++ ")"
  | .sourceRequired => "one of the arguments --text --input is required"
  | .conflict name other => "argument " ++ name ++ ": not allowed with argument " ++ other
  | .expectedOne name => "argument " ++ name ++ ": expected one argument"
  | .invalidInt name given => "argument " ++ name ++ ": invalid int value: " ++ Text.quoted given
  | .ambiguous given candidates =>
    "ambiguous option: " ++ given ++ " could match " ++ ", ".intercalate candidates
  | .ignoredValue name given =>
    "argument " ++ name ++ ": ignored explicit argument " ++ Text.quoted given
  | .unrecognized given => "unrecognized arguments: " ++ " ".intercalate given

end LeafGrammar.CommandLine
