import LeafGrammar.Text.Blank
import LeafGrammar.Text.Utf8

/-!
# The settings file

    file  := entry*
    entry := ('export')? name ('=' value)? comment? end-of-line
    value := 'single quoted' | "double quoted" | the rest of the line

An entry that is none of these is skipped with its line. A quoted value may run
over several lines. A value may refer to a variable as `${name}`, or as
`${name:-text}` with a text for when it is not set.
-/

namespace LeafGrammar

/-- A variable: its name and what it is set to. -/
abbrev Variable := String × String

namespace Settings

/-- An entry of the file: a name, and the value that it is given, if any. -/
abbrev Entry := String × Option String

/-- Is `c` a blank within a line? -/
def isGap (c : Char) : Bool := Text.isMargin c && c != '\n'

/-- A text without the gap at its start. -/
def skipGap (s : List Char) : List Char := s.dropWhile isGap

/-- A text without its first line. -/
def skipLine (s : List Char) : List Char := (s.dropWhile (· != '\n')).drop 1

/-- The text up to the quote that closes it, and the text after that quote. A quote
after a backslash does not close, unless no other one does. -/
def upToQuote (quote : Char) : List Char → Option (List Char × List Char)
  | [] => none
  | '\\' :: c :: rest =>
    if c = quote then
      match upToQuote quote rest with
      | some (body, after) => some ('\\' :: c :: body, after)
      | none => some (['\\'], rest)
    else (upToQuote quote (c :: rest)).map fun (body, after) => ('\\' :: body, after)
  | c :: rest =>
    if c = quote then some ([], rest)
    else (upToQuote quote rest).map fun (body, after) => (c :: body, after)

/-- The character that a backslash and `c` stand for in a value in single quotes. -/
def singleEscape? : Char → Option Char
  | '\\' => some '\\'
  | '\'' => some '\''
  | _ => none

/-- The character that a backslash and `c` stand for in a value in double quotes. -/
def doubleEscape? : Char → Option Char
  | '\\' => some '\\'
  | '\'' => some '\''
  | '"' => some '"'
  | 'a' => some '\x07'
  | 'b' => some '\x08'
  | 'f' => some '\x0c'
  | 'n' => some '\n'
  | 'r' => some '\r'
  | 't' => some '\t'
  | 'v' => some '\x0b'
  | _ => none

/-- Put characters for their escapes. A backslash that starts none stays. -/
def unescape (escape? : Char → Option Char) : List Char → List Char
  | '\\' :: c :: rest =>
    match escape? c with
    | some d => d :: unescape escape? rest
    | none => '\\' :: unescape escape? (c :: rest)
  | c :: rest => c :: unescape escape? rest
  | [] => []

/-- The text before a blank that is followed by a comment. -/
def upToComment : List Char → List Char
  | [] => []
  | c :: rest => if Text.isMargin c && rest.head? == some '#' then [] else c :: upToComment rest

/-- A text without the blanks at its end. -/
def trimEnd (s : List Char) : List Char := (s.reverse.dropWhile Text.isMargin).reverse

/-- The value at the start of a text and the text after it, or none if a quote is
not closed. -/
def value? (s : List Char) : Option (List Char × List Char) :=
  match s with
  | '\'' :: rest => (upToQuote '\'' rest).map fun (body, after) =>
    (unescape singleEscape? body, after)
  | '"' :: rest => (upToQuote '"' rest).map fun (body, after) =>
    (unescape doubleEscape? body, after)
  | _ =>
    let (line, after) := s.span (· != '\n')
    some (trimEnd (upToComment line), after)

/-- The text after the word `export` and a gap, where it starts with them. -/
def skipExport (s : List Char) : List Char :=
  let word := "export".toList
  let rest := s.drop word.length
  if word.isPrefixOf s && (rest.head?.map isGap).getD false then skipGap rest else s

/-- The name at the start of a text and the text after it. A comment stands where a
name is missing. -/
def name? (s : List Char) : Option (Option (List Char) × List Char) :=
  match s with
  | '#' :: _ => some (none, s)
  | '\'' :: rest =>
    match rest.span (· != '\'') with
    | ([], _) | (_, []) => none
    | (name, _ :: after) => some (some name, after)
  | _ =>
    match s.span (fun c => c != '=' && c != '#' && !Text.isMargin c) with
    | ([], _) => none
    | (name, after) => some (some name, after)

/-- The text after a comment, or a gap, and the end of the line; none if something
else stands there. -/
def lineEnd? (s : List Char) : Option (List Char) :=
  match skipGap s with
  | [] => some []
  | '\n' :: rest => some rest
  | '#' :: rest => some (skipLine rest)
  | _ => none

/-- What is read from the start of a text: an entry or none, and the text after
it. -/
def entry (s : List Char) : Option Entry × List Char :=
  let start := skipExport (s.dropWhile Text.isMargin)
  match name? start with
  | none => (none, skipLine start)
  | some (name, after) =>
    let found : Option (Option (List Char) × List Char) × List Char :=
      match skipGap after with
      | '=' :: rest =>
        let rest := skipGap rest
        ((value? rest).map fun (v, after) => (some v, after), rest)
      | rest => (some (none, rest), rest)
    match found with
    | (none, stopped) => (none, skipLine stopped)
    | (some (value, after), _) =>
      match lineEnd? after with
      | none => (none, skipLine after)
      | some rest =>
        (name.map fun n => (String.ofList n, value.map String.ofList), rest)

/-- The entries of a text, in order. -/
def entries (s : List Char) : List Entry :=
  let found := entry s
  if _h : found.2.length < s.length then found.1.toList ++ entries found.2 else found.1.toList
termination_by s.length

/-- The variable that a text refers to: its name, the text for when it is not set,
and how many characters the reference takes after its first one. -/
def reference? (s : List Char) : Option (String × List Char × Nat) :=
  match s with
  | '\x7b' :: rest =>
    let (name, after) := rest.span (fun c => c != '\x7d' && c != ':')
    match after with
    | '\x7d' :: _ => some (String.ofList name, [], name.length + 2)
    | ':' :: '-' :: rest =>
      let (text, after) := rest.span (· != '\x7d')
      if after.isEmpty then none
      else some (String.ofList name, text, name.length + text.length + 4)
    | _ => none
  | _ => none

/-- A value with what its references stand for; the first `skip` characters belong
to a reference that has been dealt with. -/
def expand (lookup : String → Option String) : List Char → Nat → List Char
  | [], _ => []
  | _ :: rest, skip + 1 => expand lookup rest skip
  | c :: rest, 0 =>
    match if c = '$' then reference? rest else none with
    | some (name, text, length) =>
      ((lookup name).map String.toList).getD text ++ expand lookup rest length
    | none => c :: expand lookup rest 0

/-- Give a name a value. A name that is there already keeps its place. -/
def assign (name : String) (value : Option String) : List Entry → List Entry
  | [] => [(name, value)]
  | e :: rest => if e.1 = name then (name, value) :: rest else e :: assign name value rest

/-- What a reference to a name stands for: what the file has given it so far, else
what the environment gives it. A name without a value stands for nothing. -/
def referent (environment : List Variable) (soFar : List Entry) (name : String) :
    Option String :=
  match soFar.lookup name with
  | some value => some (value.getD "")
  | none => environment.lookup name

/-- The names of a file and their last values, references put in, on top of
`soFar`. -/
def resolve (environment : List Variable) : List Entry → List Entry → List Entry
  | [], soFar => soFar
  | (name, value) :: rest, soFar =>
    let value := value.map fun v =>
      String.ofList (expand (referent environment soFar) v.toList 0)
    resolve environment rest (assign name value soFar)

/-- A text without the byte order mark at its start. -/
def withoutMark : List Char → List Char
  | '\uFEFF' :: rest => rest
  | s => s

/-- The names that a file sets, in the order in which they first stand in it, and
their last values. -/
def fileEntries (environment : List Variable) (file : String) : List Entry :=
  resolve environment (entries (Text.Utf8.unifyLines (withoutMark file.toList) [])) []

end Settings

end LeafGrammar
