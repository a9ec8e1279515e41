import LeafGrammar.Grammar.Lexeme
import LeafGrammar.Value.Table

/-!
# Key/value blocks

    body  := (pair (';' pair)* ';'?)?
    pair  := KEY '=' value
    value := '{' body '}' | QUOTED | BARE

A body means a dictionary. A quoted value means the text between the quotes with
each backslash taken off and the character after it kept.
-/

namespace LeafGrammar.Grammar

/-- Take off each backslash that has a character after it, and keep that
character. -/
def unescape : List Char → List Char
  | '\\' :: c :: rest => c :: unescape rest
  | c :: rest => c :: unescape rest
  | [] => []

/-- The text inside the quotes of a quoted value. -/
def unquotedText : Value → Except Fault String
  | .text s => .ok (String.ofList (unescape (Text.inner s.toList)))
  | .list _ | .tuple _ => .error (.kind .notText)
  | .dict _ => .error (.kind (.unhashable "slice"))
  | v => .error (.kind (.notSubscriptable v.kind))

/-- The first token without its quotes and escapes. -/
def unquote : Action where
  name := "_unquote"
  apply
    | [] => .error .listIndex
    | token :: _ => do return .list [.text (← unquotedText token)]

/-- The first two tokens as a pair. -/
def pairUp : Action where
  name := "_pair"
  apply
    | k :: v :: _ => .ok (.list [.tuple [k, v]])
    | _ => .error .listIndex

/-- The tokens as the entries of a dictionary. -/
def toTable : Action where
  name := "_to_dict"
  apply tokens := do return .list [← Value.tableOf tokens]

/-- The key/value grammar. A body does not start with the brace that opens a
block, so an empty rule starts the chain that both are on. -/
def keyValue : Build Rule := do
  let anchor ← Build.empty
  let brace ← symbol "\\\x7b"
  let opened ← Build.andThen anchor (.rule brace)
  let nested ← Build.markInjection opened
  let closed ← symbol "\\\x7d"
  let block ← Build.andThen nested (.rule closed)
  let quotedLexeme ← lexeme "\"(?:[^\"\\\\]|\\\\.)*\""
  let quoted ← Build.map quotedLexeme (.action unquote)
  let bare ← lexeme "[^\\s;\x7b\x7d=\"]+"
  let written ← Build.orElse block (.rule quoted)
  let value ← Build.orElse written (.rule bare)
  let key ← lexeme "[A-Za-z_][\\w.-]*"
  let equals ← symbol "="
  let named ← Build.andThen key (.rule equals)
  let assigned ← Build.andThen named (.rule value)
  let pair ← Build.map assigned (.action pairUp)
  let separator ← symbol ";"
  let another ← Build.andThen separator (.rule pair)
  let others ← Build.star another
  let list ← Build.andThen pair (.rule others)
  let lastSeparator ← symbol ";"
  let trailing ← Build.optional lastSeparator
  let pairs ← Build.andThen list (.rule trailing)
  let perhaps ← Build.optional pairs
  let tokens ← Build.andThen anchor (.rule perhaps)
  let table ← Build.map tokens (.action toTable)
  let body ← Build.inject table
  let tail ← spaces
  Build.andThen body (.rule tail)

end LeafGrammar.Grammar
