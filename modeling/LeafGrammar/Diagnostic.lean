import LeafGrammar.Fault
import LeafGrammar.Number.Literal
import LeafGrammar.Text.Blank
import LeafGrammar.Text.Slice

/-!
# Rendering parse failures

A parse failure that knows its text and offset is rendered as a headline, the
whole text on one line and a caret under the offset. The line shows each line
feed as a backslash and an `n`; the caret's column counts the characters of the
text before the offset as they are shown.
-/

namespace LeafGrammar

/-- The text on one line: each line feed as a backslash and an `n`. -/
def oneLine (s : List Char) : List Char :=
  s.flatMap fun c => if c = '\n' then ['\\', 'n'] else [c]

/-- The column of the caret for offset `pos`. -/
def caretColumn (source : List Char) (pos : Int) : Nat := (oneLine (Text.before source pos)).length

/-- The text on one line and a caret under the offset `pos`. -/
def caretSnippet (source : List Char) (pos : Int) : String :=
  String.ofList (oneLine source ++ '\n' :: (List.replicate (caretColumn source pos) ' ' ++ ['^']))

namespace ParseFailure

/-- Does the failure have words of its own? -/
def detail? (f : ParseFailure) : Option String :=
  f.detail.filter fun d => !(Text.trimMargins d.toList).isEmpty

/-- What stands at the offset: a character, or the end of the text. Offsets are
shown from one. -/
def location (source : List Char) (pos : Int) : Except Fault String :=
  if (source.length : Int) ≤ pos then do
    return "end of input at position " ++ (← Number.showInt (pos + 1))
  else
    match Text.charAt? source pos with
    | none => .error .textIndex
    | some c => do
      return "token " ++ Text.quoted (String.singleton c) ++ " at position "
        ++ (← Number.showInt (pos + 1))

/-- The first line of the rendering. -/
def headline (f : ParseFailure) : Except Fault String :=
  match f.pos, f.source with
  | some pos, some source => do
    let place ← location source pos.toInt
    match f.detail? with
    | some d => return d ++ " (unexpected " ++ place ++ ")"
    | none => return "Unexpected " ++ place
  | _, _ => .ok (f.detail?.getD "Parse failure")

/-- The full rendering. -/
def render (f : ParseFailure) : Except Fault String := do
  let head ← f.headline
  match f.pos, f.source with
  | some pos, some source =>
    return head ++ "\n\n" ++ caretSnippet source pos.toInt ++ "\n"
  | _, _ => return head

end ParseFailure

/-- The full text of a fault: a parse failure is rendered, any other gives its
message. -/
def Fault.render : Fault → Except Fault String
  | .parse f => f.render
  | f => .ok f.message

end LeafGrammar
