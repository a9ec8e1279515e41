import LeafGrammar.Value.Basic

/-!
# The shown form of values

Texts are quoted, collections written with their brackets, a tuple of one item
with a trailing comma. An integer of too many digits cannot be shown, and then
nothing that holds it can. How deep collections are nested does not matter here:
the bound that an interpreter sets for that is left out.
-/

namespace LeafGrammar.Value

/-- Parts joined by a comma and a space. -/
def commaJoin (parts : List String) : String := ", ".intercalate parts

mutual

/-- The shown form of a value. -/
def shown : Value → Except Fault String
  | .null => .ok "None"
  | .truth b => .ok (if b then "True" else "False")
  | .int n => Number.showInt n
  | .float x => .ok (Number.valueStyle.format x)
  | .nan _ => .ok Number.valueStyle.nanName
  | .text s => .ok (Text.quoted s)
  | .list vs => do
    let parts ← shownAll vs
    return "[" ++ commaJoin parts ++ "]"
  | .tuple vs => do
    match ← shownAll vs with
    | [part] => return "(" ++ part ++ ",)"
    | parts => return "(" ++ commaJoin parts ++ ")"
  | .dict es => do
    let parts ← shownEntries es
    return "\x7b" ++ commaJoin parts ++ "\x7d"

/-- The shown forms of some values, in order. -/
def shownAll : List Value → Except Fault (List String)
  | [] => .ok []
  | v :: rest => do
    let part ← shown v
    let parts ← shownAll rest
    return part :: parts

/-- The shown forms of dictionary entries, in order. -/
def shownEntries : List (Value × Value) → Except Fault (List String)
  | [] => .ok []
  | (k, v) :: rest => do
    let key ← shown k
    let value ← shown v
    let parts ← shownEntries rest
    return (key ++ ": " ++ value) :: parts

end

/-- The shown form of a token list. -/
def shownList (tokens : List Value) : Except Fault String := shown (.list tokens)

end LeafGrammar.Value
