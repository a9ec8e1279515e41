import LeafGrammar.Session.Builder

/-!
# Lexemes

The pieces of the bundled grammars: optional white space, a token after optional
white space, and punctuation that leaves no token. No leaf matches at the end of
the text, so optional white space is a repetition of a leaf for some, not a leaf
for any amount.
-/

namespace LeafGrammar.Grammar

/-- Optional white space, dropped. -/
def spaces : Build Rule := do
  let run ← Build.leaf "\\s+" .none
  let silent ← Build.dropTokens run
  Build.optional silent

/-- The pattern after optional white space; its text is the token. -/
def lexemeOf (pattern : Value) : Build Rule := do
  let blank ← spaces
  let token ← Build.leafOf pattern .none
  Build.andThen blank (.rule token)

/-- The pattern after optional white space, without a token. -/
def symbolOf (pattern : Value) : Build Rule := do
  let token ← lexemeOf pattern
  Build.dropTokens token

/-- `lexemeOf` for a text. -/
def lexeme (pattern : String) : Build Rule := lexemeOf (.text pattern)

/-- `symbolOf` for a text. -/
def symbol (pattern : String) : Build Rule := symbolOf (.text pattern)

end LeafGrammar.Grammar
