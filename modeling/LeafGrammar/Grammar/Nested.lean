import LeafGrammar.Grammar.Lexeme

/-!
# Nested digits

    nest := '(' DIGIT nest ')' | nothing

The tokens are the digits in nesting order.
-/

namespace LeafGrammar.Grammar

/-- The grammar of nested digits. -/
def nestedDigits : Build Rule := do
  let opened ← symbol "\\("
  let digit ← lexeme "\\d"
  let head ← Build.andThen opened (.rule digit)
  let inner ← Build.markInjection head
  let closed ← symbol "\\)"
  let nest ← Build.andThen inner (.rule closed)
  let nothing ← Build.empty
  let whole ← Build.orElse nest (.rule nothing)
  Build.inject whole

end LeafGrammar.Grammar
