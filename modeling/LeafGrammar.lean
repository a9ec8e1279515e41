import LeafGrammar.CommandLine.Report
import LeafGrammar.Main
import LeafGrammar.Pattern.Gate
import LeafGrammar.Proofs.Engine.Derivation
import LeafGrammar.Proofs.Engine.Refinement
import LeafGrammar.Proofs.Rule.Graph
import LeafGrammar.Proofs.Session.Calls
import LeafGrammar.Proofs.Engine.Visits
import LeafGrammar.Proofs.Session.Resolution
import LeafGrammar.Proofs.Engine.Answers
import LeafGrammar.Proofs.Pattern.Matching
import LeafGrammar.Proofs.Pattern.Reads
import LeafGrammar.Proofs.Pattern.Keeping
import LeafGrammar.Proofs.Session.Parsing
import LeafGrammar.Proofs.Grammar.Lexeme
import LeafGrammar.Proofs.Grammar.Arithmetic
import LeafGrammar.Proofs.Grammar.Calculator
import LeafGrammar.Proofs.Grammar.Blocks
import LeafGrammar.Proofs.Grammar.KeyValue
import LeafGrammar.Proofs.Engine.Offsets
import LeafGrammar.Proofs.Engine.Termination
import LeafGrammar.Proofs.Grammar.Nested
import LeafGrammar.Proofs.Grammar.Termination
import LeafGrammar.Proofs.Engine.Silence
import LeafGrammar.Proofs.Diagnostic
import LeafGrammar.Proofs.Session.Diagnosis
import LeafGrammar.Proofs.Grammar.Evaluation
import LeafGrammar.Proofs.CommandLine.Report
import LeafGrammar.Proofs.Engine.Tracing
import LeafGrammar.Proofs.Engine.Displacement
import LeafGrammar.Proofs.Session.Tracing
import LeafGrammar.Proofs.Grammar.Reuse
import LeafGrammar.Proofs.Session.Heap
import LeafGrammar.Proofs.Engine.Bounds
import LeafGrammar.Proofs.Engine.Repetition
import LeafGrammar.Proofs.Session.Spelling
import LeafGrammar.Proofs.Grammar.Quoting
import LeafGrammar.Proofs.Session.Power
import LeafGrammar.Proofs.Engine.Algebra
import LeafGrammar.Proofs.Session.Laws
import LeafGrammar.Proofs.Engine.Waiting
import LeafGrammar.Proofs.Grammar.Safety
import LeafGrammar.Proofs.Engine.Legibility
import LeafGrammar.Proofs.Grammar.Legibility
import LeafGrammar.Proofs.Grammar.Balance
import LeafGrammar.Proofs.Journal.Messages
import LeafGrammar.Proofs.Journal.Handlers
import LeafGrammar.Proofs.Engine.Listing
import LeafGrammar.Proofs.Session.Logging
import LeafGrammar.Proofs.Text.Quoted
import LeafGrammar.Proofs.CommandLine.ReadBack
