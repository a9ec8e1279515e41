import LeafGrammar.Number.Integral
import LeafGrammar.Text.Quoted
import LeafGrammar.Text.Utf8

/-!
# Faults

Everything that can go wrong, by cause. `Fault.kindName` is the name under which a
fault is reported and `Fault.message` its text. A parse failure is the one fault
whose full text may itself not exist (see `LeafGrammar.Diagnostic`), so here it
only gives its own words.
-/

namespace LeafGrammar

/-- The kinds of values. -/
inductive Kind where
  | null
  | truth
  | int
  | float
  | text
  | list
  | tuple
  | dict
deriving DecidableEq, Repr

/-- The name of a kind in messages. -/
def Kind.name : Kind → String
  | .null => "NoneType"
  | .truth => "bool"
  | .int => "int"
  | .float => "float"
  | .text => "str"
  | .list => "list"
  | .tuple => "tuple"
  | .dict => "dict"

/-- A failed parse: what was wrong, where, and in which text. -/
structure ParseFailure where
  detail : Option String
  pos : Option Integral
  source : Option (List Char)
deriving DecidableEq, Repr

/-- Why a pattern cannot be read. -/
inductive PatternCause where
  | missing (closer : Char)
  | unbalanced
  | unterminatedSet
  | nothingToRepeat
  | multipleRepeat
  | minAboveMax
  | countTooBig
  | danglingEscape
  | badEscape (c : Char)
  | incompleteEscape (written : String)
  | badHexEscape (written : String)
  | badRange
  | invalidReference
  | unknownGroup
  | openGroup
  | unknownExtension
  | missingGroupName
  | badGroupName
  | noFlagsAfterMinus
  | flagsTurnedOff
  | flagOnAndOff
deriving DecidableEq, Repr

/-- The words for a cause. -/
def PatternCause.words : PatternCause → String
  | .missing c => "missing ".push c
  | .unbalanced => "unbalanced parenthesis"
  | .unterminatedSet => "unterminated character set"
  | .nothingToRepeat => "nothing to repeat"
  | .multipleRepeat => "multiple repeat"
  | .minAboveMax => "min repeat greater than max repeat"
  | .countTooBig => "repeat count too big"
  | .danglingEscape => "bad escape (end of pattern)"
  | .badEscape c => "bad escape \\".push c
  | .incompleteEscape w => "incomplete escape \\" ++ w
  | .badHexEscape w => "bad hex escape \\" ++ w
  | .badRange => "bad character range"
  | .invalidReference => "invalid group reference"
  | .unknownGroup => "unknown group"
  | .openGroup => "cannot refer to an open group"
  | .unknownExtension => "unknown extension"
  | .missingGroupName => "missing group name"
  | .badGroupName => "bad character in group name"
  | .noFlagsAfterMinus => "bad inline flags: no flags after '-'"
  | .flagsTurnedOff => "bad inline flags: cannot turn flags off"
  | .flagOnAndOff => "bad inline flags: flag turned on and off"

/-- A cause and the offset in the pattern at which it was found. -/
structure PatternError where
  cause : PatternCause
  position : Nat
deriving DecidableEq, Repr

/-- The words for a pattern error. In a pattern of several lines the line and
column are given too. -/
def PatternError.message (e : PatternError) (source : List Char) : String :=
  let place := e.cause.words ++ " at position " ++ toString e.position
  if source.contains '\n' then
    let above := source.take e.position
    let line := above.count '\n' + 1
    let column := (above.reverse.takeWhile (· != '\n')).length + 1
    place ++ " (line " ++ toString line ++ ", column " ++ toString column ++ ")"
  else place

/-- A grammar that was built wrong. -/
inductive GrammarFault where
  /-- A leaf was given something other than a text. -/
  | patternKind (got : Kind)
  /-- A leaf was given a text that is no pattern. -/
  | badPattern (source : String) (error : PatternError)
  | minimum (shown : String)
  | maximum (least shown : String)
  | notCallable
  /-- A chain's injection point was resolved twice. -/
  | slotTaken
  /-- The check found an unresolved injection point after the rule so labelled. -/
  | unresolved (label : String)
  /-- A run came to an unresolved injection point. -/
  | reachedUnresolved
  | startOffset (shown : String)
  | custom (message : String)
deriving DecidableEq, Repr

/-- The text of a grammar fault. -/
def GrammarFault.message : GrammarFault → String
  | .patternKind k => "pattern must be a string, got " ++ k.name
  | .badPattern s e => "invalid pattern " ++ Text.quoted s ++ ": " ++ e.message s.toList
  | .minimum shown => "rep() min must be >= 0, got " ++ shown
  | .maximum least shown => "rep() max must be >= min (" ++ least ++ "), got " ++ shown
  | .notCallable => "map() needs a callable"
  | .slotTaken => "injection point already resolved; inject() may be called once per chain"
  | .unresolved label => "injection point after " ++ label ++ " used before inject()"
  | .reachedUnresolved => "injection point reached before inject() was called"
  | .startOffset shown => "start offset must be >= 0, got " ++ shown
  | .custom message => message

/-- An operation was given a value of a kind it does not take. -/
inductive KindFault where
  | notIterable (k : Kind)
  | notContainer (k : Kind)
  | unsupported (operator : String) (left right : Kind)
  | concatenate (left right : Kind)
  | multiply (right : Kind)
  | unhashable (name : String)
  | notSubscriptable (k : Kind)
  | notText
  | joinItem (index : Nat) (k : Kind)
  | entryNotSequence (index : Nat)
  | intArgument (k : Kind)
  | floatArgument (k : Kind)
  | operand (k : Kind)
deriving DecidableEq, Repr

/-- The text of a kind fault. -/
def KindFault.message : KindFault → String
  | .notIterable k => "'" ++ k.name ++ "' object is not iterable"
  | .notContainer k => "argument of type '" ++ k.name ++ "' is not iterable"
  | .unsupported op l r =>
    "unsupported operand type(s) for " ++ op ++ ": '" ++ l.name ++ "' and '" ++ r.name ++ "'"
  | .concatenate l r =>
    "can only concatenate " ++ l.name ++ " (not \"" ++ r.name ++ "\") to " ++ l.name
  | .multiply r => "can't multiply sequence by non-int of type '" ++ r.name ++ "'"
  | .unhashable name => "unhashable type: '" ++ name ++ "'"
  | .notSubscriptable k => "'" ++ k.name ++ "' object is not subscriptable"
  | .notText => "expected string or buffer"
  | .joinItem i k =>
    "sequence item " ++ toString i ++ ": expected str instance, " ++ k.name ++ " found"
  | .entryNotSequence i =>
    "cannot convert dictionary update sequence element #" ++ toString i ++ " to a sequence"
  | .intArgument k =>
    "int() argument must be a string, a bytes-like object or a real number, not '" ++ k.name ++ "'"
  | .floatArgument k => "float() argument must be a string or a real number, not '" ++ k.name ++ "'"
  | .operand k => "expected Rule or pattern string, got " ++ k.name

/-- The most digits an integer may have to be read from or written as text. -/
def digitLimit : Nat := 4300

/-- A value of the right kind that still cannot be used. -/
inductive ValueFault where
  | intLiteral (shown : String)
  | floatLiteral (shown : String)
  | tooManyDigitsToRead (digits : Nat)
  | tooManyDigitsToShow
  | entryLength (index length : Nat)
  | unknownLevel (name : String)
  | flagConflict
  | notANumberToInt
  | nullInPath
deriving DecidableEq, Repr

/-- The text of a value fault. -/
def ValueFault.message : ValueFault → String
  | .intLiteral shown =>
    "invalid literal for int() with base 10: " ++ String.ofList (shown.toList.take 200)
  | .floatLiteral shown => "could not convert string to float: " ++ shown
  | .tooManyDigitsToRead n =>
    "Exceeds the limit (" ++ toString digitLimit ++ " digits) for integer string conversion: "
      ++ "value has " ++ toString n ++ " digits; "
      ++ "use sys.set_int_max_str_digits() to increase the limit"
  | .tooManyDigitsToShow =>
    "Exceeds the limit (" ++ toString digitLimit ++ " digits) for integer string conversion; "
      ++ "use sys.set_int_max_str_digits() to increase the limit"
  | .entryLength i n =>
    "dictionary update sequence element #" ++ toString i ++ " has length " ++ toString n
      ++ "; 2 is required"
  | .unknownLevel name => "Level '" ++ name ++ "' does not exist"
  | .flagConflict => "ASCII, LOCALE and UNICODE flags are mutually incompatible"
  | .notANumberToInt => "cannot convert float NaN to integer"
  | .nullInPath => "embedded null byte"

/-- A number that does not fit. -/
inductive OverflowFault where
  | repetitionCount
  | intToFloat
  | quotient
  | infinityToInt
deriving DecidableEq, Repr

/-- The text of an overflow fault. -/
def OverflowFault.message : OverflowFault → String
  | .repetitionCount => "cannot fit 'int' into an index-sized integer"
  | .intToFloat => "int too large to convert to float"
  | .quotient => "integer division result too large for a float"
  | .infinityToInt => "cannot convert float infinity to integer"

/-- Why a file cannot be opened. -/
inductive FileFault where
  | missing
  /-- There is a directory under this name. -/
  | directory
  /-- A part of the path before the last is no directory. -/
  | noDirectory
deriving DecidableEq, Repr

/-- The text of a file fault without the path. -/
def FileFault.message : FileFault → String
  | .missing => "[Errno 2] No such file or directory"
  | .directory => "[Errno 21] Is a directory"
  | .noDirectory => "[Errno 20] Not a directory"

/-- Everything that can go wrong. -/
inductive Fault where
  | parse (failure : ParseFailure)
  | grammar (cause : GrammarFault)
  | kind (cause : KindFault)
  | value (cause : ValueFault)
  | missingKey (shown : String)
  | listIndex
  | textIndex
  | attribute (k : Kind) (name : String)
  | divisionByZero
  | floatDivisionByZero
  | customDivision (message : String)
  | overflow (cause : OverflowFault)
  | file (cause : FileFault) (path : String)
  | undecodable (error : Text.Utf8.DecodeError)
  /-- A setting that must be a truth value is none. -/
  | notATruthValue (field : String)
deriving DecidableEq, Repr

namespace Fault

/-- The name under which a fault is reported. -/
def kindName : Fault → String
  | .parse _ => "ParseFailure"
  | .grammar _ => "GrammarError"
  | .kind _ => "TypeError"
  | .value _ => "ValueError"
  | .missingKey _ => "KeyError"
  | .listIndex | .textIndex => "IndexError"
  | .attribute .. => "AttributeError"
  | .divisionByZero | .floatDivisionByZero | .customDivision _ => "ZeroDivisionError"
  | .overflow _ => "OverflowError"
  | .file .missing _ => "FileNotFoundError"
  | .file .directory _ => "IsADirectoryError"
  | .file .noDirectory _ => "NotADirectoryError"
  | .undecodable _ => "UnicodeDecodeError"
  | .notATruthValue _ => "ValidationError"

/-- The text of a byte offence. -/
def undecodableMessage (e : Text.Utf8.DecodeError) : String :=
  let place :=
    if e.count = 1 then
      "byte 0x" ++ String.ofList (Text.hexDigits 2 e.byte.toNat) ++ " in position "
        ++ toString e.position
    else
      "bytes in position " ++ toString e.position ++ "-" ++ toString (e.position + e.count - 1)
  "'utf-8' codec can't decode " ++ place ++ ": " ++ e.offence.reason

/-- The text of a fault. -/
def message : Fault → String
  | .parse f => f.detail.getD "Parse failure"
  | .grammar c => c.message
  | .kind c => c.message
  | .value c => c.message
  | .missingKey shown => shown
  | .listIndex => "list index out of range"
  | .textIndex => "string index out of range"
  | .attribute k name => "'" ++ k.name ++ "' object has no attribute '" ++ name ++ "'"
  | .divisionByZero => "division by zero"
  | .floatDivisionByZero => "float division by zero"
  | .customDivision message => message
  | .overflow c => c.message
  | .file cause path => cause.message ++ ": " ++ Text.quoted path
  | .undecodable e => undecodableMessage e
  | .notATruthValue field =>
    field ++ ": bool_parsing: Input should be a valid boolean, unable to interpret input"

end Fault

/-- Holds the builder to its contract: the condition, or a grammar fault with the
message. -/
def require (condition : Bool) (message : String) : Except Fault Unit :=
  if condition then .ok () else .error (.grammar (.custom message))

end LeafGrammar
