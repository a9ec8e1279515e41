import LeafGrammar.Fault
import LeafGrammar.Pattern.Flags
import LeafGrammar.Pattern.Gate
import LeafGrammar.Pattern.Matcher

/-!
# Reading patterns

A pattern's text is read from left to right, one element at a time, with the
open groups on a stack. Every offence is reported with the offset at which it is
found. A switch such as `(?i)` holds for the whole pattern wherever it stands:
when one is met, reading starts again under it. Back references are looked up
when the whole pattern has been read.
-/

namespace LeafGrammar.Pattern

/-! ### Characters -/

/-- The part of the pattern still to be read and its offset. -/
structure Scan where
  rest : List Char
  pos : Nat
deriving Repr

namespace Scan

/-- Past blanks and comments; `comment` says that a comment is open. -/
def skipVoid : List Char → Nat → Bool → Scan
  | [], n, _ => ⟨[], n⟩
  | c :: rest, n, true => skipVoid rest (n + 1) (c != '\n')
  | c :: rest, n, false =>
    if Text.isMargin c then skipVoid rest (n + 1) false
    else if c = '#' then skipVoid rest (n + 1) true
    else ⟨c :: rest, n⟩

/-- Where the next character is looked for: in a verbose pattern blanks and
comments do not count. -/
def ready (s : Scan) (verbose : Bool) : Scan := if verbose then skipVoid s.rest s.pos false else s

/-- The next character as it stands. -/
def getRaw (s : Scan) : Option Char × Scan :=
  match s.rest with
  | [] => (none, s)
  | c :: rest => (some c, ⟨rest, s.pos + 1⟩)

/-- The next character. -/
def get (s : Scan) (verbose : Bool) : Option Char × Scan := (s.ready verbose).getRaw

/-- Past the character `c`, if it comes next. -/
def accept? (s : Scan) (verbose : Bool) (c : Char) : Option Scan :=
  match s.get verbose with
  | (some d, s') => if d = c then some s' else none
  | (none, _) => none

/-- Past the closing character `c`, which must come next. -/
def expect (s : Scan) (verbose : Bool) (c : Char) : Except PatternError Scan :=
  match s.accept? verbose c with
  | some s' => .ok s'
  | none => .error ⟨.missing c, s.pos⟩

/-- The characters that satisfy `p`, up to the first that does not; blanks and
comments between them do not count in a verbose pattern. -/
def takeWhile (p : Char → Bool) (verbose : Bool) : Nat → Scan → List Char → List Char × Scan
  | 0, s, acc => (acc.reverse, s)
  | fuel + 1, s, acc =>
    match s.get verbose with
    | (some c, s') =>
      if p c then takeWhile p verbose fuel s' (c :: acc) else (acc.reverse, s.ready verbose)
    | (none, s') => (acc.reverse, s')

end Scan

/-! ### Escapes -/

/-- What an escape stands for. -/
inductive Escape where
  | char (c : Char)
  /-- A character that has no case. -/
  | control (c : Char)
  | named (cls : NamedClass) (negated : Bool)
  | anchor (a : Anchor)
  | keep
  | reference (digits : List Char)

/-- The value of a hexadecimal digit. -/
def hexValue? (c : Char) : Option Nat :=
  if '0' ≤ c && c ≤ '9' then some (c.toNat - 0x30)
  else if 'a' ≤ c && c ≤ 'f' then some (c.toNat - 0x57)
  else if 'A' ≤ c && c ≤ 'F' then some (c.toNat - 0x37)
  else none

/-- Is `c` one of `0` to `7`? -/
def isOctal (c : Char) : Bool := '0' ≤ c && c ≤ '7'

/-- The number with these octal digits. -/
def ofOctal (ds : List Char) : Nat := ds.foldl (fun n d => n * 8 + (d.toNat - 0x30)) 0

/-- Read `count` hexadecimal digits of the escape `\letter`; `start` is where the
digits begin. -/
def readHex (verbose : Bool) (letter : Char) (start : Nat) :
    Nat → Scan → List Char → Except PatternError (Escape × Scan)
  | 0, s, acc =>
    let n := acc.reverse.foldl (fun n d => n * 16 + (hexValue? d).getD 0) 0
    if n < 0x110000 then .ok (.char (Char.ofNat n), s)
    else .error ⟨.badHexEscape (String.ofList (letter :: acc.reverse)), start⟩
  | count + 1, s, acc =>
    match s.get verbose with
    | (some d, s') =>
      if (hexValue? d).isSome then readHex verbose letter start count s' (d :: acc)
      else .error ⟨.incompleteEscape (String.ofList (letter :: acc.reverse)), start⟩
    | (none, _) => .error ⟨.incompleteEscape (String.ofList (letter :: acc.reverse)), start⟩

/-- Read up to `count` octal digits more. -/
def readOctalDigits (verbose : Bool) : Nat → Scan → List Char → List Char × Scan
  | 0, s, acc => (acc.reverse, s)
  | count + 1, s, acc =>
    match s.get verbose with
    | (some d, s') =>
      if isOctal d then readOctalDigits verbose count s' (d :: acc) else (acc.reverse, s)
    | (none, _) => (acc.reverse, s)

/-- Read the digits after `first` of an octal escape, three in all at most. -/
def readOctal (verbose : Bool) (first : Char) (s : Scan) : Except PatternError (Escape × Scan) :=
  if !isOctal first then .error ⟨.badEscape first, s.pos⟩
  else
    let (digits, s) := readOctalDigits verbose 2 s [first]
    .ok (.char (Char.ofNat (ofOctal digits)), s)

/-- Read an escape that starts with a digit, outside a set: three octal digits, or
a reference of one or two digits. -/
def readNumeric (verbose : Bool) (first : Char) (s : Scan) :
    Except PatternError (Escape × Scan) :=
  if first = '0' then readOctal verbose first s
  else
    match s.get verbose with
    | (some d, s₁) =>
      if Text.isAsciiDigit d then
        match s₁.get verbose with
        | (some e, s₂) =>
          if isOctal first && isOctal d && isOctal e then
            .ok (.char (Char.ofNat (ofOctal [first, d, e])), s₂)
          else .ok (.reference [first, d], s₁)
        | (none, _) => .ok (.reference [first, d], s₁)
      else .ok (.reference [first], s)
    | (none, _) => .ok (.reference [first], s)

/-- The anchors that a letter stands for, outside a set. -/
def anchorOf? (ascii : Bool) : Char → Option Anchor
  | 'A' => some .textStart
  | 'Z' => some .textEnd
  | 'b' => some (.wordEdge false ascii)
  | 'B' => some (.wordEdge true ascii)
  | _ => none

/-- The class that a letter stands for, and whether it is negated. -/
def classOf? : Char → Option (NamedClass × Bool)
  | 'd' => some (.digit, false)
  | 'D' => some (.digit, true)
  | 's' => some (.blank, false)
  | 'S' => some (.blank, true)
  | 'w' => some (.word, false)
  | 'W' => some (.word, true)
  | _ => none

/-- The control character that a letter stands for. -/
def controlOf? : Char → Option Char
  | 'a' => some '\x07'
  | 'b' => some '\x08'
  | 'f' => some '\x0c'
  | 'n' => some '\n'
  | 'r' => some '\r'
  | 't' => some '\t'
  | 'v' => some '\x0b'
  | _ => none

/-- Is `c` a letter of the ASCII range? -/
def isAsciiLetter (c : Char) : Bool := ('a' ≤ c && c ≤ 'z') || ('A' ≤ c && c ≤ 'Z')

/-- Read what follows a backslash. In a verbose pattern blanks may stand between the
digits of an escape. -/
def readEscape (inSet ascii verbose : Bool) (s : Scan) : Except PatternError (Escape × Scan) :=
  match s.getRaw with
  | (none, s) => .error ⟨.danglingEscape, s.pos⟩
  | (some c, s) =>
    if c = 'x' then readHex verbose c s.pos 2 s []
    else if c = 'u' then readHex verbose c s.pos 4 s []
    else if c = 'U' then readHex verbose c s.pos 8 s []
    else if c = 'K' && !inSet then .ok (.keep, s)
    else if isAsciiLetter c then
      match (if inSet then none else anchorOf? ascii c), classOf? c, controlOf? c with
      | some a, _, _ => .ok (.anchor a, s)
      | none, some (cls, negated), _ => .ok (.named cls negated, s)
      | none, none, some d => .ok (.control d, s)
      | none, none, none => .error ⟨.badEscape c, s.pos⟩
    else if Text.isAsciiDigit c then
      if inSet then readOctal verbose c s else readNumeric verbose c s
    else .ok (.char c, s)

/-! ### Sets -/

/-- Read one item of a set. -/
def readSetItem (ascii : Bool) (s : Scan) : Except PatternError (Signed × Scan) :=
  match s.getRaw with
  | (none, s) => .error ⟨.unterminatedSet, s.pos⟩
  | (some '\\', s) => do
    match ← readEscape true ascii false s with
    | (.named cls negated, s) => return (⟨.named cls ascii, negated⟩, s)
    | (.char c, s) | (.control c, s) => return (⟨.char c, false⟩, s)
    | (.anchor _, s) | (.keep, s) | (.reference _, s) => .error ⟨.unterminatedSet, s.pos⟩
  | (some c, s) => .ok (⟨.char c, false⟩, s)

/-- Read one member of a set: an item, or a range of two. A hyphen before the
closing bracket or next to a class stands for itself. -/
def readSetMember (ascii : Bool) (s : Scan) : Except PatternError (List Signed × Scan) := do
  let (first, s) ← readSetItem ascii s
  match first.item, s.accept? false '-' with
  | .char lo, some s' =>
    let hyphen : Signed := ⟨.char '-', false⟩
    if (s'.accept? false ']').isSome then return ([hyphen, first], s')
    else
      let (last, s'') ← readSetItem ascii s'
      match last.item with
      | .char hi =>
        if hi < lo then .error ⟨.badRange, s''.pos⟩
        else if hi = lo then return ([first], s'')
        else return ([⟨.range lo hi, false⟩], s'')
      | _ => return ([last, hyphen, first], s'')
  | _, _ => return ([first], s)

/-- Read the members of a set up to its closing bracket. -/
def readSetMembers (ascii : Bool) :
    Nat → Scan → List Signed → Except PatternError (List Signed × Scan)
  | 0, s, _ => .error ⟨.unterminatedSet, s.pos⟩
  | fuel + 1, s, acc => do
    let (members, s) ← readSetMember ascii s
    let acc := members ++ acc
    match s.accept? false ']' with
    | some s => return (acc.reverse, s)
    | none => readSetMembers ascii fuel s acc

/-- Read a set after its opening bracket. The first member may be a closing
bracket. -/
def readSet (ascii : Bool) (s : Scan) : Except PatternError (CharSet × Scan) := do
  let (negated, s) := match s.accept? false '^' with
    | some s => (true, s)
    | none => (false, s)
  let (items, s) ← readSetMembers ascii (s.rest.length + 1) s []
  return (.ofMembers (items.map .item) negated, s)

/-! ### Quantifiers -/

/-- The least and the most number of rounds. -/
structure Bounds where
  least : Nat
  most : Option Nat

/-- Counts from this one on are refused. -/
def countLimit : Nat := 4294967295

/-- The number with these decimal digits. -/
def ofDecimalDigits (ds : List Char) : Nat := ds.foldl (fun n d => n * 10 + (d.toNat - 0x30)) 0

/-- Read the bounds after an opening brace; `none` if what follows are no
bounds. -/
def readBraces (verbose : Bool) (s : Scan) : Except PatternError (Option (Bounds × Scan)) :=
  let digits (s : Scan) := s.takeWhile Text.isAsciiDigit verbose (s.rest.length + 1) []
  let (low, s₁) := digits s
  let bounds : Option (Bounds × Scan) :=
    match s₁.accept? verbose ',' with
    | some s₂ =>
      let (high, s₃) := digits s₂
      let most := if high.isEmpty then none else some (ofDecimalDigits high)
      some (⟨ofDecimalDigits low, most⟩, s₃)
    | none =>
      if low.isEmpty then none
      else some (⟨ofDecimalDigits low, some (ofDecimalDigits low)⟩, s₁)
  match bounds with
  | none => .ok none
  | some (b, s₃) =>
    match s₃.accept? verbose '}' with
    | none => .ok none
    | some s₄ =>
      if countLimit ≤ b.least || b.most.any (countLimit ≤ ·) then .error ⟨.countTooBig, s.pos⟩
      else if b.most.any (· < b.least) then .error ⟨.minAboveMax, s.pos⟩
      else .ok (some (b, s₄))

/-- Read the bounds that `c` starts; `none` if `c` stands for itself. -/
def readBounds (verbose : Bool) (c : Char) (s : Scan) :
    Except PatternError (Option (Bounds × Scan)) :=
  match c with
  | '*' => .ok (some (⟨0, none⟩, s))
  | '+' => .ok (some (⟨1, none⟩, s))
  | '?' => .ok (some (⟨0, some 1⟩, s))
  | '{' => readBraces verbose s
  | _ => .ok none

/-- Read the mark after the bounds that says how greedy the loop is. -/
def readGreed (verbose : Bool) (s : Scan) : Greed × Scan :=
  match s.get verbose with
  | (some '?', s') => (.reluctant, s')
  | (some '+', s') => (.possessive, s')
  | _ => (.greedy, s)

/-! ### Elements -/

/-- What kind of group is open. -/
inductive Opener where
  | whole
  | capture (index : Nat)
  | plain
  | atomic
  | look (behind negated : Bool)

/-- The expression of a closed group. -/
def Opener.close : Opener → Regex → Regex
  | .whole, r | .plain, r => r
  | .capture n, r => .group n r
  | .atomic, r => .atomic r
  | .look behind negated, r => .look behind negated r

/-- An open group. -/
structure Level where
  opener : Opener
  /-- The switches outside the group. -/
  outside : Flags
  /-- The alternatives before the last bar, last first. -/
  branches : List Regex
  /-- The elements since, last first. A `none` marks a place where there is
  nothing to repeat: at the start and after a quantifier. -/
  items : List (Option Regex)

/-- A group just opened. -/
def Level.new (opener : Opener) (outside : Flags) : Level := ⟨opener, outside, [], [none]⟩

/-- The expression of the elements since the last bar. -/
def Level.branch (l : Level) : Regex := .sequence (l.items.reverse.filterMap id)

/-- The expression of the whole group. -/
def Level.regex (l : Level) : Regex :=
  l.opener.close (.alternatives (l.branch :: l.branches).reverse)

/-- A pattern that has been read in part. -/
structure Reading where
  scan : Scan
  /-- The switches that hold for the whole pattern. -/
  overall : Flags
  /-- The switches that hold here. -/
  flags : Flags
  /-- The number of capturing groups opened so far. -/
  groups : Nat
  names : List (List Char × Nat)
  level : Level
  outer : List Level

/-- Why reading stops before the end. -/
inductive Halt where
  | error (e : PatternError)
  /-- Reading has to start again under these switches. -/
  | restart (flags : Flags)

/-- An offence as a halt. -/
def orHalt {α : Type} : Except PatternError α → Except Halt α
  | .ok a => .ok a
  | .error e => .error (.error e)

namespace Reading

/-- The start of a pattern. -/
def start (source : List Char) (flags : Flags) : Reading :=
  ⟨⟨source, 0⟩, flags, flags, 0, [], .new .whole flags, []⟩

/-- One element more. -/
def push (r : Reading) (e : Regex) (s : Scan) : Reading :=
  { r with scan := s, level := { r.level with items := some e :: r.level.items } }

/-- One character set more, under the case rule that holds here. -/
def pushSet (r : Reading) (set : CharSet) (s : Scan) : Reading :=
  r.push (.one set r.flags.caseness) s

/-- A group opened. -/
def openGroup (r : Reading) (opener : Opener) (inside : Flags) (s : Scan) : Reading :=
  { r with
    scan := s, flags := inside, level := .new opener r.flags, outer := r.level :: r.outer }

/-- A capturing group opened, under a name if it has one. A name used before stands
for the group it stood for then. -/
def openCapture (r : Reading) (name : Option (List Char)) (s : Scan) : Reading :=
  match name.bind fun n => r.names.lookup n with
  | some index => r.openGroup (.capture index) r.flags s
  | none =>
    let index := r.groups + 1
    let names := match name with
      | some n => (n, index) :: r.names
      | none => r.names
    { r with groups := index, names := names }.openGroup (.capture index) r.flags s

/-- Is group `n` still open? -/
def isOpen (r : Reading) (n : Nat) : Bool :=
  (r.level :: r.outer).any fun l =>
    match l.opener with
    | .capture m => m == n
    | _ => false

/-- The group that a reference names, if it is known yet. -/
def target? (r : Reading) : GroupRef → Option Nat
  | .number n => some n
  | .name s => r.names.lookup s

/-- A reference to a group that is closed by now. -/
def pushReference (r : Reading) (ref : GroupRef) (position : Nat) (s : Scan) :
    Except PatternError Reading :=
  if (r.target? ref).any r.isOpen then .error ⟨.openGroup, s.pos⟩
  else .ok (r.push (.back ref position r.flags.caseness) s)

/-- The last element under the bounds; `at_` is where the quantifier was looked
for. A void element, and one that comes once, stays as it is. -/
def quantify (r : Reading) (b : Bounds) (greed : Greed) (at_ : Nat) (s : Scan) :
    Except PatternError Reading :=
  match r.level.items with
  | some e :: items =>
    let once := b.least = 1 && b.most = some 1
    let loop := if e.isVoid || once then e else .loop e b.least b.most greed
    .ok { r with scan := s, level := { r.level with items := none :: some loop :: items } }
  | [] | [none] => .error ⟨.nothingToRepeat, at_⟩
  | none :: _ => .error ⟨.multipleRepeat, at_⟩

end Reading

/-- Is it a name for a group: word characters, no digit first? -/
def isGroupName : List Char → Bool
  | [] => false
  | c :: rest => Text.isWord c && !Text.isDecimalDigit c && rest.all Text.isWord

/-- Read the name of a group up to a closing character. A number is a name only
where a group is referred to. -/
def readName (verbose numeric : Bool) (s : Scan) : Except PatternError (List Char × Scan) :=
  let (name, s) := s.takeWhile (fun c => c != ')' && c != '>') verbose (s.rest.length + 1) []
  if name.isEmpty then .error ⟨.missingGroupName, s.pos⟩
  else if name.all Text.isAsciiDigit then
    if numeric && 0 < ofDecimalDigits name then .ok (name, s) else .error ⟨.badGroupName, s.pos⟩
  else if isGroupName name then .ok (name, s)
  else .error ⟨.badGroupName, s.pos⟩

/-- Open a named group; the name comes next. -/
def readNamedGroup (r : Reading) (s : Scan) : Except PatternError Reading := do
  let (name, s) ← readName r.flags.verbose false s
  let s ← s.expect r.flags.verbose '>'
  return r.openCapture (some name) s

/-- Read a group whose letter is `P`: a named group or a reference to one. -/
def readExtension (r : Reading) (s : Scan) : Except PatternError Reading :=
  match s.get r.flags.verbose with
  | (some '<', s') => readNamedGroup r s'
  | (some '=', s') => do
    let (name, s'') ← readName r.flags.verbose true s'
    let s'' ← s''.expect r.flags.verbose ')'
    let ref := if name.all Text.isAsciiDigit then GroupRef.number (ofDecimalDigits name)
      else .name name
    r.pushReference ref s.pos s''
  | _ => .error ⟨.unknownExtension, s.pos⟩

/-- Read the letters of switches. -/
def readSwitches (verbose : Bool) : Nat → Scan → Flags → Flags × Scan
  | 0, s, acc => (acc, s)
  | fuel + 1, s, acc =>
    match s.get verbose with
    | (some c, s') =>
      match Flags.ofLetter? c with
      | some f => readSwitches verbose fuel s' (acc.union f)
      | none => (acc, s)
    | (none, _) => (acc, s)

/-- Read a group that starts with switches, or only the switches. -/
def readSwitchGroup (r : Reading) (s : Scan) : Except Halt Reading := do
  let verbose := r.flags.verbose
  let (on, s) := readSwitches verbose (s.rest.length + 1) s .none
  let (off, s) ← match s.accept? verbose '-' with
    | none => pure (Flags.none, s)
    | some s' =>
      let (off, s') := readSwitches verbose (s'.rest.length + 1) s' .none
      if off = .none then throw (Halt.error ⟨.noFlagsAfterMinus, s'.pos⟩) else pure (off, s')
  if on.inter off ≠ .none then throw (.error ⟨.flagOnAndOff, s.pos⟩)
  match s.accept? verbose ':', s.accept? verbose ')' with
  | some s', _ => return r.openGroup .plain ((r.flags.union on).without off) s'
  | none, some s' =>
    if off ≠ .none then throw (.error ⟨.flagsTurnedOff, s'.pos⟩)
    else if on.without r.overall ≠ .none then throw (.restart (r.overall.union on))
    else return { r with scan := s' }
  | none, none => throw (.error ⟨.unknownExtension, s.pos⟩)

/-- Past a comment group, to its closing parenthesis. -/
def skipComment : List Char → Nat → Except PatternError Scan
  | [], n => .error ⟨.missing ')', n⟩
  | ')' :: rest, n => .ok ⟨rest, n + 1⟩
  | ['\\'], n => .error ⟨.missing ')', n + 1⟩
  | '\\' :: _ :: rest, n => skipComment rest (n + 2)
  | _ :: rest, n => skipComment rest (n + 1)

/-- Read what follows an opening parenthesis. -/
def readParen (r : Reading) (s : Scan) : Except Halt Reading :=
  match s.rest with
  | '?' :: '<' :: rest =>
    let s' : Scan := ⟨rest, s.pos + 2⟩
    match s'.get r.flags.verbose with
    | (some '=', s'') => .ok (r.openGroup (.look true false) r.flags s'')
    | (some '!', s'') => .ok (r.openGroup (.look true true) r.flags s'')
    | _ => orHalt (readNamedGroup r s')
  | '?' :: '=' :: rest => .ok (r.openGroup (.look false false) r.flags ⟨rest, s.pos + 2⟩)
  | '?' :: '!' :: rest => .ok (r.openGroup (.look false true) r.flags ⟨rest, s.pos + 2⟩)
  | '?' :: 'P' :: rest => orHalt (readExtension r ⟨rest, s.pos + 2⟩)
  | '?' :: '#' :: rest =>
    orHalt ((skipComment rest (s.pos + 2)).map fun s' => { r with scan := s' })
  | '?' :: '>' :: rest => .ok (r.openGroup .atomic r.flags ⟨rest, s.pos + 2⟩)
  | '?' :: rest => readSwitchGroup r ⟨rest, s.pos + 1⟩
  | _ => .ok (r.openCapture none s)

/-- Read an escape as an element. -/
def readEscapeElement (r : Reading) (s : Scan) : Except PatternError Reading := do
  match ← readEscape false r.flags.ascii r.flags.verbose s with
  | (.char c, s) => return r.pushSet (.ofChar c) s
  | (.control c, s) => return r.push (.one (.ofChar c) .exact) s
  | (.named cls negated, s) =>
    return r.push (.one (.item ⟨.named cls r.flags.ascii, negated⟩) .exact) s
  | (.anchor a, s) => return r.push (.anchor a) s
  | (.keep, s) => return r.push .keep s
  | (.reference digits, s) => r.pushReference (.number (ofDecimalDigits digits)) s.pos s

/-- How far reading has come after one more element. -/
inductive Progress where
  | more (r : Reading)
  | done (r : Reading)

/-- Read one element, a bar, a closing parenthesis or the end. -/
def readElement (r : Reading) : Except Halt Progress :=
  let at_ := r.scan.pos
  match r.scan.get r.flags.verbose with
  | (none, _) =>
    if r.outer.isEmpty then .ok (.done r) else .error (.error ⟨.missing ')', at_⟩)
  | (some ')', s) =>
    match r.outer with
    | [] => .error (.error ⟨.unbalanced, at_⟩)
    | l :: outer =>
      let closed := { r with flags := r.level.outside, level := l, outer := outer }
      .ok (.more (closed.push r.level.regex s))
  | (some '|', s) =>
    let level := { r.level with branches := r.level.branch :: r.level.branches, items := [none] }
    .ok (.more { r with scan := s, level := level })
  | (some '\\', s) => orHalt ((readEscapeElement r s).map .more)
  | (some '(', s) => (readParen r s).map .more
  | (some '.', s) =>
    .ok (.more (r.push (.one (if r.flags.dotAll then .all else .allButLineFeed) .exact) s))
  | (some '[', s) =>
    orHalt ((readSet r.flags.ascii s).map fun (set, s) => .more (r.pushSet set s))
  | (some '^', s) =>
    .ok (.more (r.push (.anchor (if r.flags.multiline then .lineStart else .textStart)) s))
  | (some '$', s) =>
    .ok (.more (r.push (.anchor (if r.flags.multiline then .lineEnd else .lastLine)) s))
  | (some c, s) => do
    match ← orHalt (readBounds r.flags.verbose c s) with
    | none => return .more (r.pushSet (.ofChar c) s)
    | some (b, s) =>
      let (greed, s) := readGreed r.flags.verbose s
      return .more (← orHalt (r.quantify b greed at_ s))

/-- Read all elements. Every element takes a character, so `fuel` above the
length of the pattern never runs out. -/
def readAll : Nat → Reading → Except Halt Reading
  | 0, r => .ok r
  | fuel + 1, r => do
    match ← readElement r with
    | .more r => readAll fuel r
    | .done r => return r

/-- Read the pattern under the switches, and again for every switch it turns on
itself. There are six switches, so `fuel` above six never runs out. -/
def readUnder (source : List Char) : Nat → Flags → Except PatternError Reading
  | 0, flags => .ok (.start source flags)
  | fuel + 1, flags =>
    match readAll (source.length + 1) (.start source flags) with
    | .ok r => .ok r
    | .error (.error e) => .error e
    | .error (.restart flags) => readUnder source fuel flags

/-! ### References -/

/-- The same expression with every reference as the number of its group. -/
def Regex.resolve (names : List (List Char × Nat)) (groups : Nat) :
    Regex → Except PatternError Regex
  | .empty => .ok .empty
  | .never => .ok .never
  | .one set k => .ok (.one set k)
  | .seq a b => do
    let a ← a.resolve names groups
    let b ← b.resolve names groups
    return .seq a b
  | .alt a b => do
    let a ← a.resolve names groups
    let b ← b.resolve names groups
    return .alt a b
  | .loop body least most greed => do
    let body ← body.resolve names groups
    return .loop body least most greed
  | .group index body => do
    let body ← body.resolve names groups
    return .group index body
  | .atomic body => do
    let body ← body.resolve names groups
    return .atomic body
  | .look behind negated body => do
    let body ← body.resolve names groups
    return .look behind negated body
  | .back ref position caseness =>
    let number : Option Nat :=
      match ref with
      | .number n => some n
      | .name s => names.lookup s
    match number with
    | none => .error ⟨.unknownGroup, position⟩
    | some n =>
      if 1 ≤ n && n ≤ groups then .ok (.back (.number n) position caseness)
      else .error ⟨.invalidReference, position⟩
  | .anchor a => .ok (.anchor a)
  | .keep => .ok .keep

end LeafGrammar.Pattern

namespace LeafGrammar

/-- Why a text is no pattern. -/
inductive PatternFault where
  | offence (e : PatternError)
  | flagConflict
deriving DecidableEq, Repr

/-- Read the expression that a pattern stands for. -/
def Pattern.readExpression (source : String) (flags : Pattern.Flags) :
    Except PatternFault Pattern.Expression := do
  let reading ← (Pattern.readUnder source.toList 8 flags).mapError .offence
  if reading.overall.ascii && reading.overall.unicode then throw .flagConflict
  let resolved ← (reading.level.regex.resolve reading.names reading.groups).mapError .offence
  let root := resolved.simplify false
  return ⟨root.forget root.references, Pattern.Gate.of? reading.overall.ascii root⟩

/-- Read a pattern under the switches. -/
def Pattern.read (source : String) (flags : Pattern.Flags) : Except PatternFault Pattern :=
  (Pattern.readExpression source flags).map (.ofExpression source)

end LeafGrammar
