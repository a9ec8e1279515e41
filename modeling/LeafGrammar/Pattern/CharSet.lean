import LeafGrammar.Text.Blank
import LeafGrammar.Text.CaseFamily
import LeafGrammar.Text.DecimalDigit
import LeafGrammar.Text.Word

/-!
# Character sets

What a pattern says about a single character. A set is a single item (a
character, a range or a named class, or all but that) or a union of members,
perhaps negated as a whole. Where case is disregarded a character is in an item
if one of its variants is.

Two rules are particular to unions. The single characters that a union takes in
negated form count together: a character must differ from every one of them. And
a union that holds a class as well as its complement stands for every character,
also if it is negated.
-/

namespace LeafGrammar.Pattern

/-- The named classes. -/
inductive NamedClass where
  | digit
  | word
  | blank
deriving DecidableEq, Repr

/-- Is `c` a digit to patterns? They know more scripts than the readers of numbers do. -/
def isDigit (c : Char) : Bool := Text.isDecimalDigit c || Text.isLaterDigit c

/-- Is `c` a word character to patterns? -/
def isWord (c : Char) : Bool := Text.isWord c || Text.isLaterDigit c

/-- Is `c` in the class, or in its ASCII part? -/
def NamedClass.contains (ascii : Bool) : NamedClass → Char → Bool
  | .digit, c => if ascii then Text.isAsciiDigit c else isDigit c
  | .word, c => if ascii then Text.isAsciiWord c else isWord c
  | .blank, c => if ascii then Text.isAsciiBlank c else Text.isBlank c

/-- Which letters count as equal. -/
inductive Caseness where
  | exact
  | asciiLetters
  | letters
deriving DecidableEq, Repr

namespace Caseness

/-- The characters that count as equal to `c`. -/
def variants : Caseness → Char → List Char
  | .exact, c => [c]
  | .asciiLetters, c => Text.asciiCaseVariants c
  | .letters, c => Text.caseVariants c

/-- Do `c` and `d` count as equal? -/
def equal (k : Caseness) (c d : Char) : Bool := (k.variants c).contains d

end Caseness

/-- An item of a set. -/
inductive Item where
  | char (c : Char)
  | range (lo hi : Char)
  | named (cls : NamedClass) (ascii : Bool)
deriving DecidableEq, Repr

/-- Is `c` in the item? -/
def Item.contains : Item → Char → Bool
  | .char d, c => c == d
  | .range lo hi, c => lo ≤ c && c ≤ hi
  | .named cls ascii, c => cls.contains ascii c

/-- An item, or all but it. -/
structure Signed where
  item : Item
  negated : Bool
deriving DecidableEq, Repr

namespace Signed

/-- Is the character with these variants in the item? -/
def accepts (s : Signed) (variants : List Char) : Bool :=
  variants.any s.item.contains != s.negated

/-- Is it a single character, negated? -/
def isOtherThan (s : Signed) : Bool :=
  match s with
  | ⟨.char _, true⟩ => true
  | _ => false

/-- Is the character with these variants in one of the items? Negated single
characters count together. -/
def acceptAny (items : List Signed) (variants : List Char) : Bool :=
  (items.any fun s => !s.isOtherThan && s.accepts variants) ||
    (items.any isOtherThan && items.all fun s => !s.isOtherThan || s.accepts variants)

end Signed

/-- A member of a union: an item, or all that is in none of some items. -/
inductive Member where
  | item (s : Signed)
  | noneOf (items : List Signed)
deriving DecidableEq, Repr

namespace Member

/-- The item of a member that is one. -/
def item? : Member → Option Signed
  | .item s => some s
  | .noneOf _ => none

/-- Is the character with these variants in one of the members? -/
def acceptAny (members : List Member) (variants : List Char) : Bool :=
  Signed.acceptAny (members.filterMap item?) variants ||
    members.any fun
      | .item _ => false
      | .noneOf items => !Signed.acceptAny items variants

/-- Do the members hold a class and its complement? -/
def holdComplements (members : List Member) : Bool :=
  members.any fun
    | .item ⟨.named cls ascii, false⟩ => members.contains (.item ⟨.named cls ascii, true⟩)
    | _ => false

end Member

/-- A set of characters. -/
inductive CharSet where
  | all
  | allButLineFeed
  | item (s : Signed)
  | union (members : List Member) (negated : Bool)
deriving DecidableEq, Repr

namespace CharSet

/-- Is `c` in the set? -/
def contains (k : Caseness) : CharSet → Char → Bool
  | .all, _ => true
  | .allButLineFeed, c => c != '\n'
  | .item s, c => s.accepts (k.variants c)
  | .union members negated, c => Member.acceptAny members (k.variants c) != negated

/-- The set of one character. -/
def ofChar (c : Char) : CharSet := .item ⟨.char c, false⟩

/-- The union of some members, negated or not, in its simplest form. -/
def ofMembers (members : List Member) (negated : Bool) : CharSet :=
  if Member.holdComplements members then .all
  else
    match members with
    | [.item s] => .item ⟨s.item, s.negated != negated⟩
    | [.noneOf items] => .union (items.map .item) (!negated)
    | _ => .union members negated

/-- The set as members of a union, if it can be put into one. -/
def members? : CharSet → Option (List Member)
  | .all | .allButLineFeed => none
  | .item s => some [.item s]
  | .union members false => some members
  | .union members true => some [.noneOf (members.filterMap Member.item?)]

/-- The union of some sets. -/
def unite (sets : List CharSet) : CharSet :=
  match sets.eraseDups with
  | [s] => s
  | distinct => ofMembers (distinct.flatMap fun s => s.members?.getD []) false

end CharSet

end LeafGrammar.Pattern
