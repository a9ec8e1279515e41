import LeafGrammar.Pattern.CharSet

/-!
# Pattern flags

What the caller, or the pattern itself, switches on: letters without regard to
case, anchors at every line, a dot that matches line feeds, classes of all
scripts or of ASCII, and blanks and comments inside the pattern.
-/

namespace LeafGrammar.Pattern

/-- The switches under which a pattern is read. -/
structure Flags where
  ignoreCase : Bool
  multiline : Bool
  dotAll : Bool
  unicode : Bool
  verbose : Bool
  ascii : Bool
deriving DecidableEq, Repr

namespace Flags

/-- All switches off. -/
def none : Flags := ⟨false, false, false, false, false, false⟩

/-- The switches of a number, one bit each. -/
def ofBits (n : Nat) : Flags :=
  ⟨n.testBit 1, n.testBit 3, n.testBit 4, n.testBit 5, n.testBit 6, n.testBit 7⟩

/-- The switch that a letter stands for. -/
def ofLetter? : Char → Option Flags
  | 'i' => some { none with ignoreCase := true }
  | 'm' => some { none with multiline := true }
  | 's' => some { none with dotAll := true }
  | 'u' => some { none with unicode := true }
  | 'x' => some { none with verbose := true }
  | 'a' => some { none with ascii := true }
  | _ => Option.none

/-- The switches on in both. -/
def inter (f g : Flags) : Flags :=
  ⟨f.ignoreCase && g.ignoreCase, f.multiline && g.multiline, f.dotAll && g.dotAll,
    f.unicode && g.unicode, f.verbose && g.verbose, f.ascii && g.ascii⟩

/-- The switches on in either. -/
def union (f g : Flags) : Flags :=
  ⟨f.ignoreCase || g.ignoreCase, f.multiline || g.multiline, f.dotAll || g.dotAll,
    f.unicode || g.unicode, f.verbose || g.verbose, f.ascii || g.ascii⟩

/-- The switches on in `f` and not in `g`. -/
def without (f g : Flags) : Flags :=
  ⟨f.ignoreCase && !g.ignoreCase, f.multiline && !g.multiline, f.dotAll && !g.dotAll,
    f.unicode && !g.unicode, f.verbose && !g.verbose, f.ascii && !g.ascii⟩

/-- Which letters count as equal under the switches. -/
def caseness (f : Flags) : Caseness :=
  if !f.ignoreCase then .exact else if f.ascii then .asciiLetters else .letters

end Flags

end LeafGrammar.Pattern
