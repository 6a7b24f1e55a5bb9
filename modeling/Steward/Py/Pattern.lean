import Mathlib.Data.List.Flatten
import Steward.Py.Text

/-!
# Regular expressions

`pattern.search(text)` for patterns of characters, word boundaries, gaps (`.*`),
sequences and alternatives. What the interpreter knows of Unicode is given: when
two characters are the same up to case, and which are word characters.
-/

namespace Py

structure CaseTable where
  /-- The characters match under `re.IGNORECASE`. -/
  same : CodePoint → CodePoint → Bool
  /-- `\w` -/
  word : CodePoint → Bool

inductive Pattern where
  | empty
  | character (c : CodePoint)
  | anyCharacter
  | boundary
  | gap
  | sequence (p q : Pattern)
  | either (p q : Pattern)

namespace Pattern

/-- The character before a place in the text, and the text from there on. -/
abbrev Place := Option CodePoint × Text

variable (table : CaseTable)

def isWord (c : Option CodePoint) : Bool := c.any table.word

/-- Every place that `.*` can reach: it does not cross a newline. -/
def gapPlaces (before : Option CodePoint) : Text → List Place
  | [] => [(before, [])]
  | c :: s => (before, c :: s) :: if c = ch '\n' then [] else gapPlaces (some c) s

/-- The places where a match that starts at a place can end. -/
def ends : Pattern → Place → List Place
  | empty, place => [place]
  | character c, (_, d :: s) => if table.same c d then [(some d, s)] else []
  | character _, (_, []) => []
  | anyCharacter, (_, d :: s) => if d = ch '\n' then [] else [(some d, s)]
  | anyCharacter, (_, []) => []
  | boundary, (before, s) =>
    if isWord table before = isWord table s.head? then [] else [(before, s)]
  | gap, (before, s) => gapPlaces before s
  | sequence p q, place => (ends p place).flatMap (ends q)
  | either p q, place => ends p place ++ ends q place

/-- A match starts at the place or at a later one. -/
def searchFrom (p : Pattern) (before : Option CodePoint) : Text → Bool
  | [] => !(ends table p (before, [])).isEmpty
  | c :: s => !(ends table p (before, c :: s)).isEmpty || searchFrom p (some c) s

/-- `re.search(p, text, re.IGNORECASE)` -/
def search (p : Pattern) (text : Text) : Bool := searchFrom table p none text

/-! ## Building patterns -/

def word (s : String) : Pattern := (txt s).foldr (fun c p => sequence (character c) p) empty

def all (ps : List Pattern) : Pattern := ps.foldr sequence empty

def oneOf : List Pattern → Pattern
  | [] => empty
  | [p] => p
  | p :: ps => either p (oneOf ps)

/-- `p?` -/
def optional (p : Pattern) : Pattern := either p empty

end Pattern

end Py
