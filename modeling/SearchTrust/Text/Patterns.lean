/-
Patterns of the `re` module: a pattern gives the ways to match where a reader stands, in
the order in which backtracking tries them.
-/
import Mathlib.Data.Nat.Notation

namespace SearchTrust.Text

section Patterns

/-- Where a reader stands, and what the groups behind it have matched. -/
structure Cursor where
  before : Option Char
  ahead : List Char
  groups : List (ℕ × List Char) := []
deriving DecidableEq

abbrev Pattern := Cursor → List Cursor

/-- A character of a class. -/
def one (accepts : Char → Bool) : Pattern
  | ⟨_, c :: rest, groups⟩ => if accepts c then [⟨some c, rest, groups⟩] else []
  | ⟨_, [], _⟩ => []

def nothing : Pattern := fun cursor => [cursor]

def seq (first second : Pattern) : Pattern := fun cursor => (first cursor).flatMap second

def alt (first second : Pattern) : Pattern := fun cursor => first cursor ++ second cursor

/-- `p?`. -/
def maybe (p : Pattern) : Pattern := alt p nothing

/-- `p{0,n}`. -/
def upTo : ℕ → Pattern → Pattern
  | 0, _ => nothing
  | n + 1, p => maybe (seq p (upTo n p))

/-- `p{n}`. -/
def exactly : ℕ → Pattern → Pattern
  | 0, _ => nothing
  | n + 1, p => seq p (exactly n p)

/-- `[...]*`. -/
def many (accepts : Char → Bool) : Pattern :=
  fun cursor => upTo cursor.ahead.length (one accepts) cursor

/-- `[...]+`. -/
def several (accepts : Char → Bool) : Pattern := seq (one accepts) (many accepts)

/-- `p*`, of a pattern that matches no empty text. -/
def repeated (p : Pattern) : Pattern := fun cursor => upTo cursor.ahead.length p cursor

/-- `p{0,n}?`. -/
def fewestTo : ℕ → Pattern → Pattern
  | 0, _ => nothing
  | n + 1, p => alt nothing (seq p (fewestTo n p))

/-- `[...]*?`. -/
def fewest (accepts : Char → Bool) : Pattern :=
  fun cursor => fewestTo cursor.ahead.length (one accepts) cursor

/-- The group of a number. -/
def group (number : ℕ) (p : Pattern) : Pattern := fun cursor =>
  (p cursor).map fun after =>
    let matched := cursor.ahead.take (cursor.ahead.length - after.ahead.length)
    { after with groups := (number, matched) :: after.groups }

/-- `(?!...)` of a class. -/
def notBefore (accepts : Char → Bool) : Pattern := fun cursor =>
  if cursor.ahead.head?.any accepts then [] else [cursor]

/-- `(?<!...)` of a class. -/
def notAfter (accepts : Char → Bool) : Pattern := fun cursor =>
  if cursor.before.any accepts then [] else [cursor]

/-- `(?=...)`. -/
def followedBy (p : Pattern) : Pattern := fun cursor =>
  if p cursor = [] then [] else [cursor]

/-- `$`. -/
def atEnd : Pattern := fun cursor =>
  if cursor.ahead = [] ∨ cursor.ahead = ['\n'] then [cursor] else []

/-- `\b`. -/
def boundary (isWord : Char → Bool) : Pattern := fun cursor =>
  if cursor.before.any isWord = cursor.ahead.head?.any isWord then [] else [cursor]

/-- The patterns one after the other. -/
def inOrder (parts : List Pattern) : Pattern := parts.foldr seq nothing

/-- The patterns in their order, as alternatives. -/
def anyOf (choices : List Pattern) : Pattern := choices.foldr alt fun _ => []

/-- A text, each character by what is the same as it. -/
def literal (same : Char → Char → Bool) (text : String) : Pattern :=
  inOrder (text.toList.map fun c => one (same c))

end Patterns

section Matching

/-- What the groups of a match have matched. -/
abbrev Groups := List (ℕ × List Char)

/-- The first match: the text that was skipped, and where the reader stands after it. -/
def firstMatch (p : Pattern) : Option Char → List Char → Option (List Char × Cursor)
  | before, [] => ((p ⟨before, [], []⟩).head?).map fun after => ([], after)
  | before, c :: rest =>
      match (p ⟨before, c :: rest, []⟩).head? with
      | some after => some ([], after)
      | none => (firstMatch p (some c) rest).map fun found => (c :: found.1, found.2)

/-- `re.search`. -/
def occurs (p : Pattern) (text : List Char) : Bool := (firstMatch p none text).isSome

/-- The text before the first match, and each match with the text behind it. -/
def piecesFrom (p : Pattern) : ℕ → Option Char → List Char →
    List Char × List (Groups × List Char)
  | 0, _, text => (text, [])
  | room + 1, before, text =>
      match firstMatch p before text with
      | none => (text, [])
      | some (skipped, after) =>
          let rest := piecesFrom p room after.before after.ahead
          (skipped, (after.groups, rest.1) :: rest.2)

/-- `re.finditer` of a pattern that matches no empty text. -/
def pieces (p : Pattern) (text : List Char) : List Char × List (Groups × List Char) :=
  piecesFrom p (text.length + 1) none text

/-- `re.sub` with an empty text. -/
def remove (p : Pattern) (text : List Char) : List Char :=
  let found := pieces p text
  found.1 ++ found.2.flatMap Prod.snd

/-- `re.search`, with the groups of the match. -/
def search (p : Pattern) (text : List Char) : Option Groups :=
  (firstMatch p none text).map (·.2.groups)

/-- `re.finditer`, with the groups of each match. -/
def finditer (p : Pattern) (text : List Char) : List Groups := (pieces p text).2.map Prod.fst

/-- The last of `re.split`. -/
def lastPiece (p : Pattern) (text : List Char) : List Char :=
  ((pieces p text).2.getLast?.map Prod.snd).getD (pieces p text).1

/-- `re.match`. -/
def matchStart (p : Pattern) (text : List Char) : Option Groups :=
  ((p ⟨none, text, []⟩).head?).map (·.groups)

/-- `m[number]`. -/
def Groups.text (groups : Groups) (number : ℕ) : List Char :=
  ((groups.find? fun g => g.1 = number).map Prod.snd).getD []

/-- `re.fullmatch`. -/
def fullMatch (p : Pattern) (text : List Char) : Option Groups :=
  ((p ⟨none, text, []⟩).find? fun after => after.ahead = []).map (·.groups)

end Matching

end SearchTrust.Text
