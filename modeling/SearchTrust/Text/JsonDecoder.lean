/-
The grammar of JSON texts: which text writes which value, how many nodes a value has, and
how deep its containers are nested.
-/
import Mathlib.Data.List.Basic
import Mathlib.Data.Nat.Notation
import Mathlib.Order.Defs.LinearOrder

namespace SearchTrust.Text.JsonText

/-- The text of a number: its sign, its whole part, its fraction and its exponent. -/
structure NumberText where
  negative : Bool
  whole : List Char
  fraction : List Char
  exponent : Option (Char × List Char × List Char)
deriving DecidableEq

/-- A value as it is read.  A string is a list of code points, with lone surrogates among
them, and a number is as it is written. -/
inductive Value where
  | null
  | bool (value : Bool)
  | number (literal : NumberText)
  | string (points : List ℕ)
  | array (items : List Value)
  | object (fields : List (List ℕ × Value))

section Measures

mutual

/-- The containers, keys, strings and scalars of a value. -/
def nodes : Value → ℕ
  | .array items => 1 + itemNodes items
  | .object fields => 1 + fieldNodes fields
  | _ => 1

def itemNodes : List Value → ℕ
  | [] => 0
  | item :: rest => nodes item + itemNodes rest

def fieldNodes : List (List ℕ × Value) → ℕ
  | [] => 0
  | (_, value) :: rest => 1 + nodes value + fieldNodes rest

end

mutual

/-- How many containers are open at once. -/
def nesting : Value → ℕ
  | .array items => itemNesting items + 1
  | .object fields => fieldNesting fields + 1
  | _ => 0

def itemNesting : List Value → ℕ
  | [] => 0
  | item :: rest => max (nesting item) (itemNesting rest)

def fieldNesting : List (List ℕ × Value) → ℕ
  | [] => 0
  | (_, value) :: rest => max (nesting value) (fieldNesting rest)

end

/-- What is asked of the numbers, of the strings and keys, and of the keys of an object. -/
structure Demand where
  number : NumberText → Bool
  text : List ℕ → Bool
  keys : List (List ℕ) → Bool

mutual

/-- All parts of a value meet a demand. -/
def meets (d : Demand) : Value → Bool
  | .number n => d.number n
  | .string points => d.text points
  | .array items => itemsMeet d items
  | .object fields => d.keys (fields.map Prod.fst) && fieldsMeet d fields
  | _ => true

def itemsMeet (d : Demand) : List Value → Bool
  | [] => true
  | item :: rest => meets d item && itemsMeet d rest

def fieldsMeet (d : Demand) : List (List ℕ × Value) → Bool
  | [] => true
  | (key, value) :: rest => d.text key && meets d value && fieldsMeet d rest

end

end Measures

section Lexemes

def isJsonSpace (c : Char) : Bool := c = ' ' || c = '\t' || c = '\n' || c = '\r'

def isBlank (s : List Char) : Prop := ∀ c ∈ s, isJsonSpace c = true

def hexDigit (c : Char) : Option ℕ :=
  if c.isDigit then some (c.toNat - '0'.toNat)
  else if 'a' ≤ c ∧ c ≤ 'f' then some (c.toNat - 'a'.toNat + 10)
  else if 'A' ≤ c ∧ c ≤ 'F' then some (c.toNat - 'A'.toNat + 10)
  else none

/-- The code unit of `\uXXXX`. -/
def codeUnit (a b c d : Char) : Option ℕ := do
  let a ← hexDigit a
  let b ← hexDigit b
  let c ← hexDigit c
  let d ← hexDigit d
  return ((a * 16 + b) * 16 + c) * 16 + d

def unescape : Char → Option ℕ
  | '"' => some 34
  | '\\' => some 92
  | '/' => some 47
  | 'b' => some 8
  | 'f' => some 12
  | 'n' => some 10
  | 'r' => some 13
  | 't' => some 9
  | _ => none

/-- Two escaped surrogates make one code point. -/
def joinPoints : List ℕ → List ℕ
  | high :: low :: rest =>
      if 0xD800 ≤ high ∧ high < 0xDC00 ∧ 0xDC00 ≤ low ∧ low < 0xE000 then
        (0x10000 + (high - 0xD800) * 0x400 + (low - 0xDC00)) :: joinPoints rest
      else high :: joinPoints (low :: rest)
  | points => points

/-- The text between the quotes of a string, and its code units. -/
inductive WritesUnits : List ℕ → List Char → Prop where
  | nil : WritesUnits [] []
  | plain (c : Char) (hcontrol : 32 ≤ c.toNat) (hquote : c ≠ '"') (hescape : c ≠ '\\')
      {units : List ℕ} {rest : List Char} (h : WritesUnits units rest) :
      WritesUnits (c.toNat :: units) (c :: rest)
  | escaped (c : Char) {unit : ℕ} (hunit : unescape c = some unit) {units : List ℕ}
      {rest : List Char} (h : WritesUnits units rest) :
      WritesUnits (unit :: units) ('\\' :: c :: rest)
  | unicode (a b c d : Char) {unit : ℕ} (hunit : codeUnit a b c d = some unit) {units : List ℕ}
      {rest : List Char} (h : WritesUnits units rest) :
      WritesUnits (unit :: units) ('\\' :: 'u' :: a :: b :: c :: d :: rest)

namespace NumberText

def isDigits (s : List Char) : Prop := ∀ c ∈ s, c.isDigit = true

def isExponent (exponent : Option (Char × List Char × List Char)) : Prop :=
  ∀ mark sign digits, exponent = some (mark, sign, digits) →
    (mark = 'e' ∨ mark = 'E') ∧ (sign = [] ∨ sign = ['+'] ∨ sign = ['-']) ∧
      digits ≠ [] ∧ isDigits digits

/-- The parts of a number: no zero leads, and an exponent has digits. -/
structure WellFormed (n : NumberText) : Prop where
  whole : n.whole = ['0'] ∨ n.whole ≠ [] ∧ isDigits n.whole ∧ n.whole.head? ≠ some '0'
  fraction : isDigits n.fraction
  exponent : isExponent n.exponent

def signChars (negative : Bool) : List Char := if negative then ['-'] else []

def fractionChars (fraction : List Char) : List Char :=
  if fraction = [] then [] else '.' :: fraction

def exponentChars : Option (Char × List Char × List Char) → List Char
  | none => []
  | some (mark, sign, digits) => mark :: (sign ++ digits)

def render (n : NumberText) : List Char :=
  signChars n.negative ++ n.whole ++ fractionChars n.fraction ++ exponentChars n.exponent

end NumberText

end Lexemes

/-- What a text writes: a value, the items of an array or the fields of an object. -/
inductive Content where
  | value (value : Value)
  | items (items : List Value)
  | fields (fields : List (List ℕ × Value))

/-- The grammar. -/
inductive Writes : Content → List Char → Prop where
  | null : Writes (.value .null) ['n', 'u', 'l', 'l']
  | true : Writes (.value (.bool true)) ['t', 'r', 'u', 'e']
  | false : Writes (.value (.bool false)) ['f', 'a', 'l', 's', 'e']
  | number (n : NumberText) (h : n.WellFormed) : Writes (.value (.number n)) n.render
  | string {units : List ℕ} {body : List Char} (h : WritesUnits units body) :
      Writes (.value (.string (joinPoints units))) ('"' :: (body ++ ['"']))
  | emptyArray {blank : List Char} (h : isBlank blank) :
      Writes (.value (.array [])) ('[' :: (blank ++ [']']))
  | array {items : List Value} {body : List Char} (h : Writes (.items items) body) :
      Writes (.value (.array items)) ('[' :: (body ++ [']']))
  | emptyObject {blank : List Char} (h : isBlank blank) :
      Writes (.value (.object [])) ('{' :: (blank ++ ['}']))
  | object {fields : List (List ℕ × Value)} {body : List Char} (h : Writes (.fields fields) body) :
      Writes (.value (.object fields)) ('{' :: (body ++ ['}']))
  | item {before after body : List Char} {value : Value} (hbefore : isBlank before)
      (h : Writes (.value value) body) (hafter : isBlank after) :
      Writes (.items [value]) (before ++ (body ++ after))
  | items {before after body rest : List Char} {value : Value} {items : List Value}
      (hbefore : isBlank before) (h : Writes (.value value) body) (hafter : isBlank after)
      (hrest : Writes (.items items) rest) :
      Writes (.items (value :: items)) (before ++ (body ++ (after ++ ',' :: rest)))
  | field {before middle between after key body : List Char} {units : List ℕ} {value : Value}
      (hbefore : isBlank before) (hkey : WritesUnits units key) (hmiddle : isBlank middle)
      (hbetween : isBlank between) (h : Writes (.value value) body) (hafter : isBlank after) :
      Writes (.fields [(joinPoints units, value)])
        (before ++ '"' :: (key ++ '"' :: (middle ++ ':' :: (between ++ (body ++ after)))))
  | fields {before middle between after key body rest : List Char} {units : List ℕ} {value : Value}
      {fields : List (List ℕ × Value)} (hbefore : isBlank before) (hkey : WritesUnits units key)
      (hmiddle : isBlank middle) (hbetween : isBlank between) (h : Writes (.value value) body)
      (hafter : isBlank after) (hrest : Writes (.fields fields) rest) :
      Writes (.fields ((joinPoints units, value) :: fields))
        (before ++ '"' :: (key ++ '"' :: (middle ++ ':' ::
          (between ++ (body ++ (after ++ ',' :: rest))))))

/-- A document: a value with blanks around it. -/
def WritesDocument (value : Value) (text : List Char) : Prop :=
  ∃ before body after, isBlank before ∧ Writes (.value value) body ∧ isBlank after ∧
    text = before ++ (body ++ after)

end SearchTrust.Text.JsonText

/-
A decoder of JSON texts that reads from left to right and stops at the first error.  With
its result it gives what it has produced until then: how many nodes, and how deep the
containers were nested.
-/
namespace SearchTrust.Text.JsonText

/-- A run of the decoder. -/
structure Run (ε α : Type) where
  nodes : ℕ
  deepest : ℕ
  result : Except ε (α × List Char)

namespace Run

variable {ε α β : Type}

def fail (e : ε) : Run ε α := ⟨0, 0, .error e⟩

/-- A result that is no node. -/
def done (result : Except ε α) (rest : List Char) : Run ε α := ⟨0, 0, result.map (·, rest)⟩

/-- A key, a string or a scalar. -/
def produced : Except ε (α × List Char) → Run ε α
  | .error e => fail e
  | .ok result => ⟨1, 0, .ok result⟩

/-- A container, opened at a depth. -/
def opened (depth : ℕ) (inner : Run ε α) : Run ε α :=
  ⟨1 + inner.nodes, max depth inner.deepest, inner.result⟩

def andThen (first : Run ε α) (next : α → List Char → Run ε β) : Run ε β :=
  match first.result with
  | .error e => ⟨first.nodes, first.deepest, .error e⟩
  | .ok (value, rest) =>
      let second := next value rest
      ⟨first.nodes + second.nodes, max first.deepest second.deepest, second.result⟩

end Run

section Lexemes

def skipBlank (s : List Char) : List Char := s.dropWhile isJsonSpace

/-- The code units up to the closing quote. -/
def scanUnits : List Char → Option (List ℕ × List Char)
  | [] => none
  | '"' :: rest => some ([], rest)
  | '\\' :: 'u' :: a :: b :: c :: d :: rest =>
      match codeUnit a b c d, scanUnits rest with
      | some unit, some (units, rest) => some (unit :: units, rest)
      | _, _ => none
  | '\\' :: c :: rest =>
      match unescape c, scanUnits rest with
      | some unit, some (units, rest) => some (unit :: units, rest)
      | _, _ => none
  | c :: rest =>
      if c.toNat < 32 ∨ c = '\\' then none
      else (scanUnits rest).map fun (units, rest) => (c.toNat :: units, rest)

def scanSign : List Char → Bool × List Char
  | '-' :: rest => (true, rest)
  | s => (false, s)

def scanWhole : List Char → List Char × List Char
  | '0' :: rest => (['0'], rest)
  | s => (s.takeWhile Char.isDigit, s.dropWhile Char.isDigit)

/-- The digits behind a point, if there is one with digits. -/
def scanFraction (s : List Char) : List Char × List Char :=
  match s with
  | '.' :: rest =>
      if rest.takeWhile Char.isDigit = [] then ([], s)
      else (rest.takeWhile Char.isDigit, rest.dropWhile Char.isDigit)
  | _ => ([], s)

def scanExponentSign : List Char → List Char × List Char
  | '+' :: rest => (['+'], rest)
  | '-' :: rest => (['-'], rest)
  | s => ([], s)

def scanExponent (s : List Char) : Option (Char × List Char × List Char) × List Char :=
  match s with
  | mark :: rest =>
      if mark = 'e' ∨ mark = 'E' then
        let (sign, digits) := scanExponentSign rest
        if digits.takeWhile Char.isDigit = [] then (none, s)
        else (some (mark, sign, digits.takeWhile Char.isDigit), digits.dropWhile Char.isDigit)
      else (none, s)
  | [] => (none, s)

/-- The number at the front of a text. -/
def scanNumber (s : List Char) : Option (NumberText × List Char) :=
  let (negative, rest) := scanSign s
  let (whole, rest) := scanWhole rest
  let (fraction, rest) := scanFraction rest
  let (exponent, rest) := scanExponent rest
  if whole = [] then none else some (⟨negative, whole, fraction, exponent⟩, rest)

/-- The number is written as an integer. -/
def NumberText.isInt (n : NumberText) : Bool := n.fraction = [] && n.exponent = none

/-- Of an integer, the interpreter converts so many digits. -/
def maxIntDigits : ℕ := 4300

/-- A number that the interpreter converts. -/
def NumberText.converts (n : NumberText) : Bool := ! n.isInt || n.whole.length ≤ maxIntDigits

end Lexemes

section Decoder

/-- What is done with the fields of an object and with the constants that are no JSON, and
the error of a text that is malformed. -/
structure Hooks (ε : Type) where
  objectPairs : List (List ℕ × Value) → Except ε Value
  parseConstant : List Char → Except ε Value
  malformed : ε

variable {ε : Type} (hooks : Hooks ε)

def scanString (s : List Char) : Except ε (List ℕ × List Char) :=
  match scanUnits s with
  | some (units, rest) => .ok (joinPoints units, rest)
  | none => .error hooks.malformed

/-- A constant or a number. -/
def scanScalar (s : List Char) : Except ε (Value × List Char) :=
  match s with
  | 'n' :: 'u' :: 'l' :: 'l' :: rest => .ok (.null, rest)
  | 't' :: 'r' :: 'u' :: 'e' :: rest => .ok (.bool true, rest)
  | 'f' :: 'a' :: 'l' :: 's' :: 'e' :: rest => .ok (.bool false, rest)
  | 'N' :: 'a' :: 'N' :: rest => (hooks.parseConstant ['N', 'a', 'N']).map (·, rest)
  | 'I' :: 'n' :: 'f' :: 'i' :: 'n' :: 'i' :: 't' :: 'y' :: rest =>
      (hooks.parseConstant ['I', 'n', 'f', 'i', 'n', 'i', 't', 'y']).map (·, rest)
  | '-' :: 'I' :: 'n' :: 'f' :: 'i' :: 'n' :: 'i' :: 't' :: 'y' :: rest =>
      (hooks.parseConstant ['-', 'I', 'n', 'f', 'i', 'n', 'i', 't', 'y']).map (·, rest)
  | s =>
      match scanNumber s with
      | some (n, rest) => if n.converts then .ok (.number n, rest) else .error hooks.malformed
      | none => .error hooks.malformed

mutual

/-- A value with `depth` containers open around it.  Every call but those of a value in a
container moves on in the text, so twice its length bounds the number of calls. -/
def decodeValue : ℕ → ℕ → List Char → Run ε Value
  | 0, _, _ => .fail hooks.malformed
  | _ + 1, _, '"' :: rest =>
      .produced ((scanString hooks rest).map fun (points, rest) => (.string points, rest))
  | fuel + 1, depth, '{' :: rest =>
      .opened (depth + 1) <|
        match skipBlank rest with
        | '}' :: rest => .done (hooks.objectPairs []) rest
        | rest => decodeFields fuel (depth + 1) [] rest
  | fuel + 1, depth, '[' :: rest =>
      .opened (depth + 1) <|
        match skipBlank rest with
        | ']' :: rest => .done (.ok (.array [])) rest
        | rest => decodeItems fuel (depth + 1) [] rest
  | _ + 1, _, s => .produced (scanScalar hooks s)

/-- The items of an array that has `done` so far. -/
def decodeItems : ℕ → ℕ → List Value → List Char → Run ε Value
  | 0, _, _, _ => .fail hooks.malformed
  | fuel + 1, depth, done, s =>
      (decodeValue fuel depth s).andThen fun item rest =>
        match skipBlank rest with
        | ']' :: rest => .done (.ok (.array (done ++ [item]))) rest
        | ',' :: rest => decodeItems fuel depth (done ++ [item]) (skipBlank rest)
        | _ => .fail hooks.malformed

/-- The fields of an object that has `done` so far. -/
def decodeFields : ℕ → ℕ → List (List ℕ × Value) → List Char → Run ε Value
  | 0, _, _, _ => .fail hooks.malformed
  | fuel + 1, depth, done, '"' :: rest =>
      (Run.produced (scanString hooks rest)).andThen fun key rest =>
        match skipBlank rest with
        | ':' :: rest =>
            (decodeValue fuel depth (skipBlank rest)).andThen fun value rest =>
              match skipBlank rest with
              | '}' :: rest => .done (hooks.objectPairs (done ++ [(key, value)])) rest
              | ',' :: rest => decodeFields fuel depth (done ++ [(key, value)]) (skipBlank rest)
              | _ => .fail hooks.malformed
        | _ => .fail hooks.malformed
  | _ + 1, _, _, _ => .fail hooks.malformed

end

/-- `json.loads(text, object_pairs_hook=…, parse_constant=…)`. -/
def loads (s : List Char) : Run ε Value :=
  if s.head? = some (Char.ofNat 0xFEFF) then .fail hooks.malformed
  else
    (decodeValue hooks (2 * s.length + 1) 0 (skipBlank s)).andThen fun value rest =>
      if skipBlank rest = [] then .done (.ok value) [] else .fail hooks.malformed

end Decoder

end SearchTrust.Text.JsonText
