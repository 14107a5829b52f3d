/-
`json.loads`.  A container that is nested deeper than the interpreter recurses
ends the scan with an error of its own.
-/
import SearchTrust.Report.Encoding

namespace SearchTrust.Report

open SearchTrust.Jobs (Json)

inductive LoadError where
  | decodeError
  | recursionError
deriving DecidableEq

abbrev Scan (α : Type) := Except LoadError (α × List Char)

section Scalars

def isJsonSpace (c : Char) : Bool := c = ' ' || c = '\t' || c = '\n' || c = '\r'

def skipSpace (s : List Char) : List Char := s.dropWhile isJsonSpace

def hexValue (c : Char) : Option Nat :=
  if c.isDigit then some (c.toNat - '0'.toNat)
  else if 'a' ≤ c ∧ c ≤ 'f' then some (c.toNat - 'a'.toNat + 10)
  else if 'A' ≤ c ∧ c ≤ 'F' then some (c.toNat - 'A'.toNat + 10)
  else none

/-- The code unit of `\uXXXX`. -/
def codeUnit (a b c d : Char) : Option Nat := do
  let a ← hexValue a
  let b ← hexValue b
  let c ← hexValue c
  let d ← hexValue d
  return ((a * 16 + b) * 16 + c) * 16 + d

def unescape : Char → Option Nat
  | '"' => some 34
  | '\\' => some 92
  | '/' => some 47
  | 'b' => some 8
  | 'f' => some 12
  | 'n' => some 10
  | 'r' => some 13
  | 't' => some 9
  | _ => none

/-- The code units up to the closing quote. -/
def scanUnits : List Char → Scan (List Nat)
  | [] => .error .decodeError
  | '"' :: rest => .ok ([], rest)
  | '\\' :: 'u' :: a :: b :: c :: d :: rest =>
      match codeUnit a b c d, scanUnits rest with
      | some u, .ok (units, rest) => .ok (u :: units, rest)
      | _, _ => .error .decodeError
  | '\\' :: c :: rest =>
      match unescape c, scanUnits rest with
      | some u, .ok (units, rest) => .ok (u :: units, rest)
      | _, _ => .error .decodeError
  | c :: rest =>
      if c.toNat < 32 ∨ c = '\\' then .error .decodeError
      else
        match scanUnits rest with
        | .ok (units, rest) => .ok (c.toNat :: units, rest)
        | .error e => .error e

/-- A lone surrogate, which no model field accepts, is read as U+FFFD. -/
def unitChar (u : Nat) : Char :=
  if u.isValidChar then Char.ofNat u else Char.ofNat 0xFFFD

/-- Two escaped surrogates make one character. -/
def joinUnits : List Nat → List Char
  | high :: low :: rest =>
      if 0xD800 ≤ high ∧ high < 0xDC00 ∧ 0xDC00 ≤ low ∧ low < 0xE000 then
        Char.ofNat (0x10000 + (high - 0xD800) * 0x400 + (low - 0xDC00)) :: joinUnits rest
      else unitChar high :: joinUnits (low :: rest)
  | [u] => [unitChar u]
  | [] => []

def scanString (s : List Char) : Scan String :=
  match scanUnits s with
  | .ok (units, rest) => .ok (.ofList (joinUnits units), rest)
  | .error e => .error e

/-- The digits behind a point, if there is one. -/
def scanFraction : List Char → List Char × List Char
  | '.' :: d :: rest =>
      if d.isDigit then ('.' :: d :: rest.takeWhile Char.isDigit, rest.dropWhile Char.isDigit)
      else ([], '.' :: d :: rest)
  | s => ([], s)

def scanExponent (s : List Char) : List Char × List Char :=
  match s with
  | e :: rest =>
      if e = 'e' ∨ e = 'E' then
        let sign := rest.take 1 |>.filter fun c => c = '+' || c = '-'
        let digits := rest.drop sign.length
        if digits.takeWhile Char.isDigit = [] then ([], s)
        else (e :: sign ++ digits.takeWhile Char.isDigit, digits.dropWhile Char.isDigit)
      else ([], s)
  | [] => ([], s)

/-- The default of `sys.get_int_max_str_digits`. -/
def maxIntDigits : Nat := 4300

def scanNumber (s : List Char) : Scan Json :=
  let sign := s.take 1 |>.filter fun c => c = '-'
  let digits := s.drop sign.length
  let whole := if digits.take 1 = ['0'] then ['0'] else digits.takeWhile Char.isDigit
  let rest := digits.drop whole.length
  let (fraction, rest) := scanFraction rest
  let (exponent, rest) := scanExponent rest
  if whole = [] then .error .decodeError
  else if fraction = [] ∧ exponent = [] ∧ maxIntDigits < whole.length then
    .error .decodeError
  else .ok (.number (.ofList (sign ++ whole ++ fraction ++ exponent)), rest)

/-- The constants, or a number. -/
def scanScalar (s : List Char) : Scan Json :=
  let word (w : String) (value : Json) (next : Scan Json) : Scan Json :=
    match s.dropPrefix? w.toList with
    | some rest => .ok (value, rest)
    | none => next
  word "null" .null <| word "true" (.bool true) <| word "false" (.bool false) <|
    word "NaN" (.number "NaN") <| word "Infinity" (.number "Infinity") <|
      word "-Infinity" (.number "-Infinity") (scanNumber s)

end Scalars

section Containers

/-- `_unique_json_object`. -/
def uniqueJsonObject (pairs : List (String × Json)) (rest : List Char) : Scan Json :=
  if (pairs.map Prod.fst).Nodup then .ok (.object pairs, rest) else .error .decodeError

mutual

/-- `scan_once`: `room` containers may still be opened inside each other.  Every
call moves on in the text, so twice its length bounds the number of calls. -/
def scanOnce : Nat → Nat → List Char → Scan Json
  | 0, _, _ => .error .decodeError
  | _ + 1, _, '"' :: rest =>
      match scanString rest with
      | .ok (value, rest) => .ok (.string value, rest)
      | .error e => .error e
  | _ + 1, 0, '{' :: _ => .error .recursionError
  | fuel + 1, room + 1, '{' :: rest =>
      match skipSpace rest with
      | '}' :: rest => .ok (.object [], rest)
      | rest => scanMembers fuel room [] rest
  | _ + 1, 0, '[' :: _ => .error .recursionError
  | fuel + 1, room + 1, '[' :: rest =>
      match skipSpace rest with
      | ']' :: rest => .ok (.array [], rest)
      | rest => scanItems fuel room [] rest
  | _ + 1, _, s => scanScalar s

/-- The items of a list that has `done` so far. -/
def scanItems : Nat → Nat → List Json → List Char → Scan Json
  | 0, _, _, _ => .error .decodeError
  | fuel + 1, room, done, s =>
      match scanOnce fuel room s with
      | .error e => .error e
      | .ok (item, rest) =>
          match skipSpace rest with
          | ']' :: rest => .ok (.array (done ++ [item]), rest)
          | ',' :: rest => scanItems fuel room (done ++ [item]) (skipSpace rest)
          | _ => .error .decodeError

def scanMembers : Nat → Nat → List (String × Json) → List Char → Scan Json
  | 0, _, _, _ => .error .decodeError
  | fuel + 1, room, done, '"' :: rest =>
      match scanString rest with
      | .error e => .error e
      | .ok (key, rest) =>
          match skipSpace rest with
          | ':' :: rest =>
              match scanOnce fuel room (skipSpace rest) with
              | .error e => .error e
              | .ok (value, rest) =>
                  match skipSpace rest with
                  | '}' :: rest => uniqueJsonObject (done ++ [(key, value)]) rest
                  | ',' :: rest =>
                      scanMembers fuel room (done ++ [(key, value)]) (skipSpace rest)
                  | _ => .error .decodeError
          | _ => .error .decodeError
  | _ + 1, _, _, _ => .error .decodeError

end

/-- `json.loads(text, object_pairs_hook=_unique_json_object)`. -/
def loads (room : Nat) (text : String) : Except LoadError Json :=
  if text.toList.head? = some (Char.ofNat 0xFEFF) then .error .decodeError
  else
    match scanOnce (2 * text.length + 2) room (skipSpace text.toList) with
    | .ok (value, rest) => if skipSpace rest = [] then .ok value else .error .decodeError
    | .error e => .error e

theorem skipSpace_brackets (n : Nat) :
    skipSpace (List.replicate n '[') = List.replicate n '[' := by
  cases n with
  | zero => rfl
  | succ n => rfl

/-- Brackets beyond the room of the scanner, by induction on the room. -/
theorem scanOnce_brackets {room n fuel : Nat} (hn : room < n) (hfuel : 2 * room < fuel) :
    scanOnce fuel room (List.replicate n '[') = .error .recursionError := by
  induction room generalizing n fuel with
  | zero =>
      obtain ⟨n, rfl⟩ : ∃ m, n = m + 1 := ⟨n - 1, by omega⟩
      obtain ⟨fuel, rfl⟩ : ∃ m, fuel = m + 1 := ⟨fuel - 1, by omega⟩
      rw [List.replicate_succ, scanOnce]
  | succ room ih =>
      obtain ⟨n, rfl⟩ : ∃ m, n = m + 2 := ⟨n - 2, by omega⟩
      obtain ⟨fuel, rfl⟩ : ∃ m, fuel = m + 2 := ⟨fuel - 2, by omega⟩
      have hinner := @ih (n + 1) fuel (by omega) (by omega)
      rw [List.replicate_succ, scanOnce, skipSpace_brackets, List.replicate_succ]
      rw [List.replicate_succ] at hinner
      change scanItems (fuel + 1) room [] ('[' :: List.replicate n '[') = _
      rw [scanItems, hinner]

theorem loads_brackets {room n : Nat} (hn : room < n) :
    loads room (.ofList (List.replicate n '[')) = .error .recursionError := by
  have hhead : (List.replicate n '[').head? ≠ some (Char.ofNat 0xFEFF) := by
    obtain ⟨n, rfl⟩ : ∃ m, n = m + 1 := ⟨n - 1, by omega⟩
    rw [List.replicate_succ, List.head?_cons]
    decide
  rw [loads, String.toList_ofList, if_neg hhead, skipSpace_brackets, String.length_ofList,
    List.length_replicate, scanOnce_brackets hn (by omega)]

end Containers

end SearchTrust.Report
