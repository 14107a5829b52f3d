/-
The sizes of canonical JSON encodings.  The order of the keys does not change them.
-/
import Mathlib.Algebra.GroupWithZero.Nat
import SearchTrust.Jobs.Store

namespace SearchTrust.Report

open SearchTrust.Jobs (Json)

/-- The bytes of one character between quotes. -/
def charSize (c : Char) : Nat :=
  if c = '"' ∨ c = '\\' then 2
  else if c.toNat = 8 ∨ c.toNat = 9 ∨ c.toNat = 10 ∨ c.toNat = 12 ∨ c.toNat = 13 then 2
  else if c.toNat < 32 then 6
  else c.utf8Size

/-- The bytes of a text between quotes. -/
def contentSize (s : String) : Nat := (s.toList.map charSize).sum

def stringSize (s : String) : Nat := contentSize s + 2

mutual

/-- `len(canonical_json_bytes(value))`. -/
def jsonSize : Json → Nat
  | .null => 4
  | .bool value => if value then 4 else 5
  | .number literal => literal.length
  | .string value => stringSize value
  | .array items => itemsSize items + 2 + (items.length - 1)
  | .object fields => fieldsSize fields + 2 + (fields.length - 1)

def itemsSize : List Json → Nat
  | [] => 0
  | item :: rest => jsonSize item + itemsSize rest

def fieldsSize : List (String × Json) → Nat
  | [] => 0
  | (key, value) :: rest => stringSize key + 1 + jsonSize value + fieldsSize rest

end

mutual

/-- How deep containers are nested in a value. -/
def jsonDepth : Json → Nat
  | .array items => itemsDepth items + 1
  | .object fields => fieldsDepth fields + 1
  | _ => 0

def itemsDepth : List Json → Nat
  | [] => 0
  | item :: rest => max (jsonDepth item) (itemsDepth rest)

def fieldsDepth : List (String × Json) → Nat
  | [] => 0
  | (_, value) :: rest => max (jsonDepth value) (fieldsDepth rest)

end

theorem itemsSize_eq_sum (items : List Json) : itemsSize items = (items.map jsonSize).sum := by
  induction items with
  | nil => rfl
  | cons item rest ih => rw [itemsSize, ih, List.map_cons, List.sum_cons]

/-- `len(text.encode("utf-8"))`. -/
def utf8Size (s : String) : Nat := (s.toList.map Char.utf8Size).sum

/-- A list of texts. -/
def texts (values : List String) : Json := .array (values.map .string)

def number (n : Nat) : Json := .number (toString n)

end SearchTrust.Report
