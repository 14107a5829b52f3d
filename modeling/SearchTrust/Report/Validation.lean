/-
Strict model validation of JSON values.  A value is read into a model, or the
locations of everything that is wrong with it are reported.
-/
import SearchTrust.Report.Encoding

namespace SearchTrust.Report

open SearchTrust.Jobs (Json strip)

/-- One step of the location of an error. -/
inductive LocPart where
  | key (name : String)
  | index (position : Nat)
deriving DecidableEq

/-- A value, or the locations of its errors in their order. -/
abbrev Validated (α : Type) := Except (List (List LocPart)) α

abbrev Reader (α : Type) := Json → Validated α

namespace Validated

variable {α β : Type}

/-- An error of the value itself. -/
def fail : Validated α := .error [[]]

def at_ (part : LocPart) : Validated α → Validated α
  | .ok value => .ok value
  | .error locs => .error (locs.map (part :: ·))

/-- Both values, or the errors of both. -/
def both : Validated α → Validated β → Validated (α × β)
  | .ok a, .ok b => .ok (a, b)
  | .ok _, .error locs => .error locs
  | .error locs, .ok _ => .error locs
  | .error locs, .error more => .error (locs ++ more)

/-- A model validator that runs after the fields. -/
def check (p : α → Bool) : Validated α → Validated α
  | .ok value => if p value then .ok value else fail
  | .error locs => .error locs

@[simp] theorem at_ok (part : LocPart) (value : α) :
    at_ part (.ok value : Validated α) = .ok value := rfl

@[simp] theorem both_ok (a : α) (b : β) :
    both (.ok a : Validated α) (.ok b) = .ok (a, b) := rfl

end Validated

namespace Reader

variable {α β : Type}

/-- A text, stripped, of some form. -/
def text (form : String → Bool) : Reader String
  | .string s => if form (strip s) then .ok (strip s) else Validated.fail
  | _ => Validated.fail

/-- `Literal[value]`. -/
def literal (value : String) : Reader Unit
  | .string s => if s = value then .ok () else Validated.fail
  | _ => Validated.fail

/-- The value of an integer literal. -/
def digitsValue (digits : List Char) : Option Nat :=
  if digits ≠ [] ∧ digits.all Char.isDigit then
    some (digits.foldl (fun n c => 10 * n + (c.toNat - '0'.toNat)) 0)
  else none

/-- A natural number between two bounds. -/
def natural (low high : Nat) : Reader Nat
  | .number literal =>
      match digitsValue literal.toList with
      | some n => if low ≤ n ∧ n ≤ high then .ok n else Validated.fail
      | none => Validated.fail
  | _ => Validated.fail

/-- The items of a list, with the errors of all of them. -/
def items (read : Reader α) : Nat → List Json → Validated (List α)
  | _, [] => .ok []
  | position, item :: rest =>
      match (Validated.at_ (.index position) (read item)).both
          (items read (position + 1) rest) with
      | .ok (a, as) => .ok (a :: as)
      | .error locs => .error locs

/-- A list with bounds on its length. -/
def list (read : Reader α) (low : Nat) (high : Option Nat) : Reader (List α)
  | .array values =>
      if high.any (· < values.length) then Validated.fail
      else (items read 0 values).check fun as => low ≤ as.length
  | _ => Validated.fail

/-- A dictionary entry replaces an earlier one under the same key. -/
def insertEntry (entries : List (String × α)) (key : String) (value : α) :
    List (String × α) :=
  if key ∈ entries.map Prod.fst then
    entries.map fun e => if e.1 = key then (key, value) else e
  else entries ++ [(key, value)]

def entries (readKey : String → Bool) (read : Reader α) :
    List (String × Json) → Validated (List (String × α))
  | [] => .ok []
  | (key, value) :: rest =>
      let first : Validated String :=
        if readKey (strip key) then .ok (strip key)
        else .error [[.key key, .key "[key]"]]
      match (first.both (Validated.at_ (.key key) (read value))).both
          (entries readKey read rest) with
      | .ok (entry, more) => .ok (entry :: more)
      | .error locs => .error locs

/-- A dictionary with bounds on its length. -/
def dict (readKey : String → Bool) (read : Reader α) (low high : Nat) :
    Reader (List (String × α))
  | .object fields =>
      match entries readKey read fields with
      | .ok pairs =>
          let merged := pairs.foldl (fun merged e => insertEntry merged e.1 e.2) []
          if low ≤ merged.length ∧ merged.length ≤ high then .ok merged
          else Validated.fail
      | .error locs => .error locs
  | _ => Validated.fail

/-- A required field of a model. -/
def required (fields : List (String × Json)) (name : String) (read : Reader α) :
    Validated α :=
  match fields.lookup name with
  | some value => Validated.at_ (.key name) (read value)
  | none => .error [[.key name]]

/-- A field with a default. -/
def optional (fields : List (String × Json)) (name : String) (read : Reader α)
    (default : α) : Validated α :=
  match fields.lookup name with
  | some value => Validated.at_ (.key name) (read value)
  | none => .ok default

/-- `extra="forbid"`: the errors of the fields come before those of unknown keys. -/
def closed (fields : List (String × Json)) (names : List String)
    (value : Validated α) : Validated α :=
  let unknown := (fields.filter fun e => e.1 ∉ names).map fun e => [LocPart.key e.1]
  match value with
  | .ok a => if unknown = [] then .ok a else .error unknown
  | .error locs => .error (locs ++ unknown)

end Reader

end SearchTrust.Report
