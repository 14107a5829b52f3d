/-
The textual forms of identifiers and digests.
-/
import SearchTrust.Report.Encoding

namespace SearchTrust.Report

open SearchTrust.Jobs (Json)

def isLowerOrDigit (c : Char) : Bool := c.isLower || c.isDigit

def isLowerHex (c : Char) : Bool := c.isDigit || ('a' ≤ c && c ≤ 'f')

/-- `^[head]_[a-z0-9][a-z0-9_-]{2,80}$`. -/
def idForm (head : String) (s : String) : Bool :=
  match s.toList.dropPrefix? head.toList with
  | some (first :: rest) =>
      isLowerOrDigit first && rest.all (fun c => isLowerOrDigit c || c = '_' || c = '-') &&
        2 ≤ rest.length && rest.length ≤ 80
  | _ => false

def isFindingId : String → Bool := idForm "fn_"

def isActionId : String → Bool := idForm "ac_"

/-- `^sha256:[a-f0-9]{64}$`. -/
def isDigest (s : String) : Bool :=
  match s.toList.dropPrefix? "sha256:".toList with
  | some rest => rest.all isLowerHex && rest.length = 64
  | none => false

/-- `^[a-z][a-z0-9_]+$` within a number of characters. -/
def isSnakeName (longest : Nat) (s : String) : Bool :=
  match s.toList with
  | first :: rest =>
      first.isLower && rest.all (fun c => isLowerOrDigit c || c = '_') && rest ≠ [] &&
        rest.length < longest
  | [] => false

/-- A text within a number of characters. -/
def lengthWithin (low high : Nat) (s : String) : Bool :=
  low ≤ s.length && s.length ≤ high

def hexDigit (n : Nat) : Char :=
  if n < 10 then Char.ofNat ('0'.toNat + n) else Char.ofNat ('a'.toNat + (n - 10))

/-- `hexdigest()` of a hash. -/
def hexdigest (hash : BitVec 256) : List Char :=
  List.ofFn fun i : Fin 64 => hexDigit ((hash.toNat >>> (4 * (63 - i.val))) % 16)

/-- `sha256(canonical_json_bytes(value))`. -/
abbrev Hash := Json → BitVec 256

/-- `request_digest`. -/
def requestDigest (hash : Hash) (value : Json) : String :=
  .ofList ("sha256:".toList ++ hexdigest (hash value))

@[simp] theorem hexdigest_length (hash : BitVec 256) : (hexdigest hash).length = 64 := by
  rw [hexdigest, List.length_ofFn]

theorem isLowerHex_hexDigit : ∀ n < 16, isLowerHex (hexDigit n) = true := by decide

theorem isLowerHex_of_mem_hexdigest {hash : BitVec 256} {c : Char}
    (h : c ∈ hexdigest hash) : isLowerHex c = true := by
  rw [hexdigest, List.mem_ofFn] at h
  obtain ⟨i, rfl⟩ := h
  exact isLowerHex_hexDigit _ (Nat.mod_lt _ (by decide))

end SearchTrust.Report
