/-
The JSON-LD blocks of a page: a scan over the characters bounds the depth and the tokens of
a block before it is given to the decoder.
-/
import Mathlib.Algebra.GroupWithZero.Nat
import SearchTrust.Site.Html
import SearchTrust.Text.JsonDecoder

namespace SearchTrust.Site

open SearchTrust.Text.JsonText
open SearchTrust.Web (isSpace)

section Scanner

/-- `depth, string, escape, token`, and the counter that the blocks of a page share. -/
structure ScanState where
  depth : ℤ
  string : Bool
  escape : Bool
  token : Bool
  counter : ℕ
deriving DecidableEq

variable (limits : SiteBusinessLimits)

/-- `require(counter[0] <= limits.max_json_nodes_per_page, "LIMIT_EXCEEDED")`. -/
def checkedNodes (st : ScanState) : Option ScanState :=
  if st.counter ≤ limits.maxJsonNodesPerPage then some st else none

/-- A step of the scan; `none` is `LIMIT_EXCEEDED`. -/
def scanChar (st : ScanState) (c : Char) : Option ScanState :=
  if st.string then
    if st.escape then some { st with escape := false }
    else if c = '\\' then some { st with escape := true }
    else if c = '"' then some { st with string := false }
    else some st
  else if isSpace c ∨ c = ',' ∨ c = ':' then checkedNodes limits { st with token := false }
  else if c = '[' ∨ c = '{' then
    if st.depth + 1 ≤ limits.maxJsonDepth then
      checkedNodes limits
        { st with depth := st.depth + 1, counter := st.counter + 1, token := false }
    else none
  else if c = ']' ∨ c = '}' then
    checkedNodes limits { st with depth := st.depth - 1, token := false }
  else if c = '"' then
    checkedNodes limits { st with string := true, counter := st.counter + 1, token := false }
  else if ! st.token then
    checkedNodes limits { st with counter := st.counter + 1, token := true }
  else checkedNodes limits st

def scan (st : ScanState) (s : List Char) : Option ScanState := s.foldlM (scanChar limits) st

def startState (counter : ℕ) : ScanState := ⟨0, false, false, false, counter⟩

end Scanner

section Decoding

/-- `JsonIssue`, by its text. -/
inductive JsonIssue where
  | duplicateJsonKey
  | jsonldParseFailed
deriving DecidableEq

/-- `object_pairs`. -/
def objectPairs (pairs : List (List ℕ × Value)) : Except JsonIssue Value :=
  if (pairs.map Prod.fst).Nodup then .ok (.object pairs) else .error .duplicateJsonKey

/-- `reject_constant`. -/
def rejectConstant (_ : List Char) : Except JsonIssue Value := .error .jsonldParseFailed

def hooks : Hooks JsonIssue where
  objectPairs := objectPairs
  parseConstant := rejectConstant
  malformed := .jsonldParseFailed

def digitsValue (digits : List Char) : ℕ :=
  digits.foldl (fun n c => 10 * n + (c.toNat - '0'.toNat)) 0

/-- The magnitude of a number as a fraction of two integers. -/
def magnitude (n : NumberText) : ℕ × ℕ :=
  let mantissa := digitsValue (n.whole ++ n.fraction)
  let scale := 10 ^ n.fraction.length
  match n.exponent with
  | none => (mantissa, scale)
  | some (_, sign, digits) =>
      if sign = ['-'] then (mantissa, scale * 10 ^ digitsValue digits)
      else (mantissa * 10 ^ digitsValue digits, scale)

/-- `float` of the number is finite: it is below the middle between the greatest binary64
number and the power of two above it. -/
def isFinite (n : NumberText) : Bool :=
  n.isInt || (magnitude n).1 < (2 ^ 1024 - 2 ^ 970) * (magnitude n).2

/-- An integer of 64 bits, with or without a sign. -/
def isInteger64 (n : NumberText) : Bool :=
  ! n.isInt ||
    if n.negative then digitsValue n.whole ≤ 2 ^ 63 else digitsValue n.whole < 2 ^ 64

def isScalarText (points : List ℕ) : Bool :=
  points.all fun point => ! (0xD800 ≤ point && point < 0xE000)

/-- What `reject_nonfinite` and `canonical_json_bytes` let pass. -/
def encodable : Demand where
  number n := isFinite n && isInteger64 n
  text := isScalarText
  keys _ := true

/-- `decode_json`, behind the scan. -/
def decodeScanned (raw : List Char) : Except JsonIssue Value :=
  match (loads hooks raw).result with
  | .error issue => .error issue
  | .ok (value, _) => if meets encodable value then .ok value else .error .jsonldParseFailed

variable (limits : SiteBusinessLimits)

/-- `len(raw.encode("utf-8"))`. -/
def utf8Length (raw : List Char) : ℕ := (raw.map Char.utf8Size).sum

/-- The scan of a block: `none` is `LIMIT_EXCEEDED`, and else the decoder gets the block. -/
def admitted (counter : ℕ) (raw : List Char) : Option ScanState :=
  if utf8Length raw ≤ limits.maxJsonldBytes then scan limits (startState counter) raw else none

/-- `decode_json`: the counter behind the block and what becomes of it; `none` is
`LIMIT_EXCEEDED`. -/
def decodeJson (counter : ℕ) (raw : List Char) : Option (ℕ × Except JsonIssue Value) :=
  (admitted limits counter raw).map fun st => (st.counter, decodeScanned raw)

/-- The blocks of a page one after another, as far as the counter is concerned. -/
def decodeBlocks (counter : ℕ) : List (List Char) → Option (ℕ × List (Except JsonIssue Value))
  | [] => some (counter, [])
  | raw :: rest =>
      (decodeJson limits counter raw).bind fun (counter, decoded) =>
        (decodeBlocks counter rest).map fun (counter, others) => (counter, decoded :: others)

end Decoding

end SearchTrust.Site
