/-
Query strings and relative references as the standard library reads and writes them.
-/
import SearchTrust.Web.UrlText

namespace SearchTrust.Web

section Bytes

/-- `text.encode("utf-8")`. -/
def utf8 (s : Text) : List UInt8 := s.flatMap String.utf8EncodeChar

/-- The byte of an ASCII character. -/
def asciiByte (c : Char) : UInt8 := UInt8.ofNat c.toNat

def isAscii (c : Char) : Bool := c.toNat < 128

/-- The value of a hexadecimal digit. -/
def hexValue (c : Char) : Option ℕ :=
  if c.isDigit then some (c.toNat - 48)
  else if 'a' ≤ c ∧ c ≤ 'f' then some (c.toNat - 87)
  else if 'A' ≤ c ∧ c ≤ 'F' then some (c.toNat - 55)
  else none

/-- The upper-case hexadecimal digit of a value. -/
def hexDigit (n : ℕ) : Char := if n < 10 then Char.ofNat (48 + n) else Char.ofNat (55 + n)

/-- `unquote_to_bytes`, of an ASCII text. -/
def unquoteToBytes : Text → List UInt8
  | [] => []
  | '%' :: a :: b :: rest =>
      match hexValue a, hexValue b with
      | some high, some low => UInt8.ofNat (16 * high + low) :: unquoteToBytes rest
      | _, _ => asciiByte '%' :: unquoteToBytes (a :: b :: rest)
  | c :: rest => asciiByte c :: unquoteToBytes rest

end Bytes

section Queries

/-- `_ALWAYS_SAFE`. -/
def isAlwaysSafe (c : Char) : Bool := c.isAlphanum || c = '_' || c = '.' || c = '-' || c = '~'

/-- What `quote` puts for a byte. -/
def quoteByte (b : UInt8) : Text :=
  ['%', hexDigit (b.toNat / 16), hexDigit (b.toNat % 16)]

/-- What `quote_plus` puts for a character. -/
def quotePlusChar (c : Char) : Text :=
  if isAlwaysSafe c then [c]
  else if c = ' ' then ['+']
  else (String.utf8EncodeChar c).flatMap quoteByte

/-- `quote_plus`. -/
def quotePlus (s : Text) : Text := s.flatMap quotePlusChar

/-- `urlencode(items, doseq=True)`, of texts. -/
def urlencode (items : List (Text × Text)) : Text :=
  ['&'].intercalate (items.map fun item => quotePlus item.1 ++ '=' :: quotePlus item.2)

variable (decode : List UInt8 → Text)

/-- `unquote`: every run of ASCII characters is decoded. -/
def unquoteRuns : Text → Text → Text
  | [], run => decode (unquoteToBytes run.reverse)
  | c :: rest, run =>
      if isAscii c then unquoteRuns rest (c :: run)
      else decode (unquoteToBytes run.reverse) ++ c :: unquoteRuns rest []

/-- `unquote(string, errors="replace")`. -/
def unquote (s : Text) : Text := if '%' ∈ s then unquoteRuns decode s [] else s

/-- `unquote` of a text in which a plus stands for a space. -/
def unquotePlus (s : Text) : Text := unquote decode (s.map fun c => if c = '+' then ' ' else c)

/-- `parse_qsl(query, keep_blank_values=True)`. -/
def parseQsl (query : Text) : List (Text × Text) :=
  ((query.splitOn '&').filter (· ≠ [])).map fun item =>
    (unquotePlus decode (partition '=' item).1, unquotePlus decode (partition '=' item).2)

end Queries

end SearchTrust.Web
