/-
Weekly opening hours that a text states.  Texts are lists of code points; what Unicode
says about characters is a parameter.
-/
import SearchTrust.Market.Values
import SearchTrust.Order.Intervals
import SearchTrust.Text.Patterns

namespace SearchTrust.Hours

open SearchTrust.Text
open SearchTrust.Order

section Characters

/-- The parts of `unicodedata`, `str` and `re` that the patterns rest on. -/
structure TextLibrary where
  nfkc : List Char → List Char
  casefold : List Char → List Char
  lower : List Char → List Char
  isSpace : Char → Bool
  isWord : Char → Bool
  /-- The value of a decimal digit. -/
  decimal : Char → Option ℕ
  /-- Whether a character of a pattern matches one of the text under `re.I`. -/
  sameCase : Char → Char → Bool

variable (lib : TextLibrary)

def isDigit (c : Char) : Bool := (lib.decimal c).isSome

/-- `text.strip()`. -/
def strip (text : List Char) : List Char :=
  ((text.dropWhile lib.isSpace).reverse.dropWhile lib.isSpace).reverse

def isDash (c : Char) : Bool := c = '–' || c = '—' || c = '−'

/-- `normalized`. -/
def normalized (text : List Char) : List Char :=
  let spaced := (lib.nfkc text).map fun c => if c.toNat = 0xA0 then ' ' else c
  strip lib (spaced.map fun c => if isDash c then '-' else c)

/-- A text whose case does not count. -/
def anyCase (text : String) : Pattern := literal lib.sameCase text

/-- A text as it is written. -/
def exact (text : String) : Pattern := literal (fun a b => a = b) text

/-- A class of characters whose case does not count. -/
def inClass (members : String) (c : Char) : Bool := members.toList.any fun a => lib.sameCase a c

def spaces : Pattern := many lib.isSpace

/-- `\b(?:...)\b`. -/
def words (choices : List Pattern) : Pattern :=
  inOrder [boundary lib.isWord, anyOf choices, boundary lib.isWord]

def letters : String := "ABCDEFGHIJKLMNOPQRSTUVWXYZabcdefghijklmnopqrstuvwxyz"

end Characters

section Days

variable (lib : TextLibrary)

/-- The first three letters of `DAYS`. -/
def dayHeads : List (List Char) :=
  ["mon".toList, "tue".toList, "wed".toList, "thu".toList, "fri".toList, "sat".toList,
    "sun".toList]

/-- `DAY`. -/
def dayName : Pattern :=
  let name (head tail : String) := seq (anyCase lib head) (maybe (anyCase lib tail))
  anyOf [name "mon" "day", name "tue" "sday", name "wed" "nesday", name "thu" "rsday",
    name "fri" "day", name "sat" "urday", name "sun" "day"]

/-- `DAY_RE`. -/
def dayPattern : Pattern :=
  inOrder [boundary lib.isWord, group 1 (dayName lib),
    maybe (inOrder [spaces lib, exact "-", spaces lib, group 2 (dayName lib)]),
    boundary lib.isWord]

/-- `day_number`; `none` is a `StopIteration`. -/
def dayNumber (text : List Char) : Option ℕ :=
  dayHeads.findIdx? fun head => head = (lib.lower text).take 3

/-- The days from one to another, over the end of the week. -/
def dayRange (first last : ℕ) : List ℕ :=
  (List.range ((last + 7 - first) % 7 + 1)).map fun i => (first + i) % 7

/-- The days that a match of `DAY_RE` names. -/
def namedDays (groups : Groups) : Option (List ℕ) := do
  let first ← groups.lookup 1
  let start ← dayNumber lib first
  let last ← dayNumber lib ((groups.lookup 2).getD first)
  return dayRange start last

/-- The phrases for every day. -/
def dailyPattern : Pattern :=
  alt (words lib [anyCase lib "every day", anyCase lib "daily", anyCase lib "seven days",
      anyCase lib "7 days"])
    (inOrder [exact "24", spaces lib, exact "/", spaces lib, exact "7"])

end Days

section Times

variable (lib : TextLibrary)

/-- `[ap]\s*\.?\s*m\.?`. -/
def meridiem : Pattern :=
  inOrder [one (inClass lib "ap"), spaces lib, maybe (exact "."), spaces lib, anyCase lib "m",
    maybe (exact ".")]

/-- `\d{1,2}`. -/
def hourDigits : Pattern := seq (one (isDigit lib)) (maybe (one (isDigit lib)))

def minuteDigits : Pattern := exactly 2 (one (isDigit lib))

/-- `TIME`. -/
def timePattern : Pattern :=
  inOrder [hourDigits lib, maybe (seq (exact ":") (minuteDigits lib)), spaces lib,
    maybe (meridiem lib)]

/-- `INTERVAL`. -/
def intervalPattern : Pattern :=
  inOrder [notAfter (isDigit lib), group 1 (timePattern lib), spaces lib,
    anyOf [exact "-", anyCase lib "to"], spaces lib, group 2 (timePattern lib),
    notBefore (isDigit lib)]

/-- The pattern of `clock_minutes`. -/
def clockPattern : Pattern :=
  inOrder [group 1 (hourDigits lib), maybe (seq (exact ":") (group 2 (minuteDigits lib))),
    spaces lib, maybe (group 3 (meridiem lib))]

/-- `int` of decimal digits. -/
def digitsValue (digits : List Char) : ℕ :=
  digits.foldl (fun value c => 10 * value + (lib.decimal c).getD 0) 0

/-- `clock_minutes`. -/
def clockMinutes (text : List Char) : Except String ℕ :=
  match fullMatch (clockPattern lib) (strip lib text) with
  | none => .error "unsupported_time"
  | some groups =>
      let hour := digitsValue lib ((groups.lookup 1).getD [])
      let minute := (groups.lookup 2).elim 0 (digitsValue lib)
      if 59 < minute then .error "invalid_time"
      else
        match groups.lookup 3 with
        | some half =>
            if ¬ (1 ≤ hour ∧ hour ≤ 12) then .error "invalid_time"
            else
              let noon := if (lib.lower half).head? = some 'p' then 12 else 0
              .ok ((hour % 12 + noon) * 60 + minute)
        | none =>
            if groups.lookup 2 = none then .error "meridiem_missing"
            else if 24 < hour ∨ (hour = 24 ∧ minute ≠ 0) then .error "invalid_time"
            else .ok (hour * 60 + minute)

end Times

section Bodies

variable (lib : TextLibrary)

abbrev Interval := ℕ × ℕ

def closedPattern : Pattern := words lib [anyCase lib "closed", anyCase lib "not open"]

/-- `24\s*(?:hours?|/\s*7)`. -/
def fullDay : Pattern :=
  inOrder [exact "24", spaces lib,
    anyOf [seq (anyCase lib "hour") (maybe (anyCase lib "s")),
      inOrder [exact "/", spaces lib, exact "7"]]]

def allDayPattern : Pattern :=
  inOrder [boundary lib.isWord, maybe (seq (anyCase lib "open") (spaces lib)), fullDay lib,
    boundary lib.isWord]

/-- The phrases that may stand next to the times. -/
def fullWeekPattern : Pattern :=
  anyOf [fullDay lib, inOrder [exact "7", spaces lib, anyCase lib "days"],
    inOrder [exact "24", spaces lib, exact "/", spaces lib, exact "7"]]

def fillerPattern : Pattern :=
  words lib (["opening", "business", "office", "hours", "open", "closed", "not", "daily",
    "every", "day", "seven", "days", "a", "week", "and", "to"].map (anyCase lib))

/-- `[A-Za-z0-9]`. -/
def isPlainAlnum (c : Char) : Bool := c.isAlphanum

/-- What is left of a body without its times and the words that may stand there. -/
def residue (body : List Char) : List Char :=
  remove (fillerPattern lib) (remove (fullWeekPattern lib) (remove (intervalPattern lib) body))

/-- An interval of a body, and whether its end was taken for midnight. -/
def spanInterval (structured : Bool) (groups : Groups) : Except String (Interval × Bool) := do
  let first ← clockMinutes lib ((groups.lookup 1).getD [])
  let last ← clockMinutes lib ((groups.lookup 2).getD [])
  if first = last ∨ first = 1440 then .error "ambiguous_equal_endpoints"
  else if structured ∧ first = 0 ∧ last = 1439 then .ok ((first, 1440), true)
  else .ok ((first, last), false)

/-- The intervals that a body states before its other words are looked at. -/
def statedRanges (structured : Bool) (body : List Char) :
    Except String (List Interval × Bool) :=
  let closed := occurs (closedPattern lib) body
  let allDay := occurs (allDayPattern lib) body
  let spans := (pieces (intervalPattern lib) body).2.map Prod.fst
  if closed ∧ (allDay ∨ spans ≠ []) then .error "conflicting_day_states"
  else if closed then .ok ([], false)
  else if allDay then .ok ([(0, 1440)], false)
  else if spans = [] then .error "time_not_explicit"
  else do
    let intervals ← spans.mapM (spanInterval lib structured)
    return (intervals.map Prod.fst, intervals.any Prod.snd)

/-- The intervals of a body, and whether one of them was changed. -/
def bodyRanges (structured : Bool) (body : List Char) : Except String (List Interval × Bool) := do
  let ranges ← statedRanges lib structured body
  if (residue lib body).any isPlainAlnum then .error "unparsed_hours_condition"
  else if 8 < ranges.1.length then .error "resource_limit"
  else .ok ranges

end Bodies

section Weeks

variable (lib : TextLibrary)

/-- The intervals of some days of the week, in the order in which the days came. -/
abbrev Week := List (ℕ × List Interval)

/-- The hours of a day, which may be said again in the same words. -/
def setDay (ranges : List Interval) (weekly : Week) (day : ℕ) : Except String Week :=
  match weekly.lookup day with
  | none => .ok (weekly ++ [(day, ranges)])
  | some known => if known = ranges then .ok weekly else .error "conflicting_day_states"

/-- A part of the text about some days. -/
structure Chunk where
  days : List ℕ
  body : List Char

def addChunk (structured : Bool) (state : Week × Bool) (chunk : Chunk) :
    Except String (Week × Bool) := do
  let ranges ← bodyRanges lib structured chunk.body
  let weekly ← chunk.days.foldlM (setDay ranges.1) state.1
  return (weekly, state.2 || ranges.2)

/-- The hours as they are written, day by day. -/
def writtenWeek (structured : Bool) (chunks : List Chunk) : Except String (Week × Bool) :=
  chunks.foldlM (addChunk lib structured) ([], false)

/-- `(?:and)?` between separators: the days before it share the hours behind it. -/
def connectorPattern : Pattern :=
  let separators := many fun c => lib.isSpace c || c = ',' || c = ':' || c = ';' || c = '&'
  inOrder [separators, maybe (anyCase lib "and"), separators]

def shareBodies : List Chunk → List Chunk
  | [] => []
  | [chunk] => [chunk]
  | chunk :: next :: rest =>
      let later := shareBodies (next :: rest)
      if (fullMatch (connectorPattern lib) chunk.body).isSome then
        { chunk with body := ((later.head?).map (·.body)).getD [] } :: later
      else chunk :: later

/-- A match of `DAY_RE` with the text up to the next one. -/
def namedChunk (found : Groups × List Char) : Option Chunk := do
  let days ← namedDays lib found.1
  return ⟨days, found.2⟩

/-- The chunks of a text; `none` is a `StopIteration`, and without days there are none. -/
def weekChunks (text : List Char) : Option (List Chunk) := do
  let found := (pieces (dayPattern lib) text).2
  if found = [] then
    if occurs (dailyPattern lib) text then some [⟨List.range 7, text⟩] else some []
  else
    let chunks ← found.mapM (namedChunk lib)
    return shareBodies lib chunks

def nextDay (day : ℕ) : ℕ := (day + 1) % 7

def isOvernight (interval : Interval) : Bool := interval.2 < interval.1

/-- The part of an interval on its own day. -/
def ownPart (interval : Interval) : Interval :=
  if isOvernight interval then (interval.1, 1440) else interval

/-- The next day is stated and leaves no room for the end of the night. -/
def nightConflict (weekly : Week) (day : ℕ) (interval : Interval) : Bool :=
  isOvernight interval &&
    match weekly.lookup (nextDay day) with
    | none => false
    | some ranges => !ranges.any fun other =>
        (other.1 = 0 && interval.2 ≤ other.2) || isOvernight other

/-- `expanded.setdefault(day, []).extend(intervals)`. -/
def extendDay (day : ℕ) (intervals : List Interval) : Week → Week
  | [] => [(day, intervals)]
  | entry :: rest =>
      if entry.1 = day then (entry.1, entry.2 ++ intervals) :: rest
      else entry :: extendDay day intervals rest

/-- The hours of a day, with the ends of its nights on the next day. -/
def expandDay (expanded : Week) (entry : ℕ × List Interval) : Week :=
  let nights := entry.2.filter isOvernight
  let spilled := nights.foldl
    (fun week interval => extendDay (nextDay entry.1) [(0, interval.2)] week) expanded
  extendDay entry.1 (entry.2.map ownPart) spilled

/-- The hours of each day on the day on which they fall. -/
def expandWeek (weekly : Week) : Except String Week :=
  if weekly.any fun entry => entry.2.any (nightConflict weekly entry.1) then
    .error "conflicting_overnight"
  else
    .ok ((weekly.foldl expandDay []).map fun entry => (entry.1, mergeIntervals entry.2))

end Weeks

section Results

variable (lib : TextLibrary)

inductive Classification where
  | parsed
  | parseAmbiguous
  | tourSchedule
  | emergency
  | appointmentOnly
  | other
deriving DecidableEq, Repr

structure WeekResult where
  classification : Classification
  purpose : String
  days : Week
  reason : Option String
  transformations : Option (List String) := none
deriving DecidableEq

def exactWords (texts : List String) : Pattern := words lib (texts.map exact)

def tourPattern : Pattern :=
  exactWords lib ["tour", "tours", "hike", "hikes", "departure", "departures", "start time",
    "start times", "group tour", "private hike", "duration", "meeting time"]

def datedPattern : Pattern :=
  alt (exactWords lib ["holiday", "seasonal", "temporary", "christmas", "thanksgiving"])
    (inOrder [boundary lib.isWord, exactly 4 (one (isDigit lib)), exact "-",
      exactly 2 (one (isDigit lib)), exact "-", exactly 2 (one (isDigit lib)),
      boundary lib.isWord])

def zonePattern : Pattern :=
  alt (words lib (["utc", "gmt", "pst", "pdt", "est", "edt", "cst", "cdt", "hst", "bst"].map
      (anyCase lib)))
    (inOrder [several (inClass lib letters), exact "/",
      several (inClass lib (letters ++ "_"))])

/-- A text that is no statement of regular hours. -/
def notRegular (lo : List Char) : Option WeekResult :=
  if occurs (tourPattern lib) lo then
    some ⟨.tourSchedule, "tour_schedule", [], some "not_business_hours", none⟩
  else if occurs (exactWords lib ["emergency", "emergencies", "hotline"]) lo then
    some ⟨.emergency, "emergency", [], some "not_regular_hours", none⟩
  else if occurs (exactWords lib ["appointment", "by request"]) lo then
    some ⟨.appointmentOnly, "appointment_only", [], some "appointment_condition", none⟩
  else if occurs (datedPattern lib) lo then
    some ⟨.other, "dated_special", [], some "dated_hours", none⟩
  else none

/-- The days of the chunks, or why they could not be read. -/
def readWeek (structured : Bool) (chunks : List Chunk) : Except String (Week × Bool) := do
  let written ← writtenWeek lib structured chunks
  let expanded ← expandWeek written.1
  return (expanded, written.2)

/-- `parse_week`; `none` is a `StopIteration`. -/
def parseWeek (structured : Bool) (given : List Char) : Option WeekResult :=
  let text := normalized lib given
  if 4000 < text.length then
    some ⟨.parseAmbiguous, "unknown", [], some "resource_limit", none⟩
  else
    let lo := lib.casefold text
    match notRegular lib lo with
    | some result => some result
    | none =>
        let purpose := if occurs (exact "office") lo then "office" else "regular_business"
        let ambiguous (reason : String) : WeekResult :=
          ⟨.parseAmbiguous, purpose, [], some reason, none⟩
        if occurs (zonePattern lib) text then
          some (ambiguous "explicit_timezone_requires_review")
        else
          match weekChunks lib text with
          | none => none
          | some [] => some (ambiguous "days_not_explicit")
          | some chunks =>
              match readWeek lib structured chunks with
              | .error reason => some (ambiguous reason)
              | .ok (days, changed) =>
                  some ⟨.parsed, purpose, days, none,
                    some (if changed then ["structured_full_day_2359"] else [])⟩

end Results

section Specs

open SearchTrust.Market (Value Fields)

variable (lib : TextLibrary)

/-- `DAYS`. -/
def dayNames : List (List Char) :=
  ["monday".toList, "tuesday".toList, "wednesday".toList, "thursday".toList,
    "friday".toList, "saturday".toList, "sunday".toList]

def unknownHours (classification : Classification) (purpose reason : String) : WeekResult :=
  ⟨classification, purpose, [], some reason, none⟩

/-- `str(day).rsplit('/', 1)[-1].lower()`. -/
def specDay (str : Value → List Char) (day : Value) : List Char :=
  lib.lower ((str day).reverse.takeWhile (· ≠ '/')).reverse

/-- The days of a specification: none, one or a list of them. -/
def specDays : Option Value → List Value
  | none => []
  | some (.list days) => days
  | some day => [day]

/-- `by_day.setdefault(name, []).append(part)`. -/
def appendPart (part : List Char) (byDay : List (List Char × List (List Char)))
    (name : List Char) : List (List Char × List (List Char)) :=
  match byDay.findIdx? fun entry => entry.1 = name with
  | none => byDay ++ [(name, [part])]
  | some i => byDay.modify i fun entry => (entry.1, entry.2 ++ [part])

/-- The days of a specification with its hours, or why it has none. -/
def readSpec (str : Value → List Char) (byDay : List (List Char × List (List Char)))
    (spec : Value) : Except WeekResult (List (List Char × List (List Char))) :=
  match spec with
  | .dict fields =>
      let dated := ((Fields.get fields "validFrom").any Value.truthy) ||
        ((Fields.get fields "validThrough").any Value.truthy)
      let names := (specDays (Fields.get fields "dayOfWeek")).map (specDay lib str)
      let shown (key : String) := (Fields.get fields key).elim [] str
      if dated then .error (unknownHours .other "dated_special" "dated_hours")
      else if names.any (· ∉ dayNames) then
        .error (unknownHours .parseAmbiguous "unknown" "invalid_weekday")
      else if names = [] then
        .error (unknownHours .parseAmbiguous "unknown" "days_not_explicit")
      else
        let part := shown "opens" ++ " - ".toList ++ shown "closes"
        .ok (names.foldl (appendPart part) byDay)
  | _ => .error (unknownHours .parseAmbiguous "unknown" "invalid_structured_hours")

/-- `parse_spec`. -/
def parseSpec (str : Value → List Char) (value : Value) : Option WeekResult :=
  let specs := match value with
    | .list specs => specs
    | spec => [spec]
  match specs.foldlM (readSpec lib str) [] with
  | .error result => some result
  | .ok byDay =>
      let line (entry : List Char × List (List Char)) :=
        entry.1 ++ ": ".toList ++ ", ".toList.intercalate entry.2
      parseWeek lib true ("\n".toList.intercalate (byDay.map line))

end Specs

section Samples

/-- A library that knows the ASCII characters. -/
def asciiLibrary : TextLibrary where
  nfkc := id
  casefold text := text.map Char.toLower
  lower text := text.map Char.toLower
  isSpace c := c.isWhitespace
  isWord c := c.isAlphanum || c = '_'
  decimal c := if c.isDigit then some (c.toNat - '0'.toNat) else none
  sameCase a b := a.toLower = b.toLower

end Samples

end SearchTrust.Hours
