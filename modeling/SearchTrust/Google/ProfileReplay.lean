/-
Reading a stored collection back: the raw payload is normalised again, and has to agree
with what was kept of it.  The collector and the reader follow the pages by loops of their
own; they meet in every collection that was made.
-/
import SearchTrust.Google.AnswersContract
import SearchTrust.Google.ProfileSync

namespace SearchTrust.Google

open SearchTrust.Market (Text text Value Fields encodable)
open SearchTrust.Report (Date isoformat)
open SearchTrust.Report.Outcomes

section Model

/-- What reading a stored snapshot can end with. -/
inductive Failure where
  /-- `FirstPartyFindingsError` -/
  | findings (code : String)
  | raised (error : Raised)
deriving DecidableEq

def inputInvalid : Failure := .findings "INPUT_INVALID"

def checksumMismatch : Failure := .findings "CHECKSUM_MISMATCH"

/-- What is read of a trusted snapshot. -/
structure TrustedSnapshot (δ : Type) where
  normalizedPayload : Fields
  rawPayload : Option Fields
  payloadChecksum : δ
  externalResourceId : Text
  coverageStart : Date
  coverageEnd : Date
  healthStatus : Text
  healthReasons : List Text

variable (lib : AnswerLibrary)

/-- An error of a reader, or an exception that is not caught here. -/
def passed {α : Type} : Except Raised α → Except Failure α
  | .ok value => .ok value
  | .error error => .error (.raised error)

/-- The pages once more, after the keywords and the rows of those before. -/
def replayPages : List Value → List Text → List KeywordRow → Text →
    Except Failure (List KeywordRow × Text)
  | [], _, rows, lastToken => .ok (rows, lastToken)
  | page :: rest, seen, rows, _ => do
      let read ← passed (normalizeKeywordPage lib page seen)
      if rest ≠ [] ∧ read.token = [] then .error inputInvalid
      else replayPages rest read.seen (rows ++ read.rows) read.token

/-- A field `str` of a model, as a month. -/
def monthField (value : Option Value) : Except Exc Text :=
  match value with
  | some (.str t) => if isMonth t = true then .ok t else .error .validationError
  | _ => .error .validationError

/-- A field `int` with `strict=True`. -/
def strictCount (value : Option Value) : Except Exc ℕ :=
  match value with
  | some (.int n) => if 0 ≤ n then .ok n.toNat else .error .validationError
  | _ => .error .validationError

def flagField (value : Option Value) : Except Exc Bool :=
  match value with
  | some value => field (laxBool value)
  | none => .error .validationError

def summaryKeys : List String :=
  ["start_month", "end_month", "pages", "available", "threshold_applied", "truncated"]

/-- `KeywordSummary.model_validate`. -/
def readSummary (value : Value) : Except Exc KeywordSummary :=
  match value with
  | .dict fields => do
      if KeysWithin fields summaryKeys then
        let startMonth ← monthField (Market.Fields.get fields "start_month")
        let endMonth ← monthField (Market.Fields.get fields "end_month")
        let pages ← strictCount (Market.Fields.get fields "pages")
        let available ← flagField (Market.Fields.get fields "available")
        let thresholdApplied ← flagField (Market.Fields.get fields "threshold_applied")
        let truncated ← flagField (Market.Fields.get fields "truncated")
        makeSummary startMonth endMonth pages available thresholdApplied truncated
      else .error .validationError
  | _ => .error .validationError

/-- `list(value)`. -/
def listed (value : Value) : Except Exc (List Value) :=
  match value with
  | .list items => .ok items
  | .dict fields => .ok (fields.map fun entry => .str (text entry.1))
  | .str t => .ok (t.map fun c => .str [c])
  | _ => .error .typeError

/-- A field `str` of a list. -/
def limitationText (value : Value) : Except Exc Text :=
  match value with
  | .str t => .ok t
  | _ => .error .validationError

/-- What the manifest says of the keywords, and its limitations. -/
def readManifest (manifest : Fields) : Except Exc (KeywordSummary × List Value) := do
  let keywords ← item manifest "keywords"
  let keywords ← readSummary keywords
  let limitations ← item manifest "limitations"
  let limitations ← listed limitations
  return (keywords, limitations)

/-- `except (KeyError, TypeError, ValueError)`. -/
def manifestErrors : List Exc := [.keyError, .typeError, .valueError, .validationError]

/-- The errors of the manifest that mean an invalid input. -/
def checkedManifest (manifest : Fields) : Except Failure (KeywordSummary × List Value) :=
  match readManifest manifest with
  | .ok read => .ok read
  | .error exc => .error (if exc ∈ manifestErrors then inputInvalid else .raised (.uncaught exc))

/-- Whether the summary agrees with the pages. -/
def SummaryAgrees (keywords : KeywordSummary) (pages : ℕ) (rows : List KeywordRow)
    (lastToken : Text) : Prop :=
  keywords.pages = pages ∧ keywords.available = !rows.isEmpty ∧
    keywords.thresholdApplied = rows.any KeywordRow.hasThreshold ∧
    keywords.truncated = (decide (pages = 10) && !lastToken.isEmpty)

instance decidableSummaryAgrees (keywords : KeywordSummary) (pages : ℕ) (rows : List KeywordRow)
    (lastToken : Text) : Decidable (SummaryAgrees keywords pages rows lastToken) :=
  inferInstanceAs (Decidable (_ ∧ _))

/-- The snapshot of what has been read. -/
def rebuilt (resourceId : Text) (checks : ProfileChecks) (performance : Performance)
    (start stop : Date) (keywords : KeywordSummary) (rows : List KeywordRow)
    (limitations : List Value) : Except Exc GbpSnapshot := do
  let currentStart ← daysBefore stop 89
  let previousEnd ← daysBefore stop 90
  let current ← makePeriod currentStart stop (impressionsIn performance currentStart stop)
  let previous ← makePeriod start previousEnd (impressionsIn performance start previousEnd)
  let limitations ← limitations.mapM limitationText
  makeSnapshot resourceId checks current previous keywords rows limitations

/-- A value whose dicts are compared without the order of their keys. -/
def sameManifest (left right : Fields) : Prop :=
  (Value.dict left).canonical = (Value.dict right).canonical

instance decidableSameManifest (left right : Fields) : Decidable (sameManifest left right) :=
  inferInstanceAs (Decidable (_ = _))

/-- `decode` of a raw payload with its three parts. -/
def decodeRaw (manifest : Fields) (resourceId : Text) (stop : Date)
    (businessInformation performancePayload keywordPages : Value) :
    Except Failure (GbpSnapshot × Performance) := do
  let start ← passed (uncaught (daysBefore stop 179))
  let checks ← passed (normalizeLocation lib businessInformation resourceId)
  let performance ← passed (normalizePerformance lib performancePayload start stop)
  match keywordPages with
  | .list pages =>
      if 1 ≤ pages.length ∧ pages.length ≤ 10 then
        let replayed ← replayPages lib pages [] [] []
        let read ← checkedManifest manifest
        if SummaryAgrees read.1 pages.length replayed.1 replayed.2 then
          let snapshot ← passed (uncaught (rebuilt resourceId checks performance start stop read.1
            replayed.1 read.2))
          if sameManifest snapshot.manifest manifest then return (snapshot, performance)
          else .error checksumMismatch
        else .error checksumMismatch
      else .error inputInvalid
  | _ => .error inputInvalid

variable {δ : Type}

/-- `decode`. -/
def decodeSnapshot (snapshot : TrustedSnapshot δ) : Except Failure (GbpSnapshot × Performance) :=
  match snapshot.rawPayload with
  | none => .error (.findings "CONTENT_EXPIRED")
  | some raw =>
      if KeysAre raw ["business_information", "performance", "keyword_pages"] then
        decodeRaw lib snapshot.normalizedPayload snapshot.externalResourceId snapshot.coverageEnd
          (getOr raw "business_information" .null) (getOr raw "performance" .null)
          (getOr raw "keyword_pages" .null)
      else .error (.findings "CONTENT_EXPIRED")

/-- `except (ValidationError, TypeError, ValueError, SyncError)`. -/
def analysisFailure : Failure → Failure
  | .raised (.syncError _ _) => inputInvalid
  | .raised (.uncaught exc) =>
      if exc ∈ [Exc.validationError, .typeError, .valueError] then inputInvalid
      else .raised (.uncaught exc)
  | .findings code => .findings code

/-- `_validate_snapshot`, for a snapshot of a Business Profile; `digest` is the digest of a
payload. -/
def validateSnapshot [DecidableEq δ] (digest : Fields → δ) (snapshot : TrustedSnapshot δ) :
    Except Failure (GbpSnapshot × Performance) :=
  match snapshot.rawPayload with
  | none => .error (.findings "CONTENT_EXPIRED")
  | some raw =>
      if digest raw ≠ snapshot.payloadChecksum then .error checksumMismatch
      else
        match decodeSnapshot lib snapshot with
        | .error failure => .error (analysisFailure failure)
        | .ok (value, performance) =>
            if evaluateHealth value ≠ (snapshot.healthStatus, snapshot.healthReasons) then
              .error checksumMismatch
            else if value.resourceId ≠ snapshot.externalResourceId ∨
                value.previous.startDate ≠ snapshot.coverageStart ∨
                value.current.endDate ≠ snapshot.coverageEnd then
              .error (.findings "BINDING_INVALID")
            else .ok (value, performance)

/-- The snapshot that is stored of a collection. -/
def stored (digest : Fields → δ) (collection : GbpCollection) (resourceId : Text)
    (coverageStart stop : Date) : TrustedSnapshot δ where
  normalizedPayload := collection.snapshot.manifest
  rawPayload := some collection.rawPayload.dump
  payloadChecksum := digest collection.rawPayload.dump
  externalResourceId := resourceId
  coverageStart := coverageStart
  coverageEnd := stop
  healthStatus := (evaluateHealth collection.snapshot).1
  healthReasons := (evaluateHealth collection.snapshot).2

end Model

section Pages

variable {lib : AnswerLibrary} {responses : Responses}

/-- One page of the collector. -/
theorem collectPages_step {left : ℕ} {state : KeywordState} {result : KeywordState × Bool}
    (h : collectPages lib responses left state = .ok result) :
    ∃ payload page, normalizeKeywordPage lib payload state.seenKeywords = .ok page ∧
      (page.token = [] ∧ result = (state.read payload page, false) ∨
        page.token ≠ [] ∧ left = 0 ∧ result = (state.read payload page, true) ∨
        page.token ≠ [] ∧ ∃ fewer, left = fewer + 1 ∧
          collectPages lib responses fewer (state.read payload page) = .ok result) := by
  rw [collectPages.eq_def] at h
  obtain ⟨payload, _, h⟩ := ok_of_bind h
  obtain ⟨page, hpage, h⟩ := ok_of_bind h
  refine ⟨payload, page, hpage, ?_⟩
  split at h
  next htoken =>
    cases h
    exact .inl ⟨htoken, rfl⟩
  next htoken =>
    split at h
    next => cases h
    next =>
      cases left with
      | zero =>
          cases h
          exact .inr (.inl ⟨htoken, rfl, rfl⟩)
      | succ fewer => exact .inr (.inr ⟨htoken, fewer, rfl, h⟩)

/-- What the collector gathers, the reader gathers again: the pages that were added give
the same rows, and the last token tells whether a page was left out. -/
theorem replay_of_collect {left : ℕ} {state : KeywordState} {result : KeywordState × Bool}
    (h : collectPages lib responses left state = .ok result) (before : Text) :
    ∃ pages lastToken, result.1.pages = state.pages ++ pages ∧ 1 ≤ pages.length ∧
      pages.length ≤ left + 1 ∧
      replayPages lib pages state.seenKeywords state.rows before =
        .ok (result.1.rows, lastToken) ∧
      result.2 = (decide (pages.length = left + 1) && !lastToken.isEmpty) := by
  induction left generalizing state before with
  | zero =>
      obtain ⟨payload, page, hpage, hcases⟩ := collectPages_step h
      have hreplay : replayPages lib [payload] state.seenKeywords state.rows before =
          .ok (state.rows ++ page.rows, page.token) := by
        rw [replayPages, hpage]
        rfl
      rcases hcases with ⟨htoken, rfl⟩ | ⟨htoken, _, rfl⟩ | ⟨_, fewer, hfewer, _⟩
      · exact ⟨[payload], page.token, rfl, le_refl _, le_refl _, hreplay, by simp [htoken]⟩
      · exact ⟨[payload], page.token, rfl, le_refl _, le_refl _, hreplay, by simp [htoken]⟩
      · cases hfewer
  | succ left ih =>
      obtain ⟨payload, page, hpage, hcases⟩ := collectPages_step h
      rcases hcases with ⟨htoken, rfl⟩ | ⟨_, hzero, _⟩ | ⟨htoken, fewer, hfewer, hrest⟩
      · refine ⟨[payload], page.token, rfl, le_refl _, by simp, ?_, by simp [htoken]⟩
        rw [replayPages, hpage]
        rfl
      · cases hzero
      · obtain rfl := Nat.succ.inj hfewer
        obtain ⟨pages, lastToken, hpages, hsome, hfew, hreplay, htruncated⟩ := ih hrest page.token
        refine ⟨payload :: pages, lastToken, ?_, by simp, by simpa using hfew, ?_, ?_⟩
        · rw [hpages]
          simp [KeywordState.read]
        · have hmore : ¬(pages ≠ [] ∧ page.token = []) := fun hand => htoken hand.2
          rw [replayPages, hpage]
          simp only [passed, ok_bind, if_neg hmore]
          exact hreplay
        · rw [htruncated]
          simp

end Pages

section Manifest

theorem uncaught_eq_ok {α : Type} {x : Except Exc α} {value : α} (h : uncaught x = .ok value) :
    x = .ok value := by
  cases x with
  | ok other => exact congrArg Except.ok (Except.ok.inj h)
  | error e => cases h

/-- The summary that was dumped is the one that is read. -/
theorem readSummary_dump (s : KeywordSummary) : readSummary s.dump = .ok s := by
  obtain ⟨startMonth, endMonth, pages, available, thresholdApplied, truncated, hmonths, hpages⟩ := s
  have hkeys : KeysWithin [("start_month", Value.str startMonth), ("end_month", .str endMonth),
      ("pages", .int pages), ("available", .bool available),
      ("threshold_applied", .bool thresholdApplied), ("truncated", .bool truncated)]
      summaryKeys := by
    simp [KeysWithin, keysOf, summaryKeys]
  unfold readSummary KeywordSummary.dump
  simp only [if_pos hkeys]
  simp [Market.Fields.get, monthField, strictCount, flagField, field, laxBool, hmonths.1, hmonths.2,
    makeSummary, hpages.1, hpages.2, ok_bind]

theorem checkedManifest_manifest (s : GbpSnapshot) :
    checkedManifest s.manifest = .ok (s.keywords, s.limitations.map .str) := by
  have hread : readManifest s.manifest = .ok (s.keywords, s.limitations.map .str) := by
    unfold readManifest
    simp [GbpSnapshot.manifest, item, Market.Fields.get, ok_bind, readSummary_dump, listed]
  unfold checkedManifest
  rw [hread]

theorem mapM_limitationText (limitations : List Text) :
    (limitations.map Value.str).mapM limitationText = .ok limitations := by
  induction limitations with
  | nil => rfl
  | cons t rest ih =>
      rw [List.map_cons, List.mapM_cons, ih]
      rfl

end Manifest

section Contract

variable {lib : AnswerLibrary} {responses : Responses} {resourceId token : Text} {stop : Date}
  {collection : GbpCollection}

/-- What a collection is made of. -/
structure CollectedFrom (lib : AnswerLibrary) (resourceId : Text) (stop : Date)
    (collection : GbpCollection) (start currentStart previousEnd : Date) (checks : ProfileChecks)
    (performance : Performance) (lastToken : Text) : Prop where
  window : daysBefore stop 179 = .ok start
  currentWindow : daysBefore stop 89 = .ok currentStart
  previousWindow : daysBefore stop 90 = .ok previousEnd
  location : normalizeLocation lib collection.rawPayload.businessInformation resourceId = .ok checks
  metrics : normalizePerformance lib collection.rawPayload.performance start stop =
    .ok performance
  pages : 1 ≤ collection.rawPayload.keywordPages.length ∧
    collection.rawPayload.keywordPages.length ≤ 10
  rows : replayPages lib collection.rawPayload.keywordPages [] [] [] =
    .ok (collection.snapshot.keywordRows, lastToken)
  summary : SummaryAgrees collection.snapshot.keywords
    collection.rawPayload.keywordPages.length collection.snapshot.keywordRows lastToken
  snapshot : rebuilt resourceId checks performance start stop collection.snapshot.keywords
    collection.snapshot.keywordRows (collection.snapshot.limitations.map .str) =
      .ok collection.snapshot

theorem checkedImpressions_eq_ok {performance : Performance} {first last : Date} {n : ℕ}
    (h : checkedImpressions performance first last = .ok n) :
    n = impressionsIn performance first last := by
  unfold checkedImpressions at h
  simp only at h
  split at h
  next => cases h
  next => exact (Except.ok.inj h).symm

theorem makeSummary_eq_ok {startMonth endMonth : Text} {pages : ℕ}
    {available thresholdApplied truncated : Bool} {s : KeywordSummary}
    (h : makeSummary startMonth endMonth pages available thresholdApplied truncated = .ok s) :
    s.pages = pages ∧ s.available = available ∧ s.thresholdApplied = thresholdApplied ∧
      s.truncated = truncated := by
  unfold makeSummary at h
  split at h
  next =>
    split at h
    next =>
      cases h
      exact ⟨rfl, rfl, rfl, rfl⟩
    next => cases h
  next => cases h

theorem makeSnapshot_eq_ok {checks : ProfileChecks} {current previous : PerformancePeriod}
    {keywords : KeywordSummary} {rows : List KeywordRow} {limitations : List Text}
    {s : GbpSnapshot}
    (h : makeSnapshot resourceId checks current previous keywords rows limitations = .ok s) :
    s = ⟨resourceId, checks, current, previous, keywords, rows, limitations⟩ := by
  unfold makeSnapshot at h
  split at h
  next => exact (Except.ok.inj h).symm
  next => cases h

theorem makePeriod_eq_ok {start stop : Date} {impressions : ℕ} {period : PerformancePeriod}
    (h : makePeriod start stop impressions = .ok period) :
    period = ⟨start, stop, impressions⟩ := by
  unfold makePeriod at h
  split at h
  next => exact (Except.ok.inj h).symm
  next => cases h

theorem collect_eq_ok (h : collect lib responses resourceId token stop = .ok collection) :
    ∃ start currentStart previousEnd checks performance lastToken,
      CollectedFrom lib resourceId stop collection start currentStart previousEnd checks
        performance lastToken := by
  unfold collect at h
  split at h
  next => cases h
  next =>
    obtain ⟨start, hstart, h⟩ := ok_of_bind h
    obtain ⟨locationPayload, _, h⟩ := ok_of_bind h
    obtain ⟨checks, hchecks, h⟩ := ok_of_bind h
    obtain ⟨performancePayload, _, h⟩ := ok_of_bind h
    obtain ⟨performance, hperformance, h⟩ := ok_of_bind h
    obtain ⟨collected, hcollected, h⟩ := ok_of_bind h
    obtain ⟨currentStart, hcurrentStart, h⟩ := ok_of_bind h
    obtain ⟨previousEnd, hpreviousEnd, h⟩ := ok_of_bind h
    obtain ⟨currentImpressions, hcurrentImpressions, h⟩ := ok_of_bind h
    obtain ⟨current, hcurrent, h⟩ := ok_of_bind h
    obtain ⟨previousImpressions, hpreviousImpressions, h⟩ := ok_of_bind h
    obtain ⟨previous, hprevious, h⟩ := ok_of_bind h
    obtain ⟨keywords, hkeywords, h⟩ := ok_of_bind h
    obtain ⟨snapshot, hsnapshot, h⟩ := ok_of_bind h
    cases h
    obtain ⟨pages, lastToken, hpages, hsome, hfew, hreplay, htruncated⟩ :=
      replay_of_collect hcollected []
    have hall : collected.1.pages = pages := by simpa using hpages
    have hmade := makeSnapshot_eq_ok (uncaught_eq_ok hsnapshot)
    obtain ⟨hcount, havailable, hthreshold, hcut⟩ := makeSummary_eq_ok (uncaught_eq_ok hkeywords)
    refine ⟨start, currentStart, previousEnd, checks, performance, lastToken,
      ⟨uncaught_eq_ok hstart, uncaught_eq_ok hcurrentStart, uncaught_eq_ok hpreviousEnd, hchecks,
        hperformance, ?_, ?_, ?_, ?_⟩⟩
    · simp only [hall]
      exact ⟨hsome, hfew⟩
    · rw [hmade]
      simp only [hall]
      exact hreplay
    · rw [hmade]
      simp only [hall]
      rw [hall] at hcount
      exact ⟨hcount, havailable, hthreshold, by rw [hcut, htruncated]⟩
    · rw [checkedImpressions_eq_ok hcurrentImpressions] at hcurrent
      rw [checkedImpressions_eq_ok hpreviousImpressions] at hprevious
      have hkeys : snapshot.keywords = keywords := congrArg GbpSnapshot.keywords hmade
      have hrows : snapshot.keywordRows = collected.1.rows := congrArg GbpSnapshot.keywordRows hmade
      have htexts : snapshot.limitations = limitationsOf collected.1.rows collected.2 :=
        congrArg GbpSnapshot.limitations hmade
      unfold rebuilt
      rw [uncaught_eq_ok hcurrentStart, ok_bind, uncaught_eq_ok hpreviousEnd, ok_bind,
        uncaught_eq_ok hcurrent, ok_bind, uncaught_eq_ok hprevious, ok_bind, mapM_limitationText,
        ok_bind, hkeys, hrows, htexts]
      exact uncaught_eq_ok hsnapshot

theorem rebuilt_eq_ok {checks : ProfileChecks} {performance : Performance} {start : Date}
    {keywords : KeywordSummary} {rows : List KeywordRow} {limitations : List Value}
    {s : GbpSnapshot}
    (h : rebuilt resourceId checks performance start stop keywords rows limitations = .ok s) :
    s.resourceId = resourceId ∧ s.previous.startDate = start ∧ s.current.endDate = stop := by
  unfold rebuilt at h
  obtain ⟨_, _, h⟩ := ok_of_bind h
  obtain ⟨_, _, h⟩ := ok_of_bind h
  obtain ⟨current, hcurrent, h⟩ := ok_of_bind h
  obtain ⟨previous, hprevious, h⟩ := ok_of_bind h
  obtain ⟨_, _, h⟩ := ok_of_bind h
  rw [makeSnapshot_eq_ok h, makePeriod_eq_ok hcurrent, makePeriod_eq_ok hprevious]
  exact ⟨rfl, rfl, rfl⟩

theorem daysBefore_eq_ok {date earlier : Date} {days : ℕ}
    (h : daysBefore date days = .ok earlier) : earlier = date - days := by
  unfold daysBefore at h
  split at h
  next => exact (Except.ok.inj h).symm
  next => cases h

theorem keysAre_dump (raw : RawPayload) :
    KeysAre raw.dump ["business_information", "performance", "keyword_pages"] := by
  simp [KeysAre, KeysWithin, keysOf, RawPayload.dump]

/-- Reading a stored collection back gives the collected snapshot. -/
theorem decode_stored {δ : Type} {digest : Fields → δ} {start currentStart previousEnd : Date}
    {checks : ProfileChecks} {performance : Performance} {lastToken : Text}
    (hmade : CollectedFrom lib resourceId stop collection start currentStart previousEnd checks
      performance lastToken) (coverageStart : Date) :
    decodeSnapshot lib (stored digest collection resourceId coverageStart stop) =
      .ok (collection.snapshot, performance) := by
  unfold decodeSnapshot stored
  simp only [if_pos (keysAre_dump collection.rawPayload)]
  have hinformation : getOr collection.rawPayload.dump "business_information" .null =
      collection.rawPayload.businessInformation := rfl
  have hperformance : getOr collection.rawPayload.dump "performance" .null =
      collection.rawPayload.performance := rfl
  have hpages : getOr collection.rawPayload.dump "keyword_pages" .null =
      .list collection.rawPayload.keywordPages := rfl
  have hsame : sameManifest collection.snapshot.manifest collection.snapshot.manifest := rfl
  rw [hinformation, hperformance, hpages]
  unfold decodeRaw
  simp only [uncaught, passed, ok_bind, hmade.window, hmade.location, hmade.metrics,
    if_pos hmade.pages, hmade.rows, checkedManifest_manifest, if_pos hmade.summary, hmade.snapshot,
    if_pos hsame]
  rfl

/-- A library that writes the months of the calendar. -/
def monthLibrary : AnswerLibrary :=
  { bareLibrary with
    strftime := fun day _ =>
      text (Report.padded 4 (Report.yearMonthDay day).1 ++ "-" ++
        Report.padded 2 (Report.yearMonthDay day).2.1) }

/-- Answers about a location that has only its name. -/
def bareResponses : Responses where
  location := .ok (200, .dict [("name", .str (text "locations/1"))])
  performance := .ok (200, .dict [])
  keywords _ _ := .ok (200, .dict [])

theorem bareResponses_collected :
    (collect monthLibrary bareResponses (text "locations/1") (text "token") 738945).isOk = true := by
  decide

end Contract

end SearchTrust.Google
