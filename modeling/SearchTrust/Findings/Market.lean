/-
The market rules: which domains a sample of results shows, and which of them are ahead of
the client.
-/
import SearchTrust.Findings.Decision

namespace SearchTrust.Findings

open SearchTrust.Market (SerpMarketResultRecord SerpRankSource SerpResultType)
open SearchTrust.Order
open SearchTrust.Report (EvaluationState)

variable (lib : FindingsLibrary)

section Admission

/-- `_QUALIFIERS`. -/
def qualifiers : List String :=
  ["best", "top", "near", "me", "the", "a", "an", "in", "of", "for", "and", "to"]

/-- A word without the first of the common suffixes that leaves four letters. -/
def stem (word : List Char) : List Char :=
  match ["ers", "ing", "er", "s"].find? fun suffix =>
      suffix.toList.isSuffixOf word && 4 ≤ word.length - suffix.length with
  | some suffix => word.take (word.length - suffix.length)
  | none => word

/-- `_terms`. -/
def terms (value : String) : List (List Char) :=
  ((((lib.folded value).splitOnP fun c => ! lib.isWord c || c = '_').filter fun word =>
    word ≠ [] && ! qualifiers.any (·.toList = word) && 3 ≤ word.length).map stem).dedup

/-- What a record says of itself. -/
def recordText (record : SerpMarketResultRecord) : String :=
  " ".intercalate ([some record.displayName, record.snippet, record.url].reduceOption.filter
    (· ≠ ""))

/-- `organic_scope_supported`. -/
def organicScopeSupported (query : String) (records : List SerpMarketResultRecord)
    (market : Option String) : Bool :=
  let wanted := terms lib query
  let location := terms lib (market.getD "")
  let explicitLocation := if location.all (· ∈ wanted) then location else []
  wanted ≠ [] && records.any fun record =>
    let observed := terms lib (recordText record)
    min 2 wanted.length ≤ (wanted.filter (· ∈ observed)).length &&
      explicitLocation.all (· ∈ observed)

/-- A row of the audit of a sample: its group, its state and its places. -/
structure AuditRow where
  group : String ⊕ ℕ
  state : String
  places : List (String × String)
deriving DecidableEq

def auditRow (market : TargetMarket) (entry : SerpMarketResultRecord × ℕ) : AuditRow :=
  let classified := lib.classifyRecord market entry.1
  match entry.1.url with
  | some url => ⟨.inl (lib.canonicalUrl url), classified.1, classified.2⟩
  | none => ⟨.inr entry.2, "unknown", classified.2⟩

/-- The vote of the rows of a group: rows that differ say nothing. -/
def groupVote (rows : List AuditRow) : String :=
  match (rows.map AuditRow.state).dedup, (rows.map AuditRow.places).dedup with
  | [state], [_] => state
  | _, _ => "unknown"

/-- The votes of `audit_sample`, one for each group. -/
def auditVotes (rows : List AuditRow) : List String :=
  (rows.map AuditRow.group).dedup.map fun group => groupVote (rows.filter (·.group = group))

/-- `audit_sample(records, market)["non_local_majority"]`. -/
def nonLocalMajority (records : List SerpMarketResultRecord) (market : TargetMarket) : Bool :=
  let votes := auditVotes (records.zipIdx.map (auditRow lib market))
  3 ≤ votes.length && votes.length < 2 * votes.count "non_local"

end Admission

section Targets

variable (context : MarketContext)

/-- `market_target`. -/
def marketTarget (query : String) (kind : SerpResultType) (source : Option SerpSource) :
    RuleTarget where
  query := query
  resultType := kind
  snapshotId := source.map (·.snapshotId)
  latitude := match source with
    | some source => some source.payload.targetPoint.latitude
    | none => context.targetMarket.latitude
  longitude := match source with
    | some source => some source.payload.targetPoint.longitude
    | none => context.targetMarket.longitude
  countryCode := match source with
    | some source => source.payload.targetPoint.countryCode
    | none => context.targetMarket.countryCode
  language := context.searchLanguage
  device := context.searchDevice
  competitorIds := []

/-- `RESULT_TYPES`. -/
def resultTypes : List SerpResultType := [.maps, .localPack, .organic]

/-- `host(context.site_url)`. -/
def clientHost : String := lib.host context.siteUrl

/-- The hosts of the confirmed competitors, the keys of their dict. -/
def competitorHosts : List String :=
  (context.competitors.map fun competitor => lib.host competitor.websiteUrl).dedup

/-- The competitor of a host; of several with one host the last. -/
def competitorOf (domain : String) : Option String :=
  (context.competitors.reverse.find? fun competitor =>
    lib.host competitor.websiteUrl = domain).map (·.competitorId)

/-- The call that answered a type of results, and its name. -/
def SerpQueryRun.callOf (run : SerpQueryRun) : SerpResultType → String × SerpCallRecord
  | .maps => ("maps_call", run.mapsCall)
  | _ => ("google_call", run.googleCall)

/-- The results of a type, with their indexes. -/
def SerpQueryRun.recordsOf (run : SerpQueryRun) (kind : SerpResultType) :
    List (SerpMarketResultRecord × ℕ) :=
  run.results.zipIdx.filter (·.1.resultType = kind)

/-- The host that a result shows. -/
def hostOf (record : SerpMarketResultRecord) : Option String := record.url.map lib.host

end Targets

section Positions

/-- The best position of a domain, its rank basis, and the evidence for both. -/
structure DomainPosition where
  position : ℤ
  basis : SerpRankSource
  refs : List String

variable (view : EvidenceView) (index : ℕ) (records : List (SerpMarketResultRecord × ℕ))

/-- The results of a domain. -/
def rowsOf (domain : String) : List (SerpMarketResultRecord × ℕ) :=
  records.filter fun entry => hostOf lib entry.1 = some domain

/-- The position of a domain whose results have one rank basis. -/
def positionOf (domain : String) : Option DomainPosition :=
  let rows := rowsOf lib records domain
  match (rows.map fun entry => entry.1.rankSource).dedup,
      (rows.map fun entry => entry.1.position).min? with
  | [basis], some minimum => some {
      position := minimum
      basis := basis
      refs := (rows.filter (·.1.position = minimum)).flatMap fun entry =>
        view.fieldRefs lib.evidenceId (recordPath index entry.2)
          ["position", "url", "rank_source", "result_type"] }
  | _, _ => none

/-- The domains of the results. -/
def domainsOf : List String := (records.filterMap fun entry => hostOf lib entry.1).dedup

/-- The domains with a position. -/
def positionsOf : List (String × DomainPosition) :=
  (domainsOf lib records).filterMap fun domain =>
    (positionOf lib view index records domain).map fun position => (domain, position)

/-- The domains whose results have several rank bases. -/
def conflictingOf : List String :=
  (domainsOf lib records).filter fun domain =>
    (positionOf lib view index records domain).isNone

end Positions

section Rules

variable (view : EvidenceView) (context : MarketContext) (source : SerpSource)

/-- Both rules, not checked for one reason. -/
def notChecked (target : RuleTarget) (reason : EvaluationReason) (notes : List String) :
    Except FindingsError (List RuleOutcome) :=
  [MarketRule.domain, .ahead].mapM fun rule =>
    decision lib view context rule target .notChecked reason [] [] "" notes

/-- The note on a sample that does not fit its query. -/
def scopeNote : String :=
  "The returned organic results did not establish enough query context for a visibility " ++
    "comparison. Review the saved results or collect a comparable sample before judging visibility."

/-- `LOCALITY_NOTE`. -/
def localityNote : String :=
  "This organic search sample mostly reflected other areas, so it is not used to judge local " ++
    "visibility."

variable (index : ℕ) (run : SerpQueryRun) (kind : SerpResultType) (sampling : Bool)
  (callRefs : List String)

/-- The evidence of the URLs of the results. -/
def allUrlRefs : Except FindingsError (List String) :=
  (((run.recordsOf kind).filter (·.1.url.isSome)).mapM fun entry =>
    view.requiredRefs lib.evidenceId (recordPath index entry.2 ++ [.field "url"])).map List.flatten

/-- The decision of the domain rule. -/
def domainOutcome (urlRefs : List String) : Except FindingsError RuleOutcome :=
  let target := marketTarget context run.query kind (some source)
  let records := run.recordsOf kind
  let client := clientHost lib context
  let absent := client ∉ domainsOf lib records
  if records.any (·.1.url.isNone) then
    decision lib view context .domain target .notChecked .identityUnresolved callRefs [] "" []
  else if sampling ∧ kind = .organic ∧ absent ∧
      nonLocalMajority lib (records.map Prod.fst) context.targetMarket then
    decision lib view context .domain target .notChecked .sampleNotLocal
      (callRefs ++ records.flatMap fun entry => view.fieldRefs lib.evidenceId
        (recordPath index entry.2) ["display_name", "snippet", "address", "url"])
      [] "" [localityNote]
  else
    decision lib view context .domain target (if absent then .triggered else .notTriggered)
      (if absent then .conditionMet else .conditionNotMet) (callRefs ++ urlRefs) []
      ("The saved " ++ resultTypeText kind ++ " result sample for query " ++ lib.repr run.query ++
        " did not contain the client site domain " ++ lib.repr client ++ ".")
      ["This is domain matching within returned records, not proof of business absence, " ++
        "zero exposure or an absolute ranking."]

/-- The positions of confirmed competitors with the rank basis of the client. -/
def comparablePositions (client : DomainPosition) : List (String × DomainPosition) :=
  (positionsOf lib view index (run.recordsOf kind)).filter fun entry =>
    entry.1 ∈ competitorHosts lib context && entry.2.basis = client.basis

/-- Those of them that are ahead of the client. -/
def leadingPositions (client : DomainPosition) : List (String × DomainPosition) :=
  (comparablePositions lib view context index run kind client).filter fun entry =>
    entry.2.position < client.position

/-- Some competitor is found with another rank basis, or with several. -/
def basisMismatch (client : DomainPosition) : Bool :=
  let records := run.recordsOf kind
  (competitorHosts lib context).any fun domain =>
    domain ∈ conflictingOf lib view index records ||
      (positionsOf lib view index records).any fun entry =>
        entry.1 = domain && entry.2.basis ≠ client.basis

/-- The notes on a comparison of positions. -/
def aheadNotes (comparable confirmed : ℕ) : List String :=
  ["Only the same result type and rank_source are compared; no ranking cause or commercial " ++
      "outcome is inferred."] ++
    (if comparable < confirmed then
      ["Only " ++ toString comparable ++ " of " ++ toString confirmed ++
        " confirmed competitor domains had comparable positions."] else []) ++
    if confirmed < 2 then
      ["At least two confirmed competitors are required for this market consensus rule."] else []

/-- The decision of the position rule, for a client with a position. -/
def comparedOutcome (client : DomainPosition) : Except FindingsError RuleOutcome :=
  let comparable := comparablePositions lib view context index run kind client
  let leaders := leadingPositions lib view context index run kind client
  let confirmed := (competitorHosts lib context).length
  let chosen := if 2 ≤ leaders.length then leaders else comparable
  let state : EvaluationState :=
    if 2 ≤ leaders.length then .triggered
    else if 2 ≤ confirmed ∧ comparable.length = confirmed then .notTriggered
    else .notChecked
  let reason : EvaluationReason :=
    if 2 ≤ leaders.length then .conditionMet
    else if 2 ≤ confirmed ∧ comparable.length = confirmed then .conditionNotMet
    else if basisMismatch lib view context index run kind client then .rankBasisMismatch
    else .insufficientSample
  decision lib view context .ahead
    { marketTarget context run.query kind (some source) with
      competitorIds := sortedSet (chosen.filterMap fun entry => competitorOf lib context entry.1) }
    state reason (callRefs ++ client.refs) (chosen.flatMap fun entry => entry.2.refs)
    ("In the saved " ++ resultTypeText kind ++ " sample for query " ++ lib.repr run.query ++ ", " ++
      toString leaders.length ++ " confirmed competitor domains had positions ahead of the " ++
      "client site's best observed position " ++ toString client.position ++ ".")
    (aheadNotes comparable.length confirmed)

/-- The decision of the position rule. -/
def aheadOutcome : Except FindingsError RuleOutcome :=
  let records := run.recordsOf kind
  match positionOf lib view index records (clientHost lib context) with
  | none => decision lib view context .ahead (marketTarget context run.query kind (some source))
      .notChecked
      (if clientHost lib context ∈ conflictingOf lib view index records then .rankBasisMismatch
        else .identityUnresolved) callRefs [] "" []
  | some client => comparedOutcome lib view context source index run kind callRefs client

end Rules

section Evaluation

variable (view : EvidenceView) (context : MarketContext) (reviewed sampling : Bool)

/-- The decisions on a type of results of a query run. -/
def evaluateKind (source : SerpSource) (index : ℕ) (run : SerpQueryRun) (kind : SerpResultType) :
    Except FindingsError (List RuleOutcome) :=
  let target := marketTarget context run.query kind (some source)
  let records := run.recordsOf kind
  let call := run.callOf kind
  if call.2.status ≠ .succeeded then notChecked lib view context target .sourceIneligible []
  else if records = [] then notChecked lib view context target .insufficientSample []
  else if reviewed ∧ kind = .organic ∧
      ¬ organicScopeSupported lib run.query (records.map Prod.fst) context.targetMarket.city then
    notChecked lib view context target .sourceIneligible [scopeNote]
  else do
    let callRefs ← view.requiredRefs lib.evidenceId
      (runPath index ++ [.field call.1, .field "status"])
    let urlRefs ← allUrlRefs lib view index run kind
    let domain ← domainOutcome lib view context source index run kind sampling callRefs urlRefs
    let ahead ← aheadOutcome lib view context source index run kind callRefs
    return [domain, ahead]

/-- The source that the market rules may use. -/
def EvidenceView.available (view : EvidenceView) : Option SerpSource :=
  view.source.filter (·.businessEligible)

/-- The decisions without a source. -/
def evaluateMissing : Except FindingsError (List RuleOutcome) :=
  ((context.queries.flatMap fun query => resultTypes.map fun kind => (query, kind)).mapM
    fun entry => notChecked lib view context (marketTarget context entry.1 entry.2 none)
      (if view.source.isSome then .sourceIneligible else .sourceMissing) []).map List.flatten

/-- `evaluate`. -/
def evaluate : Except FindingsError (List RuleOutcome) :=
  match view.available with
  | none => evaluateMissing lib view context
  | some source =>
      ((source.payload.queryRuns.zipIdx.flatMap fun entry =>
          resultTypes.map fun kind => (entry, kind)).mapM fun item =>
        evaluateKind lib view context reviewed sampling source item.1.2 item.1.1 item.2).map
          List.flatten

/-- The lookup of the evidence of a source; one that may not be used has no observations
that a rule refers to. -/
def viewOf (source : SerpSource) : Except EvidenceError EvidenceView :=
  let observed := if source.businessEligible then observations source sampling else []
  (buildEvidenceIndex lib.evidenceId observed).map fun items => ⟨some source, observed, items⟩

/-- The market outcomes of a SERP source in `build_public_findings`: the client and the
confirmed competitors have to have different domains, and the sample is audited for
reviewed evidence only. -/
def marketOutcomes (source : SerpSource) : Except FindingsError (List RuleOutcome) :=
  if (lib.host context.siteUrl ::
      context.competitors.map fun competitor => lib.host competitor.websiteUrl).Nodup then
    match viewOf lib sampling source with
    | .error _ => .error .inputInvalid
    | .ok view => evaluate lib view context reviewed (reviewed && sampling)
  else .error .inputInvalid

end Evaluation

end SearchTrust.Findings
