/-
One lookup: saved evidence first, then at most three requests in the order of the
stages.  Between two turns the lookup waits for the provider, which calls the hooks
around its HTTP requests.
-/
import Mathlib.Data.List.MinMax
import SearchTrust.Identity.Models
import SearchTrust.Market.Results

namespace SearchTrust.Identity

open SearchTrust.Alignment (truthy orEmpty)
open SearchTrust.Jobs (Instant)
open SearchTrust.Market (Value Fields Text text)

/-- The result of `_link_key`. -/
inductive LinkKey where
  | cid (value : Text)
  | placeId (value : Text)
deriving DecidableEq

/-- The parameters of one request. -/
inductive LookupQuery where
  | place (key : LinkKey)
  | search (q : String)
deriving DecidableEq

section Records

variable (lib : LookupLibrary)

/-- `first or second`. -/
def orText (first second : Option Text) : Option Text :=
  match first with
  | some (c :: rest) => some (c :: rest)
  | _ => second

/-- `_link_key`. -/
def linkKey (url : Option Text) : Option LinkKey :=
  match (orText url none).bind lib.readLink with
  | none => none
  | some link =>
      let place := (orText link.placeId none).map .placeId
      match orText (orText link.cidParameter link.dataCid) none with
      | none => place
      | some cid => if lib.isDigits cid then some (.cid cid) else place

/-- `string(*keys)` of a row. -/
def rowText (row : Fields) (keys : List String) : Option Text :=
  keys.findSome? fun key =>
    match row.get key with
    | some (.str value) => orText (some (Market.strip value)) none
    | _ => none

/-- The categories of a row. -/
def rowCategories (row : Fields) : List Text :=
  let given := (["categories", "types", "type"].findSome? fun key =>
    (row.get key).filter Value.truthy)
  match given with
  | some (.str value) => [value]
  | some (.list items) => items.filterMap fun item =>
      match item with
      | .str value => some value
      | _ => none
  | _ => []

/-- Where and when a record was saved. -/
structure Origin where
  sourceRef : String
  recordId : String
  payloadChecksum : String
  observedAt : Instant
  expiresAt : Option Instant
  kind : RecordKind

/-- `record_from_saved_mapping`; `none` is a `ValidationError`. -/
def recordFromSavedMapping (row : Fields) (origin : Origin) : Option SavedGbpRecord := do
  let key := linkKey lib (rowText row ["public_gbp_url"])
  let cid := orText (rowText row ["provider_cid", "cid", "data_cid"])
    ((rowText row ["provider_data_id", "data_id"]).bind lib.dataCid)
  let place := rowText row ["provider_place_id", "place_id"]
  let cid := match key with
    | some (.cid value) => orText cid (some value)
    | _ => cid
  let place := match key with
    | some (.placeId value) => orText place (some value)
    | _ => place
  let businessName ← Market.decodeOptional
    (rowText row ["business_name", "display_name", "title", "name"])
  let websiteUrl ← Market.decodeOptional (rowText row ["website_url", "website", "url"])
  let phone ← Market.decodeOptional (rowText row ["phone"])
  let address ← Market.decodeOptional (rowText row ["address"])
  let categories ← (rowCategories row).mapM Market.decode
  let cid ← Market.decodeOptional cid
  let placeId ← Market.decodeOptional place
  let record : SavedGbpRecord :=
    { sourceRef := origin.sourceRef
      recordId := origin.recordId
      payloadChecksum := origin.payloadChecksum
      observedAt := origin.observedAt
      expiresAt := origin.expiresAt
      kind := origin.kind
      businessName
      websiteUrl
      phone
      address
      categories := categories.map Jobs.strip
      cid
      placeId }
  if record.accepted then some record else none

/-- `serpapi_payload_error(payload)`, as a truth value. -/
def payloadError (payload : Fields) : Bool :=
  if ((payload.get "error").getD .null).truthy then true
  else
    match payload.get "search_metadata" with
    | some (.dict metadata) =>
        match Fields.get metadata "status" with
        | some (.str status) =>
            let status := lib.lowerText (Market.strip status)
            status ≠ [] && status ∉ [text "success", text "cached"]
        | some status => status.truthy
        | none => false
    | _ => false

/-- The rows under one key of a payload; `none` is an invalid response. -/
def rowsAt (payload : Fields) (key : String) : Option (List Fields) :=
  match (payload.get key).getD (.list []) with
  | .dict row => some [row]
  | .list items => items.mapM fun item =>
      match item with
      | .dict row => some row
      | _ => none
  | _ => none

/-- The rows of a payload that the lookup can read. -/
def payloadRows (payload : Value) : Option (List Fields) :=
  match payload with
  | .dict fields =>
      if payloadError lib fields then none
      else if (Fields.get fields "place_results").isNone &&
          (Fields.get fields "local_results").isNone then none
      else do
        let places ← rowsAt fields "place_results"
        let locals ← rowsAt fields "local_results"
        return places ++ locals
  | _ => none

/-- The records of a response. -/
def responseRecords (rows : List Fields) (checksum : String) (now : Instant) :
    Option (List SavedGbpRecord) :=
  (rows.mapIdx fun i row => (i, row)).mapM fun entry =>
    recordFromSavedMapping lib entry.2
      { sourceRef := "provider:" ++ checksum
        recordId := "record:" ++ toString entry.1
        payloadChecksum := checksum
        observedAt := now
        expiresAt := some (now + thirtyDays)
        kind := .lookup }

end Records

/-- The variables of a lookup that its helpers share. -/
structure Evidence where
  request : GbpIdentityRequest
  decisions : List CandidateDecision := []
  seen : List (String × String × String) := []
  stages : List String := ["cache"]

namespace Evidence

section Add

variable (lib : LookupLibrary)

/-- One turn of `add`. -/
def addRecord (e : Evidence) (record : SavedGbpRecord) : Evidence :=
  if record.key ∈ e.seen then e
  else
    { e with
      seen := record.key :: e.seen
      decisions := e.decisions ++ [assessCandidate lib e.request record] }

/-- `add`. -/
def add (e : Evidence) (records : List SavedGbpRecord) : Evidence :=
  records.foldl (addRecord lib) e

end Add

/-- `place_cids.get(place, set())`: the CIDs that stand beside a place id in one of the
eligible records. -/
def placeCids (eligible : List CandidateDecision) (place : String) : List String :=
  (eligible.filterMap fun c =>
    if truthy c.record.cid ∧ c.record.placeId = some place ∧ place ≠ "" then c.record.cid
    else none).dedup

/-- The CID of a place, when there is one alone. -/
def soleCid (eligible : List CandidateDecision) (place : Option String) : Option String :=
  match place with
  | none => none
  | some place =>
      match placeCids eligible place with
      | [cid] => some cid
      | _ => none

/-- The group of a record. -/
def groupOf (eligible : List CandidateDecision) (record : SavedGbpRecord) : Option String :=
  match truthy record.cid, soleCid eligible record.placeId with
  | false, some cid => some ("cid:" ++ cid)
  | _, _ => branch record

/-- The keys of `groups`. -/
def groups (eligible : List CandidateDecision) : List (Option String) :=
  (eligible.map fun c => groupOf eligible c.record).dedup

/-- The selected branch, as a key of the groups. -/
def chosenGroup (eligible : List CandidateDecision) (selected : Option String) :
    Option String :=
  match selected with
  | none => none
  | some selected =>
      if "place_id:".isPrefixOf selected then
        match soleCid eligible (some (.ofList (selected.toList.drop 9))) with
        | some cid => some ("cid:" ++ cid)
        | none => some selected
      else Alignment.orNone selected

/-- The first of the decisions whose records were observed last. -/
def latest (decisions : List CandidateDecision) : Option CandidateDecision :=
  @List.argmax _ _ Int.instLinearOrder.toPreorder Int.decLt
    (fun c => c.record.observedAt) decisions

/-- The newest record of a group. -/
def newest (eligible : List CandidateDecision) (group : Option String) :
    Option SavedGbpRecord :=
  (latest (eligible.filter fun c => groupOf eligible c.record = group)).map
    CandidateDecision.record

/-- What `resolved` returns: the status, the reason and the selected record. -/
def resolved (e : Evidence) : Option (LookupStatus × String × Option SavedGbpRecord) :=
  let eligible := e.decisions.filter CandidateDecision.counts
  let found := groups eligible
  match chosenGroup eligible e.request.selectedBranchRef with
  | some chosen =>
      if some chosen ∈ found then
        some (.matched, "explicit_branch_domain_or_phone_match", newest eligible (some chosen))
      else if found ≠ [] then
        some (.identityUnconfirmed, "selected_branch_not_verified", none)
      else none
  | none =>
      match found with
      | [] => none
      | [group] => some (.matched, "verified_domain_or_phone_match", newest eligible group)
      | _ => some (.identityUnconfirmed, "multiple_verified_branches", none)

/-- `result`. -/
def result (e : Evidence) (ledger : GbpLookupLedger) (status : LookupStatus) (reason : String)
    (selected : Option SavedGbpRecord) (stopReason : Option String) : GbpIdentityResult :=
  { status
    reason
    lookupStopReason := stopReason
    selected
    candidates := e.decisions
    ledger
    visitedStages := e.stages }

/-- `"address_only_place" in c.reasons`. -/
def isAddressOnly (c : CandidateDecision) : Bool := "address_only_place" ∈ c.reasons

/-- `stopped`. -/
def stopped (e : Evidence) (ledger : GbpLookupLedger) (reason : String) : GbpIdentityResult :=
  if e.decisions.any isAddressOnly ∧
      reason ∈ ["incremental_lookup_disabled", "awaiting_market_cache"] then
    e.result ledger .identityUnconfirmed "address_only_place" none (some reason)
  else e.result ledger .lookupNotChecked reason none (some reason)

/-- The result once every stage was asked. -/
def notFound (e : Evidence) (ledger : GbpLookupLedger) : GbpIdentityResult :=
  if e.decisions.any isAddressOnly ∧ e.decisions.all isAddressOnly then
    e.result ledger .identityUnconfirmed "address_only_place" none none
  else e.result ledger .gbpNotFound "no_verified_domain_or_phone_match" none none

/-- The place that asks for a record again. -/
def refreshQuery (record : SavedGbpRecord) : LookupQuery :=
  .place (if truthy record.cid then .cid (text (orEmpty record.cid))
    else .placeId (text (orEmpty record.placeId)))

/-- The queue with the refresh of a decision, unless its place is asked for already. -/
def addRefresh (queue : List (LookupStage × LookupQuery)) (c : CandidateDecision) :
    List (LookupStage × LookupQuery) :=
  if c.eligible ∧ c.current = false then
    if queue.any fun entry => entry.2 = refreshQuery c.record then queue
    else queue ++ [(.refresh, refreshQuery c.record)]
  else queue

section Queue

variable (lib : LookupLibrary)

/-- The stage of the saved link. -/
def linkStage (request : GbpIdentityRequest) : List (LookupStage × LookupQuery) :=
  let link := request.gbpUrl.map fun url => (request.savedLinkDestinations.lookup url).getD url
  match linkKey lib (link.map text) with
  | some key => [(.link, .place key)]
  | none => []

/-- The stages that search by domain and phone and by name. -/
def searchStages (request : GbpIdentityRequest) (domain : String) :
    List (LookupStage × LookupQuery) :=
  let numbers :=
    if truthy request.countryCode then
      (ownedObservations lib request request.phones).map fun o =>
        (Alignment.normalizePhone lib.toComparisonLibrary o.value
          (orEmpty request.countryCode)).normalizedKey
    else []
  let market := request.targetMarket.displayName
  let country := if truthy request.countryCode then orEmpty request.countryCode
    else request.targetMarket.countryCode
  let parts := [domain, orEmpty (numbers.findSome? fun n => n.filter (· ≠ "")), market, country]
  let names := ownedObservations lib request request.names
  let name := if truthy request.seoBusinessName then request.seoBusinessName
    else names.head?.map IdentityObservation.value
  (.domainPhone, .search (" ".intercalate (parts.filter (· ≠ "")))) ::
    if truthy name then
      [(.name, .search (orEmpty name ++ " " ++ market ++ " " ++ country))]
    else []

/-- `queue`. -/
def queue (e : Evidence) (domain : String) : List (LookupStage × LookupQuery) :=
  e.decisions.foldl addRefresh (linkStage lib e.request) ++ searchStages lib e.request domain

end Queue

end Evidence

/-- The settings of `IdentityGbpLookup`. -/
structure LookupSettings where
  hasProvider : Bool
  incrementalEnabled : Bool
  /-- `persist_ledger` is given. -/
  persists : Bool

/-- A lookup that waits for the provider.  `reserving` holds the attempts whose hook
waits for `persist_ledger`, `permits` those whose hook has returned and whose request
was not sent yet. -/
structure Asking where
  evidence : Evidence
  stage : LookupStage
  query : LookupQuery
  queue : List (LookupStage × LookupQuery)
  attemptStart : Nat
  reserving : List Nat := []
  permits : List Nat := []

/-- How far a lookup has come. -/
inductive Progress where
  | finished (result : GbpIdentityResult)
  | asking (state : Asking)

/-- The head of the loop over the queue. -/
def askNext (e : Evidence) (ledger : GbpLookupLedger) :
    List (LookupStage × LookupQuery) → Progress
  | [] => .finished (e.notFound ledger)
  | (stage, query) :: queue =>
      if attemptLimit ≤ ledger.attempts.length then
        .finished (e.stopped ledger "extra_request_budget_exhausted")
      else
        .asking
          { evidence := { e with stages := e.stages ++ [stage.text] }
            stage
            query
            queue
            attemptStart := ledger.attempts.length }

/-- The result of `resolved`, or how the lookup goes on. -/
def settleOr (e : Evidence) (ledger : GbpLookupLedger) (rest : Progress) : Progress :=
  match e.resolved with
  | some (status, reason, selected) =>
      .finished (e.result ledger status reason selected none)
  | none => rest

section Lookup

variable (lib : LookupLibrary) (settings : LookupSettings)

/-- What follows when the saved records settle nothing. -/
def afterCache (e : Evidence) (domain : String) (ledger : GbpLookupLedger) : Progress :=
  let linked := { e with stages := e.stages ++ ["saved_link"] }
  if !e.request.marketCollected then .finished (linked.stopped ledger "awaiting_market_cache")
  else if !settings.incrementalEnabled then
    .finished (linked.stopped ledger "incremental_lookup_disabled")
  else if !settings.hasProvider then .finished (linked.stopped ledger "provider_unavailable")
  else askNext linked ledger (linked.queue lib domain)

/-- `_lookup`, once its ledger is stored, up to the first request. -/
def beginLookup (request : GbpIdentityRequest) (domain : String) (ledger : GbpLookupLedger) :
    Progress :=
  let e := Evidence.add lib { request } request.savedRecords
  settleOr e ledger (afterCache lib settings e domain ledger)

/-- `(request.case_ref, canonical_host(str(request.site_url)))`. -/
abbrev LookupKey := String × Option String

def lookupKey (request : GbpIdentityRequest) : LookupKey :=
  (request.caseRef, canonicalHost lib (some request.siteUrl))

/-- The passed ledger lacks a stored attempt. -/
def discardsAttempts (previous passed : Option GbpLookupLedger) : Bool :=
  match previous, passed with
  | some previous, some ledger =>
      ledger.attempts.take previous.attempts.length ≠ previous.attempts
  | _, _ => false

/-- The ledger that a lookup works on: the one that was passed, the stored one or a new
one. -/
def chooseLedger (request : GbpIdentityRequest) (previous passed : Option GbpLookupLedger) :
    Except String (String × GbpLookupLedger) :=
  if discardsAttempts previous passed then
    .error "lookup ledger cannot discard recorded attempts"
  else if !request.accepted then .error "request is invalid"
  else
    match canonicalHost lib (some request.siteUrl) with
    | none => .error "valid business website required"
    | some domain =>
        let ledger := (passed.or previous).getD
          { caseRef := request.caseRef, normalizedDomain := domain }
        if !ledger.accepted then .error "ledger is invalid"
        else if ledger.caseRef ≠ request.caseRef ∨ ledger.normalizedDomain ≠ domain then
          .error "lookup ledger belongs to another Case/business"
        else .ok (domain, ledger)

/-- What the provider does while a lookup waits for it. -/
inductive ProviderEvent where
  /-- It calls `before_attempt`. -/
  | before
  /-- `persist_ledger(reserve=True)` returns, or raises, in the hook of an attempt. -/
  | reserved (number : Nat) (ok : Bool)
  /-- It sends the HTTP request of an attempt. -/
  | send (number : Nat)
  /-- It calls `after_attempt`. -/
  | after (failed : Bool)
  /-- It returns a response; `now` is what the clock then says. -/
  | respond (payload : Value) (checksum : String) (now : Instant)
  /-- It lets the exception of a hook out that found the budget used up. -/
  | exhausted
  /-- It raises, or the time is up. -/
  | raised

/-- `attempt.outcome = "interrupted"` for the attempts of this request that are open. -/
def interruptFrom (start : Nat) (attempts : List LookupAttempt) : List LookupAttempt :=
  attempts.take start ++ (attempts.drop start).map fun attempt =>
    if attempt.outcome = .started then { attempt with outcome := .interrupted } else attempt

/-- `ledger.attempts[-1].outcome = outcome`. -/
def setLastOutcome (outcome : AttemptOutcome) : List LookupAttempt → List LookupAttempt
  | [] => []
  | [attempt] => [{ attempt with outcome }]
  | attempt :: next :: rest => attempt :: setLastOutcome outcome (next :: rest)

/-- `except Exception`. -/
def interrupted (e : Evidence) (start : Nat) (ledger : GbpLookupLedger) :
    GbpLookupLedger × Progress :=
  let ledger := { ledger with attempts := interruptFrom start ledger.attempts }
  (ledger, .finished (e.stopped ledger "provider_unavailable_or_timed_out"))

/-- What follows a response. -/
def respond (state : Asking) (ledger : GbpLookupLedger) (payload : Value) (checksum : String)
    (now : Instant) : GbpLookupLedger × Progress :=
  let e := state.evidence
  if ledger.attempts.length = state.attemptStart then
    (ledger, .finished (e.stopped ledger "provider_attempt_provenance_missing"))
  else
    match payloadRows lib payload with
    | none => (ledger, .finished (e.stopped ledger "provider_invalid_response"))
    | some rows =>
        match responseRecords lib rows checksum now with
        | none => interrupted e state.attemptStart ledger
        | some records =>
            let e := Evidence.add lib
              { e with request := { e.request with evaluatedAt := now } } records
            (ledger, settleOr e ledger (askNext e ledger state.queue))

/-- The lookup after an event; `none` where the event cannot happen. -/
def advance (state : Asking) (ledger : GbpLookupLedger) :
    ProviderEvent → Option (GbpLookupLedger × Progress)
  | .before =>
      if attemptLimit ≤ ledger.attempts.length then some (ledger, .asking state)
      else
        let number := ledger.attempts.length + 1
        let ledger :=
          { ledger with attempts := ledger.attempts ++ [⟨number, state.stage, .started⟩] }
        some (ledger, .asking <|
          if settings.persists then { state with reserving := number :: state.reserving }
          else { state with permits := number :: state.permits })
  | .reserved number ok =>
      if number ∈ state.reserving then
        some (ledger, .asking
          { state with
            reserving := state.reserving.erase number
            permits := if ok then number :: state.permits else state.permits })
      else none
  | .send number =>
      if number ∈ state.permits then
        some (ledger, .asking { state with permits := state.permits.erase number })
      else none
  | .after failed =>
      some ({ ledger with
        attempts := setLastOutcome (if failed then .failed else .success) ledger.attempts },
        .asking state)
  | .respond payload checksum now => some (respond lib state ledger payload checksum now)
  | .exhausted =>
      if attemptLimit ≤ ledger.attempts.length then
        some (ledger, .finished (state.evidence.stopped ledger "extra_request_budget_exhausted"))
      else none
  | .raised => some (interrupted state.evidence state.attemptStart ledger)

end Lookup

end SearchTrust.Identity
