/-
The two searches that take circuit permits: `CheckpointedSerpProvider.search`,
which guards an operation, and below it `SerpApiSearchAdapter.search`, which
guards each key while `execute_serpapi_get` fails over from one to the next.
-/
import SearchTrust.Interleave.Answers
import SearchTrust.Providers.Circuit

namespace SearchTrust.Providers

open SearchTrust.Interleave SearchTrust.Jobs

/-- `SERP_PROVIDER_ATTEMPT_LIMIT_PER_CALL`. -/
def serpProviderAttemptLimitPerCall : Nat := 3

/-- `_MAX_NORMALIZED_CHECKPOINT_BYTES`. -/
def maxNormalizedCheckpointBytes : Nat := 500000

/-- What the searches read of a `SerpPlannedCall`. -/
structure SerpPlannedCall where
  requestDigest : Digest
  engine : String

/-- `_ProviderCheckpoint`. -/
structure ProviderCheckpoint (Payload : Type) where
  requestDigest : Digest
  engine : String
  payload : Payload
  payloadChecksum : Digest
  providerAttempts : Nat
  startedAt : Instant
  completedAt : Instant

/-- The bounds of `_ProviderCheckpoint` and its `validate_time`. -/
def ProviderCheckpoint.accepted {Payload : Type}
    (checkpoint : ProviderCheckpoint Payload) : Bool :=
  (checkpoint.engine == "google_maps" || checkpoint.engine == "google") &&
    decide (1 ≤ checkpoint.providerAttempts) &&
    decide (checkpoint.providerAttempts ≤ serpProviderAttemptLimitPerCall) &&
    decide (checkpoint.startedAt ≤ checkpoint.completedAt)

/-- `SerpProviderResponse`. -/
structure SerpProviderResponse (Payload : Type) where
  payload : Payload
  providerAttempts : Nat
  logicalCallUsed : Bool
  checkpointHit : Bool
  startedAt : Option Instant
  completedAt : Option Instant

/-- Why an attempt with a key failed. -/
inductive FailureKind where
  | invalidOrForbidden
  | monthlyQuotaExhausted
  | rateLimited
  | transport
  | invalidResponse
  | http (statusCode : Int)
deriving DecidableEq

/-- The text that the callbacks are given. -/
def FailureKind.text : FailureKind → String
  | invalidOrForbidden => "invalid_or_forbidden"
  | monthlyQuotaExhausted => "monthly_quota_exhausted"
  | rateLimited => "rate_limited"
  | transport => "transport"
  | invalidResponse => "invalid_response"
  | http statusCode => "http_" ++ toString statusCode

/-- The HTTP reply of the provider.  `response.json()` may raise. -/
structure HttpReply (Payload : Type) where
  json : Option Payload
  statusCode : Int

/-- The calls of the searches that leave the process or run code they are given.
The slot of a key says which call of a loop it is. -/
inductive SearchOp (Payload : Type) where
  /-- `checkpoints.get`, before the provider is asked. -/
  | getCheckpoint
  /-- `cost_ledger.record_checkpoint_hit`. -/
  | recordCheckpointHit
  /-- `attempts.count`, before the provider is asked. -/
  | countAttempts
  /-- `attempts.count`, after the provider was asked. -/
  | recountAttempts
  /-- `delegate.search`. -/
  | delegateSearch
  /-- `checkpoints.save`. -/
  | saveCheckpoint (checkpoint : ProviderCheckpoint Payload)
  /-- `checkpoints.get`, after the save. -/
  | readBackCheckpoint
  /-- `circuit_breaker.before_call`; an operation has no slot. -/
  | beforeCall (slot : Option Nat) (provider operation : String) (now : Instant)
  | recordSuccess (permit : CircuitPermit)
  | recordFailure (permit : CircuitPermit) (now : Instant) (eligible immediate : Bool)
      (failureThreshold : Option Nat)
  /-- `client_factory().__aenter__`. -/
  | openClient
  /-- `client.__aexit__`. -/
  | closeClient
  /-- The callback `before_attempt`. -/
  | beforeAttempt (slot : Nat) (fingerprint : String)
  /-- `client.get`. -/
  | get (slot : Nat) (key : String)
  /-- The callback `after_attempt`. -/
  | afterAttempt (slot : Nat) (fingerprint : String) (failureKind : Option FailureKind)

/-- `before_call` answers whether the permit is that of a probe.  A saved
checkpoint is `none` where `_validate_model` refuses it. -/
@[reducible] def SearchOp.Value {Payload : Type} : SearchOp Payload → Type
  | getCheckpoint | readBackCheckpoint => Option (Option (ProviderCheckpoint Payload))
  | recordCheckpointHit => Unit
  | countAttempts | recountAttempts => Nat
  | delegateSearch => SerpProviderResponse Payload
  | saveCheckpoint _ => Bool
  | beforeCall _ _ _ _ => Bool
  | recordSuccess _ => Unit
  | recordFailure _ _ _ _ _ => Bool
  | openClient | closeClient => Unit
  | beforeAttempt _ _ => Unit
  | get _ _ => HttpReply Payload
  | afterAttempt _ _ _ => Unit

abbrev searchSignature (Payload : Type) : Signature := ⟨SearchOp Payload, SearchOp.Value⟩

abbrev SearchProc (Payload α : Type) :=
  Program (searchSignature Payload) ProviderException α

/-- What the environment answers to the calls of a search. -/
abbrev SearchAnswers (Payload : Type) :=
  Answers (searchSignature Payload) ProviderException

abbrev searchCall {Payload : Type} (op : SearchOp Payload) : SearchProc Payload op.Value :=
  Program.perform (S := searchSignature Payload) op

/-- Record what the holder of a permit has to report; who holds none reports nothing. -/
def record {Payload : Type} (held : Option CircuitPermit)
    (report : CircuitPermit → SearchOp Payload) : SearchProc Payload Unit :=
  match held with
  | some permit => searchCall (report permit) >>= fun _ => .ret ()
  | none => .ret ()

/-- What a search reads inside its own process, each at its place. -/
structure SearchReadings where
  startedAt : Instant
  /-- The clock when the key of a slot is checked. -/
  checkedAt : Nat → Instant
  /-- The clock when a failure is recorded, of the operation or of a fingerprint. -/
  failedAt : Option String → Instant
  completedAt : Instant
  /-- `key_state.active_fingerprint`. -/
  activeFingerprint : String
  /-- `monotonic()`. -/
  monotonic : Instant
  /-- `key_state.blocked_until.get(fingerprint, 0)` at the key of a slot. -/
  blockedUntil : Nat → Instant

/-- The functions on payloads and texts that the searches are built on. -/
structure PayloadFunctions (Payload : Type) where
  /-- `sanitize_serp_payload`. -/
  sanitize : Payload → String → Payload
  /-- `request_digest`. -/
  requestDigest : Payload → Digest
  /-- `len(canonical_json_bytes(payload))`. -/
  size : Payload → Nat
  /-- `serpapi_payload_error`. -/
  payloadError : Payload → Option String
  /-- `_normalize_message`. -/
  normalizeMessage : Option String → String
  /-- `serpapi_key_fingerprint`. -/
  fingerprint : String → String

section Checkpointed

/-- `CheckpointedSerpProvider`, by which of its optional parts it has. -/
structure CheckpointedSerpProvider where
  circuitBreaker : Bool
  costLedger : Bool

namespace CheckpointedSerpProvider

variable {Payload : Type} [DecidableEq Payload] (functions : PayloadFunctions Payload)
  (self : CheckpointedSerpProvider) (call : SerpPlannedCall) (now : SearchReadings)

/-- `_validated_checkpoint`. -/
def validatedCheckpoint : Option (ProviderCheckpoint Payload) →
    SearchProc Payload (ProviderCheckpoint Payload)
  | none => .raise .checkpointInvalid
  | some checkpoint =>
      if checkpoint.requestDigest ≠ call.requestDigest ∨ checkpoint.engine ≠ call.engine then
        .raise .checkpointInvalid
      else if maxNormalizedCheckpointBytes < functions.size checkpoint.payload then
        .raise .checkpointInvalid
      else if functions.sanitize checkpoint.payload call.engine ≠ checkpoint.payload then
        .raise .checkpointInvalid
      else if functions.requestDigest checkpoint.payload ≠ checkpoint.payloadChecksum then
        .raise .checkpointInvalid
      else return checkpoint

/-- `_response`. -/
def response (checkpoint : ProviderCheckpoint Payload) (checkpointHit : Bool) :
    SerpProviderResponse Payload where
  payload := checkpoint.payload
  providerAttempts := checkpoint.providerAttempts
  logicalCallUsed := true
  checkpointHit := checkpointHit
  startedAt := some checkpoint.startedAt
  completedAt := some checkpoint.completedAt

/-- The permit of the operation. -/
def permit (probe : Bool) : CircuitPermit := ⟨"serpapi", "search:" ++ call.engine, probe⟩

/-- `before_call`, if there is a breaker. -/
def takePermit : SearchProc Payload (Option CircuitPermit) :=
  if self.circuitBreaker then do
    let probe ← searchCall
      (.beforeCall none "serpapi" ("search:" ++ call.engine) now.startedAt)
    return some (permit call probe)
  else return none

/-- The provider is asked, and what came of it is recorded.  A failure that is no
`SerpMarketProviderError` goes unrecorded. -/
def guarded (held : Option CircuitPermit) :
    SearchProc Payload (SerpProviderResponse Payload) := do
  match ← (searchCall .delegateSearch).attempt with
  | .ok response =>
      record held .recordSuccess
      return response
  | .error .attemptsExhausted =>
      .raise (.marketProvider "SERP_PROVIDER_ATTEMPTS_EXHAUSTED" false
        serpProviderAttemptLimitPerCall true)
  | .error (.marketProvider code retryable _ _) =>
      record held fun permit => .recordFailure permit (now.failedAt none) retryable
        (code == "SERP_PROVIDER_KEYS_UNAVAILABLE") none
      let attempts ← searchCall .recountAttempts
      .raise (.marketProvider code retryable attempts (decide (0 < attempts)))
  | .error error => .raise error

/-- What `search` makes of a response: a checkpoint that it saves and reads back. -/
def persist (response : SerpProviderResponse Payload) :
    SearchProc Payload (SerpProviderResponse Payload) := do
  let attempts ← searchCall .recountAttempts
  if attempts = 0 then
    .raise (.marketProvider "SERP_PROVIDER_ATTEMPT_AUDIT_MISSING" false 0 false)
  else
    let payload := functions.sanitize response.payload call.engine
    let checkpoint : ProviderCheckpoint Payload :=
      { requestDigest := call.requestDigest
        engine := call.engine
        payload := payload
        payloadChecksum := functions.requestDigest payload
        providerAttempts := attempts
        startedAt := response.startedAt.getD now.startedAt
        completedAt := response.completedAt.getD now.completedAt }
    if !checkpoint.accepted then .raise .unexpected
    else if maxNormalizedCheckpointBytes < functions.size payload then
      .raise (.marketProvider "SERP_PROVIDER_RESPONSE_TOO_LARGE" false attempts true)
    else
      let _ ← searchCall (.saveCheckpoint checkpoint)
      match ← searchCall .readBackCheckpoint with
      | none => return CheckpointedSerpProvider.response checkpoint false
      | some persisted =>
          let canonical ← validatedCheckpoint functions call persisted
          return CheckpointedSerpProvider.response canonical false

/-- `search`. -/
def search : SearchProc Payload (SerpProviderResponse Payload) := do
  match ← searchCall .getCheckpoint with
  | some existing =>
      if self.costLedger then searchCall .recordCheckpointHit
      let checkpoint ← validatedCheckpoint functions call existing
      return CheckpointedSerpProvider.response checkpoint true
  | none =>
      let attempts ← searchCall .countAttempts
      if serpProviderAttemptLimitPerCall ≤ attempts then
        .raise (.marketProvider "SERP_PROVIDER_ATTEMPTS_EXHAUSTED" false
          serpProviderAttemptLimitPerCall true)
      else
        let held ← takePermit self call now
        let response ← guarded now held
        persist functions call now response

end CheckpointedSerpProvider

end Checkpointed

section Failover

variable {Payload : Type} (functions : PayloadFunctions Payload)

/-- White space of `str.strip`. -/
def isSpace (c : Char) : Bool := isWhitespace c || (0x1C ≤ c.toNat && c.toNat ≤ 0x1F)

/-- `str.strip`. -/
def stripSpace (text : String) : String :=
  .ofList ((text.toList.dropWhile isSpace).rdropWhile isSpace)

/-- `configured_serpapi_keys`: blank keys are dropped, and of equal ones the first stays. -/
def configuredSerpapiKeys (values : List String) : List String :=
  (values.map stripSpace).foldl
    (fun keys key => if key = "" ∨ key ∈ keys then keys else keys ++ [key]) []

/-- The `in` of two strings. -/
def containsText (text part : String) : Bool := decide (part.toList <:+: text.toList)

/-- `serpapi_key_failure_kind`. -/
def serpapiKeyFailureKind (statusCode : Int) (message : Option String) :
    Option FailureKind :=
  let normalized := functions.normalizeMessage message
  if statusCode = 401 || statusCode = 403 ||
      ["invalid api key", "no valid api key", "account has been deleted",
        "account is disabled", "doesn t have permission"].any (containsText normalized) then
    some .invalidOrForbidden
  else if containsText normalized "run out of searches" ||
      containsText normalized "no searches remaining" then
    some .monthlyQuotaExhausted
  else if statusCode = 429 then some .rateLimited
  else none

/-- `int(response.status_code or 200)`. -/
def HttpReply.status (reply : HttpReply Payload) : Int :=
  if reply.statusCode = 0 then 200 else reply.statusCode

/-- A key with its slot, counted from zero. -/
abbrev KeySlot := Nat × String

/-- The keys in the order in which they are tried: the active one first. -/
def orderedKeys (active : String) (configured : List String) : List KeySlot :=
  let slots := configured.zipIdx.map Prod.swap
  slots.filter (fun item => functions.fingerprint item.2 == active) ++
    slots.filter (fun item => functions.fingerprint item.2 != active)

/-- The callbacks of `execute_serpapi_get`, over what they keep between two calls.
The slot of `key_available` only names the call. -/
structure KeyCallbacks (Payload σ : Type) where
  keyAvailable : Nat → String → σ → SearchProc Payload (Bool × σ)
  beforeAttempt : Nat → String → SearchProc Payload Unit
  afterAttempt : Nat → String → Option FailureKind → σ → SearchProc Payload σ

/-- `SerpApiResponse` with its metadata. -/
structure SerpApiResponse (Payload : Type) where
  payload : Payload
  attemptCount : Nat
  keySlot : Nat
  keyFingerprint : String

variable {σ : Type} (callbacks : KeyCallbacks Payload σ) (now : SearchReadings)

/-- The loop that checks every key before any is tried. -/
def availableKeys : List KeySlot → σ → SearchProc Payload (List KeySlot × σ)
  | [], state => return ([], state)
  | item :: rest, state =>
      if now.blockedUntil item.1 ≤ now.monotonic then do
        let (ok, state) ← callbacks.keyAvailable item.1 (functions.fingerprint item.2) state
        let (available, state) ← availableKeys rest state
        return (if ok then item :: available else available, state)
      else availableKeys rest state

/-- The loop that tries the available keys. -/
def tryKeys : List KeySlot → Nat → σ → SearchProc Payload (SerpApiResponse Payload)
  | [], _, _ => .raise .keysUnavailable
  | item :: rest, attemptCount, state => do
      let fingerprint := functions.fingerprint item.2
      callbacks.beforeAttempt (item.1 + 1) fingerprint
      match ← (searchCall (.get item.1 item.2)).attempt with
      | .error error =>
          if error.isException then
            let _ ← callbacks.afterAttempt (item.1 + 1) fingerprint (some .transport) state
            .raise (.transportError (error == .responseTooLarge))
          else .raise error
      | .ok reply =>
          match reply.json with
          | none =>
              let _ ← callbacks.afterAttempt (item.1 + 1) fingerprint
                (some .invalidResponse) state
              .raise .invalidResponse
          | some data =>
              match serpapiKeyFailureKind functions reply.status
                (functions.payloadError data) with
              | some failureKind =>
                  let state ← callbacks.afterAttempt (item.1 + 1) fingerprint
                    (some failureKind) state
                  tryKeys rest (attemptCount + 1) state
              | none =>
                  if 400 ≤ reply.status then
                    let _ ← callbacks.afterAttempt (item.1 + 1) fingerprint
                      (some (.http reply.status)) state
                    .raise (.httpError reply.status)
                  else
                    let _ ← callbacks.afterAttempt (item.1 + 1) fingerprint none state
                    return ⟨data, attemptCount + 1, item.1 + 1, fingerprint⟩

/-- `execute_serpapi_get`. -/
def executeSerpapiGet (keys : List String) (state : σ) :
    SearchProc Payload (SerpApiResponse Payload) :=
  let configured := configuredSerpapiKeys keys
  if configured = [] then .raise .keysUnavailable
  else do
    let (available, state) ← availableKeys functions callbacks now
      (orderedKeys functions now.activeFingerprint configured) state
    if available = [] then .raise .keysUnavailable
    else tryKeys functions callbacks available 0 state

end Failover

section Adapter

/-- `SerpApiSearchAdapter`; its keys come from `configured_serpapi_keys`. -/
structure SerpApiSearchAdapter where
  keys : List String
  circuitBreaker : Bool

/-- The dictionary `key_permits`, by fingerprint. -/
abbrev KeyPermits := List (String × CircuitPermit)

namespace KeyPermits

/-- `key_permits[fingerprint] = permit`. -/
def put (permits : KeyPermits) (fingerprint : String) (permit : CircuitPermit) :
    KeyPermits :=
  (fingerprint, permit) :: permits.eraseP (·.1 == fingerprint)

/-- `key_permits.pop(fingerprint, None)`. -/
def pop (permits : KeyPermits) (fingerprint : String) : Option CircuitPermit × KeyPermits :=
  (permits.lookup fingerprint, permits.eraseP (·.1 == fingerprint))

end KeyPermits

namespace SerpApiSearchAdapter

variable {Payload : Type} (functions : PayloadFunctions Payload)
  (self : SerpApiSearchAdapter) (call : SerpPlannedCall) (now : SearchReadings)

/-- The permit of a key. -/
def permit (fingerprint : String) (probe : Bool) : CircuitPermit :=
  ⟨"serpapi-key:" ++ fingerprint, "search:" ++ call.engine, probe⟩

/-- The call that asks for the permit of a key. -/
def permitCall (slot : Nat) (fingerprint : String) : SearchOp Payload :=
  .beforeCall (some slot) ("serpapi-key:" ++ fingerprint) ("search:" ++ call.engine)
    (now.checkedAt slot)

/-- `key_available`: an open circuit makes a key unavailable, and any other
failure of the breaker ends the search. -/
def keyAvailable (slot : Nat) (fingerprint : String) (permits : KeyPermits) :
    SearchProc Payload (Bool × KeyPermits) :=
  if self.circuitBreaker then do
    match ← (searchCall (permitCall call now slot fingerprint)).attempt with
    | .ok probe => return (true, permits.put fingerprint (permit call fingerprint probe))
    | .error .circuitOpen => return (false, permits)
    | .error error => .raise error
  else return (true, permits)

/-- The failures that open the circuit of a key at once. -/
def immediateFailure (failureKind : FailureKind) : Bool :=
  ["invalid_or_forbidden", "monthly_quota_exhausted", "rate_limited"].contains
    failureKind.text

/-- The failures that count against a key. -/
def eligibleFailure (failureKind : FailureKind) : Bool :=
  immediateFailure failureKind || failureKind.text == "transport" ||
    "http_5".toList.isPrefixOf failureKind.text.toList

/-- The call that records what a key came to. -/
def recordCall (fingerprint : String) (failureKind : Option FailureKind)
    (permit : CircuitPermit) : SearchOp Payload :=
  match failureKind with
  | none => .recordSuccess permit
  | some failureKind =>
      .recordFailure permit (now.failedAt (some fingerprint)) (eligibleFailure failureKind)
        (immediateFailure failureKind) (some 3)

/-- `handle_after_attempt`. -/
def handleAfterAttempt (slot : Nat) (fingerprint : String)
    (failureKind : Option FailureKind) (permits : KeyPermits) :
    SearchProc Payload KeyPermits := do
  let (held, permits) := permits.pop fingerprint
  record (if self.circuitBreaker then held else none) (recordCall now fingerprint failureKind)
  searchCall (.afterAttempt slot fingerprint failureKind)
  return permits

def callbacks : KeyCallbacks Payload KeyPermits where
  keyAvailable := keyAvailable self call now
  beforeAttempt slot fingerprint := searchCall (.beforeAttempt slot fingerprint)
  afterAttempt := handleAfterAttempt self now

/-- `SerpMarketProviderError` with its default attempts and use. -/
def providerError (code : String) (retryable : Bool) : ProviderException :=
  .marketProvider code retryable 1 true

/-- What leaves the `try` of `search` for each exception in it.  The timeout turns the
cancellation it has sent into a `TimeoutError`. -/
def translate : ProviderException → ProviderException
  | .attemptsExhausted => .attemptsExhausted
  | .keysUnavailable => providerError "SERP_PROVIDER_KEYS_UNAVAILABLE" true
  | .httpError statusCode =>
      providerError (if 500 ≤ statusCode then "SERP_PROVIDER_TEMPORARY"
        else "SERP_PROVIDER_REJECTED") (decide (500 ≤ statusCode))
  | .invalidResponse => providerError "SERP_PROVIDER_RESPONSE_INVALID" false
  | .transportError true => providerError "SERP_PROVIDER_RESPONSE_TOO_LARGE" false
  | .transportError false | .timeout | .cancelled true =>
      providerError "SERP_PROVIDER_TEMPORARY" true
  | error => error

/-- The block of the client: it is opened, used and closed. -/
def withClient : SearchProc Payload (SerpApiResponse Payload) := do
  searchCall .openClient
  (executeSerpapiGet functions (callbacks self call now) now self.keys []).ensuring
    (searchCall .closeClient)

/-- `search`. -/
def search : SearchProc Payload (SerpProviderResponse Payload) :=
  if self.keys = [] then
    .raise (.marketProvider "SERP_PROVIDER_NOT_CONFIGURED" false 0 false)
  else do
    let result ← (withClient functions self call now).handle
      fun error => .raise (translate error)
    return ⟨result.payload, result.attemptCount, true, false, some now.startedAt,
      some now.completedAt⟩

end SerpApiSearchAdapter

end Adapter

end SearchTrust.Providers
