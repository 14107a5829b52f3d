/-
The exceptions that a call of a search provider can meet on its way.
-/
import SearchTrust.Interleave.Rely
import SearchTrust.Jobs.Models
import SearchTrust.Redis.Keyspace
import Mathlib.Data.Prod.Lex
import Mathlib.Init

namespace SearchTrust.Providers

/-- What the circuit breaker, the attempt ledger and the search adapters raise. -/
inductive ProviderException where
  /-- `ProviderCircuitOpen`. -/
  | circuitOpen
  /-- `SerpMarketProviderError`. -/
  | marketProvider (code : String) (retryable : Bool) (providerAttempts : Nat)
      (logicalCallUsed : Bool)
  /-- `SerpProviderAttemptsExhausted`. -/
  | attemptsExhausted
  /-- `SerpMarketCheckpointError`. -/
  | checkpointInvalid
  /-- `SerpApiKeysUnavailable`. -/
  | keysUnavailable
  /-- `SerpApiHttpError`. -/
  | httpError (statusCode : Int)
  /-- `SerpApiInvalidResponse`. -/
  | invalidResponse
  /-- `SerpApiTransportError`, and whether `_ResponseTooLarge` caused it. -/
  | transportError (responseTooLarge : Bool)
  /-- `_ResponseTooLarge`. -/
  | responseTooLarge
  /-- `TimeoutError`. -/
  | timeout
  /-- `asyncio.CancelledError`, and whether the enclosing `asyncio.timeout` sent it. -/
  | cancelled (byTimeout : Bool)
  /-- Any other `Exception`: a lost Redis connection, a refused cost claim. -/
  | unexpected
deriving DecidableEq

/-- `except Exception` does not catch a cancellation. -/
def ProviderException.isException : ProviderException → Bool
  | cancelled _ => false
  | _ => true

/-- Why a call can fail before it has any effect. -/
inductive ProviderInterruption where
  | connectionError
  | cancelled (byTimeout : Bool)

def ProviderInterruption.exception : ProviderInterruption → ProviderException
  | connectionError => .unexpected
  | cancelled byTimeout => .cancelled byTimeout

end SearchTrust.Providers

/-
The circuit breaker that the clients of a provider share through Redis: its
keys, its atomic commands, and the programs of `RedisCircuitBreaker`.
-/
namespace SearchTrust.Providers

open SearchTrust.Interleave SearchTrust.Redis SearchTrust.Jobs

/-- The value at a circuit key.  The breaker only ever stores the status `open`;
a missing key stands for a closed circuit. -/
structure OpenCircuit where
  openCount : Nat
  openUntil : Instant
deriving DecidableEq

/-- The keys of all circuits.  The clock of the server counts milliseconds. -/
structure CircuitKeyspace where
  clock : Nat
  circuits : Table String OpenCircuit
  probes : Table String UUID
  failures : Table String (SortedSet (Instant ×ₗ UUID) Instant)

namespace CircuitKeyspace

def initial : CircuitKeyspace := ⟨0, .empty, .empty, .empty⟩

/-- The deadline of a key that is set to live for that many seconds. -/
def deadline (r : CircuitKeyspace) (seconds : Nat) : Nat := r.clock + 1000 * seconds

/-- Time passes, and the keys whose time to live has run out are gone. -/
def tick (r : CircuitKeyspace) (milliseconds : Nat) : CircuitKeyspace where
  clock := r.clock + milliseconds
  circuits := r.circuits.purge (r.clock + milliseconds)
  probes := r.probes.purge (r.clock + milliseconds)
  failures := r.failures.purge (r.clock + milliseconds)

/-- `GET` of a circuit key. -/
def getCircuit (r : CircuitKeyspace) (circuit : String) : Option OpenCircuit :=
  r.circuits.get circuit

/-- `SET` of a circuit key with a time to live. -/
def setCircuit (r : CircuitKeyspace) (circuit : String) (state : OpenCircuit)
    (seconds : Nat) : CircuitKeyspace :=
  { r with circuits := r.circuits.set circuit state (r.deadline seconds) }

/-- `SET probe token NX EX seconds`. -/
def claimProbe (r : CircuitKeyspace) (circuit : String) (token : UUID)
    (seconds : Nat) : Bool × CircuitKeyspace :=
  match r.probes circuit with
  | some _ => (false, r)
  | none =>
      (true, { r with probes := r.probes.set circuit token (r.deadline seconds) })

/-- `DEL` of the probe key. -/
def deleteProbe (r : CircuitKeyspace) (circuit : String) : CircuitKeyspace :=
  { r with probes := r.probes.delete circuit }

/-- `DEL` of the circuit key, the probe key and the failure window. -/
def deleteCircuit (r : CircuitKeyspace) (circuit : String) : CircuitKeyspace where
  clock := r.clock
  circuits := r.circuits.delete circuit
  probes := r.probes.delete circuit
  failures := r.failures.delete circuit

/-- The window of failures; a missing key is an empty set. -/
def failureWindow (r : CircuitKeyspace) (circuit : String) :
    SortedSet (Instant ×ₗ UUID) Instant :=
  (r.failures.get circuit).getD .empty

/-- The pipeline of `record_failure`: drop what is older than the window, add
the failure and renew the time to live. -/
def addFailure (r : CircuitKeyspace) (circuit : String) (cutoff now : Instant)
    (token : UUID) (seconds : Nat) : CircuitKeyspace :=
  { r with
    failures := r.failures.set circuit
      (((r.failureWindow circuit).zremrangebyscore cutoff).zadd (toLex (now, token)) now)
      (r.deadline seconds) }

end CircuitKeyspace

/-- What a guarded provider call came to, as its client reports it. -/
inductive CallOutcome where
  | success
  | failure (eligible immediate : Bool) (failureThreshold : Option Nat)
  /-- The client reports nothing. -/
  | abandoned
deriving DecidableEq

/-- The atomic operations of a client of the breaker. -/
inductive CircuitOp where
  | utcNow
  | uuid4
  | getCircuit (circuit : String)
  | setCircuit (circuit : String) (state : OpenCircuit) (seconds : Nat)
  | claimProbe (circuit : String) (token : UUID) (seconds : Nat)
  | deleteProbe (circuit : String)
  | deleteCircuit (circuit : String)
  | addFailure (circuit : String) (cutoff now : Instant) (token : UUID)
      (seconds : Nat)
  | countFailures (circuit : String)
  /-- The provider call that a permit guards. -/
  | callProvider

@[reducible] def CircuitOp.Value : CircuitOp → Type
  | utcNow => Instant
  | uuid4 => UUID
  | getCircuit _ => Option OpenCircuit
  | setCircuit _ _ _ => Unit
  | claimProbe _ _ _ => Bool
  | deleteProbe _ => Unit
  | deleteCircuit _ => Unit
  | addFailure _ _ _ _ _ => Unit
  | countFailures _ => Nat
  | callProvider => CallOutcome

def circuitSignature : Signature := ⟨CircuitOp, CircuitOp.Value⟩

/-- A process that uses the breaker. -/
abbrev CircuitProc (α : Type) := Program circuitSignature ProviderException α

/-- A process that makes one call. -/
abbrev circuitCall (op : CircuitOp) : CircuitProc op.Value :=
  Program.perform (S := circuitSignature) op

/-- The calls that never leave the process, so that nothing interrupts them. -/
def CircuitOp.inProcess : CircuitOp → Bool
  | utcNow | uuid4 => true
  | _ => false

/-- The choice of the environment for one call: it goes through, with a reading
of the clock, a fresh token and an outcome of the provider, or it is
interrupted before it has any effect. -/
inductive CircuitAnswer where
  | proceed (now : Instant) (token : UUID) (outcome : CallOutcome)
  | interrupt (reason : ProviderInterruption)

/-- Execute one operation.  The server refuses a time to live of zero. -/
def CircuitOp.exec (now : Instant) (token : UUID) (outcome : CallOutcome) :
    (op : CircuitOp) → CircuitKeyspace →
      Except ProviderException op.Value × CircuitKeyspace
  | utcNow, r => (.ok now, r)
  | uuid4, r => (.ok token, r)
  | getCircuit circuit, r => (.ok (r.getCircuit circuit), r)
  | setCircuit circuit state seconds, r =>
      if seconds = 0 then (.error .unexpected, r)
      else (.ok (), r.setCircuit circuit state seconds)
  | claimProbe circuit probeToken seconds, r =>
      if seconds = 0 then (.error .unexpected, r)
      else
        (.ok (r.claimProbe circuit probeToken seconds).1,
          (r.claimProbe circuit probeToken seconds).2)
  | deleteProbe circuit, r => (.ok (), r.deleteProbe circuit)
  | deleteCircuit circuit, r => (.ok (), r.deleteCircuit circuit)
  | addFailure circuit cutoff at' member seconds, r =>
      (.ok (), r.addFailure circuit cutoff at' member seconds)
  | countFailures circuit, r => (.ok (r.failureWindow circuit).zcard, r)
  | callProvider, r => (.ok outcome, r)

/-- The server that all clients share. -/
def circuitMachine : Machine circuitSignature ProviderException CircuitKeyspace where
  Answer := CircuitAnswer
  exec
    | .proceed now token outcome, op, r => some (CircuitOp.exec now token outcome op r)
    | .interrupt reason, op, r =>
        if op.inProcess then none else some (.error reason.exception, r)
  Drift := Nat
  drift milliseconds r := some (r.tick milliseconds)

/-- `CircuitPermit`. -/
structure CircuitPermit where
  provider : String
  operation : String
  probe : Bool
deriving DecidableEq

/-- The text whose digest names the keys of a circuit. -/
def circuitName (provider operation : String) : String := provider ++ ":" ++ operation

def CircuitPermit.circuit (permit : CircuitPermit) : String :=
  circuitName permit.provider permit.operation

/-- `RedisCircuitBreaker`. -/
structure RedisCircuitBreaker where
  failureThreshold : Nat
  windowSeconds : Nat
  cooldownSeconds : List Nat
  cooldown_ne_nil : cooldownSeconds ≠ []

/-- Seconds as a span between two instants. -/
def seconds (n : Nat) : Int := 1000000 * n

namespace RedisCircuitBreaker

variable (breaker : RedisCircuitBreaker)

/-- The time to live of a probe claim. -/
def probeSeconds : Nat := max (breaker.cooldownSeconds.head breaker.cooldown_ne_nil) 30

/-- The cooldown of the `openCount`-th opening in a row. -/
def cooldown (openCount : Nat) : Nat :=
  breaker.cooldownSeconds.getD
    (min (openCount - 1) (breaker.cooldownSeconds.length - 1)) 0

/-- `before_call`. -/
def beforeCall (provider operation : String) (now : Instant) :
    CircuitProc CircuitPermit := do
  match ← circuitCall (.getCircuit (circuitName provider operation)) with
  | none => return ⟨provider, operation, false⟩
  | some state =>
      if now < state.openUntil then
        .raise .circuitOpen
      else
        let token ← circuitCall .uuid4
        let claimed ← circuitCall
          (.claimProbe (circuitName provider operation) token breaker.probeSeconds)
        if claimed then return ⟨provider, operation, true⟩
        else .raise .circuitOpen

/-- `record_success`. -/
def recordSuccess (permit : CircuitPermit) : CircuitProc Unit :=
  circuitCall (.deleteCircuit permit.circuit)

/-- `failure_threshold or self.failure_threshold`. -/
def threshold : Option Nat → Nat
  | none | some 0 => breaker.failureThreshold
  | some n => n

/-- `record_failure`. -/
def recordFailure (permit : CircuitPermit) (now : Instant) (eligible immediate : Bool)
    (failureThreshold : Option Nat) : CircuitProc Bool := do
  if !eligible then
    if permit.probe then circuitCall (.deleteProbe permit.circuit)
    return false
  else
    let token ← circuitCall .uuid4
    circuitCall (.addFailure permit.circuit (now - seconds breaker.windowSeconds) now
      token (breaker.windowSeconds * 2))
    let count ← circuitCall (.countFailures permit.circuit)
    let current ← circuitCall (.getCircuit permit.circuit)
    if immediate || permit.probe ||
        decide (breaker.threshold failureThreshold ≤ count) then
      let openCount := (current.map OpenCircuit.openCount).getD 0 + 1
      let cooldown := breaker.cooldown openCount
      circuitCall (.setCircuit permit.circuit ⟨openCount, now + seconds cooldown⟩
        (cooldown + breaker.windowSeconds))
      circuitCall (.deleteProbe permit.circuit)
      return true
    else return false

/-- One client: a guarded provider call whose outcome is recorded. -/
def guardedCall (provider operation : String) : CircuitProc Unit := do
  let started ← circuitCall .utcNow
  let permit ← breaker.beforeCall provider operation started
  match ← circuitCall .callProvider with
  | .success => recordSuccess permit
  | .failure eligible immediate failureThreshold => do
      let now ← circuitCall .utcNow
      let _ ← breaker.recordFailure permit now eligible immediate failureThreshold
  | .abandoned => return ()

end RedisCircuitBreaker

end SearchTrust.Providers
