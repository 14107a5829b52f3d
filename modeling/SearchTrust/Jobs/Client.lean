/-
The methods of the store as its callers see them: the atomic block, followed by
the notification of those who watch the job.
-/
import SearchTrust.Jobs.Callbacks

namespace SearchTrust.Jobs

open SearchTrust.Interleave

/-- `try: body except Exception as exc: handler exc`; a cancellation passes. -/
def catchException {α : Type} (body : Proc α) (handler : JobException → Proc α) :
    Proc α :=
  body.handle fun e => if e.isException then handler e else .raise e

/-- A callback that fails is left to a later reconciliation. -/
def trySync (job : UUID) : Proc Unit :=
  catchException (do let _ ← sync job) fun _ => return ()

namespace Client

/-- `register_job`. -/
def registerJob (a : Registration) : Proc RegistrationResult := do
  let result ← call (.registerJob a)
  if result.replayed then return result
  else
    let _ ← call (.publish a.jobId result.state.revision)
    return result

/-- The end of `transition` and of `take_over_stale`. -/
def publishApplied (job : UUID) (result : TransitionResult) :
    Proc TransitionResult := do
  if result.applied then
    let _ ← call (.publish job result.state.revision)
    return result
  else return result

/-- `transition`. -/
def transition (a : Transition) : Proc TransitionResult := do
  let result ← call (.transition a)
  publishApplied a.jobId result

/-- What `heartbeat` writes over the snapshot `current`. -/
def heartbeatTransition (job : UUID) (generation : Int) (now : Instant)
    (current : JobState) : Transition where
  jobId := job
  status := current.status
  stage := current.stage
  progress := current.progress
  message := current.message
  now := now
  heartbeatAt := some now
  expectedGeneration := some generation

/-- `heartbeat`: the snapshot is read before the block of the transition. -/
def heartbeat (job : UUID) (generation : Int) (now : Instant) :
    Proc TransitionResult := do
  let current ← requireState job
  transition (heartbeatTransition job generation now current)

/-- `take_over_stale`. -/
def takeOverStale (job : UUID) (expectedGeneration : Int) (now : Instant) :
    Proc TransitionResult := do
  let result ← call (.takeOverStale job expectedGeneration now)
  publishApplied job result

/-- `retry_failed`. -/
def retryFailed (job : UUID) (now : Instant) : Proc JobState := do
  let state ← call (.retryFailed job now)
  let _ ← call (.publish job state.revision)
  return state

end Client

section Rules

variable {ι : Type} [DecidableEq ι] {i : ι}
  {M : Machine jobSignature JobException World}
  {D : Discipline jobSignature JobException World ι}
  {A : Config jobSignature JobException World ι → Prop}
  {B : TransitionResult → Config jobSignature JobException World ι → Prop}

/-- What the block of a transition establishes still holds when its result has
been published. -/
theorem safe_transition {a : Transition}
    (hcall : Safe M D i (call (.transition a)) A (Outcome B fun _ _ => True))
    (hpublish : ∀ result revision, Safe M D i (call (.publish a.jobId revision))
      (B result) (Outcome (fun _ => B result) fun _ _ => True)) :
    Safe M D i (Client.transition a) A (Outcome B fun _ _ => True) := by
  refine Safe.bind hcall fun result => ?_
  unfold Client.publishApplied
  by_cases happlied : result.applied = true
  · simp only [happlied, ↓reduceIte]
    refine Safe.bind (hpublish result _) fun _ => ?_
    exact Safe.ret fun _ _ h => h
  · simp only [happlied]
    exact Safe.ret fun _ _ h => h

/-- A cancellation passes the handler. -/
theorem safe_catchException {α : Type} {body : Proc α} {handler : JobException → Proc α}
    {E : JobException → Config jobSignature JobException World ι → Prop}
    {Q : Except JobException α → Config jobSignature JobException World ι → Prop}
    (hbody : Safe M D i body A (Outcome (fun value => Q (.ok value)) E))
    (hhandler : ∀ e, Safe M D i (handler e) (E e) Q)
    (hpass : ∀ e c, D.inv c → E e c → Q (.error e) c) :
    Safe M D i (catchException body handler) A Q := by
  refine Safe.handle hbody fun e => ?_
  by_cases he : e.isException = true
  · simp only [he, ↓reduceIte]
    exact hhandler e
  · simp only [he]
    exact Safe.raise fun c hinv h => hpass e c hinv h

end Rules

section Calls

variable {α : Type} {P : JobOp → Prop}

theorem onlyCalls_call {op : JobOp} (hop : P op) : (call op).OnlyCalls P :=
  Program.onlyCalls_perform hop

theorem onlyCalls_requireState (hread : ∀ op, op.readsOnly = true → P op)
    (job : UUID) : (requireState job).OnlyCalls P := by
  refine (onlyCalls_call (hread _ rfl)).bind fun found => ?_
  cases found <;> trivial

theorem onlyCalls_sync (hread : ∀ op, op.readsOnly = true → P op) {job : UUID}
    (hmark : ∀ revision, P (.markCallbackSynced job revision)) :
    (sync job).OnlyCalls P := by
  refine (onlyCalls_requireState hread job).bind fun state => ?_
  by_cases hsynced : state.revision ≤ state.callbackSyncedRevision
  · simp only [hsynced, ↓reduceIte]
    trivial
  · simp only [hsynced, ↓reduceIte]
    refine (onlyCalls_call (hread _ rfl)).bind fun accepted => ?_
    cases accepted with
    | false => trivial
    | true => exact (onlyCalls_call (hmark _)).bind fun _ => trivial

theorem onlyCalls_catchException {body : Proc α} {handler : JobException → Proc α}
    (hbody : body.OnlyCalls P) (hhandler : ∀ e, (handler e).OnlyCalls P) :
    (catchException body handler).OnlyCalls P := by
  refine hbody.handle fun e => ?_
  by_cases he : e.isException = true
  · simp only [he, ↓reduceIte]
    exact hhandler e
  · simp only [he]
    trivial

theorem onlyCalls_trySync (hread : ∀ op, op.readsOnly = true → P op) {job : UUID}
    (hmark : ∀ revision, P (.markCallbackSynced job revision)) :
    (trySync job).OnlyCalls P := by
  refine onlyCalls_catchException ?_ fun _ => trivial
  exact (onlyCalls_sync hread hmark).bind fun _ => trivial

theorem onlyCalls_registerJob (hread : ∀ op, op.readsOnly = true → P op)
    {a : Registration} (hregister : P (.registerJob a)) :
    (Client.registerJob a).OnlyCalls P := by
  refine (onlyCalls_call hregister).bind fun result => ?_
  split
  next => trivial
  next => exact Program.OnlyCalls.bind (onlyCalls_call (hread _ rfl)) fun _ => trivial

theorem onlyCalls_publishApplied (hread : ∀ op, op.readsOnly = true → P op)
    (job : UUID) (result : TransitionResult) :
    (Client.publishApplied job result).OnlyCalls P := by
  unfold Client.publishApplied
  by_cases happlied : result.applied = true
  · simp only [happlied, ↓reduceIte]
    exact (onlyCalls_call (hread _ rfl)).bind fun _ => trivial
  · simp only [happlied]
    trivial

theorem onlyCalls_transition (hread : ∀ op, op.readsOnly = true → P op)
    {a : Transition} (hmove : P (.transition a)) :
    (Client.transition a).OnlyCalls P :=
  (onlyCalls_call hmove).bind (onlyCalls_publishApplied hread a.jobId)

theorem onlyCalls_takeOverStale (hread : ∀ op, op.readsOnly = true → P op)
    {job : UUID} {generation : Int} {now : Instant}
    (htake : P (.takeOverStale job generation now)) :
    (Client.takeOverStale job generation now).OnlyCalls P :=
  (onlyCalls_call htake).bind (onlyCalls_publishApplied hread job)

end Calls

end SearchTrust.Jobs
