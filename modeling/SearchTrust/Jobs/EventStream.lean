/-
The stream of the states of one job.  A stream subscribes to the notifications of
its job, reads the stored state, and reads it again whenever it is notified.
-/
import SearchTrust.Jobs.Durable

namespace SearchTrust.Jobs

open SearchTrust.Interleave SearchTrust.Redis

/-- What waits on the connection of a subscriber. -/
inductive Notice where
  | subscribed
  | message (revision : Int)
deriving DecidableEq

/-- What a stream yields. -/
inductive StreamItem where
  | state (s : JobState)
  | heartbeat

/-- The calls of a stream, next to those of the job runtime. -/
inductive StreamOp where
  | job (op : JobOp)
  | monotonic
  | subscribe (stream : Nat) (job : UUID)
  /-- `get_message`, which ignores the confirmation of the subscription. -/
  | getMessage (stream : Nat)
  | unsubscribe (stream : Nat)
  /-- `yield`; the consumer may close the stream there. -/
  | emit (stream : Nat) (item : StreamItem)
  /-- The rounds of a stream beyond those that a run looks at. -/
  | suspend

@[reducible] def StreamOp.Value : StreamOp → Type
  | job op => op.Value
  | monotonic => Int
  | subscribe _ _ => Unit
  | getMessage _ => Option Int
  | unsubscribe _ => Unit
  | emit _ _ => Unit
  | suspend => Unit

def streamSignature : Signature := ⟨StreamOp, StreamOp.Value⟩

abbrev StreamProc (α : Type) := Program streamSignature JobException α

abbrev streamCall (op : StreamOp) : StreamProc op.Value :=
  Program.perform (S := streamSignature) op

/-- A process of the job runtime next to the streams. -/
def onJobs {α : Type} (p : Proc α) : StreamProc α :=
  Program.interpret (fun op : JobOp => streamCall (.job op)) p

/-- A connection with its channel and what waits on it, oldest first. -/
structure Connection where
  job : UUID
  notices : List Notice

/-- The runtime and the connections of the streams. -/
structure StreamWorld where
  jobs : World
  connections : Nat → Option Connection

def StreamWorld.initial : StreamWorld := ⟨World.initial, fun _ => none⟩

/-- A message reaches a connection that listens to its channel. -/
def Connection.deliver (job : UUID) (revision : Int) (connection : Connection) :
    Connection :=
  if connection.job = job then
    { connection with notices := connection.notices ++ [.message revision] }
  else connection

namespace StreamWorld

def connect (w : StreamWorld) (stream : Nat) (connection : Option Connection) :
    StreamWorld :=
  { w with connections := fun n => if n = stream then connection else w.connections n }

def deliver (w : StreamWorld) (job : UUID) (revision : Int) : StreamWorld :=
  { w with
    connections := fun n => (w.connections n).map fun connection =>
      connection.deliver job revision }

/-- What waits on a connection is taken, oldest first; a wait that finds nothing
times out. -/
def takeNotice (w : StreamWorld) (stream : Nat) :
    Except JobException (Option Int) × StreamWorld :=
  match w.connections stream with
  | none => (.error .unexpected, w)
  | some ⟨_, []⟩ => (.ok none, w)
  | some ⟨job, .subscribed :: rest⟩ => (.ok none, w.connect stream (some ⟨job, rest⟩))
  | some ⟨job, .message revision :: rest⟩ =>
      (.ok (some revision), w.connect stream (some ⟨job, rest⟩))

end StreamWorld

/-- The revision that a call has published. -/
def JobOp.published : (op : JobOp) → Except JobException op.Value →
    Option (UUID × Int)
  | publish job revision, .ok _ => some (job, revision)
  | _, _ => none

/-- The world after a call of the runtime: what it has published is delivered. -/
def StreamWorld.advance (w : StreamWorld) (jobs : World) :
    Option (UUID × Int) → StreamWorld
  | some (job, revision) => { w with jobs }.deliver job revision
  | none => { w with jobs }

/-- The choice of the environment for one call, with a reading of the clock. -/
structure StreamAnswer where
  job : JobAnswer
  clock : Int

/-- Execute a call of a stream that goes through. -/
def StreamOp.exec : (op : StreamOp) → StreamWorld →
    Option (Except JobException op.Value × StreamWorld)
  | .subscribe stream channel, w =>
      some (.ok (), w.connect stream (some ⟨channel, [.subscribed]⟩))
  | .getMessage stream, w => some (w.takeNotice stream)
  | .unsubscribe stream, w => some (.ok (), w.connect stream none)
  | .emit _ _, w => some (.ok (), w)
  | _, _ => none

def streamMachine (store : DurableJobStore) :
    Machine streamSignature JobException StreamWorld where
  Answer := StreamAnswer
  exec answer op w :=
    match op with
    | .job op =>
        ((durableMachine store).exec answer.job op w.jobs).map fun outcome =>
          (outcome.1, w.advance outcome.2 (op.published outcome.1))
    | .monotonic => some (.ok answer.clock, w)
    | .suspend => none
    | op =>
        match answer.job with
        | .proceed _ => op.exec w
        | .interrupt reason => some (.error reason.exception, w)
  Drift := Nat
  drift seconds w :=
    ((durableMachine store).drift seconds w.jobs).map fun jobs => { w with jobs }

/-- The arguments of a stream; `rounds` bounds the rounds that a run looks at. -/
structure StreamRequest where
  jobId : UUID
  lastEventId : Int
  timeout : Int
  rounds : Nat

namespace StreamRequest

variable (r : StreamRequest) (n : Nat)

/-- The revision from which a stream starts. -/
def startRevision : Int := max r.lastEventId 0

/-- `require_state`. -/
def requireState : StreamProc JobState := do
  match ← streamCall (.job (.getState r.jobId)) with
  | none => .raise .jobNotFound
  | some state => return state

/-- The loop of `stream_job_states`. -/
def watch (started : Int) : Nat → Int → StreamProc Unit
  | 0, _ => streamCall .suspend
  | rounds + 1, lastRevision => do
      let now ← streamCall .monotonic
      if now - started < r.timeout then
        let message ← streamCall (.getMessage n)
        match message with
        | none =>
            let _ ← streamCall (.emit n .heartbeat)
            watch started rounds lastRevision
        | some _ =>
            let current ← r.requireState
            if current.revision ≤ lastRevision then
              watch started rounds lastRevision
            else
              let _ ← streamCall (.emit n (.state current))
              if current.terminal then return ()
              else watch started rounds current.revision
      else return ()

/-- The body of `stream_job_states`, between its subscription and its end. -/
def follow (started : Int) : StreamProc Unit := do
  let current ← r.requireState
  if r.startRevision < current.revision then
    let _ ← streamCall (.emit n (.state current))
    if current.terminal then return ()
    else r.watch n started r.rounds current.revision
  else if current.terminal then return ()
  else r.watch n started r.rounds r.startRevision

/-- `stream_job_states`. -/
def streamJobStates : StreamProc Unit := do
  let started ← streamCall .monotonic
  let _ ← streamCall (.subscribe n r.jobId)
  (r.follow n started).ensuring (streamCall (.unsubscribe n))

end StreamRequest

inductive StreamActor where
  | stream (n : Nat)
  | client (n : Nat)
deriving DecidableEq

abbrev StreamEvent := Event streamSignature JobException StreamWorld StreamActor

abbrev StreamConfig := Config streamSignature JobException StreamWorld StreamActor

/-- Streams next to any processes of the runtime. -/
structure Streaming where
  streams : Nat → StreamRequest
  clients : Nat → Proc Unit

def Streaming.pool (dep : Streaming) : StreamActor → StreamProc Unit
  | .stream n => (dep.streams n).streamJobStates n
  | .client n => onJobs (dep.clients n)

namespace StreamOp

/-- The stream whose connection or consumer a call is about. -/
def stream : StreamOp → Option Nat
  | subscribe n _ | getMessage n | unsubscribe n | emit n _ => some n
  | _ => none

def published : (op : StreamOp) → Except JobException op.Value → Option (UUID × Int)
  | .job op, result => op.published result
  | _, _ => none

/-- The state that a call yields. -/
def emitted : StreamOp → Option JobState
  | emit _ (.state s) => some s
  | _ => none

def clockReading : (op : StreamOp) → Except JobException op.Value → Option Int
  | monotonic, .ok now => some now
  | _, _ => none

/-- The state that a read has returned. -/
def observed : (op : StreamOp) → Except JobException op.Value →
    Option (UUID × JobState)
  | .job op, result => op.observed result
  | _, _ => none

end StreamOp

section Calls

variable {store : DurableJobStore} {w w' : StreamWorld}

@[simp] theorem StreamWorld.advance_jobs (w : StreamWorld) (jobs : World)
    (published : Option (UUID × Int)) : (w.advance jobs published).jobs = jobs := by
  rcases published with _ | ⟨job, revision⟩ <;> rfl

theorem StreamWorld.takeNotice_jobs (w : StreamWorld) (n : Nat) :
    (w.takeNotice n).2.jobs = w.jobs := by
  unfold takeNotice
  split <;> rfl

/-- A call of the runtime does there what it does without the streams. -/
theorem streamPerforms_job {op : JobOp} {res : Except JobException op.Value}
    (h : (streamMachine store).Performs (.job op) w res w') :
    (durableMachine store).Performs op w.jobs res w'.jobs ∧
      w' = w.advance w'.jobs (op.published res) := by
  obtain ⟨answer, hexec⟩ := h
  obtain ⟨⟨result, jobs⟩, hbase, heq⟩ := Option.map_eq_some_iff.1 hexec
  obtain ⟨rfl, rfl⟩ := Prod.mk.inj heq
  rw [StreamWorld.advance_jobs]
  exact ⟨⟨answer.job, hbase⟩, rfl⟩

/-- The other calls leave the runtime alone. -/
theorem streamPerforms_other {op : StreamOp} {res : Except JobException op.Value}
    (h : (streamMachine store).Performs op w res w')
    (hop : ∀ jobOp, op ≠ .job jobOp) : w'.jobs = w.jobs := by
  obtain ⟨⟨job, clock⟩, hexec⟩ := h
  cases op with
  | job op => exact absurd rfl (hop op)
  | monotonic =>
      obtain ⟨_, rfl⟩ := Prod.mk.inj (Option.some.inj hexec)
      rfl
  | suspend => cases hexec
  | getMessage n =>
      cases job with
      | proceed reply =>
          obtain ⟨_, rfl⟩ := Prod.mk.inj (Option.some.inj hexec)
          exact w.takeNotice_jobs n
      | interrupt reason =>
          obtain ⟨_, rfl⟩ := Prod.mk.inj (Option.some.inj hexec)
          rfl
  | _ =>
      cases job with
      | proceed reply =>
          obtain ⟨_, rfl⟩ := Prod.mk.inj (Option.some.inj hexec)
          rfl
      | interrupt reason =>
          obtain ⟨_, rfl⟩ := Prod.mk.inj (Option.some.inj hexec)
          rfl

/-- No call of any process turns a job back. -/
theorem streamPerforms_later {op : StreamOp} {res : Except JobException op.Value}
    (hr : w.jobs.redis.StatesStored)
    (h : (streamMachine store).Performs op w res w') :
    w'.jobs.redis.StatesStored ∧
      ∀ job, (w.jobs.redis.view job).Later (w'.jobs.redis.view job) := by
  by_cases hop : ∃ jobOp, op = .job jobOp
  · obtain ⟨jobOp, rfl⟩ := hop
    have hbase := (streamPerforms_job h).1
    have hchange := performs_change hr hbase
    exact ⟨fun job => (hchange job).stored (hr.view job),
      fun job => (hchange job).later (hr.view job)⟩
  · have hjobs := streamPerforms_other h fun jobOp hjob => hop ⟨jobOp, hjob⟩
    rw [hjobs]
    exact ⟨hr, fun job => .refl _⟩

theorem streamDrifts_jobs (h : (streamMachine store).Drifts w w') :
    (durableMachine store).Drifts w.jobs w'.jobs ∧
      w'.connections = w.connections := by
  obtain ⟨(seconds : Nat), hdrift⟩ := h
  obtain rfl := Option.some.inj hdrift
  exact ⟨⟨seconds, rfl⟩, rfl⟩

/-- What a call of another process does to a connection. -/
theorem streamPerforms_connection {op : StreamOp}
    {res : Except JobException op.Value}
    (h : (streamMachine store).Performs op w res w') {n : Nat}
    (hop : op.stream ≠ some n) :
    w'.connections n = match op.published res with
      | some (job, revision) =>
          (w.connections n).map fun connection => connection.deliver job revision
      | none => w.connections n := by
  by_cases hjob : ∃ jobOp, op = .job jobOp
  · obtain ⟨jobOp, rfl⟩ := hjob
    rw [(streamPerforms_job h).2]
    show (w.advance w'.jobs (jobOp.published res)).connections n =
      match jobOp.published res with
      | some (job, revision) =>
          (w.connections n).map fun connection : Connection =>
            connection.deliver job revision
      | none => w.connections n
    cases jobOp.published res <;> rfl
  · obtain ⟨⟨job, clock⟩, hexec⟩ := h
    have hne : ∀ m, op.stream = some m → n ≠ m := by
      rintro m hm rfl
      exact hop hm
    cases op with
    | job op => exact absurd ⟨op, rfl⟩ hjob
    | monotonic =>
        obtain ⟨_, rfl⟩ := Prod.mk.inj (Option.some.inj hexec)
        rfl
    | suspend => cases hexec
    | getMessage m =>
        cases job with
        | proceed reply =>
            obtain ⟨_, rfl⟩ := Prod.mk.inj (Option.some.inj hexec)
            show (w.takeNotice m).2.connections n = w.connections n
            unfold StreamWorld.takeNotice
            split <;> simp [StreamWorld.connect, hne m rfl]
        | interrupt reason =>
            obtain ⟨_, rfl⟩ := Prod.mk.inj (Option.some.inj hexec)
            rfl
    | emit m item =>
        cases job with
        | proceed reply =>
            obtain ⟨_, rfl⟩ := Prod.mk.inj (Option.some.inj hexec)
            rfl
        | interrupt reason =>
            obtain ⟨_, rfl⟩ := Prod.mk.inj (Option.some.inj hexec)
            rfl
    | _ m =>
        cases job with
        | proceed reply =>
            obtain ⟨_, rfl⟩ := Prod.mk.inj (Option.some.inj hexec)
            exact if_neg (hne m rfl)
        | interrupt reason =>
            obtain ⟨_, rfl⟩ := Prod.mk.inj (Option.some.inj hexec)
            rfl

end Calls

end SearchTrust.Jobs
