/-
Checkpointed operations.  Executions of any generations run the same operation
once between them: the first result that is committed is the one they return.
-/
import SearchTrust.Interleave.Procedures
import SearchTrust.Jobs.Digest
import SearchTrust.Jobs.Durable

namespace SearchTrust.Jobs

open SearchTrust.Interleave SearchTrust.Interleave.Program SearchTrust.Redis

namespace JobCheckpoints

/-- `get`: Python has one value for a missing key and for JSON null. -/
def get (job : UUID) (key : String) : Proc Json := do
  match ← call (.getCheckpoint job key) with
  | none => return .null
  | some value => return value

/-- `save`. -/
def save (checkpoints : JobCheckpoints) (job : UUID) (key : String) (value : Json) :
    Proc Bool :=
  call (.saveCheckpoint checkpoints job key value.canonical)

/-- The part of `run_once` after the operation. -/
def keepFirst (checkpoints : JobCheckpoints) (job : UUID) (key : String)
    (result : Json) : Proc Json := do
  let saved ← checkpoints.save job key result
  if saved then return result
  else
    -- Another execution has committed, or this one may not.
    let persisted ← get job key
    if persisted.isNull then return result else return persisted

/-- `run_once`. -/
def runOnce (checkpoints : JobCheckpoints) (job : UUID) (key : String)
    (operation : Proc Json) : Proc Json := do
  let existing ← get job key
  if existing.isNull then operation >>= checkpoints.keepFirst job key
  else return existing

end JobCheckpoints

section Returns

variable {store : DurableJobStore} {tick : JobRedis → Nat → JobRedis}
  {w w' : World} {job : UUID} {key : String}

theorem performs_getCheckpoint {result : Except JobException (Option Json)}
    (h : (jobMachine store tick).Performs (.getCheckpoint job key) w result w') :
    w' = w ∧ (result = .ok (store.getCheckpoint job key w.redis) ∨
      ∃ reason : Interruption, result = .error reason.exception) := by
  rcases performs_cases h with ⟨reply, hexec⟩ | ⟨reason, hres, rfl⟩
  · obtain ⟨rfl, rfl⟩ := Prod.mk.inj (Option.some.inj hexec)
    exact ⟨rfl, Or.inl rfl⟩
  · exact ⟨rfl, Or.inr ⟨reason, hres⟩⟩

/-- The call with which a `run_once` returns `value` leaves no other committed
value than `value`, or a null. -/
def AgreesWithCommitted (store : DurableJobStore) (tick : JobRedis → Nat → JobRedis)
    (job : UUID) (key : String) (op : JobOp) (result : Except JobException op.Value)
    (value : Json) : Prop :=
  ∀ w w', (jobMachine store tick).Performs op w result w' →
    ∀ committed, store.getCheckpoint job key w'.redis = some committed →
      committed ≠ .null → value.Same committed

/-- What a read has returned is what the checkpoint holds. -/
theorem agreesWithCommitted_get {value : Json} :
    AgreesWithCommitted store tick job key (.getCheckpoint job key)
      (.ok (some value)) value := by
  intro w w' hstep committed hcommitted _
  obtain ⟨rfl, hread | ⟨_, hread⟩⟩ := performs_getCheckpoint hstep
  · rw [hcommitted] at hread
    obtain rfl := Option.some.inj (Except.ok.inj hread)
    exact .refl _
  · cases hread

/-- After a read of a missing or null checkpoint any value may be returned. -/
theorem agreesWithCommitted_of_null {read : Option Json}
    (hread : ∀ value ∈ read, value = .null) (value : Json) :
    AgreesWithCommitted store tick job key (.getCheckpoint job key) (.ok read)
      value := by
  intro w w' hstep committed hcommitted hnull
  obtain ⟨rfl, hres | ⟨_, hres⟩⟩ := performs_getCheckpoint hstep
  · have hmem := (Except.ok.inj hres).trans hcommitted
    exact absurd (hread committed hmem) hnull
  · cases hres

/-- After its own commit an execution returns what it has committed. -/
theorem agreesWithCommitted_save {checkpoints : JobCheckpoints} {value : Json} :
    AgreesWithCommitted store tick job key
      (.saveCheckpoint checkpoints job key value.canonical) (.ok true) value := by
  intro w w' hstep committed hcommitted _
  rcases performs_cases hstep with ⟨reply, hexec⟩ | ⟨_, hres, _⟩
  · obtain ⟨hsaved, rfl⟩ := Prod.mk.inj (Option.some.inj hexec)
    rcases saveCheckpoint_cases store checkpoints job key value.canonical w.redis with
      heq | ⟨_, heq⟩
    · rw [heq] at hsaved
      cases hsaved
    · rw [heq] at hcommitted
      have hvalue : some value.canonical = some committed :=
        (Table.get_set_self _ _ _ _).symm.trans hcommitted
      obtain rfl := Option.some.inj hvalue
      exact .canonical value
  · cases hres

/-- What follows a read agrees with the checkpoint when it returns, if at all, the
value that was read, unless that is a null. -/
theorem returnsBy_get {f : Json → Proc Json}
    (hf : ∀ read, (f read).ReturnsBy (AgreesWithCommitted store tick job key))
    (hret : ∀ read value, f read = .ret value → read = .null ∨ value = read) :
    (JobCheckpoints.get job key >>= f).ReturnsBy
      (AgreesWithCommitted store tick job key) := by
  constructor
  · rintro (error | _ | read) value hvalue
    · cases hvalue
    · exact agreesWithCommitted_of_null (fun _ h => by cases h) value
    · rcases hret read value hvalue with rfl | rfl
      · exact agreesWithCommitted_of_null (fun _ h => (Option.some.inj h).symm) value
      · exact agreesWithCommitted_get
  · rintro (error | _ | read)
    · trivial
    · exact hf .null
    · exact hf read

theorem returnsBy_keepFirst (checkpoints : JobCheckpoints) (result : Json) :
    (checkpoints.keepFirst job key result).ReturnsBy
      (AgreesWithCommitted store tick job key) := by
  constructor
  · rintro (error | _ | _) value hvalue
    · cases hvalue
    · cases hvalue
    · obtain rfl := Program.ret.inj hvalue
      exact agreesWithCommitted_save
  · rintro (error | _ | _)
    · trivial
    · refine returnsBy_get ?_ ?_
      · intro persisted
        by_cases hnull : persisted.isNull = true
        · rw [if_pos hnull]
          trivial
        · rw [if_neg hnull]
          trivial
      · intro persisted value hvalue
        by_cases hnull : persisted.isNull = true
        · exact Or.inl (Json.isNull_eq_true_iff.1 hnull)
        · rw [if_neg hnull] at hvalue
          exact Or.inr (Program.ret.inj hvalue).symm
    · trivial

/-- Whatever the operation does, `run_once` returns what is committed. -/
theorem returnsBy_runOnce (checkpoints : JobCheckpoints) (operation : Proc Json) :
    (checkpoints.runOnce job key operation).ReturnsBy
      (AgreesWithCommitted store tick job key) := by
  refine returnsBy_get ?_ ?_
  · intro existing
    by_cases hnull : existing.isNull = true
    · rw [if_pos hnull]
      exact .bind (returnsBy_keepFirst checkpoints) (fun _ => trivial) operation
    · rw [if_neg hnull]
      trivial
  · intro existing value hvalue
    by_cases hnull : existing.isNull = true
    · exact Or.inl (Json.isNull_eq_true_iff.1 hnull)
    · rw [if_neg hnull] at hvalue
      exact Or.inr (Program.ret.inj hvalue).symm

end Returns

section Committed

variable {store : DurableJobStore} {op : JobOp}

/-- The clock stands still and every checkpoint keeps its entry. -/
structure CheckpointsKept (r r' : JobRedis) : Prop where
  clock : r'.clock = r.clock
  entries : ∀ at_ entry, r.checkpoints at_ = some entry → r'.checkpoints at_ = some entry

/-- No call overwrites a checkpoint. -/
theorem Write.checkpointsKept {r r' : JobRedis} (h : Write store r op r') :
    CheckpointsKept r r' := by
  cases h with
  | checkpointSaved checkpoints job key value hfree =>
      refine ⟨rfl, ?_⟩
      intro at_ entry hentry
      have hne : at_ ≠ store.checkpointKey job key := by
        rintro rfl
        rw [hfree] at hentry
        cases hentry
      exact (Table.set_of_ne _ hne _ _).trans hentry
  | _ => exact ⟨rfl, fun _ _ h => h⟩

variable {ι : Type} [DecidableEq ι]
  {cond : CallCondition jobSignature JobException World ι}
  {c c' : Config jobSignature JobException World ι}

/-- The entry is there as long as its time to live has not run out. -/
def HeldUntilExpiry (at_ : UUID × Digest) (entry : Entry Json) (r : JobRedis) : Prop :=
  r.clock < entry.expiresAt → r.checkpoints at_ = some entry

theorem CheckpointsKept.held {r r' : JobRedis} (h : CheckpointsKept r r')
    {at_ : UUID × Digest} {entry : Entry Json} (hheld : HeldUntilExpiry at_ entry r) :
    HeldUntilExpiry at_ entry r' := by
  intro hlive
  rw [h.clock] at hlive
  exact h.entries at_ entry (hheld hlive)

theorem HeldUntilExpiry.tick {at_ : UUID × Digest} {entry : Entry Json} {r : JobRedis}
    (hheld : HeldUntilExpiry at_ entry r) (seconds : Nat) :
    HeldUntilExpiry at_ entry (r.tick seconds) := by
  intro hlive
  have hlive : r.clock + seconds < entry.expiresAt := hlive
  refine (Table.purge_eq_some_iff _ _ _ _).2 ⟨hheld ?_, hlive⟩
  omega

/-- Whatever happens, a committed checkpoint stays until it expires. -/
theorem heldUntilExpiry_of_run (hrun : Run (expiringMachine store) cond c c')
    (hstored : c.state.redis.StatesStored) {at_ : UUID × Digest} {entry : Entry Json}
    (hentry : c.state.redis.checkpoints at_ = some entry) :
    HeldUntilExpiry at_ entry c'.state.redis := by
  refine (Run.invariant (I := fun d => d.state.redis.StatesStored ∧
    HeldUntilExpiry at_ entry d.state.redis) hrun ⟨hstored, fun _ => hentry⟩
    ?_ ?_ ?_).2
  · rintro d e rest ⟨hd, hheld⟩ hen
    refine ⟨statesStored_performs hd hen.performs, ?_⟩
    rcases performs_write hd hen.performs with hsame | hwrite
    · rw [Config.perform_state, hsame]
      exact hheld
    · exact hwrite.checkpointsKept.held hheld
  · rintro d after ⟨hd, hheld⟩ ⟨seconds, hseconds⟩
    obtain rfl := Option.some.inj hseconds
    exact ⟨hd.tick seconds, hheld.tick seconds⟩
  · rintro d i hd
    exact hd

/-- The state of the job is gone, belongs to another generation, or is terminal. -/
def FencedOrTerminal (r : JobRedis) (job : UUID) (generation : Int) : Prop :=
  ∀ state, r.states.get job = some state →
    state.runGeneration ≠ generation ∨ state.terminal = true

theorem saveCheckpoint_of_fencedOrTerminal {checkpoints : JobCheckpoints}
    {generation : Int} (hgeneration : checkpoints.runGeneration = some generation)
    {r : JobRedis} {job : UUID} (h : FencedOrTerminal r job generation)
    (key : String) (value : Json) :
    store.saveCheckpoint checkpoints job key value r = (false, r) := by
  unfold DurableJobStore.saveCheckpoint
  rw [hgeneration]
  cases hstate : r.states.get job with
  | none => rfl
  | some state => exact if_pos (h state hstate)

/-- A save on behalf of a fenced generation or a terminal job writes nothing. -/
theorem performs_saveCheckpoint_fenced {tick : JobRedis → Nat → JobRedis}
    {w w' : World} {checkpoints : JobCheckpoints} {generation : Int} {job : UUID}
    {key : String} {value : Json} {result : Except JobException Bool}
    (hgeneration : checkpoints.runGeneration = some generation)
    (hfenced : FencedOrTerminal w.redis job generation)
    (h : (jobMachine store tick).Performs (.saveCheckpoint checkpoints job key value)
      w result w') : w' = w := by
  rcases performs_cases h with ⟨reply, hexec⟩ | ⟨_, _, rfl⟩
  · obtain ⟨_, rfl⟩ := Prod.mk.inj (Option.some.inj hexec)
    rw [saveCheckpoint_of_fencedOrTerminal hgeneration hfenced]
  · rfl

omit [DecidableEq ι] in
/-- Where a value is committed, the first call of a `run_once` is its last. -/
theorem runOnce_of_committed {checkpoints : JobCheckpoints} {job : UUID}
    {key : String} {operation : Proc Json} {k : Except JobException Json → Proc Unit}
    {committed : Json}
    {e : Event jobSignature JobException World ι} {rest : Proc Unit}
    (hen : Enabled (expiringMachine store) cond c e rest)
    (hpool : c.pool e.actor = (checkpoints.runOnce job key operation).attempt >>= k)
    (hcommitted : store.getCheckpoint job key c.state.redis = some committed)
    (hnull : committed ≠ .null) :
    rest = k (.ok committed) ∨ ∃ error, rest = k (.error error) := by
  obtain ⟨actor, op, result, before, after⟩ := e
  obtain ⟨⟨next, hcall, rfl⟩, _, hperforms, _⟩ := hen
  rw [hpool] at hcall
  obtain ⟨rfl, hnext⟩ := Program.call.inj hcall
  obtain rfl := eq_of_heq hnext
  obtain ⟨_, rfl | ⟨reason, rfl⟩⟩ := performs_getCheckpoint hperforms
  · left
    rw [hcommitted]
    have hread : ¬ committed.isNull = true := by
      rw [Json.isNull_eq_true_iff]
      exact hnull
    show (if committed.isNull = true then _ else _ : Proc Json).attempt >>= k = _
    rw [if_neg hread]
    rfl
  · exact Or.inr ⟨_, rfl⟩

/-- In every run, with expiry: a committed checkpoint keeps its value until its time
to live runs out; a `run_once` returns the value that is committed when it returns;
a save for a fenced generation or a terminal job changes nothing; and a `run_once`
that finds a committed value returns it without running its operation.  A committed
null is the exception to the second and the last: it reads as a missing checkpoint. -/
theorem checkpoints_agree (pool : ι → Proc Unit)
    (hrun : Run (expiringMachine store) Anything (start World.initial pool) c)
    (job : UUID) (key : String) :
    (∀ c' entry, Run (expiringMachine store) Anything c c' →
      c.state.redis.checkpoints (store.checkpointKey job key) = some entry →
      c'.state.redis.clock < entry.expiresAt →
      c'.state.redis.checkpoints (store.checkpointKey job key) = some entry) ∧
    (∀ (checkpoints : JobCheckpoints) (operation : Proc Json)
        (e : Event jobSignature JobException World ι) (rest : Proc Unit)
        (next : Except JobException e.op.Value → Proc Json) (value committed : Json),
      Enabled (expiringMachine store) Anything c e rest →
      Inside c e.actor (checkpoints.runOnce job key operation) (.call e.op next) →
      next e.result = .ret value →
      store.getCheckpoint job key e.after.redis = some committed →
      committed ≠ .null → value.Same committed) ∧
    (∀ (checkpoints : JobCheckpoints) (generation : Int) (value : Json)
        (e : Event jobSignature JobException World ι) (rest : Proc Unit),
      Enabled (expiringMachine store) Anything c e rest →
      e.op = .saveCheckpoint checkpoints job key value →
      checkpoints.runGeneration = some generation →
      FencedOrTerminal c.state.redis job generation → e.after = c.state) ∧
    ∀ (checkpoints : JobCheckpoints) (operation : Proc Json)
        (e : Event jobSignature JobException World ι) (rest : Proc Unit)
        (k : Except JobException Json → Proc Unit) (committed : Json),
      Enabled (expiringMachine store) Anything c e rest →
      c.pool e.actor = (checkpoints.runOnce job key operation).attempt >>= k →
      store.getCheckpoint job key c.state.redis = some committed →
      committed ≠ .null →
      rest = k (.ok committed) ∨ ∃ error, rest = k (.error error) := by
  have hstored := statesStored_of_expiringRun hrun statesStored_initial
  refine ⟨?_, ?_, ?_, ?_⟩
  · intro c' entry hmore hentry
    exact heldUntilExpiry_of_run hmore hstored hentry
  · intro checkpoints operation e rest next value committed hen hinside hret
    have hagrees := hinside.returnsBy (@returnsBy_runOnce store
      JobRedis.tick _ _ checkpoints operation) hret
    exact hagrees c.state e.after hen.performs committed
  · rintro checkpoints generation value ⟨actor, op, result, before, after⟩ rest hen
      rfl hgeneration hfenced
    exact performs_saveCheckpoint_fenced hgeneration hfenced hen.performs
  · intro checkpoints operation e rest k committed hen hpool
    exact runOnce_of_committed hen hpool

end Committed

section Sample

/-- Two executions of the first generation. -/
def sampleCheckpoints : JobCheckpoints := ⟨604800, some 1⟩

/-- A process that makes one checkpointed operation. -/
def checkpointing (operation : Proc Json) : Proc Unit :=
  (sampleCheckpoints.runOnce 1 "site" operation).attempt >>= fun _ => .ret ()

def racingPool : Fin 3 → Proc Unit
  | 0 => do let _ ← call (.registerJob sampleRegistration)
  | 1 => checkpointing (return .number "1")
  | 2 => checkpointing (return .number "2")

/-- Both executions find no checkpoint, and the first one commits. -/
def raceMoves : List (Move (expiringMachine sampleStore) (Fin 3)) :=
  [.act 0 quiet, .act 1 quiet, .act 2 quiet, .act 1 quiet, .act 2 quiet]

theorem race_played :
    (play (fun _ _ => true) raceMoves (start World.initial racingPool)).isSome =
      true := by
  decide

def raced : Config jobSignature JobException World (Fin 3) :=
  (play (fun _ _ => true) raceMoves (start World.initial racingPool)).get race_played

theorem raced_run :
    Run (expiringMachine sampleStore) Anything (start World.initial racingPool) raced :=
  play_run (fun _ _ _ => trivial) (Option.some_get race_played).symm

/-- What is left of the second execution once its save has failed. -/
def readBack : Proc Json := do
  let persisted ← JobCheckpoints.get 1 "site"
  if persisted.isNull then return .number "2" else return persisted

/-- The second execution has read nothing, and its save has failed. -/
theorem raced_inside : Inside raced 2
    (sampleCheckpoints.runOnce 1 "site" (return .number "2")) readBack := by
  have hstart : Residual (sampleCheckpoints.runOnce 1 "site" (return .number "2"))
      (sampleCheckpoints.runOnce 1 "site" (return .number "2")) := .start
  have hread := Residual.call (.ok none) hstart
  have hsave := Residual.call (.ok false) hread
  exact ⟨hsave, _, rfl⟩

/-- The second execution returns what the first one has committed. -/
theorem racing_executions_agree :
    ∃ (e : Event jobSignature JobException World (Fin 3)) (rest : Proc Unit)
      (value : Json),
      Enabled (expiringMachine sampleStore) Anything raced e rest ∧ e.actor = 2 ∧
      rest = (Program.ret value : Proc Json).attempt >>= (fun _ => .ret ()) ∧
      value.Same (.number "1") := by
  have hcommitted : sampleStore.getCheckpoint 1 "site" raced.state.redis =
      some (.number "1") := rfl
  have hen : Enabled (expiringMachine sampleStore) Anything raced
      ⟨2, .getCheckpoint 1 "site", .ok (some (.number "1")), raced.state, raced.state⟩
      (.ret ()) :=
    ⟨⟨_, rfl, rfl⟩, rfl, ⟨quiet, rfl⟩, trivial⟩
  refine ⟨_, _, .number "1", hen, rfl, rfl, ?_⟩
  exact (checkpoints_agree racingPool raced_run 1 "site").2.1 sampleCheckpoints
    (return .number "2") _ _ _ _ _ hen raced_inside rfl hcommitted (by rintro ⟨⟩)

/-- An operation with a cost. -/
def paidOperation : Proc Json := do
  call (.recordCost 1)
  return .number "5"

def nullPool : Fin 3 → Proc Unit
  | 0 => do let _ ← call (.registerJob sampleRegistration)
  | 1 => checkpointing (return .null)
  | 2 => checkpointing paidOperation

/-- The ledger answers. -/
def paying : JobAnswer := .proceed fun op =>
  match op with
  | .recordCost _ => .ok ()
  | _ => .error .unexpected

/-- The first execution commits its null. -/
def nullMoves : List (Move (expiringMachine sampleStore) (Fin 3)) :=
  [.act 0 quiet, .act 1 quiet, .act 1 quiet]

/-- Then the second one looks for it, runs its operation and fails to save. -/
def rerunMoves : List (Move (expiringMachine sampleStore) (Fin 3)) :=
  [.act 2 quiet, .act 2 paying, .act 2 quiet]

theorem null_played :
    (play (fun _ _ => true) nullMoves (start World.initial nullPool)).isSome =
      true := by
  decide

def nullCommitted : Config jobSignature JobException World (Fin 3) :=
  (play (fun _ _ => true) nullMoves (start World.initial nullPool)).get null_played

theorem rerun_played :
    (play (fun _ _ => true) rerunMoves nullCommitted).isSome = true := by
  decide

def rerun : Config jobSignature JobException World (Fin 3) :=
  (play (fun _ _ => true) rerunMoves nullCommitted).get rerun_played

/-- What is left of the second execution once its save has failed. -/
def readNullBack : Proc Json := do
  let persisted ← JobCheckpoints.get 1 "site"
  if persisted.isNull then return .number "5" else return persisted

theorem rerun_inside :
    Inside rerun 2 (sampleCheckpoints.runOnce 1 "site" paidOperation) readNullBack := by
  have hstart : Residual (sampleCheckpoints.runOnce 1 "site" paidOperation)
      (sampleCheckpoints.runOnce 1 "site" paidOperation) := .start
  have hread := Residual.call (.ok (some .null)) hstart
  have hpaid := Residual.call (.ok ()) hread
  have hsave := Residual.call (.ok false) hpaid
  exact ⟨hsave, _, rfl⟩

/-- A `run_once` that begins after a null was committed pays for its operation
again and returns another value. -/
theorem committed_null_is_rerun :
    Run (expiringMachine sampleStore) Anything (start World.initial nullPool)
        nullCommitted ∧
      sampleStore.getCheckpoint 1 "site" nullCommitted.state.redis = some .null ∧
      nullCommitted.pool 2 =
        (sampleCheckpoints.runOnce 1 "site" paidOperation).attempt >>=
          (fun _ => .ret ()) ∧
      Run (expiringMachine sampleStore) Anything nullCommitted rerun ∧
      (∃ e ∈ rerun.history, e.actor = 2 ∧ e.op = .recordCost 1) ∧
      ∃ (e : Event jobSignature JobException World (Fin 3)) (rest : Proc Unit)
        (next : Except JobException e.op.Value → Proc Json),
        Enabled (expiringMachine sampleStore) Anything rerun e rest ∧
        Inside rerun e.actor (sampleCheckpoints.runOnce 1 "site" paidOperation)
          (.call e.op next) ∧
        next e.result = .ret (.number "5") ∧
        sampleStore.getCheckpoint 1 "site" e.after.redis = some .null ∧
        ¬ (Json.number "5").Same .null := by
  have hfirst : Run (expiringMachine sampleStore) Anything
      (start World.initial nullPool) nullCommitted :=
    play_run (fun _ _ _ => trivial) (Option.some_get null_played).symm
  have hsecond : Run (expiringMachine sampleStore) Anything nullCommitted rerun :=
    play_run (fun _ _ _ => trivial) (Option.some_get rerun_played).symm
  have hen : Enabled (expiringMachine sampleStore) Anything rerun
      ⟨2, .getCheckpoint 1 "site", .ok (some .null), rerun.state, rerun.state⟩
      (.ret ()) :=
    ⟨⟨_, rfl, rfl⟩, rfl, ⟨quiet, rfl⟩, trivial⟩
  refine ⟨hfirst, rfl, rfl, hsecond, ⟨_, .tail _ (.head _), rfl, rfl⟩, _, _, _, hen,
    rerun_inside, rfl, rfl, ?_⟩
  intro hsame
  rw [Json.Same, Json.canonical, Json.canonical] at hsame
  cases hsame

end Sample

end SearchTrust.Jobs
