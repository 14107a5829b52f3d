/-
The outbox of cost summaries.  A sync reads the summary of a job, sends it to the
database and deletes the key without another look at it; an enqueue overwrites
the key at any time.
-/
import Mathlib.Data.Sum.Order
import Mathlib.Data.String.Basic
import SearchTrust.Interleave.Rely
import SearchTrust.Redis.Keyspace
import SearchTrust.Costs.Counters

namespace SearchTrust.Costs

open SearchTrust.Jobs SearchTrust.Redis SearchTrust.Interleave
open SearchTrust.Interleave.Program

/-- `CostJobKind`. -/
inductive CostJobKind where
  | competitorDiscovery
  | prospectReport
  | verifiedReport
  | gscSync
  | ga4Sync
  | gbpSync
deriving DecidableEq, Repr

/-- `CostJobStatus`. -/
inductive CostJobStatus where
  | succeeded
  | failed
deriving DecidableEq, Repr

/-- `CostSummaryRecord`. -/
structure CostSummaryRecord where
  jobId : UUID
  caseId : UUID
  jobKind : CostJobKind
  status : CostJobStatus
  attemptCount : Int
  ledgerRevision : Int
  costCounters : CostCounters
  startedAt : Instant
  completedAt : Instant
  attemptCount_range : 0 ≤ attemptCount ∧ attemptCount ≤ 100
  ledgerRevision_pos : 1 ≤ ledgerRevision
  costCounters_valid : costCounters ≠ [] ∧ ValidCostCounters costCounters
  completedAt_ge : startedAt ≤ completedAt
  revision_eq : costCounters.lookup "cost_ledger_revision" = some ledgerRevision

/-- The value of a summary key: the JSON text of a record, or another text. -/
inductive StoredSummary where
  | json (summary : CostSummaryRecord)
  | unreadable

/-- A member of the pending set: the text of a job identifier, or another text. -/
abbrev PendingMember := UUID ⊕ₗ String

/-- The keys of the outbox, and the summaries that the database has stored. -/
structure OutboxWorld where
  summaries : UUID → Option StoredSummary
  pending : SortedSet PendingMember Instant
  persisted : List CostSummaryRecord

namespace OutboxWorld

def initial : OutboxWorld := ⟨fun _ => none, SortedSet.empty, []⟩

/-- The transaction of `enqueue`. -/
def enqueue (w : OutboxWorld) (summary : CostSummaryRecord) : OutboxWorld :=
  { w with
    summaries := Function.update w.summaries summary.jobId (some (.json summary))
    pending := w.pending.zadd (Sum.inlₗ summary.jobId) summary.completedAt }

/-- The last transaction of `sync`. -/
def acknowledge (w : OutboxWorld) (job : UUID) : OutboxWorld :=
  { w with
    summaries := Function.update w.summaries job none
    pending := w.pending.zrem (Sum.inlₗ job) }

def persist (w : OutboxWorld) (summary : CostSummaryRecord) : OutboxWorld :=
  { w with persisted := summary :: w.persisted }

end OutboxWorld

/-- The commands of the outbox and the request of its persister. -/
inductive OutboxOp where
  | enqueue (summary : CostSummaryRecord)
  | get (job : UUID)
  | zrem (member : PendingMember)
  | persist (summary : CostSummaryRecord)
  | acknowledge (job : UUID)
  | zrange (limit : Nat)

abbrev OutboxOp.Value : OutboxOp → Type
  | enqueue _ => Unit
  | get _ => Option StoredSummary
  | zrem _ => Unit
  | persist _ => Bool
  | acknowledge _ => Unit
  | zrange _ => List PendingMember

abbrev outboxCommands : Signature := ⟨OutboxOp, OutboxOp.Value⟩

/-- A command is served or does not arrive; the persister may also lose the
answer to a request that the database carried out. -/
inductive OutboxReply where
  | served
  | unreachable
  | unanswered

def OutboxOp.exec : OutboxReply → (op : OutboxOp) → OutboxWorld →
    Option (Except JobException op.Value × OutboxWorld)
  | .served, .enqueue summary, w => some (.ok (), w.enqueue summary)
  | .served, .get job, w => some (.ok (w.summaries job), w)
  | .served, .zrem member, w =>
      some (.ok (), { w with pending := w.pending.zrem member })
  | .served, .persist summary, w => some (.ok true, w.persist summary)
  | .served, .acknowledge job, w => some (.ok (), w.acknowledge job)
  | .served, .zrange limit, w =>
      some (.ok ((w.pending.zrange limit).map Prod.fst), w)
  | .unreachable, .persist _, w => some (.ok false, w)
  | .unreachable, _, w => some (.error .unexpected, w)
  | .unanswered, .persist summary, w => some (.ok false, w.persist summary)
  | .unanswered, _, _ => none

def outboxMachine : Machine outboxCommands JobException OutboxWorld where
  Answer := OutboxReply
  exec := OutboxOp.exec
  Drift := Empty
  drift := fun choice _ => choice.elim

section Programs

def outboxCommand (op : OutboxOp) : Program outboxCommands JobException op.Value :=
  perform (S := outboxCommands) op

/-- `sync`. -/
def sync (job : UUID) : Program outboxCommands JobException Bool := do
  match ← outboxCommand (.get job) with
  | none =>
      let _ ← outboxCommand (.zrem (Sum.inlₗ job))
      return true
  | some .unreadable => return false
  | some (.json summary) =>
      if summary.jobId ≠ job then return false
      else
        let stored ← outboxCommand (.persist summary)
        if stored then
          let _ ← outboxCommand (.acknowledge job)
          return true
        else return false

/-- The loop of `flush`. -/
def syncEach : List PendingMember → Int → Program outboxCommands JobException Int
  | [], synced => return synced
  | member :: rest, synced =>
      match ofLex member with
      | .inr _ => do
          let _ ← outboxCommand (.zrem member)
          syncEach rest synced
      | .inl job => do
          let done ← sync job
          syncEach rest (if done then synced + 1 else synced)

/-- `flush`. -/
def flush (limit : Nat) : Program outboxCommands JobException Int :=
  if ¬ (1 ≤ limit ∧ limit ≤ 500) then raise .invalidValue
  else do
    let members ← outboxCommand (.zrange limit)
    syncEach members 0

/-- The calls of the outbox. -/
inductive OutboxCall where
  | enqueue (summary : CostSummaryRecord)
  | sync (job : UUID)
  | flush (limit : Nat)

abbrev OutboxCall.Value : OutboxCall → Type
  | enqueue _ => Unit
  | sync _ => Bool
  | flush _ => Int

abbrev outboxCalls : Signature := ⟨OutboxCall, OutboxCall.Value⟩

def OutboxCall.serve : (call : OutboxCall) →
    Program outboxCommands JobException call.Value
  | enqueue summary => outboxCommand (.enqueue summary)
  | sync job => Costs.sync job
  | flush limit => Costs.flush limit

variable {ι : Type}

/-- Workers that make outbox calls. -/
def outboxPool (workers : ι → Program outboxCalls JobException Unit) (i : ι) :
    Program outboxCommands JobException Unit :=
  (workers i).interpret OutboxCall.serve

end Programs

section History

variable {ι : Type}

abbrev OutboxEvent (ι : Type) := Event outboxCommands JobException OutboxWorld ι

/-- The summary of the job that a call puts into the outbox. -/
def enqueues (job : UUID) : OutboxEvent ι → Option CostSummaryRecord
  | ⟨_, .enqueue summary, .ok _, _, _⟩ =>
      if summary.jobId = job then some summary else none
  | _ => none

/-- The call deletes the summary of the job. -/
def deletes (job : UUID) : OutboxEvent ι → Bool
  | ⟨_, .acknowledge j, .ok _, _, _⟩ => j = job
  | _ => false

/-- What a call reads as the summary of the job. -/
def reads (job : UUID) : OutboxEvent ι → Option (Option StoredSummary)
  | ⟨_, .get j, .ok raw, _, _⟩ => if j = job then some raw else none
  | _ => none

/-- The latest summary of the job that was enqueued. -/
def lastEnqueued (history : List (OutboxEvent ι)) (job : UUID) :
    Option CostSummaryRecord :=
  history.findSome? (enqueues job)

/-- What a history leaves in the outbox. -/
def leftInOutbox (job : UUID) : List (OutboxEvent ι) → Option CostSummaryRecord
  | [] => none
  | e :: rest =>
      match enqueues job e with
      | some summary => some summary
      | none => if deletes job e then none else leftInOutbox job rest

variable [DecidableEq ι]

/-- What process `i` read last as the summary of the job. -/
def lastRead (history : List (OutboxEvent ι)) (i : ι) (job : UUID) :
    Option (Option StoredSummary) :=
  (ownCalls history i).findSome? (reads job)

/-- The calls since process `i` last read the summary of the job, or since the
summary was last deleted. -/
def sinceRead (history : List (OutboxEvent ι)) (i : ι) (job : UUID) :
    List (OutboxEvent ι) :=
  history.takeWhile fun e =>
    !(decide (e.actor = i) && (reads job e).isSome) && !deletes job e

/-- A sync deletes the summary of a job only when no other summary of the job
was enqueued since it read the one that it has persisted. -/
def UndisturbedSync : CallCondition outboxCommands JobException OutboxWorld ι :=
  fun c e => ∀ job summary, e.op = .acknowledge job →
    lastRead c.history e.actor job = some (some (.json summary)) →
    ∀ x ∈ sinceRead c.history e.actor job, ∀ other,
      enqueues job x = some other → other = summary

/-- Every read of the history saw what the calls before it had left. -/
def ReadsMatch : List (OutboxEvent ι) → Prop
  | [] => True
  | e :: rest =>
      (∀ job raw, reads job e = some raw →
        raw = (leftInOutbox job rest).map StoredSummary.json) ∧ ReadsMatch rest

/-- When no other summary was enqueued since the read, the outbox holds nothing
or the summary that was read. -/
theorem leftInOutbox_of_lastRead {i : ι} {job : UUID} {summary : CostSummaryRecord}
    {history : List (OutboxEvent ι)} (hreads : ReadsMatch history)
    (hread : lastRead history i job = some (some (.json summary)))
    (hwindow : ∀ x ∈ sinceRead history i job, ∀ other,
      enqueues job x = some other → other = summary) :
    leftInOutbox job history = none ∨ leftInOutbox job history = some summary := by
  induction history with
  | nil => cases hread
  | cons e rest ih =>
      by_cases hdelete : deletes job e = true
      · left
        have hnone : enqueues job e = none := by
          obtain ⟨actor, op, result, before, after⟩ := e
          cases op with
          | acknowledge j => rfl
          | _ => cases hdelete
        simp [leftInOutbox, hnone, hdelete]
      by_cases hown : e.actor = i ∧ (reads job e).isSome = true
      · -- the read itself: what it returned is what the calls before it left
        obtain ⟨rfl, hsome⟩ := hown
        obtain ⟨raw, hraw⟩ := Option.isSome_iff_exists.1 hsome
        have hlast : raw = some (.json summary) := by
          simpa [lastRead, List.findSome?_cons, hraw] using hread
        have hnone : enqueues job e = none := by
          obtain ⟨actor, op, result, before, after⟩ := e
          cases op with
          | get j => rfl
          | _ => cases hsome
        have hmatch := hreads.1 job raw hraw
        rw [hlast] at hmatch
        right
        cases hleft : leftInOutbox job rest with
        | none => simp [hleft] at hmatch
        | some left =>
            simp only [hleft, Option.map_some, Option.some.injEq,
              StoredSummary.json.injEq] at hmatch
            simp [leftInOutbox, hnone, hdelete, hleft, hmatch]
      · have hpass : (!(decide (e.actor = i) && (reads job e).isSome) &&
            !deletes job e) = true := by
          simp only [Bool.and_eq_true, Bool.not_eq_true', Bool.and_eq_false_iff,
            decide_eq_false_iff_not]
          refine ⟨?_, by simpa using hdelete⟩
          by_cases hactor : e.actor = i
          · exact Or.inr (by simpa using fun h => hown ⟨hactor, h⟩)
          · exact Or.inl hactor
        have hsince : sinceRead (e :: rest) i job = e :: sinceRead rest i job := by
          simp only [sinceRead, List.takeWhile_cons, hpass, ↓reduceIte]
        have hread' : lastRead rest i job = some (some (.json summary)) := by
          by_cases hactor : e.actor = i
          · have hnone : reads job e = none := by
              simpa using fun h => hown ⟨hactor, h⟩
            subst hactor
            simpa [lastRead, List.findSome?_cons, hnone] using hread
          · rwa [lastRead, ownCalls_cons_of_ne hactor] at hread
        cases henqueue : enqueues job e with
        | some other =>
            right
            have hother := hwindow e (by rw [hsince]; exact List.mem_cons_self) other
              henqueue
            simp [leftInOutbox, henqueue, hother]
        | none =>
            have hrest := ih hreads.2 hread' fun x hx => hwindow x (by
              rw [hsince]
              exact List.mem_cons_of_mem e hx)
            simpa [leftInOutbox, henqueue, hdelete] using hrest

end History

section Soundness

variable {ι : Type} [DecidableEq ι]
  {workers : ι → Program outboxCalls JobException Unit}
  {c : Config outboxCommands JobException OutboxWorld ι}

/-- The keys agree with the history, and the latest summary of every job is in
the outbox or in the database. -/
structure OutboxKept (c : Config outboxCommands JobException OutboxWorld ι) : Prop where
  summaries : ∀ job, c.state.summaries job =
    (leftInOutbox job c.history).map StoredSummary.json
  reads : ReadsMatch c.history
  latest : ∀ job summary, lastEnqueued c.history job = some summary →
    leftInOutbox job c.history = some summary ∨ summary ∈ c.state.persisted

/-- A summary is deleted only by a sync that has persisted the one it read. -/
def outboxDiscipline : Discipline outboxCommands JobException OutboxWorld ι where
  inv := OutboxKept
  cond := UndisturbedSync
  goal := fun c e => ∀ job, e.op = .acknowledge job →
    ∃ summary, lastRead c.history e.actor job = some (some (.json summary)) ∧
      summary ∈ c.state.persisted

/-- A call that neither enqueues nor deletes keeps the agreement. -/
theorem OutboxKept.of_quiet {e : OutboxEvent ι}
    {rest : Program outboxCommands JobException Unit} (hinv : OutboxKept c)
    (henqueues : ∀ job, enqueues job e = none) (hdeletes : ∀ job, deletes job e = false)
    (hsame : e.after.summaries = c.state.summaries)
    (hpersisted : ∀ summary ∈ c.state.persisted, summary ∈ e.after.persisted)
    (hreads : ∀ job raw, Costs.reads job e = some raw → raw = c.state.summaries job) :
    OutboxKept (c.perform e rest) where
  summaries := by
    intro job
    simp only [Config.perform_state, Config.perform_history, hsame, leftInOutbox,
      henqueues, hdeletes]
    exact hinv.summaries job
  reads := by
    refine ⟨fun job raw hraw => ?_, hinv.reads⟩
    rw [hreads job raw hraw]
    exact hinv.summaries job
  latest := by
    intro job summary hlast
    simp only [Config.perform_history, lastEnqueued, List.findSome?_cons,
      henqueues] at hlast
    simp only [Config.perform_state, Config.perform_history, leftInOutbox, henqueues,
      hdeletes]
    exact (hinv.latest job summary hlast).imp id (hpersisted summary)

theorem OutboxKept.of_enqueue {e : OutboxEvent ι}
    {rest : Program outboxCommands JobException Unit} {summary : CostSummaryRecord}
    (hinv : OutboxKept c) (hop : ∀ job, enqueues job e =
      if summary.jobId = job then some summary else none)
    (hdeletes : ∀ job, deletes job e = false) (hreads : ∀ job, Costs.reads job e = none)
    (hafter : e.after = c.state.enqueue summary) : OutboxKept (c.perform e rest) where
  summaries := by
    intro job
    simp only [Config.perform_state, Config.perform_history, hafter, leftInOutbox, hop,
      OutboxWorld.enqueue]
    by_cases hjob : summary.jobId = job
    · subst hjob
      simp
    · rw [if_neg hjob, Function.update_of_ne (Ne.symm hjob)]
      simpa [hdeletes] using hinv.summaries job
  reads := by
    refine ⟨fun job raw hraw => ?_, hinv.reads⟩
    rw [hreads job] at hraw
    cases hraw
  latest := by
    intro job other hlast
    simp only [Config.perform_history, lastEnqueued, List.findSome?_cons, hop] at hlast
    simp only [Config.perform_state, Config.perform_history, hafter, leftInOutbox, hop,
      OutboxWorld.enqueue]
    by_cases hjob : summary.jobId = job
    · rw [if_pos hjob] at hlast ⊢
      exact Or.inl hlast
    · rw [if_neg hjob] at hlast ⊢
      simpa [hdeletes] using hinv.latest job other hlast

/-- The deletion of a summary that was persisted, with nothing newer behind it. -/
theorem OutboxKept.of_delete {e : OutboxEvent ι}
    {rest : Program outboxCommands JobException Unit} {job : UUID}
    (hinv : OutboxKept c) (henqueues : ∀ j, enqueues j e = none)
    (hop : ∀ j, deletes j e = decide (job = j)) (hreads : ∀ j, Costs.reads j e = none)
    (hafter : e.after = c.state.acknowledge job)
    (hleft : ∀ summary, leftInOutbox job c.history = some summary →
      summary ∈ c.state.persisted) : OutboxKept (c.perform e rest) where
  summaries := by
    intro j
    simp only [Config.perform_state, Config.perform_history, hafter, leftInOutbox,
      henqueues, hop, OutboxWorld.acknowledge]
    by_cases hj : job = j
    · subst hj
      simp
    · rw [Function.update_of_ne (Ne.symm hj)]
      simpa [hj] using hinv.summaries j
  reads := by
    refine ⟨fun j raw hraw => ?_, hinv.reads⟩
    rw [hreads j] at hraw
    cases hraw
  latest := by
    intro j summary hlast
    simp only [Config.perform_history, lastEnqueued, List.findSome?_cons,
      henqueues] at hlast
    simp only [Config.perform_state, Config.perform_history, hafter, leftInOutbox,
      henqueues, hop, OutboxWorld.acknowledge]
    by_cases hj : job = j
    · subst hj
      right
      rcases hinv.latest job summary hlast with hkept | hpersisted
      · exact hleft summary hkept
      · exact hpersisted
    · simpa [hj] using hinv.latest j summary hlast

theorem outboxDiscipline_kept : (outboxDiscipline (ι := ι)).Kept outboxMachine where
  act := by
    rintro c ⟨actor, op, result, before, after⟩ rest hinv ⟨_, hbefore, ⟨answer, h⟩, hcond⟩
      hgoal
    have h : OutboxOp.exec answer op c.state = some (result, after) := h
    have hinv : OutboxKept c := hinv
    show OutboxKept (c.perform ⟨actor, op, result, before, after⟩ rest)
    have hkeep : ∀ summary ∈ c.state.persisted, summary ∈ c.state.persisted :=
      fun _ hmem => hmem
    cases op with
    | enqueue summary =>
        cases answer with
        | served =>
            obtain ⟨rfl, rfl⟩ := Prod.mk.inj (Option.some.inj h)
            exact hinv.of_enqueue (fun _ => rfl) (fun _ => rfl) (fun _ => rfl) rfl
        | unreachable =>
            obtain ⟨rfl, rfl⟩ := Prod.mk.inj (Option.some.inj h)
            exact hinv.of_quiet (fun _ => rfl) (fun _ => rfl) rfl hkeep
              fun _ _ hread => by cases hread
        | unanswered => cases h
    | get job =>
        cases answer with
        | served =>
            obtain ⟨rfl, rfl⟩ := Prod.mk.inj (Option.some.inj h)
            refine hinv.of_quiet (fun _ => rfl) (fun _ => rfl) rfl hkeep ?_
            intro j raw hraw
            simp only [reads] at hraw
            split at hraw
            next hj =>
              subst hj
              exact (Option.some.inj hraw).symm
            next => cases hraw
        | unreachable =>
            obtain ⟨rfl, rfl⟩ := Prod.mk.inj (Option.some.inj h)
            exact hinv.of_quiet (fun _ => rfl) (fun _ => rfl) rfl hkeep
              fun _ _ hread => by cases hread
        | unanswered => cases h
    | zrem member =>
        cases answer with
        | unanswered => cases h
        | _ =>
            obtain ⟨rfl, rfl⟩ := Prod.mk.inj (Option.some.inj h)
            exact hinv.of_quiet (fun _ => rfl) (fun _ => rfl) rfl hkeep
              fun _ _ hread => by cases hread
    | persist summary =>
        cases answer with
        | unreachable =>
            obtain ⟨rfl, rfl⟩ := Prod.mk.inj (Option.some.inj h)
            exact hinv.of_quiet (fun _ => rfl) (fun _ => rfl) rfl hkeep
              fun _ _ hread => by cases hread
        | _ =>
            obtain ⟨rfl, rfl⟩ := Prod.mk.inj (Option.some.inj h)
            exact hinv.of_quiet (fun _ => rfl) (fun _ => rfl) rfl
              (fun _ hmem => List.mem_cons_of_mem _ hmem)
              fun _ _ hread => by cases hread
    | acknowledge job =>
        cases answer with
        | served =>
            obtain ⟨rfl, rfl⟩ := Prod.mk.inj (Option.some.inj h)
            obtain ⟨summary, hread, hpersisted⟩ := hgoal job rfl
            have hleft := leftInOutbox_of_lastRead hinv.reads hread
              (hcond job summary rfl hread)
            refine hinv.of_delete (fun _ => rfl) (fun _ => rfl) (fun _ => rfl) rfl ?_
            intro other hother
            rcases hleft with hnone | hsame
            · rw [hnone] at hother
              cases hother
            · rw [hsame] at hother
              obtain rfl := Option.some.inj hother
              exact hpersisted
        | unreachable =>
            obtain ⟨rfl, rfl⟩ := Prod.mk.inj (Option.some.inj h)
            exact hinv.of_quiet (fun _ => rfl) (fun _ => rfl) rfl hkeep
              fun _ _ hread => by cases hread
        | unanswered => cases h
    | zrange limit =>
        cases answer with
        | unanswered => cases h
        | _ =>
            obtain ⟨rfl, rfl⟩ := Prod.mk.inj (Option.some.inj h)
            exact hinv.of_quiet (fun _ => rfl) (fun _ => rfl) rfl hkeep
              fun _ _ hread => by cases hread
  drift := by
    rintro c after _ ⟨choice, _⟩
    exact choice.elim
  crash := fun _ hinv => ⟨hinv.summaries, hinv.reads, hinv.latest⟩

/-- The database forgets nothing. -/
theorem performs_persisted {op : OutboxOp} {w after : OutboxWorld}
    {result : Except JobException op.Value}
    (h : outboxMachine.Performs op w result after) {summary : CostSummaryRecord}
    (hmem : summary ∈ w.persisted) : summary ∈ after.persisted := by
  obtain ⟨answer, h⟩ := h
  have h : OutboxOp.exec answer op w = some (result, after) := h
  cases answer with
  | served =>
      cases op with
      | persist stored =>
          obtain ⟨_, rfl⟩ := Prod.mk.inj (Option.some.inj h)
          exact List.mem_cons_of_mem _ hmem
      | _ =>
          obtain ⟨_, rfl⟩ := Prod.mk.inj (Option.some.inj h)
          exact hmem
  | unreachable =>
      cases op <;>
        · obtain ⟨_, rfl⟩ := Prod.mk.inj (Option.some.inj h)
          exact hmem
  | unanswered =>
      cases op with
      | persist stored =>
          obtain ⟨_, rfl⟩ := Prod.mk.inj (Option.some.inj h)
          exact List.mem_cons_of_mem _ hmem
      | _ => cases h

theorem persisted_persistent (summary : CostSummaryRecord) :
    Persistent outboxMachine (outboxDiscipline (ι := ι))
      fun c => summary ∈ c.state.persisted :=
  Persistent.of_state (P := fun w : OutboxWorld => summary ∈ w.persisted)
    (fun _ hmem h => performs_persisted h hmem)
    fun _ _ h => h.elim fun choice _ => choice.elim

/-- The latest own read of the summary stays the same while others act. -/
theorem lastRead_stable (i : ι) (job : UUID) (raw : Option StoredSummary) :
    Stable outboxMachine (outboxDiscipline (ι := ι)) i
      fun c => lastRead c.history i job = some raw :=
  Stable.of_ownCalls fun own => own.findSome? (reads job) = some raw

variable {i : ι} {A : Config outboxCommands JobException OutboxWorld ι → Prop}

/-- A command that deletes nothing, when nothing has to be known afterwards. -/
theorem safe_outboxCommand {op : OutboxOp} (hop : ∀ job, op ≠ .acknowledge job) :
    Safe outboxMachine outboxDiscipline i (outboxCommand op) A fun _ _ => True :=
  Safe.of_calls (P := fun call : OutboxOp => ∀ job, call ≠ .acknowledge job)
    (onlyCalls_perform hop) fun _ _ _ _ hcall _ _ _ job hsame => (hcall job hsame).elim

theorem safe_get (job : UUID) :
    Safe outboxMachine outboxDiscipline i (outboxCommand (.get job)) A
      (Outcome (fun raw c => lastRead c.history i job = some raw) fun _ _ => True) := by
  refine Safe.perform fun c result after _ _ _ _ => ⟨nofun, ?_⟩
  cases result with
  | ok raw =>
      refine ⟨_, lastRead_stable i job raw, fun rest _ => ?_, fun _ _ h => h⟩
      simp [lastRead, ownCalls, reads]
  | error error =>
      exact ⟨_, Stable.const True, fun _ _ => trivial, fun _ _ _ => trivial⟩

theorem safe_persist (job : UUID) (summary : CostSummaryRecord) :
    Safe outboxMachine outboxDiscipline i (outboxCommand (.persist summary))
      (fun c => lastRead c.history i job = some (some (.json summary)))
      (Outcome (fun stored c => stored = true →
        lastRead c.history i job = some (some (.json summary)) ∧
          summary ∈ c.state.persisted) fun _ _ => True) := by
  refine Safe.perform fun c result after _ hread hstep _ => ⟨nofun, ?_⟩
  obtain ⟨answer, h⟩ := hstep
  have h : OutboxOp.exec answer (.persist summary) c.state = some (result, after) := h
  cases answer with
  | served =>
      obtain ⟨rfl, rfl⟩ := Prod.mk.inj (Option.some.inj h)
      refine ⟨_, (lastRead_stable i job _).and
        ((persisted_persistent summary).stable i), fun rest _ => ⟨?_, ?_⟩,
        fun _ _ h _ => h⟩
      · simpa [lastRead, ownCalls, List.findSome?_cons, reads] using hread
      · exact List.mem_cons_self
  | unreachable =>
      obtain ⟨rfl, rfl⟩ := Prod.mk.inj (Option.some.inj h)
      exact ⟨_, Stable.const True, fun _ _ => trivial, by rintro _ _ _ ⟨⟩⟩
  | unanswered =>
      obtain ⟨rfl, rfl⟩ := Prod.mk.inj (Option.some.inj h)
      exact ⟨_, Stable.const True, fun _ _ => trivial, by rintro _ _ _ ⟨⟩⟩

/-- A sync deletes only after it has persisted what it read. -/
theorem safe_sync (job : UUID) :
    Safe outboxMachine outboxDiscipline i (sync job) A fun _ _ => True := by
  refine Safe.bind (safe_get job) fun raw => ?_
  split
  next =>
    refine (safe_outboxCommand fun _ => OutboxOp.noConfusion).andThen fun _ => Safe.done
  next => exact Safe.done
  next summary =>
    split
    next => exact Safe.done
    next =>
      refine Safe.bind (safe_persist job summary) fun stored => ?_
      cases stored with
      | false => exact Safe.done
      | true =>
          refine Safe.andThen ?_ fun _ => Safe.done
          refine Safe.perform_post (B := fun _ _ => True) (fun _ => Stable.const True) ?_
          intro c result after _ hA _ _
          refine ⟨?_, fun _ _ => trivial⟩
          rintro j ⟨⟩
          exact ⟨summary, hA rfl⟩

theorem safe_syncEach (members : List PendingMember) (synced : Int) :
    Safe outboxMachine outboxDiscipline i (syncEach members synced) A
      fun _ _ => True := by
  induction members generalizing synced A with
  | nil => exact Safe.done
  | cons member rest ih =>
      unfold syncEach
      split
      next => exact (safe_outboxCommand fun _ => OutboxOp.noConfusion).andThen fun _ => ih synced
      next job _ => exact (safe_sync job).andThen fun done => ih _

theorem safe_serveOutbox (call : OutboxCall) :
    Safe outboxMachine outboxDiscipline i call.serve A fun _ _ => True := by
  cases call with
  | enqueue summary => exact safe_outboxCommand fun _ => OutboxOp.noConfusion
  | sync job => exact safe_sync job
  | flush limit =>
      show Safe outboxMachine outboxDiscipline i (flush limit) A fun _ _ => True
      unfold flush
      split
      · exact Safe.raise fun _ _ _ => trivial
      · exact (safe_outboxCommand fun _ => OutboxOp.noConfusion).andThen fun members => safe_syncEach members 0

theorem outboxPool_safe (i : ι) :
    SafeAt outboxMachine outboxDiscipline
      (start OutboxWorld.initial (outboxPool workers)) i :=
  SafeAt.of_safe (A := fun _ => True) (Stable.const True) trivial
    (Safe.interpret (J := fun _ => True) (fun call => safe_serveOutbox call) _)

omit [DecidableEq ι] in
theorem outboxPool_start :
    OutboxKept (start OutboxWorld.initial (outboxPool workers)) where
  summaries := fun _ => rfl
  reads := trivial
  latest := nofun

end Soundness

section Samples

/-- The counters of a ledger at a revision on which nothing was charged. -/
def idleCounters (revision : Int) : Counters
  | .base .costSchemaVersion => 1
  | .base .costLedgerRevision => revision
  | _ => 0

theorem idleCounters_valid {revision : Int} (h : 1 ≤ revision ∧ revision ≤ 10) :
    ValidCostCounters (idleCounters revision).toDict := by
  refine (Counters.validCostCounters_toDict_iff rfl).2 fun key => ?_
  have hmax : maxCounterValue = 1000000000000000 := by decide
  unfold idleCounters
  split <;> omega

def sampleSummary (revision : Int) (h : 1 ≤ revision ∧ revision ≤ 10) :
    CostSummaryRecord where
  jobId := 1
  caseId := 2
  jobKind := .prospectReport
  status := .failed
  attemptCount := 1
  ledgerRevision := revision
  costCounters := (idleCounters revision).toDict
  startedAt := 0
  completedAt := revision
  attemptCount_range := by decide
  ledgerRevision_pos := h.1
  costCounters_valid := ⟨List.cons_ne_nil _ _, idleCounters_valid h⟩
  completedAt_ge := show (0 : Int) ≤ revision by omega
  revision_eq := (idleCounters revision).lookup_toDict (.base .costLedgerRevision)

/-- One worker enqueues a summary of the job and syncs it, another one enqueues a
newer summary. -/
def sampleWorkers (i : Nat) : Program outboxCalls JobException Unit :=
  if i = 0 then do
    let _ ← perform (S := outboxCalls) (.enqueue (sampleSummary 1 (by decide)))
    let _ ← perform (S := outboxCalls) (.sync 1)
    return ()
  else perform (S := outboxCalls) (.enqueue (sampleSummary 2 (by decide)))

/-- No summary of the job at all was enqueued since the read of a sync. -/
def quietSync (c : Config outboxCommands JobException OutboxWorld Nat)
    (e : OutboxEvent Nat) : Bool :=
  match e.op with
  | .acknowledge job =>
      (sinceRead c.history e.actor job).all fun x => (enqueues job x).isNone
  | _ => true

theorem undisturbedSync_of_quietSync
    {c : Config outboxCommands JobException OutboxWorld Nat}
    {e : OutboxEvent Nat} (h : quietSync c e = true) : UndisturbedSync c e := by
  intro job summary hop _ x hx other hother
  simp only [quietSync, hop, List.all_eq_true] at h
  have hnone := h x hx
  rw [hother] at hnone
  cases hnone

end Samples

end SearchTrust.Costs
