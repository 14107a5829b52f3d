/-
The marker of a takeover stays until its run is in the queue.  A reconciler reads
the state of a stale job and its marker in two steps; where no unfinished takeover
falls between the two, overlapping reconcilers never drop a live marker.
-/
import SearchTrust.Jobs.Indexes
import SearchTrust.Jobs.Reconciler

namespace SearchTrust.Jobs

open SearchTrust.Interleave SearchTrust.Redis

/-- The marker belongs to the live generation of a job that still has to run. -/
def LiveMarker (job : UUID) (generation : Int) (r : JobRedis) : Prop :=
  ∃ s, r.states.get job = some s ∧ s.terminal = false ∧
    s.runGeneration = generation ∧ r.recoveryPending.zscore job = some generation

namespace JobOp

/-- The operations that remove the marker of a job that has a state. -/
def removesMarker : JobOp → Bool
  | discardPendingRecovery _ _ => true
  | markRecoveryEnqueued _ _ _ => true
  | _ => false

/-- The physical run that a call has put in the queue, or found there. -/
def enqueued : (op : JobOp) → Except JobException op.Value → Option (UUID × Int)
  | enqueue job generation, .ok _ => some (job, generation)
  | _, _ => none

theorem removesMarker_of_readsOnly {op : JobOp} (h : op.readsOnly = true) :
    op.removesMarker = false := by
  cases op <;> first | rfl | cases h

end JobOp

section Changes

variable {store : DurableJobStore} {job : UUID} {op : JobOp} {v v' : JobView}
  {s : JobState}

/-- How a job can lose the marker of its live generation. -/
theorem JobChange.marker_cases (h : JobChange store job op v v')
    (hs : v.state = some s) (halive : s.terminal = false) {generation : Int}
    (hmarker : v.recoveryPending = some generation)
    (hlive : s.runGeneration = generation) :
    v'.recoveryPending = some generation ∨
    (∃ t, v'.state = some t ∧ t.terminal = true) ∨
    (∃ now, op = .markRecoveryEnqueued job generation now) ∨
    op = .discardPendingRecovery job generation := by
  cases h with
  | unchanged => exact Or.inl hmarker
  | registered _ _ _ _ habsent => simp [habsent] at hs
  | moved a current next _ _ hcurrent _ =>
      by_cases hterminal : next.terminal = true
      · exact Or.inr (Or.inl ⟨next, rfl, hterminal⟩)
      · refine Or.inl ?_
        simpa [hterminal] using hmarker
  | takenOver _ _ _ _ _ _ hnone => simp [hnone] at hmarker
  | reopened _ current _ _ hcurrent hstatus =>
      obtain rfl := Option.some.inj (hcurrent.symm.trans hs)
      simp [JobState.terminal, hstatus] at halive
  | synced => exact Or.inl hmarker
  | enqueued now current hop hcurrent _ =>
      obtain rfl := Option.some.inj (hcurrent.symm.trans hs)
      exact Or.inr (Or.inr (Or.inl ⟨now, hlive ▸ hop⟩))
  | discarded generation' hop hmarker' =>
      obtain rfl := Option.some.inj (hmarker'.symm.trans hmarker)
      exact Or.inr (Or.inr (Or.inr hop))
  | purged _ habsent => simp [habsent] at hs

end Changes

section Discipline

variable {ι : Type} [DecidableEq ι]

/-- When a reconciler reads the marker of a job right after its state, and there
is a marker, the job still runs the generation that the reconciler has read. -/
def MarkerReadsFresh : CallCondition jobSignature JobException World ι :=
  fun c e => ∀ job, e.op = .pendingRecoveryGeneration job →
    ∀ t, JustRead e.actor job t c →
    c.state.redis.recoveryPending.zscore job ≠ none →
    ∀ s, c.state.redis.states.get job = some s →
      s.runGeneration = t.runGeneration

/-- Process `i` has put a physical run in the queue. -/
def EnqueuedBy (i : ι) (job : UUID) (generation : Int)
    (c : Config jobSignature JobException World ι) : Prop :=
  ∃ e ∈ c.history, e.actor = i ∧
    JobOp.enqueued e.op e.result = some (job, generation)

/-- A call spares the live markers: it discards none of them, and it closes one
only after its own process has put the run in the queue. -/
def SparesMarkers : CallCondition jobSignature JobException World ι :=
  fun c e =>
    (∀ job generation, e.op = .discardPendingRecovery job generation →
      ¬ LiveMarker job generation c.state.redis) ∧
    ∀ job generation now, e.op = .markRecoveryEnqueued job generation now →
      EnqueuedBy e.actor job generation c

omit [DecidableEq ι] in
theorem sparesMarkers_of_not_removes
    {c : Config jobSignature JobException World ι}
    {e : Event jobSignature JobException World ι}
    (h : JobOp.removesMarker e.op = false) : SparesMarkers c e := by
  constructor
  · intro job generation hop
    rw [hop] at h
    cases h
  · intro job generation now hop
    rw [hop] at h
    cases h

variable (ι) in
def markerDiscipline : Discipline jobSignature JobException World ι where
  inv c := c.state.redis.StatesStored ∧
    ∀ job, (c.state.redis.view job).Indexed
  cond := MarkerReadsFresh
  goal := SparesMarkers

variable {store : DurableJobStore} {i : ι} {job : UUID} {generation : Int}

theorem markerDiscipline_kept :
    (markerDiscipline ι).Kept (durableMachine store) where
  act := by
    rintro c e rest ⟨hstored, hindexed⟩ hen _
    have hchange := performs_change hstored hen.performs
    exact ⟨fun j => (hchange j).stored (hstored.view j),
      fun j => (hchange j).indexed (hstored.view j) (hindexed j)⟩
  drift := by
    rintro c after ⟨hstored, hindexed⟩ hdrift
    refine ⟨fun j => ?_, fun j => ?_⟩
    · show (after.redis.view j).Stored
      rw [view_drifts hdrift j]
      exact hstored.view j
    · rw [Config.drifted_state, view_drifts hdrift j]
      exact hindexed j
  crash := fun _ h => h

/-- The job has reached a generation. -/
def World.AtLeast (w : World) (job : UUID) (generation : Int) : Prop :=
  ∃ s, w.redis.states.get job = some s ∧ generation ≤ s.runGeneration

theorem persistent_atLeast (job : UUID) (generation : Int) :
    Persistent (durableMachine store) (markerDiscipline ι)
      fun c => c.state.AtLeast job generation := by
  refine .of_state (P := fun w : World => w.AtLeast job generation) ?_ ?_
  · rintro c e ⟨hstored, _⟩ ⟨s, hs, hle⟩ hstep
    obtain ⟨t, ht, hlater⟩ :=
      (performs_change hstored hstep job).later (hstored.view job) s hs
    exact ⟨t, ht, hle.trans hlater.generation⟩
  · rintro c after _ ⟨s, hs, hle⟩ hdrift
    exact ⟨s, (congrArg JobView.state (view_drifts hdrift job)).trans hs, hle⟩

/-- A marker is the generation of its job at that moment. -/
theorem atLeast_of_marker {w : World} (hindexed : (w.redis.view job).Indexed)
    (hmarker : w.redis.recoveryPending.zscore job = some generation) :
    w.AtLeast job generation := by
  cases hs : w.redis.states.get job with
  | none =>
      have hnone := (hindexed.absent hs).2.2
      rw [show (w.redis.view job).recoveryPending = _ from hmarker] at hnone
      cases hnone
  | some s =>
      exact ⟨s, hs, ((hindexed.present s hs).recoveryPending generation
        hmarker).2.le⟩

/-- A program that removes no marker keeps to the discipline. -/
theorem safe_of_not_removes {α : Type} {p : Proc α}
    {A : Config jobSignature JobException World ι → Prop}
    (hp : p.OnlyCalls fun op : JobOp => op.removesMarker = false) :
    Safe (durableMachine store) (markerDiscipline ι) i p A fun _ _ => True := by
  refine ((Safe.of_onlyCalls (A := fun _ => True) hp (.const True) ?_).weaken
    fun _ _ _ _ => trivial).strengthen fun _ _ _ => trivial
  intro c op result after hop _ _ _ _
  exact ⟨sparesMarkers_of_not_removes hop, fun _ => trivial⟩

end Discipline

section Reconcilers

variable {ι : Type} [DecidableEq ι] {store : DurableJobStore} {i : ι}
  {cfg : Reconciliation} {job : UUID} {generation : Int}
  {A : Config jobSignature JobException World ι → Prop}

theorem markerDiscipline_stored (c : Config jobSignature JobException World ι)
    (h : (markerDiscipline ι).inv c) : c.state.redis.StatesStored := h.1

/-- A read of the state, with a fact that the reader already knows. -/
theorem safe_requireState_marker {P : JobState → Prop}
    (hread : ∀ c t, (markerDiscipline ι).inv c → A c →
      c.state.redis.states.get job = some t → P t) :
    Safe (durableMachine store) (markerDiscipline ι) i (requireState job) A
      (Outcome (fun t c => P t ∧ Seen job t c ∧ JustRead i job t c)
        fun _ _ => True) :=
  safe_requireState markerDiscipline_stored
    (fun _ _ _ _ => sparesMarkers_of_not_removes rfl) hread

/-- A generation that the job has passed, or reached and ended, is not live. -/
theorem not_liveMarker_of_hasReached {w : World} {t : JobState}
    (h : w.HasReached job t)
    (hpast : generation < t.runGeneration ∨
      (t.runGeneration = generation ∧ t.terminal = true)) :
    ¬ LiveMarker job generation w.redis := by
  rintro ⟨s, hs, halive, hgeneration, _⟩
  obtain ⟨s', hs', hlater⟩ := h
  obtain rfl := Option.some.inj (hs.symm.trans hs')
  have hle := hlater.generation
  rcases hpast with hlt | ⟨heq, hterminal⟩
  · omega
  · rcases hlater.terminal hterminal with hdead | hlt
    · simp [halive] at hdead
    · omega

/-- Discarding the marker of a past generation. -/
theorem safe_discard_past {t : JobState}
    (hpast : generation < t.runGeneration ∨
      (t.runGeneration = generation ∧ t.terminal = true)) :
    Safe (durableMachine store) (markerDiscipline ι) i
      (call (.discardPendingRecovery job generation))
      (fun c => c.state.HasReached job t) fun _ _ => True := by
  refine Safe.perform_post (fun _ => .const True) ?_
  rintro c result after _ hreached _ _
  refine ⟨⟨?_, ?_⟩, fun _ _ => trivial⟩
  · rintro j g ⟨⟩
    exact not_liveMarker_of_hasReached hreached hpast
  · rintro j g now ⟨⟩

theorem safe_failJob {state : JobState} (error : JobErrorState) :
    Safe (durableMachine store) (markerDiscipline ι) i
      (cfg.failJob job state error) A fun _ _ => True :=
  safe_of_not_removes (Reconciliation.onlyCalls_failJob
    (fun _ => JobOp.removesMarker_of_readsOnly) (fun _ => rfl) (fun _ => rfl)
    (fun _ _ _ _ _ => rfl))

/-- What is known once the queue has answered. -/
def EnqueuedWhen (i : ι) (job : UUID) (generation : Int) (enqueued : Bool)
    (c : Config jobSignature JobException World ι) : Prop :=
  enqueued = true → EnqueuedBy i job generation c

/-- What is known of the answer of the queue itself. -/
def QueueAnswered (i : ι) (job : UUID) (generation : Int) :
    Except JobException Bool → Config jobSignature JobException World ι → Prop
  | .ok _ => EnqueuedBy i job generation
  | .error _ => fun _ => True

theorem safe_enqueueRun :
    Safe (durableMachine store) (markerDiscipline ι) i
      (Reconciliation.enqueueRun job generation) A
      (Outcome (EnqueuedWhen i job generation) fun _ _ => True) := by
  refine Safe.handle (E := fun _ _ => True) ?_ fun e => ?_
  · refine Safe.bind (B := fun _ => EnqueuedBy i job generation) ?_ fun _ => ?_
    · refine (Safe.perform_post (B := QueueAnswered i job generation) ?_ ?_).weaken
        fun outcome c _ h => ?_
      · rintro (_ | _)
        · exact .const True
        · exact (Persistent.of_history _).stable i
      · rintro c (_ | _) after _ _ _ _
        · exact ⟨sparesMarkers_of_not_removes rfl, fun _ _ => trivial⟩
        · refine ⟨sparesMarkers_of_not_removes rfl, fun _ _ => ?_⟩
          exact ⟨_, List.mem_cons_self, rfl, rfl⟩
      · cases outcome with
        | ok value => exact h
        | error error => trivial
    · exact Safe.ret fun c _ h _ => h
  · by_cases he : e.isException = true
    · simp only [he, ↓reduceIte]
      exact Safe.ret (by rintro _ _ _ ⟨⟩)
    · simp only [he]
      exact Safe.raise fun _ _ _ => trivial

/-- Closing a marker after the own enqueue. -/
theorem safe_markEnqueued {now : Instant} :
    Safe (durableMachine store) (markerDiscipline ι) i
      (call (.markRecoveryEnqueued job generation now))
      (EnqueuedBy i job generation) fun _ _ => True := by
  refine Safe.perform_post (fun _ => .const True) ?_
  rintro c result after _ henqueued _ _
  refine ⟨⟨?_, ?_⟩, fun _ _ => trivial⟩
  · rintro j g ⟨⟩
  · rintro j g now' ⟨⟩
    exact henqueued

/-- A takeover is finished without dropping a live marker. -/
theorem safe_finishRecovery {state : JobState}
    (hle : generation ≤ state.runGeneration) :
    Safe (durableMachine store) (markerDiscipline ι) i
      (cfg.finishRecovery job generation state)
      (fun c => c.state.HasReached job state) fun _ _ => True := by
  unfold Reconciliation.finishRecovery
  split
  next hne =>
    have hpast : generation < state.runGeneration := by omega
    exact (safe_discard_past (Or.inl hpast)).andThen fun _ => Safe.done
  next heq =>
    split
    next hterminal =>
      exact (safe_discard_past (Or.inr ⟨not_not.1 heq, hterminal⟩)).andThen
        fun _ => Safe.done
    next =>
      split
      next =>
        refine (safe_of_not_removes ?_).andThen fun _ => safe_failJob _
        exact onlyCalls_call rfl
      next =>
        split
        next =>
          refine (safe_of_not_removes ?_).andThen fun delivered => ?_
          · exact Reconciliation.onlyCalls_deliverTakeover
              (fun _ => JobOp.removesMarker_of_readsOnly) (fun _ => rfl) state
          cases delivered with
          | false => exact Safe.done
          | true =>
              refine Safe.bind safe_enqueueRun fun enqueued => ?_
              cases enqueued with
              | false => exact Safe.done
              | true =>
                  refine (safe_markEnqueued.strengthen ?_).andThen fun _ => Safe.done
                  exact fun c _ h => h rfl
        next => exact Safe.done

/-- The recovery of a job whose marker has been seen. -/
theorem safe_finishPendingRecovery :
    Safe (durableMachine store) (markerDiscipline ι) i
      (cfg.finishPendingRecovery job generation)
      (fun c => c.state.AtLeast job generation) fun _ _ => True := by
  have hread : ∀ (c : Config jobSignature JobException World ι) t,
      (markerDiscipline ι).inv c → c.state.AtLeast job generation →
      c.state.redis.states.get job = some t → generation ≤ t.runGeneration := by
    rintro c t _ ⟨s, hs, hle⟩ ht
    obtain rfl := Option.some.inj (hs.symm.trans ht)
    exact hle
  refine Safe.bind (B := Outcome (fun t c => generation ≤ t.runGeneration ∧
    Seen job t c ∧ JustRead i job t c) fun _ _ => True)
    (Safe.attempt (safe_requireState_marker hread)) fun found => ?_
  rcases found with e | state
  · cases e with
    | jobNotFound =>
        refine (safe_of_not_removes ?_).andThen fun _ => Safe.done
        exact onlyCalls_call rfl
    | _ => exact Safe.raise fun _ _ _ => trivial
  · by_cases hle : generation ≤ state.runGeneration
    · exact (safe_finishRecovery hle).strengthen fun _ _ h => h.2.1.1
    · exact Safe.of_false fun _ _ h => hle h.1

/-- What a read of a marker has returned. -/
theorem performs_pendingRecoveryGeneration {w w' : World}
    {tick : JobRedis → Nat → JobRedis} {found : Option Int}
    (h : (jobMachine store tick).Performs (.pendingRecoveryGeneration job) w
      (.ok found) w') :
    w' = w ∧ ∀ generation, found = some generation →
      w.redis.recoveryPending.zscore job = some generation := by
  rcases performs_cases h with ⟨reply, hexec⟩ | ⟨_, hres, _⟩
  · obtain ⟨hfound, rfl⟩ := Prod.mk.inj (Option.some.inj hexec)
    refine ⟨rfl, fun generation hgeneration => ?_⟩
    rw [← Except.ok.inj hfound] at hgeneration
    exact (Option.filter_eq_some_iff.1 hgeneration).1
  · cases hres

/-- What is known of a marker that has been read. -/
def MarkerSeen (job : UUID) : Except JobException (Option Int) →
    Config jobSignature JobException World ι → Prop
  | .ok (some generation) => fun c => c.state.AtLeast job generation
  | _ => fun _ => True

theorem safe_readMarker :
    Safe (durableMachine store) (markerDiscipline ι) i
      (call (.pendingRecoveryGeneration job)) A (MarkerSeen job) := by
  refine Safe.perform_post ?_ ?_
  · rintro (_ | _ | generation)
    · exact .const True
    · exact .const True
    · exact (persistent_atLeast job generation).stable i
  · rintro c (_ | _ | generation) after ⟨_, hindexed⟩ _ hstep _
    · exact ⟨sparesMarkers_of_not_removes rfl, fun _ _ => trivial⟩
    · exact ⟨sparesMarkers_of_not_removes rfl, fun _ _ => trivial⟩
    · refine ⟨sparesMarkers_of_not_removes rfl, fun _ _ => ?_⟩
      obtain ⟨rfl, hmarker⟩ := performs_pendingRecoveryGeneration hstep
      exact atLeast_of_marker (hindexed job) (hmarker generation rfl)

/-- A marker that is read right after the state belongs to the generation of
that state: this is where the condition on the run is used. -/
theorem safe_readMarker_fresh {t : JobState} :
    Safe (durableMachine store) (markerDiscipline ι) i
      (call (.pendingRecoveryGeneration job))
      (fun c => Seen job t c ∧ JustRead i job t c)
      (Outcome (fun found _ => ∀ generation, found = some generation →
        generation = t.runGeneration) fun _ _ => True) := by
  refine Safe.perform_post ?_ ?_
  · rintro (_ | found)
    · exact .const True
    · exact .const _
  · rintro c (_ | found) after ⟨_, hindexed⟩ ⟨⟨⟨s, hs, _⟩, _⟩, hread⟩ hstep hfresh
    · exact ⟨sparesMarkers_of_not_removes rfl, fun _ _ => trivial⟩
    · refine ⟨sparesMarkers_of_not_removes rfl, fun _ _ generation hfound => ?_⟩
      have hmarker :=
        (performs_pendingRecoveryGeneration hstep).2 generation hfound
      have hsame : s.runGeneration = t.runGeneration := by
        refine hfresh job rfl t hread ?_ s hs
        simp [hmarker]
      have hlive := ((hindexed job).present s hs).recoveryPending generation hmarker
      exact hlive.2.trans hsame

/-- A takeover attempt and the barrier that follows it. -/
theorem safe_takeOver {state : JobState} :
    Safe (durableMachine store) (markerDiscipline ι) i (cfg.takeOver job state) A
      fun _ _ => True := by
  have hread : ∀ op : JobOp, op.readsOnly = true → op.removesMarker = false :=
    fun _ => JobOp.removesMarker_of_readsOnly
  refine (safe_of_not_removes (onlyCalls_call rfl)).andThen fun diagnosticId => ?_
  refine (safe_of_not_removes (onlyCalls_capabilityTerminalTransition hread
    (fun _ => rfl) (fun _ _ => rfl) _ _ _ _)).andThen fun outcome => ?_
  obtain ⟨handled, probed⟩ := outcome
  cases handled with
  | true =>
      exact safe_of_not_removes
        (Reconciliation.onlyCalls_syncApplied hread (fun _ => rfl) _)
  | false =>
      refine (safe_of_not_removes
        (onlyCalls_takeOverStale hread rfl)).andThen fun updated => ?_
      have hsync : ∀ applied : Bool, Safe (durableMachine store)
          (markerDiscipline ι) i (cfg.syncApplied job applied) (fun _ => True)
          fun _ _ => True := fun applied =>
        safe_of_not_removes
          (Reconciliation.onlyCalls_syncApplied hread (fun _ => rfl) _)
      refine Safe.bind (B := fun found => MarkerSeen job (.ok found)) ?_
        fun found => ?_
      · refine safe_readMarker.weaken fun outcome c _ h => ?_
        cases outcome with
        | ok found => exact h
        | error error => trivial
      · refine Safe.andThen ?_ fun _ => hsync _
        cases found with
        | none => exact Safe.done
        | some generation => exact safe_finishPendingRecovery

theorem safe_settleStaleJob {state : JobState} {waiting : Bool} :
    Safe (durableMachine store) (markerDiscipline ι) i
      (cfg.settleStaleJob job state waiting) A fun _ _ => True := by
  have huuid : (call .uuid4).OnlyCalls fun op : JobOp =>
      op.removesMarker = false := onlyCalls_call rfl
  unfold Reconciliation.settleStaleJob
  dsimp only
  split
  next => exact Safe.done
  next =>
    split
    next => exact (safe_of_not_removes huuid).andThen fun _ => safe_failJob _
    next =>
      split
      next => exact (safe_of_not_removes huuid).andThen fun _ => safe_failJob _
      next => exact safe_takeOver

/-- One round over a stale job spares its marker. -/
theorem safe_reconcileStaleJob :
    Safe (durableMachine store) (markerDiscipline ι) i (cfg.reconcileStaleJob job)
      A fun _ _ => True := by
  refine Safe.bind (B := Outcome (fun t c => True ∧ Seen job t c ∧
    JustRead i job t c) fun _ _ => True)
    (Safe.attempt (safe_requireState_marker fun _ _ _ _ _ => trivial))
    fun found => ?_
  rcases found with e | state
  · cases e with
    | jobNotFound =>
        refine (safe_of_not_removes ?_).andThen fun _ => Safe.done
        exact onlyCalls_call rfl
    | _ => exact Safe.raise fun _ _ _ => trivial
  · show Safe _ _ i (cfg.reconcileStaleState job state) _ _
    unfold Reconciliation.reconcileStaleState
    split
    next => exact Safe.done
    next =>
      refine Safe.bind (safe_readMarker_fresh.strengthen fun _ _ h => h.2)
        fun found => ?_
      cases found with
      | none => exact safe_settleStaleJob
      | some generation =>
          by_cases hsame : generation = state.runGeneration
          · simp only [hsame, ne_eq, not_true_eq_false, ↓reduceIte]
            exact safe_settleStaleJob
          · exact Safe.of_false fun _ _ h => hsame (h generation rfl)

/-- What the list of pending recoveries shows. -/
def RecoveriesSeen : Except JobException (List (UUID × Int)) →
    Config jobSignature JobException World ι → Prop
  | .ok pending => fun c => ∀ e : UUID × Int, e ∈ pending →
      c.state.AtLeast e.1 e.2
  | .error _ => fun _ => True

theorem persistent_recoveriesSeen (pending : List (UUID × Int)) :
    Persistent (durableMachine store) (markerDiscipline ι)
      (RecoveriesSeen (.ok pending)) :=
  .all fun e => .imp (e ∈ pending) (persistent_atLeast e.1 e.2)

theorem safe_listPendingRecoveries :
    Safe (durableMachine store) (markerDiscipline ι) i
      (call .listPendingRecoveries) A RecoveriesSeen := by
  refine Safe.perform_post ?_ ?_
  · rintro (_ | pending)
    · exact .const True
    · exact (persistent_recoveriesSeen pending).stable i
  · rintro c (_ | pending) after ⟨_, hindexed⟩ _ hstep _
    · exact ⟨sparesMarkers_of_not_removes rfl, fun _ _ => trivial⟩
    · refine ⟨sparesMarkers_of_not_removes rfl, fun _ _ => ?_⟩
      rcases performs_cases hstep with ⟨reply, hexec⟩ | ⟨_, hres, _⟩
      · obtain ⟨hpending, rfl⟩ := Prod.mk.inj (Option.some.inj hexec)
        rintro ⟨job, generation⟩ hmem
        rw [← Except.ok.inj hpending] at hmem
        have hmarker := SortedSet.zscore_of_mem_zrange (List.mem_filter.1 hmem).1
        exact atLeast_of_marker (hindexed job) hmarker
      · cases hres

/-- A whole reconciliation spares the live markers. -/
theorem safe_reconcileOnce :
    Safe (durableMachine store) (markerDiscipline ι) i cfg.reconcileOnce A
      fun _ _ => True := by
  have hread : ∀ op : JobOp, op.readsOnly = true → op.removesMarker = false :=
    fun _ => JobOp.removesMarker_of_readsOnly
  refine Safe.bind (B := fun pending => RecoveriesSeen (.ok pending)) ?_
    fun pending => ?_
  · refine safe_listPendingRecoveries.weaken fun outcome c _ h => ?_
    cases outcome with
    | ok pending => exact h
    | error error => trivial
  have hrecoveries : Safe (durableMachine store) (markerDiscipline ι) i
      (Program.forEach pending fun marker =>
        cfg.finishPendingRecovery marker.1 marker.2)
      (RecoveriesSeen (.ok pending)) fun _ _ => True := by
    refine Safe.forEach (J := RecoveriesSeen (.ok pending)) ?_ fun _ _ _ => trivial
    rintro ⟨job, generation⟩ hmem
    refine ((Safe.frame safe_finishPendingRecovery
      (persistent_recoveriesSeen pending)).strengthen fun c _ h => ?_).weaken
      fun outcome c _ h => ?_
    · exact ⟨h (job, generation) hmem, h⟩
    · cases outcome with
      | ok value => exact h.2
      | error error => trivial
  refine hrecoveries.andThen fun _ => Safe.andThen ?_ fun _ => ?_
  · refine safe_of_not_removes ?_
    unfold Reconciliation.syncPendingCallbacks
    split
    next =>
      have hlist : (call .listPendingCallbacks).OnlyCalls fun op : JobOp =>
          op.removesMarker = false := onlyCalls_call rfl
      refine hlist.bind fun jobs => ?_
      refine Program.onlyCalls_forEach fun job _ => ?_
      split
      next => trivial
      next =>
        exact Reconciliation.onlyCalls_syncPendingCallback hread (fun _ => rfl) rfl
    next => trivial
  · refine (safe_of_not_removes (onlyCalls_call rfl)).andThen fun stale => ?_
    refine Safe.forEach (J := fun _ => True) (fun job _ => ?_) fun _ _ _ => trivial
    refine safe_reconcileStaleJob.weaken fun outcome c _ _ => ?_
    cases outcome <;> trivial

end Reconcilers

section Runs

variable {ι : Type} [DecidableEq ι] {store : DurableJobStore}

/-- The processes around the reconcilers: whatever they do, they remove no
marker. -/
def MarkerPool (pool : ι → Proc Unit) : Prop :=
  ∀ i, (∃ cfg : Reconciliation, pool i = cfg.reconcileOnce) ∨
    (pool i).OnlyCalls fun op : JobOp => op.removesMarker = false

theorem MarkerPool.safeAt {pool : ι → Proc Unit} (hpool : MarkerPool pool) (i : ι) :
    SafeAt (durableMachine store) (markerDiscipline ι)
      (start World.initial pool) i := by
  refine SafeAt.of_safe (Q := fun _ _ => True) (.const True) trivial ?_
  show Safe _ _ i (pool i) _ _
  rcases hpool i with ⟨cfg, hcfg⟩ | honly
  · rw [hcfg]
    exact safe_reconcileOnce
  · exact safe_of_not_removes honly

/-- In every run of overlapping reconciliations in which no unfinished takeover
falls between the two reads of a reconciler, a step keeps the marker of a live
generation, unless it ends the job, or closes the marker in a process whose
`enqueue` of that generation has returned. -/
theorem live_markers_stay_until_enqueued (pool : ι → Proc Unit)
    (hpool : MarkerPool pool) {c : Config jobSignature JobException World ι}
    (hrun : Run (durableMachine store) MarkerReadsFresh
      (start World.initial pool) c)
    {e : Event jobSignature JobException World ι} {rest : Proc Unit}
    (hen : Enabled (durableMachine store) MarkerReadsFresh c e rest)
    {job : UUID} {generation : Int}
    (hlive : LiveMarker job generation c.state.redis) :
    LiveMarker job generation e.after.redis ∨
    (∃ t, e.after.redis.states.get job = some t ∧ t.terminal = true) ∨
    ((∃ now, e.op = .markRecoveryEnqueued job generation now) ∧
      EnqueuedBy e.actor job generation c) := by
  have hstart : (markerDiscipline ι).inv (start World.initial pool) :=
    ⟨statesStored_initial, fun _ => JobView.indexed_empty⟩
  have hspares := (markerDiscipline ι).goal_of_run markerDiscipline_kept hstart
    hpool.safeAt hrun hen
  obtain ⟨⟨hstored, hindexed⟩, _⟩ :=
    (markerDiscipline ι).sound markerDiscipline_kept hstart hpool.safeAt hrun
  have hchange := performs_change hstored hen.performs job
  obtain ⟨s, hs, halive, hgeneration, hmarker⟩ := hlive
  rcases hchange.marker_cases hs halive hmarker hgeneration with
    hkept | hended | ⟨now, hop⟩ | hop
  · obtain ⟨t, ht, _⟩ := hchange.later (hstored.view job) s hs
    have hagree := (hchange.indexed (hstored.view job) (hindexed job)).present t ht
    obtain ⟨halive', hgeneration'⟩ := hagree.recoveryPending generation hkept
    exact Or.inl ⟨t, ht, halive', hgeneration'.symm, hkept⟩
  · exact Or.inr (Or.inl hended)
  · exact Or.inr (Or.inr ⟨⟨now, hop⟩, hspares.2 job generation now hop⟩)
  · exact absurd ⟨s, hs, halive, hgeneration, hmarker⟩
      (hspares.1 job generation hop)

/-- A reconciliation two hundred seconds after the sample registration. -/
def sampleReconciliation : Reconciliation where
  synchronizer := true
  coordinator := false
  now := 200000000
  staleSeconds := 90
  maxAttempts := 3

/-- A client registers a job; any other process reconciles. -/
def reconcilingPool : Nat → Proc Unit
  | 0 => do let _ ← Client.registerJob sampleRegistration
  | _ => sampleReconciliation.reconcileOnce

/-- The owner of the audit takes no callback. -/
def refusing : JobAnswer :=
  .proceed fun
    | .send _ => .ok false
    | .uuid4 => .ok 5
    | _ => .error .unexpected

theorem markerPool_reconcilingPool : MarkerPool reconcilingPool := by
  intro i
  cases i with
  | zero =>
      have hregister : (Client.registerJob sampleRegistration).OnlyCalls
          fun op : JobOp => op.removesMarker = false :=
        onlyCalls_registerJob (fun _ => JobOp.removesMarker_of_readsOnly) rfl
      exact Or.inr (hregister.bind fun _ => trivial)
  | succ n => exact Or.inl ⟨sampleReconciliation, rfl⟩

/-- No marker is there when one is read, so no read can be stale. -/
def readsNoMarker (c : Config jobSignature JobException World Nat)
    (e : Event jobSignature JobException World Nat) : Bool :=
  match e.op with
  | .pendingRecoveryGeneration job =>
      c.state.redis.recoveryPending.zscore job = none
  | _ => true

theorem markerReadsFresh_of_readsNoMarker
    (c : Config jobSignature JobException World Nat)
    (e : Event jobSignature JobException World Nat)
    (h : readsNoMarker c e = true) : MarkerReadsFresh c e := by
  intro job hop _ _ hmarker
  rw [readsNoMarker, hop] at h
  exact absurd (of_decide_eq_true h) hmarker

/-- The check of a live marker. -/
def hasLiveMarker (job : UUID) (generation : Int) (r : JobRedis) : Bool :=
  (r.states.get job).any (fun s =>
    s.terminal = false && s.runGeneration = generation) &&
  r.recoveryPending.zscore job = some generation

theorem liveMarker_of_hasLiveMarker {job : UUID} {generation : Int}
    {r : JobRedis} (h : hasLiveMarker job generation r = true) :
    LiveMarker job generation r := by
  simp only [hasLiveMarker, Bool.and_eq_true, decide_eq_true_eq] at h
  obtain ⟨s, hs, hlive⟩ := Option.any_eq_true _ _ |>.1 h.1
  simp only [Bool.and_eq_true, decide_eq_true_eq] at hlive
  exact ⟨s, hs, hlive.1, hlive.2, h.2⟩

/-- The marker of a fresh takeover is there when the takeover is announced. -/
theorem live_marker_stays_after_takeover :
    ∃ (c : Config jobSignature JobException World Nat)
      (e : Event jobSignature JobException World Nat) (rest : Proc Unit),
      Run (durableMachine sampleStore) MarkerReadsFresh
        (start World.initial reconcilingPool) c ∧
      Enabled (durableMachine sampleStore) MarkerReadsFresh c e rest ∧
      LiveMarker 1 2 c.state.redis ∧
      (LiveMarker 1 2 e.after.redis ∨
        (∃ t, e.after.redis.states.get 1 = some t ∧ t.terminal = true) ∨
        ((∃ now, e.op = .markRecoveryEnqueued 1 2 now) ∧
          EnqueuedBy e.actor 1 2 c)) := by
  have hplay : (play (M := durableMachine sampleStore) readsNoMarker
      (.act 0 refusing :: List.replicate 11 (.act 1 refusing))
      (start World.initial reconcilingPool)).any
      (fun c => hasLiveMarker 1 2 c.state.redis &&
        (nextCall (durableMachine sampleStore) readsNoMarker c 1 refusing).any
          fun _ => true) = true := by
    decide
  obtain ⟨c, hrun, htest⟩ :=
    exists_run_of_play markerReadsFresh_of_readsNoMarker hplay
  rw [Bool.and_eq_true] at htest
  obtain ⟨e, rest, hen, _⟩ :=
    exists_enabled_of_nextCall markerReadsFresh_of_readsNoMarker htest.2
  have hlive := liveMarker_of_hasLiveMarker htest.1
  exact ⟨c, e, rest, hrun, hen, hlive, live_markers_stay_until_enqueued
    reconcilingPool markerPool_reconcilingPool hrun hen hlive⟩

/-- The marker that a call tries to discard. -/
def JobOp.discardedMarker : JobOp → Option (UUID × Int)
  | discardPendingRecovery job generation => some (job, generation)
  | _ => none

/-- Two reconcilers find the same stale job.  The first one takes it over between
the two reads of the second one, which then discards the live marker: the new
generation is neither in the queue nor marked to be put there. -/
theorem overlapping_reconciler_drops_live_marker :
    ∃ (c : Config jobSignature JobException World Nat)
      (e : Event jobSignature JobException World Nat) (rest : Proc Unit),
      Run (durableMachine sampleStore) Anything
        (start World.initial reconcilingPool) c ∧
      Enabled (durableMachine sampleStore) Anything c e rest ∧
      LiveMarker 1 2 c.state.redis ∧
      JobOp.discardedMarker e.op = some (1, 2) ∧
      e.after.redis.recoveryPending.zscore 1 = none ∧
      ∃ t, e.after.redis.states.get 1 = some t ∧ t.terminal = false := by
  have hplay : (play (M := durableMachine sampleStore) (fun _ _ => true)
      (.act 0 refusing :: List.replicate 7 (.act 2 refusing) ++
        List.replicate 11 (.act 1 refusing) ++ [.act 2 refusing])
      (start World.initial reconcilingPool)).any
      (fun c => hasLiveMarker 1 2 c.state.redis &&
        (nextCall (durableMachine sampleStore) (fun _ _ => true) c 2 refusing).any
          fun p => decide (JobOp.discardedMarker p.1.op = some (1, 2)) &&
            decide (p.1.after.redis.recoveryPending.zscore 1 = none) &&
            (p.1.after.redis.states.get 1).any (·.terminal = false)) = true := by
    decide
  obtain ⟨c, hrun, htest⟩ := exists_run_of_play (fun _ _ _ => trivial) hplay
  rw [Bool.and_eq_true] at htest
  obtain ⟨e, rest, hen, hdropped⟩ :=
    exists_enabled_of_nextCall (fun _ _ _ => trivial) htest.2
  simp only [Bool.and_eq_true, decide_eq_true_eq] at hdropped
  obtain ⟨t, ht, halive⟩ := Option.any_eq_true _ _ |>.1 hdropped.2
  exact ⟨c, e, rest, hrun, hen, liveMarker_of_hasLiveMarker htest.1,
    hdropped.1.1, hdropped.1.2, t, ht, of_decide_eq_true halive⟩

end Runs

end SearchTrust.Jobs
