/-
What a stream emits, next to any processes that commit and publish.  A stream
yields rising revisions, and when it beats, what it has not yielded was not
published to it.
-/
import SearchTrust.Jobs.Client
import SearchTrust.Jobs.EventStream

namespace SearchTrust.Jobs

open SearchTrust.Interleave SearchTrust.Redis

namespace StreamOp

/-- The check of a heartbeat of a stream. -/
def beats (n : Nat) : StreamOp → Bool
  | emit m .heartbeat => decide (m = n)
  | _ => false

theorem eq_of_beats {n : Nat} {op : StreamOp} (h : op.beats n = true) :
    op = .emit n .heartbeat := by
  cases op with
  | emit m item =>
      cases item with
      | state s => cases h
      | heartbeat => rw [of_decide_eq_true (show decide (m = n) = true from h)]
  | _ => cases h

end StreamOp

section Positions

/-- The states that a stream has yielded, latest first, read off its calls. -/
def emittedStates (own : List StreamEvent) : List JobState :=
  own.filterMap fun e => StreamOp.emitted e.op

/-- The readings of the clock, latest first. -/
def clockReadings (own : List StreamEvent) : List Int :=
  own.filterMap fun e => StreamOp.clockReading e.op e.result

/-- Where a stream stands: it was started at `started`, and `last` is the latest
revision that it has yielded, or the one from which it has started. -/
structure StreamPosition (r : StreamRequest) (started last : Int)
    (own : List StreamEvent) : Prop where
  started : (clockReadings own).getLast? = some started
  lower : r.startRevision ≤ last
  upper : ∀ t ∈ emittedStates own, t.revision ≤ last
  reached : last = r.startRevision ∨ ∃ t ∈ emittedStates own, t.revision = last

variable {r : StreamRequest} {started last : Int} {own : List StreamEvent}
  {e : StreamEvent}

theorem emittedStates_cons_of_none (h : StreamOp.emitted e.op = none)
    (own : List StreamEvent) : emittedStates (e :: own) = emittedStates own := by
  simp [emittedStates, h]

theorem emittedStates_cons_of_some {s : JobState}
    (h : StreamOp.emitted e.op = some s) (own : List StreamEvent) :
    emittedStates (e :: own) = s :: emittedStates own := by
  simp [emittedStates, h]

theorem mem_clockReadings_cons {now : Int} (h : now ∈ clockReadings own) :
    now ∈ clockReadings (e :: own) := by
  unfold clockReadings at h ⊢
  rw [List.filterMap_cons]
  split
  · exact h
  · exact List.mem_cons_of_mem _ h

theorem getLast?_clockReadings_cons (h : (clockReadings own).getLast? = some started) :
    (clockReadings (e :: own)).getLast? = some started := by
  unfold clockReadings at h ⊢
  rw [List.filterMap_cons]
  split
  · exact h
  · rw [List.getLast?_cons, h]
    rfl

/-- A call that yields no state leaves the position alone. -/
theorem StreamPosition.quiet (h : StreamPosition r started last own)
    (he : StreamOp.emitted e.op = none) :
    StreamPosition r started last (e :: own) where
  started := getLast?_clockReadings_cons h.started
  lower := h.lower
  upper := by
    rw [emittedStates_cons_of_none he]
    exact h.upper
  reached := by
    rw [emittedStates_cons_of_none he]
    exact h.reached

/-- Yielding a newer state moves the position to its revision. -/
theorem StreamPosition.emit (h : StreamPosition r started last own) {s : JobState}
    (he : StreamOp.emitted e.op = some s) (hnew : last < s.revision) :
    StreamPosition r started s.revision (e :: own) where
  started := getLast?_clockReadings_cons h.started
  lower := h.lower.trans hnew.le
  upper := by
    rw [emittedStates_cons_of_some he]
    intro t ht
    rcases List.mem_cons.1 ht with rfl | ht
    · exact le_rfl
    · exact (h.upper t ht).trans hnew.le
  reached := by
    rw [emittedStates_cons_of_some he]
    exact Or.inr ⟨s, List.mem_cons_self, rfl⟩

/-- The stream has seen a terminal state that it has yielded, or that its
consumer had seen already. -/
def SawEnd (r : StreamRequest) (own : List StreamEvent) : Prop :=
  ∃ e ∈ own, ∃ t, StreamOp.observed e.op e.result = some (r.jobId, t) ∧
    t.terminal = true ∧ (t ∈ emittedStates own ∨ t.revision ≤ r.startRevision)

/-- The stream has run for its time. -/
def TimedOut (r : StreamRequest) (own : List StreamEvent) : Prop :=
  ∃ started now, (clockReadings own).getLast? = some started ∧
    now ∈ clockReadings own ∧ r.timeout ≤ now - started

theorem SawEnd.cons (h : SawEnd r own) (he : StreamOp.emitted e.op = none) :
    SawEnd r (e :: own) := by
  obtain ⟨x, hx, t, hread, hterminal, hseen⟩ := h
  refine ⟨x, List.mem_cons_of_mem e hx, t, hread, hterminal, ?_⟩
  rwa [emittedStates_cons_of_none he]

theorem TimedOut.cons (h : TimedOut r own) : TimedOut r (e :: own) := by
  obtain ⟨started, now, hstarted, hnow, hlong⟩ := h
  exact ⟨started, now, getLast?_clockReadings_cons hstarted,
    mem_clockReadings_cons hnow, hlong⟩

end Positions

section Notifications

/-- A call publishes a revision that the job has reached. -/
def Announces (job : UUID) (revision : Int) (x : StreamEvent) : Prop :=
  StreamOp.published x.op x.result = some (job, revision) ∧
    ∃ s, x.before.jobs.redis.states.get job = some s ∧ revision ≤ s.revision

/-- A message waits on the connection of a stream. -/
def Pending (n : Nat) (w : StreamWorld) : Prop :=
  ∃ connection revision, w.connections n = some connection ∧
    Notice.message revision ∈ connection.notices

def Subscribed (n : Nat) (job : UUID) (w : StreamWorld) : Prop :=
  ∃ connection, w.connections n = some connection ∧ connection.job = job

/-- What was published is not newer than `last`, or a message waits. -/
def Caught (n : Nat) (job : UUID) (last : Int) (c : StreamConfig) : Prop :=
  ∀ x ∈ c.history, ∀ revision, Announces job revision x →
    revision ≤ last ∨ Pending n c.state

/-- The wait of a stream has ended with the confirmation of its subscription, or
at a time at which nothing newer than what it has yielded was published. -/
def WaitedWell (r : StreamRequest) (n : Nat) (c : StreamConfig) : Prop :=
  ∃ later wait earlier, c.history = later ++ wait :: earlier ∧
    lastCall c.history (.stream n) = some wait ∧ wait.op = .getMessage n ∧
    ((∃ connection, wait.before.connections n = some connection ∧
        connection.notices.head? = some .subscribed) ∨
      ∀ x ∈ earlier, ∀ revision, Announces r.jobId revision x →
        revision ≤ r.startRevision ∨
        ∃ t ∈ emittedStates (ownCalls c.history (.stream n)), revision ≤ t.revision)

variable {n : Nat} {job : UUID} {last : Int} {connection : Connection}

theorem Connection.deliver_job (job : UUID) (revision : Int)
    (connection : Connection) :
    (connection.deliver job revision).job = connection.job := by
  unfold Connection.deliver
  split <;> rfl

theorem Connection.mem_deliver {notice : Notice} {revision : Int}
    (h : notice ∈ connection.notices) :
    notice ∈ (connection.deliver job revision).notices := by
  unfold Connection.deliver
  split
  · exact List.mem_append_left _ h
  · exact h

theorem Connection.message_mem_deliver {revision : Int} :
    Notice.message revision ∈
      (connection.deliver connection.job revision).notices := by
  simp [Connection.deliver]

theorem Pending.advance {w : StreamWorld} (h : Pending n w) {w' : StreamWorld}
    {published : Option (UUID × Int)}
    (hw : w'.connections n = match published with
      | some (job, revision) =>
          (w.connections n).map fun connection => connection.deliver job revision
      | none => w.connections n) : Pending n w' := by
  obtain ⟨connection, revision, hconnection, hmem⟩ := h
  rw [hconnection] at hw
  rcases published with _ | ⟨job, latest⟩
  · exact ⟨connection, revision, hw, hmem⟩
  · exact ⟨_, revision, hw, Connection.mem_deliver hmem⟩

theorem Subscribed.advance {w : StreamWorld} (h : Subscribed n job w)
    {w' : StreamWorld} {published : Option (UUID × Int)}
    (hw : w'.connections n = match published with
      | some (job, revision) =>
          (w.connections n).map fun connection => connection.deliver job revision
      | none => w.connections n) :
    Subscribed n job w' ∧ ∀ revision, published = some (job, revision) →
      Pending n w' := by
  obtain ⟨connection, hconnection, rfl⟩ := h
  rw [hconnection] at hw
  rcases published with _ | ⟨channel, latest⟩
  · exact ⟨⟨connection, hw, rfl⟩, fun revision h => (nomatch h)⟩
  · refine ⟨⟨_, hw, Connection.deliver_job _ _ _⟩, fun revision h => ?_⟩
    obtain ⟨rfl, rfl⟩ := Prod.mk.inj (Option.some.inj h)
    exact ⟨_, latest, hw, Connection.message_mem_deliver⟩

end Notifications

section Discipline

/-- A state that a stream yields is newer than all it has yielded, and it is one
that the stream has read in the store. -/
structure YieldsNext (r : StreamRequest) (n : Nat) (s : JobState)
    (c : StreamConfig) : Prop where
  newer : r.startRevision < s.revision
  rising : ∀ t ∈ emittedStates (ownCalls c.history (.stream n)),
    t.revision < s.revision
  stored : ∃ x ∈ ownCalls c.history (.stream n),
    StreamOp.observed x.op x.result = some (r.jobId, s) ∧
      x.before.jobs.redis.states.get r.jobId = some s

def Streaming.discipline (dep : Streaming) :
    Discipline streamSignature JobException StreamWorld StreamActor where
  inv c := c.state.jobs.redis.StatesStored ∧
    ∀ x ∈ c.history, ∀ job revision, Announces job revision x →
      ∃ s, c.state.jobs.redis.states.get job = some s ∧ revision ≤ s.revision
  cond := Anything
  goal c e :=
    (∀ n, e.op.stream = some n → e.actor = .stream n) ∧
    (∀ n s, e.op = .emit n (.state s) → YieldsNext (dep.streams n) n s c) ∧
    ∀ n, e.op = .emit n .heartbeat → WaitedWell (dep.streams n) n c

variable {dep : Streaming} {store : DurableJobStore}

theorem Streaming.discipline_kept : dep.discipline.Kept (streamMachine store) where
  act := by
    rintro c e rest ⟨hstored, hreached⟩ hen _
    have hlater := streamPerforms_later hstored hen.performs
    refine ⟨hlater.1, fun x hx job revision hannounces => ?_⟩
    have hbefore : ∃ s, c.state.jobs.redis.states.get job = some s ∧
        revision ≤ s.revision := by
      rcases List.mem_cons.1 hx with rfl | hx
      · exact hen.before ▸ hannounces.2
      · exact hreached x hx job revision hannounces
    obtain ⟨s, hs, hle⟩ := hbefore
    obtain ⟨t, ht, hst⟩ := hlater.2 job s hs
    exact ⟨t, ht, hle.trans hst.revision⟩
  drift := by
    rintro c after ⟨hstored, hreached⟩ hdrift
    have hview : ∀ job, after.jobs.redis.view job = c.state.jobs.redis.view job :=
      fun job => view_drifts (streamDrifts_jobs hdrift).1 job
    refine ⟨fun job s hs => hstored job s ?_, fun x hx job revision h => ?_⟩
    · exact (congrArg JobView.state (hview job)).symm.trans hs
    · obtain ⟨s, hs, hle⟩ := hreached x hx job revision h
      exact ⟨s, (congrArg JobView.state (hview job)).trans hs, hle⟩
  crash := fun _ h => h

theorem Streaming.goal_of_none {c : StreamConfig} {e : StreamEvent}
    (h : StreamOp.stream e.op = none) : dep.discipline.goal c e := by
  refine ⟨fun n hn => ?_, fun n s hop => ?_, fun n hop => ?_⟩
  · rw [h] at hn
    cases hn
  · rw [hop] at h
    cases h
  · rw [hop] at h
    cases h

/-- The call of another process is not about the stream `n`. -/
theorem Streaming.stream_ne {c : StreamConfig} {e : StreamEvent}
    (hgoal : dep.discipline.goal c e) {n : Nat} (hne : e.actor ≠ .stream n) :
    StreamOp.stream e.op ≠ some n :=
  fun h => hne (hgoal.1 n h)

variable {r : StreamRequest} {n : Nat} {job : UUID} {started last : Int}

theorem stable_subscribed :
    Stable (streamMachine store) dep.discipline (.stream n)
      fun c => Subscribed n job c.state where
  act := fun _ h hne hen hgoal =>
    (h.advance (streamPerforms_connection hen.performs
      (Streaming.stream_ne hgoal hne))).1
  drift := fun _ h hdrift => by
    obtain ⟨connection, hconnection, hjob⟩ := h
    refine ⟨connection, ?_, hjob⟩
    exact (congrFun (streamDrifts_jobs hdrift).2 n).trans hconnection
  crash := fun _ _ h => h

/-- While a stream is subscribed, what is published to it waits for it. -/
theorem stable_caught :
    Stable (streamMachine store) dep.discipline (.stream n)
      fun c => Subscribed n job c.state ∧ Caught n job last c where
  act := by
    rintro c e rest _ ⟨hsubscribed, hcaught⟩ hne hen hgoal
    have hconnection := streamPerforms_connection hen.performs
      (Streaming.stream_ne hgoal hne)
    obtain ⟨hstill, hpending⟩ := hsubscribed.advance hconnection
    refine ⟨hstill, fun x hx revision hannounces => ?_⟩
    rcases List.mem_cons.1 hx with rfl | hx
    · exact Or.inr (hpending revision hannounces.1)
    · exact (hcaught x hx revision hannounces).imp id fun h => h.advance hconnection
  drift := by
    rintro c after hinv ⟨hsubscribed, hcaught⟩ hdrift
    refine ⟨stable_subscribed.drift hinv hsubscribed hdrift, fun x hx revision h => ?_⟩
    refine (hcaught x hx revision h).imp id ?_
    rintro ⟨connection, latest, hconnection, hmem⟩
    exact ⟨connection, latest,
      (congrFun (streamDrifts_jobs hdrift).2 n).trans hconnection, hmem⟩
  crash := fun _ _ h => h

theorem stable_waitedWell :
    Stable (streamMachine store) dep.discipline (.stream n) (WaitedWell r n) where
  act := by
    rintro c e rest _ ⟨later, wait, earlier, hhistory, hlast, hop, hwell⟩ hne _ _
    have hown : ownCalls (e :: c.history) (.stream n) =
        ownCalls c.history (.stream n) := ownCalls_cons_of_ne hne _
    refine ⟨e :: later, wait, earlier, ?_, ?_, hop, ?_⟩
    · rw [Config.perform_history, hhistory, List.cons_append]
    · rw [Config.perform_history, lastCall, hown]
      exact hlast
    · rw [Config.perform_history, hown]
      exact hwell
  drift := fun _ h _ => h
  crash := fun _ _ h => h

/-- A stream stands at `last` and is subscribed. -/
def Following (r : StreamRequest) (n : Nat) (started last : Int)
    (c : StreamConfig) : Prop :=
  StreamPosition r started last (ownCalls c.history (.stream n)) ∧
    Subscribed n r.jobId c.state

/-- It has also yielded all that was published, or a message waits. -/
def Watching (r : StreamRequest) (n : Nat) (started last : Int)
    (c : StreamConfig) : Prop :=
  StreamPosition r started last (ownCalls c.history (.stream n)) ∧
    Subscribed n r.jobId c.state ∧ Caught n r.jobId last c

theorem stable_position {P : List StreamEvent → Prop} :
    Stable (streamMachine store) dep.discipline (.stream n)
      fun c => P (ownCalls c.history (.stream n)) :=
  .of_ownCalls P

theorem stable_following :
    Stable (streamMachine store) dep.discipline (.stream n)
      (Following r n started last) :=
  stable_position.and stable_subscribed

theorem stable_watching :
    Stable (streamMachine store) dep.discipline (.stream n)
      (Watching r n started last) :=
  stable_position.and stable_caught

end Discipline

section Streams

variable {dep : Streaming} {store : DurableJobStore} {r : StreamRequest}
  {n : Nat} {started last : Int}

/-- A call of the stream that yields and publishes nothing and leaves its
connection alone. -/
theorem Watching.quiet {c : StreamConfig} {op : StreamOp}
    {result : Except JobException op.Value} {after : StreamWorld}
    (h : Watching r n started last c) (hemitted : op.emitted = none)
    (hpublished : op.published result = none)
    (hconnection : after.connections n = c.state.connections n)
    (rest : StreamProc Unit) :
    Watching r n started last
      (c.perform ⟨.stream n, op, result, c.state, after⟩ rest) := by
  obtain ⟨hposition, ⟨connection, hsubscribed, hjob⟩, hcaught⟩ := h
  refine ⟨?_, ⟨connection, hconnection.trans hsubscribed, hjob⟩, ?_⟩
  · rw [Config.perform_history, ownCalls_cons_self]
    exact hposition.quiet hemitted
  · intro x hx revision hannounces
    rcases List.mem_cons.1 hx with rfl | hx
    · rw [Announces, hpublished] at hannounces
      cases hannounces.1
    · refine (hcaught x hx revision hannounces).imp id ?_
      rintro ⟨waiting, latest, hwaiting, hmem⟩
      exact ⟨waiting, latest, hconnection.trans hwaiting, hmem⟩

/-- What is known of a reading of the clock. -/
def ReadClock (r : StreamRequest) (n : Nat) (started last : Int) :
    Except JobException Int → StreamConfig → Prop
  | .ok now => fun c => Watching r n started last c ∧
      now ∈ clockReadings (ownCalls c.history (.stream n))
  | .error _ => fun _ => True

theorem safe_monotonic :
    Safe (streamMachine store) dep.discipline (.stream n) (streamCall .monotonic)
      (Watching r n started last) (ReadClock r n started last) := by
  refine Safe.perform_post ?_ ?_
  · rintro (_ | now)
    · exact .const True
    · exact stable_watching.and
        (stable_position (P := fun own => now ∈ clockReadings own))
  · intro c result after _ hwatching hstep _
    refine ⟨Streaming.goal_of_none rfl, fun rest _ => ?_⟩
    have hconnection : after.connections n = c.state.connections n :=
      streamPerforms_connection hstep (by simp [StreamOp.stream])
    rcases result with error | now
    · trivial
    · refine ⟨hwatching.quiet rfl rfl hconnection rest, ?_⟩
      rw [Config.perform_history, ownCalls_cons_self]
      exact List.mem_cons_self

theorem streamPerforms_emit {item : StreamItem} {w w' : StreamWorld}
    {res : Except JobException Unit}
    (h : (streamMachine store).Performs (.emit n item) w res w') : w' = w := by
  obtain ⟨⟨job, clock⟩, hexec⟩ := h
  cases job with
  | proceed reply =>
      obtain ⟨_, rfl⟩ := Prod.mk.inj (Option.some.inj hexec)
      rfl
  | interrupt reason =>
      obtain ⟨_, rfl⟩ := Prod.mk.inj (Option.some.inj hexec)
      rfl

theorem safe_emitHeartbeat :
    Safe (streamMachine store) dep.discipline (.stream n)
      (streamCall (.emit n .heartbeat))
      (fun c => Watching (dep.streams n) n started last c ∧
        WaitedWell (dep.streams n) n c)
      (Outcome (fun _ => Watching (dep.streams n) n started last)
        fun _ _ => True) := by
  refine Safe.onValue (Safe.perform_post (fun _ => stable_watching) ?_)
  rintro c result after _ ⟨hwatching, hwaited⟩ hstep _
  refine ⟨⟨?_, ?_, ?_⟩, fun rest _ => ?_⟩
  · rintro m hm
    exact congrArg StreamActor.stream (Option.some.inj hm)
  · rintro m s ⟨⟩
  · rintro m ⟨⟩
    exact hwaited
  · exact hwatching.quiet rfl rfl (by rw [streamPerforms_emit hstep]) rest

/-- The evidence of a read: the stream has found `t` in the store. -/
def HasRead (r : StreamRequest) (t : JobState) (own : List StreamEvent) : Prop :=
  ∃ x ∈ own, StreamOp.observed x.op x.result = some (r.jobId, t) ∧
    x.before.jobs.redis.states.get r.jobId = some t

theorem HasRead.cons {t : JobState} {own : List StreamEvent}
    (h : HasRead r t own) (e : StreamEvent) : HasRead r t (e :: own) := by
  obtain ⟨x, hx, hread⟩ := h
  exact ⟨x, List.mem_cons_of_mem e hx, hread⟩

/-- What is known of a read of the state. -/
def ReadState (r : StreamRequest) (n : Nat) (started last : Int) :
    Except JobException (Option JobState) → StreamConfig → Prop
  | .ok (some t) => fun c =>
      (StreamPosition r started last (ownCalls c.history (.stream n)) ∧
        HasRead r t (ownCalls c.history (.stream n))) ∧
      Subscribed n r.jobId c.state ∧ Caught n r.jobId t.revision c
  | _ => fun _ => True

theorem safe_emitState {t : JobState} (hnew : last < t.revision) :
    Safe (streamMachine store) dep.discipline (.stream n)
      (streamCall (.emit n (.state t)))
      (ReadState (dep.streams n) n started last (.ok (some t)))
      (Outcome (fun _ c => Watching (dep.streams n) n started t.revision c ∧
        HasRead (dep.streams n) t (ownCalls c.history (.stream n)) ∧
        t ∈ emittedStates (ownCalls c.history (.stream n)))
        fun _ _ => True) := by
  refine Safe.onValue (Safe.perform_post (fun _ => stable_watching.and
    (stable_position (P := fun own => HasRead (dep.streams n) t own ∧
      t ∈ emittedStates own))) ?_)
  rintro c result after _ ⟨⟨hposition, hread⟩, hsubscribed, hcaught⟩ hstep _
  obtain rfl := streamPerforms_emit hstep
  refine ⟨⟨?_, ?_, ?_⟩, fun rest _ => ⟨⟨?_, hsubscribed, ?_⟩, ?_⟩⟩
  · rintro m hm
    exact congrArg StreamActor.stream (Option.some.inj hm)
  · rintro m s ⟨⟩
    refine ⟨hposition.lower.trans_lt hnew, fun u hu => ?_, hread⟩
    exact (hposition.upper u hu).trans_lt hnew
  · rintro m ⟨⟩
  · rw [Config.perform_history, ownCalls_cons_self]
    exact hposition.emit rfl hnew
  · intro x hx revision hannounces
    rcases List.mem_cons.1 hx with rfl | hx
    · cases hannounces.1
    · exact hcaught x hx revision hannounces
  · rw [Config.perform_history, ownCalls_cons_self,
      emittedStates_cons_of_some (s := t) rfl]
    exact ⟨hread.cons _, List.mem_cons_self⟩

/-- What is known of the answer of `get_message`. -/
def Waited (r : StreamRequest) (n : Nat) (started last : Int) :
    Except JobException (Option Int) → StreamConfig → Prop
  | .ok none => fun c => Watching r n started last c ∧ WaitedWell r n c
  | .ok (some _) => Following r n started last
  | .error _ => fun _ => True

theorem streamPerforms_getMessage {w w' : StreamWorld} {found : Option Int}
    (h : (streamMachine store).Performs (.getMessage n) w (.ok found) w') :
    w.takeNotice n = (.ok found, w') := by
  obtain ⟨⟨job, clock⟩, hexec⟩ := h
  cases job with
  | proceed reply => exact Option.some.inj hexec
  | interrupt reason => cases (Prod.mk.inj (Option.some.inj hexec)).1

/-- A wait that finds no message has found the confirmation of the subscription,
or nothing at all. -/
theorem takeNotice_none {w w' : StreamWorld} (h : w.takeNotice n = (.ok none, w')) :
    ∃ connection, w.connections n = some connection ∧
      ((connection.notices = [] ∧ w' = w) ∨
        ∃ waiting, connection.notices = .subscribed :: waiting ∧
          w'.connections n = some { connection with notices := waiting }) := by
  unfold StreamWorld.takeNotice at h
  split at h
  next => cases h
  next job hconnection =>
    obtain ⟨_, rfl⟩ := Prod.mk.inj h
    exact ⟨⟨job, []⟩, hconnection, Or.inl ⟨rfl, rfl⟩⟩
  next job waiting hconnection =>
    obtain ⟨_, rfl⟩ := Prod.mk.inj h
    refine ⟨⟨job, .subscribed :: waiting⟩, hconnection, Or.inr ⟨waiting, rfl, ?_⟩⟩
    simp [StreamWorld.connect]
  next => cases (Prod.mk.inj h).1

/-- A wait that finds a message keeps the subscription. -/
theorem takeNotice_some {w w' : StreamWorld} {revision : Int}
    (h : w.takeNotice n = (.ok (some revision), w')) {job : UUID}
    (hsubscribed : Subscribed n job w) : Subscribed n job w' := by
  obtain ⟨connection, hconnection, hjob⟩ := hsubscribed
  unfold StreamWorld.takeNotice at h
  rw [hconnection] at h
  split at h
  next => cases h
  next => cases (Prod.mk.inj h).1
  next => cases (Prod.mk.inj h).1
  next channel latest waiting heq =>
    obtain ⟨_, rfl⟩ := Prod.mk.inj h
    obtain rfl := Option.some.inj heq
    refine ⟨⟨channel, waiting⟩, ?_, hjob⟩
    simp [StreamWorld.connect]

theorem safe_getMessage :
    Safe (streamMachine store) dep.discipline (.stream n)
      (streamCall (.getMessage n)) (Watching r n started last)
      (Waited r n started last) := by
  refine Safe.perform_post ?_ ?_
  · rintro (_ | _ | revision)
    · exact .const True
    · exact stable_watching.and stable_waitedWell
    · exact stable_following
  · rintro c result after _ hwatching hstep _
    refine ⟨⟨?_, ?_, ?_⟩, fun rest _ => ?_⟩
    · rintro m hm
      exact congrArg StreamActor.stream (Option.some.inj hm)
    · rintro m s ⟨⟩
    · rintro m ⟨⟩
    obtain ⟨hposition, hsubscribed, hcaught⟩ := hwatching
    have hown : StreamPosition r started last (ownCalls (c.perform
        ⟨.stream n, .getMessage n, result, c.state, after⟩ rest).history
        (.stream n)) := by
      rw [Config.perform_history, ownCalls_cons_self]
      exact hposition.quiet rfl
    rcases result with error | _ | revision
    · trivial
    · have hlast : lastCall (c.perform
          ⟨.stream n, .getMessage n, .ok none, c.state, after⟩ rest).history
          (.stream n) = some ⟨.stream n, .getMessage n, .ok none, c.state, after⟩ := by
        rw [Config.perform_history, lastCall, ownCalls_cons_self]
        rfl
      obtain ⟨connection, hconnection, ⟨hempty, rfl⟩ | ⟨waiting, hfirst, hafter⟩⟩ :=
        takeNotice_none (streamPerforms_getMessage hstep)
      · -- Nothing waits, so all that was published is behind the stream.
        have hnone : ¬ Pending n c.state := by
          rintro ⟨other, latest, hother, hmem⟩
          obtain rfl := Option.some.inj (hconnection.symm.trans hother)
          rw [hempty] at hmem
          cases hmem
        refine ⟨⟨hown, hsubscribed, fun x hx latest hannounces => ?_⟩,
          [], _, c.history, rfl, hlast, rfl, Or.inr fun x hx latest hannounces => ?_⟩
        · rcases List.mem_cons.1 hx with rfl | hx
          · cases hannounces.1
          · exact hcaught x hx latest hannounces
        · have hle : latest ≤ last :=
            (hcaught x hx latest hannounces).resolve_right hnone
          rcases hown.reached with hstart | ⟨t, ht, htlast⟩
          · exact Or.inl (hstart ▸ hle)
          · exact Or.inr ⟨t, ht, htlast ▸ hle⟩
      · -- The confirmation is gone, and the messages are still there.
        refine ⟨⟨hown, ?_, fun x hx latest hannounces => ?_⟩,
          [], _, c.history, rfl, hlast, rfl, Or.inl ⟨connection, hconnection, ?_⟩⟩
        · obtain ⟨other, hother, hjob⟩ := hsubscribed
          obtain rfl := Option.some.inj (hconnection.symm.trans hother)
          exact ⟨_, hafter, hjob⟩
        · rcases List.mem_cons.1 hx with rfl | hx
          · cases hannounces.1
          · refine (hcaught x hx latest hannounces).imp id ?_
            rintro ⟨other, newest, hother, hmem⟩
            obtain rfl := Option.some.inj (hconnection.symm.trans hother)
            rw [hfirst] at hmem
            refine ⟨_, newest, hafter, ?_⟩
            rcases List.mem_cons.1 hmem with hsame | hmem
            · cases hsame
            · exact hmem
        · rw [hfirst]
          rfl
    · exact ⟨hown, takeNotice_some (streamPerforms_getMessage hstep) hsubscribed⟩

theorem safe_readState :
    Safe (streamMachine store) dep.discipline (.stream n)
      (dep.streams n).requireState (Following (dep.streams n) n started last)
      (Outcome (fun t => ReadState (dep.streams n) n started last (.ok (some t)))
        fun _ _ => True) := by
  refine Safe.bind (B := fun found => ReadState (dep.streams n) n started last (.ok found))
    ?_ fun found => ?_
  · refine (Safe.perform_post (B := ReadState (dep.streams n) n started last) ?_ ?_).weaken
      fun outcome c _ h => ?_
    · rintro (_ | _ | t)
      · exact .const True
      · exact .const True
      · exact (stable_position (P := fun own => StreamPosition (dep.streams n)
          started last own ∧ HasRead (dep.streams n) t own)).and stable_caught
    · rintro c result after ⟨hstored, hreached⟩ ⟨hposition, hsubscribed⟩ hstep _
      refine ⟨Streaming.goal_of_none rfl, fun rest _ => ?_⟩
      rcases result with error | _ | t
      · trivial
      · trivial
      obtain ⟨hbase, _⟩ := streamPerforms_job hstep
      have ht : c.state.jobs.redis.states.get (dep.streams n).jobId = some t := by
        obtain ⟨_, hfound | ⟨_, herror⟩⟩ := performs_getState hstored hbase
        · exact (Except.ok.inj hfound).symm
        · cases herror
      have hconnection : after.connections n = c.state.connections n :=
        streamPerforms_connection hstep (by simp [StreamOp.stream])
      refine ⟨?_, ?_, fun x hx revision hannounces => Or.inl ?_⟩
      · rw [Config.perform_history, ownCalls_cons_self]
        exact ⟨hposition.quiet rfl, _, List.mem_cons_self, rfl, ht⟩
      · obtain ⟨connection, hfound, hjob⟩ := hsubscribed
        exact ⟨connection, hconnection.trans hfound, hjob⟩
      · rcases List.mem_cons.1 hx with rfl | hx
        · cases hannounces.1
        · obtain ⟨s, hs, hle⟩ := hreached x hx _ revision hannounces
          obtain rfl := Option.some.inj (ht.symm.trans hs)
          exact hle
    · cases outcome with
      | ok found => exact h
      | error error => trivial
  · cases found with
    | none => exact Safe.raise fun _ _ _ => trivial
    | some t => exact Safe.ret fun _ _ h => h

/-- What a stream establishes when it ends: on its own, it has seen the end of its
job or run for its time. -/
def Finishes (r : StreamRequest) (n : Nat) :
    Except JobException Unit → StreamConfig → Prop
  | .ok _ => fun c => SawEnd r (ownCalls c.history (.stream n)) ∨
      TimedOut r (ownCalls c.history (.stream n))
  | .error _ => fun _ => True

theorem finishes_of_hasRead {t : JobState} {c : StreamConfig}
    (hread : HasRead r t (ownCalls c.history (.stream n)))
    (hterminal : t.terminal = true)
    (hseen : t ∈ emittedStates (ownCalls c.history (.stream n)) ∨
      t.revision ≤ r.startRevision) : Finishes r n (.ok ()) c := by
  obtain ⟨x, hx, hobserved, _⟩ := hread
  exact Or.inl ⟨x, hx, t, hobserved, hterminal, hseen⟩

/-- The loop of a stream. -/
theorem safe_watch (rounds : Nat) :
    Safe (streamMachine store) dep.discipline (.stream n)
      ((dep.streams n).watch n started rounds last)
      (Watching (dep.streams n) n started last) (Finishes (dep.streams n) n) := by
  induction rounds generalizing last with
  | zero =>
      rintro c result after _ _ ⟨answer, hexec⟩ _
      cases hexec
  | succ rounds ih =>
      refine Safe.bind (B := fun now => ReadClock (dep.streams n) n started last
        (.ok now)) ?_ fun now => ?_
      · refine safe_monotonic.weaken fun outcome c _ h => ?_
        cases outcome with
        | ok now => exact h
        | error error => trivial
      split
      next =>
        refine Safe.bind (B := fun found => Waited (dep.streams n) n started last
          (.ok found)) ?_ fun found => ?_
        · refine (safe_getMessage.strengthen fun _ _ h => h.1).weaken
            fun outcome c _ h => ?_
          cases outcome with
          | ok found => exact h
          | error error => trivial
        cases found with
        | none => exact Safe.bind safe_emitHeartbeat fun _ => ih
        | some revision =>
            refine Safe.bind safe_readState fun t => ?_
            by_cases hold : t.revision ≤ last
            · simp only [hold, ↓reduceIte]
              refine ih.strengthen fun c _ h => ⟨h.1.1, h.2.1, ?_⟩
              intro x hx latest hannounces
              exact (h.2.2 x hx latest hannounces).imp (fun hle => hle.trans hold) id
            · simp only [hold, ↓reduceIte]
              refine Safe.bind (safe_emitState (not_le.1 hold)) fun _ => ?_
              split
              next hterminal =>
                refine Safe.ret fun c _ h => ?_
                exact finishes_of_hasRead h.2.1 hterminal (Or.inl h.2.2)
              next => exact ih.strengthen fun _ _ h => h.1
      next hlong =>
        refine Safe.ret fun c _ h => Or.inr ?_
        exact ⟨started, now, h.1.1.started, h.2, not_lt.1 hlong⟩

/-- A stream that has just been subscribed. -/
theorem safe_follow :
    Safe (streamMachine store) dep.discipline (.stream n)
      ((dep.streams n).follow n started)
      (Following (dep.streams n) n started (dep.streams n).startRevision)
      (Finishes (dep.streams n) n) := by
  refine Safe.bind safe_readState fun t => ?_
  split
  next hnew =>
    refine Safe.bind (safe_emitState hnew) fun _ => ?_
    split
    next hterminal =>
      refine Safe.ret fun c _ h => ?_
      exact finishes_of_hasRead h.2.1 hterminal (Or.inl h.2.2)
    next => exact (safe_watch _).strengthen fun _ _ h => h.1
  next hold =>
    have hle : t.revision ≤ (dep.streams n).startRevision := not_lt.1 hold
    split
    next hterminal =>
      refine Safe.ret fun c _ h => ?_
      exact finishes_of_hasRead h.1.2 hterminal (Or.inr hle)
    next =>
      refine (safe_watch _).strengthen fun c _ h => ⟨h.1.1, h.2.1, ?_⟩
      intro x hx latest hannounces
      exact (h.2.2 x hx latest hannounces).imp (fun hlatest => hlatest.trans hle) id

/-- What is known of the first reading of the clock. -/
def FirstReading (r : StreamRequest) (n : Nat) :
    Except JobException Int → StreamConfig → Prop
  | .ok started => fun c =>
      StreamPosition r started r.startRevision (ownCalls c.history (.stream n))
  | .error _ => fun _ => True

theorem safe_firstReading :
    Safe (streamMachine store) dep.discipline (.stream n) (streamCall .monotonic)
      (fun c => ownCalls c.history (.stream n) = [])
      (Outcome (fun started => FirstReading r n (.ok started)) fun _ _ => True) := by
  refine (Safe.perform_post (B := FirstReading r n) ?_ ?_).weaken
    fun outcome c _ h => ?_
  · rintro (_ | started)
    · exact .const True
    · exact stable_position
  · intro c result after _ hfirst _ _
    refine ⟨Streaming.goal_of_none rfl, fun rest _ => ?_⟩
    rcases result with error | started
    · trivial
    · show StreamPosition _ _ _ (ownCalls _ _)
      rw [Config.perform_history, ownCalls_cons_self, hfirst]
      exact ⟨rfl, le_rfl, fun t ht => (nomatch ht), Or.inl rfl⟩
  · cases outcome with
    | ok started => exact h
    | error error => trivial

theorem safe_subscribe :
    Safe (streamMachine store) dep.discipline (.stream n)
      (streamCall (.subscribe n r.jobId)) (FirstReading r n (.ok started))
      (Outcome (fun _ => Following r n started r.startRevision)
        fun _ _ => True) := by
  refine (Safe.perform_post (B := Outcome (fun _ => Following r n started
    r.startRevision) fun _ _ => True) ?_ ?_)
  · rintro (_ | _)
    · exact .const True
    · exact stable_following
  · rintro c result after _ hposition ⟨⟨job, clock⟩, hexec⟩ _
    refine ⟨⟨?_, ?_, ?_⟩, fun rest _ => ?_⟩
    · rintro m hm
      exact congrArg StreamActor.stream (Option.some.inj hm)
    · rintro m s ⟨⟩
    · rintro m ⟨⟩
    cases job with
    | interrupt reason =>
        obtain ⟨rfl, _⟩ := Prod.mk.inj (Option.some.inj hexec)
        trivial
    | proceed reply =>
        obtain ⟨rfl, rfl⟩ := Prod.mk.inj (Option.some.inj hexec)
        refine ⟨?_, ⟨r.jobId, [.subscribed]⟩, ?_, rfl⟩
        · rw [Config.perform_history, ownCalls_cons_self]
          exact StreamPosition.quiet hposition rfl
        · simp [StreamWorld.connect]

/-- The end of the subscription changes nothing of what a stream has seen. -/
theorem safe_unsubscribe (outcome : Except JobException Unit) :
    Safe (streamMachine store) dep.discipline (.stream n)
      (streamCall (.unsubscribe n)) (Finishes r n outcome)
      fun _ => Finishes r n outcome := by
  have hstable : Stable (streamMachine store) dep.discipline (.stream n)
      (Finishes r n outcome) := by
    cases outcome with
    | ok value => exact stable_position (P := fun own => SawEnd r own ∨ TimedOut r own)
    | error error => exact .const True
  refine Safe.perform_post (fun _ => hstable) ?_
  intro c result after _ hfinishes _ _
  refine ⟨⟨?_, ?_, ?_⟩, fun rest _ => ?_⟩
  · rintro m hm
    exact congrArg StreamActor.stream (Option.some.inj hm)
  · rintro m s ⟨⟩
  · rintro m ⟨⟩
  cases outcome with
  | error error => trivial
  | ok value =>
      show SawEnd r (ownCalls _ _) ∨ TimedOut r (ownCalls _ _)
      rw [Config.perform_history, ownCalls_cons_self]
      exact hfinishes.imp (fun h => h.cons rfl) fun h => h.cons

theorem safe_streamJobStates :
    Safe (streamMachine store) dep.discipline (.stream n)
      ((dep.streams n).streamJobStates n)
      (fun c => ownCalls c.history (.stream n) = [])
      (Finishes (dep.streams n) n) := by
  refine Safe.bind (safe_firstReading (r := dep.streams n)) fun started => ?_
  refine Safe.bind safe_subscribe fun _ => ?_
  refine Safe.ensuring safe_follow fun outcome => ?_
  refine (safe_unsubscribe outcome).weaken fun result c _ h => ?_
  cases result with
  | ok value => exact h
  | error error => trivial

theorem Streaming.safeAt (i : StreamActor) :
    SafeAt (streamMachine store) dep.discipline
      (start StreamWorld.initial dep.pool) i := by
  cases i with
  | stream n =>
      exact .of_safe (stable_position (P := fun own => own = [])) rfl
        safe_streamJobStates
  | client n =>
      refine .of_safe (Q := fun _ _ => True) (.const True) trivial ?_
      have hjobs : (onJobs (dep.clients n)).OnlyCalls
          fun op : StreamOp => op.stream = none := by
        refine Program.OnlyCalls.interpret (fun op => ?_) _
        exact Program.onlyCalls_perform (show StreamOp.stream (.job op) = none from rfl)
      exact Safe.of_calls hjobs fun c op result after hop _ _ _ =>
        Streaming.goal_of_none hop

end Streams

section Runs

variable {store : DurableJobStore}

/-- In every run, a stream yields stored states of rising revisions above the one
from which it has started, it beats only when nothing newer was published before
its wait has ended, or after the confirmation of its own subscription, and it ends
by itself only at a terminal state or after its time. -/
theorem stream_yields_rising_states (dep : Streaming) {c : StreamConfig}
    (hrun : Run (streamMachine store) Anything
      (start StreamWorld.initial dep.pool) c)
    {e : StreamEvent} {rest : StreamProc Unit}
    (hen : Enabled (streamMachine store) Anything c e rest) (n : Nat) :
    (∀ s, e.op = .emit n (.state s) → YieldsNext (dep.streams n) n s c) ∧
    (e.op = .emit n .heartbeat → WaitedWell (dep.streams n) n c) ∧
    (e.actor = .stream n → rest = .ret () →
      SawEnd (dep.streams n) (ownCalls (e :: c.history) (.stream n)) ∨
        TimedOut (dep.streams n) (ownCalls (e :: c.history) (.stream n))) := by
  have hstart : dep.discipline.inv (start StreamWorld.initial dep.pool) :=
    ⟨statesStored_initial, fun x hx => (nomatch hx)⟩
  have hgoal := dep.discipline.goal_of_run Streaming.discipline_kept hstart
    Streaming.safeAt hrun hen
  refine ⟨hgoal.2.1 n, hgoal.2.2 n, fun hactor hret => ?_⟩
  have hensures : Ensures (streamMachine store) dep.discipline
      (start StreamWorld.initial dep.pool) (.stream n)
      (Finishes (dep.streams n) n) :=
    ⟨_, stable_position (P := fun own => own = []), rfl, safe_streamJobStates⟩
  exact dep.discipline.returns_of_run Streaming.discipline_kept hstart
    Streaming.safeAt hrun hensures hen hactor hret

/-- Every stream asks for the sample job; one client registers it and another one
moves it on. -/
def sampleStreaming : Streaming where
  streams _ := ⟨1, 0, 1000, 5⟩
  clients
    | 0 => do let _ ← Client.registerJob sampleRegistration
    | 1 => do let _ ← Client.transition sampleRunning
    | _ => return ()

/-- Every call goes through, and the clock stands still. -/
def steady : StreamAnswer := ⟨quiet, 0⟩

/-- The sample job is registered, and a stream yields its state and, after the
confirmation of its subscription, a heartbeat. -/
def firstYields (store : DurableJobStore) :
    List (Move (streamMachine store) StreamActor) :=
  .act (.client 0) steady :: List.replicate 7 (.act (.stream 0) steady)

theorem quiet_stream_beats :
    ∃ (c : StreamConfig) (e : StreamEvent) (rest : StreamProc Unit),
      Run (streamMachine sampleStore) Anything
        (start StreamWorld.initial sampleStreaming.pool) c ∧
      Enabled (streamMachine sampleStore) Anything c e rest ∧
      e.op = .emit 0 .heartbeat ∧ WaitedWell (sampleStreaming.streams 0) 0 c := by
  have hplay : (play (fun _ _ => true) (firstYields sampleStore ++
      List.replicate 2 (.act (.stream 0) steady))
      (start StreamWorld.initial sampleStreaming.pool)).any (fun c =>
        (nextCall (streamMachine sampleStore) (fun _ _ => true) c (.stream 0)
          steady).any fun p => StreamOp.beats 0 p.1.op) = true := by
    decide
  obtain ⟨c, hrun, htest⟩ := exists_run_of_play (fun _ _ _ => trivial) hplay
  obtain ⟨e, rest, hen, htest⟩ :=
    exists_enabled_of_nextCall (fun _ _ _ => trivial) htest
  have hop := StreamOp.eq_of_beats htest
  exact ⟨c, e, rest, hrun, hen, hop,
    (stream_yields_rising_states sampleStreaming hrun hen 0).2.1 hop⟩

/-- A transition is committed, and its process crashes before it has published:
the stream beats, although it has yielded an older revision only. -/
theorem stream_beats_over_unpublished_commit :
    ∃ (c : StreamConfig) (e : StreamEvent) (rest : StreamProc Unit) (s : JobState),
      Run (streamMachine sampleStore) Anything
        (start StreamWorld.initial sampleStreaming.pool) c ∧
      Enabled (streamMachine sampleStore) Anything c e rest ∧
      e.op = .emit 0 .heartbeat ∧
      c.state.jobs.redis.states.get 1 = some s ∧
      (sampleStreaming.streams 0).startRevision < s.revision ∧
      ∀ t ∈ emittedStates (ownCalls c.history (.stream 0)),
        t.revision < s.revision := by
  have hplay : (play (fun _ _ => true) (firstYields sampleStore ++
      [.act (.client 1) steady, .crash (.client 1), .act (.stream 0) steady,
        .act (.stream 0) steady])
      (start StreamWorld.initial sampleStreaming.pool)).any (fun c =>
        (c.state.jobs.redis.states.get 1).any (fun s =>
          decide (s.revision = 2)) &&
        (emittedStates (ownCalls c.history (.stream 0))).all (fun t =>
          decide (t.revision < 2)) &&
        (nextCall (streamMachine sampleStore) (fun _ _ => true) c (.stream 0)
          steady).any fun p => StreamOp.beats 0 p.1.op) = true := by
    decide
  obtain ⟨c, hrun, htest⟩ := exists_run_of_play (fun _ _ _ => trivial) hplay
  simp only [Bool.and_eq_true] at htest
  obtain ⟨⟨hstate, hemitted⟩, hcall⟩ := htest
  obtain ⟨s, hs, hrevision⟩ := Option.any_eq_true _ _ |>.1 hstate
  have hsecond : s.revision = 2 := of_decide_eq_true hrevision
  obtain ⟨e, rest, hen, htest⟩ :=
    exists_enabled_of_nextCall (fun _ _ _ => trivial) hcall
  refine ⟨c, e, rest, s, hrun, hen, StreamOp.eq_of_beats htest, hs, ?_, fun t ht => ?_⟩
  · rw [hsecond]
    decide
  · rw [hsecond]
    exact of_decide_eq_true (List.all_eq_true.1 hemitted t ht)

end Runs

end SearchTrust.Jobs
