/-
Interleaved lookups on one object.  A call holds the lock of its case and domain until
it ends; the provider's hooks work on the stored ledger.
-/
import Mathlib.Data.List.Nodup
import Mathlib.Logic.Function.Basic
import Mathlib.Logic.Relation
import SearchTrust.Identity.LookupEvidence

namespace SearchTrust.Identity

/-- A call that waits for the provider, and the request as it was passed. -/
structure LookupCall where
  asked : GbpIdentityRequest
  state : Asking

/-- The object, with the calls that hold a lock and what has happened so far: the
attempts that `persist_ledger` has reserved, the requests sent and the results. -/
structure Lookups where
  ledgers : LookupKey → Option GbpLookupLedger
  running : LookupKey → Option LookupCall
  reserved : LookupKey → List Nat
  sent : LookupKey → List Nat
  results : List (GbpIdentityRequest × GbpIdentityResult)

/-- The call of a request that still waits. -/
def Progress.call (asked : GbpIdentityRequest) : Progress → Option LookupCall
  | .finished _ => none
  | .asking state => some ⟨asked, state⟩

def Progress.results (asked : GbpIdentityRequest) :
    Progress → List (GbpIdentityRequest × GbpIdentityResult)
  | .finished result => [(asked, result)]
  | .asking _ => []

def ProviderEvent.noteReserved (reserved : List Nat) : ProviderEvent → List Nat
  | .reserved number true => number :: reserved
  | _ => reserved

def ProviderEvent.noteSent (sent : List Nat) : ProviderEvent → List Nat
  | .send number => number :: sent
  | _ => sent

/-- A new object. -/
def Lookups.initial : Lookups where
  ledgers _ := none
  running _ := none
  reserved _ := []
  sent _ := []
  results := []

namespace Lookups

/-- `self._ledgers[key] = ledger`. -/
def store (s : Lookups) (key : LookupKey) (ledger : GbpLookupLedger) : Lookups :=
  { s with ledgers := Function.update s.ledgers key (some ledger) }

/-- What an event of the provider adds to the record. -/
def note (s : Lookups) (key : LookupKey) (event : ProviderEvent) : Lookups :=
  { s with
    reserved := Function.update s.reserved key (event.noteReserved (s.reserved key))
    sent := Function.update s.sent key (event.noteSent (s.sent key)) }

/-- The call goes on, or ends and frees the lock. -/
def settle (s : Lookups) (key : LookupKey) (asked : GbpIdentityRequest) (progress : Progress) :
    Lookups :=
  { s with
    running := Function.update s.running key (progress.call asked)
    results := progress.results asked ++ s.results }

end Lookups

/-- One step of the interleaving. -/
inductive LookupEvent where
  /-- A call takes the lock, and runs until it waits for the provider or ends. -/
  | call (request : GbpIdentityRequest) (ledger : Option GbpLookupLedger)
  | provider (key : LookupKey) (event : ProviderEvent)
  /-- The task of a call is cancelled while it waits. -/
  | cancelled (key : LookupKey)

section Steps

variable (lib : LookupLibrary) (settings : LookupSettings)

/-- The object after an event; `none` where the event cannot happen. -/
def Lookups.step (s : Lookups) : LookupEvent → Option Lookups
  | .call request passed =>
      let key := lookupKey lib request
      if (s.running key).isSome then none
      else
        match chooseLedger lib request (s.ledgers key) passed with
        | .error _ => some s
        | .ok (domain, ledger) =>
            some ((s.store key ledger).settle key request
              (beginLookup lib settings request domain ledger))
  | .provider key event =>
      match s.running key, s.ledgers key with
      | some call, some ledger =>
          (advance lib settings call.state ledger event).map fun next =>
            ((s.store key next.1).note key event).settle key call.asked next.2
      | _, _ => none
  | .cancelled key =>
      if (s.running key).isSome then
        some { s with running := Function.update s.running key none }
      else none

/-- The object after a sequence of events. -/
def Lookups.runs (s : Lookups) : List LookupEvent → Option Lookups
  | [] => some s
  | event :: rest => (s.step lib settings event).bind fun next => next.runs rest

/-- The object can come to this state. -/
def Reachable (s : Lookups) : Prop :=
  ∃ events, Lookups.initial.runs lib settings events = some s

end Steps

section Extension

/-- What a recorded attempt never loses: its number and its stage. -/
def LookupAttempt.mark (attempt : LookupAttempt) : Nat × LookupStage :=
  (attempt.number, attempt.stage)

/-- No attempt of the first ledger is dropped or renumbered in the second. -/
def GbpLookupLedger.Extends (ledger next : GbpLookupLedger) : Prop :=
  ledger.attempts.map LookupAttempt.mark <+: next.attempts.map LookupAttempt.mark

theorem GbpLookupLedger.extends_of_marks {ledger next : GbpLookupLedger}
    (h : next.attempts.map LookupAttempt.mark = ledger.attempts.map LookupAttempt.mark) :
    ledger.Extends next :=
  ⟨[], by rw [List.append_nil, h]⟩

theorem GbpLookupLedger.Extends.refl (ledger : GbpLookupLedger) : ledger.Extends ledger :=
  List.prefix_refl _

theorem GbpLookupLedger.Extends.trans {a b c : GbpLookupLedger} (hab : a.Extends b)
    (hbc : b.Extends c) : a.Extends c := List.IsPrefix.trans hab hbc

theorem GbpLookupLedger.Extends.length_le {a b : GbpLookupLedger} (h : a.Extends b) :
    a.attempts.length ≤ b.attempts.length := by
  have hlen := List.IsPrefix.length_le h
  rwa [List.length_map, List.length_map] at hlen

/-- The attempts of a ledger are numbered from one on, and there are at most three. -/
structure GbpLookupLedger.Numbered (ledger : GbpLookupLedger) : Prop where
  bound : ledger.attempts.length ≤ attemptLimit
  numbers : ledger.attempts.map LookupAttempt.number = List.range' 1 ledger.attempts.length

theorem GbpLookupLedger.numbered_of_accepted {ledger : GbpLookupLedger}
    (h : ledger.accepted = true) : ledger.Numbered := by
  rw [accepted, Bool.and_eq_true, decide_eq_true_eq, decide_eq_true_eq] at h
  exact ⟨h.1, h.2⟩

/-- Marks decide the numbers. -/
theorem numbers_of_marks {attempts next : List LookupAttempt}
    (h : next.map LookupAttempt.mark = attempts.map LookupAttempt.mark) :
    next.map LookupAttempt.number = attempts.map LookupAttempt.number := by
  have hfst := congrArg (List.map Prod.fst) h
  rwa [List.map_map, List.map_map] at hfst

/-- A change of outcomes alone. -/
theorem GbpLookupLedger.Numbered.of_marks {ledger next : GbpLookupLedger}
    (h : ledger.Numbered)
    (hmarks : next.attempts.map LookupAttempt.mark = ledger.attempts.map LookupAttempt.mark) :
    next.Numbered := by
  have hlen : next.attempts.length = ledger.attempts.length := by
    have := congrArg List.length hmarks
    rwa [List.length_map, List.length_map] at this
  exact ⟨hlen ▸ h.bound, by rw [numbers_of_marks hmarks, hlen, h.numbers]⟩

theorem setLastOutcome_marks (outcome : AttemptOutcome) (attempts : List LookupAttempt) :
    (setLastOutcome outcome attempts).map LookupAttempt.mark =
      attempts.map LookupAttempt.mark := by
  induction attempts using setLastOutcome.induct with
  | case1 => rfl
  | case2 attempt => rfl
  | case3 attempt next rest ih =>
      rw [setLastOutcome, List.map_cons, ih, List.map_cons, List.map_cons, List.map_cons]

theorem interruptFrom_marks (start : Nat) (attempts : List LookupAttempt) :
    (interruptFrom start attempts).map LookupAttempt.mark =
      attempts.map LookupAttempt.mark := by
  have hdropped : ((attempts.drop start).map fun attempt =>
      if attempt.outcome = .started then { attempt with outcome := .interrupted }
      else attempt).map LookupAttempt.mark = (attempts.drop start).map LookupAttempt.mark := by
    rw [List.map_map]
    refine List.map_congr_left fun attempt _ => ?_
    rw [Function.comp_apply]
    split
    · rfl
    · rfl
  rw [interruptFrom, List.map_append, hdropped, ← List.map_append, List.take_append_drop]

/-- `before_attempt` appends the next number. -/
theorem GbpLookupLedger.Numbered.append {ledger : GbpLookupLedger} (h : ledger.Numbered)
    (hroom : ¬ attemptLimit ≤ ledger.attempts.length) (stage : LookupStage) :
    ({ ledger with
      attempts := ledger.attempts ++ [⟨ledger.attempts.length + 1, stage, .started⟩] } :
        GbpLookupLedger).Numbered := by
  refine ⟨?_, ?_⟩
  · rw [List.length_append, List.length_singleton]
    omega
  · rw [List.map_append, h.numbers, List.length_append, List.length_singleton,
      List.range'_concat]
    simp [Nat.add_comm]

end Extension

section Counting

/-- The attempts whose hook has returned and whose request was not sent. -/
def Progress.permits : Progress → List Nat
  | .finished _ => []
  | .asking state => state.permits

/-- The attempts whose hook waits. -/
def Progress.reserving : Progress → List Nat
  | .finished _ => []
  | .asking state => state.reserving

/-- Every request sent, allowed or being reserved is a recorded attempt of its own, and
none is allowed before it was reserved. -/
structure Counted (persists : Bool) (attempts : Nat)
    (sent permits reserving reserved : List Nat) : Prop where
  distinct : (sent ++ (permits ++ reserving)).Nodup
  recorded : ∀ n ∈ sent ++ (permits ++ reserving), 1 ≤ n ∧ n ≤ attempts
  held : persists = true → ∀ n ∈ sent ++ permits, n ∈ reserved

variable {persists : Bool} {attempts : Nat} {sent permits reserving reserved : List Nat}

theorem Counted.grow (h : Counted persists attempts sent permits reserving reserved) {more : Nat}
    (hle : attempts ≤ more) : Counted persists more sent permits reserving reserved :=
  ⟨h.distinct, fun n hn => ⟨(h.recorded n hn).1, (h.recorded n hn).2.trans hle⟩, h.held⟩

/-- The call ends: nothing is allowed any more. -/
theorem Counted.close (h : Counted persists attempts sent permits reserving reserved) :
    Counted persists attempts sent [] [] reserved := by
  refine ⟨?_, ?_, ?_⟩
  · rw [List.append_nil, List.append_nil]
    exact (List.nodup_append.1 h.distinct).1
  · intro n hn
    rw [List.append_nil, List.append_nil] at hn
    exact h.recorded n (List.mem_append_left _ hn)
  · intro hpersists n hn
    rw [List.append_nil] at hn
    exact h.held hpersists n (List.mem_append_left _ hn)

/-- The next number is new. -/
theorem Counted.not_mem_next (h : Counted persists attempts sent permits reserving reserved) :
    attempts + 1 ∉ sent ++ (permits ++ reserving) := by
  intro hmem
  have hle := (h.recorded _ hmem).2
  omega

/-- `before_attempt` with a `persist_ledger` to wait for. -/
theorem Counted.reserve (h : Counted persists attempts sent permits reserving reserved) :
    Counted persists (attempts + 1) sent permits ((attempts + 1) :: reserving) reserved := by
  have hperm : (sent ++ (permits ++ (attempts + 1) :: reserving)).Perm
      ((attempts + 1) :: (sent ++ (permits ++ reserving))) := by
    rw [← List.append_assoc, ← List.append_assoc]
    exact List.perm_middle
  refine ⟨hperm.nodup_iff.2 (List.nodup_cons.2 ⟨h.not_mem_next, h.distinct⟩), ?_, h.held⟩
  intro n hn
  rcases List.mem_cons.1 (hperm.mem_iff.1 hn) with rfl | hold
  · omega
  · have hrange := h.recorded n hold
    omega

/-- `before_attempt` without a `persist_ledger`. -/
theorem Counted.permit (h : Counted false attempts sent permits reserving reserved) :
    Counted false (attempts + 1) sent ((attempts + 1) :: permits) reserving reserved := by
  have hperm : (sent ++ ((attempts + 1) :: permits ++ reserving)).Perm
      ((attempts + 1) :: (sent ++ (permits ++ reserving))) := List.perm_middle
  refine ⟨hperm.nodup_iff.2 (List.nodup_cons.2 ⟨h.not_mem_next, h.distinct⟩), ?_, Bool.noConfusion⟩
  intro n hn
  rcases List.mem_cons.1 (hperm.mem_iff.1 hn) with rfl | hold
  · omega
  · have hrange := h.recorded n hold
    omega

/-- `persist_ledger` has reserved an attempt. -/
theorem Counted.allow (h : Counted persists attempts sent permits reserving reserved) {n : Nat}
    (hn : n ∈ reserving) :
    Counted persists attempts sent (n :: permits) (reserving.erase n) (n :: reserved) := by
  have hmoved : (n :: permits ++ reserving.erase n).Perm (permits ++ reserving) :=
    List.perm_middle.symm.trans ((List.perm_cons_erase hn).symm.append_left permits)
  have hperm := hmoved.append_left sent
  refine ⟨hperm.nodup_iff.2 h.distinct, fun m hm => h.recorded m (hperm.mem_iff.1 hm), ?_⟩
  intro hpersists m hm
  rcases List.mem_append.1 hm with hsent | hpermits
  · exact List.mem_cons_of_mem _ (h.held hpersists m (List.mem_append_left _ hsent))
  · rcases List.mem_cons.1 hpermits with rfl | hold
    · exact List.mem_cons_self
    · exact List.mem_cons_of_mem _ (h.held hpersists m (List.mem_append_right _ hold))

/-- `persist_ledger` has refused an attempt. -/
theorem Counted.refuse (h : Counted persists attempts sent permits reserving reserved) (n : Nat) :
    Counted persists attempts sent permits (reserving.erase n) reserved := by
  have hsub : (sent ++ (permits ++ reserving.erase n)).Sublist (sent ++ (permits ++ reserving)) :=
    (List.Sublist.refl sent).append ((List.Sublist.refl permits).append List.erase_sublist)
  exact ⟨h.distinct.sublist hsub, fun m hm => h.recorded m (hsub.subset hm), h.held⟩

/-- A request is sent. -/
theorem Counted.send (h : Counted persists attempts sent permits reserving reserved) {n : Nat}
    (hn : n ∈ permits) :
    Counted persists attempts (n :: sent) (permits.erase n) reserving reserved := by
  have hmoved : (n :: (permits.erase n ++ reserving)).Perm (permits ++ reserving) :=
    (List.perm_cons_erase hn).symm.append_right reserving
  have hperm : (n :: sent ++ (permits.erase n ++ reserving)).Perm
      (sent ++ (permits ++ reserving)) :=
    List.perm_middle.symm.trans (hmoved.append_left sent)
  refine ⟨hperm.nodup_iff.2 h.distinct, fun m hm => h.recorded m (hperm.mem_iff.1 hm), ?_⟩
  intro hpersists m hm
  rw [List.cons_append, List.mem_cons, List.mem_append] at hm
  rcases hm with rfl | hsent | hpermits
  · exact h.held hpersists m (List.mem_append_right _ hn)
  · exact h.held hpersists m (List.mem_append_left _ hsent)
  · exact h.held hpersists m (List.mem_append_right _ (List.mem_of_mem_erase hpermits))

/-- At most three requests are sent. -/
theorem Counted.length_sent_le (h : Counted persists attempts sent permits reserving reserved) :
    sent.length ≤ attempts := by
  have hsent : sent.Nodup := (List.nodup_append.1 h.distinct).1
  have hsubset : sent ⊆ List.range' 1 attempts := by
    intro n hn
    have hrange := h.recorded n (List.mem_append_left _ hn)
    rw [List.mem_range'_1]
    omega
  have hle := (List.subperm_of_subset hsent hsubset).length_le
  rwa [List.length_range'] at hle

end Counting

section Turns

variable {lib : LookupLibrary} {settings : LookupSettings}

/-- A turn that begins to ask has no attempt yet. -/
theorem askNext_permits (e : Evidence) (ledger : GbpLookupLedger)
    (queue : List (LookupStage × LookupQuery)) :
    (askNext e ledger queue).permits = [] ∧ (askNext e ledger queue).reserving = [] := by
  cases queue with
  | nil => exact ⟨rfl, rfl⟩
  | cons entry rest =>
      rw [askNext]
      split
      · exact ⟨rfl, rfl⟩
      · exact ⟨rfl, rfl⟩

theorem settleOr_permits (e : Evidence) (ledger : GbpLookupLedger) {rest : Progress}
    (h : rest.permits = [] ∧ rest.reserving = []) :
    (settleOr e ledger rest).permits = [] ∧ (settleOr e ledger rest).reserving = [] := by
  rw [settleOr]
  split
  · exact ⟨rfl, rfl⟩
  · exact h

theorem beginLookup_permits (request : GbpIdentityRequest) (domain : String)
    (ledger : GbpLookupLedger) :
    (beginLookup lib settings request domain ledger).permits = [] ∧
      (beginLookup lib settings request domain ledger).reserving = [] := by
  refine settleOr_permits _ _ ?_
  rw [afterCache]
  split
  · exact ⟨rfl, rfl⟩
  · split
    · exact ⟨rfl, rfl⟩
    · split
      · exact ⟨rfl, rfl⟩
      · exact askNext_permits _ _ _

/-- What a turn does to the ledger and to the attempts that are open. -/
structure Turn (settings : LookupSettings) (state : Asking) (ledger : GbpLookupLedger)
    (event : ProviderEvent) (next : GbpLookupLedger) (progress : Progress) : Prop where
  numbered : ledger.Numbered → next.Numbered
  extends_ : ledger.Extends next
  counted : ∀ sent reserved, Counted settings.persists ledger.attempts.length sent state.permits
      state.reserving reserved →
    Counted settings.persists next.attempts.length (event.noteSent sent) progress.permits
      progress.reserving (event.noteReserved reserved)

/-- A turn that changes outcomes alone and ends the call or begins the next request. -/
theorem Turn.of_close {state : Asking} {ledger next : GbpLookupLedger} {event : ProviderEvent}
    {progress : Progress}
    (hmarks : next.attempts.map LookupAttempt.mark = ledger.attempts.map LookupAttempt.mark)
    (hevent : ∀ numbers, event.noteSent numbers = numbers ∧ event.noteReserved numbers = numbers)
    (hprogress : progress.permits = [] ∧ progress.reserving = []) :
    Turn settings state ledger event next progress := by
  refine ⟨fun h => h.of_marks hmarks, ?_, ?_⟩
  · exact GbpLookupLedger.extends_of_marks hmarks
  · intro sent reserved h
    have hlen : next.attempts.length = ledger.attempts.length := by
      have hlengths := congrArg List.length hmarks
      rwa [List.length_map, List.length_map] at hlengths
    rw [(hevent sent).1, (hevent reserved).2, hprogress.1, hprogress.2, hlen]
    exact h.close

theorem interrupted_turn {state : Asking} {ledger : GbpLookupLedger} {event : ProviderEvent}
    (hevent : ∀ numbers, event.noteSent numbers = numbers ∧ event.noteReserved numbers = numbers) :
    Turn settings state ledger event (interrupted state.evidence state.attemptStart ledger).1
      (interrupted state.evidence state.attemptStart ledger).2 :=
  Turn.of_close (interruptFrom_marks _ _) hevent ⟨rfl, rfl⟩

theorem respond_turn {state : Asking} {ledger : GbpLookupLedger} {payload : Market.Value}
    {checksum : String} {now : Jobs.Instant} :
    Turn settings state ledger (.respond payload checksum now)
      (respond lib state ledger payload checksum now).1
      (respond lib state ledger payload checksum now).2 := by
  have hevent : ∀ numbers,
      (ProviderEvent.respond payload checksum now).noteSent numbers = numbers ∧
        (ProviderEvent.respond payload checksum now).noteReserved numbers = numbers :=
    fun _ => ⟨rfl, rfl⟩
  rw [respond]
  split
  · exact Turn.of_close rfl hevent ⟨rfl, rfl⟩
  · split
    · exact Turn.of_close rfl hevent ⟨rfl, rfl⟩
    · split
      · exact interrupted_turn hevent
      · exact Turn.of_close rfl hevent (settleOr_permits _ _ (askNext_permits _ _ _))

/-- `before_attempt` while there is room. -/
theorem before_turn {state : Asking} {ledger : GbpLookupLedger}
    (hroom : ¬ attemptLimit ≤ ledger.attempts.length) :
    Turn settings state ledger .before
      { ledger with
        attempts := ledger.attempts ++ [⟨ledger.attempts.length + 1, state.stage, .started⟩] }
      (.asking <|
        if settings.persists then
          { state with reserving := (ledger.attempts.length + 1) :: state.reserving }
        else { state with permits := (ledger.attempts.length + 1) :: state.permits }) := by
  refine ⟨fun h => h.append hroom state.stage, ?_, ?_⟩
  · rw [GbpLookupLedger.Extends, List.map_append]
    exact List.prefix_append _ _
  · intro sent reserved h
    rw [List.length_append, List.length_singleton]
    cases hpersists : settings.persists with
    | false =>
        rw [hpersists] at h
        exact h.permit
    | true =>
        rw [hpersists] at h
        exact h.reserve

theorem advance_turn {state : Asking} {ledger next : GbpLookupLedger} {event : ProviderEvent}
    {progress : Progress} (h : advance lib settings state ledger event = some (next, progress)) :
    Turn settings state ledger event next progress := by
  cases event with
  | before =>
      rw [advance] at h
      split at h
      · cases h
        exact ⟨id, .refl _, fun _ _ hcounted => hcounted⟩
      · next hroom =>
          cases h
          exact before_turn hroom
  | reserved number ok =>
      rw [advance] at h
      split at h
      · next hmem =>
          cases h
          refine ⟨id, .refl _, fun sent reserved hcounted => ?_⟩
          cases ok with
          | true => exact hcounted.allow hmem
          | false => exact hcounted.refuse number
      · cases h
  | send number =>
      rw [advance] at h
      split at h
      · next hmem =>
          cases h
          exact ⟨id, .refl _, fun sent reserved hcounted => hcounted.send hmem⟩
      · cases h
  | after failed =>
      cases h
      have hmarks := setLastOutcome_marks (if failed then .failed else .success) ledger.attempts
      refine ⟨fun hnumbered => hnumbered.of_marks hmarks, ?_, fun sent reserved hcounted => ?_⟩
      · exact GbpLookupLedger.extends_of_marks hmarks
      · refine hcounted.grow (le_of_eq ?_)
        have hlengths := congrArg List.length hmarks
        rwa [List.length_map, List.length_map, eq_comm] at hlengths
  | respond payload checksum now =>
      rw [advance, Option.some.injEq] at h
      have hturn : Turn settings state ledger (.respond payload checksum now)
          (respond lib state ledger payload checksum now).1
          (respond lib state ledger payload checksum now).2 := respond_turn
      rwa [h] at hturn
  | exhausted =>
      rw [advance] at h
      split at h
      · cases h
        exact Turn.of_close rfl (fun _ => ⟨rfl, rfl⟩) ⟨rfl, rfl⟩
      · cases h
  | raised =>
      cases h
      exact interrupted_turn fun _ => ⟨rfl, rfl⟩

/-- The ledger of a lookup keeps what was recorded before it. -/
theorem chooseLedger_ok {request : GbpIdentityRequest} {previous passed : Option GbpLookupLedger}
    {domain : String} {ledger : GbpLookupLedger}
    (h : chooseLedger lib request previous passed = .ok (domain, ledger)) :
    ledger.Numbered ∧ ∀ stored, previous = some stored → stored.Extends ledger := by
  rw [chooseLedger] at h
  split at h
  · cases h
  · next hkept =>
      split at h
      · cases h
      · split at h
        · cases h
        · simp only at h
          split at h
          · cases h
          · next haccepted =>
              split at h
              · cases h
              · obtain ⟨-, rfl⟩ := Prod.mk.inj (Except.ok.inj h)
                refine ⟨GbpLookupLedger.numbered_of_accepted (by simpa using haccepted), ?_⟩
                intro stored hstored
                subst hstored
                cases passed with
                | none => exact .refl _
                | some ledger =>
                    have htake : ledger.attempts.take stored.attempts.length =
                        stored.attempts := by
                      simpa [discardsAttempts] using hkept
                    have hprefix : stored.attempts <+: ledger.attempts := by
                      rw [← htake]
                      exact List.take_prefix _ _
                    exact hprefix.map LookupAttempt.mark

end Turns

section Conclusions

variable {lib : LookupLibrary} {settings : LookupSettings}

/-- Evidence that settles nothing, drawn from the saved records of a request. -/
structure Unsettled (lib : LookupLibrary) (asked : GbpIdentityRequest) (e : Evidence) : Prop where
  selected : e.request.selectedBranchRef = asked.selectedBranchRef
  none_counts : ∀ c ∈ e.decisions, c.counts = false
  saved : ∀ record ∈ freshRecords [] asked.savedRecords,
    assessCandidate lib asked record ∈ e.decisions

/-- A call that waits has settled nothing, and one that has ended is justified. -/
def Progress.Sound (lib : LookupLibrary) (asked : GbpIdentityRequest) : Progress → Prop
  | .finished result => Evidence.Justified asked.selectedBranchRef result
  | .asking state => Unsettled lib asked state.evidence

theorem askNext_sound {asked : GbpIdentityRequest} {e : Evidence} (h : Unsettled lib asked e)
    (ledger : GbpLookupLedger) (queue : List (LookupStage × LookupQuery)) :
    (askNext e ledger queue).Sound lib asked := by
  cases queue with
  | nil => exact Evidence.notFound_justified _ _ _
  | cons entry rest =>
      rw [askNext]
      split
      · exact Evidence.stopped_justified _ _ _ _
      · exact ⟨h.selected, h.none_counts, h.saved⟩

theorem settleOr_sound {asked : GbpIdentityRequest} {e : Evidence} {ledger : GbpLookupLedger}
    {rest : Progress} (hselected : e.request.selectedBranchRef = asked.selectedBranchRef)
    (h : e.resolved = none → rest.Sound lib asked) : (settleOr e ledger rest).Sound lib asked := by
  rw [settleOr]
  split
  · next hresolved =>
      have hjustified := Evidence.resolved_justified hresolved ledger
      rwa [hselected] at hjustified
  · next hresolved => exact h hresolved

theorem beginLookup_sound (lib : LookupLibrary) (settings : LookupSettings)
    (request : GbpIdentityRequest) (domain : String) (ledger : GbpLookupLedger) :
    (beginLookup lib settings request domain ledger).Sound lib request := by
  have hrequest := Evidence.add_request lib { request } request.savedRecords
  refine settleOr_sound (by rw [hrequest]) fun hresolved => ?_
  have hnone := Evidence.resolved_eq_none hresolved
  have hunsettled : Unsettled lib request
      { Evidence.add lib { request } request.savedRecords with
        stages :=
          (Evidence.add lib { request } request.savedRecords).stages ++ ["saved_link"] } := by
    refine ⟨by rw [hrequest], hnone, ?_⟩
    intro record hrecord
    rw [Evidence.add_decisions, List.nil_append]
    exact List.mem_map_of_mem hrecord
  rw [afterCache]
  split
  · exact Evidence.stopped_justified _ _ _ _
  · split
    · exact Evidence.stopped_justified _ _ _ _
    · split
      · exact Evidence.stopped_justified _ _ _ _
      · exact askNext_sound hunsettled _ _

theorem respond_sound {asked : GbpIdentityRequest} {state : Asking}
    (h : Unsettled lib asked state.evidence) (ledger : GbpLookupLedger) (payload : Market.Value)
    (checksum : String) (now : Jobs.Instant) :
    (respond lib state ledger payload checksum now).2.Sound lib asked := by
  rw [respond]
  split
  · exact Evidence.stopped_justified _ _ _ _
  · split
    · exact Evidence.stopped_justified _ _ _ _
    · split
      · exact Evidence.stopped_justified _ _ _ _
      · refine settleOr_sound (by rw [Evidence.add_request]; exact h.selected) fun hresolved => ?_
        refine askNext_sound ⟨by rw [Evidence.add_request]; exact h.selected,
          Evidence.resolved_eq_none hresolved, ?_⟩ _ _
        intro record hrecord
        rw [Evidence.add_decisions]
        exact List.mem_append_left _ (h.saved record hrecord)

theorem advance_sound {asked : GbpIdentityRequest} {state : Asking} {ledger next : GbpLookupLedger}
    {event : ProviderEvent} {progress : Progress} (h : Unsettled lib asked state.evidence)
    (hadvance : advance lib settings state ledger event = some (next, progress)) :
    progress.Sound lib asked := by
  cases event with
  | before =>
      rw [advance] at hadvance
      split at hadvance
      · cases hadvance
        exact h
      · cases hadvance
        split
        · exact ⟨h.selected, h.none_counts, h.saved⟩
        · exact ⟨h.selected, h.none_counts, h.saved⟩
  | reserved number ok =>
      rw [advance] at hadvance
      split at hadvance
      · cases hadvance
        exact ⟨h.selected, h.none_counts, h.saved⟩
      · cases hadvance
  | send number =>
      rw [advance] at hadvance
      split at hadvance
      · cases hadvance
        exact ⟨h.selected, h.none_counts, h.saved⟩
      · cases hadvance
  | after failed =>
      cases hadvance
      exact h
  | respond payload checksum now =>
      rw [advance, Option.some.injEq] at hadvance
      have hsound := respond_sound h ledger payload checksum now
      rwa [hadvance] at hsound
  | exhausted =>
      rw [advance] at hadvance
      split at hadvance
      · cases hadvance
        exact Evidence.stopped_justified _ _ _ _
      · cases hadvance
  | raised =>
      cases hadvance
      exact Evidence.stopped_justified _ _ _ _

end Conclusions

section Invariant

namespace Lookups

/-- The attempts of the stored ledger. -/
def attemptCount (s : Lookups) (key : LookupKey) : Nat :=
  match s.ledgers key with
  | some ledger => ledger.attempts.length
  | none => 0

/-- The attempts that the running call of a key may send. -/
def permits (s : Lookups) (key : LookupKey) : List Nat :=
  match s.running key with
  | some call => call.state.permits
  | none => []

def reserving (s : Lookups) (key : LookupKey) : List Nat :=
  match s.running key with
  | some call => call.state.reserving
  | none => []

/-- What holds of one key in every state. -/
structure Sound (lib : LookupLibrary) (settings : LookupSettings) (s : Lookups)
    (key : LookupKey) : Prop where
  numbered : ∀ ledger, s.ledgers key = some ledger → ledger.Numbered
  counted : Counted settings.persists (s.attemptCount key) (s.sent key) (s.permits key)
    (s.reserving key) (s.reserved key)
  waiting : ∀ call, s.running key = some call →
    lookupKey lib call.asked = key ∧ Unsettled lib call.asked call.state.evidence

/-- Every result is justified. -/
def ResultsJustified (s : Lookups) : Prop :=
  ∀ entry ∈ s.results, Evidence.Justified entry.1.selectedBranchRef entry.2

section Updates

variable {lib : LookupLibrary} {settings : LookupSettings} {s : Lookups} {key other : LookupKey}
  {ledger : GbpLookupLedger} {asked : GbpIdentityRequest} {progress : Progress}

theorem settle_running_self :
    (s.settle key asked progress).running key = progress.call asked :=
  Function.update_self _ _ _

theorem settle_permits_self : (s.settle key asked progress).permits key = progress.permits := by
  rw [permits, settle_running_self]
  cases progress with
  | finished result => rfl
  | asking state => rfl

theorem settle_reserving_self :
    (s.settle key asked progress).reserving key = progress.reserving := by
  rw [reserving, settle_running_self]
  cases progress with
  | finished result => rfl
  | asking state => rfl

theorem settle_waiting (hsound : progress.Sound lib asked) (hkey : lookupKey lib asked = key)
    {call : LookupCall} (h : (s.settle key asked progress).running key = some call) :
    lookupKey lib call.asked = key ∧ Unsettled lib call.asked call.state.evidence := by
  rw [settle_running_self] at h
  cases progress with
  | finished result => cases h
  | asking state =>
      cases h
      exact ⟨hkey, hsound⟩

theorem settle_results (key : LookupKey) (hsound : progress.Sound lib asked)
    (h : s.ResultsJustified) :
    (s.settle key asked progress).ResultsJustified := by
  cases progress with
  | finished result =>
      intro entry hentry
      rcases List.mem_cons.1 hentry with rfl | hold
      · exact hsound
      · exact h entry hold
  | asking state => exact h

theorem attemptCount_store : (s.store key ledger).attemptCount key = ledger.attempts.length := by
  have hself : (s.store key ledger).ledgers key = some ledger := Function.update_self _ _ _
  rw [attemptCount, hself]

/-- Another key is left as it was. -/
theorem Sound.congr {next : Lookups} (h : s.Sound lib settings key)
    (hledgers : next.ledgers key = s.ledgers key) (hrunning : next.running key = s.running key)
    (hsent : next.sent key = s.sent key) (hreserved : next.reserved key = s.reserved key) :
    next.Sound lib settings key := by
  refine ⟨by rw [hledgers]; exact h.numbered, ?_, by rw [hrunning]; exact h.waiting⟩
  rw [attemptCount, permits, reserving, hledgers, hrunning, hsent, hreserved]
  exact h.counted

/-- A lookup begins: its ledger is stored, and nothing is open. -/
theorem Sound.begin (h : s.Sound lib settings key) (hidle : s.running key = none)
    (hkey : lookupKey lib asked = key) (hnumbered : ledger.Numbered)
    (hextends : ∀ stored, s.ledgers key = some stored → stored.Extends ledger)
    (hopen : progress.permits = [] ∧ progress.reserving = [])
    (hsound : progress.Sound lib asked) :
    ((s.store key ledger).settle key asked progress).Sound lib settings key := by
  have hgrow : s.attemptCount key ≤ ledger.attempts.length := by
    rw [attemptCount]
    split
    · next stored hstored => exact (hextends stored hstored).length_le
    · exact Nat.zero_le _
  have hcounted := h.counted
  rw [permits, reserving, hidle] at hcounted
  refine ⟨?_, ?_, fun call hcall => settle_waiting hsound hkey hcall⟩
  · intro stored hstored
    have hself : ((s.store key ledger).settle key asked progress).ledgers key = some ledger :=
      Function.update_self _ _ _
    rw [hself, Option.some.injEq] at hstored
    rwa [← hstored]
  · rw [settle_permits_self, settle_reserving_self, hopen.1, hopen.2]
    have hcount : ((s.store key ledger).settle key asked progress).attemptCount key =
        ledger.attempts.length := attemptCount_store
    rw [hcount]
    exact hcounted.grow hgrow

/-- A turn of the running lookup. -/
theorem Sound.turn {call : LookupCall} {event : ProviderEvent} {next : GbpLookupLedger}
    (h : s.Sound lib settings key) (hrunning : s.running key = some call)
    (hledger : s.ledgers key = some ledger)
    (hadvance : advance lib settings call.state ledger event = some (next, progress)) :
    (((s.store key next).note key event).settle key call.asked progress).Sound lib settings
      key := by
  have hturn := advance_turn hadvance
  have hwaiting := h.waiting call hrunning
  have hcounted := h.counted
  rw [permits, reserving, attemptCount, hrunning, hledger] at hcounted
  refine ⟨?_, ?_, fun call hcall =>
    settle_waiting (advance_sound hwaiting.2 hadvance) hwaiting.1 hcall⟩
  · intro stored hstored
    have hself : (((s.store key next).note key event).settle key call.asked progress).ledgers key =
        some next := Function.update_self _ _ _
    rw [hself, Option.some.injEq] at hstored
    rw [← hstored]
    exact hturn.numbered (h.numbered ledger hledger)
  · rw [settle_permits_self, settle_reserving_self]
    have hcount : (((s.store key next).note key event).settle key call.asked
        progress).attemptCount key = next.attempts.length := attemptCount_store
    have hsent : (((s.store key next).note key event).settle key call.asked progress).sent key =
        event.noteSent (s.sent key) := Function.update_self _ _ _
    have hreserved : (((s.store key next).note key event).settle key call.asked
        progress).reserved key = event.noteReserved (s.reserved key) := Function.update_self _ _ _
    rw [hcount, hsent, hreserved]
    exact hturn.counted _ _ hcounted

/-- A running call is cancelled. -/
theorem Sound.cancel (h : s.Sound lib settings key) :
    ({ s with running := Function.update s.running key none } : Lookups).Sound lib settings
      key := by
  have hidle : ({ s with running := Function.update s.running key none } : Lookups).running key =
      none := Function.update_self _ _ _
  refine ⟨h.numbered, ?_, ?_⟩
  · rw [permits, reserving, hidle]
    exact h.counted.close
  · intro call hcall
    rw [hidle] at hcall
    cases hcall

end Updates

variable {lib : LookupLibrary} {settings : LookupSettings}

theorem initial_sound (key : LookupKey) : initial.Sound lib settings key :=
  ⟨fun _ h => (Option.some_ne_none _ h.symm).elim,
    ⟨List.nodup_nil, fun _ h => (List.not_mem_nil h).elim, fun _ _ h => (List.not_mem_nil h).elim⟩,
    fun _ h => (Option.some_ne_none _ h.symm).elim⟩

/-- What one step does to every key. -/
structure StepSound (lib : LookupLibrary) (settings : LookupSettings) (s next : Lookups) :
    Prop where
  sound : ∀ key, next.Sound lib settings key
  results : s.ResultsJustified → next.ResultsJustified
  kept : ∀ key ledger, s.ledgers key = some ledger →
    ∃ stored, next.ledgers key = some stored ∧ ledger.Extends stored

/-- A step that stores a ledger under one key leaves the other keys as they were. -/
theorem StepSound.of_key {s next : Lookups} {key : LookupKey} {ledger : GbpLookupLedger}
    (h : ∀ key, s.Sound lib settings key) (hsound : next.Sound lib settings key)
    (hresults : s.ResultsJustified → next.ResultsJustified)
    (hledgers : next.ledgers = Function.update s.ledgers key (some ledger))
    (hextends : ∀ stored, s.ledgers key = some stored → stored.Extends ledger)
    (hothers : ∀ other, other ≠ key → next.running other = s.running other ∧
      next.sent other = s.sent other ∧ next.reserved other = s.reserved other) :
    StepSound lib settings s next := by
  refine ⟨?_, hresults, ?_⟩
  · intro other
    by_cases hother : other = key
    · rw [hother]
      exact hsound
    · obtain ⟨hrunning, hsent, hreserved⟩ := hothers other hother
      refine (h other).congr ?_ hrunning hsent hreserved
      rw [hledgers, Function.update_of_ne hother]
  · intro other stored hstored
    rw [hledgers]
    by_cases hother : other = key
    · subst hother
      exact ⟨ledger, Function.update_self _ _ _, hextends stored hstored⟩
    · rw [Function.update_of_ne hother]
      exact ⟨stored, hstored, .refl stored⟩

theorem call_sound {s next : Lookups} {request : GbpIdentityRequest}
    {passed : Option GbpLookupLedger} (h : ∀ key, s.Sound lib settings key)
    (hstep : s.step lib settings (.call request passed) = some next) :
    StepSound lib settings s next := by
  rw [step] at hstep
  split at hstep
  · cases hstep
  · next hidle =>
      have hnone : s.running (lookupKey lib request) = none := by simpa using hidle
      split at hstep
      · cases hstep
        exact ⟨h, id, fun key ledger hledger => ⟨ledger, hledger, .refl ledger⟩⟩
      · next domain ledger hchosen =>
          cases hstep
          obtain ⟨hnumbered, hextends⟩ := chooseLedger_ok hchosen
          have hsound := beginLookup_sound lib settings request domain ledger
          refine StepSound.of_key h
            ((h _).begin hnone rfl hnumbered hextends (beginLookup_permits _ _ _) hsound)
            (settle_results (lookupKey lib request) hsound) rfl hextends ?_
          intro other hother
          exact ⟨Function.update_of_ne hother _ _, rfl, rfl⟩

theorem provider_sound {s next : Lookups} {key : LookupKey} {event : ProviderEvent}
    (h : ∀ key, s.Sound lib settings key)
    (hstep : s.step lib settings (.provider key event) = some next) :
    StepSound lib settings s next := by
  rw [step] at hstep
  split at hstep
  · next call ledger hrunning hledger =>
      rw [Option.map_eq_some_iff] at hstep
      obtain ⟨⟨stored, progress⟩, hadvance, rfl⟩ := hstep
      have hwaiting := (h key).waiting call hrunning
      refine StepSound.of_key h ((h key).turn hrunning hledger hadvance)
        (settle_results key (advance_sound hwaiting.2 hadvance)) rfl ?_ ?_
      · intro old hold
        rw [hledger, Option.some.injEq] at hold
        rw [← hold]
        exact (advance_turn hadvance).extends_
      · intro other hother
        exact ⟨Function.update_of_ne hother _ _, Function.update_of_ne hother _ _,
          Function.update_of_ne hother _ _⟩
  · cases hstep

theorem cancelled_sound {s next : Lookups} {key : LookupKey}
    (h : ∀ key, s.Sound lib settings key)
    (hstep : s.step lib settings (.cancelled key) = some next) :
    StepSound lib settings s next := by
  rw [step] at hstep
  split at hstep
  · cases hstep
    refine ⟨?_, id, fun other ledger hledger => ⟨ledger, hledger, .refl ledger⟩⟩
    intro other
    by_cases hother : other = key
    · rw [hother]
      exact (h key).cancel
    · exact (h other).congr rfl (Function.update_of_ne hother _ _) rfl rfl
  · cases hstep

theorem step_sound {s next : Lookups} {event : LookupEvent}
    (h : ∀ key, s.Sound lib settings key) (hstep : s.step lib settings event = some next) :
    StepSound lib settings s next := by
  cases event with
  | call request passed => exact call_sound h hstep
  | provider key event => exact provider_sound h hstep
  | cancelled key => exact cancelled_sound h hstep

/-- What a run does to every key. -/
theorem runs_sound {s next : Lookups} {events : List LookupEvent}
    (h : ∀ key, s.Sound lib settings key) (hruns : s.runs lib settings events = some next) :
    StepSound lib settings s next := by
  induction events generalizing s with
  | nil =>
      cases hruns
      exact ⟨h, id, fun key ledger hledger => ⟨ledger, hledger, .refl ledger⟩⟩
  | cons event rest ih =>
      rw [runs, Option.bind_eq_some_iff] at hruns
      obtain ⟨middle, hstep, hrest⟩ := hruns
      have hfirst := step_sound h hstep
      have hlast := ih hfirst.sound hrest
      refine ⟨hlast.sound, hlast.results ∘ hfirst.results, ?_⟩
      intro key ledger hledger
      obtain ⟨stored, hstored, hextends⟩ := hfirst.kept key ledger hledger
      obtain ⟨final, hfinal, hmore⟩ := hlast.kept key stored hstored
      exact ⟨final, hfinal, hextends.trans hmore⟩

theorem sound_of_reachable {s : Lookups} (h : Reachable lib settings s) (key : LookupKey) :
    s.Sound lib settings key := by
  obtain ⟨events, hruns⟩ := h
  exact (runs_sound initial_sound hruns).sound key

theorem justified_of_reachable {s : Lookups} (h : Reachable lib settings s) :
    s.ResultsJustified := by
  obtain ⟨events, hruns⟩ := h
  exact (runs_sound initial_sound hruns).results fun _ hentry => (List.not_mem_nil hentry).elim

end Lookups

end Invariant

end SearchTrust.Identity
