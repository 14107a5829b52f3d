/-
The order of the saved records.  It decides neither the groups nor what they resolve
to; it decides only in which order the provider is asked for expired records.
-/
import Mathlib.Data.List.Perm.Lattice
import SearchTrust.Identity.LookupEvidence

namespace SearchTrust.Identity

namespace Evidence

section Groups

variable {first second : List CandidateDecision}

theorem placeCids_perm (h : first.Perm second) (place : String) :
    (placeCids first place).Perm (placeCids second place) := (h.filterMap _).dedup

/-- Lists with one order of the same items have the same single item. -/
theorem soleCid_perm (h : first.Perm second) (place : Option String) :
    soleCid first place = soleCid second place := by
  cases place with
  | none => rfl
  | some place =>
      have hcids := placeCids_perm h place
      rw [soleCid, soleCid]
      split
      · next cid hfirst =>
          rw [hfirst] at hcids
          rw [List.perm_singleton.1 hcids.symm]
      · next hfirst =>
          split
          · next cid hsecond =>
              rw [hsecond] at hcids
              exact absurd (List.perm_singleton.1 hcids) (hfirst cid)
          · rfl

theorem groupOf_perm (h : first.Perm second) (record : SavedGbpRecord) :
    groupOf first record = groupOf second record := by
  rw [groupOf, groupOf, soleCid_perm h]

theorem groups_perm (h : first.Perm second) : (groups first).Perm (groups second) := by
  have hgroups : (first.map fun c => groupOf first c.record) =
      first.map fun c => groupOf second c.record :=
    List.map_congr_left fun c _ => groupOf_perm h c.record
  rw [groups, groups, hgroups]
  exact (h.map _).dedup

theorem chosenGroup_perm (h : first.Perm second) (selected : Option String) :
    chosenGroup first selected = chosenGroup second selected := by
  cases selected with
  | none => rfl
  | some selected => rw [chosenGroup, chosenGroup, soleCid_perm h]

end Groups

/-- Evidence of the same decisions, in any order, for requests that differ at most in
their saved records. -/
structure Similar (e f : Evidence) : Prop where
  decisions : e.decisions.Perm f.decisions
  seen : ∀ key, key ∈ e.seen ↔ key ∈ f.seen
  request : f.request = { e.request with savedRecords := f.request.savedRecords }

section Similar

variable {e f : Evidence}

theorem Similar.assess (h : Similar e f) (lib : LookupLibrary) (record : SavedGbpRecord) :
    assessCandidate lib f.request record = assessCandidate lib e.request record := by
  rw [h.request]
  rfl

theorem Similar.selected (h : Similar e f) :
    f.request.selectedBranchRef = e.request.selectedBranchRef := by
  rw [h.request]

/-- The status that `resolved` comes to. -/
def resolvedStatus (e : Evidence) : Option LookupStatus := e.resolved.map Prod.fst

/-- The status for a selected group and the groups that were found. -/
def statusOf (chosen : Option String) (found : List (Option String)) : Option LookupStatus :=
  match chosen with
  | some chosen =>
      if some chosen ∈ found then some .matched
      else if found ≠ [] then some .identityUnconfirmed
      else none
  | none =>
      match found with
      | [] => none
      | [_] => some .matched
      | _ => some .identityUnconfirmed

theorem resolvedStatus_eq (e : Evidence) :
    e.resolvedStatus = statusOf
      (chosenGroup (counting e.decisions) e.request.selectedBranchRef)
      (groups (counting e.decisions)) := by
  rw [resolvedStatus, resolved, counting]
  cases chosenGroup (e.decisions.filter CandidateDecision.counts) e.request.selectedBranchRef with
  | some chosen =>
      simp only [statusOf]
      split
      · rfl
      · split
        · rfl
        · rfl
  | none =>
      cases groups (e.decisions.filter CandidateDecision.counts) with
      | nil => rfl
      | cons group rest =>
          cases rest with
          | nil => rfl
          | cons next rest => rfl

/-- The status depends on which groups there are. -/
theorem statusOf_perm {found other : List (Option String)} (h : found.Perm other)
    (chosen : Option String) : statusOf chosen found = statusOf chosen other := by
  have hnil : found = [] ↔ other = [] := by
    rw [← List.length_eq_zero_iff, ← List.length_eq_zero_iff, h.length_eq]
  cases chosen with
  | some chosen => simp only [statusOf, h.mem_iff, ne_eq, hnil]
  | none =>
      have hlength := h.length_eq
      match found, other, hlength with
      | [], [], _ => rfl
      | [_], [_], _ => rfl
      | _ :: _ :: _, _ :: _ :: _, _ => rfl

theorem Similar.resolvedStatus_eq (h : Similar e f) : e.resolvedStatus = f.resolvedStatus := by
  have hcounting : (counting e.decisions).Perm (counting f.decisions) := h.decisions.filter _
  rw [Evidence.resolvedStatus_eq, Evidence.resolvedStatus_eq, ← h.selected,
    chosenGroup_perm hcounting, statusOf_perm (groups_perm hcounting)]

theorem Similar.addRecord {lib : LookupLibrary} (h : Similar e f) (record : SavedGbpRecord) :
    Similar (e.addRecord lib record) (f.addRecord lib record) := by
  rw [Evidence.addRecord, Evidence.addRecord]
  by_cases hseen : record.key ∈ e.seen
  · rw [if_pos hseen, if_pos ((h.seen _).1 hseen)]
    exact h
  · rw [if_neg hseen, if_neg fun hother => hseen ((h.seen _).2 hother)]
    refine ⟨?_, ?_, h.request⟩
    · rw [h.assess lib record]
      exact h.decisions.append_right _
    · intro key
      rw [List.mem_cons, List.mem_cons, h.seen]

theorem Similar.add (h : Similar e f) (lib : LookupLibrary) (records : List SavedGbpRecord) :
    Similar (e.add lib records) (f.add lib records) := by
  induction records generalizing e f with
  | nil => exact h
  | cons record rest ih => exact ih (h.addRecord record)

/-- The clock of a response is read by both. -/
theorem Similar.at_time (h : Similar e f) (now : Jobs.Instant) :
    Similar { e with request := { e.request with evaluatedAt := now } }
      { f with request := { f.request with evaluatedAt := now } } := by
  refine ⟨h.decisions, h.seen, ?_⟩
  change { f.request with evaluatedAt := now } =
    { e.request with evaluatedAt := now, savedRecords := f.request.savedRecords }
  rw [h.request]

theorem Similar.stages (h : Similar e f) (before after : List String) :
    Similar { e with stages := before } { f with stages := after } :=
  ⟨h.decisions, h.seen, h.request⟩

theorem Similar.stopped_status (h : Similar e f) (ledger : GbpLookupLedger) (reason : String) :
    (e.stopped ledger reason).status = (f.stopped ledger reason).status := by
  have hany : e.decisions.any isAddressOnly = f.decisions.any isAddressOnly :=
    h.decisions.any_eq
  rw [stopped, stopped, hany]
  split
  · rfl
  · rfl

theorem Similar.notFound_status (h : Similar e f) (ledger : GbpLookupLedger) :
    (e.notFound ledger).status = (f.notFound ledger).status := by
  have hany : e.decisions.any isAddressOnly = f.decisions.any isAddressOnly :=
    h.decisions.any_eq
  have hall : e.decisions.all isAddressOnly = f.decisions.all isAddressOnly :=
    h.decisions.all_eq
  rw [notFound, notFound, hany, hall]
  split
  · rfl
  · rfl

end Similar

/-- Saved records in another order give the same decisions. -/
theorem similar_of_perm (lib : LookupLibrary) {request : GbpIdentityRequest}
    {records : List SavedGbpRecord} (hkeys : KeysIdentify request.savedRecords)
    (hperm : request.savedRecords.Perm records) :
    Similar (add lib { request } request.savedRecords)
      (add lib { request := { request with savedRecords := records } } records) := by
  refine ⟨?_, ?_, ?_⟩
  · rw [add_decisions, add_decisions, List.nil_append, List.nil_append]
    exact (freshRecords_perm hkeys hperm).map _
  · intro key
    rw [mem_add_seen, mem_add_seen]
    constructor
    · rintro (hseen | ⟨record, hmem, hkey⟩)
      · exact .inl hseen
      · exact .inr ⟨record, hperm.mem_iff.1 hmem, hkey⟩
    · rintro (hseen | ⟨record, hmem, hkey⟩)
      · exact .inl hseen
      · exact .inr ⟨record, hperm.mem_iff.2 hmem, hkey⟩
  · rw [add_request, add_request]

end Evidence

/-- The status of a lookup that has ended. -/
def Progress.status : Progress → Option LookupStatus
  | .finished result => some result.status
  | .asking _ => none

/-- The lookup after a sequence of events, and its ledger. -/
def turns (lib : LookupLibrary) (settings : LookupSettings) :
    GbpLookupLedger → Progress → List ProviderEvent → Option (GbpLookupLedger × Progress)
  | ledger, progress, [] => some (ledger, progress)
  | _, .finished _, _ :: _ => none
  | ledger, .asking state, event :: rest =>
      match advance lib settings state ledger event with
      | none => none
      | some (next, progress) => turns lib settings next progress rest

/-- The requests that refresh saved records, behind the one for the saved link. -/
def refreshes (lib : LookupLibrary) (request : GbpIdentityRequest) :
    List (LookupStage × LookupQuery) :=
  (Evidence.add lib { request } request.savedRecords).decisions.foldl Evidence.addRefresh
    (Evidence.linkStage lib request)

/-- Two lookups at the same point, with the same decisions in any order. -/
inductive Progress.Similar : Progress → Progress → Prop where
  | finished {a b : GbpIdentityResult} (h : a.status = b.status) :
      Similar (.finished a) (.finished b)
  | asking {e f : Evidence} (h : Evidence.Similar e f) (stage : LookupStage)
      (query : LookupQuery) (queue : List (LookupStage × LookupQuery)) (start : Nat)
      (reserving permits : List Nat) :
      Similar (.asking ⟨e, stage, query, queue, start, reserving, permits⟩)
        (.asking ⟨f, stage, query, queue, start, reserving, permits⟩)

section Turns

variable {lib : LookupLibrary} {settings : LookupSettings} {e f : Evidence}

theorem Progress.Similar.status_eq {p q : Progress} (h : Progress.Similar p q) :
    p.status = q.status := by
  cases h with
  | finished h => exact congrArg some h
  | asking => rfl

theorem askNext_similar (h : e.Similar f) (ledger : GbpLookupLedger)
    (queue : List (LookupStage × LookupQuery)) :
    (askNext e ledger queue).Similar (askNext f ledger queue) := by
  cases queue with
  | nil => exact .finished (h.notFound_status ledger)
  | cons entry rest =>
      rw [askNext, askNext]
      split
      · exact .finished (h.stopped_status ledger _)
      · exact .asking (h.stages _ _) _ _ _ _ _ _

/-- Which request comes first does not decide whether one is made. -/
theorem askNext_status (h : e.Similar f) (ledger : GbpLookupLedger)
    {queue other : List (LookupStage × LookupQuery)} (hqueue : queue ≠ []) (hother : other ≠ []) :
    (askNext e ledger queue).status = (askNext f ledger other).status := by
  obtain ⟨entry, rest, rfl⟩ := List.exists_cons_of_ne_nil hqueue
  obtain ⟨entry', rest', rfl⟩ := List.exists_cons_of_ne_nil hother
  rw [askNext, askNext]
  split
  · exact congrArg some (h.stopped_status ledger _)
  · rfl

/-- What was resolved is the same, and otherwise the lookups go on. -/
theorem settleOr_cases (h : e.Similar f) (ledger : GbpLookupLedger) (p q : Progress) :
    (settleOr e ledger p).Similar (settleOr f ledger q) ∨
      settleOr e ledger p = p ∧ settleOr f ledger q = q := by
  have hstatus := h.resolvedStatus_eq
  rw [Evidence.resolvedStatus, Evidence.resolvedStatus] at hstatus
  rw [settleOr, settleOr]
  cases hfirst : e.resolved with
  | none =>
      rw [hfirst, Option.map_none, eq_comm, Option.map_eq_none_iff] at hstatus
      rw [hstatus]
      exact .inr ⟨rfl, rfl⟩
  | some conclusion =>
      obtain ⟨status, reason, selected⟩ := conclusion
      rw [hfirst, Option.map_some, eq_comm, Option.map_eq_some_iff] at hstatus
      obtain ⟨⟨status', reason', selected'⟩, hsecond, hfst⟩ := hstatus
      rw [hsecond]
      exact .inl (.finished hfst.symm)

theorem settleOr_similar (h : e.Similar f) (ledger : GbpLookupLedger) {p q : Progress}
    (hrest : p.Similar q) : (settleOr e ledger p).Similar (settleOr f ledger q) := by
  rcases settleOr_cases h ledger p q with hsimilar | ⟨hp, hq⟩
  · exact hsimilar
  · rwa [hp, hq]

theorem respond_similar (h : e.Similar f) (stage : LookupStage) (query : LookupQuery)
    (queue : List (LookupStage × LookupQuery)) (start : Nat) (reserving permits : List Nat)
    (ledger : GbpLookupLedger) (payload : Market.Value) (checksum : String) (now : Jobs.Instant) :
    (respond lib ⟨e, stage, query, queue, start, reserving, permits⟩ ledger payload checksum
        now).1 =
      (respond lib ⟨f, stage, query, queue, start, reserving, permits⟩ ledger payload checksum
        now).1 ∧
    (respond lib ⟨e, stage, query, queue, start, reserving, permits⟩ ledger payload checksum
        now).2.Similar
      (respond lib ⟨f, stage, query, queue, start, reserving, permits⟩ ledger payload checksum
        now).2 := by
  rw [respond, respond]
  split
  · exact ⟨rfl, .finished (h.stopped_status ledger _)⟩
  · split
    · exact ⟨rfl, .finished (h.stopped_status ledger _)⟩
    · split
      · exact ⟨rfl, .finished (h.stopped_status _ _)⟩
      · next records _ =>
          have hadded := (h.at_time now).add lib records
          exact ⟨rfl, settleOr_similar hadded ledger (askNext_similar hadded ledger _)⟩

/-- The same event takes two such lookups to the same point. -/
theorem advance_similar (lib : LookupLibrary) (settings : LookupSettings) (h : e.Similar f)
    (stage : LookupStage) (query : LookupQuery) (queue : List (LookupStage × LookupQuery)) (start : Nat) (reserving permits : List Nat)
    (ledger : GbpLookupLedger) (event : ProviderEvent) :
    Option.Rel (fun a b => a.1 = b.1 ∧ Progress.Similar a.2 b.2)
      (advance lib settings ⟨e, stage, query, queue, start, reserving, permits⟩ ledger event)
      (advance lib settings ⟨f, stage, query, queue, start, reserving, permits⟩ ledger event) := by
  have hasking := Progress.Similar.asking h stage query queue start
  cases event with
  | before =>
      rw [advance, advance]
      split
      · exact .some ⟨rfl, hasking _ _⟩
      · refine .some ⟨rfl, ?_⟩
        cases settings.persists with
        | true => exact hasking _ _
        | false => exact hasking _ _
  | reserved number ok =>
      rw [advance, advance]
      split
      · exact .some ⟨rfl, hasking _ _⟩
      · exact .none
  | send number =>
      rw [advance, advance]
      split
      · exact .some ⟨rfl, hasking _ _⟩
      · exact .none
  | after failed => exact .some ⟨rfl, hasking _ _⟩
  | respond payload checksum now =>
      exact .some (respond_similar h stage query queue start reserving permits ledger payload
        checksum now)
  | exhausted =>
      rw [advance, advance]
      split
      · exact .some ⟨rfl, .finished (h.stopped_status ledger _)⟩
      · exact .none
  | raised => exact .some ⟨rfl, .finished (h.stopped_status _ _)⟩

/-- The same events give the same status. -/
theorem turns_similar {p q : Progress} (h : p.Similar q) (ledger : GbpLookupLedger)
    (events : List ProviderEvent) :
    (turns lib settings ledger p events).map (fun last => last.2.status) =
      (turns lib settings ledger q events).map fun last => last.2.status := by
  induction events generalizing ledger p q with
  | nil =>
      rw [turns, turns, Option.map_some, Option.map_some, h.status_eq]
  | cons event rest ih =>
      cases h with
      | finished h => rfl
      | @asking e f hevidence stage query queue start reserving permits =>
          rw [turns, turns]
          have hnext := advance_similar lib settings hevidence stage query queue start reserving
            permits ledger event
          revert hnext
          generalize advance lib settings ⟨e, stage, query, queue, start, reserving, permits⟩
            ledger event = first
          generalize advance lib settings ⟨f, stage, query, queue, start, reserving, permits⟩
            ledger event = second
          intro hnext
          cases hnext with
          | none => rfl
          | some hpair =>
              obtain ⟨hledger, hprogress⟩ := hpair
              simp only [hledger]
              exact ih hprogress _

end Turns

section Beginnings

variable {lib : LookupLibrary} {settings : LookupSettings} {request : GbpIdentityRequest}
  {records : List SavedGbpRecord}

theorem queue_eq (domain : String) (stages : List String) :
    ({ Evidence.add lib { request } request.savedRecords with stages } : Evidence).queue lib
        domain =
      refreshes lib request ++ Evidence.searchStages lib request domain := by
  rw [Evidence.queue, refreshes, Evidence.add_request]

theorem queue_ne_nil (domain : String) (stages : List String) :
    ({ Evidence.add lib { request } request.savedRecords with stages } : Evidence).queue lib
        domain ≠ [] := by
  rw [queue_eq, Evidence.searchStages]
  exact List.append_ne_nil_of_right_ne_nil _ (List.cons_ne_nil _ _)

theorem afterCache_status {e f : Evidence} (h : e.Similar f) (domain : String)
    (ledger : GbpLookupLedger)
    (hqueue : ∀ stages, ({ e with stages } : Evidence).queue lib domain ≠ [])
    (hother : ∀ stages, ({ f with stages } : Evidence).queue lib domain ≠ []) :
    (afterCache lib settings e domain ledger).status =
      (afterCache lib settings f domain ledger).status := by
  have hmarket : f.request.marketCollected = e.request.marketCollected := by rw [h.request]
  have hlinked := h.stages (e.stages ++ ["saved_link"]) (f.stages ++ ["saved_link"])
  rw [afterCache, afterCache, hmarket]
  split
  · exact congrArg some (hlinked.stopped_status ledger _)
  · split
    · exact congrArg some (hlinked.stopped_status ledger _)
    · split
      · exact congrArg some (hlinked.stopped_status ledger _)
      · exact askNext_status hlinked ledger (hqueue _) (hother _)

theorem afterCache_similar {e f : Evidence} (h : e.Similar f) (domain : String)
    (ledger : GbpLookupLedger)
    (hqueue : ∀ stages stages', ({ e with stages } : Evidence).queue lib domain =
      ({ f with stages := stages' } : Evidence).queue lib domain) :
    (afterCache lib settings e domain ledger).Similar
      (afterCache lib settings f domain ledger) := by
  have hmarket : f.request.marketCollected = e.request.marketCollected := by rw [h.request]
  have hlinked := h.stages (e.stages ++ ["saved_link"]) (f.stages ++ ["saved_link"])
  rw [afterCache, afterCache, hmarket]
  split
  · exact .finished (hlinked.stopped_status ledger _)
  · split
    · exact .finished (hlinked.stopped_status ledger _)
    · split
      · exact .finished (hlinked.stopped_status ledger _)
      · rw [hqueue _ (f.stages ++ ["saved_link"])]
        exact askNext_similar hlinked ledger _

/-- What a lookup concludes before it asks the provider does not depend on the order of
the saved records. -/
theorem beginLookup_status (hkeys : KeysIdentify request.savedRecords)
    (hperm : request.savedRecords.Perm records) (domain : String) (ledger : GbpLookupLedger) :
    (beginLookup lib settings request domain ledger).status =
      (beginLookup lib settings { request with savedRecords := records } domain
        ledger).status := by
  have hsimilar := Evidence.similar_of_perm lib hkeys hperm
  rw [beginLookup, beginLookup]
  rcases settleOr_cases hsimilar ledger (afterCache lib settings _ domain ledger)
    (afterCache lib settings _ domain ledger) with h | ⟨hp, hq⟩
  · exact h.status_eq
  · rw [hp, hq]
    exact afterCache_status hsimilar domain ledger (queue_ne_nil domain) (queue_ne_nil domain)

/-- Nor does the status it ends with, as long as the records are refreshed in one order. -/
theorem turns_status (hkeys : KeysIdentify request.savedRecords)
    (hperm : request.savedRecords.Perm records)
    (hrefreshes : refreshes lib { request with savedRecords := records } = refreshes lib request)
    (domain : String) (ledger : GbpLookupLedger) (events : List ProviderEvent) :
    (turns lib settings ledger (beginLookup lib settings request domain ledger) events).map
        (fun last => last.2.status) =
      (turns lib settings ledger
        (beginLookup lib settings { request with savedRecords := records } domain ledger)
        events).map fun last => last.2.status := by
  have hsimilar := Evidence.similar_of_perm lib hkeys hperm
  refine turns_similar (settleOr_similar hsimilar ledger ?_) ledger events
  refine afterCache_similar hsimilar domain ledger fun stages stages' => ?_
  have hsecond : ({ Evidence.add lib { request := { request with savedRecords := records } }
      records with stages := stages' } : Evidence).queue lib domain =
      refreshes lib { request with savedRecords := records } ++
        Evidence.searchStages lib { request with savedRecords := records } domain :=
    queue_eq domain stages'
  rw [queue_eq]
  refine Eq.trans ?_ hsecond.symm
  rw [hrefreshes]
  rfl

end Beginnings

end SearchTrust.Identity
