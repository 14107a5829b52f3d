/-
The evidence of a SERP snapshot: its observations with their places in the snapshot, the
index of them by their ids, and the lookup by which the rules refer to it.
-/
import Mathlib.Data.String.Basic
import SearchTrust.Market.Models
import SearchTrust.Order.Sorting
import SearchTrust.Report.Models
import SearchTrust.Report.Outcomes

namespace SearchTrust.Findings

open SearchTrust.Market (SearchDevice SerpMarketResultRecord SerpRankSource SerpResultType)
open SearchTrust.Order
open SearchTrust.Report (Confidence SourceType)

section Snapshots

inductive SerpCallStatus where
  | succeeded
  | failedTransient
  | failedDeterministic
deriving DecidableEq

def SerpCallStatus.text : SerpCallStatus → String
  | succeeded => "succeeded"
  | failedTransient => "failed_transient"
  | failedDeterministic => "failed_deterministic"

/-- `SerpCallRecord`, as far as its evidence reads it. -/
structure SerpCallRecord where
  callId : String
  resultTypes : List SerpResultType
  latitude : ℚ
  longitude : ℚ
  countryCode : String
  language : String
  device : SearchDevice
  status : SerpCallStatus
  completedAt : ℤ
deriving DecidableEq

/-- `SerpQueryRun`. -/
structure SerpQueryRun where
  query : String
  mapsCall : SerpCallRecord
  googleCall : SerpCallRecord
  results : List SerpMarketResultRecord
  complete : Bool
  limitations : List String
deriving DecidableEq

/-- `SerpTargetPoint`, as far as the rules read it. -/
structure SerpTargetPoint where
  latitude : ℚ
  longitude : ℚ
  countryCode : String
deriving DecidableEq

/-- `SerpMarketSnapshot`, whose queries are different. -/
structure SerpMarketSnapshot where
  targetPoint : SerpTargetPoint
  queryRuns : List SerpQueryRun
  resultCounts : List (SerpResultType × ℕ)
  limitations : List String
  queriesDiffer : (queryRuns.map SerpQueryRun.query).Nodup

/-- `SerpEvidenceSource`, with the id and the fetch time of its binding, and whether it
may be used. -/
structure SerpSource where
  snapshotId : String
  fetchedAt : ℤ
  businessEligible : Bool
  payload : SerpMarketSnapshot

end Snapshots

section Observations

/-- A step of a path into a snapshot. -/
inductive PathPart where
  | field (name : String)
  | index (n : ℕ)
deriving DecidableEq

abbrev Path := List PathPart

/-- A `ScalarValue`. -/
inductive Scalar where
  | none
  | text (value : String)
  | integer (value : ℤ)
  | float (value : ℚ)
  | bool (value : Bool)
deriving DecidableEq

/-- `SourceLocator`, without the path that its selector gives. -/
structure SourceLocator where
  url : Option String
  query : Option String
  latitude : Option ℚ
  longitude : Option ℚ
  language : Option String
  device : Option SearchDevice
deriving DecidableEq

/-- `EvidenceObservation`, without its paths: what its id and its evidence item are made
of. -/
structure Observation where
  snapshotId : String
  sourceType : SourceType
  category : String
  recordContext : List String
  field : String
  countryCode : Option String
  locator : SourceLocator
  originalValue : Scalar
  normalizedValue : Scalar
  collectedAt : ℤ
  confidence : Confidence
  healthStatus : String
  limitations : List String
deriving DecidableEq

def resultTypeText : SerpResultType → String
  | .maps => "maps"
  | .localPack => "local_pack"
  | .organic => "organic"

def rankSourceText : SerpRankSource → String
  | .providerPosition => "provider_position"
  | .responseOrder => "response_order"

variable (source : SerpSource)

/-- The observation of the number of results of a type. -/
def countObservation (count : SerpResultType × ℕ) : Observation where
  snapshotId := source.snapshotId
  sourceType := .serp
  category := "serp_field"
  recordContext := ["result_count", resultTypeText count.1]
  field := "count"
  countryCode := none
  locator := ⟨none, none, none, none, none, none⟩
  originalValue := .integer count.2
  normalizedValue := .integer count.2
  collectedAt := source.fetchedAt
  confidence := .medium
  healthStatus := "healthy"
  limitations := sortedSet source.payload.limitations

/-- The limitations of the observations of a query run. -/
def runNotes (run : SerpQueryRun) : List String :=
  sortedSet (source.payload.limitations ++ run.limitations)

def callLocator (run : SerpQueryRun) (call : SerpCallRecord) : SourceLocator :=
  ⟨none, some run.query, some call.latitude, some call.longitude, some call.language,
    some call.device⟩

/-- The observation of the status of a call: a gap where it did not succeed. -/
def statusObservation (run : SerpQueryRun) (call : SerpCallRecord) : Observation where
  snapshotId := source.snapshotId
  sourceType := if call.status = .succeeded then .serp else .coverage
  category := if call.status = .succeeded then "serp_field" else "coverage"
  recordContext := [call.callId]
  field := "status"
  countryCode := some call.countryCode
  locator := callLocator run call
  originalValue := .text call.status.text
  normalizedValue :=
    if call.status = .succeeded then .text call.status.text else .text "unavailable"
  collectedAt := call.completedAt
  confidence := if call.status = .succeeded then .medium else .low
  healthStatus := if call.status = .succeeded then "healthy" else "unavailable"
  limitations := runNotes source run

/-- The gap of a call without results of a type. -/
def emptyObservation (run : SerpQueryRun) (call : SerpCallRecord) (kind : SerpResultType) :
    Observation where
  snapshotId := source.snapshotId
  sourceType := .coverage
  category := "coverage"
  recordContext := [call.callId, resultTypeText kind]
  field := "results"
  countryCode := some call.countryCode
  locator := callLocator run call
  originalValue := .none
  normalizedValue := .text "empty"
  collectedAt := call.completedAt
  confidence := .low
  healthStatus := "healthy"
  limitations := runNotes source run

/-- The gap of a run that is not complete. -/
def partialObservation (run : SerpQueryRun) : Observation where
  snapshotId := source.snapshotId
  sourceType := .coverage
  category := "coverage"
  recordContext := [run.query]
  field := "complete"
  countryCode := none
  locator := ⟨none, some run.query, none, none, none, none⟩
  originalValue := .bool run.complete
  normalizedValue := .text "partial"
  collectedAt := source.fetchedAt
  confidence := .low
  healthStatus := "healthy"
  limitations := runNotes source run

/-- The value of a field of a record that is observed. -/
def recordValue (record : SerpMarketResultRecord) : String → Option Scalar
  | "result_type" => some (.text (resultTypeText record.resultType))
  | "position" => some (.integer record.position)
  | "rank_source" => some (.text (rankSourceText record.rankSource))
  | "display_name" => some (.text record.displayName)
  | "url" => record.url.map .text
  | "rating" => record.rating.map .float
  | "review_count" => record.reviewCount.map .integer
  | "address" => record.address.map .text
  | "snippet" => record.snippet.map .text
  | _ => none

/-- The observation of a value of a record. -/
def recordObservation (run : SerpQueryRun) (record : SerpMarketResultRecord) (field : String)
    (value : Scalar) : Observation where
  snapshotId := source.snapshotId
  sourceType := .serp
  category := "serp_field"
  recordContext := [record.callId, record.recordId, resultTypeText record.resultType]
  field := field
  countryCode := some record.countryCode
  locator := ⟨record.url, some record.query, some record.latitude, some record.longitude,
    some record.language, some record.device⟩
  originalValue := value
  normalizedValue := value
  collectedAt := record.observedAt
  confidence := .medium
  healthStatus := "healthy"
  limitations := runNotes source run

/-- The fields of a record that are observed. -/
def observedFields (localityFields : Bool) : List String :=
  ["result_type", "position", "rank_source", "display_name", "url", "rating", "review_count"] ++
    if localityFields then ["address", "snippet"] else []

def runPath (index : ℕ) : Path := [.field "payload", .field "query_runs", .index index]

def recordPath (index i : ℕ) : Path := runPath index ++ [.field "results", .index i]

/-- The observations of a call. -/
def callObservations (index : ℕ) (run : SerpQueryRun) (name : String) (call : SerpCallRecord) :
    List (Path × Observation) :=
  (runPath index ++ [.field name, .field "status"], statusObservation source run call) ::
    if call.status = .succeeded then
      (call.resultTypes.filter fun kind => ! run.results.any fun record =>
          record.callId = call.callId && record.resultType = kind).map fun kind =>
        (runPath index ++ [.field "results"], emptyObservation source run call kind)
    else []

/-- The observations of a record. -/
def recordObservations (localityFields : Bool) (index : ℕ) (run : SerpQueryRun)
    (entry : SerpMarketResultRecord × ℕ) : List (Path × Observation) :=
  (observedFields localityFields).filterMap fun field =>
    (recordValue entry.1 field).map fun value =>
      (recordPath index entry.2 ++ [.field field],
        recordObservation source run entry.1 field value)

/-- The observations of a query run. -/
def runObservations (localityFields : Bool) (entry : SerpQueryRun × ℕ) :
    List (Path × Observation) :=
  callObservations source entry.2 entry.1 "maps_call" entry.1.mapsCall ++
    callObservations source entry.2 entry.1 "google_call" entry.1.googleCall ++
    entry.1.results.zipIdx.flatMap (recordObservations source localityFields entry.2 entry.1) ++
    if entry.1.complete then []
    else [(runPath entry.2 ++ [.field "complete"], partialObservation source entry.1)]

/-- `serp.observations`. -/
def observations (localityFields : Bool) : List (Path × Observation) :=
  (source.payload.resultCounts.zipIdx.map fun entry =>
      ([.field "payload", .field "result_counts", .index entry.2, .field "count"],
        countObservation source entry.1)) ++
    source.payload.queryRuns.zipIdx.flatMap (runObservations source localityFields)

end Observations

section Index

inductive EvidenceError where
  | idConflict
deriving DecidableEq

variable (evidenceId : Observation → String)

/-- An observation enters the index, unless another one has its id. -/
def addObservation (items : List (String × Observation)) (observation : Observation) :
    Except EvidenceError (List (String × Observation)) :=
  match items.lookup (evidenceId observation) with
  | some known => if known = observation then .ok items else .error .idConflict
  | none => .ok (items ++ [(evidenceId observation, observation)])

/-- `build_evidence_index`, of these observations. -/
def buildEvidenceIndex (observed : List (Path × Observation)) :
    Except EvidenceError (List (String × Observation)) :=
  observed.foldlM (fun items entry => addObservation evidenceId items entry.2) []

/-- No two observations share an id. -/
def Consistent (observed : List (Path × Observation)) : Prop :=
  ∀ a ∈ observed, ∀ b ∈ observed, evidenceId a.2 = evidenceId b.2 → a.2 = b.2

variable {evidenceId}

/-- What the index holds after some observations: each of them by its id, and no other. -/
structure Indexed (evidenceId : Observation → String) (items : List (String × Observation))
    (taken : List (Path × Observation)) : Prop where
  holds : ∀ entry ∈ taken, items.lookup (evidenceId entry.2) = some entry.2
  only : ∀ key observation, items.lookup key = some observation →
    ∃ entry ∈ taken, entry.2 = observation ∧ evidenceId observation = key

theorem lookup_singleton (key other : String) (observation : Observation) :
    [(key, observation)].lookup other = if other = key then some observation else none := by
  by_cases h : other = key
  · simp [h]
  · simp [List.lookup_cons, h, beq_eq_false_iff_ne.2 h]

theorem Indexed.add {items items' : List (String × Observation)}
    {taken : List (Path × Observation)} (h : Indexed evidenceId items taken)
    {entry : Path × Observation} (hadd : addObservation evidenceId items entry.2 = .ok items') :
    Indexed evidenceId items' (taken ++ [entry]) := by
  unfold addObservation at hadd
  split at hadd
  next known hknown =>
    split at hadd
    next hsame =>
      cases hadd
      subst hsame
      refine ⟨fun other hother => ?_, fun key observation hlookup => ?_⟩
      · rcases List.mem_append.1 hother with hother | hother
        · exact h.holds other hother
        · rw [List.mem_singleton.1 hother]
          exact hknown
      · obtain ⟨found, hfound, hrest⟩ := h.only key observation hlookup
        exact ⟨found, List.mem_append_left _ hfound, hrest⟩
    next => cases hadd
  next hnone =>
    cases hadd
    refine ⟨fun other hother => ?_, fun key observation hlookup => ?_⟩
    · rw [List.lookup_append, lookup_singleton]
      rcases List.mem_append.1 hother with hother | hother
      · rw [h.holds other hother]
        rfl
      · rw [List.mem_singleton.1 hother, hnone]
        simp
    · rw [List.lookup_append, lookup_singleton] at hlookup
      cases hkey : items.lookup key with
      | some found =>
          rw [hkey] at hlookup
          obtain ⟨found', hfound, hrest⟩ := h.only key observation (hkey.trans hlookup)
          exact ⟨found', List.mem_append_left _ hfound, hrest⟩
      | none =>
          rw [hkey, Option.none_or] at hlookup
          split at hlookup
          next hkey' =>
            rw [Option.some.injEq] at hlookup
            exact ⟨entry, List.mem_append_right _ List.mem_cons_self, hlookup,
              by rw [hkey', ← hlookup]⟩
          next => cases hlookup

theorem indexed_of_build {observed : List (Path × Observation)}
    {items : List (String × Observation)}
    (h : buildEvidenceIndex evidenceId observed = .ok items) :
    Indexed evidenceId items observed := by
  have hstart : Indexed evidenceId [] [] := ⟨by simp, by simp⟩
  have hrun : Indexed evidenceId items ([] ++ observed) :=
    Report.Outcomes.foldlM_ok (fun _ _ _ _ hindexed hadd => hindexed.add hadd) hstart h
  rwa [List.nil_append] at hrun

/-- Where no two observations share an id, the index is built. -/
theorem build_of_consistent {observed : List (Path × Observation)}
    (h : Consistent evidenceId observed) :
    ∃ items, buildEvidenceIndex evidenceId observed = .ok items := by
  suffices hrun : ∀ rest taken items, taken ++ rest = observed → Indexed evidenceId items taken →
      ∃ items', rest.foldlM (fun items entry => addObservation evidenceId items entry.2) items =
        .ok items' from
    hrun observed [] [] rfl ⟨by simp, by simp⟩
  intro rest
  induction rest with
  | nil => exact fun _ items _ _ => ⟨items, rfl⟩
  | cons entry rest ih =>
      intro taken items happend hindexed
      have hmem : entry ∈ observed := happend ▸ List.mem_append_right _ List.mem_cons_self
      have hnext : ∃ items', addObservation evidenceId items entry.2 = .ok items' := by
        unfold addObservation
        split
        next known hknown =>
          obtain ⟨found, hfound, hsame, hid⟩ := hindexed.only _ _ hknown
          have hfound' : found ∈ observed := happend ▸ List.mem_append_left _ hfound
          rw [if_pos (hsame ▸ h found hfound' entry hmem (by rw [hsame, hid]))]
          exact ⟨items, rfl⟩
        next => exact ⟨_, rfl⟩
      obtain ⟨items', hadd⟩ := hnext
      obtain ⟨final, hfinal⟩ := ih (taken ++ [entry]) items' (by simpa using happend)
        (hindexed.add hadd)
      exact ⟨final, by rw [List.foldlM_cons, hadd]; exact hfinal⟩

end Index

end SearchTrust.Findings
