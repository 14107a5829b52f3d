/-
The market rules decide on the same, whatever the order of the results of each query.
-/
import SearchTrust.Findings.MarketDecisions
namespace SearchTrust.Findings

open SearchTrust.Market (SerpMarketResultRecord SerpRankSource SerpResultType)
open SearchTrust.Order
open SearchTrust.Report (EvaluationState)
open SearchTrust.Report.Outcomes

section Places

variable {lib : FindingsLibrary} {view : EvidenceView} {source : SerpSource}
  {localityFields : Bool} {run : SerpQueryRun} {index i : ℕ} {record : SerpMarketResultRecord}

theorem mem_runObservations {entry : Path × Observation} :
    entry ∈ runObservations source localityFields (run, index) ↔
      entry ∈ callObservations source index run "maps_call" run.mapsCall ∨
      entry ∈ callObservations source index run "google_call" run.googleCall ∨
      (∃ record i, (record, i) ∈ run.results.zipIdx ∧
        entry ∈ recordObservations source localityFields index run (record, i)) ∨
      (run.complete = false ∧
        entry = (runPath index ++ [.field "complete"], partialObservation source run)) := by
  have hpartial : (entry ∈ if run.complete then []
      else [(runPath index ++ [.field "complete"], partialObservation source run)]) ↔
      run.complete = false ∧
        entry = (runPath index ++ [.field "complete"], partialObservation source run) := by
    cases run.complete <;> simp
  rw [runObservations, List.mem_append, List.mem_append, List.mem_append, hpartial,
    List.mem_flatMap, Prod.exists, or_assoc, or_assoc]

theorem mem_observations {entry : Path × Observation} :
    entry ∈ observations source localityFields ↔
      (∃ count i, (count, i) ∈ source.payload.resultCounts.zipIdx ∧
        entry = ([.field "payload", .field "result_counts", .index i, .field "count"],
          countObservation source count)) ∨
      ∃ run index, (run, index) ∈ source.payload.queryRuns.zipIdx ∧
        entry ∈ runObservations source localityFields (run, index) := by
  simp only [observations, List.mem_append, List.mem_flatMap, List.mem_map, Prod.exists,
    eq_comm (a := entry)]

theorem mem_callObservations {name : String} {call : SerpCallRecord}
    {entry : Path × Observation} (h : entry ∈ callObservations source index run name call) :
    entry = (runPath index ++ [.field name, .field "status"], statusObservation source run call) ∨
      entry.1 = runPath index ++ [.field "results"] := by
  rcases List.mem_cons.1 h with h | h
  · exact .inl h
  · right
    split at h
    next =>
      obtain ⟨kind, -, rfl⟩ := List.mem_map.1 h
      rfl
    next => cases h

theorem mem_recordObservations {entry : Path × Observation} :
    entry ∈ recordObservations source localityFields index run (record, i) ↔
      ∃ field ∈ observedFields localityFields, ∃ value, recordValue record field = some value ∧
        entry = (recordPath index i ++ [.field field],
          recordObservation source run record field value) := by
  simp only [recordObservations, List.mem_filterMap, Option.map_eq_some_iff, eq_comm (b := entry)]

theorem eq_of_mem_zipIdx {α : Type*} {items : List α} {a b : α} {n : ℕ}
    (ha : (a, n) ∈ items.zipIdx) (hb : (b, n) ∈ items.zipIdx) : a = b := by
  rw [List.mem_zipIdx_iff_getElem?] at ha hb
  exact Option.some.inj (ha.symm.trans hb)

/-- What is observed at a field of a record is the value of this field. -/
theorem observed_field (hrun : (run, index) ∈ source.payload.queryRuns.zipIdx)
    (hrecord : (record, i) ∈ run.results.zipIdx) {field : String} {observation : Observation} :
    (recordPath index i ++ [.field field], observation) ∈ observations source localityFields ↔
      field ∈ observedFields localityFields ∧ ∃ value, recordValue record field = some value ∧
        observation = recordObservation source run record field value := by
  constructor
  · intro h
    rcases mem_observations.1 h with ⟨_, _, -, heq⟩ | ⟨run', index', hrun', h⟩
    · simp [recordPath, runPath] at heq
    · rcases mem_runObservations.1 h with h | h | ⟨record', i', hrecord', h⟩ | ⟨-, heq⟩
      · rcases mem_callObservations h with heq | heq <;> simp [recordPath, runPath] at heq
      · rcases mem_callObservations h with heq | heq <;> simp [recordPath, runPath] at heq
      · obtain ⟨field', hfield, value, hvalue, heq⟩ := mem_recordObservations.1 h
        simp only [recordPath, runPath, List.cons_append, List.nil_append,
          Prod.mk.injEq, List.cons.injEq, PathPart.index.injEq, PathPart.field.injEq, true_and,
          and_true] at heq
        obtain ⟨⟨rfl, rfl, rfl⟩, rfl⟩ := heq
        obtain rfl := eq_of_mem_zipIdx hrun' hrun
        obtain rfl := eq_of_mem_zipIdx hrecord' hrecord
        exact ⟨hfield, value, hvalue, rfl⟩
      · simp [recordPath, runPath] at heq
  · rintro ⟨hfield, value, hvalue, rfl⟩
    exact field_mem_observations hrun hrecord hfield hvalue

/-- What is observed at the status of a call is this status. -/
theorem observed_status (hrun : (run, index) ∈ source.payload.queryRuns.zipIdx)
    (kind : SerpResultType) {observation : Observation} :
    (runPath index ++ [.field (run.callOf kind).1, .field "status"], observation) ∈
        observations source localityFields ↔
      observation = statusObservation source run (run.callOf kind).2 := by
  constructor
  · intro h
    rcases mem_observations.1 h with ⟨_, _, -, heq⟩ | ⟨run', index', hrun', h⟩
    · simp [runPath] at heq
    · rcases mem_runObservations.1 h with h | h | ⟨record', i', hrecord', h⟩ | ⟨-, heq⟩
      · rcases mem_callObservations h with heq | heq
        · cases kind <;> simp [runPath, SerpQueryRun.callOf] at heq
          obtain ⟨rfl, rfl⟩ := heq
          rw [eq_of_mem_zipIdx hrun' hrun]
          rfl
        · simp [runPath] at heq
      · rcases mem_callObservations h with heq | heq
        · cases kind <;> simp [runPath, SerpQueryRun.callOf] at heq
          all_goals
            obtain ⟨rfl, rfl⟩ := heq
            rw [eq_of_mem_zipIdx hrun' hrun]
            rfl
        · simp [runPath] at heq
      · obtain ⟨field', hfield, value, hvalue, heq⟩ := mem_recordObservations.1 h
        simp [recordPath, runPath] at heq
      · simp [runPath] at heq
  · rintro rfl
    exact status_mem_observations hrun kind

/-- Nothing is observed below a field of a record. -/
theorem length_of_observed {entry : Path × Observation}
    (h : entry ∈ observations source localityFields) : entry.1.length ≤ 6 := by
  rcases mem_observations.1 h with ⟨_, _, -, rfl⟩ | ⟨run', index', hrun', h⟩
  · simp
  · rcases mem_runObservations.1 h with h | h | ⟨record', i', hrecord', h⟩ | ⟨-, rfl⟩
    · rcases mem_callObservations h with rfl | heq
      · simp [runPath]
      · simp [heq, runPath]
    · rcases mem_callObservations h with rfl | heq
      · simp [runPath]
      · simp [heq, runPath]
    · obtain ⟨field', hfield, value, hvalue, rfl⟩ := mem_recordObservations.1 h
      simp [recordPath, runPath]
    · simp [runPath]

theorem descendants_field (hsees : Sees lib source localityFields view) (field : String) :
    view.descendants lib.evidenceId (recordPath index i ++ [.field field]) = [] := by
  rw [EvidenceView.descendants, List.map_eq_nil_iff, List.filter_eq_nil_iff]
  intro entry hentry hbelow
  rw [hsees.observed] at hentry
  simp only [Bool.and_eq_true, decide_eq_true_eq] at hbelow
  obtain ⟨⟨⟨-, hhead⟩, hne⟩, -⟩ := hbelow
  have hlength := length_of_observed hentry
  have hpath : (recordPath index i ++ [PathPart.field field]).length = 6 := by
    simp [recordPath, runPath]
  have hhead' := List.isPrefixOf_iff_prefix.1 hhead
  exact hne (hhead'.eq_of_length_le (by omega)).symm

/-- The references at a place are the ids of what is observed there, gaps apart. -/
theorem mem_refs (hsees : Sees lib source localityFields view) {path : Path} {key : String} :
    key ∈ view.refs lib.evidenceId path ↔
      ∃ observation, (path, observation) ∈ observations source localityFields ∧
        observation.sourceType ≠ .coverage ∧ lib.evidenceId observation = key := by
  rw [EvidenceView.refs, mem_sortedSet, List.mem_filter, List.mem_map]
  have hevidence : ∀ entry ∈ view.observed, view.isEvidence (lib.evidenceId entry.2) = true ↔
      entry.2.sourceType ≠ .coverage := by
    intro entry hentry
    rw [EvidenceView.isEvidence, hsees.indexed.holds entry hentry]
    simp
  constructor
  · rintro ⟨⟨entry, hentry, rfl⟩, hkey⟩
    obtain ⟨hmem, hpath⟩ := List.mem_filter.1 hentry
    have hobserved := hsees.observed ▸ hmem
    refine ⟨entry.2, ?_, (hevidence entry hmem).1 hkey, rfl⟩
    rw [← of_decide_eq_true hpath]
    exact hobserved
  · rintro ⟨observation, hmem, hsource, rfl⟩
    have hobserved : (path, observation) ∈ view.observed := hsees.observed ▸ hmem
    exact ⟨⟨(path, observation), List.mem_filter.2 ⟨hobserved, by simp⟩, rfl⟩,
      (hevidence _ hobserved).2 hsource⟩

/-- The ids of some observed fields of a record. -/
def RecordKey (lib : FindingsLibrary) (source : SerpSource) (localityFields : Bool)
    (run : SerpQueryRun) (record : SerpMarketResultRecord) (fields : List String)
    (key : String) : Prop :=
  ∃ field ∈ fields, field ∈ observedFields localityFields ∧ ∃ value,
    recordValue record field = some value ∧
      lib.evidenceId (recordObservation source run record field value) = key

theorem mem_refs_field (hsees : Sees lib source localityFields view)
    (hrun : (run, index) ∈ source.payload.queryRuns.zipIdx)
    (hrecord : (record, i) ∈ run.results.zipIdx) {field key : String} :
    key ∈ view.refs lib.evidenceId (recordPath index i ++ [.field field]) ↔
      RecordKey lib source localityFields run record [field] key := by
  rw [mem_refs hsees]
  constructor
  · rintro ⟨observation, hmem, -, rfl⟩
    obtain ⟨hfield, value, hvalue, rfl⟩ := (observed_field hrun hrecord).1 hmem
    exact ⟨field, List.mem_singleton_self _, hfield, value, hvalue, rfl⟩
  · rintro ⟨field', hmem, hfield, value, hvalue, rfl⟩
    rw [List.mem_singleton] at hmem
    subst hmem
    exact ⟨_, (observed_field hrun hrecord).2 ⟨hfield, value, hvalue, rfl⟩,
      fun h => Report.SourceType.noConfusion h, rfl⟩

theorem mem_fieldRefs (hsees : Sees lib source localityFields view)
    (hrun : (run, index) ∈ source.payload.queryRuns.zipIdx)
    (hrecord : (record, i) ∈ run.results.zipIdx) {fields : List String} {key : String} :
    key ∈ view.fieldRefs lib.evidenceId (recordPath index i) fields ↔
      RecordKey lib source localityFields run record fields key := by
  simp only [EvidenceView.fieldRefs, mem_sortedSet, List.mem_flatMap, descendants_field hsees,
    List.append_nil, mem_refs_field hsees hrun hrecord, RecordKey, List.mem_singleton]
  constructor
  · rintro ⟨field, hfield, _, rfl, hkey⟩
    exact ⟨_, hfield, hkey⟩
  · rintro ⟨field, hfield, hkey⟩
    exact ⟨field, hfield, field, rfl, hkey⟩

end Places

section Reordering

variable {lib : FindingsLibrary} {source other : SerpSource} {localityFields : Bool}

/-- Two query runs with the same results in different orders. -/
structure RunReordered (run run' : SerpQueryRun) : Prop where
  query : run'.query = run.query
  mapsCall : run'.mapsCall = run.mapsCall
  googleCall : run'.googleCall = run.googleCall
  results : run'.results.Perm run.results
  complete : run'.complete = run.complete
  limitations : run'.limitations = run.limitations

theorem RunReordered.symm {run run' : SerpQueryRun} (h : RunReordered run run') :
    RunReordered run' run :=
  ⟨h.query.symm, h.mapsCall.symm, h.googleCall.symm, h.results.symm, h.complete.symm,
    h.limitations.symm⟩

/-- Two sources whose query runs have the same results in different orders. -/
structure Reordered (source other : SerpSource) : Prop where
  snapshotId : other.snapshotId = source.snapshotId
  fetchedAt : other.fetchedAt = source.fetchedAt
  businessEligible : other.businessEligible = source.businessEligible
  targetPoint : other.payload.targetPoint = source.payload.targetPoint
  resultCounts : other.payload.resultCounts = source.payload.resultCounts
  limitations : other.payload.limitations = source.payload.limitations
  runs : List.Forall₂ RunReordered source.payload.queryRuns other.payload.queryRuns

theorem Reordered.symm (h : Reordered source other) : Reordered other source where
  snapshotId := h.snapshotId.symm
  fetchedAt := h.fetchedAt.symm
  businessEligible := h.businessEligible.symm
  targetPoint := h.targetPoint.symm
  resultCounts := h.resultCounts.symm
  limitations := h.limitations.symm
  runs := (List.Forall₂.flip h.runs).imp fun _ _ => RunReordered.symm

variable (h : Reordered source other)

include h

theorem Reordered.runNotes {run run' : SerpQueryRun} (hrun : RunReordered run run') :
    runNotes other run' = runNotes source run := by
  rw [Findings.runNotes, Findings.runNotes, h.limitations, hrun.limitations]

theorem Reordered.recordObservation {run run' : SerpQueryRun} (hrun : RunReordered run run')
    (record : SerpMarketResultRecord) (field : String) (value : Scalar) :
    recordObservation other run' record field value =
      recordObservation source run record field value := by
  rw [Findings.recordObservation, Findings.recordObservation, h.snapshotId, h.runNotes hrun]

theorem Reordered.statusObservation {run run' : SerpQueryRun} (hrun : RunReordered run run')
    (call : SerpCallRecord) :
    statusObservation other run' call = statusObservation source run call := by
  rw [Findings.statusObservation, Findings.statusObservation, callLocator, callLocator,
    h.snapshotId, h.runNotes hrun, hrun.query]

theorem Reordered.emptyObservation {run run' : SerpQueryRun} (hrun : RunReordered run run')
    (call : SerpCallRecord) (kind : SerpResultType) :
    emptyObservation other run' call kind = emptyObservation source run call kind := by
  rw [Findings.emptyObservation, Findings.emptyObservation, callLocator, callLocator,
    h.snapshotId, h.runNotes hrun, hrun.query]

theorem Reordered.partialObservation {run run' : SerpQueryRun} (hrun : RunReordered run run') :
    partialObservation other run' = partialObservation source run := by
  rw [Findings.partialObservation, Findings.partialObservation, h.snapshotId, h.runNotes hrun,
    h.fetchedAt, hrun.query, hrun.complete]

theorem Reordered.callObservations {run run' : SerpQueryRun} (hrun : RunReordered run run')
    (index : ℕ) (name : String) (call : SerpCallRecord) :
    callObservations other index run' name call = callObservations source index run name call := by
  have hany : ∀ kind, (run'.results.any fun record =>
      record.callId = call.callId && record.resultType = kind) =
      run.results.any fun record => record.callId = call.callId && record.resultType = kind :=
    fun kind => hrun.results.any_eq
  simp only [Findings.callObservations, h.statusObservation hrun, h.emptyObservation hrun, hany]

/-- What is observed in a run, without the places. -/
theorem Reordered.runObservations {run run' : SerpQueryRun} (hrun : RunReordered run run')
    (index : ℕ) :
    ((runObservations other localityFields (run', index)).map Prod.snd).Perm
      ((runObservations source localityFields (run, index)).map Prod.snd) := by
  have hrecords : ∀ (source : SerpSource) (run : SerpQueryRun),
      ((run.results.zipIdx.flatMap (recordObservations source localityFields index run)).map
        Prod.snd) = run.results.flatMap fun record =>
          (observedFields localityFields).filterMap fun field =>
            (recordValue record field).map fun value =>
              Findings.recordObservation source run record field value := by
    intro source run
    conv_rhs => rw [← List.zipIdx_map_fst 0 run.results, List.flatMap_map]
    rw [List.map_flatMap]
    refine List.flatMap_congr fun entry _ => ?_
    simp only [recordObservations, List.map_filterMap, Option.map_map, Function.comp_def]
  simp only [Findings.runObservations, List.map_append, hrun.mapsCall, hrun.googleCall,
    h.callObservations hrun, hrecords, hrun.complete, h.partialObservation hrun,
    h.recordObservation hrun]
  exact ((hrun.results.flatMap_right _).append_left _).append_right _

theorem Reordered.observations :
    ((observations other localityFields).map Prod.snd).Perm
      ((observations source localityFields).map Prod.snd) := by
  have hruns : ∀ {runs runs' : List SerpQueryRun}, List.Forall₂ RunReordered runs runs' → ∀ n,
      (((runs'.zipIdx n).flatMap (Findings.runObservations other localityFields)).map
        Prod.snd).Perm
      (((runs.zipIdx n).flatMap (Findings.runObservations source localityFields)).map
        Prod.snd) := by
    intro runs runs' hall
    induction hall with
    | nil => exact fun _ => .refl _
    | cons hrun _ ih =>
        intro n
        rw [List.zipIdx_cons, List.zipIdx_cons, List.flatMap_cons, List.flatMap_cons,
          List.map_append, List.map_append]
        exact (h.runObservations hrun n).append (ih (n + 1))
  have hcounts : ∀ count, countObservation other count = countObservation source count := by
    intro count
    rw [countObservation, countObservation, h.snapshotId, h.fetchedAt, h.limitations]
  simp only [Findings.observations, List.map_append, List.map_map, h.resultCounts,
    Function.comp_def, hcounts]
  exact (hruns h.runs 0).append_left _

/-- The indexes of reordered sources know the same evidence. -/
theorem Reordered.lookup {items items' : List (String × Observation)}
    (hitems : Indexed lib.evidenceId items (Findings.observations source localityFields))
    (hitems' : Indexed lib.evidenceId items' (Findings.observations other localityFields))
    (key : String) : items'.lookup key = items.lookup key := by
  have hmem : ∀ observation, (∃ entry ∈ Findings.observations other localityFields,
      entry.2 = observation) ↔ ∃ entry ∈ Findings.observations source localityFields,
        entry.2 = observation := by
    intro observation
    rw [← List.mem_map, ← List.mem_map]
    exact h.observations.mem_iff
  cases hlookup : items.lookup key with
  | some observation =>
      obtain ⟨entry, hentry, rfl, rfl⟩ := hitems.only key observation hlookup
      obtain ⟨entry', hentry', heq⟩ := (hmem entry.2).2 ⟨entry, hentry, rfl⟩
      rw [← heq]
      exact hitems'.holds entry' hentry'
  | none =>
      cases hlookup' : items'.lookup key with
      | none => rfl
      | some observation =>
          obtain ⟨entry, hentry, rfl, rfl⟩ := hitems'.only key observation hlookup'
          obtain ⟨entry', hentry', heq⟩ := (hmem entry.2).1 ⟨entry, hentry, rfl⟩
          rw [← heq, hitems.holds entry' hentry'] at hlookup
          cases hlookup

theorem Reordered.consistent
    (hsource : Consistent lib.evidenceId (Findings.observations source localityFields)) :
    Consistent lib.evidenceId (Findings.observations other localityFields) := by
  have hmem : ∀ entry ∈ Findings.observations other localityFields,
      ∃ entry' ∈ Findings.observations source localityFields, entry'.2 = entry.2 :=
    fun entry hentry => List.mem_map.1 (h.observations.mem_iff.1 (List.mem_map_of_mem hentry))
  intro a ha b hb hid
  obtain ⟨a', ha', heq⟩ := hmem a ha
  obtain ⟨b', hb', heq'⟩ := hmem b hb
  rw [← heq, ← heq'] at hid ⊢
  exact hsource a' ha' b' hb' hid

theorem Reordered.summaryLimitations : summaryLimitations other = summaryLimitations source := by
  have hruns : ∀ {runs runs' : List SerpQueryRun}, List.Forall₂ RunReordered runs runs' →
      runs'.flatMap (·.limitations) = runs.flatMap (·.limitations) := by
    intro runs runs' hall
    induction hall with
    | nil => rfl
    | cons hrun _ ih => rw [List.flatMap_cons, List.flatMap_cons, hrun.limitations, ih]
  rw [Findings.summaryLimitations, Findings.summaryLimitations, h.limitations, hruns h.runs]

omit h

/-- Two lookups, of reordered sources, that know the same evidence. -/
structure Alike (lib : FindingsLibrary) (source other : SerpSource) (localityFields : Bool)
    (view view' : EvidenceView) : Prop where
  reordered : Reordered source other
  sees : Sees lib source localityFields view
  sees' : Sees lib other localityFields view'

theorem Alike.lookup {view view' : EvidenceView}
    (h : Alike lib source other localityFields view view') (key : String) :
    view'.items.lookup key = view.items.lookup key :=
  h.reordered.lookup (h.sees.observed ▸ h.sees.indexed) (h.sees'.observed ▸ h.sees'.indexed) key

theorem Alike.notes {view view' : EvidenceView}
    (h : Alike lib source other localityFields view view') (keys : List String) :
    view'.notes keys = view.notes keys := by
  have hnotesOf : view'.notesOf = view.notesOf := by
    funext key
    simp only [EvidenceView.notesOf, h.lookup key, h.sees.shown, h.sees'.shown, Option.map_some,
      h.reordered.summaryLimitations]
  rw [EvidenceView.notes, EvidenceView.notes, hnotesOf]

/-- Decisions on the same evidence are the same. -/
theorem Alike.decision {view view' : EvidenceView} {context : MarketContext}
    (h : Alike lib source other localityFields view view') {rule : MarketRule}
    {target : RuleTarget} {state : EvaluationState} {reason : EvaluationReason}
    {evidence evidence' comparators comparators' : List String} {statement : String}
    {notes : List String} (hevidence : ∀ key, key ∈ evidence' ↔ key ∈ evidence)
    (hcomparators : ∀ key, key ∈ comparators' ↔ key ∈ comparators) :
    decision lib view' context rule target state reason evidence' comparators' statement notes =
      decision lib view context rule target state reason evidence comparators statement notes := by
  have hconfidences : view'.confidences = view.confidences := by
    funext keys
    simp only [EvidenceView.confidences, h.lookup]
  simp only [Findings.decision, decisionFinding, triggeredFinding, h.notes, hconfidences,
    sortedSet_eq_of_mem_iff hevidence, sortedSet_eq_of_mem_iff hcomparators]

end Reordering

section Admission

variable {lib : FindingsLibrary} {market : TargetMarket}

theorem eq_singleton_of_perm {α : Type*} {items other : List α} (h : items.Perm other) {a : α}
    (ha : items = [a]) : other = [a] := by
  subst ha
  exact List.perm_singleton.1 h.symm

theorem groupVote_eq_of_perm {rows rows' : List AuditRow} (h : rows.Perm rows') :
    groupVote rows = groupVote rows' := by
  have hstates := (h.map AuditRow.state).dedup
  have hplaces := (h.map AuditRow.places).dedup
  unfold groupVote
  split
  next state places hstate hplace =>
    simp only [eq_singleton_of_perm hstates hstate, eq_singleton_of_perm hplaces hplace]
  next hno =>
    split
    next state places hstate hplace =>
      exact absurd (eq_singleton_of_perm hplaces.symm hplace)
        (hno state places (eq_singleton_of_perm hstates.symm hstate))
    next => rfl

theorem auditVotes_perm {rows rows' : List AuditRow} (h : rows.Perm rows') :
    (auditVotes rows).Perm (auditVotes rows') := by
  have hvote : ∀ group, groupVote (rows.filter (·.group = group)) =
      groupVote (rows'.filter (·.group = group)) := fun group =>
    groupVote_eq_of_perm (h.filter _)
  simp only [auditVotes, hvote]
  exact ((h.map AuditRow.group).dedup).map _

/-- The audit of a sample whose results show their URLs does not depend on their order. -/
theorem nonLocalMajority_eq_of_perm {records records' : List SerpMarketResultRecord}
    (h : records.Perm records') (hurls : ∀ record ∈ records, record.url.isSome = true) :
    nonLocalMajority lib records market = nonLocalMajority lib records' market := by
  have hrows : ∀ records : List SerpMarketResultRecord,
      (∀ record ∈ records, record.url.isSome = true) →
      records.zipIdx.map (auditRow lib market) =
        records.map fun record => auditRow lib market (record, 0) := by
    intro records hurls
    conv_rhs => rw [← List.zipIdx_map_fst 0 records, List.map_map]
    refine List.map_congr_left fun entry hentry => ?_
    obtain ⟨url, hurl⟩ := Option.isSome_iff_exists.1 (hurls entry.1
      (List.fst_mem_of_mem_zipIdx hentry))
    simp [auditRow, hurl]
  have hurls' : ∀ record ∈ records', record.url.isSome = true :=
    fun record hrecord => hurls record (h.mem_iff.2 hrecord)
  have hvotes := auditVotes_perm (h.map fun record => auditRow lib market (record, 0))
  simp only [nonLocalMajority, hrows records hurls, hrows records' hurls', hvotes.length_eq,
    hvotes.count_eq]

theorem organicScopeSupported_eq_of_perm {records records' : List SerpMarketResultRecord}
    (h : records.Perm records') (query : String) (city : Option String) :
    organicScopeSupported lib query records city =
      organicScopeSupported lib query records' city := by
  simp only [organicScopeSupported, h.any_eq]

end Admission

section Samples

variable {lib : FindingsLibrary} {view view' : EvidenceView} {context : MarketContext}
  {source other : SerpSource} {localityFields sampling reviewed : Bool} {run run' : SerpQueryRun}
  {index : ℕ} {kind : SerpResultType}

theorem sampleOf_eq (run : SerpQueryRun) (kind : SerpResultType) :
    sampleOf run kind = run.results.filter (·.resultType = kind) := by
  conv_rhs => rw [← List.zipIdx_map_fst 0 run.results, List.filter_map]
  rfl

theorem RunReordered.sampleOf (h : RunReordered run run') (kind : SerpResultType) :
    (sampleOf run' kind).Perm (sampleOf run kind) := by
  rw [sampleOf_eq, sampleOf_eq]
  exact h.results.filter _

theorem RunReordered.callOf (h : RunReordered run run') (kind : SerpResultType) :
    run'.callOf kind = run.callOf kind := by
  cases kind <;> simp [SerpQueryRun.callOf, h.mapsCall, h.googleCall]

theorem placed_of_perm {sample sample' : List SerpMarketResultRecord} (h : sample'.Perm sample)
    {domain : String} {basis : SerpRankSource} {position : ℤ} :
    Placed lib sample' domain basis position ↔ Placed lib sample domain basis position := by
  simp only [Placed, h.mem_iff]

/-- The evidence of the results of a type, at the places that they have in a run. -/
theorem mem_flatMap_fieldRefs (hsees : Sees lib source localityFields view)
    (hrun : (run, index) ∈ source.payload.queryRuns.zipIdx) {p : SerpMarketResultRecord → Prop}
    [DecidablePred p] {fields : List String} {key : String} :
    (key ∈ ((run.recordsOf kind).filter fun entry => p entry.1).flatMap fun entry =>
        view.fieldRefs lib.evidenceId (recordPath index entry.2) fields) ↔
      ∃ record ∈ sampleOf run kind, p record ∧
        RecordKey lib source localityFields run record fields key := by
  rw [List.mem_flatMap]
  constructor
  · rintro ⟨entry, hentry, hkey⟩
    obtain ⟨hmem, hp⟩ := List.mem_filter.1 hentry
    exact ⟨entry.1, List.mem_map_of_mem hmem, of_decide_eq_true hp,
      (mem_fieldRefs hsees hrun (List.mem_filter.1 hmem).1).1 hkey⟩
  · rintro ⟨record, hrecord, hp, hkey⟩
    obtain ⟨entry, hmem, rfl⟩ := List.mem_map.1 hrecord
    exact ⟨entry, List.mem_filter.2 ⟨hmem, decide_eq_true hp⟩,
      (mem_fieldRefs hsees hrun (List.mem_filter.1 hmem).1).2 hkey⟩

/-- The fields that tell the position of a result. -/
def positionFields : List String := ["position", "url", "rank_source", "result_type"]

theorem mem_refs_of_positionOf (hsees : Sees lib source localityFields view)
    (hrun : (run, index) ∈ source.payload.queryRuns.zipIdx) {domain : String}
    {position : DomainPosition}
    (h : positionOf lib view index (run.recordsOf kind) domain = some position) {key : String} :
    key ∈ position.refs ↔ ∃ record ∈ sampleOf run kind,
      (hostOf lib record = some domain ∧ record.position = position.position) ∧
        RecordKey lib source localityFields run record positionFields key := by
  unfold positionOf at h
  dsimp only at h
  split at h
  next basis minimum _ _ =>
    cases h
    rw [← mem_flatMap_fieldRefs hsees hrun, rowsOf, List.filter_filter]
    simp only [Bool.decide_and, Bool.and_comm, positionFields]
  next => cases h

/-- A run of two reordered sources at one index. -/
structure RunAlike (lib : FindingsLibrary) (source other : SerpSource) (localityFields : Bool)
    (view view' : EvidenceView) (index : ℕ) (run run' : SerpQueryRun) : Prop
    extends Alike lib source other localityFields view view' where
  runs : RunReordered run run'
  mem : (run, index) ∈ source.payload.queryRuns.zipIdx
  mem' : (run', index) ∈ other.payload.queryRuns.zipIdx

variable (h : RunAlike lib source other localityFields view view' index run run')

include h

theorem RunAlike.recordKey (record : SerpMarketResultRecord) (fields : List String)
    (key : String) :
    RecordKey lib other localityFields run' record fields key ↔
      RecordKey lib source localityFields run record fields key := by
  simp only [RecordKey, h.reordered.recordObservation h.runs]

variable (kind) in
theorem RunAlike.fieldRefs (p : SerpMarketResultRecord → Prop) [DecidablePred p]
    (fields : List String) (key : String) :
    (key ∈ ((run'.recordsOf kind).filter fun entry => p entry.1).flatMap fun entry =>
        view'.fieldRefs lib.evidenceId (recordPath index entry.2) fields) ↔
      key ∈ ((run.recordsOf kind).filter fun entry => p entry.1).flatMap fun entry =>
        view.fieldRefs lib.evidenceId (recordPath index entry.2) fields := by
  rw [mem_flatMap_fieldRefs h.sees' h.mem', mem_flatMap_fieldRefs h.sees h.mem]
  simp only [(h.runs.sampleOf kind).mem_iff, h.recordKey]

/-- A domain has the same position in both, on the same evidence. -/
theorem RunAlike.positionOf {domain : String} {position : DomainPosition}
    (hposition : positionOf lib view index (run.recordsOf kind) domain = some position) :
    ∃ refs, positionOf lib view' index (run'.recordsOf kind) domain =
        some ⟨position.position, position.basis, refs⟩ ∧
      ∀ key, key ∈ refs ↔ key ∈ position.refs := by
  have hplaced := positionOf_some_iff.1 ⟨position.refs, hposition⟩
  obtain ⟨refs, hrefs⟩ := Placed.positionOf view' index
    ((placed_of_perm (h.runs.sampleOf kind)).2 hplaced)
  refine ⟨refs, hrefs, fun key => ?_⟩
  rw [mem_refs_of_positionOf h.sees h.mem hposition,
    mem_refs_of_positionOf h.sees' h.mem' hrefs]
  simp only [(h.runs.sampleOf kind).mem_iff, h.recordKey]

theorem RunAlike.symm : RunAlike lib other source localityFields view' view index run' run where
  reordered := h.reordered.symm
  sees := h.sees'
  sees' := h.sees
  runs := h.runs.symm
  mem := h.mem'
  mem' := h.mem

theorem RunAlike.positionOf_none {domain : String}
    (hnone : Findings.positionOf lib view index (run.recordsOf kind) domain = none) :
    Findings.positionOf lib view' index (run'.recordsOf kind) domain = none := by
  cases hposition : Findings.positionOf lib view' index (run'.recordsOf kind) domain with
  | none => rfl
  | some position =>
      obtain ⟨refs, hrefs, -⟩ := h.symm.positionOf hposition
      rw [hnone] at hrefs
      cases hrefs

theorem RunAlike.mem_domainsOf {domain : String} :
    domain ∈ domainsOf lib (run'.recordsOf kind) ↔ domain ∈ domainsOf lib (run.recordsOf kind) := by
  have hsample : ∀ run : SerpQueryRun, domain ∈ domainsOf lib (run.recordsOf kind) ↔
      ∃ record ∈ sampleOf run kind, hostOf lib record = some domain := by
    intro run
    rw [Findings.mem_domainsOf]
    constructor
    · rintro ⟨entry, hentry, hhost⟩
      exact ⟨entry.1, List.mem_map_of_mem hentry, hhost⟩
    · rintro ⟨record, hrecord, hhost⟩
      obtain ⟨entry, hentry, rfl⟩ := List.mem_map.1 hrecord
      exact ⟨entry, hentry, hhost⟩
  rw [hsample, hsample]
  simp only [(h.runs.sampleOf kind).mem_iff]

theorem RunAlike.mem_conflictingOf {domain : String} :
    domain ∈ conflictingOf lib view' index (run'.recordsOf kind) ↔
      domain ∈ conflictingOf lib view index (run.recordsOf kind) := by
  simp only [conflictingOf, List.mem_filter, h.mem_domainsOf, Option.isNone_iff_eq_none]
  exact and_congr_right fun _ => ⟨h.symm.positionOf_none, h.positionOf_none⟩

variable (context kind) in
/-- The same domains are comparable, and the same ones lead. -/
theorem RunAlike.comparable {client client' : DomainPosition} (hbasis : client'.basis = client.basis) :
    ((comparablePositions lib view' context index run' kind client').map Prod.fst).Perm
      ((comparablePositions lib view context index run kind client).map Prod.fst) := by
  refine (List.perm_ext_iff_of_nodup nodup_comparable nodup_comparable).2 fun domain => ?_
  rw [mem_comparable, mem_comparable, hbasis]
  simp only [placed_of_perm (h.runs.sampleOf kind)]

variable (context kind) in
theorem RunAlike.leading {client client' : DomainPosition} (hbasis : client'.basis = client.basis)
    (hposition : client'.position = client.position) :
    ((leadingPositions lib view' context index run' kind client').map Prod.fst).Perm
      ((leadingPositions lib view context index run kind client).map Prod.fst) := by
  refine (List.perm_ext_iff_of_nodup nodup_leading nodup_leading).2 fun domain => ?_
  rw [mem_leading, mem_leading, hbasis, hposition]
  simp only [placed_of_perm (h.runs.sampleOf kind)]

theorem RunAlike.basisMismatch {client client' : DomainPosition}
    (hbasis : client'.basis = client.basis) :
    basisMismatch lib view' context index run' kind client' =
      basisMismatch lib view context index run kind client := by
  have hone : ∀ {source other : SerpSource} {view view' : EvidenceView} {run run' : SerpQueryRun}
      {client client' : DomainPosition},
      RunAlike lib source other localityFields view view' index run run' →
      client'.basis = client.basis → ∀ domain,
      (∃ entry ∈ positionsOf lib view index (run.recordsOf kind),
        entry.1 = domain ∧ entry.2.basis ≠ client.basis) →
      ∃ entry ∈ positionsOf lib view' index (run'.recordsOf kind),
        entry.1 = domain ∧ entry.2.basis ≠ client'.basis := by
    rintro source other view view' run run' client client' h hbasis _ ⟨⟨domain, position⟩, hmem,
      rfl, hne⟩
    obtain ⟨refs, hrefs, -⟩ := h.positionOf (mem_positionsOf.1 hmem)
    exact ⟨_, mem_positionsOf.2 hrefs, rfl, hbasis ▸ hne⟩
  rw [Bool.eq_iff_iff]
  simp only [Findings.basisMismatch, List.any_eq_true, Bool.or_eq_true, Bool.and_eq_true,
    decide_eq_true_eq, h.mem_conflictingOf]
  exact exists_congr fun domain => and_congr_right fun _ => or_congr_right
    ⟨hone h.symm hbasis.symm domain, hone h hbasis domain⟩

/-- The evidence of some domains is the same in both. -/
theorem RunAlike.refs {entries entries' : List (String × DomainPosition)}
    (hentries : entries ⊆ positionsOf lib view index (run.recordsOf kind))
    (hentries' : entries' ⊆ positionsOf lib view' index (run'.recordsOf kind))
    (hdomains : (entries'.map Prod.fst).Perm (entries.map Prod.fst)) (key : String) :
    (key ∈ entries'.flatMap fun entry => entry.2.refs) ↔
      key ∈ entries.flatMap fun entry => entry.2.refs := by
  have hone : ∀ {source other : SerpSource} {view view' : EvidenceView} {run run' : SerpQueryRun}
      {entries entries' : List (String × DomainPosition)},
      RunAlike lib source other localityFields view view' index run run' →
      entries ⊆ positionsOf lib view index (run.recordsOf kind) →
      entries' ⊆ positionsOf lib view' index (run'.recordsOf kind) →
      (entries'.map Prod.fst).Perm (entries.map Prod.fst) →
      (key ∈ entries.flatMap fun entry => entry.2.refs) →
      key ∈ entries'.flatMap fun entry => entry.2.refs := by
    intro source other view view' run run' entries entries' h hentries hentries' hdomains hkey
    obtain ⟨⟨domain, position⟩, hmem, hkey⟩ := List.mem_flatMap.1 hkey
    obtain ⟨refs, hrefs, hsame⟩ := h.positionOf (mem_positionsOf.1 (hentries hmem))
    obtain ⟨⟨_, position'⟩, hmem', rfl⟩ :=
      List.mem_map.1 (hdomains.mem_iff.2 (List.mem_map_of_mem hmem))
    have hposition' := mem_positionsOf.1 (hentries' hmem')
    rw [hrefs, Option.some.injEq] at hposition'
    refine List.mem_flatMap.2 ⟨_, hmem', ?_⟩
    rw [← hposition']
    exact (hsame key).2 hkey
  exact ⟨hone h.symm hentries' hentries hdomains.symm, hone h hentries hentries' hdomains⟩

theorem RunAlike.marketTarget (query : String) :
    marketTarget context query kind (some other) =
      marketTarget context query kind (some source) := by
  simp only [Findings.marketTarget, Option.map_some, h.reordered.snapshotId,
    h.reordered.targetPoint]

variable {callRefs callRefs' urlRefs urlRefs' : List String}
  (hcall : ∀ key, key ∈ callRefs' ↔ key ∈ callRefs)

include hcall

theorem RunAlike.comparedOutcome {client client' : DomainPosition}
    (hbasis : client'.basis = client.basis) (hposition : client'.position = client.position)
    (hrefs : ∀ key, key ∈ client'.refs ↔ key ∈ client.refs) :
    comparedOutcome lib view' context other index run' kind callRefs' client' =
      comparedOutcome lib view context source index run kind callRefs client := by
  have hcomparable := h.comparable context kind hbasis
  have hleading := h.leading context kind hbasis hposition
  have hlengthComparable := hcomparable.length_eq
  have hlengthLeading := hleading.length_eq
  rw [List.length_map, List.length_map] at hlengthComparable hlengthLeading
  have hsubset : ∀ (view : EvidenceView) (run : SerpQueryRun) (client : DomainPosition),
      (if 2 ≤ (leadingPositions lib view context index run kind client).length then
        leadingPositions lib view context index run kind client
        else comparablePositions lib view context index run kind client) ⊆
      positionsOf lib view index (run.recordsOf kind) := by
    intro view run client
    split
    · exact List.Subset.trans (List.filter_subset' _) (List.filter_subset' _)
    · exact List.filter_subset' _
  have hchosen : ((if 2 ≤ (leadingPositions lib view context index run kind client).length then
      leadingPositions lib view' context index run' kind client'
      else comparablePositions lib view' context index run' kind client').map Prod.fst).Perm
      ((if 2 ≤ (leadingPositions lib view context index run kind client).length then
        leadingPositions lib view context index run kind client
        else comparablePositions lib view context index run kind client).map Prod.fst) := by
    split
    · exact hleading
    · exact hcomparable
  have hids : ∀ entries : List (String × DomainPosition),
      (entries.filterMap fun entry => competitorOf lib context entry.1) =
        (entries.map Prod.fst).filterMap (competitorOf lib context) := by
    intro entries
    rw [List.filterMap_map]
    rfl
  have hsubset' := hsubset view' run' client'
  simp only [hlengthLeading] at hsubset'
  simp only [Findings.comparedOutcome, hlengthComparable, hlengthLeading,
    h.basisMismatch hbasis, h.marketTarget, hposition, h.runs.query, hids,
    sortedSet_eq_of_mem_iff fun _ => (hchosen.filterMap (competitorOf lib context)).mem_iff]
  refine h.toAlike.decision (fun key => ?_) fun key => ?_
  · rw [List.mem_append, List.mem_append, hcall, hrefs]
  · exact h.refs (hsubset view run client) hsubset' hchosen key

theorem RunAlike.aheadOutcome :
    aheadOutcome lib view' context other index run' kind callRefs' =
      aheadOutcome lib view context source index run kind callRefs := by
  unfold Findings.aheadOutcome
  dsimp only
  cases hposition : Findings.positionOf lib view index (run.recordsOf kind)
      (clientHost lib context) with
  | none =>
      simp only [h.positionOf_none hposition, h.marketTarget, h.runs.query, h.mem_conflictingOf]
      exact h.toAlike.decision hcall fun _ => Iff.rfl
  | some client =>
      obtain ⟨refs, hrefs, hsame⟩ := h.positionOf hposition
      simp only [hrefs]
      exact h.comparedOutcome hcall rfl rfl hsame

omit hcall

theorem RunAlike.any_url_isNone :
    ((run'.recordsOf kind).any fun entry => entry.1.url.isNone) =
      (run.recordsOf kind).any fun entry => entry.1.url.isNone := by
  have hsample : ∀ run : SerpQueryRun, ((run.recordsOf kind).any fun entry => entry.1.url.isNone) =
      (Findings.sampleOf run kind).any fun record => record.url.isNone := by
    intro run
    rw [Findings.sampleOf, List.any_map]
    rfl
  rw [hsample, hsample]
  exact (h.runs.sampleOf kind).any_eq

include hcall

theorem RunAlike.domainOutcome (hurls : ∀ key, key ∈ urlRefs' ↔ key ∈ urlRefs) :
    domainOutcome lib view' context other index run' kind sampling callRefs' urlRefs' =
      domainOutcome lib view context source index run kind sampling callRefs urlRefs := by
  unfold Findings.domainOutcome
  simp only [h.any_url_isNone, h.marketTarget, h.runs.query, h.mem_domainsOf]
  split
  next => exact h.toAlike.decision hcall fun _ => Iff.rfl
  next hnone =>
    have hmajority : nonLocalMajority lib ((run'.recordsOf kind).map Prod.fst)
        context.targetMarket =
        nonLocalMajority lib ((run.recordsOf kind).map Prod.fst) context.targetMarket := by
      refine (nonLocalMajority_eq_of_perm (h.runs.sampleOf kind).symm fun record hrecord => ?_).symm
      obtain ⟨entry, hentry, rfl⟩ := List.mem_map.1 hrecord
      by_contra hurl
      exact hnone (List.any_eq_true.2 ⟨entry, hentry, by simpa using hurl⟩)
    simp only [hmajority]
    split
    next =>
      refine h.toAlike.decision (fun key => ?_) fun _ => Iff.rfl
      have hfields := h.fieldRefs kind (fun _ => True)
        ["display_name", "snippet", "address", "url"] key
      simp only [decide_true, List.filter_true] at hfields
      rw [List.mem_append, List.mem_append, hcall, hfields]
    next =>
      refine h.toAlike.decision (fun key => ?_) fun _ => Iff.rfl
      rw [List.mem_append, List.mem_append, hcall, hurls]

omit hcall

theorem RunAlike.statusRefs (kind : SerpResultType) :
    view'.requiredRefs lib.evidenceId (runPath index ++
        [.field (run'.callOf kind).1, .field "status"]) =
      view.requiredRefs lib.evidenceId
        (runPath index ++ [.field (run.callOf kind).1, .field "status"]) := by
  have hrefs : view'.refs lib.evidenceId (runPath index ++
        [.field (run'.callOf kind).1, .field "status"]) =
      view.refs lib.evidenceId
        (runPath index ++ [.field (run.callOf kind).1, .field "status"]) := by
    refine sortedSet_eq_of_mem_iff fun key => ?_
    have hmem : key ∈ view.refs lib.evidenceId
        (runPath index ++ [.field (run.callOf kind).1, .field "status"]) ↔ _ := mem_refs h.sees
    have hmem' : key ∈ view'.refs lib.evidenceId
        (runPath index ++ [.field (run'.callOf kind).1, .field "status"]) ↔ _ := mem_refs h.sees'
    rw [EvidenceView.refs, mem_sortedSet] at hmem hmem'
    rw [hmem, hmem']
    simp only [observed_status h.mem', observed_status h.mem]
    simp only [h.runs.callOf, h.reordered.statusObservation h.runs]
  rw [EvidenceView.requiredRefs, EvidenceView.requiredRefs, hrefs]

omit h

/-- The evidence of the URLs of a sample. -/
theorem mem_allUrlRefs (hsees : Sees lib source localityFields view)
    (hrun : (run, index) ∈ source.payload.queryRuns.zipIdx) {keys : List String}
    (hkeys : allUrlRefs lib view index run kind = .ok keys) (key : String) :
    key ∈ keys ↔ ∃ record ∈ sampleOf run kind, record.url.isSome = true ∧
      RecordKey lib source localityFields run record ["url"] key := by
  obtain ⟨lists, hlists, rfl⟩ := ok_of_map hkeys
  have hall := forall₂_of_mapM_ok hlists
  have hentry : ∀ (entry : SerpMarketResultRecord × ℕ) list, entry ∈ run.results.zipIdx →
      view.requiredRefs lib.evidenceId (recordPath index entry.2 ++ [.field "url"]) = .ok list →
      (key ∈ list ↔ RecordKey lib source localityFields run entry.1 ["url"] key) := by
    intro entry list hmem hlist
    rw [← mem_refs_field hsees hrun hmem]
    unfold EvidenceView.requiredRefs at hlist
    split at hlist
    next => cases hlist
    next =>
      cases hlist
      exact Iff.rfl
  rw [List.mem_flatten]
  constructor
  · rintro ⟨list, hlist, hkey⟩
    obtain ⟨entry, hmem, hrefs⟩ := exists_left_of_mem hall hlist
    obtain ⟨hrecord, hurl⟩ := List.mem_filter.1 hmem
    exact ⟨entry.1, List.mem_map_of_mem hrecord, hurl,
      (hentry entry list (List.mem_filter.1 hrecord).1 hrefs).1 hkey⟩
  · rintro ⟨record, hrecord, hurl, hkey⟩
    obtain ⟨entry, hmem, rfl⟩ := List.mem_map.1 hrecord
    obtain ⟨list, hlist, hrefs⟩ := exists_right_of_mem hall (List.mem_filter.2 ⟨hmem, hurl⟩)
    exact ⟨list, hlist, (hentry entry list (List.mem_filter.1 hmem).1 hrefs).2 hkey⟩

include h

/-- The decisions on a type of results of a run are the same in both. -/
theorem RunAlike.evaluateKind :
    evaluateKind lib view' context reviewed sampling other index run' kind =
      evaluateKind lib view context reviewed sampling source index run kind := by
  have hnotChecked : ∀ reason notes,
      notChecked lib view' context (Findings.marketTarget context run.query kind (some source))
        reason notes =
      notChecked lib view context (Findings.marketTarget context run.query kind (some source))
        reason notes := by
    intro reason notes
    have hdecision : ∀ rule,
        decision lib view' context rule (Findings.marketTarget context run.query kind (some source))
          .notChecked reason [] [] "" notes =
        decision lib view context rule (Findings.marketTarget context run.query kind (some source))
          .notChecked reason [] [] "" notes :=
      fun _ => h.toAlike.decision (fun _ => Iff.rfl) fun _ => Iff.rfl
    simp only [notChecked, hdecision]
  have hempty : run'.recordsOf kind = [] ↔ run.recordsOf kind = [] := by
    have hsample : ∀ run : SerpQueryRun, run.recordsOf kind = [] ↔ sampleOf run kind = [] :=
      fun run => List.map_eq_nil_iff.symm
    rw [hsample, hsample]
    exact ⟨fun hnil => List.nil_perm.1 (hnil ▸ h.runs.sampleOf kind),
      fun hnil => List.perm_nil.1 (hnil ▸ h.runs.sampleOf kind)⟩
  have hscope : organicScopeSupported lib run.query ((run'.recordsOf kind).map Prod.fst)
      context.targetMarket.city =
      organicScopeSupported lib run.query ((run.recordsOf kind).map Prod.fst)
        context.targetMarket.city :=
    organicScopeSupported_eq_of_perm (h.runs.sampleOf kind) _ _
  unfold Findings.evaluateKind
  simp only [h.runs.callOf, h.marketTarget, h.runs.query, hnotChecked, hempty, hscope]
  split
  · rfl
  split
  · rfl
  split
  · rfl
  have hcall := h.statusRefs kind
  rw [h.runs.callOf] at hcall
  rw [hcall]
  cases hcallRefs : view.requiredRefs lib.evidenceId
      (runPath index ++ [.field (run.callOf kind).1, .field "status"]) with
  | error error => rfl
  | ok callRefs =>
      obtain ⟨urlRefs, hurlRefs, -⟩ := allUrlRefs_ok kind h.sees h.mem
      obtain ⟨urlRefs', hurlRefs', -⟩ := allUrlRefs_ok kind h.sees' h.mem'
      have hurls : ∀ key, key ∈ urlRefs' ↔ key ∈ urlRefs := by
        intro key
        rw [mem_allUrlRefs h.sees h.mem hurlRefs, mem_allUrlRefs h.sees' h.mem' hurlRefs']
        simp only [(h.runs.sampleOf kind).mem_iff, h.recordKey]
      rw [ok_bind, ok_bind, hurlRefs, hurlRefs', ok_bind, ok_bind,
        h.domainOutcome (fun _ => Iff.rfl) hurls, h.aheadOutcome fun _ => Iff.rfl]

omit h

end Samples

end SearchTrust.Findings
