/-
When the guardrail of an action speaks of one evidence item only.
-/
import SearchTrust.Execution.Guardrail

namespace SearchTrust.Execution

open SearchTrust.Order

section Contract

variable (evaluations : FindingOrigin × String → Option RuleEvaluation)
  (evidence : String → Option EvidenceItem) (traces : String → Option SourceTrace)

/-- A relation of a guarding kind whose evaluation cites evidence that both indexes know. -/
structure Offers (relation : FindingRelation) (evaluation : RuleEvaluation) : Prop where
  kind : relation.relationKind = .supports ∨ relation.relationKind = .reducesUrgency
  found : evaluations (relation.findingRef.originStage, relation.findingRef.findingId) =
    some evaluation
  cited : ∃ id ∈ evaluation.evidenceIds, (evidence id).isSome ∧ (traces id).isSome

/-- The first relation that offers a guardrail. -/
def FirstOffer (relations : List FindingRelation) (relation : FindingRelation)
    (evaluation : RuleEvaluation) : Prop :=
  ∃ before after, relations = before ++ relation :: after ∧
    (∀ other ∈ before, ∀ e, ¬Offers evaluations evidence traces other e) ∧
    Offers evaluations evidence traces relation evaluation

/-- The cited evidence with the best priority and, among those, the smallest id. -/
structure Selected (evaluation : RuleEvaluation) (id : String) (item : EvidenceItem)
    (trace : SourceTrace) : Prop where
  cited : id ∈ evaluation.evidenceIds
  item_eq : evidence id = some item
  trace_eq : traces id = some trace
  best : ∀ other ∈ evaluation.evidenceIds, ∀ item' trace', evidence other = some item' →
    traces other = some trace' →
    fieldPriority item.sourceType trace.field < fieldPriority item'.sourceType trace'.field ∨
      fieldPriority item.sourceType trace.field = fieldPriority item'.sourceType trace'.field ∧
        id ≤ other

/-- Field, value, window and comparators of the metric are those of one evidence item. -/
structure BelongsTo (metric : ExecutionMetric) (relation : FindingRelation)
    (evaluation : RuleEvaluation) (id : String) (item : EvidenceItem) (trace : SourceTrace) :
    Prop where
  key_eq : metric.metricKey = "verified_" ++ item.sourceType.text ++ "_" ++ trace.field
  baseline_eq : metric.baseline =
    trace.field ++ "=" ++ item.normalizedValue.text ++ coverageText trace
  source_eq : metric.sourceTypes = [item.sourceType]
  evidence_eq : metric.evidenceIds = [id]
  finding_eq : metric.findingRefs = [relation.findingRef]
  comparators : ∀ key, key ∈ metric.comparatorIds ↔
    key ∈ evaluation.comparatorIds ∧ key ≠ id ∧ ∃ other, traces key = some other ∧
      (item.sourceType = .gbp ∨ other.field = trace.field)

/-- The result is a metric exactly where some relation offers one, and then the metric
belongs to the item selected from the first of these relations. -/
structure GuardrailSound (relations : List FindingRelation)
    (result : Except GuardrailError GuardrailResult) : Prop where
  without : (∀ relation ∈ relations, ∀ evaluation,
    ¬Offers evaluations evidence traces relation evaluation) →
    result = .ok (none, [], "NO_TARGET_BOUND_VERIFIED_GUARDRAIL")
  offered : ∀ relation evaluation,
    FirstOffer evaluations evidence traces relations relation evaluation →
    ∃ id item trace metric, Selected evidence traces evaluation id item trace ∧
      result = .ok (some metric, [relation.relationId], "VERIFIED_TARGET_RELATION") ∧
      BelongsTo traces metric relation evaluation id item trace

/-- Of the first relation that offers a guardrail, the last cited evidence id has a trace
with the window of the selected one, and the metric is within the bounds of its model. -/
def WindowKept (relations : List FindingRelation) : Prop :=
  ∀ relation evaluation, FirstOffer evaluations evidence traces relations relation evaluation →
    ∀ id item trace, Selected evidence traces evaluation id item trace →
      (∃ last lastTrace, evaluation.evidenceIds.getLast? = some last ∧
        traces last = some lastTrace ∧ coverageText lastTrace = coverageText trace) ∧
      (rawMetric traces relation evaluation id item trace.field
        (coverageText trace)).validated.isSome

end Contract

section Steps

variable {evaluations : FindingOrigin × String → Option RuleEvaluation}
  {evidence : String → Option EvidenceItem} {traces : String → Option SourceTrace}
  {relation : FindingRelation} {evaluation : RuleEvaluation}

/-- The loop collects the candidates in order and leaves the trace of the last id. -/
theorem collectCandidates_eq (evidenceIds : List String) :
    collectCandidates evidence traces evidenceIds =
      (evidenceIds.filterMap (candidateOf evidence traces),
        evidenceIds.getLast?.bind traces) := by
  induction evidenceIds using List.reverseRecOn with
  | nil => rfl
  | append_singleton ids id ih =>
      unfold collectCandidates at ih ⊢
      rw [List.foldl_append, ih, List.filterMap_append, List.getLast?_append,
        List.getLast?_singleton, Option.some_or, Option.bind_some]
      cases hcandidate : candidateOf evidence traces id with
      | none => simp [hcandidate]
      | some candidate => simp [hcandidate]

theorem candidateOf_eq_some_iff {id : String} {candidate : Candidate} :
    candidateOf evidence traces id = some candidate ↔
      ∃ item trace, evidence id = some item ∧ traces id = some trace ∧
        candidate = (fieldPriority item.sourceType trace.field, id, trace.field) := by
  unfold candidateOf
  cases evidence id with
  | none => simp
  | some item =>
      cases traces id with
      | none => simp
      | some trace => simp [eq_comm]

theorem candidates_eq_nil_iff :
    evaluation.evidenceIds.filterMap (candidateOf evidence traces) = [] ↔
      ¬∃ id ∈ evaluation.evidenceIds, (evidence id).isSome ∧ (traces id).isSome := by
  rw [List.filterMap_eq_nil_iff]
  constructor
  · rintro hnone ⟨id, hid, hitem, htrace⟩
    obtain ⟨item, hitem⟩ := Option.isSome_iff_exists.1 hitem
    obtain ⟨trace, htrace⟩ := Option.isSome_iff_exists.1 htrace
    have hsome := candidateOf_eq_some_iff.2 ⟨item, trace, hitem, htrace, rfl⟩
    rw [hnone id hid] at hsome
    cases hsome
  · intro hnone id hid
    by_contra hsome
    obtain ⟨candidate, hcandidate⟩ := Option.ne_none_iff_exists'.1 hsome
    obtain ⟨item, trace, hitem, htrace, _⟩ := candidateOf_eq_some_iff.1 hcandidate
    exact hnone ⟨id, hid, by rw [hitem]; rfl, by rw [htrace]; rfl⟩

/-- The first candidate in order is the selected one. -/
theorem selected_of_head {priority : ℕ} {id field : String} {rest : List Candidate}
    (h : sortedBy candidateKey (evaluation.evidenceIds.filterMap (candidateOf evidence traces)) =
      (priority, id, field) :: rest) :
    ∃ item trace, Selected evidence traces evaluation id item trace ∧ field = trace.field := by
  have hmem : (priority, id, field) ∈
      evaluation.evidenceIds.filterMap (candidateOf evidence traces) := by
    refine (@mem_sortedBy _ _ _ candidateKey _ _).1 ?_
    rw [h]
    exact List.mem_cons_self
  obtain ⟨cited, hcited, hcandidate⟩ := List.mem_filterMap.1 hmem
  obtain ⟨item, trace, hitem, htrace, hparts⟩ := candidateOf_eq_some_iff.1 hcandidate
  obtain ⟨rfl, hnames⟩ := Prod.mk.inj hparts
  obtain ⟨rfl, rfl⟩ := Prod.mk.inj hnames
  refine ⟨item, trace, ⟨hcited, hitem, htrace, ?_⟩, rfl⟩
  intro other hother item' trace' hitem' htrace'
  have hcandidate' := candidateOf_eq_some_iff.2 ⟨item', trace', hitem', htrace', rfl⟩
  have hle := head_sortedBy_le h (List.mem_filterMap.2 ⟨other, hother, hcandidate'⟩)
  unfold candidateKey at hle
  rcases Prod.Lex.le_iff.1 hle with hlt | ⟨heq, hle⟩
  · exact .inl hlt
  · refine .inr ⟨heq, ?_⟩
    rcases Prod.Lex.le_iff.1 hle with hlt | ⟨hid, _⟩
    · exact le_of_lt hlt
    · exact le_of_eq hid

/-- There is one selected id. -/
theorem selected_unique {id id' : String} {item item' : EvidenceItem}
    {trace trace' : SourceTrace} (h : Selected evidence traces evaluation id item trace)
    (h' : Selected evidence traces evaluation id' item' trace') :
    id = id' ∧ item = item' ∧ trace = trace' := by
  have hid : id = id' := by
    rcases h.best id' h'.cited item' trace' h'.item_eq h'.trace_eq with hlt | ⟨heq, hle⟩
    · rcases h'.best id h.cited item trace h.item_eq h.trace_eq with hlt' | ⟨heq', _⟩
      · exact absurd hlt hlt'.not_gt
      · exact absurd heq' hlt.ne'
    · rcases h'.best id h.cited item trace h.item_eq h.trace_eq with hlt' | ⟨_, hle'⟩
      · exact absurd heq hlt'.ne'
      · exact le_antisymm hle hle'
  subst hid
  exact ⟨rfl, Option.some.inj (h.item_eq.symm.trans h'.item_eq),
    Option.some.inj (h.trace_eq.symm.trans h'.trace_eq)⟩

/-- A relation without an offer is passed over. -/
theorem guardrailStep_eq_none
    (h : ∀ evaluation, ¬Offers evaluations evidence traces relation evaluation) :
    guardrailStep evaluations evidence traces relation = none := by
  unfold guardrailStep
  split
  · rfl
  next hkind =>
    split
    · rfl
    next evaluation hfound =>
      have hguards : relation.relationKind = .supports ∨
          relation.relationKind = .reducesUrgency := by
        by_contra hnot
        exact hkind (not_or.1 hnot)
      have hnil := candidates_eq_nil_iff.2 fun hcited => h evaluation ⟨hguards, hfound, hcited⟩
      rw [collectCandidates_eq]
      simp only
      rw [hnil]
      rfl

/-- What the loop does with a relation that offers a guardrail. -/
theorem guardrailStep_of_offers (h : Offers evaluations evidence traces relation evaluation) :
    ∃ id item trace, Selected evidence traces evaluation id item trace ∧
      guardrailStep evaluations evidence traces relation = some (
        match evaluation.evidenceIds.getLast?.bind traces with
        | none => .error .attributeError
        | some last =>
            match (rawMetric traces relation evaluation id item trace.field
                (coverageText last)).validated with
            | none => .error .validationError
            | some metric =>
                .ok (some metric, [relation.relationId], "VERIFIED_TARGET_RELATION")) := by
  have hkind : ¬(relation.relationKind ≠ .supports ∧
      relation.relationKind ≠ .reducesUrgency) := by
    rintro ⟨hsupports, hreduces⟩
    exact h.kind.elim hsupports hreduces
  cases hsorted : sortedBy candidateKey
      (evaluation.evidenceIds.filterMap (candidateOf evidence traces)) with
  | nil =>
      have hlength := congrArg List.length hsorted
      rw [length_sortedBy, List.length_nil, List.length_eq_zero_iff] at hlength
      exact absurd h.cited (candidates_eq_nil_iff.1 hlength)
  | cons first rest =>
      obtain ⟨priority, id, field⟩ := first
      obtain ⟨item, trace, hselected, rfl⟩ := selected_of_head hsorted
      refine ⟨id, item, trace, hselected, ?_⟩
      unfold guardrailStep
      rw [if_neg hkind, h.found]
      simp only
      rw [collectCandidates_eq]
      simp only
      rw [hsorted]
      simp only
      rw [hselected.item_eq]
      cases evaluation.evidenceIds.getLast?.bind traces <;> rfl

theorem guardrailFrom_of_none {relations : List FindingRelation}
    (h : ∀ relation ∈ relations, ∀ evaluation,
      ¬Offers evaluations evidence traces relation evaluation) :
    guardrailFrom evaluations evidence traces relations =
      .ok (none, [], "NO_TARGET_BOUND_VERIFIED_GUARDRAIL") := by
  induction relations with
  | nil => rfl
  | cons relation rest ih =>
      rw [guardrailFrom, guardrailStep_eq_none (h relation List.mem_cons_self)]
      exact ih fun other hother => h other (List.mem_cons_of_mem _ hother)

/-- The first relation that offers a guardrail decides. -/
theorem guardrailFrom_of_first {before after : List FindingRelation}
    {result : Except GuardrailError GuardrailResult}
    (h : ∀ other ∈ before, ∀ e, ¬Offers evaluations evidence traces other e)
    (hstep : guardrailStep evaluations evidence traces relation = some result) :
    guardrailFrom evaluations evidence traces (before ++ relation :: after) = result := by
  induction before with
  | nil => rw [List.nil_append, guardrailFrom, hstep]
  | cons first before ih =>
      rw [List.cons_append, guardrailFrom, guardrailStep_eq_none (h first List.mem_cons_self)]
      exact ih fun other hother => h other (List.mem_cons_of_mem _ hother)

end Steps

section Metric

variable {traces : String → Option SourceTrace} {relation : FindingRelation}
  {evaluation : RuleEvaluation}

/-- A valid metric keeps its texts; its lists are sorted sets. -/
theorem validated_eq {metric result : ExecutionMetric} (h : metric.validated = some result) :
    result = { metric with
      evidenceIds := sortedSet metric.evidenceIds
      comparatorIds := sortedSet metric.comparatorIds
      limitations := sortedSet metric.limitations } := by
  unfold ExecutionMetric.validated at h
  simp only at h
  split at h
  · exact (Option.some.inj h).symm
  · cases h

theorem mem_comparatorsOf {id field key : String} {source : SearchTrust.Report.SourceType} :
    key ∈ comparatorsOf traces evaluation id field source ↔
      key ∈ evaluation.comparatorIds ∧ key ≠ id ∧ ∃ other, traces key = some other ∧
        (source = .gbp ∨ other.field = field) := by
  unfold comparatorsOf
  rw [List.mem_filter, Bool.and_eq_true, decide_eq_true_eq, Option.any_eq_true]
  simp only [Bool.or_eq_true, decide_eq_true_eq]

theorem belongsTo_of_validated {id : String} {item : EvidenceItem} {trace : SourceTrace}
    {metric : ExecutionMetric}
    (h : (rawMetric traces relation evaluation id item trace.field
      (coverageText trace)).validated = some metric) :
    BelongsTo traces metric relation evaluation id item trace := by
  obtain rfl := validated_eq h
  refine ⟨rfl, rfl, rfl, rfl, rfl, ?_⟩
  intro key
  change key ∈ sortedSet (comparatorsOf traces evaluation id trace.field item.sourceType) ↔ _
  rw [mem_sortedSet, mem_comparatorsOf]

theorem append_right_cancel {front a b : String} (h : front ++ a = front ++ b) : a = b := by
  have hlist := congrArg String.toList h
  rw [String.toList_append, String.toList_append] at hlist
  exact String.toList_inj.1 (List.append_cancel_left hlist)

/-- A window that the baseline shows is the one it was built with. -/
theorem window_of_baseline {id window window' : String} {item : EvidenceItem} {field : String}
    {metric : ExecutionMetric}
    (h : (rawMetric traces relation evaluation id item field window).validated = some metric)
    (hbaseline : metric.baseline = field ++ "=" ++ item.normalizedValue.text ++ window') :
    window = window' := by
  obtain rfl := validated_eq h
  exact append_right_cancel hbaseline

end Metric

section Result

variable {evaluations : FindingOrigin × String → Option RuleEvaluation}
  {evidence : String → Option EvidenceItem} {traces : String → Option SourceTrace}
  {relations : List FindingRelation}

/-- A sound result needs the window of the selected evidence on the last one. -/
theorem windowKept_of_sound
    (h : GuardrailSound evaluations evidence traces relations
      (guardrailFrom evaluations evidence traces relations)) :
    WindowKept evaluations evidence traces relations := by
  intro relation evaluation hfirst id item trace hselected
  obtain ⟨id', item', trace', metric, hselected', hresult, hbelongs⟩ :=
    h.offered relation evaluation hfirst
  obtain ⟨rfl, rfl, rfl⟩ := selected_unique hselected hselected'
  obtain ⟨before, after, rfl, hbefore, hoffers⟩ := hfirst
  obtain ⟨id', item', trace', hselected', hstep⟩ := guardrailStep_of_offers hoffers
  obtain ⟨rfl, rfl, rfl⟩ := selected_unique hselected hselected'
  rw [guardrailFrom_of_first hbefore hstep] at hresult
  cases hlast : evaluation.evidenceIds.getLast?.bind traces with
  | none =>
      rw [hlast] at hresult
      cases hresult
  | some lastTrace =>
      obtain ⟨last, hid, htrace⟩ := Option.bind_eq_some_iff.1 hlast
      rw [hlast] at hresult
      simp only at hresult
      cases hvalid : (rawMetric traces relation evaluation id item trace.field
          (coverageText lastTrace)).validated with
      | none =>
          rw [hvalid] at hresult
          cases hresult
      | some built =>
          rw [hvalid] at hresult
          have hmetric : built = metric := by
            have hpair := Except.ok.inj hresult
            exact Option.some.inj (Prod.mk.inj hpair).1
          subst hmetric
          have hwindow := window_of_baseline hvalid hbelongs.baseline_eq
          refine ⟨⟨last, lastTrace, hid, htrace, hwindow⟩, ?_⟩
          rw [← hwindow, hvalid]
          rfl

theorem sound_of_windowKept (h : WindowKept evaluations evidence traces relations) :
    GuardrailSound evaluations evidence traces relations
      (guardrailFrom evaluations evidence traces relations) := by
  refine ⟨guardrailFrom_of_none, ?_⟩
  intro relation evaluation hfirst
  have hkept := h relation evaluation hfirst
  obtain ⟨before, after, rfl, hbefore, hoffers⟩ := hfirst
  obtain ⟨id, item, trace, hselected, hstep⟩ := guardrailStep_of_offers hoffers
  obtain ⟨⟨last, lastTrace, hlast, htrace, hwindow⟩, hvalid⟩ := hkept id item trace hselected
  obtain ⟨metric, hmetric⟩ := Option.isSome_iff_exists.1 hvalid
  refine ⟨id, item, trace, metric, hselected, ?_, belongsTo_of_validated hmetric⟩
  rw [guardrailFrom_of_first hbefore hstep, hlast, Option.bind_some, htrace]
  simp only
  rw [hwindow, hmetric]

/-- The guardrail of an action is right exactly where the last cited evidence id has the
window of the selected one. -/
theorem guardrail_sound_iff (evaluations : FindingOrigin × String → Option RuleEvaluation)
    (evidence : String → Option EvidenceItem) (traces : String → Option SourceTrace)
    (relationIds : List String) (relations : String → Option FindingRelation) :
    GuardrailSound evaluations evidence traces (relationIds.filterMap relations)
      (guardrail evaluations evidence traces relationIds relations) ↔
    WindowKept evaluations evidence traces (relationIds.filterMap relations) :=
  ⟨windowKept_of_sound, sound_of_windowKept⟩

end Result

section Samples

def sampleEvaluation : RuleEvaluation :=
  ⟨some "fn_query", .query, ["ev_current", "ev_previous"], []⟩

def sampleRelation : FindingRelation :=
  ⟨"rel_query", ⟨.firstPartyFindings, "v22_first_party_v1", "fn_query"⟩, .supports⟩

def sampleEvaluations (key : FindingOrigin × String) : Option RuleEvaluation :=
  if key = (.firstPartyFindings, "fn_query") then some sampleEvaluation else none

def sampleEvidence (id : String) : Option EvidenceItem :=
  if id = "ev_current" then some ⟨.gsc, .int 120⟩
  else if id = "ev_previous" then some ⟨.gsc, .int 300⟩
  else none

def sampleTraces (id : String) : Option SourceTrace :=
  if id = "ev_current" then
    some ⟨"ev_current", "impressions", some ⟨some "2026-04-01", some "2026-06-29"⟩⟩
  else if id = "ev_previous" then
    some ⟨"ev_previous", "impressions", some ⟨some "2026-01-01", some "2026-03-31"⟩⟩
  else none

def sampleRelations (id : String) : Option FindingRelation :=
  if id = "rel_query" then some sampleRelation else none

theorem selected_sample :
    Selected sampleEvidence sampleTraces sampleEvaluation "ev_current" ⟨.gsc, .int 120⟩
      ⟨"ev_current", "impressions", some ⟨some "2026-04-01", some "2026-06-29"⟩⟩ := by
  refine ⟨List.mem_cons_self, by decide, by decide, ?_⟩
  intro other hother item trace hitem htrace
  rcases List.mem_cons.1 hother with rfl | hother
  · have hsame : sampleEvidence "ev_current" = some ⟨.gsc, .int 120⟩ := by decide
    have htraced : sampleTraces "ev_current" = some ⟨"ev_current", "impressions",
      some ⟨some "2026-04-01", some "2026-06-29"⟩⟩ := by decide
    rw [hsame] at hitem
    rw [htraced] at htrace
    obtain rfl := Option.some.inj hitem
    obtain rfl := Option.some.inj htrace
    exact .inr ⟨rfl, le_refl _⟩
  · obtain rfl := List.mem_singleton.1 hother
    have hsame : sampleEvidence "ev_previous" = some ⟨.gsc, .int 300⟩ := by decide
    have htraced : sampleTraces "ev_previous" = some ⟨"ev_previous", "impressions",
      some ⟨some "2026-01-01", some "2026-03-31"⟩⟩ := by decide
    rw [hsame] at hitem
    rw [htraced] at htrace
    obtain rfl := Option.some.inj hitem
    obtain rfl := Option.some.inj htrace
    exact .inr ⟨by decide, by decide⟩

/-- The value of the current period appears with the window of the previous one. -/
theorem window_of_other_evidence :
    ¬GuardrailSound sampleEvaluations sampleEvidence sampleTraces
      (["rel_query"].filterMap sampleRelations)
      (guardrail sampleEvaluations sampleEvidence sampleTraces ["rel_query"] sampleRelations) := by
  intro hsound
  have hkept := windowKept_of_sound hsound
  have hoffers : Offers sampleEvaluations sampleEvidence sampleTraces sampleRelation
      sampleEvaluation :=
    ⟨.inl rfl, by decide, "ev_current", List.mem_cons_self, by decide, by decide⟩
  have hfirst : FirstOffer sampleEvaluations sampleEvidence sampleTraces
      (["rel_query"].filterMap sampleRelations) sampleRelation sampleEvaluation :=
    ⟨[], [], by decide, fun other hother => absurd hother List.not_mem_nil, hoffers⟩
  obtain ⟨⟨last, lastTrace, hlast, htrace, hwindow⟩, _⟩ :=
    hkept sampleRelation sampleEvaluation hfirst _ _ _ selected_sample
  have hid : last = "ev_previous" := by
    have hlast' : sampleEvaluation.evidenceIds.getLast? = some "ev_previous" := by decide
    rw [hlast'] at hlast
    exact (Option.some.inj hlast).symm
  subst hid
  have htraced : sampleTraces "ev_previous" = some ⟨"ev_previous", "impressions",
    some ⟨some "2026-01-01", some "2026-03-31"⟩⟩ := by decide
  rw [htraced] at htrace
  obtain rfl := Option.some.inj htrace
  revert hwindow
  decide

end Samples

end SearchTrust.Execution
