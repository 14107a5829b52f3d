/-
Whether the system's own selection can be delivered as it stands.
-/
import SearchTrust.Capability.CandidateSelection
import SearchTrust.Capability.Deliveries
import SearchTrust.Web.PublicConnections

namespace SearchTrust.Capability

open SearchTrust.Order
open SearchTrust.Report.Outcomes

section Reports

variable {lib : Library} {digests : Digests} {report : CapabilityReport}

/-- What a valid report with a candidate pool gives to its deliveries. -/
structure PoolFacts (lib : Library) (report : CapabilityReport) (trace : PrioritizationTrace) :
    Prop where
  schema : report.schemaVersion ∈ [ReportSchema.v227, .v228]
  trace_eq : report.prioritization = some trace
  rules : trace.rulesVersion = .v3
  replay : prioritizeCandidates lib (trace.candidates.map (·.input)) report.findings
    report.inputManifest.business report.inputManifest.inputChecksum = .ok trace
  actionOrder : trace.actionOrder = report.actions.map (·.id)
  actionsNodup : (report.actions.map (·.id)).Nodup
  found : ∀ a ∈ report.actions,
    (report.actionCandidates.getD []).find? (fun c => c.id = a.id) = some a
  dependencies : CapabilityReport.selectedChecks [] report.actions = .ok ()
  materials : ∀ a ∈ report.actions, (a.materials.map (·.id)).Nodup
  poolOrder : trace.candidateOrder = some ((report.actionCandidates.getD []).map (·.id))

theorem materials_of_actionChecks {prior : List String} {actions : List CapabilityAction}
    (h : report.actionChecks prior actions = .ok ()) :
    ∀ a ∈ actions, (a.materials.map (·.id)).Nodup := by
  induction actions generalizing prior with
  | nil => exact fun a ha => absurd ha List.not_mem_nil
  | cons action rest ih =>
      obtain ⟨_, haction, h⟩ := ok_of_bind h
      intro a ha
      rcases List.mem_cons.1 ha with rfl | ha
      · obtain ⟨_, -, haction⟩ := ok_of_bind haction
        obtain ⟨_, -, haction⟩ := ok_of_bind haction
        obtain ⟨_, hnodup, -⟩ := ok_of_bind haction
        exact of_decide_eq_true (require_eq_ok.1 hnodup)
      · exact ih h a ha

theorem schema_of_versionChecks (h : report.versionChecks = .ok ())
    (hpool : report.hasPool = true) : report.schemaVersion ∈ [ReportSchema.v227, .v228] := by
  obtain ⟨_, hcheck, -⟩ := ok_of_bind h
  rw [require_eq_ok, hpool, Bool.and_eq_true, beq_iff_eq] at hcheck
  exact of_decide_eq_true hcheck.1

theorem nodup_of_bindingChecks (h : report.bindingChecks lib = .ok ()) :
    (report.actions.map (·.id)).Nodup := by
  obtain ⟨_, -, h⟩ := ok_of_bind h
  obtain ⟨_, -, h⟩ := ok_of_bind h
  obtain ⟨_, -, h⟩ := ok_of_bind h
  obtain ⟨_, -, h⟩ := ok_of_bind h
  obtain ⟨_, -, h⟩ := ok_of_bind h
  obtain ⟨_, -, h⟩ := ok_of_bind h
  obtain ⟨_, -, h⟩ := ok_of_bind h
  obtain ⟨_, -, h⟩ := ok_of_bind h
  rw [require_eq_ok, Bool.and_eq_true] at h
  exact of_decide_eq_true h.2

theorem poolFacts_of_valid (h : report.Valid lib digests.finding)
    (hpool : report.hasPool = true) : ∃ trace, PoolFacts lib report trace := by
  have href := h.references
  obtain ⟨_, hversion, href⟩ := ok_of_bind href
  obtain ⟨_, hbinding, href⟩ := ok_of_bind href
  obtain ⟨_, -, href⟩ := ok_of_bind href
  obtain ⟨_, -, href⟩ := ok_of_bind href
  obtain ⟨_, -, href⟩ := ok_of_bind href
  obtain ⟨_, hactions, href⟩ := ok_of_bind href
  obtain ⟨_, hselected, href⟩ := ok_of_bind href
  obtain ⟨_, -, hpriority⟩ := ok_of_bind href
  rw [CapabilityReport.poolChecks, if_pos hpool] at hselected
  obtain ⟨_, hfrozen, hdependencies⟩ := ok_of_bind hselected
  rw [require_eq_ok, Bool.and_eq_true, List.all_eq_true] at hfrozen
  have hfound : ∀ a ∈ report.actions,
      (report.actionCandidates.getD []).find? (fun c => c.id = a.id) = some a :=
    fun a ha => of_decide_eq_true (hfrozen.2 a ha)
  rw [CapabilityReport.pool, if_pos hpool] at hactions
  obtain ⟨_, -, hpriority⟩ := ok_of_bind hpriority
  obtain ⟨_, hpresent, htrace⟩ := ok_of_bind hpriority
  have hrules : report.inputManifest.rulesetVersion ∈ priorityRulesets := by
    have hin : report.inputManifest.rulesetVersion ∈ candidateRulesets := of_decide_eq_true hpool
    have hsub : candidateRulesets ⊆ priorityRulesets := by decide
    exact hsub hin
  rw [require_eq_ok, decide_eq_true hrules, beq_iff_eq] at hpresent
  obtain ⟨trace, htraceEq⟩ := Option.isSome_iff_exists.1 hpresent.symm
  rw [htraceEq] at htrace
  have hexpected : report.expectedRules = .v3 := if_pos hpool
  have hchecks : report.traceChecks lib trace = .ok () := htrace
  rw [CapabilityReport.traceChecks, hexpected] at hchecks
  obtain ⟨_, hversionOk, hchecks⟩ := ok_of_bind hchecks
  obtain ⟨replay, hreplay, hchecks⟩ := ok_of_bind hchecks
  obtain ⟨_, hsame, hchecks⟩ := ok_of_bind hchecks
  obtain ⟨_, -, horder⟩ := ok_of_bind hchecks
  rw [require_eq_ok, Bool.and_eq_true] at hsame
  obtain rfl : trace = replay := of_decide_eq_true hsame.1
  rw [require_eq_ok, hpool] at horder
  exact ⟨trace, {
    schema := schema_of_versionChecks hversion hpool
    trace_eq := htraceEq
    rules := of_decide_eq_true (require_eq_ok.1 hversionOk)
    replay := hreplay
    actionOrder := of_decide_eq_true hsame.2
    actionsNodup := nodup_of_bindingChecks hbinding
    found := hfound
    dependencies := hdependencies
    materials := fun a ha => materials_of_actionChecks hactions a
      (List.mem_of_find?_eq_some (hfound a ha))
    poolOrder := of_decide_eq_true horder }⟩

end Reports

section Checks

variable {lib : Library} {digests : Digests} {report : CapabilityReport}
  {trace : PrioritizationTrace} {text : DeliveryText}
  {confirmation : Option TechnicalOmissionConfirmation}

theorem validDependencies_of_selected {pool : List CapabilityAction} {seen : List String}
    {actions : List CapabilityAction}
    (h : CapabilityReport.selectedChecks seen actions = .ok ())
    (hfound : ∀ a ∈ actions, pool.find? (fun c => c.id = a.id) = some a)
    (hfresh : ∀ a ∈ actions, a.id ∉ seen) (hnodup : (actions.map (·.id)).Nodup) :
    validDependencies pool seen (actions.map (·.id)) = true := by
  induction actions generalizing seen with
  | nil => rfl
  | cons action rest ih =>
      obtain ⟨_, hdependencies, h⟩ := ok_of_bind h
      rw [require_eq_ok] at hdependencies
      rw [List.map_cons, List.nodup_cons] at hnodup
      have hrest : validDependencies pool (seen ++ [action.id]) (rest.map (·.id)) = true := by
        refine ih h (fun a ha => hfound a (List.mem_cons_of_mem _ ha)) ?_ hnodup.2
        intro a ha hin
        rcases List.mem_append.1 hin with hin | hin
        · exact hfresh a (List.mem_cons_of_mem _ ha) hin
        · apply hnodup.1
          rw [← List.mem_singleton.1 hin]
          exact List.mem_map_of_mem ha
      have hfirst := hfresh action List.mem_cons_self
      rw [List.map_cons, validDependencies, hfound action List.mem_cons_self]
      simp only [hdependencies, hrest, hfirst, not_false_eq_true, decide_true, Bool.and_self]

/-- With full visibility the selection is accepted under the confirmation that it needs,
and under no other. -/
theorem validateSelection_own (h : PoolFacts lib report trace) :
    validateSelection report (report.actions.map (·.id)) (report.actions.map (·.id))
        confirmation = .ok () ↔
      confirmation = omissionConfirmation report (report.actions.map (·.id))
        (report.actions.map (·.id)) := by
  have hvisible : (report.actions.map (·.id)).filter (· ∈ report.actions.map (·.id)) =
      report.actions.map (·.id) := by
    rw [List.filter_eq_self]
    exact fun id hid => decide_eq_true hid
  have hdependencies := validDependencies_of_selected h.dependencies h.found
    (fun _ _ => List.not_mem_nil) h.actionsNodup
  rw [validateSelection]
  simp only [hvisible, hdependencies, decide_true, Bool.and_self]
  show require _ _ = .ok () ↔ _
  rw [require_eq_ok, decide_eq_true_eq]

theorem materialCheck_own (h : PoolFacts lib report trace) {a : CapabilityAction}
    (ha : a ∈ report.actions) :
    (ownDelivery digests report text confirmation).materialCheck report a.editable = .ok () := by
  have hnodup := h.materials a ha
  have hsource : ((ownDelivery digests report text confirmation).originals report).find?
      (fun c => c.id = a.editable.id) = some a := h.found a ha
  have hsame : ∀ item ∈ a.materials,
      ((a.materials.find? fun s => s.id = item.id).map (·.frozen)) = some item.frozen := by
    intro item hitem
    rw [find?_key_eq hnodup hitem]
    rfl
  rw [DeliveryRevision.materialCheck, hsource]
  simp only [Option.elim_some, CapabilityAction.editable, hnodup, decide_true, Bool.and_self,
    List.Subset.refl]
  show require _ _ = .ok ()
  rw [require_eq_ok, List.all_eq_true]
  intro item hitem
  rw [beq_iff_eq]
  exact hsame item hitem

theorem materialChecks_own (h : PoolFacts lib report trace) {actions : List CapabilityAction}
    (hsub : actions ⊆ report.actions) :
    (actions.map (·.editable)).forM
      ((ownDelivery digests report text confirmation).materialCheck report) = .ok () := by
  induction actions with
  | nil => rfl
  | cons a rest ih =>
      have hfirst : (ownDelivery digests report text confirmation).materialCheck report
          a.editable = .ok () := materialCheck_own h (hsub List.mem_cons_self)
      have hrest := ih fun b hb => hsub (List.mem_cons_of_mem _ hb)
      rw [List.map_cons, List.forM, hfirst, ok_bind]
      exact hrest

theorem map_editable_id (actions : List CapabilityAction) :
    (actions.map (·.editable)).map (·.id) = actions.map (·.id) := by
  rw [List.map_map]
  rfl

/-- The own delivery of a valid report passes every check but that of the omission. -/
theorem validateReport_own_iff (hvalid : report.Valid lib digests.finding)
    (h : PoolFacts lib report trace) :
    (ownDelivery digests report text confirmation).validateReport lib digests report = .ok () ↔
      confirmation = omissionConfirmation report (report.actions.map (·.id))
        (report.actions.map (·.id)) := by
  set delivery := ownDelivery digests report text confirmation with hdelivery
  have hrevalidated : DeliveryRevision.revalidated lib digests report = .ok () := by
    rw [DeliveryRevision.revalidated, hvalid.fits]
    exact hvalid.references
  have hsource : delivery.sourceChecks digests report = .ok () := by
    have hschema := h.schema
    rw [DeliveryRevision.sourceChecks]
    simp [hdelivery, ownDelivery, hschema, require]
    rfl
  have hids : delivery.actions.map (·.id) = report.actions.map (·.id) :=
    map_editable_id report.actions
  have hidentity : delivery.identityChecks report = .ok () := by
    have hpool : report.actions.map (·.id) ⊆ (delivery.originals report).map (·.id) := by
      intro id hid
      obtain ⟨a, ha, rfl⟩ := List.mem_map.1 hid
      exact List.mem_map_of_mem (List.mem_of_find?_eq_some (h.found a ha))
    have hschema : delivery.schemaVersion = .v3 := rfl
    rw [DeliveryRevision.identityChecks]
    simp only [hids, h.actionsNodup, hschema, hpool, List.length_map, decide_true, Bool.true_or,
      Bool.and_self]
    rfl
  have hselection : delivery.selectionChecks report = .ok () ↔
      confirmation = omissionConfirmation report (report.actions.map (·.id))
        (report.actions.map (·.id)) := by
    rw [← validateSelection_own h, DeliveryRevision.selectionChecks, hids]
    rfl
  have horder : delivery.orderChecks report = .ok () := by
    rw [DeliveryRevision.orderChecks, h.trace_eq]
    simp [h.rules]
  have hmaterials : delivery.actions.forM (delivery.materialCheck report) = .ok () :=
    materialChecks_own h (List.Subset.refl _)
  rw [DeliveryRevision.validateReport, hrevalidated, hsource, hidentity]
  simp only [ok_bind]
  constructor
  · intro hok
    obtain ⟨_, hok, -⟩ := ok_of_bind hok
    exact hselection.1 hok
  · intro hconfirmation
    rw [hselection.2 hconfirmation, horder]
    exact hmaterials

end Checks

section Bounds

variable {lib : Library} {digests : Digests} {report : CapabilityReport}
  {trace : PrioritizationTrace} {text : DeliveryText}
  {confirmation : Option TechnicalOmissionConfirmation}

theorem boundedList_iff {α : Type} {fits : α → Bool} {low high : ℕ} {items : List α} :
    boundedList fits low high items = true ↔
      (low ≤ items.length ∧ items.length ≤ high) ∧ ∀ a ∈ items, fits a = true := by
  rw [boundedList, Bool.and_eq_true, decide_eq_true_eq, List.all_eq_true]

theorem actions_fit (h : report.fits = true) :
    boundedList CapabilityAction.fits 0 3 report.actions = true := by
  simp only [CapabilityReport.fits, Bool.and_eq_true] at h
  exact h.1.1.1.2

theorem trace_fits (h : report.fits = true) (htrace : report.prioritization = some trace) :
    boundedList PriorityDecision.fits 0 1000 trace.candidates = true := by
  simp only [CapabilityReport.fits, Bool.and_eq_true, htrace, Option.all_some] at h
  have hfits := h.2
  simp only [PrioritizationTrace.fits, Bool.and_eq_true] at hfits
  exact hfits.1.1.2

theorem CapabilityAction.editable_fits {action : CapabilityAction} (h : action.fits = true) :
    action.editable.fits = true := by
  simp only [CapabilityAction.fits, Bool.and_eq_true] at h
  obtain ⟨⟨⟨⟨⟨⟨⟨⟨hid, htitle⟩, htarget⟩, -⟩, hsteps⟩, hcompletion⟩, hreview⟩, -⟩, hmaterials⟩ := h
  simp only [EditableAction.fits, CapabilityAction.editable, Bool.and_eq_true]
  exact ⟨⟨⟨⟨⟨⟨hid, htitle⟩, htarget⟩, hsteps⟩, hcompletion⟩, hreview⟩, hmaterials⟩

theorem actionIds_fit (h : report.fits = true) :
    boundedList isLabel 0 3 (report.actions.map (·.id)) = true := by
  obtain ⟨hlength, hall⟩ := boundedList_iff.1 (actions_fit h)
  refine boundedList_iff.2 ⟨by rwa [List.length_map], ?_⟩
  intro id hid
  obtain ⟨a, ha, rfl⟩ := List.mem_map.1 hid
  have hfits := hall a ha
  simp only [CapabilityAction.fits, Bool.and_eq_true] at hfits
  exact hfits.1.1.1.1.1.1.1.1

/-- The own delivery is a delivery. -/
theorem ownDelivery_valid (hvalid : report.Valid lib digests.finding)
    (h : PoolFacts lib report trace) (htext : text.fits = true)
    (hconfirmation : confirmation.all TechnicalOmissionConfirmation.fits = true) :
    (ownDelivery digests report text confirmation).Valid where
  fits := by
    obtain ⟨hlength, hall⟩ := boundedList_iff.1 (actions_fit hvalid.fits)
    have hactions : boundedList EditableAction.fits 0 3 (report.actions.map (·.editable)) =
        true := by
      refine boundedList_iff.2 ⟨by rwa [List.length_map], ?_⟩
      intro action haction
      obtain ⟨a, ha, rfl⟩ := List.mem_map.1 haction
      exact CapabilityAction.editable_fits (hall a ha)
    simp only [DeliveryText.fits, Bool.and_eq_true] at htext
    simp only [DeliveryRevision.fits, ownDelivery, Option.all_some, actionIds_fit hvalid.fits,
      hconfirmation, htext.1.1, htext.1.2, htext.2, hactions, Bool.and_self]
  visibility := by
    have hids : (ownDelivery digests report text confirmation).actions.map (·.id) =
        report.actions.map (·.id) := map_editable_id report.actions
    rw [DeliveryRevision.visibilityVersion, hids]
    cases confirmation <;>
      simp [ownDelivery, h.actionsNodup, require] <;> rfl

theorem mem_technicalIds (htrace : report.prioritization = some trace) {key : String} :
    key ∈ technicalIds report ↔ ∃ c ∈ trace.candidates, c.isTechnical = true ∧ c.id = key := by
  rw [technicalIds, htrace, Option.elim_some, mem_sortedBy, List.mem_map]
  constructor
  · rintro ⟨c, hc, rfl⟩
    exact ⟨c, (List.mem_filter.1 hc).1, (List.mem_filter.1 hc).2, rfl⟩
  · rintro ⟨c, hc, htechnical, rfl⟩
    exact ⟨c, List.mem_filter.2 ⟨hc, htechnical⟩, rfl⟩

theorem omissionConfirmation_fits (hvalid : report.Valid lib digests.finding)
    (h : PoolFacts lib report trace) :
    (omissionConfirmation report (report.actions.map (·.id))
      (report.actions.map (·.id))).all TechnicalOmissionConfirmation.fits = true := by
  obtain ⟨hlength, hall⟩ := boundedList_iff.1 (trace_fits hvalid.fits h.trace_eq)
  have hcount : (technicalIds report).length ≤ 1000 := by
    rw [technicalIds, h.trace_eq, Option.elim_some, length_sortedBy, List.length_map]
    exact (List.length_filter_le _ _).trans hlength.2
  unfold omissionConfirmation
  dsimp only
  split
  next hneeded =>
    have hlabels : boundedList isLabel 1 1000 (technicalIds report) = true := by
      refine boundedList_iff.2 ⟨⟨List.length_pos_iff.2 hneeded.1, hcount⟩, ?_⟩
      intro key hkey
      obtain ⟨c, hc, -, rfl⟩ := (mem_technicalIds h.trace_eq).1 hkey
      have hfits := hall c hc
      simp only [PriorityDecision.fits, PriorityCandidateInput.fits, Bool.and_eq_true] at hfits
      exact hfits.1.1.1.1.1.2.1.1.1.1.1
    simp only [Option.all_some, TechnicalOmissionConfirmation.fits, hlabels,
      actionIds_fit hvalid.fits, Bool.and_self]
  next => rfl

/-- No confirmation is needed exactly when no technical work is left out entirely. -/
theorem omissionConfirmation_eq_none_iff {ids clientIds : List String} :
    none = omissionConfirmation report ids clientIds ↔
      (technicalIds report ≠ [] → ∃ key ∈ technicalIds report, key ∈ clientIds) := by
  unfold omissionConfirmation
  dsimp only
  split
  next hneeded =>
    constructor
    · intro h
      cases h
    · intro h
      obtain ⟨key, hkey, hin⟩ := h hneeded.1
      exact absurd hin (hneeded.2 key hkey)
  next hfree =>
    refine ⟨?_, fun _ => rfl⟩
    intro _ hsome
    by_contra hnone
    refine hfree ⟨hsome, ?_⟩
    intro key hkey hin
    exact hnone ⟨key, hkey, hin⟩

end Bounds

section Contract

variable {lib : Library} {digests : Digests} {report : CapabilityReport} {text : DeliveryText}

/-- The actions of the report that stand before a candidate in its pool. -/
def selectedBefore (report : CapabilityReport) (id : String) : List String :=
  deliveredBefore ((report.actionCandidates.getD []).map (·.id)) (report.actions.map (·.id)) id

/-- The candidate has a finding that qualifies as confirmed technical work. -/
def TechnicalCandidate (report : CapabilityReport) (candidate : PriorityDecision) : Prop :=
  ∃ f ∈ linkedFindings report.findings candidate.input, qualifiedTechnical f = true

/-- When the selection of a report holds technical work. -/
structure TechnicalSelection (report : CapabilityReport) (trace : PrioritizationTrace) : Prop where
  technical_iff : ∀ c ∈ trace.candidates,
    c.id ∈ technicalIds report ↔ TechnicalCandidate report c
  /-- A technical candidate is left out only for want of a prerequisite or of a place. -/
  selected_iff : ∀ c ∈ trace.candidates, TechnicalCandidate report c →
    (c.id ∈ report.actions.map (·.id) ↔
      c.input.dependencies ⊆ report.actions.map (·.id) ∧ (selectedBefore report c.id).length < 3)
  /-- One that waits for nothing brings technical work into the selection. -/
  leads : (∃ c ∈ trace.candidates, TechnicalCandidate report c ∧ c.input.dependencies = []) →
    ∃ key ∈ technicalIds report, key ∈ report.actions.map (·.id)

theorem technicalSelection_of_valid {trace : PrioritizationTrace}
    (h : PoolFacts lib report trace) : TechnicalSelection report trace := by
  obtain ⟨ordered, hselected⟩ := prioritizeCandidates_selected h.replay
  have horder : (report.actionCandidates.getD []).map (·.id) = ordered.map (·.id) := by
    have hsame := h.poolOrder.symm.trans hselected.candidateOrder
    exact Option.some.inj hsame
  have hactions : report.actions.map (·.id) = deliveredIds ordered :=
    h.actionOrder.symm.trans hselected.actionOrder
  have hentry : ∀ c ∈ trace.candidates, ∃ e ∈ ordered, e.core = c.core := by
    intro c hc
    exact List.mem_map.1 ((hselected.candidates c).1 (List.mem_map_of_mem hc))
  have hcandidate : ∀ e ∈ ordered, ∃ c ∈ trace.candidates, c.core = e.core := by
    intro e he
    exact List.mem_map.1 ((hselected.candidates e).2 (List.mem_map_of_mem he))
  have htechnical : ∀ c : PriorityDecision, ∀ e ∈ ordered, e.core = c.core →
      (c.isTechnical = true ↔ TechnicalCandidate report c) := by
    intro c e he hcore
    have hflag : c.isTechnical = e.isTechnical := by
      rw [PriorityDecision.isTechnical, PriorityDecision.isTechnical, technical_of_core hcore]
    rw [hflag, hselected.technical e he, TechnicalCandidate, input_of_core hcore]
  have hkey : ∀ c ∈ trace.candidates, c.id ∈ technicalIds report → TechnicalCandidate report c := by
    intro c hc hin
    obtain ⟨other, hother, hflag, hid⟩ := (mem_technicalIds h.trace_eq).1 hin
    obtain ⟨e, he, hcore⟩ := hentry c hc
    obtain ⟨o, ho, hcoreO⟩ := hentry other hother
    have hids : o.id = e.id := by
      rw [PriorityDecision.id, PriorityDecision.id, input_of_core hcoreO, input_of_core hcore]
      exact hid
    have hsame : o = e :=
      List.inj_on_of_nodup_map (names_of_readyOrder hselected.ready).1 ho he hids
    have htech := (htechnical other o ho hcoreO).1 hflag
    have hinput : other.input = c.input := by
      rw [← input_of_core hcoreO, ← input_of_core hcore, hsame]
    rwa [TechnicalCandidate, hinput] at htech
  refine ⟨?_, ?_, ?_⟩
  · intro c hc
    refine ⟨hkey c hc, ?_⟩
    intro htech
    obtain ⟨e, he, hcore⟩ := hentry c hc
    exact (mem_technicalIds h.trace_eq).2 ⟨c, hc, (htechnical c e he hcore).2 htech, rfl⟩
  · intro c hc htech
    obtain ⟨e, he, hcore⟩ := hentry c hc
    have hflag : e.isTechnical = true := by
      rw [hselected.technical e he, input_of_core hcore]
      exact htech
    have hid : c.id = e.id := congrArg (·.actionId) (input_of_core hcore).symm
    have hiff := mem_deliveredIds_iff hselected.ready hselected.unsettled he
    rw [selectedBefore, horder, hactions, hid, ← input_of_core hcore, hiff]
    constructor
    · rintro ⟨-, hplace, hdependencies⟩
      exact ⟨hdependencies, hplace⟩
    · rintro ⟨hdependencies, hplace⟩
      exact ⟨hselected.visible e he hflag, hplace, hdependencies⟩
  · rintro ⟨c, hc, htech, hfree⟩
    obtain ⟨e, he, hcore⟩ := hentry c hc
    have hflag : e.isTechnical = true := by
      rw [hselected.technical e he, input_of_core hcore]
      exact htech
    rw [← input_of_core hcore] at hfree
    obtain ⟨lead, hlead, hleadFlag, hin⟩ := hselected.first e he hflag hfree
    obtain ⟨other, hother, hcoreO⟩ := hcandidate lead hlead
    refine ⟨lead.id, ?_, by rwa [hactions]⟩
    refine (mem_technicalIds h.trace_eq).2 ⟨other, hother, ?_, ?_⟩
    · rw [PriorityDecision.isTechnical, technical_of_core hcoreO]
      exact hleadFlag
    · exact congrArg (·.actionId) (input_of_core hcoreO)

/-- The system's own selection is delivered as it stands exactly when it holds technical
work or there is none; otherwise it is delivered with the confirmation of the omission. -/
theorem own_selection_deliverable (hvalid : report.Valid lib digests.finding)
    (hpool : report.hasPool = true) (htext : text.fits = true) :
    let ids := report.actions.map (·.id)
    let plain := ownDelivery digests report text none
    let confirmed := ownDelivery digests report text (omissionConfirmation report ids ids)
    (plain.Valid ∧ (plain.validateReport lib digests report = .ok () ↔
      (technicalIds report ≠ [] → ∃ key ∈ technicalIds report, key ∈ ids))) ∧
    (confirmed.Valid ∧ confirmed.validateReport lib digests report = .ok ()) ∧
    ∃ trace, report.prioritization = some trace ∧ TechnicalSelection report trace := by
  obtain ⟨trace, h⟩ := poolFacts_of_valid hvalid hpool
  intro ids plain confirmed
  refine ⟨⟨ownDelivery_valid hvalid h htext rfl, ?_⟩,
    ⟨ownDelivery_valid hvalid h htext (omissionConfirmation_fits hvalid h), ?_⟩,
    trace, h.trace_eq, technicalSelection_of_valid h⟩
  · rw [validateReport_own_iff hvalid h]
    exact omissionConfirmation_eq_none_iff
  · exact (validateReport_own_iff hvalid h).2 rfl

end Contract

section Sample

def sampleTime : Timestamp := "2026-01-02T00:00:00Z"

def sampleLibrary : Library where
  unicode := Web.asciiTables
  ip := Web.sampleAddresses
  fromisoformat value := if value = sampleTime then some 1767312000000000 else none

def sampleDigests : Digests := ⟨fun f => f.id, fun r => r.id⟩

def weakFinding : CapabilityFinding where
  id := "f1"
  ruleId := "title"
  ruleVersion := "1"
  classification := .fact
  kind := some .fact
  status := some .confirmed
  coverage := some [⟨.site, true⟩]
  severity := .low
  confidence := .low
  target := "page"
  observedFact := "fact"
  observedAt := sampleTime
  comparisonScope := "site"
  judgment := "judged"
  interpretation := .supported
  impactPath := "path"
  evidenceIds := ["e1"]
  limitations := []

def technicalFinding : CapabilityFinding :=
  { weakFinding with id := "f2", ruleId := HTTP, severity := .medium, confidence := .medium }

def weakAction : CapabilityAction where
  id := "a1"
  title := "Title"
  target := "page"
  findingIds := ["f1"]
  steps := ["step"]
  completion := ["done"]
  review := "review"
  dependencies := []
  materials := []

def technicalAction : CapabilityAction :=
  { weakAction with id := "a2", findingIds := ["f2"], dependencies := ["a1"] }

def sampleBusiness : BusinessScope where
  siteUrl := "https://a.example"
  targetPages := []
  priority := none
  executionConditions := none

def sampleChecksum : Checksum := "sha256:0000000000000000000000000000000000000000000000000000000000000000"

/-- The order that the two candidates get: the technical one waits for a weak one, so
neither is selected. -/
def sampleTrace : PrioritizationTrace where
  candidateOrder := some ["a1", "a2"]
  rulesVersion := .v3
  inputChecksum := sampleChecksum
  businessPriority := none
  targetPages := []
  actionOrder := []
  candidates := [
    { technicalFindingIds := some []
      defaultVisible := some false
      input := candidateInput weakAction
      prerequisite := .none
      businessMatch := .unknown
      evidenceSupport := .supported
      execution := .instructionsOnly
      severity := .low
      confidence := .low
      impactPaths := ["path"]
      comparisonScopes := ["site"]
      reasonCodes := ["prerequisite_none", "business_unknown", "evidence_supported",
        "execution_instructions_only", "severity_low", "confidence_low", "return_unknown",
        "stable_identity_tiebreak", "capacity_unknown", "publishing_unknown",
        "advisor_only_weak_basis"]
      explanation := "Business focus is not specified; order uses evidence and problem attributes, not assumed business value."
      selectedOrder := none },
    { technicalFindingIds := some ["f2"]
      defaultVisible := some true
      input := candidateInput technicalAction
      prerequisite := .accessIndexing
      businessMatch := .unknown
      evidenceSupport := .supported
      execution := .instructionsOnly
      severity := .medium
      confidence := .medium
      impactPaths := ["path"]
      comparisonScopes := ["site"]
      reasonCodes := ["prerequisite_access_indexing", "business_unknown", "evidence_supported",
        "execution_instructions_only", "severity_medium", "confidence_medium", "return_unknown",
        "stable_identity_tiebreak", "dependencies_first", "capacity_unknown",
        "publishing_unknown", "dependency_not_selected"]
      explanation := "Check access and indexing before optimizing affected pages."
      selectedOrder := none }]
  limitations := [LIMIT]

def sampleManifest : AnalysisInputManifest where
  schemaVersion := .v2
  jobId := "00000000-0000-4000-8000-000000000001"
  userId := "00000000-0000-4000-8000-000000000002"
  caseId := "00000000-0000-4000-8000-000000000003"
  mode := .acquisition
  business := sampleBusiness
  snapshots := [⟨"00000000-0000-4000-8000-000000000011", .site, sampleTime⟩, ⟨"00000000-0000-4000-8000-000000000012", .serp, sampleTime⟩,
    ⟨"00000000-0000-4000-8000-000000000013", .competitor, sampleTime⟩, ⟨"00000000-0000-4000-8000-000000000014", .publicGbp, sampleTime⟩,
    ⟨"00000000-0000-4000-8000-000000000015", .rendered, sampleTime⟩]
  evaluatedAt := sampleTime
  rulesetVersion := "v22_capability_public_v12"
  previousReport := none
  inputChecksum := sampleChecksum
  publicReassessment := false
  baseReportRef := none

def sampleReport : CapabilityReport where
  schemaVersion := .v227
  id := "00000000-0000-4000-8000-000000000001"
  reportType := .prospect
  version := 1
  generatedAt := sampleTime
  inputManifest := sampleManifest
  title := "Title"
  summary := "Summary"
  evidence := [⟨"e1", "00000000-0000-4000-8000-000000000011", .site, sampleTime⟩]
  findings := [weakFinding, technicalFinding]
  contactChecks := some []
  actionState := .insufficientBasis
  actionCandidates := some [weakAction, technicalAction]
  actions := []
  limitations := [LIMIT]
  changes := []
  settlementPolicy := .oneCredit
  prioritization := some sampleTrace
  fieldsSet := ["prioritization", "contact_checks", "action_candidates"]

def sampleText : DeliveryText := ⟨0, .draft, "Title", "Summary", none⟩

theorem sampleReport_valid : sampleReport.Valid sampleLibrary sampleDigests.finding :=
  ⟨by decide, by decide⟩

set_option maxRecDepth 20000 in
/-- The technical candidate waits for a weak one, so neither is selected, and the
selection of the report is refused as it stands. -/
theorem own_selection_refused :
    sampleReport.Valid sampleLibrary sampleDigests.finding ∧ sampleReport.hasPool = true ∧
      (∃ c ∈ sampleTrace.candidates, TechnicalCandidate sampleReport c) ∧
      (∀ key ∈ technicalIds sampleReport, key ∉ sampleReport.actions.map (·.id)) ∧
      (ownDelivery sampleDigests sampleReport sampleText none).Valid ∧
      (ownDelivery sampleDigests sampleReport sampleText none).validateReport sampleLibrary
          sampleDigests sampleReport =
        .error "technical omission requires current selection confirmation" := by
  refine ⟨sampleReport_valid, by decide, ?_, fun _ _ => List.not_mem_nil,
    ⟨by decide, by decide⟩, by decide⟩
  refine ⟨_, List.mem_cons_of_mem _ List.mem_cons_self, technicalFinding, ?_, by decide⟩
  exact List.mem_singleton.2 rfl

/-- With the confirmation of the omission the same selection is accepted. -/
theorem own_selection_deliverable_sample :
    (ownDelivery sampleDigests sampleReport sampleText
      (omissionConfirmation sampleReport [] [])).validateReport sampleLibrary sampleDigests
        sampleReport = .ok () :=
  (own_selection_deliverable sampleReport_valid (by decide) (by decide)).2.1.2

end Sample

end SearchTrust.Capability
