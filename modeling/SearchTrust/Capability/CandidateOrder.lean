/-
The order of the whole candidate pool and what is delivered of it: at most three visible
candidates, closed under their dependencies, and no more could have been taken.
-/
import SearchTrust.Capability.Deliveries
import SearchTrust.Capability.PriorityInputs

namespace SearchTrust.Capability

open SearchTrust.Order SearchTrust.Report
open SearchTrust.Report.Outcomes

/-- Every name of the order comes after those that its candidate depends on. -/
def Follows (inputs : List PriorityCandidateInput) (order : List String) : Prop :=
  ∀ before id after, order = before ++ id :: after →
    ∀ c ∈ inputs, c.actionId = id → c.dependencies ⊆ before

/-- What the full candidate ranking promises of its trace. -/
structure CandidateContract (inputs : List PriorityCandidateInput)
    (findings : List CapabilityFinding) (trace : PrioritizationTrace) : Prop where
  candidates : (trace.candidates.map (·.input)).Perm inputs
  visibility : ∀ e ∈ trace.candidates,
    e.defaultVisible = some (visibleByDefault (linkedFindings findings e.input))
  order : ∃ order, trace.candidateOrder = some order ∧
    order.Perm (inputs.map (·.actionId)) ∧ Follows inputs order ∧
    trace.actionOrder.Sublist order ∧
    ∀ e ∈ trace.candidates, e.defaultVisible = some true →
      e.input.dependencies ⊆ trace.actionOrder → e.id ∉ trace.actionOrder →
        (deliveredBefore order trace.actionOrder e.id).length = 3
  short : trace.actionOrder.length ≤ 3
  visible : ∀ id ∈ trace.actionOrder, ∃ e ∈ trace.candidates, e.id = id ∧
    e.defaultVisible = some true
  closed : Follows inputs trace.actionOrder
  /-- The delivered names are a selection of any pool with these candidates. -/
  selectable : ∀ pool : List CapabilityAction, (pool.map candidateInput).Perm inputs →
    validDependencies pool [] trace.actionOrder = true
  accepted : ∀ report : CapabilityReport,
    ((report.actionCandidates.getD []).map candidateInput).Perm inputs →
      validateSelection report trace.actionOrder trace.actionOrder
        (omissionConfirmation report trace.actionOrder trace.actionOrder) = .ok ()

section Delivered

variable {ordered : List PriorityDecision} {e : PriorityDecision}

/-- The last entry is delivered or left out. -/
theorem deliveredIds_snoc (before : List PriorityDecision) (h : e.selectedOrder = none) :
    deliveredIds (before ++ [e]) =
      deliveredIds before ++ if selects (deliveredIds before) e then [e.id] else [] := by
  obtain ⟨later, hsplit, hlater⟩ := deliveredIds_split before [] h
  rw [List.map_nil, List.subset_nil] at hlater
  rw [hsplit, hlater, List.append_nil]

theorem length_deliveredIds_le (hnone : ∀ e ∈ ordered, e.selectedOrder = none) :
    (deliveredIds ordered).length ≤ 3 := by
  induction ordered using List.reverseRecOn with
  | nil => exact Nat.zero_le 3
  | append_singleton before e ih =>
      have hbefore := ih fun other hother => hnone other (List.mem_append_left _ hother)
      rw [deliveredIds_snoc before (hnone e (List.mem_append_right _ List.mem_cons_self))]
      split
      next hselects =>
        rw [List.length_append, List.length_singleton]
        exact hselects.2.1
      next =>
        rw [List.append_nil]
        exact hbefore

theorem deliveredIds_sublist : (deliveredIds ordered).Sublist (ordered.map (·.id)) := by
  have hcore : (settleEntries settleCandidate [] ordered).map (·.core) = ordered.map (·.core) :=
    map_core_settleEntries _ core_settleCandidate
  have hids := congrArg (List.map fun e : PriorityDecision => e.id) hcore
  rw [List.map_map, List.map_map] at hids
  have hsame : (settleEntries settleCandidate [] ordered).map (·.id) = ordered.map (·.id) := hids
  rw [← hsame]
  exact (List.filter_sublist).map _

/-- A delivered entry comes after the delivered ones that it depends on. -/
theorem dependencies_before_delivered (hnone : ∀ e ∈ ordered, e.selectedOrder = none)
    (hnodup : (ordered.map (·.id)).Nodup) {before after : List String}
    (hsplit : deliveredIds ordered = before ++ e.id :: after) (he : e ∈ ordered) :
    e.input.dependencies ⊆ before := by
  induction ordered using List.reverseRecOn generalizing after with
  | nil => cases he
  | append_singleton front last ih =>
      have hlast := hnone last (List.mem_append_right _ List.mem_cons_self)
      rw [deliveredIds_snoc front hlast] at hsplit
      rw [List.map_append, List.nodup_append] at hnodup
      have hfront : ∀ {rest}, deliveredIds front = before ++ e.id :: rest →
          e.input.dependencies ⊆ before := by
        intro rest hrest
        refine ih (fun other hother => hnone other (List.mem_append_left _ hother)) hnodup.1
          hrest ?_
        have hid : e.id ∈ front.map (·.id) := by
          refine deliveredIds_subset ?_
          rw [hrest]
          exact List.mem_append_right _ List.mem_cons_self
        rcases List.mem_append.1 he with he | he
        · exact he
        · obtain rfl := List.mem_singleton.1 he
          exact absurd rfl (hnodup.2.2 _ hid _ List.mem_cons_self)
      split at hsplit
      next hselects =>
        rcases List.eq_nil_or_concat after with rfl | ⟨rest, id, rfl⟩
        · obtain ⟨hbefore, hid⟩ := List.append_inj' hsplit rfl
          rcases List.mem_append.1 he with he | he
          · have hmem : e.id ∈ front.map (·.id) := List.mem_map_of_mem he
            rw [← (List.cons.inj hid).1] at hmem
            exact absurd rfl (hnodup.2.2 _ hmem _ List.mem_cons_self)
          · obtain rfl := List.mem_singleton.1 he
            rw [← hbefore]
            exact hselects.2.2
        · rw [List.concat_eq_append, ← List.cons_append, ← List.append_assoc] at hsplit
          exact hfront (List.append_inj' hsplit rfl).1
      next =>
        rw [List.append_nil] at hsplit
        exact hfront hsplit

end Delivered

section Selection

variable {inputs : List PriorityCandidateInput} {pool : List CapabilityAction}

/-- The names of an order that follows their candidates are a selection of the pool. -/
theorem validDependencies_of_follows (hpool : (pool.map candidateInput).Perm inputs)
    {seen rest : List String} (hnodup : (seen ++ rest).Nodup)
    (hknown : rest ⊆ inputs.map (·.actionId)) (hfollows : Follows inputs (seen ++ rest)) :
    validDependencies pool seen rest = true := by
  induction rest generalizing seen with
  | nil => rfl
  | cons key rest ih =>
      rw [validDependencies]
      obtain ⟨c, hc, hkey⟩ := List.mem_map.1 (hknown List.mem_cons_self)
      obtain ⟨a, ha, rfl⟩ := List.mem_map.1 (hpool.mem_iff.2 hc)
      cases hfound : pool.find? (fun a => a.id = key) with
      | none =>
          have hnone := List.find?_eq_none.1 hfound a ha
          rw [decide_eq_true_eq] at hnone
          exact absurd hkey hnone
      | some action =>
          have hid := List.find?_some hfound
          rw [decide_eq_true_eq] at hid
          have hmem : candidateInput action ∈ inputs :=
            hpool.mem_iff.1 (List.mem_map_of_mem (List.mem_of_find?_eq_some hfound))
          have hdeps : action.dependencies ⊆ seen := by
            intro dep hdep
            exact hfollows seen key rest rfl _ hmem hid (mem_sortedBy.2 hdep)
          have hrest : validDependencies pool (seen ++ [key]) rest = true := by
            refine ih ?_ (fun id hid => hknown (List.mem_cons_of_mem _ hid)) ?_
            · rwa [List.append_assoc]
            · rwa [List.append_assoc]
          have hfresh : key ∉ seen := by
            intro hin
            exact (List.nodup_append.1 hnodup).2.2 _ hin _ List.mem_cons_self rfl
          simp only [hfresh, hdeps, hrest, not_false_eq_true, decide_true, Bool.and_self]

/-- What is a selection of the pool is accepted with the confirmation that it needs. -/
theorem validateSelection_of_dependencies {report : CapabilityReport} {ids : List String}
    (h : validDependencies (report.actionCandidates.getD []) [] ids = true) :
    validateSelection report ids ids (omissionConfirmation report ids ids) = .ok () := by
  have hvisible : ids.filter (· ∈ ids) = ids := by
    rw [List.filter_eq_self]
    exact fun id hid => decide_eq_true hid
  rw [validateSelection]
  simp only [hvisible, h, decide_true, Bool.and_self]
  rfl

end Selection

section Traces

variable {lib : Library} {inputs : List PriorityCandidateInput}
  {findings : List CapabilityFinding} {business : BusinessScope} {checksum : Checksum}
  {rules : RulesVersion} {trace : PrioritizationTrace}

theorem inputs_of_core {entries others : List PriorityDecision}
    (h : entries.map (·.core) = others.map (·.core)) :
    entries.map (·.input) = others.map (·.input) := by
  have hmapped := congrArg (List.map fun e : PriorityDecision => e.input) h
  rw [List.map_map, List.map_map] at hmapped
  exact hmapped

/-- The candidates of the older rankings carry the inputs. -/
theorem prioritizeFirst_inputs
    (h : prioritizeFirst lib inputs findings business checksum rules = .ok trace) :
    (trace.candidates.map (·.input)).Perm inputs := by
  have hfit := prioritizeFirst_isOk.1 ⟨trace, h⟩
  obtain ⟨entries, ordered, hentries, hordered, rfl⟩ := prioritizeFirst_ok h
  have hperm : (entries.map (·.input)).Perm inputs := by
    rw [entries_inputs hentries]
    exact sortedBy_perm _ inputs
  have hnodup := (entries_fit hfit.distinct hfit.references hperm).1
  have hcore := map_core_writtenEntries (map_core_settleEntries [] core_settleFirst)
    (orderEntries_ok hordered).1 hnodup
  have hinputs := inputs_of_core hcore
  rw [← hinputs] at hperm
  exact hperm

theorem inputsFit_masked : InputsFit inputs (findings.map maskedFinding) ↔
    InputsFit inputs findings := by
  have hids : (findings.map maskedFinding).map (·.id) = findings.map (·.id) := by
    rw [List.map_map]
    exact List.map_congr_left fun f _ => maskedFinding_id f
  have hreferences : ∀ c, referencesFit (inputs.map (·.actionId))
      (findings.map maskedFinding) c = referencesFit (inputs.map (·.actionId)) findings c := by
    intro c
    rw [referencesFit, referencesFit, hids]
  constructor
  · rintro ⟨hdistinct, hcanonical, hrefs, hacyclic⟩
    exact ⟨hdistinct, hcanonical, fun c hc => hreferences c ▸ hrefs c hc, hacyclic⟩
  · rintro ⟨hdistinct, hcanonical, hrefs, hacyclic⟩
    exact ⟨hdistinct, hcanonical, fun c hc => (hreferences c).symm ▸ hrefs c hc, hacyclic⟩

theorem prioritizeCandidates_isOk :
    (∃ trace, prioritizeCandidates lib inputs findings business checksum = .ok trace) ↔
      InputsFit inputs findings := by
  rw [← inputsFit_masked]
  constructor
  · rintro ⟨trace, h⟩
    unfold prioritizeCandidates at h
    obtain ⟨base, hbase, -⟩ := ok_of_bind h
    exact prioritizeFirst_isOk.1 ⟨base, hbase⟩
  · intro h
    have hfirst : ∃ base, prioritizeFirst lib inputs (findings.map maskedFinding) business checksum
        .v2 = .ok base := prioritizeFirst_isOk.2 h
    obtain ⟨base, hbase⟩ := hfirst
    have hinputs : ((base.candidates.map (candidateEntry findings)).map (·.input)).Perm inputs := by
      rw [List.map_map]
      exact prioritizeFirst_inputs hbase
    obtain ⟨hnodup, hclosed⟩ := entries_fit h.distinct h.references hinputs
    have horder : ∃ ordered, orderEntries "cyclic candidate dependencies" (candidateKey business)
        (base.candidates.map (candidateEntry findings)) = .ok ordered :=
      (orderEntries_isOk hnodup hclosed).2 ((acyclic_entries_iff hinputs).2 h.acyclic)
    obtain ⟨ordered, hordered⟩ := horder
    simp only [prioritizeCandidates, hbase, ok_bind, hordered]
    exact ⟨_, rfl⟩

/-- The candidates of the trace are the inputs, and each is visible as its findings say. -/
theorem prioritizeCandidates_candidates
    (h : prioritizeCandidates lib inputs findings business checksum = .ok trace) :
    (trace.candidates.map (·.input)).Perm inputs ∧ ∀ e ∈ trace.candidates,
      e.defaultVisible = some (visibleByDefault (linkedFindings findings e.input)) := by
  have hfit := inputsFit_masked.2 (prioritizeCandidates_isOk.1 ⟨trace, h⟩)
  unfold prioritizeCandidates at h
  obtain ⟨base, hbase, h⟩ := ok_of_bind h
  obtain ⟨ordered, hordered, h⟩ := ok_of_bind h
  obtain rfl := Except.ok.inj h
  have hinputs : ((base.candidates.map (candidateEntry findings)).map (·.input)).Perm inputs := by
    rw [List.map_map]
    exact prioritizeFirst_inputs hbase
  have hnodup := (entries_fit hfit.distinct hfit.references hinputs).1
  have hcore := map_core_writtenEntries
    (map_core_settleEntries [] core_settleCandidate) (orderEntries_ok hordered).1 hnodup
  constructor
  · have hsame := inputs_of_core hcore
    rw [← hsame] at hinputs
    exact hinputs
  · intro e he
    have hmem : e.core ∈ (base.candidates.map (candidateEntry findings)).map (·.core) := by
      rw [← hcore]
      exact List.mem_map_of_mem he
    obtain ⟨entry, hentry, hsame⟩ := List.mem_map.1 hmem
    obtain ⟨c, -, rfl⟩ := List.mem_map.1 hentry
    rw [← visible_of_core hsame, ← input_of_core hsame]
    rfl

/-- The full candidate ranking returns exactly for the inputs that fit, and keeps its
promises then. -/
theorem prioritize_candidates_contract (lib : Library) (inputs : List PriorityCandidateInput)
    (findings : List CapabilityFinding) (business : BusinessScope) (checksum : Checksum) :
    ((∃ trace, prioritizeCandidates lib inputs findings business checksum = .ok trace) ↔
        InputsFit inputs findings) ∧
      ∀ trace, prioritizeCandidates lib inputs findings business checksum = .ok trace →
        CandidateContract inputs findings trace := by
  refine ⟨prioritizeCandidates_isOk, fun trace h => ?_⟩
  obtain ⟨hinputs, hvisibility⟩ := prioritizeCandidates_candidates h
  obtain ⟨ordered, hselected⟩ := prioritizeCandidates_selected h
  have hnodup := (names_of_readyOrder hselected.ready).1
  have hentry : ∀ e ∈ ordered, ∃ c ∈ trace.candidates, c.core = e.core := by
    intro e he
    obtain ⟨c, hc, hcore⟩ := List.mem_map.1 ((hselected.candidates e).2 (List.mem_map_of_mem he))
    exact ⟨c, hc, hcore⟩
  have hback : ∀ c ∈ trace.candidates, ∃ e ∈ ordered, e.core = c.core := by
    intro c hc
    obtain ⟨e, he, hcore⟩ := List.mem_map.1 ((hselected.candidates c).1 (List.mem_map_of_mem hc))
    exact ⟨e, he, hcore⟩
  have hnodupInputs : (inputs.map (·.actionId)).Nodup :=
    (prioritizeCandidates_isOk.1 ⟨trace, h⟩).distinct
  -- an input is that of the ordered entry with its name
  have hcandidate : ∀ c ∈ inputs, ∃ e ∈ ordered, e.input = c := by
    intro c hc
    obtain ⟨d, hd, rfl⟩ := List.mem_map.1 (hinputs.mem_iff.2 hc)
    obtain ⟨e, he, hcore⟩ := hback d hd
    exact ⟨e, he, input_of_core hcore⟩
  have hknown : ∀ e ∈ ordered, e.input ∈ inputs := by
    intro e he
    obtain ⟨c, hc, hcore⟩ := hentry e he
    rw [← input_of_core hcore]
    exact hinputs.mem_iff.1 (List.mem_map_of_mem hc)
  have hpermutation : (ordered.map (·.id)).Perm (inputs.map (·.actionId)) := by
    refine (List.perm_ext_iff_of_nodup hnodup hnodupInputs).2 fun id => ⟨?_, ?_⟩
    · intro hid
      obtain ⟨e, he, rfl⟩ := List.mem_map.1 hid
      exact List.mem_map_of_mem (f := (·.actionId)) (hknown e he)
    · intro hid
      obtain ⟨c, hc, rfl⟩ := List.mem_map.1 hid
      obtain ⟨e, he, rfl⟩ := hcandidate c hc
      exact List.mem_map_of_mem (f := (·.id)) he
  have hclosed : Follows inputs trace.actionOrder := by
    intro before id after hsplit c hc hid
    obtain ⟨e, he, rfl⟩ := hcandidate c hc
    obtain rfl : e.id = id := hid
    rw [hselected.actionOrder] at hsplit
    exact dependencies_before_delivered hselected.unsettled hnodup hsplit he
  have hselectable : ∀ pool : List CapabilityAction, (pool.map candidateInput).Perm inputs →
      validDependencies pool [] trace.actionOrder = true := by
    intro pool hpool
    refine validDependencies_of_follows hpool ?_ ?_ hclosed
    · rw [List.nil_append, hselected.actionOrder]
      exact nodup_deliveredIds hnodup
    · rw [hselected.actionOrder]
      exact fun id hid => hpermutation.subset (deliveredIds_subset hid)
  refine ⟨hinputs, hvisibility, ⟨ordered.map (·.id), hselected.candidateOrder, hpermutation,
    ?_, ?_, ?_⟩, ?_, ?_, hclosed, hselectable, fun report hpool =>
      validateSelection_of_dependencies (hselectable _ hpool)⟩
  · intro before id after hsplit c hc hid
    obtain ⟨e, he, rfl⟩ := hcandidate c hc
    obtain ⟨front, rest, hsplitted, hfront, hrest⟩ := List.map_eq_append_iff.1 hsplit
    obtain ⟨other, back, hcons, hother, -⟩ := List.map_eq_cons_iff.1 hrest
    have hname : other.id = e.id := hother.trans hid.symm
    have hmem : other ∈ ordered := by
      rw [hsplitted, hcons]
      exact List.mem_append_right _ List.mem_cons_self
    have hsame := List.inj_on_of_nodup_map hnodup hmem he hname
    rw [← hfront, ← hsame]
    exact dependency_earlier hselected.ready (by rw [hsplitted, hcons])
  · rw [hselected.actionOrder]
    exact deliveredIds_sublist
  · intro c hc hvisible hdependencies hmissing
    obtain ⟨e, he, hcore⟩ := hback c hc
    have hinput := input_of_core hcore
    have hid : e.id = c.id := congrArg (·.actionId) hinput
    rw [hselected.actionOrder] at hdependencies hmissing ⊢
    rw [← hid] at hmissing ⊢
    have hnot := mt (mem_deliveredIds_iff hselected.ready hselected.unsettled he).2 hmissing
    have hfull : ¬ (deliveredBefore (ordered.map (·.id)) (deliveredIds ordered) e.id).length <
        3 := by
      intro hshort
      refine hnot ⟨?_, hshort, ?_⟩
      · rw [visible_of_core hcore]
        exact hvisible
      · rw [hinput]
        exact hdependencies
    have hbound : (deliveredBefore (ordered.map (·.id)) (deliveredIds ordered) e.id).length ≤
        (deliveredIds ordered).length := by
      refine (List.subperm_of_subset ?_ ?_).length_le
      · exact (hnodup.sublist (List.takeWhile_sublist _)).filter _
      · intro id hid
        rw [deliveredBefore, List.mem_filter, decide_eq_true_eq] at hid
        exact hid.2
    have hthree := length_deliveredIds_le hselected.unsettled
    omega
  · rw [hselected.actionOrder]
    exact length_deliveredIds_le hselected.unsettled
  · intro id hid
    rw [hselected.actionOrder] at hid
    obtain ⟨e, he, rfl⟩ := List.mem_map.1 (deliveredIds_subset hid)
    obtain ⟨c, hc, hcore⟩ := hentry e he
    refine ⟨c, hc, congrArg (·.actionId) (input_of_core hcore), ?_⟩
    rw [visible_of_core hcore]
    exact ((mem_deliveredIds_iff hselected.ready hselected.unsettled he).1 hid).1

end Traces

end SearchTrust.Capability
