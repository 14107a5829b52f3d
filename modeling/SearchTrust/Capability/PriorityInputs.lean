/-
Which inputs the ranking accepts: distinct candidates in canonical form, whose references
are known and whose dependencies do not run in a circle.
-/
import SearchTrust.Capability.CandidateSelection

namespace SearchTrust.Capability

open SearchTrust.Order SearchTrust.Report
open SearchTrust.Report.Outcomes

/-- What the ranking asks of its inputs. -/
structure InputsFit (inputs : List PriorityCandidateInput) (findings : List CapabilityFinding) :
    Prop where
  distinct : (inputs.map (·.actionId)).Nodup
  canonical : ∀ c ∈ inputs, isCanonical c = true
  references : ∀ c ∈ inputs, referencesFit (inputs.map (·.actionId)) findings c = true
  acyclic : Acyclic (·.actionId) (·.dependencies) inputs

section Inputs

variable {lib : Library} {rules : RulesVersion} {business : BusinessScope}
  {inputs : List PriorityCandidateInput} {findings : List CapabilityFinding}
  {candidate : PriorityCandidateInput} {ids : List String}

theorem findingById_isSome {key : String} (h : key ∈ findings.map (·.id)) :
    ∃ f, findingById findings key = some f ∧ f ∈ findings ∧ f.id = key := by
  obtain ⟨f, hf, rfl⟩ := List.mem_map.1 h
  cases hfound : findingById findings f.id with
  | none =>
      have hnone := List.find?_eq_none.1 hfound f (List.mem_reverse.2 hf)
      simp at hnone
  | some other =>
      rw [findingById] at hfound
      have hid := List.find?_some hfound
      rw [decide_eq_true_eq] at hid
      exact ⟨other, rfl, List.mem_reverse.1 (List.mem_of_find?_eq_some hfound), hid⟩

/-- The linked findings of known ids, one for each. -/
theorem forall₂_linkedFindings {keys : List String} (h : keys ⊆ findings.map (·.id)) :
    List.Forall₂ (fun key f => f ∈ findings ∧ f.id = key) keys
      (keys.filterMap (findingById findings)) := by
  induction keys with
  | nil => exact List.Forall₂.nil
  | cons key keys ih =>
      obtain ⟨f, hfound, hf⟩ := findingById_isSome (h List.mem_cons_self)
      rw [List.filterMap_cons, hfound]
      exact List.Forall₂.cons hf (ih fun other hother => h (List.mem_cons_of_mem _ hother))

theorem referencesFit_iff : referencesFit ids findings candidate = true ↔
    candidate.dependencies ⊆ ids ∧ candidate.actionId ∉ candidate.dependencies ∧
      candidate.findingIds ≠ [] ∧ candidate.findingIds ⊆ findings.map (·.id) := by
  simp only [referencesFit, Bool.and_eq_true, decide_eq_true_eq, and_assoc]

/-- A candidate has an entry exactly when it is canonical and its references are known. -/
theorem priorityEntry_isOk :
    (∃ e, priorityEntry lib rules business ids findings candidate = .ok e) ↔
      isCanonical candidate = true ∧ referencesFit ids findings candidate = true := by
  constructor
  · rintro ⟨e, h⟩
    unfold priorityEntry at h
    obtain ⟨_, hcanonical, h⟩ := ok_of_bind h
    obtain ⟨_, hreferences, -⟩ := ok_of_bind h
    exact ⟨require_eq_ok.1 hcanonical, require_eq_ok.1 hreferences⟩
  · rintro ⟨hcanonical, hreferences⟩
    obtain ⟨-, -, hne, hknown⟩ := referencesFit_iff.1 hreferences
    have hlinked := forall₂_linkedFindings hknown
    unfold priorityEntry
    rw [hcanonical, hreferences]
    cases hcase : linkedFindings findings candidate with
    | nil =>
        rw [linkedFindings] at hcase
        rw [hcase, List.forall₂_nil_right_iff] at hlinked
        exact absurd hlinked hne
    | cons first rest => exact ⟨_, rfl⟩

/-- The entries carry the inputs, sorted by their names. -/
theorem entries_inputs {entries : List PriorityDecision}
    (h : (sortedBy (·.actionId) inputs).mapM
      (priorityEntry lib rules business ids findings) = .ok entries) :
    entries.map (·.input) = sortedBy (·.actionId) inputs :=
  map_eq_of_forall₂ ((forall₂_of_mapM_ok h).imp fun _ _ hpair => (priorityEntry_ok hpair).1)

/-- Entries wait for each other as their inputs do. -/
theorem acyclic_entries_iff {entries : List PriorityDecision}
    (h : (entries.map (·.input)).Perm inputs) :
    Acyclic (fun e : PriorityDecision => e.id) (fun e => e.input.dependencies) entries ↔
      Acyclic (·.actionId) (·.dependencies) inputs := by
  have hdepends : DependsOn (fun e : PriorityDecision => e.id) (fun e => e.input.dependencies)
      entries = DependsOn (·.actionId) (·.dependencies) inputs := by
    funext a b
    refine propext ⟨?_, ?_⟩
    · rintro ⟨e, he, hname, hb⟩
      exact ⟨e.input, h.mem_iff.1 (List.mem_map_of_mem he), hname, hb⟩
    · rintro ⟨c, hc, hname, hb⟩
      obtain ⟨e, he, rfl⟩ := List.mem_map.1 (h.mem_iff.2 hc)
      exact ⟨e, he, hname, hb⟩
  rw [Acyclic, Acyclic, hdepends]

end Inputs

section Loops

variable {κ : Type} [LinearOrder κ] {message : String} {key : PriorityDecision → κ}
  {entries : List PriorityDecision}

/-- The selection loop ends exactly when the entries do not wait in a circle. -/
theorem orderEntries_isOk (hnodup : (entries.map (·.id)).Nodup)
    (hclosed : ∀ e ∈ entries, e.input.dependencies ⊆ entries.map (·.id)) :
    (∃ ordered, orderEntries message key entries = .ok ordered) ↔
      Acyclic (fun e : PriorityDecision => e.id) (fun e => e.input.dependencies) entries := by
  constructor
  · rintro ⟨ordered, h⟩
    obtain ⟨hperm, hready⟩ := orderEntries_ok h
    exact acyclic_of_subset hperm.symm.subset (acyclic_of_readyOrder hready)
  · intro hacyclic
    refine scheduleFrom_isOk nextEntry_picksReady ?_ trivial (List.nil_subset _) (by simp)
    intro ordered hready hsub hshort
    have hleft : ∃ e ∈ entries, e.id ∉ ordered.map (·.id) := by
      by_contra hnone
      have hall : entries.map (·.id) ⊆ ordered.map (·.id) := by
        intro id hid
        obtain ⟨e, he, rfl⟩ := List.mem_map.1 hid
        by_contra hmissing
        exact hnone ⟨e, he, hmissing⟩
      have hlength := (List.subperm_of_subset hnodup hall).length_le
      rw [List.length_map, List.length_map] at hlength
      omega
    obtain ⟨e, he, hfresh, hdone⟩ := exists_ready_of_acyclic hacyclic hclosed hleft
    have hmem : e ∈ sortedBy key (entries.filter fun e =>
        e.input.actionId ∉ ordered.map (·.input.actionId) ∧
          e.input.dependencies ⊆ ordered.map (·.input.actionId)) := by
      rw [mem_sortedBy, List.mem_filter, decide_eq_true_eq]
      exact ⟨he, hfresh, hdone⟩
    simp only [nextEntry]
    split
    next hnil =>
      rw [hnil] at hmem
      cases hmem
    next first _ _ => exact ⟨first, rfl⟩

end Loops

section First

variable {lib : Library} {inputs : List PriorityCandidateInput}
  {findings : List CapabilityFinding} {business : BusinessScope} {checksum : Checksum}
  {rules : RulesVersion}

theorem entries_fit (hdistinct : (inputs.map (·.actionId)).Nodup)
    (hreferences : ∀ c ∈ inputs, referencesFit (inputs.map (·.actionId)) findings c = true)
    {entries : List PriorityDecision}
    (hinputs : (entries.map (·.input)).Perm inputs) :
    (entries.map (·.id)).Nodup ∧
      ∀ e ∈ entries, e.input.dependencies ⊆ entries.map (·.id) := by
  have hids : (entries.map (·.id)).Perm (inputs.map (·.actionId)) := by
    have hmapped := hinputs.map (·.actionId)
    rwa [List.map_map] at hmapped
  refine ⟨hids.nodup_iff.2 hdistinct, fun e he id hid => hids.mem_iff.2 ?_⟩
  have hfit := hreferences e.input (hinputs.mem_iff.1 (List.mem_map_of_mem he))
  exact (referencesFit_iff.1 hfit).1 hid

/-- The two older rankings accept the inputs that fit, and no others. -/
theorem prioritizeFirst_isOk :
    (∃ trace, prioritizeFirst lib inputs findings business checksum rules = .ok trace) ↔
      InputsFit inputs findings := by
  constructor
  · rintro ⟨trace, h⟩
    unfold prioritizeFirst at h
    obtain ⟨_, hdistinct, h⟩ := ok_of_bind h
    obtain ⟨entries, hentries, h⟩ := ok_of_bind h
    obtain ⟨ordered, hordered, -⟩ := ok_of_bind h
    rw [require_eq_ok, decide_eq_true_eq] at hdistinct
    have hperm : (entries.map (·.input)).Perm inputs := by
      rw [entries_inputs hentries]
      exact sortedBy_perm _ inputs
    have hfit : ∀ c ∈ inputs, isCanonical c = true ∧
        referencesFit (inputs.map (·.actionId)) findings c = true := by
      intro c hc
      obtain ⟨e, -, he⟩ := exists_right_of_mem (forall₂_of_mapM_ok hentries) (mem_sortedBy.2 hc)
      exact priorityEntry_isOk.1 ⟨e, he⟩
    obtain ⟨hnodup, hclosed⟩ := entries_fit hdistinct (fun c hc => (hfit c hc).2) hperm
    exact ⟨hdistinct, fun c hc => (hfit c hc).1, fun c hc => (hfit c hc).2,
      (acyclic_entries_iff hperm).1 ((orderEntries_isOk hnodup hclosed).1 ⟨ordered, hordered⟩)⟩
  · intro h
    have hdistinct : require (decide (inputs.map (·.actionId)).Nodup)
        "duplicate priority candidate" = .ok () :=
      require_eq_ok.2 (decide_eq_true h.distinct)
    have heach : ∀ c ∈ sortedBy (·.actionId) inputs, ∃ e,
        priorityEntry lib rules business (inputs.map (·.actionId)) findings c = .ok e := by
      intro c hc
      rw [mem_sortedBy] at hc
      exact priorityEntry_isOk.2 ⟨h.canonical c hc, h.references c hc⟩
    obtain ⟨entries, hentries⟩ := mapM_isOk heach
    have hperm : (entries.map (·.input)).Perm inputs := by
      rw [entries_inputs hentries]
      exact sortedBy_perm _ inputs
    obtain ⟨hnodup, hclosed⟩ := entries_fit h.distinct h.references hperm
    have horder : ∃ ordered, orderEntries "cyclic priority dependencies"
        (priorityKey rules business) entries = .ok ordered :=
      (orderEntries_isOk hnodup hclosed).2 ((acyclic_entries_iff hperm).2 h.acyclic)
    obtain ⟨ordered, hordered⟩ := horder
    simp only [prioritizeFirst, hdistinct, ok_bind, hentries, hordered]
    exact ⟨_, rfl⟩

/-- What the loops of an accepted input have done. -/
theorem prioritizeFirst_ok {trace : PrioritizationTrace}
    (h : prioritizeFirst lib inputs findings business checksum rules = .ok trace) :
    ∃ entries ordered,
      (sortedBy (·.actionId) inputs).mapM
        (priorityEntry lib rules business (inputs.map (·.actionId)) findings) = .ok entries ∧
      orderEntries "cyclic priority dependencies" (priorityKey rules business) entries =
        .ok ordered ∧
      trace = {
        candidateOrder := none
        rulesVersion := rules
        inputChecksum := checksum
        businessPriority := business.priority
        targetPages := business.targetPages
        actionOrder := chosenIds (settleEntries settleFirst [] ordered)
        candidates := writtenEntries entries (settleEntries settleFirst [] ordered)
        limitations := [LIMIT] } := by
  unfold prioritizeFirst at h
  obtain ⟨_, -, h⟩ := ok_of_bind h
  obtain ⟨entries, hentries, h⟩ := ok_of_bind h
  obtain ⟨ordered, hordered, h⟩ := ok_of_bind h
  exact ⟨entries, ordered, hentries, hordered, (Except.ok.inj h).symm⟩

end First

end SearchTrust.Capability
