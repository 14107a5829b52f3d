/-
What a plan selects: the three candidates that come first, each after those that it
depends on, and no finding is lost between the selected ones and the others.
-/
import SearchTrust.Report.ActionOrder

namespace SearchTrust.Report

open SearchTrust.Order
open Outcomes

section Ordering

variable {selected : List Candidate}

theorem nextCandidate_ok {ordered : List Candidate} {item : Candidate}
    (h : nextCandidate selected ordered = .ok item) :
    item ∈ selected ∧ item.actionId ∉ ordered.map (·.actionId) ∧
      item.dependencies ⊆ ordered.map (·.actionId) := by
  unfold nextCandidate at h
  dsimp only at h
  split at h
  · cases h
  · next current rest hsorted =>
      split at h
      · cases h
      · cases h
        have hfirst : item ∈ item :: rest := List.mem_cons_self
        rw [← hsorted, mem_sortedBy, List.mem_filter, decide_eq_true_eq] at hfirst
        exact hfirst

theorem picksReady_nextCandidate :
    PicksReady (·.actionId) (·.dependencies) selected (nextCandidate selected) where
  mem h := (nextCandidate_ok h).1
  fresh h := (nextCandidate_ok h).2.1
  ready h := (nextCandidate_ok h).2.2

theorem topologicalOrder_ok {ordered : List Candidate}
    (h : topologicalOrder selected = .ok ordered) :
    ordered.Perm selected ∧ ReadyOrder (·.actionId) (·.dependencies) [] ordered := by
  unfold topologicalOrder at h
  split at h
  · cases h
  · exact schedule_ok picksReady_nextCandidate h

/-- The action is made of the candidate, at some place in the plan. -/
def MadeOf (candidate : Candidate) (action : ActionSkeleton) : Prop :=
  ∃ sequence reviewDate, action = actionSkeleton candidate sequence reviewDate

theorem buildActions_ok {planningDate : Date} {limits : PublicActionLimits} {sequence : ℕ}
    {ordered : List Candidate} {actions : List ActionSkeleton}
    (h : buildActions planningDate limits sequence ordered = .ok actions) :
    List.Forall₂ MadeOf ordered actions := by
  induction ordered generalizing sequence actions with
  | nil =>
      cases h
      exact List.Forall₂.nil
  | cons candidate rest ih =>
      unfold buildActions at h
      split at h
      · cases h
      · next reviewDate _ =>
          obtain ⟨action, haction, h⟩ := ok_of_bind h
          obtain ⟨others, hothers, h⟩ := ok_of_bind h
          cases h
          refine List.Forall₂.cons ?_ (ih hothers)
          unfold buildAction at haction
          dsimp only at haction
          split at haction
          · cases haction
          · split at haction
            · cases haction
            · cases haction
              exact ⟨sequence, reviewDate, rfl⟩

end Ordering

section Candidates

variable {env : Environment} {result : PublicFindingsResult} {limits : PublicActionLimits}

theorem buildCandidate_entries {template : ActionTemplate} {entries : List Entry}
    {candidate : Candidate}
    (h : buildCandidate env result limits template entries = .ok candidate) :
    candidate.entries = entries := by
  unfold buildCandidate at h
  split at h
  · cases h
  · obtain ⟨targets, -, h⟩ := ok_of_bind h
    dsimp only at h
    split at h
    · cases h
    · split at h
      · cases h
      · split at h
        · cases h
        · cases h
          rfl

/-- The candidates are ranked, no two alike, and made of the entries. -/
theorem buildCandidates_ok {entries : List Entry} {candidates : List Candidate}
    (h : buildCandidates env result entries limits = .ok candidates) :
    (candidates.map (·.actionId)).Nodup ∧
      (candidates.Pairwise fun a b => candidateSortKey a ≤ candidateSortKey b) ∧
      ∀ candidate ∈ candidates, candidate.entries ⊆ entries := by
  unfold buildCandidates at h
  obtain ⟨keyed, hkeyed, h⟩ := ok_of_bind h
  dsimp only at h
  split at h
  · cases h
  · obtain ⟨made, hmade, h⟩ := ok_of_bind h
    split at h
    · cases h
    · next hnodup =>
        cases h
        refine ⟨?_, pairwise_sortedBy _ _, ?_⟩
        · exact ((sortedBy_perm candidateSortKey made).map _).nodup_iff.2 (not_not.1 hnodup)
        · intro candidate hcandidate
          obtain ⟨group, -, hgroup⟩ :=
            exists_left_of_mem (forall₂_of_mapM_ok hmade) (mem_sortedBy.1 hcandidate)
          split at hgroup
          · cases hgroup
          · rw [buildCandidate_entries hgroup]
            intro entry hentry
            obtain ⟨pair, hpair, rfl⟩ := List.mem_map.1 hentry
            obtain ⟨source, hsource, hpaired⟩ :=
              exists_left_of_mem (forall₂_of_mapM_ok hkeyed) (List.mem_filter.1 hpair).1
            obtain ⟨key, -, hpaired⟩ := ok_of_bind hpaired
            cases hpaired
            exact mem_sortedBy.1 hsource

theorem validatedReferences_findings {maxFindings : ℕ} {entries : List Entry}
    (h : validatedReferences result maxFindings = .ok entries) :
    entries.map (·.finding) = result.findings := by
  unfold validatedReferences at h
  split at h
  · cases h
  · split at h
    · cases h
    · split at h
      · cases h
      · split at h
        · cases h
        · next hfaults =>
            cases h
            rw [List.findSome?_eq_none_iff] at hfaults
            have hevaluated : ∀ finding ∈ result.findings,
                (result.evaluation finding).isSome := by
              intro finding hfinding
              by_contra hnone
              rw [Option.not_isSome_iff_eq_none] at hnone
              have hfault := hfaults finding hfinding
              rw [findingFault, hnone] at hfault
              cases hfault
            have hall : ∀ findings : List Finding,
                (∀ finding ∈ findings, (result.evaluation finding).isSome) →
                ((findings.filterMap fun finding =>
                  (result.evaluation finding).map fun evaluation =>
                    (⟨finding, evaluation⟩ : Entry)).map (·.finding)) = findings := by
              intro findings hfindings
              induction findings with
              | nil => rfl
              | cons finding rest ih =>
                  rw [List.forall_mem_cons] at hfindings
                  obtain ⟨evaluation, hevaluation⟩ := Option.isSome_iff_exists.1 hfindings.1
                  rw [List.filterMap_cons_some (by rw [hevaluation]; rfl), List.map_cons,
                    ih hfindings.2]
            exact hall result.findings hevaluated

theorem candidateSortKey_lt {a b : Candidate} (hle : candidateSortKey a ≤ candidateSortKey b)
    (hne : a.actionId ≠ b.actionId) : candidateSortKey a < candidateSortKey b := by
  refine lt_of_le_of_ne hle fun hkey => hne ?_
  simp only [candidateSortKey, toLex_inj, Prod.mk.injEq] at hkey
  exact hkey.2.2.2.2.2.2

/-- Dependencies change nothing else of a candidate. -/
theorem entries_of_mem_addDependencies {selected : List Candidate} {siteUrl : HttpUrl}
    {candidate : Candidate} (h : candidate ∈ addDependencies env selected siteUrl) :
    ∃ source ∈ selected, candidate.entries = source.entries := by
  unfold addDependencies at h
  split at h
  · exact ⟨candidate, h, rfl⟩
  · obtain ⟨source, hsource, rfl⟩ := List.mem_map.1 h
    refine ⟨source, hsource, ?_⟩
    split <;> rfl

end Candidates

section Selection

/-- What a plan has to do with the candidates. -/
structure SelectsFirst (env : Environment) (value : PublicFindingsResult)
    (candidates : List Candidate) (plan : PublicActionPlan) : Prop where
  enough : 3 ≤ candidates.length
  ranked : candidates.Pairwise fun a b => candidateSortKey a < candidateSortKey b
  /-- The actions are made of the first three, each after those that it depends on. -/
  ordered : ∃ ordered : List Candidate,
    ordered.Perm (addDependencies env (candidates.take 3) value.siteRollup.siteUrl) ∧
      ReadyOrder (·.actionId) (·.dependencies) [] ordered ∧
      List.Forall₂ MadeOf ordered plan.actions
  findings : ∀ id, id ∈ plan.actions.flatMap (·.findingIds) ∨ id ∈ plan.unselectedFindingIds ↔
    id ∈ value.findings.map (·.findingId)
  disjoint : ∀ id ∈ plan.unselectedFindingIds, id ∉ plan.actions.flatMap (·.findingIds)

variable {env : Environment} {value : PublicFindingsResult} {planningDate : Date}
  {limits : PublicActionLimits} {plan : PublicActionPlan}

/-- Actions have the findings of the candidates that they are made of. -/
theorem mem_findingIds_of_madeOf {candidates : List Candidate} {actions : List ActionSkeleton}
    (h : List.Forall₂ MadeOf candidates actions) {id : String} :
    id ∈ actions.flatMap (·.findingIds) ↔ id ∈ candidates.flatMap (·.findingIds) := by
  have heq : actions.map (·.findingIds) = candidates.map (·.findingIds) := by
    induction h with
    | nil => rfl
    | cons hmade _ ih =>
        obtain ⟨sequence, reviewDate, rfl⟩ := hmade
        rw [List.map_cons, List.map_cons, ih]
        rfl
  rw [List.flatMap_def, List.flatMap_def, heq]

/-- The findings of the selected candidates and the others are those that were given. -/
theorem mem_selected_or_unselected {entries : List Entry} {selected : List Candidate}
    (hentries : ∀ candidate ∈ selected, candidate.entries ⊆ entries) {id : String} :
    id ∈ selected.flatMap (·.findingIds) ∨
      id ∈ sortedSet ((entries.map (·.finding.findingId)).filter
        (· ∉ selected.flatMap (·.findingIds))) ↔ id ∈ entries.map (·.finding.findingId) := by
  have hsub : id ∈ selected.flatMap (·.findingIds) → id ∈ entries.map (·.finding.findingId) := by
    intro hid
    obtain ⟨candidate, hcandidate, hid⟩ := List.mem_flatMap.1 hid
    rw [Candidate.findingIds, mem_sortedSet] at hid
    obtain ⟨entry, hentry, rfl⟩ := List.mem_map.1 hid
    exact List.mem_map_of_mem (hentries candidate hcandidate hentry)
  rw [mem_sortedSet, List.mem_filter, decide_eq_true_eq]
  constructor
  · rintro (hid | ⟨hid, -⟩)
    · exact hsub hid
    · exact hid
  · intro hid
    by_cases hselected : id ∈ selected.flatMap (·.findingIds)
    · exact Or.inl hselected
    · exact Or.inr ⟨hid, hselected⟩

/-- A plan selects the first three candidates and loses no finding. -/
theorem selectsFirst_of_plan
    (h : buildPublicActionPlan env value planningDate limits = .ok plan) :
    ∃ entries candidates,
      validatedReferences (canonicalPublicFindings value) limits.maxFindings = .ok entries ∧
      buildCandidates env (canonicalPublicFindings value) entries limits = .ok candidates ∧
      SelectsFirst env value candidates plan := by
  unfold buildPublicActionPlan at h
  obtain ⟨entries, hentries, h⟩ := ok_of_bind h
  obtain ⟨candidates, hcandidates, h⟩ := ok_of_bind h
  split at h
  · cases h
  · next henough =>
      split at h
      · cases h
      · obtain ⟨ordered, hordered, h⟩ := ok_of_bind h
        obtain ⟨actions, hactions, h⟩ := ok_of_bind h
        dsimp only at h
        split at h
        · cases h
        · split at h
          · cases h
          · cases h
            obtain ⟨hnodup, hranked, hmembers⟩ := buildCandidates_ok hcandidates
            obtain ⟨hperm, hready⟩ := topologicalOrder_ok hordered
            have hmade := buildActions_ok hactions
            have hselected : ∀ candidate ∈ addDependencies env (candidates.take 3)
                value.siteRollup.siteUrl, candidate.entries ⊆ entries := by
              intro candidate hcandidate
              obtain ⟨source, hsource, hsame⟩ := entries_of_mem_addDependencies hcandidate
              rw [hsame]
              exact hmembers source (List.mem_of_mem_take hsource)
            have hids : ∀ id, id ∈ actions.flatMap (·.findingIds) ↔
                id ∈ (addDependencies env (candidates.take 3)
                  value.siteRollup.siteUrl).flatMap (·.findingIds) := by
              intro id
              rw [mem_findingIds_of_madeOf hmade]
              exact (hperm.flatMap_right _).mem_iff
            have hgiven : ∀ id, id ∈ entries.map (·.finding.findingId) ↔
                id ∈ value.findings.map (·.findingId) := by
              intro id
              have hsame := congrArg (List.map (·.findingId)) (validatedReferences_findings hentries)
              rw [List.map_map] at hsame
              rw [← ((sortedBy_perm (·.findingId) value.findings).map _).mem_iff]
              exact Eq.to_iff (congrArg (id ∈ ·) hsame)
            refine ⟨entries, candidates, hentries, hcandidates, ?_⟩
            constructor
            · exact Nat.le_of_not_lt henough
            · have hne := List.pairwise_map.1 hnodup
              exact (hranked.and hne).imp fun hpair => candidateSortKey_lt hpair.1 hpair.2
            · exact ⟨ordered, hperm, hready, hmade⟩
            · intro id
              rw [hids, ← hgiven]
              exact mem_selected_or_unselected hselected
            · intro id hid
              rw [mem_sortedSet, List.mem_filter, decide_eq_true_eq] at hid
              rw [hids]
              exact hid.2

end Selection

end SearchTrust.Report
