/-
The plan and the order of the lists it is made from: what planning reads of a findings
result does not depend on them, and what its checksum is taken of does only where two
source traces share an evidence id or two source summaries a snapshot id.
-/
import SearchTrust.Order.Permutations
import SearchTrust.Report.CopyFacts
import SearchTrust.Report.DelimitedText

namespace SearchTrust.Report

open SearchTrust.Jobs (Json)
open SearchTrust.Order
open Outcomes

section Orders

/-- The same findings result with its lists in another order. -/
structure Reordered (value other : PublicFindingsResult) : Prop where
  findings : value.findings.Perm other.findings
  ruleEvaluations : value.ruleEvaluations.Perm other.ruleEvaluations
  evidenceIndex :
    value.evidenceResult.evidenceIndex.Perm other.evidenceResult.evidenceIndex
  sourceTraces : value.evidenceResult.sourceTraces.Perm other.evidenceResult.sourceTraces
  sourceSummaries :
    value.evidenceResult.sourceSummaries.Perm other.evidenceResult.sourceSummaries
  coverageGaps : value.evidenceResult.coverageGaps.Perm other.evidenceResult.coverageGaps
  clusterRollups : value.clusterRollups.Perm other.clusterRollups
  siteRollup : value.siteRollup = other.siteRollup

theorem Reordered.refl (value : PublicFindingsResult) : Reordered value value where
  findings := List.Perm.refl _
  ruleEvaluations := List.Perm.refl _
  evidenceIndex := List.Perm.refl _
  sourceTraces := List.Perm.refl _
  sourceSummaries := List.Perm.refl _
  coverageGaps := List.Perm.refl _
  clusterRollups := List.Perm.refl _
  siteRollup := rfl

/-- What planning reads of two findings results is the same. -/
structure ReadsAlike (value other : PublicFindingsResult) : Prop where
  findings : value.findings = other.findings
  siteRollup : value.siteRollup = other.siteRollup
  evaluation : value.evaluation = other.evaluation
  evidence : value.evidence = other.evidence
  identities : identitiesFit value = identitiesFit other

variable {value other : PublicFindingsResult}

theorem ReadsAlike.referenced (h : ReadsAlike value other) :
    value.referenced = other.referenced := by
  funext finding
  rw [PublicFindingsResult.referenced, PublicFindingsResult.referenced, h.evidence]

theorem ReadsAlike.findingFault (h : ReadsAlike value other) :
    findingFault value = findingFault other := by
  have hfit : referencesFit value = referencesFit other := by
    funext finding evaluation
    rw [referencesFit, referencesFit, h.referenced, h.evidence]
  funext finding
  rw [Report.findingFault, Report.findingFault, h.evaluation, hfit]

theorem ReadsAlike.validatedReferences (h : ReadsAlike value other) (maxFindings : ℕ) :
    validatedReferences value maxFindings = validatedReferences other maxFindings := by
  rw [Report.validatedReferences, Report.validatedReferences, h.findings, h.identities,
    h.findingFault, h.evaluation]

theorem ReadsAlike.buildCandidates (h : ReadsAlike value other) (env : Environment)
    (entries : List Entry) (limits : PublicActionLimits) :
    buildCandidates env value entries limits = buildCandidates env other entries limits := by
  have hbuild : buildCandidate env value limits = buildCandidate env other limits := by
    funext template group
    rw [buildCandidate, buildCandidate, h.siteRollup, h.referenced]
  rw [Report.buildCandidates, Report.buildCandidates, hbuild]

end Orders

section Identities

variable {value other : PublicFindingsResult}

/-- The identities that are checked do not depend on the order of the lists. -/
theorem identitiesFit_eq (h : Reordered value other) : identitiesFit value = identitiesFit other := by
  have hfindings := h.findings.map (·.findingId)
  have hevidence := h.evidenceIndex.map (·.evidenceId)
  have htraces := h.sourceTraces.map (·.evidenceId)
  have hevaluated := h.ruleEvaluations.filterMap (·.findingId)
  have hsorted : sortedSet (value.findings.map (·.findingId)) =
      sortedSet (other.findings.map (·.findingId)) :=
    sortedSet_eq_of_mem_iff fun id => hfindings.mem_iff
  have hsub : ∀ {a a' b b' : List String}, a.Perm a' → b.Perm b' → (a ⊆ b ↔ a' ⊆ b') :=
    fun ha hb => ha.subset_congr_left.trans hb.subset_congr_right
  unfold identitiesFit
  dsimp only
  rw [h.siteRollup, hsorted, h.ruleEvaluations.all_eq]
  congr 1
  · congr 2
    rw [decide_eq_decide, hevidence.nodup_iff, hsub hevidence htraces, hsub htraces hevidence]
  · rw [decide_eq_decide, hevaluated.nodup_iff, hsub hevaluated hfindings,
      hsub hfindings hevaluated]

theorem identitiesFit_nodup (h : identitiesFit value = true) :
    (value.evidenceResult.evidenceIndex.map (·.evidenceId)).Nodup ∧
      (value.ruleEvaluations.filterMap (·.findingId)).Nodup := by
  simp only [identitiesFit, Bool.and_eq_true, decide_eq_true_eq] at h
  exact ⟨h.1.1.2.1, h.2.1⟩

/-- The canonical findings are the findings in an order. -/
theorem reordered_canonicalPublicFindings (value : PublicFindingsResult) :
    Reordered value (canonicalPublicFindings value) where
  findings := (sortedBy_perm _ _).symm
  ruleEvaluations := (sortedBy_perm _ _).symm
  evidenceIndex := (sortedBy_perm _ _).symm
  sourceTraces := (sortedBy_perm _ _).symm
  sourceSummaries := (sortedBy_perm _ _).symm
  coverageGaps := (sortedBy_perm _ _).symm
  clusterRollups := (sortedBy_perm _ _).symm
  siteRollup := rfl

theorem Reordered.symm (h : Reordered value other) : Reordered other value where
  findings := h.findings.symm
  ruleEvaluations := h.ruleEvaluations.symm
  evidenceIndex := h.evidenceIndex.symm
  sourceTraces := h.sourceTraces.symm
  sourceSummaries := h.sourceSummaries.symm
  coverageGaps := h.coverageGaps.symm
  clusterRollups := h.clusterRollups.symm
  siteRollup := h.siteRollup.symm

theorem Reordered.trans {third : PublicFindingsResult} (h : Reordered value other)
    (hthird : Reordered other third) : Reordered value third where
  findings := h.findings.trans hthird.findings
  ruleEvaluations := h.ruleEvaluations.trans hthird.ruleEvaluations
  evidenceIndex := h.evidenceIndex.trans hthird.evidenceIndex
  sourceTraces := h.sourceTraces.trans hthird.sourceTraces
  sourceSummaries := h.sourceSummaries.trans hthird.sourceSummaries
  coverageGaps := h.coverageGaps.trans hthird.coverageGaps
  clusterRollups := h.clusterRollups.trans hthird.clusterRollups
  siteRollup := h.siteRollup.trans hthird.siteRollup

/-- A finding has one evaluation, whatever the order. -/
theorem evaluation_eq (h : Reordered value other)
    (hnodup : (value.ruleEvaluations.filterMap (·.findingId)).Nodup) :
    value.evaluation = other.evaluation := by
  funext finding
  refine find?_eq_of_perm h.ruleEvaluations fun a ha b hb hfirst hsecond => ?_
  exact eq_of_nodup_filterMap hnodup ha hb (of_decide_eq_true hfirst)
    (of_decide_eq_true hsecond)

theorem readsAlike_canonical (h : Reordered value other)
    (hfindings : (value.findings.map (·.findingId)).Nodup)
    (hfit : identitiesFit value = true) :
    ReadsAlike (canonicalPublicFindings value) (canonicalPublicFindings other) := by
  have hvalue := reordered_canonicalPublicFindings value
  have hcanonical : Reordered (canonicalPublicFindings value) (canonicalPublicFindings other) :=
    hvalue.symm.trans (h.trans (reordered_canonicalPublicFindings other))
  obtain ⟨hevidence, hevaluated⟩ := identitiesFit_nodup hfit
  have hindex : (canonicalPublicFindings value).evidenceResult.evidenceIndex =
      (canonicalPublicFindings other).evidenceResult.evidenceIndex :=
    sortedBy_eq_of_perm h.evidenceIndex hevidence
  constructor
  · exact sortedBy_eq_of_perm h.findings hfindings
  · exact h.siteRollup
  · exact evaluation_eq hcanonical ((hvalue.ruleEvaluations.filterMap _).nodup_iff.1 hevaluated)
  · funext id
    rw [PublicFindingsResult.evidence, PublicFindingsResult.evidence, hindex]
  · exact identitiesFit_eq hcanonical

/-- Planning reads of the traces only whose they are. -/
theorem readsAlike_of_traces (value : PublicFindingsResult) (traces : List EvidenceSourceTrace)
    (hfit : identitiesFit (canonicalPublicFindings value) =
      identitiesFit (canonicalPublicFindings { value with
        evidenceResult := { value.evidenceResult with sourceTraces := traces } })) :
    ReadsAlike (canonicalPublicFindings value) (canonicalPublicFindings { value with
      evidenceResult := { value.evidenceResult with sourceTraces := traces } }) :=
  ⟨rfl, rfl, rfl, rfl, hfit⟩

/-- What a plan says about the result that it was made from. -/
theorem buildPublicActionPlan_checked {env : Environment} {planningDate : Date}
    {limits : PublicActionLimits} {plan : PublicActionPlan}
    (h : buildPublicActionPlan env value planningDate limits = .ok plan) :
    (value.findings.map (·.findingId)).Nodup ∧ identitiesFit value = true ∧
      plan.findingsChecksum = requestDigest env.hash (canonicalPublicFindings value).json := by
  have hvalue := reordered_canonicalPublicFindings value
  unfold buildPublicActionPlan at h
  obtain ⟨entries, hentries, h⟩ := ok_of_bind h
  obtain ⟨candidates, -, h⟩ := ok_of_bind h
  have hchecks : ((canonicalPublicFindings value).findings.map (·.findingId)).Nodup ∧
      identitiesFit (canonicalPublicFindings value) = true := by
    unfold validatedReferences at hentries
    split at hentries
    · cases hentries
    · split at hentries
      · cases hentries
      · next hnodup =>
          split at hentries
          · cases hentries
          · next hfit => exact ⟨not_not.1 hnodup, not_not.1 hfit⟩
  have hchecksum :
      plan.findingsChecksum = requestDigest env.hash (canonicalPublicFindings value).json := by
    split at h
    · cases h
    · split at h
      · cases h
      · obtain ⟨ordered, -, h⟩ := ok_of_bind h
        obtain ⟨actions, -, h⟩ := ok_of_bind h
        dsimp only at h
        split at h
        · cases h
        · split at h
          · cases h
          · cases h
            rfl
  refine ⟨(hvalue.findings.map _).nodup_iff.2 hchecks.1, ?_, hchecksum⟩
  rw [identitiesFit_eq hvalue]
  exact hchecks.2

end Identities

section Texts

theorem canonicalText_object (fields : List (String × Json)) :
    canonicalText (.object fields) = '\x7b' :: commaJoined
      ((sortedBy Prod.fst (fields.map fun e => (e.1, canonicalText e.2))).map
        fun e => quoted e.1 ++ ':' :: e.2) ++ ['\x7d'] := by
  rw [canonicalText, fieldTexts_eq_map]

theorem canonicalText_array (items : List Json) :
    canonicalText (.array items) = '[' :: commaJoined (items.map canonicalText) ++ [']'] := by
  rw [canonicalText, itemTexts_eq_map]

theorem canonicalText_evidence (evidence : EvidenceBuildResult) :
    canonicalText evidence.json = '\x7b' :: commaJoined [
      quoted "coverage_gaps" ++ ':' :: canonicalText (.array evidence.coverageGaps),
      quoted "evidence_index" ++ ':' ::
        canonicalText (.array (evidence.evidenceIndex.map EvidenceItem.json)),
      quoted "source_summaries" ++ ':' ::
        canonicalText (.array (evidence.sourceSummaries.map EvidenceSourceSummary.json)),
      quoted "source_traces" ++ ':' ::
        canonicalText (.array (evidence.sourceTraces.map EvidenceSourceTrace.json))] ++
      ['\x7d'] := by
  rw [EvidenceBuildResult.json, canonicalText_object]
  simp [sortedBy]

theorem canonicalText_findings (result : PublicFindingsResult) :
    canonicalText result.json = '\x7b' :: commaJoined [
      quoted "cluster_rollups" ++ ':' ::
        canonicalText (.array (result.clusterRollups.map FindingsRollup.json)),
      quoted "evidence_result" ++ ':' :: canonicalText result.evidenceResult.json,
      quoted "findings" ++ ':' :: canonicalText (.array (result.findings.map Finding.json)),
      quoted "rule_evaluations" ++ ':' ::
        canonicalText (.array (result.ruleEvaluations.map RuleEvaluation.json)),
      quoted "ruleset_version" ++ ':' :: canonicalText (.string "v22_public_findings_v1"),
      quoted "site_rollup" ++ ':' :: canonicalText result.siteRollup.json] ++ ['\x7d'] := by
  rw [PublicFindingsResult.json, canonicalText_object]
  simp [sortedBy]

/-- The text of a sorted list does not depend on the order of the list. -/
theorem arrayText_eq_of_perm {α κ : Type*} [LinearOrder κ] {key : α → κ} {json : α → Json}
    {items others : List α} (h : items.Perm others)
    (hties : ∀ a ∈ items, ∀ b ∈ items, key a = key b →
      canonicalText (json a) = canonicalText (json b)) :
    canonicalText (.array ((sortedBy key items).map json)) =
      canonicalText (.array ((sortedBy key others).map json)) := by
  rw [canonicalText_array, canonicalText_array, List.map_map, List.map_map]
  have htexts : (sortedBy key items).map (canonicalText ∘ json) =
      (sortedBy key others).map (canonicalText ∘ json) := map_sortedBy_eq_of_perm h hties
  rw [htexts]

/-- Lists of objects with one text hold objects with the same texts. -/
theorem itemTexts_eq_of_arrayText {items others : List Json}
    (hitems : ∀ item ∈ items, Braced (canonicalText item))
    (hothers : ∀ item ∈ others, Braced (canonicalText item))
    (hlength : items.length = others.length)
    (h : canonicalText (.array items) = canonicalText (.array others)) :
    items.map canonicalText = others.map canonicalText := by
  have hbraced : ∀ {list : List Json}, (∀ item ∈ list, Braced (canonicalText item)) →
      ∀ text ∈ list.map canonicalText, Braced text := by
    intro list hlist text htext
    obtain ⟨item, hitem, rfl⟩ := List.mem_map.1 htext
    exact hlist item hitem
  rw [canonicalText_array, canonicalText_array, List.cons_append, List.cons_append] at h
  have hjoined := List.append_cancel_right (List.cons.inj h).2
  refine commaJoined_inj (hbraced hitems) (hbraced hothers) ?_ hjoined
  rw [List.length_map, List.length_map, hlength]

/-- Joined texts that differ in one part only. -/
theorem commaJoined_middle_inj {front back : List (List Char)} {a b : List Char}
    (h : commaJoined (front ++ a :: back) = commaJoined (front ++ b :: back)) : a = b := by
  induction front with
  | nil =>
      rw [List.nil_append, List.nil_append] at h
      cases back with
      | nil => simpa [commaJoined] using h
      | cons next back =>
          rw [commaJoined_cons_cons, commaJoined_cons_cons] at h
          exact List.append_cancel_right h
  | cons first front ih =>
      have hstep : ∀ c : List Char, commaJoined (first :: front ++ c :: back) =
          first ++ ',' :: commaJoined (front ++ c :: back) := by
        intro c
        cases front with
        | nil => exact commaJoined_cons_cons first c back
        | cons next front => exact commaJoined_cons_cons first next (front ++ c :: back)
      rw [hstep, hstep] at h
      exact ih (List.cons.inj (List.append_cancel_left h)).2

/-- A field is read off the text of an object whose other fields are the same. -/
theorem field_inj {front back : List (List Char)} {key : String} {a b : List Char}
    (h : '\x7b' :: commaJoined (front ++ (quoted key ++ ':' :: a) :: back) ++ ['\x7d'] =
      '\x7b' :: commaJoined (front ++ (quoted key ++ ':' :: b) :: back) ++ ['\x7d']) :
    a = b := by
  have hjoined := List.append_cancel_right (List.cons.inj h).2
  have hfield := commaJoined_middle_inj hjoined
  exact (List.cons.inj (List.append_cancel_left hfield)).2

end Texts

section Ties

/-- Source traces of one evidence id, and source summaries of one snapshot id, have the
same canonical bytes. -/
structure TiesWrittenAlike (value : PublicFindingsResult) : Prop where
  traces : ∀ a ∈ value.evidenceResult.sourceTraces, ∀ b ∈ value.evidenceResult.sourceTraces,
    a.evidenceId = b.evidenceId → canonicalText a.json = canonicalText b.json
  summaries : ∀ a ∈ value.evidenceResult.sourceSummaries,
    ∀ b ∈ value.evidenceResult.sourceSummaries,
      a.snapshotId = b.snapshotId → canonicalText a.json = canonicalText b.json

variable {value other : PublicFindingsResult}

/-- The bytes that the checksum is taken of. -/
def checksumText (value : PublicFindingsResult) : List Char :=
  canonicalText (canonicalPublicFindings value).json

theorem checksumText_eq (h : Reordered value other)
    (hfindings : (value.findings.map (·.findingId)).Nodup)
    (hfit : identitiesFit value = true) (hties : TiesWrittenAlike value) :
    checksumText value = checksumText other := by
  obtain ⟨hevidence, -⟩ := identitiesFit_nodup hfit
  have hkeyed : ∀ {α : Type} {key : α → String} {items : List α}, (items.map key).Nodup →
      ∀ {json : α → Json}, ∀ a ∈ items, ∀ b ∈ items, key a = key b →
        canonicalText (json a) = canonicalText (json b) := by
    intro α key items hnodup json a ha b hb hkey
    rw [List.inj_on_of_nodup_map hnodup ha hb hkey]
  have hparts : canonicalText (canonicalEvidence value.evidenceResult).json =
      canonicalText (canonicalEvidence other.evidenceResult).json := by
    have hgaps : (sortedBy canonicalText value.evidenceResult.coverageGaps).map canonicalText =
        (sortedBy canonicalText other.evidenceResult.coverageGaps).map canonicalText :=
      map_sortedBy_eq_of_perm h.coverageGaps fun _ _ _ _ htext => htext
    rw [canonicalText_evidence, canonicalText_evidence]
    unfold canonicalEvidence
    dsimp only
    rw [arrayText_eq_of_perm h.evidenceIndex (hkeyed hevidence),
      arrayText_eq_of_perm h.sourceTraces hties.traces,
      arrayText_eq_of_perm h.sourceSummaries hties.summaries,
      canonicalText_array (sortedBy canonicalText value.evidenceResult.coverageGaps), hgaps,
      ← canonicalText_array]
  have hrollups : ∀ a ∈ value.clusterRollups, ∀ b ∈ value.clusterRollups,
      rollupKey a = rollupKey b → canonicalText a.json = canonicalText b.json :=
    fun a _ b _ hkey => congrArg (fun key => (ofLex key).2) hkey
  unfold checksumText
  rw [canonicalText_findings, canonicalText_findings]
  unfold canonicalPublicFindings
  dsimp only
  rw [hparts, h.siteRollup, arrayText_eq_of_perm h.findings (hkeyed hfindings),
    arrayText_eq_of_perm h.ruleEvaluations fun _ _ _ _ htext => htext,
    arrayText_eq_of_perm h.clusterRollups hrollups]

/-- The evidence is read off the bytes of results that agree in all else. -/
theorem evidenceText_of_checksumText {evidence : EvidenceBuildResult}
    (h : checksumText value = checksumText { value with evidenceResult := evidence }) :
    canonicalText (canonicalEvidence value.evidenceResult).json =
      canonicalText (canonicalEvidence evidence).json := by
  unfold checksumText at h
  rw [canonicalText_findings, canonicalText_findings] at h
  exact @field_inj [_] _ _ _ _ h

/-- The numbers in the traces and the summaries are written as numbers. -/
structure EvidenceNumbers (evidence : EvidenceBuildResult) : Prop where
  traces : ∀ trace ∈ evidence.sourceTraces, literalNumbers trace.json = true
  summaries : ∀ summary ∈ evidence.sourceSummaries, literalNumbers summary.json = true

/-- Objects with one text for every order of theirs are written alike where they tie. -/
theorem ties_of_arrayText {α κ : Type*} [LinearOrder κ] {key : α → κ} {json : α → Json}
    {items : List α} (hbraced : ∀ item ∈ items, Braced (canonicalText (json item)))
    (h : ∀ others, items.Perm others →
      canonicalText (.array ((sortedBy key items).map json)) =
        canonicalText (.array ((sortedBy key others).map json))) :
    ∀ a ∈ items, ∀ b ∈ items, key a = key b →
      canonicalText (json a) = canonicalText (json b) := by
  have hsorted : ∀ others, items.Perm others →
      ∀ item ∈ (sortedBy key others).map json, Braced (canonicalText item) := by
    intro others hperm item hitem
    obtain ⟨a, ha, rfl⟩ := List.mem_map.1 hitem
    exact hbraced a (hperm.mem_iff.2 (mem_sortedBy.1 ha))
  have hinvariant : ∀ others, items.Perm others →
      (sortedBy key items).map (fun item => canonicalText (json item)) =
        (sortedBy key others).map fun item => canonicalText (json item) := by
    intro others hperm
    have htexts := itemTexts_eq_of_arrayText (hsorted items (List.Perm.refl _))
      (hsorted others hperm) (by simp [hperm.length_eq]) (h others hperm)
    rwa [List.map_map, List.map_map] at htexts
  exact map_sortedBy_invariant_iff.1 hinvariant

theorem ties_of_checksumText (hnumbers : EvidenceNumbers value.evidenceResult)
    (h : ∀ other, Reordered value other → checksumText value = checksumText other) :
    TiesWrittenAlike value := by
  constructor
  · refine ties_of_arrayText (fun trace htrace => ?_) fun others hperm => ?_
    · exact braced_canonicalText (hnumbers.traces trace htrace)
    · have hreordered : Reordered value
          { value with evidenceResult := { value.evidenceResult with sourceTraces := others } } :=
        { Reordered.refl value with sourceTraces := hperm }
      have htext := evidenceText_of_checksumText (h _ hreordered)
      rw [canonicalText_evidence, canonicalText_evidence] at htext
      exact @field_inj [_, _, _] [] _ _ _ htext
  · refine ties_of_arrayText (fun summary hsummary => ?_) fun others hperm => ?_
    · exact braced_canonicalText (hnumbers.summaries summary hsummary)
    · have hreordered : Reordered value
          { value with
            evidenceResult := { value.evidenceResult with sourceSummaries := others } } :=
        { Reordered.refl value with sourceSummaries := hperm }
      have htext := evidenceText_of_checksumText (h _ hreordered)
      rw [canonicalText_evidence, canonicalText_evidence] at htext
      exact @field_inj [_, _] [_] _ _ _ htext

/-- The bytes of the checksum do not depend on the order exactly where ties are written
alike. -/
theorem checksumText_invariant_iff (hnumbers : EvidenceNumbers value.evidenceResult)
    (hfindings : (value.findings.map (·.findingId)).Nodup)
    (hfit : identitiesFit value = true) :
    (∀ other, Reordered value other → checksumText value = checksumText other) ↔
      TiesWrittenAlike value :=
  ⟨ties_of_checksumText hnumbers, fun hties _ h => checksumText_eq h hfindings hfit hties⟩

end Ties

section Digests

theorem hexDigit_inj : ∀ m < 16, ∀ n < 16, hexDigit m = hexDigit n → m = n := by decide

/-- The digits of a hash tell what it is. -/
theorem hexdigest_inj {a b : BitVec 256} (h : hexdigest a = hexdigest b) : a = b := by
  have hdigits : ∀ i : Fin 64,
      (a.toNat >>> (4 * (63 - i.val))) % 16 = (b.toNat >>> (4 * (63 - i.val))) % 16 := by
    intro i
    have hdigit := congrFun (List.ofFn_injective h) i
    exact hexDigit_inj _ (Nat.mod_lt _ (by decide)) _ (Nat.mod_lt _ (by decide)) hdigit
  have hbit : ∀ (c : BitVec 256) (j : ℕ), j < 256 → c.toNat.testBit j =
      ((c.toNat >>> (4 * (j / 4))) % 2 ^ 4).testBit (j % 4) := by
    intro c j hj
    have hlow : j % 4 < 4 := Nat.mod_lt _ (by decide)
    rw [Nat.testBit_mod_two_pow, decide_eq_true hlow, Bool.true_and, Nat.testBit_shiftRight,
      Nat.div_add_mod]
  apply BitVec.eq_of_toNat_eq
  apply Nat.eq_of_testBit_eq
  intro j
  by_cases hj : j < 256
  · have hdigit := hdigits ⟨63 - j / 4, by omega⟩
    have hplace : 63 - (63 - j / 4) = j / 4 := by omega
    dsimp only at hdigit
    rw [hplace] at hdigit
    have h16 : 2 ^ 4 = 16 := rfl
    rw [hbit a j hj, hbit b j hj, h16, hdigit]
  · have hhigh : ∀ c : BitVec 256, c.toNat.testBit j = false := by
      intro c
      apply Nat.testBit_lt_two_pow
      exact lt_of_lt_of_le c.isLt (Nat.pow_le_pow_right (by decide) (Nat.le_of_not_lt hj))
    rw [hhigh, hhigh]

theorem requestDigest_inj {hash : Hash} {a b : Json}
    (h : requestDigest hash a = requestDigest hash b) : hash a = hash b := by
  have hchars : "sha256:".toList ++ hexdigest (hash a) = "sha256:".toList ++ hexdigest (hash b) :=
    String.ofList_injective h
  have hdigits : hexdigest (hash a) = hexdigest (hash b) :=
    List.append_cancel_left hchars
  exact hexdigest_inj hdigits

theorem dropPrefix?_append (head rest : List Char) :
    (head ++ rest).dropPrefix? head = some rest := by
  rw [List.dropPrefix?_eq_some_iff]
  exact ⟨head, rfl, beq_self_eq_true head⟩

theorem isDigest_of_digits {digits : List Char} (hhex : digits.all isLowerHex = true)
    (hlength : digits.length = 64) : isDigest (.ofList ("sha256:".toList ++ digits)) = true := by
  rw [isDigest, String.toList_ofList, dropPrefix?_append]
  dsimp only
  rw [hhex, Bool.true_and, decide_eq_true_eq]
  exact hlength

theorem isDigest_requestDigest (hash : Hash) (value : Json) :
    isDigest (requestDigest hash value) = true := by
  have hhex : ∀ c ∈ hexdigest (hash value), isLowerHex c = true :=
    fun c hc => isLowerHex_of_mem_hexdigest hc
  exact isDigest_of_digits (List.all_eq_true.2 hhex) (hexdigest_length _)

/-- All digests have the same size. -/
theorem contentSize_of_isDigest {digest : String} (h : isDigest digest = true) :
    contentSize digest = 71 := by
  unfold isDigest at h
  split at h
  · next rest hrest =>
      rw [Bool.and_eq_true, decide_eq_true_eq] at h
      obtain ⟨head, hchars, hhead⟩ := List.dropPrefix?_eq_some_iff.1 hrest
      have hhead' : head = "sha256:".toList := eq_of_beq hhead
      have hsize : ("sha256:".toList.map charSize).sum = 7 := by decide
      rw [contentSize, hchars, hhead', List.map_append, List.sum_append, hsize,
        contentSize_of_hex (List.all_eq_true.1 h.1), h.2]
  · cases h

end Digests

section Plans

/-- The runtime whose hash is taken of the canonical bytes. -/
def Environment.ofSha (sha : List Char → BitVec 256) (hostname : HttpUrl → String)
    (casefold : String → String) : Environment where
  hash value := sha (canonicalText value)
  hostname
  casefold

/-- Two orders of the findings have one hash only if they have the same bytes. -/
def NoCollision (sha : List Char → BitVec 256) (value : PublicFindingsResult) : Prop :=
  ∀ other, Reordered value other →
    sha (checksumText value) = sha (checksumText other) → checksumText value = checksumText other

variable {sha : List Char → BitVec 256} {hostname : HttpUrl → String}
  {casefold : String → String} {value : PublicFindingsResult} {planningDate : Date}
  {limits : PublicActionLimits} {plan : PublicActionPlan}

/-- The checksum is a field of its own: with that of other findings a plan stays valid and
has the same size. -/
theorem valid_with_checksum (env : Environment) (h : plan.Valid) (findings : Json) :
    ({ plan with findingsChecksum := requestDigest env.hash findings } : PublicActionPlan).Valid ∧
      jsonSize ({ plan with
        findingsChecksum := requestDigest env.hash findings } : PublicActionPlan).json =
        jsonSize plan.json := by
  have hdigest := isDigest_requestDigest env.hash findings
  constructor
  · exact { h with
      findingsChecksum := hdigest
      fits := fun action haction => by
        obtain ⟨hearlier, hdate, haudit⟩ := h.fits action haction
        exact ⟨hearlier, hdate, haudit⟩ }
  · simp only [PublicActionPlan.json, jsonSize, fieldsSize, stringSize,
      contentSize_of_isDigest hdigest, contentSize_of_isDigest h.findingsChecksum]
    rfl

/-- The plans of results that read alike differ at most in their checksums. -/
theorem plan_of_readsAlike {env : Environment} {other : PublicFindingsResult}
    (halike : ReadsAlike (canonicalPublicFindings value) (canonicalPublicFindings other))
    (h : buildPublicActionPlan env value planningDate limits = .ok plan) :
    buildPublicActionPlan env other planningDate limits = .ok { plan with
      findingsChecksum := requestDigest env.hash (canonicalPublicFindings other).json } := by
  unfold buildPublicActionPlan at h ⊢
  dsimp only at h ⊢
  obtain ⟨entries, hentries, h⟩ := ok_of_bind h
  obtain ⟨candidates, hcandidates, h⟩ := ok_of_bind h
  rw [halike.validatedReferences] at hentries
  rw [halike.buildCandidates] at hcandidates
  rw [halike.siteRollup] at h
  rw [hentries, ok_bind, hcandidates, ok_bind]
  split at h
  · cases h
  · next henough =>
      split at h
      · cases h
      · next haudit =>
          obtain ⟨ordered, hordered, h⟩ := ok_of_bind h
          obtain ⟨actions, hactions, h⟩ := ok_of_bind h
          rw [if_neg henough, if_neg haudit, hordered, ok_bind, hactions, ok_bind]
          split at h
          · cases h
          · next hvalid =>
              split at h
              · cases h
              · next hsize =>
                  cases h
                  obtain ⟨hother, hsame⟩ := valid_with_checksum env (not_not.1 hvalid)
                    (canonicalPublicFindings other).json
                  rw [if_neg (not_not.2 hother), hsame, if_neg hsize]

/-- The plan is the same for every order exactly where ties are written alike. -/
theorem plan_invariant_iff
    (hplan : buildPublicActionPlan (.ofSha sha hostname casefold) value planningDate limits =
      .ok plan)
    (hnumbers : EvidenceNumbers value.evidenceResult) (hcollision : NoCollision sha value) :
    (∀ other, Reordered value other →
      buildPublicActionPlan (.ofSha sha hostname casefold) other planningDate limits =
        .ok plan) ↔ TiesWrittenAlike value := by
  obtain ⟨hfindings, hfit, hchecksum⟩ := buildPublicActionPlan_checked hplan
  rw [← checksumText_invariant_iff hnumbers hfindings hfit]
  constructor
  · intro h other hreordered
    obtain ⟨-, -, hother⟩ := buildPublicActionPlan_checked (h other hreordered)
    exact hcollision other hreordered (requestDigest_inj (hchecksum.symm.trans hother))
  · intro h other hreordered
    have hdigest : requestDigest (Environment.ofSha sha hostname casefold).hash
        (canonicalPublicFindings value).json =
          requestDigest (Environment.ofSha sha hostname casefold).hash
            (canonicalPublicFindings other).json := by
      have hsha := congrArg sha (h other hreordered)
      exact congrArg (fun hash => String.ofList ("sha256:".toList ++ hexdigest hash)) hsha
    rw [plan_of_readsAlike (readsAlike_canonical hreordered hfindings hfit) hplan, ← hdigest,
      ← hchecksum]

end Plans

end SearchTrust.Report
