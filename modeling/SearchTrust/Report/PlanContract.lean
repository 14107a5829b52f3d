/-
The public action plan as a whole.  Its checksum is taken of traces that are sorted by
their evidence id only and of summaries that are sorted by their snapshot id only, so
that ties there keep the order in which they came.
-/
import SearchTrust.Report.ActionSelection

namespace SearchTrust.Report

open SearchTrust.Jobs (Json)
open SearchTrust.Order (sortedSet)
open SearchTrust.Report.Outcomes

section Contract

variable {sha : List Char → BitVec 256} {hostname : HttpUrl → String}
  {casefold : String → String} {value : PublicFindingsResult} {planningDate : Date}
  {limits : PublicActionLimits} {plan : PublicActionPlan}

/-- The same plan is made of every order of the findings result exactly where traces of one
evidence id, and summaries of one snapshot, are written alike.  In any case the actions are
the first three candidates, each after those that it depends on, and no finding is lost. -/
theorem public_action_plan_stable_iff
    (hplan : buildPublicActionPlan (.ofSha sha hostname casefold) value planningDate limits =
      .ok plan)
    (hnumbers : EvidenceNumbers value.evidenceResult) (hcollision : NoCollision sha value) :
    ((∀ other, Reordered value other →
      buildPublicActionPlan (.ofSha sha hostname casefold) other planningDate limits =
        .ok plan) ↔ TiesWrittenAlike value) ∧
    ∃ entries candidates,
      validatedReferences (canonicalPublicFindings value) limits.maxFindings = .ok entries ∧
      buildCandidates (.ofSha sha hostname casefold) (canonicalPublicFindings value) entries
        limits = .ok candidates ∧
      SelectsFirst (.ofSha sha hostname casefold) value candidates plan :=
  ⟨plan_invariant_iff hplan hnumbers hcollision, selectsFirst_of_plan hplan⟩

end Contract

section Drafts

variable (env : Environment) (findingsResult : PublicFindingsResult) (planningDate : Date)
  (limits : PublicActionLimits)

/-- The plan before its last checks. -/
def draftPlan : Except ActionErrorKind PublicActionPlan := do
  let result := canonicalPublicFindings findingsResult
  let entries ← validatedReferences result limits.maxFindings
  let candidates ← buildCandidates env result entries limits
  let selected := addDependencies env (candidates.take 3) result.siteRollup.siteUrl
  let ordered ← topologicalOrder selected
  let actions ← buildActions planningDate limits 1 ordered
  return {
    planningDate
    findingsChecksum := requestDigest env.hash result.json
    actions
    selectionAudit := candidates.map (selectionAudit (selected.map (·.actionId)))
    unselectedFindingIds := sortedSet ((entries.map (·.finding.findingId)).filter
      (· ∉ selected.flatMap (·.findingIds))) }

variable {env findingsResult planningDate limits}

/-- A draft that is valid and small enough is the plan. -/
theorem buildPublicActionPlan_of_draft {plan : PublicActionPlan}
    (hdraft : draftPlan env findingsResult planningDate limits = .ok plan)
    (hvalid : plan.Valid) (haudits : plan.selectionAudit.length ≤ limits.maxAuditEntries)
    (hsize : jsonSize plan.json ≤ limits.maxBytes) :
    buildPublicActionPlan env findingsResult planningDate limits = .ok plan := by
  obtain ⟨entries, hentries, hdraft⟩ := ok_of_bind hdraft
  obtain ⟨candidates, hcandidates, hdraft⟩ := ok_of_bind hdraft
  obtain ⟨ordered, hordered, hdraft⟩ := ok_of_bind hdraft
  obtain ⟨actions, hactions, hdraft⟩ := ok_of_bind hdraft
  have hplan := Except.ok.inj hdraft
  have hcount : plan.selectionAudit.length = candidates.length := by
    rw [← hplan, List.length_map]
  have hthree := hvalid.auditCount.1
  rw [hcount] at haudits hthree
  simp only [buildPublicActionPlan, hentries, hcandidates, hordered, hactions, ok_bind]
  rw [if_neg (by omega), if_neg (by omega), hplan, if_neg (not_not.2 hvalid),
    if_neg (by omega)]

end Drafts

section Sample

/-- A hash of the first characters. -/
def sampleSha (text : List Char) : BitVec 256 :=
  .ofNat 256 ((text.take 800).foldl (fun hash c => (hash * 31 + c.toNat) % 2 ^ 256) 7)

def samplePage : HttpUrl := "https://client.test/"

def sampleEvidence (evidenceId : String) (sourceType : SourceType) (url : Option HttpUrl)
    (query : Option String) : EvidenceItem where
  evidenceId
  snapshotId := "00000000-0000-4000-8000-000000000001"
  sourceType
  sourceLocator := { url, query, rest := [] }
  normalizedValue := .bool true
  healthStatus := .healthy
  rest := []

def sampleTrace (evidenceId originPath : String) : EvidenceSourceTrace where
  evidenceId
  rest := [("snapshot_id", .string "00000000-0000-4000-8000-000000000001"),
    ("selector", .object [("category", .string "site_field"), ("record_key", .string "page"),
      ("record_context", .array []), ("field", .string "title"), ("competitor_id", .null),
      ("metric_key", .null), ("unit", .null), ("dimensions", .array []),
      ("request_context", .null)]),
    ("origin_paths", texts [originPath])]

def sampleFinding (findingId ruleId evidenceId : String) (urls : List HttpUrl)
    (queries : List String) : Finding where
  findingId
  statement := "The saved sample shows it."
  evidenceIds := [evidenceId]
  comparatorIds := []
  ruleId
  ruleVersion := ruleVersion
  classification := .fact
  severity := .high
  scope := "saved sample"
  confidence := .high
  affectedUrls := urls
  affectedQueries := queries
  missingData := []
  changeConditions := []

def sampleEvaluation (finding : Finding) : RuleEvaluation where
  ruleId := finding.ruleId
  ruleVersion := finding.ruleVersion
  target := {
    urls := finding.affectedUrls
    query := finding.affectedQueries.head?
    pageType := none
    rest := [] }
  state := .triggered
  evidenceIds := finding.evidenceIds
  comparatorIds := finding.comparatorIds
  findingId := some finding.findingId
  rest := []

def samplePlanFindings : List Finding :=
  [sampleFinding "fn_http_1" httpRule "ev_site_1" [samplePage] [],
    sampleFinding "fn_title_1" titleRule "ev_site_1" [samplePage] [],
    sampleFinding "fn_domain_1" domainRule "ev_serp_1" [] ["plumber"]]

def sampleFindingsResult (traces : List EvidenceSourceTrace) : PublicFindingsResult where
  evidenceResult := {
    evidenceIndex := [sampleEvidence "ev_site_1" .site (some samplePage) none,
      sampleEvidence "ev_serp_1" .serp none (some "plumber")]
    sourceTraces := traces
    sourceSummaries := []
    coverageGaps := [] }
  findings := samplePlanFindings
  ruleEvaluations := samplePlanFindings.map sampleEvaluation
  siteRollup := {
    siteUrl := samplePage
    pageType := none
    findingIds := ["fn_domain_1", "fn_http_1", "fn_title_1"]
    rest := [] }
  clusterRollups := []

def sampleEnvironment : Environment := .ofSha sampleSha (fun _ => "client.test") id

def samplePlan (traces : List EvidenceSourceTrace) : Except ActionErrorKind PublicActionPlan :=
  buildPublicActionPlan sampleEnvironment (sampleFindingsResult traces) 739000 {}

def sampleTraces : List EvidenceSourceTrace :=
  [sampleTrace "ev_site_1" "a", sampleTrace "ev_serp_1" "b"]

def sampleDraft : Except ActionErrorKind PublicActionPlan :=
  draftPlan sampleEnvironment (sampleFindingsResult sampleTraces) 739000 {}

theorem sampleDraft_fits : sampleDraft.toOption.any (fun plan => decide (plan.Valid ∧
    plan.selectionAudit.length ≤ 1000 ∧ roughSize plan.json ≤ 20000000)) = true := by
  decide +kernel

theorem exists_samplePlan : ∃ plan, samplePlan sampleTraces = .ok plan := by
  have hfits := sampleDraft_fits
  cases hdraft : sampleDraft with
  | error kind =>
      rw [hdraft] at hfits
      cases hfits
  | ok plan =>
      rw [hdraft] at hfits
      obtain ⟨hvalid, haudits, hsize⟩ := of_decide_eq_true hfits
      exact ⟨plan, buildPublicActionPlan_of_draft hdraft hvalid haudits
        ((jsonSize_le_roughSize _).trans hsize)⟩

theorem sample_numbers : EvidenceNumbers (sampleFindingsResult sampleTraces).evidenceResult where
  traces := by decide
  summaries := fun _ h => absurd h List.not_mem_nil

theorem sample_ties : TiesWrittenAlike (sampleFindingsResult sampleTraces) where
  traces := by
    intro a ha b hb hid
    have hnodup : (sampleTraces.map (·.evidenceId)).Nodup := by decide
    rw [List.inj_on_of_nodup_map hnodup ha hb hid]
  summaries := fun _ h => absurd h List.not_mem_nil

/-- A trace for each piece of evidence: the plan is the same for every order. -/
theorem sample_plan_stable : ∃ plan, samplePlan sampleTraces = .ok plan ∧
    ∀ other, Reordered (sampleFindingsResult sampleTraces) other →
      buildPublicActionPlan sampleEnvironment other 739000 {} = .ok plan := by
  obtain ⟨plan, hplan⟩ := exists_samplePlan
  obtain ⟨hfindings, hfit, -⟩ := buildPublicActionPlan_checked hplan
  have hcollision : NoCollision sampleSha (sampleFindingsResult sampleTraces) :=
    fun other hother _ => checksumText_eq hother hfindings hfit sample_ties
  exact ⟨plan, hplan, (public_action_plan_stable_iff hplan sample_numbers hcollision).1.2
    sample_ties⟩

/-- A piece of evidence with two traces of different origins. -/
def repeatedTraces (first second : String) : List EvidenceSourceTrace :=
  [sampleTrace "ev_serp_1" first, sampleTrace "ev_site_1" "b", sampleTrace "ev_serp_1" second]

theorem samplePlan_of_traces {plan : PublicActionPlan}
    (h : samplePlan sampleTraces = .ok plan) (traces : List EvidenceSourceTrace)
    (hfit : identitiesFit (canonicalPublicFindings (sampleFindingsResult sampleTraces)) =
      identitiesFit (canonicalPublicFindings (sampleFindingsResult traces))) :
    samplePlan traces = .ok { plan with
      findingsChecksum := requestDigest sampleEnvironment.hash
        (canonicalPublicFindings (sampleFindingsResult traces)).json } :=
  plan_of_readsAlike (readsAlike_of_traces _ _ hfit) h

set_option maxRecDepth 20000 in
/-- Two traces of one piece of evidence: a plan is made, and another one of the other
order. -/
theorem repeated_traces_change_plan :
    ∃ plan, samplePlan (repeatedTraces "a" "c") = .ok plan ∧
      Reordered (sampleFindingsResult (repeatedTraces "a" "c"))
        (sampleFindingsResult (repeatedTraces "c" "a")) ∧
      samplePlan (repeatedTraces "c" "a") ≠ .ok plan := by
  obtain ⟨plan, hplan⟩ := exists_samplePlan
  have hfirst := samplePlan_of_traces hplan (repeatedTraces "a" "c") (by decide)
  have hsecond := samplePlan_of_traces hplan (repeatedTraces "c" "a") (by decide)
  refine ⟨_, hfirst, ?_, ?_⟩
  · have hperm : (repeatedTraces "a" "c").Perm (repeatedTraces "c" "a") :=
      (List.reverse_perm (repeatedTraces "c" "a"))
    exact { Reordered.refl (sampleFindingsResult (repeatedTraces "a" "c")) with
      sourceTraces := hperm }
  · intro hsame
    have hplans := Except.ok.inj (hsecond.symm.trans hsame)
    have hdigests := requestDigest_inj (congrArg PublicActionPlan.findingsChecksum hplans)
    have hdiffer : sampleEnvironment.hash (canonicalPublicFindings
        (sampleFindingsResult (repeatedTraces "c" "a"))).json ≠
          sampleEnvironment.hash (canonicalPublicFindings
            (sampleFindingsResult (repeatedTraces "a" "c"))).json := by
      decide
    exact hdiffer hdigests

end Sample

end SearchTrust.Report
