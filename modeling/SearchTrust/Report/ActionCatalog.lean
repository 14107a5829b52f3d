/-
The versioned action templates and the rules that lead to them.
-/
import SearchTrust.Report.Models

namespace SearchTrust.Report

section Rules

def rulesetVersion : String := "v22_public_findings_v1"
def ruleVersion : String := "1.0.0"
def gbpAlignmentRuleVersion : String := "1.1.0"
def textPatternGbpAlignmentRuleVersion : String := "1.2.0"
def nameQualityGbpAlignmentRuleVersion : String := "1.3.0"
def identityGbpAlignmentRuleVersion : String := "1.4.0"
def hoursRule : String := "v22_public.gbp_opening_hours_alignment"
def httpRule : String := "v22_public.site_http_error"
def noindexRule : String := "v22_public.site_explicit_noindex"
def titleRule : String := "v22_public.site_duplicate_title"
def domainRule : String := "v22_public.market_site_domain_unobserved"
def aheadRule : String := "v22_public.market_confirmed_competitors_ahead"
def assetRule : String := "v22_public.competitor_sample_page_type_gap"

def gbpNameRule : String := "v22_public.gbp_name_alignment"
def gbpAddressRule : String := "v22_public.gbp_address_alignment"
def gbpPhoneRule : String := "v22_public.gbp_phone_alignment"
def gbpServiceAreaRule : String := "v22_public.gbp_service_area_alignment"

/-- `GBP_RULES`. -/
def gbpRules : List String :=
  [gbpNameRule, gbpAddressRule, gbpPhoneRule, gbpServiceAreaRule]

end Rules

section Templates

/-- `AllowedFactField`. -/
inductive AllowedFactField where
  | findingStatement
  | findingScope
  | findingSeverity
  | findingConfidence
  | targetUrl
  | targetQuery
  | targetPageType
  | targetGbpField
  | targetSite
  | actionDefinitionOfDone
deriving DecidableEq, Repr

structure ActionTemplate where
  key : String
  version : String
  order : Nat
  idSlug : String
  steps : List (String × String)
  contentRequirements : List String
  gbpRequirements : List String
  technicalRequirements : List String
  requiredClientAssets : List String
  ownerSuggestion : String
  effortBucket : EffortBucket
  definitionOfDone : List String
  metricKey : String
  metricBaseline : String
  metricSuccessCondition : String
  allowedSourceTypes : List SourceType
  copyAllowedFactFields : List AllowedFactField
  copyRequiredLimitations : List String

def actionCatalogVersion : String := "v22_public_actions_v1"

def templateVersion : String := "1.0.0"

def restoreSiteAccessIndexing : ActionTemplate where
  key := "restore_site_access_indexing"
  version := templateVersion
  order := 10
  idSlug := "restore_site"
  steps := [
    ("Confirm the intended state",
      "Review each bound page finding and confirm the intended response and indexing policy."),
    ("Correct the confirmed condition",
      "Correct only the server response or explicit indexing directive confirmed as unintended."),
    ("Collect a new snapshot",
      "Recheck every targeted URL and retain new bound evidence.")]
  contentRequirements := []
  gbpRequirements := []
  technicalRequirements := [
    "Preserve redirects, canonicals and indexing directives that the client confirms are intentional."]
  requiredClientAssets := [
    "Client confirmation of the intended availability and indexing policy for each targeted URL."]
  ownerSuggestion := "Technical SEO lead and web developer"
  effortBucket := .medium
  definitionOfDone := [
    "Every targeted URL has a new eligible snapshot that no longer triggers the selected HTTP or explicit noindex finding."]
  metricKey := "site_access_indexing_recheck"
  metricBaseline :=
    "At least one targeted URL has a saved HTTP or explicit noindex finding."
  metricSuccessCondition := "New bound snapshots no longer trigger the selected condition."
  allowedSourceTypes := [.site]
  copyAllowedFactFields :=
    [.findingStatement, .findingScope, .findingSeverity, .targetUrl, .actionDefinitionOfDone]
  copyRequiredLimitations := [
    "Do not describe a saved page condition as permanent or promise a search outcome."]

def differentiatePageTitles : ActionTemplate where
  key := "differentiate_page_titles"
  version := templateVersion
  order := 20
  idSlug := "differentiate_titles"
  steps := [
    ("Review the title groups",
      "Confirm the purpose of each targeted URL and the repeated saved titles."),
    ("Write distinct titles",
      "Prepare a distinct accurate title for each page without changing the page offer."),
    ("Publish and recheck",
      "Publish approved titles and compare new bound page snapshots.")]
  contentRequirements := [
    "Each targeted page title must accurately distinguish that page from the other targeted pages."]
  gbpRequirements := []
  technicalRequirements := [
    "Keep each approved title in the page title element and verify it in a new saved HTML snapshot."]
  requiredClientAssets := [
    "Client confirmation of the distinct purpose of each targeted page."]
  ownerSuggestion := "SEO content lead"
  effortBucket := .small
  definitionOfDone := [
    "New eligible snapshots show distinct approved titles across the targeted final URLs."]
  metricKey := "duplicate_title_recheck"
  metricBaseline :=
    "The saved sample contains a repeated normalized title across targeted final URLs."
  metricSuccessCondition :=
    "New bound snapshots no longer trigger the selected duplicate-title finding."
  allowedSourceTypes := [.site]
  copyAllowedFactFields :=
    [.findingStatement, .findingScope, .targetUrl, .actionDefinitionOfDone]
  copyRequiredLimitations := [
    "Do not claim that repeated titles prove duplicate body content."]

def reviewMarketVisibility : ActionTemplate where
  key := "review_market_visibility"
  version := templateVersion
  order := 30
  idSlug := "review_market"
  steps := [
    ("Confirm comparable observations",
      "Review the selected queries, locations, devices and result types represented by the bound findings."),
    ("Document supported responses",
      "Identify only changes supported by separate site or profile evidence; record unresolved causes as unknown."),
    ("Repeat the market sample",
      "Collect fresh comparable search observations and re-evaluate the selected findings.")]
  contentRequirements := []
  gbpRequirements := []
  technicalRequirements := [
    "Preserve the same query, location, device and result-type basis when validating the market observation."]
  requiredClientAssets := [
    "Client confirmation of the priority queries represented by the selected findings."]
  ownerSuggestion := "Local SEO lead"
  effortBucket := .medium
  definitionOfDone := [
    "Fresh comparable market evidence is captured and every selected market finding is re-evaluated without an unsupported causal claim."]
  metricKey := "market_visibility_recheck"
  metricBaseline :=
    "The client domain was unobserved or behind confirmed competitors in at least one saved comparable result."
  metricSuccessCondition :=
    "Fresh comparable observations are stored and the selected conditions are re-evaluated."
  allowedSourceTypes := [.serp]
  copyAllowedFactFields :=
    [.findingStatement, .findingScope, .targetQuery, .targetSite, .actionDefinitionOfDone]
  copyRequiredLimitations := [
    "Do not infer a ranking cause or promise visibility improvement from the saved observations."]

def closePageTypeGap : ActionTemplate where
  key := "close_page_type_gap"
  version := templateVersion
  order := 40
  idSlug := "page_type_gap"
  steps := [
    ("Validate the sampled gap",
      "Confirm the page classifications and whether the targeted page type represents a real client need."),
    ("Approve the page requirement",
      "Define an accurate page brief only when the client confirms the underlying offering or business need."),
    ("Create or document the decision",
      "Publish an approved distinct page or record why the sampled difference should not be copied.")]
  contentRequirements := [
    "Use only verified offerings, locations, proof and customer needs relevant to the targeted page type."]
  gbpRequirements := []
  technicalRequirements := [
    "If a page is approved, make it independently useful, reachable and eligible for a new inventory snapshot."]
  requiredClientAssets := [
    "Client confirmation that the targeted page type represents a real offering or business need.",
    "Approved supporting proof for any new page."]
  ownerSuggestion := "SEO content lead and client subject-matter expert"
  effortBucket := .medium
  definitionOfDone := [
    "The sampled page-type difference is validated and an approved page or documented no-build decision is available for recheck."]
  metricKey := "page_type_gap_recheck"
  metricBaseline :=
    "The client sample lacked the targeted page type while multiple confirmed competitor samples contained it."
  metricSuccessCondition :=
    "New bound inventories support a documented decision for the targeted page type."
  allowedSourceTypes := [.site, .competitor]
  copyAllowedFactFields :=
    [.findingStatement, .findingScope, .targetPageType, .actionDefinitionOfDone]
  copyRequiredLimitations := [
    "Describe this as a sampled page-type difference, not proof that the client must copy a competitor asset."]

def alignPublicGbp : ActionTemplate where
  key := "align_public_gbp"
  version := templateVersion
  order := 50
  idSlug := "align_public_gbp"
  steps := [
    ("Confirm authoritative values",
      "Obtain client confirmation for every targeted website and public GBP field."),
    ("Correct the approved channels",
      "Update only the eligible website or public GBP fields the client confirms are inaccurate or missing."),
    ("Collect new bound snapshots",
      "Recheck the targeted fields on both channels and retain their source state.")]
  contentRequirements := [
    "Use only client-approved business identity and field values."]
  gbpRequirements := [
    "Change a public GBP field only after the client confirms the authoritative value and channel access."]
  technicalRequirements := []
  requiredClientAssets := [
    "Client-confirmed authoritative values for every targeted GBP field.",
    "Access to each channel that requires an approved correction."]
  ownerSuggestion := "Client GBP manager and website owner"
  effortBucket := .small
  definitionOfDone := [
    "New eligible website and public GBP snapshots no longer trigger the selected field-alignment findings."]
  metricKey := "site_gbp_alignment_recheck"
  metricBaseline :=
    "At least one targeted website and public GBP field was partially matched, mismatched or missing."
  metricSuccessCondition :=
    "New bound snapshots no longer trigger the selected field-alignment findings."
  allowedSourceTypes := [.site, .gbp, .coverage]
  copyAllowedFactFields :=
    [.findingStatement, .findingScope, .targetUrl, .targetGbpField, .actionDefinitionOfDone]
  copyRequiredLimitations := [
    "Do not invent a missing field value or imply access to an unauthorized GBP account."]

/-- The values of `ACTION_TEMPLATES`. -/
def actionTemplates : List ActionTemplate :=
  [restoreSiteAccessIndexing, differentiatePageTitles, reviewMarketVisibility,
    closePageTypeGap, alignPublicGbp]

/-- `ACTION_TEMPLATES.get`. -/
def actionTemplate (key : String) : Option ActionTemplate :=
  actionTemplates.find? fun template => template.key = key

theorem actionTemplate_mem {key : String} {template : ActionTemplate}
    (h : actionTemplate key = some template) : template ∈ actionTemplates :=
  List.mem_of_find?_eq_some h

end Templates

section Bindings

structure RuleActionBinding where
  ruleVersion : String
  template : ActionTemplate
  gbpField : Option String

/-- `RULE_ACTIONS.get`: a binding holds its template instead of the template's key. -/
def ruleAction (ruleId : String) : Option RuleActionBinding :=
  [(hoursRule, ⟨ruleVersion, alignPublicGbp, some "opening_hours"⟩),
    (httpRule, ⟨ruleVersion, restoreSiteAccessIndexing, none⟩),
    (noindexRule, ⟨ruleVersion, restoreSiteAccessIndexing, none⟩),
    (titleRule, ⟨ruleVersion, differentiatePageTitles, none⟩),
    (domainRule, ⟨ruleVersion, reviewMarketVisibility, none⟩),
    (aheadRule, ⟨ruleVersion, reviewMarketVisibility, none⟩),
    (assetRule, ⟨ruleVersion, closePageTypeGap, none⟩),
    (gbpNameRule, ⟨gbpAlignmentRuleVersion, alignPublicGbp, some "business_name"⟩),
    (gbpAddressRule, ⟨gbpAlignmentRuleVersion, alignPublicGbp, some "address"⟩),
    (gbpPhoneRule, ⟨gbpAlignmentRuleVersion, alignPublicGbp, some "phone"⟩),
    (gbpServiceAreaRule, ⟨gbpAlignmentRuleVersion, alignPublicGbp, some "service_area"⟩)
  ].lookup ruleId

end Bindings

end SearchTrust.Report
