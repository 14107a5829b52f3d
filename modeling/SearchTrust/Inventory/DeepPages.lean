/-
The deep collection: the ranked pages are fetched in their order until enough of them
answered, and failed pages fill what is left of the selection.
-/
import SearchTrust.Inventory.Selection
import SearchTrust.Inventory.SiteUrls
import SearchTrust.Report.Outcomes

namespace SearchTrust.Inventory

open SearchTrust.Order

section Outcomes

/-- `InventoryErrorCode`. -/
inductive InventoryErrorCode where
  | unsafeTarget
  | rootUnreachable
  | robotsUnavailable
  | sitemapUnavailable
  | pageTimeout
  | responseTooLarge
  | contentUnsupported
  | httpError
  | parseFailed
  | firecrawlUnavailable
  | candidateExhausted
  | emptyInventory
deriving DecidableEq, Repr

/-- The exceptions that the collection of a page catches. -/
inductive FetchFailure where
  | siteFetch (code : String)
  | urlSafety
  | urlUnreachable
deriving DecidableEq, Repr

/-- `_error_code`. -/
def errorCode : FetchFailure → InventoryErrorCode
  | .siteFetch "unsafe_target" => .unsafeTarget
  | .siteFetch "page_timeout" => .pageTimeout
  | .siteFetch "response_too_large" => .responseTooLarge
  | .siteFetch "content_unsupported" => .contentUnsupported
  | .siteFetch _ => .httpError
  | .urlSafety => .unsafeTarget
  | .urlUnreachable => .httpError

/-- What reading a page comes to: its content, a failure that is caught, or an exception
that is not. -/
inductive DeepFetch (Content : Type) where
  | content (content : Content)
  | failed (failure : FetchFailure)
  | raised
deriving DecidableEq, Repr

/-- `DeepPageSnapshot`. -/
structure DeepPageSnapshot (Content : Type) where
  url : String
  pageType : SitePageType
  crawlDepth : ℕ
  content : Content
deriving DecidableEq, Repr

/-- An entry of `outcomes`. -/
structure Outcome (Content : Type) where
  rank : ℕ
  ranked : RankedPage
  result : Except InventoryErrorCode (DeepPageSnapshot Content)

variable {Content : Type}

/-- `outcome[2] is not None`. -/
def Outcome.succeeded (outcome : Outcome Content) : Bool := outcome.result.isOk

/-- The exceptions that leave the collection. -/
inductive DeepError where
  | fetch
  | validation (model : String)
deriving DecidableEq, Repr

end Outcomes

section Records

variable {Content : Type}

/-- `SelectedPageRecord`. -/
structure SelectedPageRecord (Content : Type) where
  url : String
  pageType : SitePageType
  crawlDepth : ℕ
  selectionScore : ℚ
  selectionReasons : List String
  deepAnalyzed : Bool
  deepSnapshot : Option (DeepPageSnapshot Content)
deriving DecidableEq

/-- `validate_deep_state`, after the bounds of the fields. -/
def SelectedPageRecord.valid (record : SelectedPageRecord Content) : Bool :=
  record.crawlDepth ≤ 100 && 1 ≤ record.selectionReasons.length &&
    record.selectionReasons.length ≤ 20 &&
    record.deepAnalyzed == record.deepSnapshot.isSome &&
    record.deepSnapshot.all (·.url == record.url)

/-- `DeepPageAttempt`. -/
structure DeepPageAttempt where
  url : String
  rank : ℕ
  succeeded : Bool
  selectedFinal : Bool
  errorCode : Option InventoryErrorCode
deriving DecidableEq

/-- `validate_attempt`, after the bounds of the fields. -/
def DeepPageAttempt.valid (attempt : DeepPageAttempt) : Bool :=
  1 ≤ attempt.rank && attempt.rank ≤ 500 && attempt.succeeded == attempt.errorCode.isNone

/-- The record that an outcome leaves in the selection. -/
def Outcome.toRecord (outcome : Outcome Content) : SelectedPageRecord Content where
  url := outcome.ranked.url
  pageType := outcome.ranked.pageType
  crawlDepth := outcome.ranked.page.crawlDepth
  selectionScore := outcome.ranked.score
  selectionReasons := outcome.ranked.reasons
  deepAnalyzed := outcome.succeeded
  deepSnapshot := outcome.result.toOption

/-- The attempt that an outcome leaves, for the URLs of the selection. -/
def Outcome.toAttempt (finalUrls : List String) (outcome : Outcome Content) : DeepPageAttempt where
  url := outcome.ranked.url
  rank := outcome.rank
  succeeded := outcome.succeeded
  selectedFinal := outcome.ranked.url ∈ finalUrls
  errorCode := match outcome.result with
    | .ok _ => none
    | .error code => some code

/-- A model, where its validation passes. -/
def validated {α : Type} (model : String) (valid : α → Bool) (value : α) : Except DeepError α :=
  if valid value then .ok value else .error (.validation model)

end Records

section Collection

/-- The settings of a collector, and what each page that is tried comes to. -/
structure DeepCollector (Content : Type) where
  samplingQuality : Bool
  contactCoverage : Bool
  deepSnapshot : ℕ → RankedPage → DeepFetch Content

/-- The variables of the loop. -/
structure Collecting (Content : Type) where
  outcomes : List (Outcome Content)
  successCount : ℕ
  contactSucceeded : Bool

variable {Content : Type} (lib : UrlLibraries) (collector : DeepCollector Content) (limit : ℕ)

/-- A page outside the scope of the sampling. -/
def DeepCollector.isAdmin (ranked : RankedPage) : Bool :=
  collector.samplingQuality &&
    (isAdminPage lib (some ranked.url.toList) ||
      isAdminPage lib (ranked.page.finalUrl.map String.toList))

/-- A page that is kept for contacts. -/
def DeepCollector.isReserved (ranked : RankedPage) : Bool :=
  collector.contactCoverage && "contact_reserved" ∈ ranked.reasons

/-- The snapshot of a page. -/
def snapshotOf (ranked : RankedPage) (content : Content) : DeepPageSnapshot Content where
  url := ranked.url
  pageType := ranked.pageType
  crawlDepth := ranked.page.crawlDepth
  content := content

/-- The loop over the ranked pages with their ranks. -/
def collectPages :
    List (RankedPage × ℕ) → Collecting Content → Except DeepError (Collecting Content)
  | [], state => .ok state
  | (ranked, rank) :: rest, state =>
      if collector.isAdmin lib ranked then collectPages rest state
      else if limit ≤ state.successCount then .ok state
      else if collector.isReserved ranked && state.contactSucceeded then
        collectPages rest state
      else
        match collector.deepSnapshot rank ranked with
        | .raised => .error .fetch
        | .failed failure => collectPages rest
            { state with
              outcomes := state.outcomes ++ [⟨rank, ranked, .error (errorCode failure)⟩] }
        | .content content => collectPages rest
            { outcomes := state.outcomes ++ [⟨rank, ranked, .ok (snapshotOf ranked content)⟩]
              successCount := state.successCount + 1
              contactSucceeded := state.contactSucceeded || ranked.pageType = .contact }

/-- `final_outcomes`. -/
def finalOutcomes (outcomes : List (Outcome Content)) : List (Outcome Content) :=
  let successful := outcomes.filter Outcome.succeeded
  let failed := outcomes.filter (! ·.succeeded)
  sortedBy Outcome.rank (successful ++ failed.take (limit - successful.length))

/-- What the collection returns. -/
structure DeepCollection (Content : Type) where
  selected : List (SelectedPageRecord Content)
  attempts : List DeepPageAttempt
  limitations : List String

/-- `_collect_deep_pages`. -/
def collectDeepPages (rankedPages : List RankedPage) :
    Except DeepError (DeepCollection Content) := do
  let state ← collectPages lib collector limit (rankedPages.zipIdx 1) ⟨[], 0, false⟩
  let final := finalOutcomes limit state.outcomes
  let finalUrls := final.map (·.ranked.url)
  let selected ← final.mapM fun outcome =>
    validated "SelectedPageRecord" SelectedPageRecord.valid outcome.toRecord
  let attempts ← state.outcomes.mapM fun outcome =>
    validated "DeepPageAttempt" DeepPageAttempt.valid (outcome.toAttempt finalUrls)
  return {
    selected := selected
    attempts := attempts
    limitations :=
      (if (state.outcomes.filter Outcome.succeeded).length < limit then ["candidate_exhausted"]
        else []) ++
      if state.outcomes.filter (! ·.succeeded) = [] then [] else ["deep_page_failures_present"] }

end Collection

end SearchTrust.Inventory
