/-
The pages of a site inventory, as far as their selection and their deep collection read
them.
-/
import SearchTrust.Numeric.Binary64
import SearchTrust.Order.Sorting
import Mathlib.Data.Prod.Lex
import Mathlib.Data.Rat.Defs
import Mathlib.Data.String.Basic

namespace SearchTrust.Inventory

/-- `SitePageType`. -/
inductive SitePageType where
  | home
  | serviceIndex
  | serviceDetail
  | serviceArea
  | location
  | about
  | contact
  | team
  | reviewTestimonial
  | caseStudyPortfolio
  | faq
  | blogIndex
  | blogPost
  | productCategory
  | productDetail
  | legal
  | other
deriving DecidableEq, Repr

def SitePageType.text : SitePageType → String
  | home => "home"
  | serviceIndex => "service_index"
  | serviceDetail => "service_detail"
  | serviceArea => "service_area"
  | location => "location"
  | about => "about"
  | contact => "contact"
  | team => "team"
  | reviewTestimonial => "review_testimonial"
  | caseStudyPortfolio => "case_study_portfolio"
  | faq => "faq"
  | blogIndex => "blog_index"
  | blogPost => "blog_post"
  | productCategory => "product_category"
  | productDetail => "product_detail"
  | legal => "legal"
  | other => "other"

/-- `PageCheckStatus`. -/
inductive PageCheckStatus where
  | checked
  | failed
  | robotsDisallowed
deriving DecidableEq, Repr

/-- `InventoryPageRecord`. -/
structure InventoryPageRecord where
  url : String
  crawlDepth : ℕ
  checkStatus : PageCheckStatus
  statusCode : Option ℕ := none
  finalUrl : Option String := none
  title : Option String := none
  h1 : Option String := none
  metaRobots : List String := []
  pageType : SitePageType
deriving DecidableEq, Repr

/-- `RankedPage`. -/
structure RankedPage where
  page : InventoryPageRecord
  score : ℚ
  reasons : List String
deriving DecidableEq

/-- `str(item.page.url)`. -/
abbrev RankedPage.url (item : RankedPage) : String := item.page.url

/-- `item.page.page_type`. -/
abbrev RankedPage.pageType (item : RankedPage) : SitePageType := item.page.pageType

/-- `GscPagePriority`. -/
structure GscPagePriority where
  url : String
  impressions : ℚ
  clicks : ℚ

end SearchTrust.Inventory

/-
The selection of key pages: the home page, one page of each type that should be covered,
and then the best of the rest, with a cap on blog posts and on products.
-/
namespace SearchTrust.Inventory

open SearchTrust.Order

section Ranking

/-- `_TYPE_SCORES`. -/
def typeScore : SitePageType → ℤ
  | .home => 10000
  | .serviceIndex => 700
  | .serviceDetail => 680
  | .serviceArea => 650
  | .location => 640
  | .about => 560
  | .contact => 550
  | .team => 520
  | .reviewTestimonial => 540
  | .caseStudyPortfolio => 530
  | .faq => 510
  | .blogIndex => 260
  | .blogPost => 180
  | .productCategory => 450
  | .productDetail => 300
  | .legal => 80
  | .other => 100

/-- What a page is worth, and why. -/
structure Scoring where
  score : InventoryPageRecord → ℚ
  reasons : InventoryPageRecord → List String

def Scoring.rank (scoring : Scoring) (page : InventoryPageRecord) : RankedPage :=
  ⟨page, scoring.score page, scoring.reasons page⟩

/-- The Unicode tables and the mathematical functions that the ranking calls. -/
structure RankingLibrary where
  casefold : String → String
  /-- `math.log1p`, on the numbers that a search console counts. -/
  log1p : ℚ → ℚ
  /-- `round(value, 6)`. -/
  round6 : ℚ → ℚ

/-- The class `[a-z0-9]`. -/
def isTokenChar (c : Char) : Bool := ('a' ≤ c && c ≤ 'z') || ('0' ≤ c && c ≤ '9')

variable (lib : RankingLibrary)

/-- `_business_tokens`. -/
def businessTokens (values : List String) : List String :=
  (values.flatMap fun value =>
    (((lib.casefold value).toList.splitOnP (! isTokenChar ·)).filter (3 ≤ ·.length)).map
      .ofList).dedup

/-- `token in haystack`. -/
def containsToken (haystack token : String) : Bool :=
  haystack.toList.tails.any (token.toList.isPrefixOf ·)

/-- `" ".join(value for value in (str(page.url), page.title or "", page.h1 or "") if value)`,
folded. -/
def haystack (page : InventoryPageRecord) : String :=
  lib.casefold (" ".intercalate
    ([page.url, page.title.getD "", page.h1.getD ""].filter (· ≠ "")))

/-- `gsc_by_url.get(url)`. -/
def gscByUrl (priorities : List GscPagePriority) (url : String) : Option GscPagePriority :=
  priorities.reverse.find? fun item => item.url = url

/-- What the search console adds to a score. -/
def gscBonus (priority : GscPagePriority) : ℚ :=
  min 250 (Numeric.toBinary64
    (Numeric.toBinary64 (lib.log1p priority.impressions * 12) +
      Numeric.toBinary64 (lib.log1p priority.clicks * 24)))

/-- `_rank_page`. -/
def pageScoring (tokens : List String) (priorities : List GscPagePriority) : Scoring where
  score page :=
    let base := typeScore page.pageType - min page.crawlDepth 20 * 2
    let hits := (tokens.filter (containsToken (haystack lib page) ·)).length
    let counted : ℤ := base + min hits 5 * 50
    match gscByUrl priorities page.url with
    | none => lib.round6 counted
    | some priority => lib.round6 (Numeric.toBinary64 (counted + gscBonus lib priority))
  reasons page :=
    ["page_type:" ++ page.pageType.text] ++
      (if tokens.any (containsToken (haystack lib page) ·) then ["business_match"] else []) ++
      (if (gscByUrl priorities page.url).isSome then ["gsc_priority"] else []) ++
      if page.pageType = .home then ["home_required"] else []

end Ranking

section Selection

/-- `_COVERAGE_ORDER`. -/
def coverageOrder : List SitePageType :=
  [.serviceIndex, .serviceDetail, .serviceArea, .location, .about, .contact, .team,
    .reviewTestimonial, .caseStudyPortfolio, .faq, .productCategory, .blogIndex]

/-- The keys of `capped_types`. -/
def cappedTypes : List SitePageType := [.blogPost, .productDetail]

/-- A page that was read, answered without an error and may be indexed. -/
def eligible (page : InventoryPageRecord) : Bool :=
  page.checkStatus = .checked && (page.statusCode.filter (· ≠ 0)).getD 500 < 400 &&
    "noindex" ∉ page.metaRobots

/-- `min(max(limit, 0), 500)`. -/
def boundedLimit (limit : ℤ) : ℕ := (min (max limit 0) 500).toNat

/-- The key of the ranking. -/
def rankKey (item : RankedPage) : ℚ ×ₗ String := toLex (-item.score, item.url)

/-- `ranked`. -/
def rankedPages (scoring : Scoring) (pages : List InventoryPageRecord) : List RankedPage :=
  sortedBy rankKey ((pages.filter eligible).map scoring.rank)

/-- `choose`. -/
def choose (limit : ℕ) (chosen : List RankedPage) (item : RankedPage) : List RankedPage :=
  if item.url ∉ chosen.map RankedPage.url ∧ chosen.length < limit then chosen ++ [item]
  else chosen

/-- The first ranked page of a type. -/
def firstOfType (ranked : List RankedPage) (pageType : SitePageType) : Option RankedPage :=
  ranked.find? fun item => item.pageType = pageType

/-- The loop that looks for the home page. -/
def chooseHome (limit : ℕ) (ranked : List RankedPage) : List RankedPage :=
  match firstOfType ranked .home with
  | none => []
  | some item => choose limit [] item

/-- A turn of the loop over the types to cover. -/
def coverType (limit : ℕ) (ranked : List RankedPage) (chosen : List RankedPage)
    (pageType : SitePageType) : List RankedPage :=
  if limit ≤ chosen.length then chosen
  else
    match firstOfType ranked pageType with
    | none => chosen
    | some candidate => choose limit chosen candidate

/-- The pages of a type among the chosen ones. -/
def countOfType (chosen : List RankedPage) (pageType : SitePageType) : ℕ :=
  chosen.countP fun item => item.pageType = pageType

/-- `capped_types.get(page_type)`. -/
def capOf (limit : ℕ) (pageType : SitePageType) : Option ℕ :=
  if pageType ∈ cappedTypes then some (max 2 (limit / 5)) else none

/-- A turn of the loop that fills what is left. -/
def fillPage (limit : ℕ) (chosen : List RankedPage) (item : RankedPage) : List RankedPage :=
  if limit ≤ chosen.length then chosen
  else if (capOf limit item.pageType).any (· ≤ countOfType chosen item.pageType) then chosen
  else choose limit chosen item

/-- The three loops, for a limit within its bounds. -/
def chooseRanked (limit : ℕ) (ranked : List RankedPage) : List RankedPage :=
  ranked.foldl (fillPage limit) (coverageOrder.foldl (coverType limit ranked)
    (chooseHome limit ranked))

/-- `select_key_pages`, with any scoring of the pages. -/
def selectRanked (scoring : Scoring) (limit : ℤ) (pages : List InventoryPageRecord) :
    List RankedPage :=
  let limit := boundedLimit limit
  if limit = 0 then [] else chooseRanked limit (rankedPages scoring pages)

/-- `select_key_pages`. -/
def selectKeyPages (lib : RankingLibrary) (pages : List InventoryPageRecord) (limit : ℤ)
    (primaryService targetMarket : String) (gscPriorities : List GscPagePriority) :
    List RankedPage :=
  selectRanked (pageScoring lib (businessTokens lib [primaryService, targetMarket])
    gscPriorities) limit pages

end Selection

end SearchTrust.Inventory
