/-
The five functions that read the answers of the Google APIs.  Three of them always keep
their promise; a report of totals and a page of keywords break it in one way each.
-/
import SearchTrust.Google.SearchConsole
import SearchTrust.Google.AnalyticsContract
import SearchTrust.Google.BusinessProfileContract

namespace SearchTrust.Google

open SearchTrust.Market (Text text Value Fields)
open SearchTrust.Report (Date)

/-- Every answer is refused with the one error or gives what is promised, exactly when it
is no report of totals that hides rows and its keywords reach no null. -/
theorem google_answers (lib : AnswerLibrary) (payload : Value) :
    (∀ dimension limit start stop, Answers (ViewFits payload dimension limit start stop)
      (normalizeView lib payload dimension limit start stop)) ∧
    (∀ name start stop, Answers (ReportFits payload name start stop)
      (normalizeReport lib payload name start stop) ↔
        ¬HiddenTotals lib payload name start stop) ∧
    (∀ resourceId, Answers (fun _ => True) (normalizeLocation lib payload resourceId)) ∧
    (∀ start stop, Answers (PerformanceFits start stop)
      (normalizePerformance lib payload start stop)) ∧
    ∀ seen, Answers (KeywordPageFits lib payload seen)
      (normalizeKeywordPage lib payload seen) ↔ ¬ReachesNullKeyword lib payload seen :=
  ⟨normalizeView_answers payload, fun _ _ _ => normalizeReport_answers_iff,
    normalizeLocation_answers payload, normalizePerformance_answers payload,
    fun _ => normalizeKeywordPage_answers_iff⟩

/-- A library that knows no dates, numbers or URLs. -/
def bareLibrary : AnswerLibrary where
  upper := id
  casefold := id
  float _ := none
  urlsplit _ := none
  fromisoformat _ := none
  strptime _ := none
  calendar _ _ _ := none
  strftime _ _ := []

/-- A page whose only keyword is null. -/
def nullKeywordPage : Value :=
  .dict [("searchKeywordsCounts", .list [.dict [("searchKeyword", .null),
    ("insightsValue", .dict [("value", .str (text "1"))])]])]

/-- A report of totals without rows, although the provider counts two. -/
def countedTotals : Value :=
  .dict [("metricHeaders", .list (ReportView.totals.metrics.map fun name =>
      .dict [("name", .str (text name))])),
    ("metadata", .dict [("timeZone", .str (text "UTC"))]), ("rowCount", .int 2)]

/-- A null keyword leaves as an `AttributeError`, and counted totals are called complete. -/
theorem broken_answers :
    ¬Answers (KeywordPageFits bareLibrary nullKeywordPage [])
      (normalizeKeywordPage bareLibrary nullKeywordPage []) ∧
    ¬Answers (ReportFits countedTotals "totals" 1 90)
      (normalizeReport bareLibrary countedTotals "totals" 1 90) := by
  constructor
  · intro hanswers
    apply normalizeKeywordPage_answers_iff.1 hanswers
    exact ⟨_, [], _, [], rfl, rfl, by decide, rfl⟩
  · intro hanswers
    apply normalizeReport_answers_iff.1 hanswers
    exact ⟨rfl, by decide, by decide⟩

end SearchTrust.Google
