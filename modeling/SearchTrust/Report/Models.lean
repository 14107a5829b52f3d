/-
The value models that the findings, the actions and the copy share.
-/
import SearchTrust.Report.Identifiers

namespace SearchTrust.Report

open SearchTrust.Jobs (Json)

inductive Confidence where
  | low
  | medium
  | high
deriving DecidableEq, Repr

inductive Severity where
  | low
  | medium
  | high
  | critical
deriving DecidableEq, Repr

inductive FactClassification where
  | fact
  | inference
  | estimate
deriving DecidableEq, Repr

inductive EffortBucket where
  | small
  | medium
  | large
deriving DecidableEq, Repr

inductive SourceType where
  | site
  | serp
  | competitor
  | gsc
  | gbp
  | ga4
  | pagespeed
  | coverage
deriving DecidableEq, Repr

/-- A normalized URL, as its text. -/
abbrev HttpUrl := String

def Confidence.text : Confidence → String
  | low => "low"
  | medium => "medium"
  | high => "high"

def Severity.text : Severity → String
  | low => "low"
  | medium => "medium"
  | high => "high"
  | critical => "critical"

def FactClassification.text : FactClassification → String
  | fact => "fact"
  | inference => "inference"
  | estimate => "estimate"

def EffortBucket.text : EffortBucket → String
  | small => "small"
  | medium => "medium"
  | large => "large"

def SourceType.text : SourceType → String
  | site => "site"
  | serp => "serp"
  | competitor => "competitor"
  | gsc => "gsc"
  | gbp => "gbp"
  | ga4 => "ga4"
  | pagespeed => "pagespeed"
  | coverage => "coverage"

/-- `Finding`. -/
structure Finding where
  findingId : String
  statement : String
  evidenceIds : List String
  comparatorIds : List String
  ruleId : String
  ruleVersion : String
  classification : FactClassification
  severity : Severity
  scope : String
  confidence : Confidence
  affectedUrls : List HttpUrl
  affectedQueries : List String
  missingData : List String
  changeConditions : List String
deriving DecidableEq

end SearchTrust.Report
