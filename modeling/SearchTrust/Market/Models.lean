/-
The result records of the SERP market collection.
-/
import Mathlib.Data.Rat.Defs

namespace SearchTrust.Market

inductive SerpEngine where
  | googleMaps
  | google
deriving DecidableEq

inductive SerpResultType where
  | maps
  | localPack
  | organic
deriving DecidableEq

inductive SerpRankSource where
  | providerPosition
  | responseOrder
deriving DecidableEq

inductive SearchDevice where
  | desktop
  | mobile
deriving DecidableEq

/-- Finite floats are rational numbers; times are microseconds. -/
structure SerpMarketResultRecord where
  recordId : String
  callId : String
  query : String
  resultType : SerpResultType
  position : Int
  rankSource : SerpRankSource
  displayName : String
  url : Option String
  normalizedDomain : Option String
  providerPlaceId : Option String
  providerDataId : Option String
  providerCid : Option String
  address : Option String
  phone : Option String
  categories : List String
  rating : Option ℚ
  reviewCount : Option Int
  snippet : Option String
  providerSearchId : Option String
  responseChecksum : String
  observedAt : Int
  latitude : ℚ
  longitude : ℚ
  countryCode : String
  language : String
  device : SearchDevice
deriving DecidableEq

end SearchTrust.Market
