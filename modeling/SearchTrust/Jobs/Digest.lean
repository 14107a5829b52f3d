/-
The deterministic JSON encoding of `digest.py`.  An encoded value is modelled by
what reading it back gives: the same value with its object keys in order.
-/
import SearchTrust.Jobs.Store

namespace SearchTrust.Jobs

namespace Json

/-- The check `value is None`: Python reads JSON null as `None`. -/
def isNull : Json → Bool
  | null => true
  | _ => false

theorem isNull_eq_true_iff {value : Json} : value.isNull = true ↔ value = null := by
  constructor
  · intro h
    cases value with
    | null => rfl
    | _ => cases h
  · rintro rfl
    rfl

/-- The order of `OPT_SORT_KEYS`. -/
def keyLe (a b : String × Json) : Bool := decide (a.1 ≤ b.1)

mutual

/-- What `json.loads` reads back from `canonical_json_bytes`. -/
def canonical : Json → Json
  | null => null
  | bool value => bool value
  | number literal => number literal
  | string value => string value
  | array items => array (canonicalItems items)
  | object fields => object ((canonicalFields fields).mergeSort keyLe)

def canonicalItems : List Json → List Json
  | [] => []
  | item :: rest => item.canonical :: canonicalItems rest

def canonicalFields : List (String × Json) → List (String × Json)
  | [] => []
  | (key, value) :: rest => (key, value.canonical) :: canonicalFields rest

end

theorem canonicalFields_eq_map (fields : List (String × Json)) :
    canonicalFields fields = fields.map fun e => (e.1, e.2.canonical) := by
  induction fields with
  | nil => rw [canonicalFields, List.map_nil]
  | cons entry rest ih =>
      obtain ⟨key, value⟩ := entry
      rw [canonicalFields, ih, List.map_cons]

theorem keyLe_trans (a b c : String × Json) (hab : keyLe a b = true)
    (hbc : keyLe b c = true) : keyLe a c = true := by
  simp only [keyLe, decide_eq_true_eq] at *
  exact String.le_trans hab hbc

theorem keyLe_total (a b : String × Json) : (keyLe a b || keyLe b a) = true := by
  simp only [keyLe, Bool.or_eq_true, decide_eq_true_eq]
  exact String.le_total a.1 b.1

/-- Fields that are encoded already stay as they are when they are sorted and
encoded again. -/
theorem canonicalFields_mergeSort {fields : List (String × Json)}
    (h : canonicalFields fields = fields) :
    canonicalFields (fields.mergeSort keyLe) = fields.mergeSort keyLe := by
  rw [canonicalFields_eq_map] at h ⊢
  have hfixed : ∀ entry ∈ fields, (entry.1, entry.2.canonical) = entry :=
    List.map_inj_left.1 (h.trans (List.map_id fields).symm)
  refine (List.map_congr_left ?_).trans (List.map_id _)
  intro entry hentry
  exact hfixed entry (List.mem_mergeSort.1 hentry)

mutual

/-- Encoding what was read back changes nothing. -/
theorem canonical_canonical (value : Json) : value.canonical.canonical = value.canonical := by
  cases value with
  | null => rw [canonical, canonical]
  | bool value => rw [canonical, canonical]
  | number literal => rw [canonical, canonical]
  | string value => rw [canonical, canonical]
  | array items => rw [canonical, canonical, canonicalItems_canonicalItems items]
  | object fields =>
      have hfields := canonicalFields_canonicalFields fields
      have hsorted := List.pairwise_mergeSort keyLe_trans keyLe_total
        (canonicalFields fields)
      rw [canonical, canonical, canonicalFields_mergeSort hfields,
        List.mergeSort_of_pairwise hsorted]

theorem canonicalItems_canonicalItems (items : List Json) :
    canonicalItems (canonicalItems items) = canonicalItems items := by
  cases items with
  | nil => rw [canonicalItems, canonicalItems]
  | cons item rest =>
      rw [canonicalItems, canonicalItems, canonical_canonical item,
        canonicalItems_canonicalItems rest]

theorem canonicalFields_canonicalFields (fields : List (String × Json)) :
    canonicalFields (canonicalFields fields) = canonicalFields fields := by
  cases fields with
  | nil => rw [canonicalFields, canonicalFields]
  | cons entry rest =>
      obtain ⟨key, value⟩ := entry
      rw [canonicalFields, canonicalFields, canonical_canonical value,
        canonicalFields_canonicalFields rest]

end

/-- Equality of JSON values: the order of object keys does not count. -/
def Same (a b : Json) : Prop := a.canonical = b.canonical

theorem Same.canonical (value : Json) : value.Same value.canonical :=
  (canonical_canonical value).symm

theorem Same.refl (value : Json) : value.Same value := rfl

end Json

end SearchTrust.Jobs
