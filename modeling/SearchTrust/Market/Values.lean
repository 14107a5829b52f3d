/-
JSON documents as Python holds them: code points that need not make well-formed
text, integers beside binary64 numbers, and dicts in the order of their keys'
first appearance.
-/
import SearchTrust.Order.Sorting
import Mathlib.Algebra.Order.Ring.Rat
import Mathlib.Data.List.DropRight
import Mathlib.Data.Rat.Defs

namespace SearchTrust.Market

/-- A `str`: its code points, lone surrogates among them. -/
abbrev Text := List Nat

instance lawfulBEqText : LawfulBEq Text := List.instLawfulBEq

/-- The text of a literal. -/
def text (literal : String) : Text := literal.toList.map Char.toNat

/-- A `float`, by its 64 bits. -/
structure Float64 where
  bits : BitVec 64
deriving DecidableEq

namespace Float64

def exponent (x : Float64) : Nat := x.bits.toNat / 2 ^ 52 % 2 ^ 11

def fraction (x : Float64) : Nat := x.bits.toNat % 2 ^ 52

/-- `math.isfinite`. -/
def isFinite (x : Float64) : Bool := x.exponent != 2047

/-- The number of a finite float. -/
def value (x : Float64) : ℚ :=
  let magnitude : ℚ :=
    if x.exponent = 0 then x.fraction / 2 ^ 1074
    else (2 ^ 52 + x.fraction) * 2 ^ x.exponent / 2 ^ 1075
  if x.bits.msb then -magnitude else magnitude

end Float64

inductive Value where
  | null
  | bool (value : Bool)
  | int (value : Int)
  | float (value : Float64)
  | str (value : Text)
  | list (items : List Value)
  | dict (fields : List (String × Value))

/-- The items of a dict.  A key that is no well-formed text is none that the code
asks for. -/
abbrev Fields := List (String × Value)

namespace Fields

/-- `fields.get(key)`; `none` is a missing key. -/
def get (fields : Fields) (key : String) : Option Value :=
  (fields.find? fun field => field.1 = key).map Prod.snd

/-- The dict of those keys that have a value. -/
def present (entries : List (String × Option Value)) : Fields :=
  entries.filterMap fun entry => entry.2.map fun value => (entry.1, value)

end Fields

namespace Value

/-- `bool(value)`. -/
def truthy : Value → Bool
  | null => false
  | bool value => value
  | int value => value != 0
  | float value => !value.isFinite || value.value != 0
  | str value => !value.isEmpty
  | list items => !items.isEmpty
  | dict fields => !fields.isEmpty

def isNull : Value → Bool
  | null => true
  | _ => false

def keyLe (a b : String × Value) : Bool := decide (a.1 ≤ b.1)

mutual

/-- What reading the canonical bytes of a value gives back: the keys are sorted,
and a number that is not finite was written as null. -/
def canonical : Value → Value
  | null => null
  | bool value => bool value
  | int value => int value
  | float value => if value.isFinite then float value else null
  | str value => str value
  | list items => list (canonicalItems items)
  | dict fields => dict ((canonicalFields fields).mergeSort keyLe)

def canonicalItems : List Value → List Value
  | [] => []
  | item :: rest => item.canonical :: canonicalItems rest

def canonicalFields : Fields → Fields
  | [] => []
  | (key, value) :: rest => (key, value.canonical) :: canonicalFields rest

end

end Value

section Decisions

mutual

def decEqValue : (a b : Value) → Decidable (a = b)
  | .null, .null => isTrue rfl
  | .bool a, .bool b => decidable_of_iff (a = b) (by rw [Value.bool.injEq])
  | .int a, .int b => decidable_of_iff (a = b) (by rw [Value.int.injEq])
  | .float a, .float b => decidable_of_iff (a = b) (by rw [Value.float.injEq])
  | .str a, .str b => decidable_of_iff (a = b) (by rw [Value.str.injEq])
  | .list a, .list b => @decidable_of_iff _ _ (by rw [Value.list.injEq]) (decEqItems a b)
  | .dict a, .dict b => @decidable_of_iff _ _ (by rw [Value.dict.injEq]) (decEqFields a b)
  | .null, .bool _ | .null, .int _ | .null, .float _ | .null, .str _ | .null, .list _
  | .null, .dict _ | .bool _, .null | .bool _, .int _ | .bool _, .float _ | .bool _, .str _
  | .bool _, .list _ | .bool _, .dict _ | .int _, .null | .int _, .bool _ | .int _, .float _
  | .int _, .str _ | .int _, .list _ | .int _, .dict _ | .float _, .null | .float _, .bool _
  | .float _, .int _ | .float _, .str _ | .float _, .list _ | .float _, .dict _ | .str _, .null
  | .str _, .bool _ | .str _, .int _ | .str _, .float _ | .str _, .list _ | .str _, .dict _
  | .list _, .null | .list _, .bool _ | .list _, .int _ | .list _, .float _ | .list _, .str _
  | .list _, .dict _ | .dict _, .null | .dict _, .bool _ | .dict _, .int _ | .dict _, .float _
  | .dict _, .str _ | .dict _, .list _ => isFalse (by simp)

def decEqItems : (a b : List Value) → Decidable (a = b)
  | [], [] => isTrue rfl
  | a :: as, b :: bs =>
      match decEqValue a b, decEqItems as bs with
      | isTrue h, isTrue hrest => isTrue (by rw [h, hrest])
      | isFalse h, _ => isFalse (by simp [h])
      | _, isFalse h => isFalse (by simp [h])
  | [], _ :: _ | _ :: _, [] => isFalse (by simp)

def decEqFields : (a b : List (String × Value)) → Decidable (a = b)
  | [], [] => isTrue rfl
  | (key, a) :: as, (other, b) :: bs =>
      match decEq key other, decEqValue a b, decEqFields as bs with
      | isTrue hkey, isTrue h, isTrue hrest => isTrue (by rw [hkey, h, hrest])
      | isFalse h, _, _ => isFalse (by simp [h])
      | _, isFalse h, _ => isFalse (by simp [h])
      | _, _, isFalse h => isFalse (by simp [h])
  | [], _ :: _ | _ :: _, [] => isFalse (by simp)

end

instance decidableEqValue : DecidableEq Value := decEqValue

end Decisions

section Texts

/-- White space of `str.strip`. -/
def isSpace (c : Nat) : Bool :=
  (9 ≤ c && c ≤ 13) || (0x1C ≤ c && c ≤ 0x20) || c = 0x85 || c = 0xA0 || c = 0x1680 ||
    (0x2000 ≤ c && c ≤ 0x200A) || c = 0x2028 || c = 0x2029 || c = 0x202F ||
    c = 0x205F || c = 0x3000

/-- `str.strip`. -/
def strip (t : Text) : Text := (t.dropWhile isSpace).rdropWhile isSpace

/-- Dropping white space at the end does not uncover white space at the front. -/
theorem dropWhile_strip (t : Text) : (strip t).dropWhile isSpace = strip t := by
  unfold strip
  rw [List.dropWhile_eq_self_iff]
  intro hpos
  have hprefix := List.rdropWhile_prefix isSpace (t.dropWhile isSpace)
  have hlen : 0 < (t.dropWhile isSpace).length := hpos.trans_le hprefix.length_le
  have hhead : ((t.dropWhile isSpace).rdropWhile isSpace)[0] = (t.dropWhile isSpace)[0] :=
    hprefix.getElem hpos
  rw [hhead]
  exact List.dropWhile_eq_self_iff.1 (List.dropWhile_idempotent isSpace t) hlen

@[simp] theorem strip_strip (t : Text) : strip (strip t) = strip t := by
  have hfront := dropWhile_strip t
  rw [strip, hfront, strip, List.rdropWhile_idempotent]

end Texts

section Lookups

variable {fields other : Fields} {key : String} {value : Value}
  {entries : List (String × Option Value)}

namespace Fields

theorem get_eq_some_iff (hnodup : (fields.map Prod.fst).Nodup) :
    fields.get key = some value ↔ (key, value) ∈ fields := by
  unfold get
  rw [Option.map_eq_some_iff]
  constructor
  · rintro ⟨field, hfind, rfl⟩
    have hkey := List.find?_some hfind
    rw [decide_eq_true_eq] at hkey
    rw [← hkey]
    exact List.mem_of_find?_eq_some hfind
  · intro hmem
    exact ⟨(key, value), Order.find?_key_eq hnodup hmem, rfl⟩

theorem get_perm (hperm : fields.Perm other) (hnodup : (fields.map Prod.fst).Nodup) :
    fields.get key = other.get key := by
  refine Option.ext ?_
  intro value
  rw [get_eq_some_iff hnodup, get_eq_some_iff ((hperm.map Prod.fst).nodup_iff.1 hnodup),
    hperm.mem_iff]

theorem keys_present_sublist (entries : List (String × Option Value)) :
    ((present entries).map Prod.fst).Sublist (entries.map Prod.fst) := by
  induction entries with
  | nil => exact List.Sublist.refl _
  | cons entry entries ih =>
      obtain ⟨key, _ | value⟩ := entry
      · exact ih.cons key
      · exact ih.cons_cons key

theorem nodup_present (h : (entries.map Prod.fst).Nodup) :
    ((present entries).map Prod.fst).Nodup :=
  h.sublist (keys_present_sublist entries)

/-- What a dict of present values holds under one of its keys. -/
theorem get_present (h : (entries.map Prod.fst).Nodup) {found : Option Value}
    (hmem : (key, found) ∈ entries) : (present entries).get key = found := by
  refine Option.ext ?_
  intro value
  rw [get_eq_some_iff (nodup_present h), present, List.mem_filterMap]
  constructor
  · rintro ⟨entry, hentry, hvalue⟩
    obtain ⟨v, hv, heq⟩ := Option.map_eq_some_iff.1 hvalue
    obtain ⟨hkey, rfl⟩ := Prod.mk.inj heq
    have hsame : entry = (key, found) :=
      List.inj_on_of_nodup_map h hentry hmem hkey
    rw [hsame] at hv
    exact hv
  · intro hfound
    exact ⟨(key, found), hmem, by rw [hfound]; rfl⟩

/-- Reading back what was encoded keeps what each key holds, up to its own encoding. -/
theorem get_canonicalFields (fields : Fields) (key : String) :
    get (Value.canonicalFields fields) key = (fields.get key).map Value.canonical := by
  induction fields with
  | nil => rfl
  | cons field fields ih =>
      obtain ⟨first, value⟩ := field
      unfold get at ih ⊢
      rw [Value.canonicalFields, List.find?_cons, List.find?_cons]
      by_cases hkey : first = key
      · simp [hkey]
      · simpa [hkey] using ih

theorem keys_canonicalFields (fields : Fields) :
    (Value.canonicalFields fields).map Prod.fst = fields.map Prod.fst := by
  induction fields with
  | nil => rfl
  | cons field fields ih =>
      obtain ⟨first, value⟩ := field
      rw [Value.canonicalFields, List.map_cons, List.map_cons, ih]

theorem get_sorted (hnodup : (fields.map Prod.fst).Nodup) :
    get ((Value.canonicalFields fields).mergeSort Value.keyLe) key =
      (fields.get key).map Value.canonical := by
  have hkeys : ((Value.canonicalFields fields).map Prod.fst).Nodup := by
    rwa [keys_canonicalFields]
  rw [← get_canonicalFields]
  exact (get_perm (List.mergeSort_perm _ _).symm hkeys).symm

end Fields

end Lookups

namespace Value

theorem canonicalItems_eq_map (items : List Value) :
    canonicalItems items = items.map canonical := by
  induction items with
  | nil => rfl
  | cons item items ih => rw [canonicalItems, ih, List.map_cons]

theorem canonicalFields_eq_map (fields : Fields) :
    canonicalFields fields = fields.map fun field => (field.1, field.2.canonical) := by
  induction fields with
  | nil => rfl
  | cons field fields ih =>
      obtain ⟨key, value⟩ := field
      rw [canonicalFields, ih, List.map_cons]

theorem keyLe_trans (a b c : String × Value) (hab : keyLe a b = true)
    (hbc : keyLe b c = true) : keyLe a c = true := by
  simp only [keyLe, decide_eq_true_eq] at *
  exact String.le_trans hab hbc

theorem keyLe_total (a b : String × Value) : (keyLe a b || keyLe b a) = true := by
  simp only [keyLe, Bool.or_eq_true, decide_eq_true_eq]
  exact String.le_total a.1 b.1

/-- Fields that are encoded already stay so when they are sorted. -/
theorem canonicalFields_mergeSort {fields : Fields} (h : canonicalFields fields = fields) :
    canonicalFields (fields.mergeSort keyLe) = fields.mergeSort keyLe := by
  rw [canonicalFields_eq_map] at h ⊢
  have hfixed : ∀ field ∈ fields, (field.1, field.2.canonical) = field :=
    List.map_inj_left.1 (h.trans (List.map_id fields).symm)
  refine (List.map_congr_left ?_).trans (List.map_id _)
  intro field hfield
  exact hfixed field (List.mem_mergeSort.1 hfield)

mutual

/-- Encoding what was read back changes nothing. -/
theorem canonical_canonical (value : Value) : value.canonical.canonical = value.canonical := by
  cases value with
  | null => rw [canonical, canonical]
  | bool value => rw [canonical, canonical]
  | int value => rw [canonical, canonical]
  | float value =>
      cases h : value.isFinite with
      | true => simp only [canonical, h, if_true]
      | false => simp only [canonical, h, Bool.false_eq_true, if_false]
  | str value => rw [canonical, canonical]
  | list items => rw [canonical, canonical, canonicalItems_canonicalItems items]
  | dict fields =>
      have hfields := canonicalFields_canonicalFields fields
      have hsorted := List.pairwise_mergeSort keyLe_trans keyLe_total (canonicalFields fields)
      rw [canonical, canonical, canonicalFields_mergeSort hfields,
        List.mergeSort_of_pairwise hsorted]

theorem canonicalItems_canonicalItems (items : List Value) :
    canonicalItems (canonicalItems items) = canonicalItems items := by
  cases items with
  | nil => rw [canonicalItems, canonicalItems]
  | cons item rest =>
      rw [canonicalItems, canonicalItems, canonical_canonical item,
        canonicalItems_canonicalItems rest]

theorem canonicalFields_canonicalFields (fields : Fields) :
    canonicalFields (canonicalFields fields) = canonicalFields fields := by
  cases fields with
  | nil => rw [canonicalFields, canonicalFields]
  | cons field rest =>
      obtain ⟨key, value⟩ := field
      rw [canonicalFields, canonicalFields, canonical_canonical value,
        canonicalFields_canonicalFields rest]

end

/-- A dict with its keys in the order of its encoding. -/
def canonicalDict (fields : Fields) : Fields := (canonicalFields fields).mergeSort keyLe

theorem canonical_dict (fields : Fields) : (dict fields).canonical = dict (canonicalDict fields) :=
  rfl

theorem canonicalDict_canonicalDict (fields : Fields) :
    canonicalDict (canonicalDict fields) = canonicalDict fields := by
  have h := canonical_canonical (dict fields)
  rw [canonical_dict, canonical_dict] at h
  exact dict.inj h

end Value

end SearchTrust.Market
