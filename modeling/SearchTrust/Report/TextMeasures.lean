/-
Sizes of texts that add up, texts that are joined, and texts that stripping leaves
alone.
-/
import Mathlib.Algebra.BigOperators.Group.List.Basic
import Mathlib.Algebra.GroupWithZero.Nat
import SearchTrust.Report.CopyContract

namespace SearchTrust.Report

open SearchTrust.Jobs (Json strip isWhitespace)

section Measures

/-- A size of texts that adds up. -/
structure AddsUp (measure : String → ℕ) : Prop where
  empty : measure "" = 0
  append : ∀ a b, measure (a ++ b) = measure a + measure b

theorem addsUp_length : AddsUp String.length := ⟨rfl, String.length_append⟩

theorem addsUp_contentSize : AddsUp contentSize := by
  constructor
  · decide
  · intro a b
    rw [contentSize, String.toList_append, List.map_append, List.sum_append, contentSize,
      contentSize]

variable {measure : String → ℕ}

theorem intercalate_cons_cons (sep first second : String) (rest : List String) :
    sep.intercalate (first :: second :: rest) =
      sep.intercalate ((first ++ sep ++ second) :: rest) := rfl

theorem measure_intercalate_cons (h : AddsUp measure) (sep first : String)
    (rest : List String) :
    measure (sep.intercalate (first :: rest)) =
      measure first + (rest.map measure).sum + rest.length * measure sep := by
  induction rest generalizing first with
  | nil =>
      rw [List.map_nil, List.sum_nil, List.length_nil, Nat.zero_mul]
      rfl
  | cons second rest ih =>
      rw [intercalate_cons_cons, ih, h.append, h.append, List.map_cons, List.sum_cons,
        List.length_cons, Nat.succ_mul]
      omega

/-- The size of joined texts. -/
theorem measure_intercalate (h : AddsUp measure) (sep : String) (values : List String) :
    measure (sep.intercalate values) =
      (values.map measure).sum + (values.length - 1) * measure sep := by
  cases values with
  | nil =>
      rw [List.map_nil, List.sum_nil, List.length_nil, Nat.zero_sub, Nat.zero_mul]
      exact h.empty
  | cons value rest =>
      rw [measure_intercalate_cons h, List.map_cons, List.sum_cons, List.length_cons,
        Nat.add_sub_cancel]

/-- The order of joined texts does not change their size. -/
theorem measure_intercalate_perm (h : AddsUp measure) (sep : String)
    {values others : List String} (hperm : values.Perm others) :
    measure (sep.intercalate values) = measure (sep.intercalate others) := by
  rw [measure_intercalate h, measure_intercalate h, (hperm.map measure).sum_eq,
    hperm.length_eq]

end Measures

section Endings

/-- Joined texts end with one of them. -/
theorem toList_intercalate_cons (sep first : String) (rest : List String) :
    ∃ front, ∃ last ∈ first :: rest,
      (sep.intercalate (first :: rest)).toList = front ++ last.toList := by
  induction rest generalizing first with
  | nil => exact ⟨[], first, List.mem_cons_self, rfl⟩
  | cons second rest ih =>
      obtain ⟨front, last, hlast, heq⟩ := ih (first ++ sep ++ second)
      rw [intercalate_cons_cons, heq]
      rcases List.mem_cons.1 hlast with rfl | hrest
      · refine ⟨front ++ (first ++ sep).toList, second, by simp, ?_⟩
        rw [String.toList_append, List.append_assoc]
      · exact ⟨front, last, by simp [hrest], rfl⟩

end Endings

section Stripping

/-- A text that neither starts nor ends with white space. -/
structure Solid (s : String) : Prop where
  first : ∀ c ∈ s.toList.head?, Web.isSpace c = false
  last : ∀ c ∈ s.toList.getLast?, Web.isSpace c = false

theorem pyStrip_eq_self {s : String} (h : Solid s) : pyStrip s = s := by
  have hfront : s.toList.dropWhile Web.isSpace = s.toList := by
    cases hchars : s.toList with
    | nil => rfl
    | cons c rest =>
        have hc := h.first c (by rw [hchars]; rfl)
        rw [List.dropWhile_cons, hc]
        rfl
  have hback : s.toList.rdropWhile Web.isSpace = s.toList := by
    rw [List.rdropWhile_eq_self_iff]
    intro hne hspace
    have hlast := h.last _ (List.getLast?_eq_some_getLast hne)
    rw [hspace] at hlast
    cases hlast
  rw [pyStrip, Web.strip, hfront, hback, String.ofList_toList]

/-- What stripping leaves is solid. -/
theorem solid_pyStrip (s : String) : Solid (pyStrip s) := by
  have hself : Web.strip s.toList =
      (Web.strip s.toList).dropWhile Web.isSpace :=
    (Jobs.dropWhile_rdropWhile_of_dropWhile _ _).symm
  constructor
  · intro c hc
    rw [pyStrip, String.toList_ofList] at hc
    rw [hself] at hc
    have hhead := List.head?_dropWhile_not Web.isSpace (Web.strip s.toList)
    rw [Option.mem_def.1 hc] at hhead
    simpa using hhead
  · intro c hc
    rw [pyStrip, String.toList_ofList] at hc
    by_contra hspace
    have hne : Web.strip s.toList ≠ [] := by
      intro hnil
      rw [hnil] at hc
      cases hc
    have hlast : (Web.strip s.toList).getLast hne = c := by
      rw [List.getLast?_eq_some_getLast hne] at hc
      exact Option.some.inj hc
    have hback : (Web.strip s.toList).rdropWhile Web.isSpace = Web.strip s.toList :=
      List.rdropWhile_idempotent _ _
    rw [List.rdropWhile_eq_self_iff] at hback
    apply hback hne
    rw [hlast]
    simpa using hspace

/-- A text with an end that is no white space. -/
structure EndsSolid (s : String) : Prop where
  ne_empty : s ≠ ""
  last : ∀ c ∈ s.toList.getLast?, Web.isSpace c = false

theorem Solid.endsSolid {s : String} (h : Solid s) (hne : s ≠ "") : EndsSolid s := ⟨hne, h.last⟩

theorem EndsSolid.append (a : String) {b : String} (h : EndsSolid b) : EndsSolid (a ++ b) := by
  have hne : b.toList ≠ [] := fun hnil => h.ne_empty (String.toList_eq_nil_iff.1 hnil)
  constructor
  · intro hempty
    have hnil := String.toList_eq_nil_iff.2 hempty
    rw [String.toList_append, List.append_eq_nil_iff] at hnil
    exact hne hnil.2
  · intro c hc
    rw [String.toList_append, List.getLast?_append_of_ne_nil _ hne] at hc
    exact h.last c hc

theorem endsSolid_intercalate (sep : String) {values : List String} (hne : values ≠ [])
    (h : ∀ value ∈ values, EndsSolid value) : EndsSolid (sep.intercalate values) := by
  obtain ⟨first, rest, rfl⟩ := List.exists_cons_of_ne_nil hne
  obtain ⟨front, last, hlast, heq⟩ := toList_intercalate_cons sep first rest
  have htext : sep.intercalate (first :: rest) = .ofList front ++ last := by
    rw [← String.toList_inj, heq, String.toList_append, String.toList_ofList]
  rw [htext]
  exact (h last hlast).append _

/-- A text that starts with one part and ends with another. -/
theorem solid_append {a b : String} (hne : a ≠ "")
    (hfirst : ∀ c ∈ a.toList.head?, Web.isSpace c = false) (hb : EndsSolid b) :
    Solid (a ++ b) := by
  have hchars : a.toList ≠ [] := fun hnil => hne (String.toList_eq_nil_iff.1 hnil)
  refine ⟨?_, (hb.append a).last⟩
  intro c hc
  rw [String.toList_append, List.head?_append_of_ne_nil _ hchars] at hc
  exact hfirst c hc

/-- A text that starts with no white space, by its first character. -/
theorem startsSolid {s : String} (h : s.toList.head?.any Web.isSpace = false) :
    ∀ c ∈ s.toList.head?, Web.isSpace c = false := by
  intro c hc
  rw [Option.mem_def.1 hc] at h
  exact h

/-- A text without white space. -/
def Plain (s : String) : Prop := ∀ c ∈ s.toList, isWhitespace c = false

instance Plain.decidable (s : String) : Decidable (Plain s) :=
  List.decidableBAll (fun c => isWhitespace c = false) s.toList

theorem Plain.strip_eq {s : String} (h : Plain s) : strip s = s := by
  have hfront : s.toList.dropWhile isWhitespace = s.toList := by
    cases hchars : s.toList with
    | nil => rfl
    | cons c rest =>
        have hc := h c (by rw [hchars]; exact List.mem_cons_self)
        rw [List.dropWhile_cons, hc]
        rfl
  have hback : s.toList.rdropWhile isWhitespace = s.toList := by
    rw [List.rdropWhile_eq_self_iff]
    intro hne hspace
    rw [h _ (List.getLast_mem hne)] at hspace
    cases hspace
  rw [strip, hfront, hback, String.ofList_toList]

theorem Plain.append {a b : String} (ha : Plain a) (hb : Plain b) : Plain (a ++ b) := by
  intro c hc
  rw [String.toList_append, List.mem_append] at hc
  rcases hc with hc | hc
  · exact ha c hc
  · exact hb c hc

theorem not_whitespace_of_isLowerOrDigit {c : Char} (h : isLowerOrDigit c = true) :
    isWhitespace c = false := by
  have hrange : (97 ≤ c.toNat ∧ c.toNat ≤ 122) ∨ (48 ≤ c.toNat ∧ c.toNat ≤ 57) := by
    rw [isLowerOrDigit, Bool.or_eq_true] at h
    rcases h with h | h
    · left
      delta Char.isLower at h
      rw [Bool.and_eq_true, decide_eq_true_eq, decide_eq_true_eq] at h
      exact ⟨UInt32.le_iff_toNat_le.1 h.1, UInt32.le_iff_toNat_le.1 h.2⟩
    · right
      rw [Char.isDigit, Bool.and_eq_true, decide_eq_true_eq, decide_eq_true_eq] at h
      exact ⟨UInt32.le_iff_toNat_le.1 h.1, UInt32.le_iff_toNat_le.1 h.2⟩
  rw [isWhitespace, Bool.eq_false_iff]
  intro hspace
  simp only [Bool.or_eq_true, Bool.and_eq_true, decide_eq_true_eq] at hspace
  omega

theorem isLowerOrDigit_of_isLowerHex {c : Char} (h : isLowerHex c = true) :
    isLowerOrDigit c = true := by
  rw [isLowerHex, Bool.or_eq_true, Bool.and_eq_true, decide_eq_true_eq,
    decide_eq_true_eq] at h
  rw [isLowerOrDigit, Bool.or_eq_true]
  rcases h with h | ⟨hlow, hhigh⟩
  · exact .inr h
  · left
    delta Char.isLower
    rw [Bool.and_eq_true, decide_eq_true_eq, decide_eq_true_eq]
    refine ⟨hlow, ?_⟩
    have hbound : c.val ≤ 'f'.val := hhigh
    exact UInt32.le_trans hbound (by decide)

theorem append_of_dropPrefix? {head rest : List Char} :
    ∀ {text : List Char}, text.dropPrefix? head = some rest → text = head ++ rest := by
  induction head with
  | nil =>
      intro text h
      cases text <;> exact Option.some.inj h
  | cons c head ih =>
      intro text h
      cases text with
      | nil => cases h
      | cons d text =>
          rw [List.dropPrefix?] at h
          split at h
          · next hsame => rw [eq_of_beq hsame, ih h, List.cons_append]
          · cases h

theorem plain_ofList {text : List Char} (h : ∀ c ∈ text, isWhitespace c = false) :
    Plain (.ofList text) := by
  intro c hc
  rw [String.toList_ofList] at hc
  exact h c hc

theorem plain_of_idForm {head s : String} (hhead : Plain head)
    (h : idForm head s = true) : Plain s := by
  unfold idForm at h
  split at h
  · next first rest hdrop =>
      rw [Bool.and_eq_true, Bool.and_eq_true, Bool.and_eq_true] at h
      intro c hc
      rw [append_of_dropPrefix? hdrop, List.mem_append, List.mem_cons] at hc
      rcases hc with hc | rfl | hc
      · exact hhead c hc
      · exact not_whitespace_of_isLowerOrDigit h.1.1.1
      · have hchar := List.all_eq_true.1 h.1.1.2 c hc
        rw [Bool.or_eq_true, Bool.or_eq_true, decide_eq_true_eq, decide_eq_true_eq] at hchar
        rcases hchar with (hchar | rfl) | rfl
        · exact not_whitespace_of_isLowerOrDigit hchar
        · decide
        · decide
  · cases h

theorem plain_of_isFindingId {s : String} (h : isFindingId s = true) : Plain s :=
  plain_of_idForm (by decide) h

theorem plain_of_isActionId {s : String} (h : isActionId s = true) : Plain s :=
  plain_of_idForm (by decide) h

theorem plain_of_isDigest {s : String} (h : isDigest s = true) : Plain s := by
  unfold isDigest at h
  split at h
  · next rest hdrop =>
      rw [Bool.and_eq_true] at h
      intro c hc
      rw [append_of_dropPrefix? hdrop, List.mem_append] at hc
      rcases hc with hc | hc
      · have hhead : Plain "sha256:" := by decide
        exact hhead c hc
      · exact not_whitespace_of_isLowerOrDigit
          (isLowerOrDigit_of_isLowerHex (List.all_eq_true.1 h.1 c hc))
  · cases h

theorem plain_of_isSnakeName {longest : ℕ} {s : String} (h : isSnakeName longest s = true) :
    Plain s := by
  unfold isSnakeName at h
  split at h
  · next first rest hchars =>
      rw [Bool.and_eq_true, Bool.and_eq_true, Bool.and_eq_true] at h
      intro c hc
      rw [hchars, List.mem_cons] at hc
      rcases hc with rfl | hc
      · refine not_whitespace_of_isLowerOrDigit ?_
        rw [isLowerOrDigit, h.1.1.1, Bool.true_or]
      · have hchar := List.all_eq_true.1 h.1.1.2 c hc
        rw [Bool.or_eq_true, decide_eq_true_eq] at hchar
        rcases hchar with hchar | rfl
        · exact not_whitespace_of_isLowerOrDigit hchar
        · decide
  · cases h

theorem plain_toString (n : ℕ) : Plain (toString n) := by
  intro c hc
  rw [Nat.toString_eq_repr, Nat.toList_repr] at hc
  refine not_whitespace_of_isLowerOrDigit ?_
  rw [isLowerOrDigit, Nat.isDigit_of_mem_toDigits (by decide) (by decide) hc, Bool.or_true]

/-- Digits of a hash behind some head. -/
theorem plain_hexDigits {head : List Char} (hhead : ∀ c ∈ head, isWhitespace c = false)
    (hash : BitVec 256) (n : ℕ) : Plain (.ofList (head ++ (hexdigest hash).take n)) := by
  refine plain_ofList ?_
  intro c hc
  rcases List.mem_append.1 hc with hc | hc
  · exact hhead c hc
  · exact not_whitespace_of_isLowerOrDigit (isLowerOrDigit_of_isLowerHex
      (isLowerHex_of_mem_hexdigest (List.mem_of_mem_take hc)))

end Stripping

section Sizes

theorem contentSize_le_utf8ByteSize (s : String) : contentSize s ≤ 6 * s.utf8ByteSize := by
  obtain ⟨chars, rfl⟩ : ∃ chars, s = String.ofList chars :=
    ⟨s.toList, String.ofList_toList.symm⟩
  induction chars with
  | nil => simp [contentSize]
  | cons c chars ih =>
      have hpos : 1 ≤ c.utf8Size := c.utf8Size_pos
      have hone : charSize c ≤ 6 * c.utf8Size := by
        unfold charSize
        split_ifs <;> omega
      have hcons : contentSize (.ofList (c :: chars)) =
          charSize c + contentSize (.ofList chars) := by
        simp [contentSize]
      rw [hcons, String.ofList_cons, String.utf8ByteSize_append, String.utf8ByteSize_singleton]
      omega

mutual

/-- A bound of the size that reads no text by its characters. -/
def roughSize : Json → ℕ
  | .null => 4
  | .bool value => if value then 4 else 5
  | .number literal => literal.length
  | .string value => 6 * value.utf8ByteSize + 2
  | .array items => roughItems items + 2 + (items.length - 1)
  | .object fields => roughFields fields + 2 + (fields.length - 1)

def roughItems : List Json → ℕ
  | [] => 0
  | item :: rest => roughSize item + roughItems rest

def roughFields : List (String × Json) → ℕ
  | [] => 0
  | (key, value) :: rest => 6 * key.utf8ByteSize + 2 + 1 + roughSize value + roughFields rest

end

mutual

theorem jsonSize_le_roughSize : ∀ value, jsonSize value ≤ roughSize value
  | .null => by simp [jsonSize, roughSize]
  | .bool value => by simp [jsonSize, roughSize]
  | .number literal => by simp [jsonSize, roughSize]
  | .string value => by
      have h := contentSize_le_utf8ByteSize value
      simp only [jsonSize, roughSize, stringSize]
      omega
  | .array items => by
      have h := itemsSize_le_roughItems items
      simp only [jsonSize, roughSize]
      omega
  | .object fields => by
      have h := fieldsSize_le_roughFields fields
      simp only [jsonSize, roughSize]
      omega

theorem itemsSize_le_roughItems : ∀ items, itemsSize items ≤ roughItems items
  | [] => by simp [itemsSize, roughItems]
  | item :: rest => by
      have hitem := jsonSize_le_roughSize item
      have hrest := itemsSize_le_roughItems rest
      simp only [itemsSize, roughItems]
      omega

theorem fieldsSize_le_roughFields : ∀ fields, fieldsSize fields ≤ roughFields fields
  | [] => by simp [fieldsSize, roughFields]
  | (key, value) :: rest => by
      have hkey := contentSize_le_utf8ByteSize key
      have hvalue := jsonSize_le_roughSize value
      have hrest := fieldsSize_le_roughFields rest
      simp only [fieldsSize, roughFields, stringSize]
      omega

end

end Sizes

end SearchTrust.Report
