/-
Canonical JSON texts.  Python compares encodings byte by byte; the order of UTF-8
texts is that of their characters.
-/
import Mathlib.Algebra.BigOperators.Group.List.Basic
import Mathlib.Algebra.GroupWithZero.Nat
import Mathlib.Data.List.Lex
import Mathlib.Data.String.Basic
import SearchTrust.Jobs.Digest
import SearchTrust.Order.Sorting
import SearchTrust.Report.Identifiers

namespace SearchTrust.Report

open SearchTrust.Jobs (Json)
open SearchTrust.Order

section Texts

def charText (c : Char) : List Char :=
  if c = '"' ∨ c = '\\' then ['\\', c]
  else if c.toNat = 8 then ['\\', 'b']
  else if c.toNat = 9 then ['\\', 't']
  else if c.toNat = 10 then ['\\', 'n']
  else if c.toNat = 12 then ['\\', 'f']
  else if c.toNat = 13 then ['\\', 'r']
  else if c.toNat < 32 then
    ['\\', 'u', '0', '0', hexDigit (c.toNat / 16), hexDigit (c.toNat % 16)]
  else [c]

def quoted (s : String) : List Char := '"' :: s.toList.flatMap charText ++ ['"']

def commaJoined (parts : List (List Char)) : List Char := [','].intercalate parts

mutual

/-- `canonical_json_bytes`, as the characters that are encoded. -/
def canonicalText : Json → List Char
  | .null => "null".toList
  | .bool value => if value then "true".toList else "false".toList
  | .number literal => literal.toList
  | .string value => quoted value
  | .array items => '[' :: commaJoined (itemTexts items) ++ [']']
  | .object fields =>
      let sorted := sortedBy Prod.fst (fieldTexts fields)
      '{' :: commaJoined (sorted.map fun e => quoted e.1 ++ ':' :: e.2) ++ ['}']

def itemTexts : List Json → List (List Char)
  | [] => []
  | item :: rest => canonicalText item :: itemTexts rest

def fieldTexts : List (String × Json) → List (String × List Char)
  | [] => []
  | (key, value) :: rest => (key, canonicalText value) :: fieldTexts rest

end

theorem itemTexts_eq_map (items : List Json) : itemTexts items = items.map canonicalText := by
  induction items with
  | nil => rfl
  | cons item rest ih => rw [itemTexts, ih, List.map_cons]

theorem fieldTexts_eq_map (fields : List (String × Json)) :
    fieldTexts fields = fields.map fun e => (e.1, canonicalText e.2) := by
  induction fields with
  | nil => rfl
  | cons entry rest ih =>
      obtain ⟨key, value⟩ := entry
      rw [fieldTexts, ih, List.map_cons]

end Texts

section Sizes

def utf8Length (text : List Char) : Nat := (text.map Char.utf8Size).sum

theorem utf8Length_cons (c : Char) (text : List Char) :
    utf8Length (c :: text) = c.utf8Size + utf8Length text := by
  rw [utf8Length, utf8Length, List.map_cons, List.sum_cons]

theorem utf8Length_append (a b : List Char) :
    utf8Length (a ++ b) = utf8Length a + utf8Length b := by
  rw [utf8Length, List.map_append, List.sum_append, utf8Length, utf8Length]

theorem utf8Size_of_lt {c : Char} (h : c.toNat < 128) : c.utf8Size = 1 := by
  have hle : c.val ≤ 0x7f := by
    rw [UInt32.le_iff_toNat_le]
    have hval : c.val.toNat < 128 := h
    have hbound : (0x7f : UInt32).toNat = 127 := by decide
    omega
  exact if_pos hle

theorem hexDigit_toNat_lt : ∀ n < 16, (hexDigit n).toNat < 128 := by decide

theorem utf8Length_charText (c : Char) : utf8Length (charText c) = charSize c := by
  have hdigits : c.toNat < 32 → utf8Length
      ['\\', 'u', '0', '0', hexDigit (c.toNat / 16), hexDigit (c.toNat % 16)] = 6 := by
    intro hlow
    have hhigh := utf8Size_of_lt (hexDigit_toNat_lt (c.toNat / 16) (by omega))
    have hrest := utf8Size_of_lt (hexDigit_toNat_lt (c.toNat % 16) (by omega))
    simp only [utf8Length_cons, hhigh, hrest]
    decide
  unfold charText charSize
  by_cases hquote : c = '"' ∨ c = '\\'
  · rw [if_pos hquote, if_pos hquote]
    rcases hquote with rfl | rfl <;> decide
  · rw [if_neg hquote, if_neg hquote]
    by_cases h8 : c.toNat = 8
    · simp only [h8, if_true, true_or]
      decide
    · by_cases h9 : c.toNat = 9
      · simp only [h9, if_true, true_or, or_true]
        decide
      · by_cases h10 : c.toNat = 10
        · simp only [h10, if_true, true_or, or_true]
          decide
        · by_cases h12 : c.toNat = 12
          · simp only [h12, if_true, true_or, or_true]
            decide
          · by_cases h13 : c.toNat = 13
            · simp only [h13, if_true, or_true]
              decide
            · simp only [h8, h9, h10, h12, h13, or_self, if_false]
              by_cases hlow : c.toNat < 32
              · rw [if_pos hlow, if_pos hlow, hdigits hlow]
              · rw [if_neg hlow, if_neg hlow, utf8Length_cons, utf8Length]
                rfl

theorem utf8Length_quoted (s : String) : utf8Length (quoted s) = stringSize s := by
  have hcontent : ∀ text : List Char,
      utf8Length (text.flatMap charText) = (text.map charSize).sum := by
    intro text
    induction text with
    | nil => rfl
    | cons c rest ih =>
        rw [List.flatMap_cons, utf8Length_append, ih, utf8Length_charText, List.map_cons,
          List.sum_cons]
  rw [quoted, List.cons_append, utf8Length_cons, utf8Length_append, hcontent]
  rw [stringSize, contentSize]
  have hquote : '"'.utf8Size = 1 := by decide
  have hend : utf8Length ['"'] = 1 := by decide
  omega

theorem utf8Length_commaJoined (parts : List (List Char)) :
    utf8Length (commaJoined parts) = (parts.map utf8Length).sum + (parts.length - 1) := by
  induction parts with
  | nil => rfl
  | cons part rest ih =>
      cases rest with
      | nil =>
          rw [commaJoined, List.intercalate_singleton]
          simp
      | cons next rest =>
          rw [commaJoined] at ih ⊢
          rw [List.intercalate_cons_cons, utf8Length_append, utf8Length_append, ih]
          have hcomma : utf8Length [','] = 1 := by decide
          simp only [List.map_cons, List.sum_cons, List.length_cons]
          omega

mutual

/-- The literals of numbers are ASCII texts. -/
def plainNumbers : Json → Bool
  | .number literal => literal.toList.all fun c => c.toNat < 128
  | .array items => plainItems items
  | .object fields => plainFields fields
  | _ => true

def plainItems : List Json → Bool
  | [] => true
  | item :: rest => plainNumbers item && plainItems rest

def plainFields : List (String × Json) → Bool
  | [] => true
  | (_, value) :: rest => plainNumbers value && plainFields rest

end

theorem utf8Length_of_plain {text : List Char} (h : text.all fun c => c.toNat < 128) :
    utf8Length text = text.length := by
  induction text with
  | nil => rfl
  | cons c rest ih =>
      rw [List.all_cons, Bool.and_eq_true, decide_eq_true_eq] at h
      rw [utf8Length_cons, utf8Size_of_lt h.1, ih h.2, List.length_cons, Nat.add_comm]

/-- The sizes of the fields of an object, in any order. -/
theorem utf8Length_fields (entries : List (String × List Char)) :
    ((entries.map fun e => quoted e.1 ++ ':' :: e.2).map utf8Length).sum =
      (entries.map fun e => stringSize e.1 + 1 + utf8Length e.2).sum := by
  have hcolon : ':'.utf8Size = 1 := by decide
  rw [List.map_map]
  congr 1
  refine List.map_congr_left ?_
  intro entry _
  rw [Function.comp_apply, utf8Length_append, utf8Length_quoted, utf8Length_cons, hcolon]
  omega

mutual

/-- `jsonSize` counts the bytes of the canonical text. -/
theorem utf8Length_canonicalText (value : Json) (h : plainNumbers value = true) :
    utf8Length (canonicalText value) = jsonSize value := by
  cases value with
  | null => decide
  | bool value => cases value <;> decide
  | number literal =>
      rw [plainNumbers] at h
      rw [canonicalText, utf8Length_of_plain h, jsonSize, String.length_toList]
  | string value => rw [canonicalText, utf8Length_quoted, jsonSize]
  | array items =>
      have hopen : '['.utf8Size = 1 := by decide
      have hclose : utf8Length [']'] = 1 := by decide
      rw [plainNumbers] at h
      rw [canonicalText, List.cons_append, utf8Length_cons, utf8Length_append,
        utf8Length_commaJoined, utf8Length_itemTexts items h, hopen, hclose, jsonSize,
        itemTexts_eq_map, List.length_map]
      omega
  | object fields =>
      have hopen : '\x7b'.utf8Size = 1 := by decide
      have hclose : utf8Length ['\x7d'] = 1 := by decide
      rw [plainNumbers] at h
      have hperm := (sortedBy_perm Prod.fst (fieldTexts fields)).map
        fun e => stringSize e.1 + 1 + utf8Length e.2
      have hlength := hperm.length_eq
      rw [List.length_map, List.length_map] at hlength
      rw [canonicalText, List.cons_append, utf8Length_cons, utf8Length_append, utf8Length_commaJoined,
        utf8Length_fields, hperm.sum_eq, utf8Length_fieldTexts fields h, hopen, hclose,
        jsonSize, List.length_map, hlength, fieldTexts_eq_map, List.length_map]
      omega

theorem utf8Length_itemTexts (items : List Json) (h : plainItems items = true) :
    ((itemTexts items).map utf8Length).sum = itemsSize items := by
  cases items with
  | nil => rfl
  | cons item rest =>
      rw [plainItems, Bool.and_eq_true] at h
      rw [itemTexts, List.map_cons, List.sum_cons, utf8Length_canonicalText item h.1,
        utf8Length_itemTexts rest h.2, itemsSize]

theorem utf8Length_fieldTexts (fields : List (String × Json))
    (h : plainFields fields = true) :
    ((fieldTexts fields).map fun e => stringSize e.1 + 1 + utf8Length e.2).sum =
      fieldsSize fields := by
  cases fields with
  | nil => rfl
  | cons entry rest =>
      obtain ⟨key, value⟩ := entry
      rw [plainFields, Bool.and_eq_true] at h
      rw [fieldTexts, List.map_cons, List.sum_cons, utf8Length_canonicalText value h.1,
        utf8Length_fieldTexts rest h.2, fieldsSize]

end

end Sizes

end SearchTrust.Report
