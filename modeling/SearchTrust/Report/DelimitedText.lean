/-
Where the canonical text of an object ends: a reader that counts brackets outside of
strings comes back to where it started at the closing bracket and not before.
-/
import SearchTrust.Report.CanonicalText

namespace SearchTrust.Report

open SearchTrust.Jobs (Json)
open SearchTrust.Order

section Reading

inductive ReadMode where
  | plain
  | quoted
  | escaped
deriving DecidableEq

/-- How a reader stands, and in how many brackets. -/
abbrev ReadState := ReadMode × ℕ

def isOpening (c : Char) : Bool := c = '\x7b' || c = '['

def isClosing (c : Char) : Bool := c = '\x7d' || c = ']'

def readChar : ReadState → Char → ReadState
  | (.plain, depth), c =>
      if c = '"' then (.quoted, depth)
      else if isOpening c then (.plain, depth + 1)
      else if isClosing c then (.plain, depth - 1)
      else (.plain, depth)
  | (.quoted, depth), c =>
      if c = '\\' then (.escaped, depth)
      else if c = '"' then (.plain, depth)
      else (.quoted, depth)
  | (.escaped, depth), _ => (.quoted, depth)

def readChars (state : ReadState) (text : List Char) : ReadState := text.foldl readChar state

/-- A text that is read without leaving the brackets around it. -/
def StaysWithin (depth : ℕ) (state : ReadState) (text : List Char) : Prop :=
  ∀ front, front <+: text → depth ≤ (readChars state front).2

/-- A text that a reader leaves as it came to it. -/
structure Balanced (state : ReadState) (text : List Char) : Prop where
  ends : readChars state text = state
  within : StaysWithin state.2 state text

theorem readChars_append (state : ReadState) (a b : List Char) :
    readChars state (a ++ b) = readChars (readChars state a) b := List.foldl_append

theorem Balanced.nil (state : ReadState) : Balanced state [] := by
  refine ⟨rfl, fun front hfront => ?_⟩
  rw [List.prefix_nil.1 hfront]
  exact le_refl _

theorem Balanced.append {state : ReadState} {a b : List Char} (ha : Balanced state a)
    (hb : Balanced state b) : Balanced state (a ++ b) := by
  constructor
  · rw [readChars_append, ha.ends, hb.ends]
  · intro front hfront
    rcases List.prefix_or_prefix_of_prefix hfront (List.prefix_append a b) with hshort | hlong
    · exact ha.within front hshort
    · obtain ⟨more, rfl⟩ := hlong
      rw [readChars_append, ha.ends]
      exact hb.within more ((List.prefix_append_right_inj a).1 hfront)

/-- A text between a mark that opens it and one that closes it. -/
theorem Balanced.enclosed {state inner : ReadState} {first last : Char} {body : List Char}
    (hopen : readChar state first = inner) (hdepth : state.2 ≤ inner.2)
    (hbody : Balanced inner body) (hclose : readChar inner last = state) :
    Balanced state (first :: body ++ [last]) := by
  have hread : ∀ text, readChars state (first :: text) = readChars inner text := by
    intro text
    rw [readChars, List.foldl_cons, hopen, readChars]
  constructor
  · rw [List.cons_append, hread, readChars_append, hbody.ends]
    exact hclose
  · intro front hfront
    rw [List.cons_append, List.prefix_cons_iff] at hfront
    rcases hfront with rfl | ⟨rest, rfl, hrest⟩
    · exact le_refl _
    · rw [hread]
      rcases List.prefix_concat_iff.1 hrest with rfl | hshort
      · rw [readChars_append, hbody.ends]
        exact le_of_eq (congrArg Prod.snd hclose).symm
      · exact hdepth.trans (hbody.within rest hshort)

theorem Balanced.char {state : ReadState} {c : Char} (h : readChar state c = state) :
    Balanced state [c] := by
  refine ⟨h, fun front hfront => ?_⟩
  rcases List.prefix_cons_iff.1 hfront with rfl | ⟨rest, rfl, hrest⟩
  · exact le_refl _
  · rw [List.prefix_nil.1 hrest]
    exact le_of_eq (congrArg Prod.snd h).symm

/-- A text none of whose characters changes how the reader stands. -/
theorem Balanced.chars {state : ReadState} {text : List Char}
    (h : ∀ c ∈ text, readChar state c = state) : Balanced state text := by
  induction text with
  | nil => exact Balanced.nil state
  | cons c rest ih =>
      rw [List.forall_mem_cons] at h
      exact (Balanced.char h.1).append (ih h.2)

theorem Balanced.flatten {state : ReadState} {parts : List (List Char)}
    (h : ∀ part ∈ parts, Balanced state part) : Balanced state parts.flatten := by
  induction parts with
  | nil => exact Balanced.nil state
  | cons part rest ih =>
      rw [List.forall_mem_cons] at h
      exact h.1.append (ih h.2)

end Reading

section Texts

theorem readChar_quoted {depth : ℕ} {c : Char} (hescape : c ≠ '\\') (hquote : c ≠ '"') :
    readChar (.quoted, depth) c = (.quoted, depth) := by
  rw [readChar, if_neg hescape, if_neg hquote]

theorem hexDigit_quoted {depth : ℕ} : ∀ n < 16,
    readChar (.quoted, depth) (hexDigit n) = (.quoted, depth) := by
  intro n hn
  have hplain : ∀ n < 16, hexDigit n ≠ '\\' ∧ hexDigit n ≠ '"' := by decide
  exact readChar_quoted (hplain n hn).1 (hplain n hn).2

/-- An escape leaves the reader in its string. -/
theorem balanced_escape {depth : ℕ} (c : Char) : Balanced (.quoted, depth) ['\\', c] := by
  have hescape : readChar (.quoted, depth) '\\' = (.escaped, depth) := rfl
  exact Balanced.enclosed hescape (le_refl _) (Balanced.nil _) rfl

theorem balanced_charText (depth : ℕ) (c : Char) : Balanced (.quoted, depth) (charText c) := by
  unfold charText
  split
  · exact balanced_escape c
  · next hmark =>
      rw [not_or] at hmark
      split
      · exact balanced_escape 'b'
      · split
        · exact balanced_escape 't'
        · split
          · exact balanced_escape 'n'
          · split
            · exact balanced_escape 'f'
            · split
              · exact balanced_escape 'r'
              · split
                · next hlow =>
                    refine (balanced_escape 'u').append (Balanced.chars ?_)
                    intro d hd
                    simp only [List.mem_cons, List.not_mem_nil, or_false] at hd
                    rcases hd with rfl | rfl | rfl | rfl
                    · rfl
                    · rfl
                    · exact hexDigit_quoted _ (by omega)
                    · exact hexDigit_quoted _ (by omega)
                · exact Balanced.char (readChar_quoted hmark.2 hmark.1)

theorem balanced_quoted (depth : ℕ) (s : String) : Balanced (.plain, depth) (quoted s) := by
  have hbody : Balanced (.quoted, depth) (s.toList.flatMap charText) := by
    rw [List.flatMap_def]
    refine Balanced.flatten fun part hpart => ?_
    obtain ⟨c, -, rfl⟩ := List.mem_map.1 hpart
    exact balanced_charText depth c
  have hopen : readChar (.plain, depth) '"' = (.quoted, depth) := rfl
  exact Balanced.enclosed hopen (le_refl _) hbody rfl

theorem commaJoined_cons_cons (part next : List Char) (rest : List (List Char)) :
    commaJoined (part :: next :: rest) = part ++ ',' :: commaJoined (next :: rest) := by
  rw [commaJoined, List.intercalate_cons_cons, commaJoined, List.append_assoc,
    List.singleton_append]

theorem balanced_commaJoined {depth : ℕ} {parts : List (List Char)}
    (h : ∀ part ∈ parts, Balanced (.plain, depth) part) :
    Balanced (.plain, depth) (commaJoined parts) := by
  induction parts with
  | nil => exact Balanced.nil _
  | cons part rest ih =>
      rw [List.forall_mem_cons] at h
      cases rest with
      | nil =>
          rw [commaJoined, List.intercalate_singleton]
          exact h.1
      | cons next rest =>
          have hcomma : Balanced (.plain, depth) [','] := Balanced.char rfl
          rw [commaJoined_cons_cons]
          exact h.1.append (hcomma.append (ih h.2))

end Texts

section Values

/-- The characters of the literal of a number. -/
def isNumberChar (c : Char) : Bool :=
  c.isDigit || c = '+' || c = '-' || c = '.' || c = 'e' || c = 'E'

mutual

/-- The literals of numbers are made of the characters of numbers. -/
def literalNumbers : Json → Bool
  | .number literal => literal.toList.all isNumberChar
  | .array items => literalItems items
  | .object fields => literalFields fields
  | _ => true

def literalItems : List Json → Bool
  | [] => true
  | item :: rest => literalNumbers item && literalItems rest

def literalFields : List (String × Json) → Bool
  | [] => true
  | (_, value) :: rest => literalNumbers value && literalFields rest

end

/-- A character that means nothing to the reader outside of strings. -/
def isPlainChar (c : Char) : Bool := c ≠ '"' && !isOpening c && !isClosing c

theorem readChar_plain {depth : ℕ} {c : Char} (h : isPlainChar c = true) :
    readChar (.plain, depth) c = (.plain, depth) := by
  simp only [isPlainChar, Bool.and_eq_true, decide_eq_true_eq, Bool.not_eq_true'] at h
  obtain ⟨⟨hquote, hopen⟩, hclose⟩ := h
  rw [readChar, if_neg hquote, hopen, hclose, if_neg Bool.false_ne_true,
    if_neg Bool.false_ne_true]

theorem balanced_plain {depth : ℕ} {text : List Char} (h : text.all isPlainChar = true) :
    Balanced (.plain, depth) text := by
  rw [List.all_eq_true] at h
  exact Balanced.chars fun c hc => readChar_plain (h c hc)

theorem isPlainChar_of_isNumberChar {c : Char} (h : isNumberChar c = true) :
    isPlainChar c = true := by
  by_contra hplain
  have hmark : c = '"' ∨ c = '\x7b' ∨ c = '[' ∨ c = '\x7d' ∨ c = ']' := by
    simpa [isPlainChar, isOpening, isClosing, or_assoc, imp_iff_not_or] using hplain
  rcases hmark with rfl | rfl | rfl | rfl | rfl <;> revert h <;> decide

/-- Brackets around a text that is read within them. -/
theorem Balanced.bracketed {depth : ℕ} {first last : Char} {body : List Char}
    (hopen : readChar (.plain, depth) first = (.plain, depth + 1))
    (hbody : Balanced (.plain, depth + 1) body)
    (hclose : readChar (.plain, depth + 1) last = (.plain, depth)) :
    Balanced (.plain, depth) (first :: body ++ [last]) :=
  Balanced.enclosed hopen (Nat.le_succ depth) hbody hclose

mutual

/-- A reader leaves the canonical text of a value as it came to it. -/
theorem balanced_canonicalText (depth : ℕ) (value : Json) (h : literalNumbers value = true) :
    Balanced (.plain, depth) (canonicalText value) := by
  cases value with
  | null => exact balanced_plain (by decide)
  | bool value => cases value <;> exact balanced_plain (by decide)
  | number literal =>
      rw [literalNumbers, List.all_eq_true] at h
      rw [canonicalText]
      exact balanced_plain (List.all_eq_true.2 fun c hc => isPlainChar_of_isNumberChar (h c hc))
  | string value =>
      rw [canonicalText]
      exact balanced_quoted depth value
  | array items =>
      rw [literalNumbers] at h
      rw [canonicalText]
      exact Balanced.bracketed rfl (balanced_commaJoined (balanced_itemTexts (depth + 1) items h))
        rfl
  | object fields =>
      rw [literalNumbers] at h
      rw [canonicalText]
      refine Balanced.bracketed rfl (balanced_commaJoined fun part hpart => ?_) rfl
      obtain ⟨entry, hentry, rfl⟩ := List.mem_map.1 hpart
      have hvalue := balanced_fieldTexts (depth + 1) fields h entry (mem_sortedBy.1 hentry)
      have hcolon : Balanced (.plain, depth + 1) [':'] := Balanced.char rfl
      exact (balanced_quoted _ entry.1).append (hcolon.append hvalue)

theorem balanced_itemTexts (depth : ℕ) (items : List Json) (h : literalItems items = true) :
    ∀ text ∈ itemTexts items, Balanced (.plain, depth) text := by
  cases items with
  | nil => exact fun text htext => absurd htext List.not_mem_nil
  | cons item rest =>
      rw [literalItems, Bool.and_eq_true] at h
      rw [itemTexts, List.forall_mem_cons]
      exact ⟨balanced_canonicalText depth item h.1, balanced_itemTexts depth rest h.2⟩

theorem balanced_fieldTexts (depth : ℕ) (fields : List (String × Json))
    (h : literalFields fields = true) :
    ∀ entry ∈ fieldTexts fields, Balanced (.plain, depth) entry.2 := by
  cases fields with
  | nil => exact fun entry hentry => absurd hentry List.not_mem_nil
  | cons field rest =>
      obtain ⟨key, value⟩ := field
      rw [literalFields, Bool.and_eq_true] at h
      rw [fieldTexts, List.forall_mem_cons]
      exact ⟨balanced_canonicalText depth value h.1, balanced_fieldTexts depth rest h.2⟩

end

end Values

section Ends

/-- A text in braces, balanced between them. -/
def Braced (text : List Char) : Prop :=
  ∃ body, text = '\x7b' :: body ++ ['\x7d'] ∧ Balanced (.plain, 1) body

theorem braced_canonicalText {fields : List (String × Json)}
    (h : literalNumbers (.object fields) = true) : Braced (canonicalText (.object fields)) := by
  rw [literalNumbers] at h
  rw [canonicalText]
  refine ⟨_, rfl, balanced_commaJoined fun part hpart => ?_⟩
  obtain ⟨entry, hentry, rfl⟩ := List.mem_map.1 hpart
  have hvalue := balanced_fieldTexts 1 fields h entry (mem_sortedBy.1 hentry)
  have hcolon : Balanced (.plain, 1) [':'] := Balanced.char rfl
  exact (balanced_quoted _ entry.1).append (hcolon.append hvalue)

/-- The reader is out of the braces at their end only. -/
theorem Braced.eq_of_prefix {a b : List Char} (ha : Braced a) (hb : Braced b) (h : a <+: b) :
    a = b := by
  obtain ⟨body, rfl, hbody⟩ := ha
  obtain ⟨other, rfl, hother⟩ := hb
  have hread : ∀ text, readChars (.plain, 0) ('\x7b' :: text) = readChars (.plain, 1) text :=
    fun text => rfl
  rw [List.cons_append, List.cons_append, List.prefix_cons_inj, List.prefix_concat_iff] at h
  rcases h with heq | hshort
  · rw [List.cons_append, List.cons_append, heq]
  · have hdepth := hother.within _ hshort
    rw [readChars_append, hbody.ends] at hdepth
    exact absurd hdepth (by decide)

/-- A text in braces ends where another that the same characters begin with ends. -/
theorem Braced.append_inj {a b s t : List Char} (ha : Braced a) (hb : Braced b)
    (h : a ++ s = b ++ t) : a = b ∧ s = t := by
  have hsame : a = b := by
    have hprefixed : a <+: b ++ t := h ▸ List.prefix_append a s
    rcases List.prefix_or_prefix_of_prefix hprefixed (List.prefix_append b t) with hab | hba
    · exact ha.eq_of_prefix hb hab
    · exact (hb.eq_of_prefix ha hba).symm
  subst hsame
  exact ⟨rfl, List.append_cancel_left h⟩

/-- Texts in braces can be told apart when they are joined. -/
theorem commaJoined_inj {as bs : List (List Char)} (ha : ∀ part ∈ as, Braced part)
    (hb : ∀ part ∈ bs, Braced part) (hlength : as.length = bs.length)
    (h : commaJoined as = commaJoined bs) : as = bs := by
  induction as generalizing bs with
  | nil => exact (List.length_eq_zero_iff.1 hlength.symm).symm
  | cons a as ih =>
      cases bs with
      | nil => cases hlength
      | cons b bs =>
          rw [List.forall_mem_cons] at ha hb
          rw [List.length_cons, List.length_cons, Nat.add_right_cancel_iff] at hlength
          cases as with
          | nil =>
              rw [List.length_eq_zero_iff.1 hlength.symm] at h ⊢
              rw [commaJoined, List.intercalate_singleton, commaJoined,
                List.intercalate_singleton] at h
              rw [h]
          | cons a' as =>
              cases bs with
              | nil => cases hlength
              | cons b' bs =>
                  rw [commaJoined_cons_cons, commaJoined_cons_cons] at h
                  obtain ⟨rfl, hrest⟩ := ha.1.append_inj hb.1 h
                  rw [ih ha.2 hb.2 hlength (List.cons.inj hrest).2]

/-- Objects written one after another in canonical text can be cut apart in one way only. -/
theorem canonical_objects_cut_one_way {fields others : List (String × Json)} {s t : List Char}
    (hfields : literalNumbers (.object fields) = true)
    (hothers : literalNumbers (.object others) = true)
    (h : canonicalText (.object fields) ++ s = canonicalText (.object others) ++ t) :
    canonicalText (.object fields) = canonicalText (.object others) ∧ s = t :=
  (braced_canonicalText hfields).append_inj (braced_canonicalText hothers) h

theorem canonical_objects_cut_one_way_reordered :
    canonicalText (.object [("b", .number "1"), ("a", .null)]) =
      canonicalText (.object [("a", .null), ("b", .number "1")]) ∧ [','] = [','] :=
  canonical_objects_cut_one_way (by decide) (by decide) (by decide)

end Ends

end SearchTrust.Report
