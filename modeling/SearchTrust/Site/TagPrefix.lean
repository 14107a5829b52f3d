/-
`complete_tag_prefix`: the part of a cut HTML text up to its last complete tag.  The tags
are those that `html.parser` reports, each with its place in the text.
-/
import Mathlib.Data.List.Basic
import Mathlib.Data.Nat.Notation

namespace SearchTrust.Site

inductive TagKind where
  | startTag
  | selfClosing
  | endTag
deriving DecidableEq

/-- A tag that the parser reports: its text is `text[start:stop]`. -/
structure ReportedTag where
  kind : TagKind
  start : ℕ
  stop : ℕ
deriving DecidableEq

/-- What the parser counts for one character: a newline starts the next line. -/
def countChar (position : ℕ × ℕ) (c : Char) : ℕ × ℕ :=
  if c = '\n' then (position.1 + 1, 0) else (position.1, position.2 + 1)

/-- `getpos()` at an index of the text. -/
def getpos (text : List Char) (index : ℕ) : ℕ × ℕ := (text.take index).foldl countChar (1, 0)

/-- The indexes after the newlines, the text beginning at `index`. -/
def lineStarts (index : ℕ) : List Char → List ℕ
  | [] => []
  | c :: rest => if c = '\n' then (index + 1) :: lineStarts (index + 1) rest
      else lineStarts (index + 1) rest

/-- `self.lines`. -/
def lineTable (text : List Char) : List ℕ := 0 :: lineStarts 0 text

/-- `source_offset()` while the construct at `index` is handled; `none` is an
`IndexError`. -/
def sourceOffset (text : List Char) (index : ℕ) : Option ℕ :=
  let (line, column) := getpos text index
  (lineTable text)[line - 1]?.map fun start => start + column

/-- `text.index(">", offset)`; `none` is a `ValueError`. -/
def indexOfBracket (text : List Char) (offset : ℕ) : Option ℕ :=
  ((text.drop offset).findIdx? fun c => c = '>').map fun found => offset + found

/-- `handle_starttag`: the offset and the length of the tag's text. -/
def startTagEnd (text : List Char) (tag : ReportedTag) : Option ℕ :=
  (sourceOffset text tag.start).map fun offset =>
    offset + ((text.drop tag.start).take (tag.stop - tag.start)).length

/-- `handle_endtag`. -/
def endTagEnd (text : List Char) (tag : ReportedTag) : Option ℕ :=
  (sourceOffset text tag.start).bind fun offset =>
    (indexOfBracket text offset).map fun bracket => bracket + 1

/-- `self.end` after a tag; a self-closing tag runs both handlers. -/
def endAfter (text : List Char) (tag : ReportedTag) : Option ℕ :=
  match tag.kind with
  | .startTag => startTagEnd text tag
  | .endTag => endTagEnd text tag
  | .selfClosing => (startTagEnd text tag).bind fun _ => endTagEnd text tag

/-- `complete_tag_prefix(text)`, the parser reporting `tags`. -/
def completeTagPrefix (text : List Char) (tags : List ReportedTag) : Option (List Char) :=
  (tags.foldlM (fun _ tag => endAfter text tag) 0).map fun stop => text.take stop

/-- What the parser reports: complete tags of the text, one after the other. -/
structure Reported (text : List Char) (tags : List ReportedTag) : Prop where
  nonempty : ∀ tag ∈ tags, tag.start < tag.stop
  inside : ∀ tag ∈ tags, tag.stop ≤ text.length
  opens : ∀ tag ∈ tags, text[tag.start]? = some '<'
  closes : ∀ tag ∈ tags, text[tag.stop - 1]? = some '>'
  ordered : tags.Pairwise fun a b => a.stop ≤ b.start

/-- A front of the text that is empty or ends with a reported tag, with no reported tag
behind it. -/
structure CutsAfterTag (text : List Char) (tags : List ReportedTag) (front : List Char) :
    Prop where
  is_front : front <+: text
  at_tag : front = [] ∨ ∃ tag ∈ tags, front.length = tag.stop
  complete : ∀ tag ∈ tags, tag.stop ≤ front.length

/-- The tag has a closing bracket before its own one, as in a quoted value. -/
def HasInnerBracket (text : List Char) (tag : ReportedTag) : Prop :=
  '>' ∈ (text.drop tag.start).take (tag.stop - tag.start - 1)

section Lines

variable {text : List Char}

theorem getpos_succ {index : ℕ} (h : index < text.length) :
    getpos text (index + 1) = countChar (getpos text index) text[index] := by
  unfold getpos
  rw [List.take_add_one, List.getElem?_eq_getElem h, List.foldl_append]
  rfl

theorem lineStarts_append (index : ℕ) (front rest : List Char) :
    lineStarts index (front ++ rest) =
      lineStarts index front ++ lineStarts (index + front.length) rest := by
  induction front generalizing index with
  | nil => rfl
  | cons c front ih =>
      have hindex : index + 1 + front.length = index + (c :: front).length := by
        rw [List.length_cons]
        omega
      rw [List.cons_append, lineStarts, lineStarts, ih, hindex]
      split <;> rfl

theorem lineStarts_take_succ {index : ℕ} (h : index < text.length) :
    lineStarts 0 (text.take (index + 1)) =
      lineStarts 0 (text.take index) ++ (if text[index] = '\n' then [index + 1] else []) := by
  have hlength : (text.take index).length = index := List.length_take_of_le (Nat.le_of_lt h)
  rw [List.take_add_one, List.getElem?_eq_getElem h, lineStarts_append, hlength, Nat.zero_add,
    Option.toList_some]
  simp only [lineStarts]

/-- The line of an index counts the newlines before it. -/
theorem getpos_line {index : ℕ} (h : index ≤ text.length) :
    (getpos text index).1 = 1 + (lineStarts 0 (text.take index)).length := by
  induction index with
  | zero => rfl
  | succ index ih =>
      have hline := ih (Nat.le_of_succ_le h)
      rw [getpos_succ h, lineStarts_take_succ h, List.length_append]
      unfold countChar
      by_cases hc : text[index] = '\n'
      · rw [if_pos hc, if_pos hc, hline, List.length_singleton]
        rfl
      · rw [if_neg hc, if_neg hc, hline, List.length_nil]
        rfl

/-- The start of the line of an index, and its distance from there. -/
theorem lineTable_line {index : ℕ} (h : index ≤ text.length) :
    ∃ start, (lineTable text)[(lineStarts 0 (text.take index)).length]? = some start ∧
      start + (getpos text index).2 = index := by
  induction index with
  | zero => exact ⟨0, rfl, rfl⟩
  | succ index ih =>
      obtain ⟨start, hstart, hcolumn⟩ := ih (Nat.le_of_succ_le h)
      rw [getpos_succ h, lineStarts_take_succ h, List.length_append]
      unfold countChar
      by_cases hc : text[index] = '\n'
      · rw [if_pos hc, if_pos hc]
        refine ⟨index + 1, ?_, rfl⟩
        have hwhole : lineStarts 0 text = lineStarts 0 (text.take (index + 1)) ++
            lineStarts (0 + (text.take (index + 1)).length) (text.drop (index + 1)) := by
          rw [← lineStarts_append, List.take_append_drop]
        rw [lineStarts_take_succ h, if_pos hc, List.append_assoc] at hwhole
        change (lineStarts 0 text)[(lineStarts 0 (text.take index)).length]? = some (index + 1)
        rw [hwhole, List.getElem?_append_right (Nat.le_refl _), Nat.sub_self]
        rfl
      · rw [if_neg hc, if_neg hc]
        refine ⟨start, hstart, ?_⟩
        change start + ((getpos text index).2 + 1) = index + 1
        omega

/-- The table leads from the line and the column back to the index. -/
theorem sourceOffset_eq {index : ℕ} (h : index ≤ text.length) :
    sourceOffset text index = some index := by
  obtain ⟨start, hstart, hcolumn⟩ := lineTable_line h
  unfold sourceOffset
  simp only
  rw [getpos_line h, Nat.add_sub_cancel_left, hstart, Option.map_some, hcolumn]

end Lines

section Ends

variable {text : List Char} {tags : List ReportedTag} {tag : ReportedTag}

theorem startTagEnd_eq (h : Reported text tags) (htag : tag ∈ tags) :
    startTagEnd text tag = some tag.stop := by
  have hlt := h.nonempty tag htag
  have hle := h.inside tag htag
  have hlength : ((text.drop tag.start).take (tag.stop - tag.start)).length =
      tag.stop - tag.start := by
    rw [List.length_take_of_le]
    rw [List.length_drop]
    omega
  unfold startTagEnd
  rw [sourceOffset_eq (Nat.le_of_lt (Nat.lt_of_lt_of_le hlt hle)), Option.map_some, hlength]
  congr 1
  omega

/-- The first bracket of a tag, from its start on. -/
theorem indexOfBracket_eq (h : Reported text tags) (htag : tag ∈ tags) :
    ∃ bracket, indexOfBracket text tag.start = some bracket ∧ bracket < tag.stop ∧
      (bracket + 1 = tag.stop ↔ ¬HasInnerBracket text tag) := by
  have hlt := h.nonempty tag htag
  have hle := h.inside tag htag
  have hcloses := h.closes tag htag
  have hat : (text.drop tag.start)[tag.stop - tag.start - 1]? = some '>' := by
    rw [List.getElem?_drop]
    have hindex : tag.start + (tag.stop - tag.start - 1) = tag.stop - 1 := by omega
    rw [hindex]
    exact hcloses
  cases hfind : (text.drop tag.start).findIdx? fun c => c = '>' with
  | none =>
      have hnone := List.findIdx?_eq_none_iff.1 hfind '>' (List.mem_of_getElem? hat)
      exact absurd rfl (of_decide_eq_false hnone)
  | some found =>
      obtain ⟨hfound, hbracket, hfirst⟩ := List.findIdx?_eq_some_iff_getElem.1 hfind
      obtain ⟨hlast, hvalue⟩ := List.getElem?_eq_some_iff.1 hat
      have hnotafter : found ≤ tag.stop - tag.start - 1 := by
        refine Nat.le_of_not_lt ?_
        intro hafter
        exact hfirst _ hafter (decide_eq_true hvalue)
      refine ⟨tag.start + found, ?_, by omega, ?_⟩
      · unfold indexOfBracket
        rw [hfind]
        rfl
      unfold HasInnerBracket
      rw [List.mem_take_iff_getElem]
      constructor
      · rintro hstop ⟨index, hindex, hinner⟩
        have hbefore : index < found := by omega
        exact hfirst index hbefore (decide_eq_true hinner)
      · intro hnone
        have hsame : found = tag.stop - tag.start - 1 := by
          refine Nat.le_antisymm hnotafter (Nat.le_of_not_lt ?_)
          intro hbefore
          refine hnone ⟨found, ?_, of_decide_eq_true hbracket⟩
          omega
        omega

/-- Every reported tag sets the end: to its own end, or for an end tag or a self-closing
one behind its first bracket. -/
theorem endAfter_eq (h : Reported text tags) (htag : tag ∈ tags) :
    ∃ stop, endAfter text tag = some stop ∧ 0 < stop ∧ stop ≤ tag.stop ∧
      (stop = tag.stop ↔ tag.kind = .startTag ∨ ¬HasInnerBracket text tag) := by
  have hlt := h.nonempty tag htag
  have hle := h.inside tag htag
  obtain ⟨bracket, hbracket, hbound, hiff⟩ := indexOfBracket_eq h htag
  have hoffset : sourceOffset text tag.start = some tag.start :=
    sourceOffset_eq (Nat.le_of_lt (Nat.lt_of_lt_of_le hlt hle))
  have hend : endTagEnd text tag = some (bracket + 1) := by
    unfold endTagEnd
    rw [hoffset, Option.bind_some, hbracket, Option.map_some]
  unfold endAfter
  cases hkind : tag.kind with
  | startTag =>
      have hpositive : 0 < tag.stop := Nat.lt_of_le_of_lt (Nat.zero_le _) hlt
      exact ⟨tag.stop, startTagEnd_eq h htag, hpositive, Nat.le_refl _, by simp⟩
  | selfClosing =>
      refine ⟨bracket + 1, ?_, Nat.succ_pos _, hbound, ?_⟩
      · simp only
        rw [startTagEnd_eq h htag, Option.bind_some, hend]
      · rw [hiff]
        simp
  | endTag =>
      refine ⟨bracket + 1, hend, Nat.succ_pos _, hbound, ?_⟩
      rw [hiff]
      simp

/-- The last tag decides the end. -/
theorem foldlM_endAfter (h : Reported text tags) (front : List ReportedTag)
    (last : ReportedTag) (hfront : front ++ [last] = tags) (begin : ℕ) :
    (front ++ [last]).foldlM (fun _ tag => endAfter text tag) begin = endAfter text last := by
  have hmem : ∀ tag ∈ front, tag ∈ tags := by
    intro tag htag
    rw [← hfront]
    exact List.mem_append_left _ htag
  clear hfront
  induction front generalizing begin with
  | nil =>
      rw [List.nil_append, List.foldlM_cons]
      cases hlast : endAfter text last with
      | none => rfl
      | some stop => rfl
  | cons tag front ih =>
      obtain ⟨stop, hstop, _⟩ := endAfter_eq h (hmem tag List.mem_cons_self)
      rw [List.cons_append, List.foldlM_cons, hstop]
      exact ih stop fun other hother => hmem other (List.mem_cons_of_mem _ hother)

/-- The prefix is always found, and it ends as it should exactly where the last reported
tag is a start tag or has no closing bracket before its own one. -/
theorem complete_tag_prefix (text : List Char) (tags : List ReportedTag)
    (h : Reported text tags) :
    ∃ front, completeTagPrefix text tags = some front ∧
      (CutsAfterTag text tags front ↔ ∀ tag, tags.getLast? = some tag →
        tag.kind = .startTag ∨ ¬HasInnerBracket text tag) := by
  rcases List.eq_nil_or_concat' tags with rfl | ⟨before, last, rfl⟩
  · refine ⟨[], rfl, ?_⟩
    constructor
    · intro _ tag htag
      cases htag
    · intro _
      exact ⟨List.nil_prefix, .inl rfl, fun tag htag => absurd htag List.not_mem_nil⟩
  have hmem : last ∈ before ++ [last] := List.mem_append_right _ List.mem_cons_self
  obtain ⟨stop, hstop, hpositive, hle, hiff⟩ := endAfter_eq h hmem
  have hinside := h.inside last hmem
  have hlength : (text.take stop).length = stop :=
    List.length_take_of_le (Nat.le_trans hle hinside)
  have hlast : (before ++ [last]).getLast? = some last := List.getLast?_concat
  refine ⟨text.take stop, ?_, ?_⟩
  · unfold completeTagPrefix
    rw [foldlM_endAfter h before last rfl, hstop, Option.map_some]
  constructor
  · intro hcut tag htag
    rw [hlast] at htag
    obtain rfl := Option.some.inj htag
    refine hiff.1 (Nat.le_antisymm hle ?_)
    have hbehind := hcut.complete last hmem
    rwa [hlength] at hbehind
  · intro hcondition
    have hsame := hiff.2 (hcondition last hlast)
    refine ⟨List.take_prefix _ _, .inr ⟨last, hmem, by rw [hlength, hsame]⟩, ?_⟩
    intro tag htag
    rw [hlength, hsame]
    rcases List.mem_append.1 htag with hbefore | hown
    · have hordered := (List.pairwise_append.1 h.ordered).2.2 tag hbefore last List.mem_cons_self
      exact Nat.le_trans hordered (Nat.le_of_lt (h.nonempty last hmem))
    · exact Nat.le_of_eq (congrArg ReportedTag.stop (List.mem_singleton.1 hown))

end Ends

section Samples

/-- An image whose description holds a bracket. -/
def sampleImage : List Char := "<img alt='a>b'/>".toList

def sampleTags : List ReportedTag := [⟨.selfClosing, 0, 16⟩]

theorem reported_sample : Reported sampleImage sampleTags := by
  refine ⟨?_, ?_, ?_, ?_, List.pairwise_singleton _ _⟩ <;> decide

theorem complete_tag_prefix_sample :
    ∃ front, completeTagPrefix sampleImage sampleTags = some front ∧
      (CutsAfterTag sampleImage sampleTags front ↔ ∀ tag, sampleTags.getLast? = some tag →
        tag.kind = .startTag ∨ ¬HasInnerBracket sampleImage tag) :=
  complete_tag_prefix sampleImage sampleTags reported_sample

/-- The cut falls into the description. -/
theorem cut_inside_value :
    Reported sampleImage sampleTags ∧
      completeTagPrefix sampleImage sampleTags = some "<img alt='a>".toList ∧
      ¬CutsAfterTag sampleImage sampleTags "<img alt='a>".toList := by
  refine ⟨reported_sample, by decide, ?_⟩
  intro hcut
  exact absurd (hcut.complete ⟨.selfClosing, 0, 16⟩ List.mem_cons_self) (by decide)

end Samples

end SearchTrust.Site
