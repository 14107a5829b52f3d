/-
The spellings of one page: paths and queries that are rewritten to the same text.
-/
import SearchTrust.CrossSource.PageText

namespace SearchTrust.CrossSource

open SearchTrust.Order
open SearchTrust.Web

variable {lib : PageLibrary} {s t : Text}

section Components

/-- What stands before the first separator, and what stands behind it, are determined. -/
theorem eq_of_append_cons_eq {α : Type} {a : α} {xs ys xs' ys' : List α} (h : a ∉ xs)
    (h' : a ∉ xs') (heq : xs ++ a :: ys = xs' ++ a :: ys') : xs = xs' ∧ ys = ys' := by
  induction xs generalizing xs' with
  | nil =>
      cases xs' with
      | nil => exact ⟨rfl, (List.cons.inj heq).2⟩
      | cons b xs' => exact absurd (List.mem_cons.2 (.inl (List.cons.inj heq).1)) h'
  | cons b xs ih =>
      cases xs' with
      | nil => exact absurd (List.mem_cons.2 (.inl (List.cons.inj heq).1.symm)) h
      | cons c xs' =>
          obtain ⟨rfl, hrest⟩ := List.cons.inj heq
          rw [List.mem_cons, not_or] at h h'
          obtain ⟨rfl, rfl⟩ := ih h.2 h'.2 hrest
          exact ⟨rfl, rfl⟩

theorem mem_of_sameEscapes (h : SameEscapes s t) : '=' ∈ s ↔ '=' ∈ t := by
  rw [← plain_mem_pieces separator_equals.hex separator_equals.percent, h.plain_mem,
    plain_mem_pieces separator_equals.hex separator_equals.percent]

/-- The parts of two components that differ in the letter case of escapes do so too. -/
theorem sameEscapes_parts (h : SameEscapes s t) :
    SameEscapes (keyOf s) (keyOf t) ∧ SameEscapes (partition '=' s).2 (partition '=' t).2 := by
  by_cases hmem : '=' ∈ s
  · obtain ⟨hs, hnotS⟩ := partition_equals hmem
    obtain ⟨ht, hnotT⟩ := partition_equals ((mem_of_sameEscapes h).1 hmem)
    have hupper : ∀ {r : Text}, '=' ∉ r → Piece.plain '=' ∉ (pieces r).map Piece.upper := by
      intro r hr hp
      obtain ⟨p, hp, heq⟩ := List.mem_map.1 hp
      cases p with
      | plain c =>
          rw [Piece.plain.inj heq] at hp
          exact hr ((plain_mem_pieces separator_equals.hex separator_equals.percent).1 hp)
      | escape a b => cases heq
    unfold SameEscapes at h
    rw [hs, ht, pieces_append separator_equals.hex separator_equals.percent,
      pieces_append separator_equals.hex separator_equals.percent, List.map_append,
      List.map_append, List.map_cons, List.map_cons] at h
    exact eq_of_append_cons_eq (hupper hnotS) (hupper hnotT) h
  · have hmemT : '=' ∉ t := fun ht => hmem ((mem_of_sameEscapes h).2 ht)
    obtain ⟨hkeyS, hvalueS⟩ := parts_of_notMem hmem
    obtain ⟨hkeyT, hvalueT⟩ := parts_of_notMem hmemT
    rw [hkeyS, hvalueS, hkeyT, hvalueT]
    exact ⟨h, rfl⟩

theorem goodItem_sameEscapes (h : SameEscapes s t) : GoodItem lib s ↔ GoodItem lib t := by
  have hone : ∀ {s t : Text}, SameEscapes s t → GoodItem lib s → GoodItem lib t := by
    intro s t h hs
    refine ⟨(fit_sameEscapes h).1 hs.fit, ?_⟩
    rw [← (sameEscapes_parts h).1.unquoteStrict lib.decode_ascii (fit_parts hs.fit).1.sound]
    exact hs.decodes
  exact ⟨hone h, hone h.symm⟩

theorem itemOf_sameEscapes (h : SameEscapes s t) (hs : Fit s) : itemOf s = itemOf t := by
  obtain ⟨hkeys, hvalues⟩ := sameEscapes_parts h
  rw [itemOf, itemOf, hkeys.normalText (fit_parts hs).1.sound,
    hvalues.normalText (fit_parts hs).2.sound, decide_eq_decide.2 (mem_of_sameEscapes h)]

end Components

section Queries

variable (lib)

/-- The components that are not tracking. -/
def untracked (items : List Text) : List Text := items.filter fun c => ! tracked lib c

/-- Two lists of components with the same components but those of tracking, in any order and
with escapes in any letter case. -/
def SameItems (items other : List Text) : Prop :=
  ∃ ordered, (untracked lib items).Perm ordered ∧
    List.Forall₂ SameEscapes ordered (untracked lib other)

variable {lib} {items other : List Text}

/-- A component of tracking is good where the guards let it pass. -/
theorem goodItem_of_tracked (h : tracked lib s = true) : GoodItem lib s ↔ Fit s := by
  refine ⟨GoodItem.fit, fun hfit => ⟨hfit, fun hnone => ?_⟩⟩
  rw [tracked, hnone] at h
  cases h

theorem goodItem_iff_untracked : (∀ c ∈ items, GoodItem lib c) ↔
    (∀ c ∈ untracked lib items, GoodItem lib c) ∧
      ∀ c ∈ items, tracked lib c = true → Fit c := by
  constructor
  · exact fun h => ⟨fun c hc => h c (List.mem_of_mem_filter hc), fun c hc _ => (h c hc).fit⟩
  · rintro ⟨huntracked, htracked⟩ c hc
    cases hcase : tracked lib c with
    | true => exact (goodItem_of_tracked hcase).2 (htracked c hc hcase)
    | false => exact huntracked c (List.mem_filter.2 ⟨hc, by simp [hcase]⟩)

theorem forall_goodItem_sameEscapes (h : List.Forall₂ SameEscapes items other) :
    (∀ c ∈ items, GoodItem lib c) ↔ ∀ c ∈ other, GoodItem lib c := by
  induction h with
  | nil => simp
  | cons hhead _ ih =>
      rw [List.forall_mem_cons, List.forall_mem_cons, ih, goodItem_sameEscapes hhead]

theorem map_itemOf_sameEscapes (h : List.Forall₂ SameEscapes items other)
    (hfit : ∀ c ∈ items, Fit c) : items.map itemOf = other.map itemOf := by
  induction h with
  | nil => rfl
  | cons hhead _ ih =>
      rw [List.forall_mem_cons] at hfit
      rw [List.map_cons, List.map_cons, itemOf_sameEscapes hhead hfit.1, ih hfit.2]

theorem SameItems.untracked_good (h : SameItems lib items other) :
    (∀ c ∈ untracked lib items, GoodItem lib c) ↔ ∀ c ∈ untracked lib other, GoodItem lib c := by
  obtain ⟨ordered, hperm, hsame⟩ := h
  rw [← forall_goodItem_sameEscapes hsame]
  exact ⟨fun h c hc => h c (hperm.mem_iff.2 hc), fun h c hc => h c (hperm.mem_iff.1 hc)⟩

/-- Queries of good components that are the same are rewritten to the same text. -/
theorem SameItems.queryOf_eq (h : SameItems lib items other) (hitems : ∀ c ∈ items, '&' ∉ c)
    (hother : ∀ c ∈ other, '&' ∉ c) (hgood : ∀ c ∈ items, GoodItem lib c)
    (hgoodOther : ∀ c ∈ other, GoodItem lib c) :
    queryOf lib (['&'].intercalate items) = queryOf lib (['&'].intercalate other) := by
  rw [queryOf_intercalate hitems hgood, queryOf_intercalate hother hgoodOther]
  obtain ⟨ordered, hperm, hsame⟩ := h
  have hfit : ∀ c ∈ ordered, Fit c := fun c hc =>
    (hgood c (List.mem_of_mem_filter (hperm.mem_iff.2 hc))).fit
  have hitemsPerm : ((untracked lib items).map itemOf).Perm
      ((untracked lib other).map itemOf) := by
    rw [← map_itemOf_sameEscapes hsame hfit]
    exact hperm.map itemOf
  have hsorted := sortedBy_itemKey_eq hitemsPerm
  unfold untracked at hsorted
  rw [hsorted]

/-- A query is accepted exactly where its components are good. -/
theorem queryOf_isSome_iff (hitems : ∀ c ∈ items, '&' ∉ c) :
    (queryOf lib (['&'].intercalate items)).isSome = true ↔ ∀ c ∈ items, GoodItem lib c := by
  constructor
  · intro h
    obtain ⟨query, hquery⟩ := Option.isSome_iff_exists.1 h
    exact goodItem_of_queryOf hitems hquery
  · intro hgood
    rw [queryOf_intercalate hitems hgood]
    rfl

end Queries

section Paths

/-- `parsed.path or "/"`. -/
def pathOrRoot (path : Text) : Text := if path = [] then ['/'] else path

/-- Two paths that differ in slashes at their end and in the letter case of escapes. -/
def SamePath (s t : Text) : Prop :=
  SameEscapes (s.rdropWhile (· = '/')) (t.rdropWhile (· = '/'))

/-- Without the slashes at its end, a path is rewritten to the same text. -/
theorem pathOf_rdropWhile (hs : s = [] ∨ s.head? = some '/') :
    pathOf (pathOrRoot s) = pathOf (pathOrRoot (s.rdropWhile (· = '/'))) := by
  induction s using List.reverseRecOn with
  | nil => rfl
  | append_singleton s c ih =>
      by_cases hc : c = '/'
      · subst hc
        rw [List.rdropWhile_concat_pos _ _ _ (by simp)]
        have hconcat : pathOrRoot (s ++ ['/']) = s ++ ['/'] := if_neg (by simp)
        by_cases hempty : s = []
        · subst hempty
          rfl
        · have hhead : s.head? = some '/' := by
            rcases hs with hs | hs
            · simp at hs
            · rwa [List.head?_append_of_ne_nil _ hempty] at hs
          rw [← ih (.inr hhead), hconcat, pathOf_append_slash hempty, pathOrRoot, if_neg hempty]
      · rw [List.rdropWhile_concat_neg _ _ _ (by simpa using hc)]

theorem head?_rdropWhile (hs : s = [] ∨ s.head? = some '/') :
    s.rdropWhile (· = '/') = [] ∨ (s.rdropWhile (· = '/')).head? = some '/' := by
  cases hdrop : s.rdropWhile (· = '/') with
  | nil => exact .inl rfl
  | cons c rest =>
      right
      have hstart : c :: rest <+: s := hdrop ▸ List.rdropWhile_prefix _ _
      rcases hs with rfl | hs
      · cases List.prefix_nil.1 hstart
      · cases s with
        | nil => cases hs
        | cons d s =>
            rw [List.cons_prefix_cons] at hstart
            rw [List.head?_cons, hstart.1]
            exact hs

theorem sameEscapes_nil (h : SameEscapes [] t) : t = [] := by
  rw [← pieces_render t]
  have hnil : (pieces t).map Piece.upper = [] := h.symm
  rw [List.map_eq_nil_iff.1 hnil]
  rfl

/-- Paths that are the same are rewritten to the same text. -/
theorem SamePath.pathOf_eq (h : SamePath s t) (hs : s = [] ∨ s.head? = some '/')
    (ht : t = [] ∨ t.head? = some '/') : pathOf (pathOrRoot s) = pathOf (pathOrRoot t) := by
  rw [pathOf_rdropWhile hs, pathOf_rdropWhile ht]
  rcases head?_rdropWhile hs with hs | hs
  · unfold SamePath at h
    rw [hs] at h
    rw [hs, sameEscapes_nil h]
  · rcases head?_rdropWhile ht with ht | ht
    · unfold SamePath at h
      rw [ht] at h
      rw [ht, sameEscapes_nil h.symm]
    · have hroot : ∀ {r : Text}, r.head? = some '/' → pathOrRoot r = r := by
        rintro r hr
        refine if_neg ?_
        rintro rfl
        cases hr
      rw [hroot hs, hroot ht]
      exact pathOf_sameEscapes h (hs.trans ht.symm)

end Paths

end SearchTrust.CrossSource
