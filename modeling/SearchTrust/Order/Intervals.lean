/-
Half-open intervals: merging those that meet, and when two lists of separated intervals
are the same.
-/
import Mathlib.Data.List.Pairwise
import Mathlib.Data.Prod.Lex
import Mathlib.Order.MinMax
import SearchTrust.Order.Sorting

namespace SearchTrust.Order

variable {α : Type*} [LinearOrder α]

section Points

/-- A point lies in one of the intervals. -/
def Covers (items : List (α × α)) (point : α) : Prop :=
  ∃ item ∈ items, item.1 ≤ point ∧ point < item.2

/-- Each interval ends before the next one starts. -/
def Separated (items : List (α × α)) : Prop := items.Pairwise fun a b => a.2 < b.1

/-- No interval ends before it starts. -/
def Forward (items : List (α × α)) : Prop := ∀ item ∈ items, item.1 ≤ item.2

variable {items other : List (α × α)}

theorem covers_cons {first : α × α} {point : α} :
    Covers (first :: items) point ↔
      (first.1 ≤ point ∧ point < first.2) ∨ Covers items point := by
  simp only [Covers, List.mem_cons, exists_eq_or_imp]

/-- Of two intervals of a separated list, one ends before the other starts. -/
theorem Separated.apart (h : Separated items) {a b : α × α} (ha : a ∈ items) (hb : b ∈ items)
    (hne : a ≠ b) : a.2 < b.1 ∨ b.2 < a.1 := by
  have hsymm : Std.Symm fun a b : α × α => a.2 < b.1 ∨ b.2 < a.1 := ⟨fun _ _ => Or.symm⟩
  have hapart : items.Pairwise fun a b => a.2 < b.1 ∨ b.2 < a.1 := h.imp Or.inl
  exact hapart.forall ha hb hne

/-- The end of an interval is not covered: there is a gap behind it. -/
theorem Separated.not_covers_end (h : Separated items) (hforward : Forward items) {a : α × α}
    (ha : a ∈ items) : ¬ Covers items a.2 := by
  rintro ⟨b, hb, hlow, hhigh⟩
  have hne : a ≠ b := by
    rintro rfl
    exact lt_irrefl _ hhigh
  rcases h.apart ha hb hne with hbefore | hafter
  · exact not_lt_of_ge hlow hbefore
  · exact not_lt_of_ge (hforward a ha) (hhigh.trans hafter)

/-- A point between the start of an interval and one of its points is in it. -/
theorem start_le_of_covers (h : Separated items) (hforward : Forward items)
    (hsame : ∀ point, Covers items point ↔ Covers other point) {a b : α × α} (ha : a ∈ items)
    (hb : b ∈ other) (hlow : b.1 ≤ a.1) (hhigh : a.1 < b.2) : a.1 ≤ b.1 := by
  by_contra hlt
  rw [not_le] at hlt
  have hb1 : Covers other b.1 := ⟨b, hb, le_refl _, hlt.trans hhigh⟩
  obtain ⟨c, hc, hclow, hchigh⟩ := (hsame b.1).2 hb1
  have hca : c ≠ a := by
    rintro rfl
    exact not_lt_of_ge hclow hlt
  rcases h.apart hc ha hca with hbefore | hafter
  · have hcover : Covers other c.2 :=
      ⟨b, hb, hchigh.le, hbefore.trans hhigh⟩
    exact h.not_covers_end hforward hc ((hsame c.2).2 hcover)
  · exact not_lt_of_ge (hforward a ha) (hafter.trans_le (hclow.trans hlow))

/-- An interval that is not empty is in every separated list that covers the same points. -/
theorem mem_of_covers (h : Separated items) (hforward : Forward items)
    (hother : Separated other) (hotherForward : Forward other)
    (hsame : ∀ point, Covers items point ↔ Covers other point) {a : α × α} (ha : a ∈ items)
    (hne : a.1 < a.2) : a ∈ other := by
  obtain ⟨b, hb, hlow, hhigh⟩ := (hsame a.1).1 ⟨a, ha, le_refl _, hne⟩
  have hstart : a.1 = b.1 := le_antisymm
    (start_le_of_covers h hforward hsame ha hb hlow hhigh) hlow
  have hend : a.2 = b.2 := by
    rcases lt_trichotomy a.2 b.2 with hlt | heq | hgt
    · have hcover : Covers other a.2 := ⟨b, hb, hlow.trans hne.le, hlt⟩
      exact absurd ((hsame a.2).2 hcover) (h.not_covers_end hforward ha)
    · exact heq
    · have hcover : Covers items b.2 := ⟨a, ha, hhigh.le, hgt⟩
      exact absurd ((hsame b.2).1 hcover) (hother.not_covers_end hotherForward hb)
  rw [Prod.ext hstart hend]
  exact hb

/-- Separated lists are the same when they cover the same points and hold the same empty
intervals. -/
theorem eq_of_covers (h : Separated items) (hforward : Forward items)
    (hother : Separated other) (hotherForward : Forward other)
    (hsame : ∀ point, Covers items point ↔ Covers other point)
    (hempty : ∀ item, item.1 = item.2 → (item ∈ items ↔ item ∈ other)) : items = other := by
  have hmem : ∀ item, item ∈ items ↔ item ∈ other := by
    intro item
    constructor
    · intro hitem
      rcases (hforward item hitem).eq_or_lt with heq | hlt
      · exact (hempty item heq).1 hitem
      · exact mem_of_covers h hforward hother hotherForward hsame hitem hlt
    · intro hitem
      rcases (hotherForward item hitem).eq_or_lt with heq | hlt
      · exact (hempty item heq).2 hitem
      · exact mem_of_covers hother hotherForward h hforward (fun point => (hsame point).symm)
          hitem hlt
  have hstrict : ∀ {list : List (α × α)}, Separated list → Forward list →
      list.Pairwise fun a b => a.1 < b.1 := by
    intro list hlist hlistForward
    refine hlist.imp_of_mem fun {a b} ha _ hab => ?_
    exact (hlistForward a ha).trans_lt hab
  have hasymm : Std.Asymm fun a b : α × α => a.1 < b.1 := ⟨fun _ _ => lt_asymm⟩
  exact (hstrict h hforward).eq_of_mem_iff (hstrict hother hotherForward) hmem

end Points

section Merging

/-- The interval that is being extended, and those behind it in the order of their
starts. -/
def mergeFrom (current : α × α) : List (α × α) → List (α × α)
  | [] => [current]
  | item :: rest =>
      if item.1 ≤ current.2 then mergeFrom (current.1, max item.2 current.2) rest
      else current :: mergeFrom item rest

/-- Intervals that overlap or touch become one. -/
def mergeSorted : List (α × α) → List (α × α)
  | [] => []
  | first :: rest => mergeFrom first rest

/-- The merged intervals of a list in any order. -/
def mergeIntervals (items : List (α × α)) : List (α × α) := mergeSorted (sortedBy toLex items)

variable {items : List (α × α)} {current : α × α}

/-- The intervals come in the order of their starts. -/
def ByStart (items : List (α × α)) : Prop := items.Pairwise fun a b => a.1 ≤ b.1

theorem byStart_sortedBy (items : List (α × α)) : ByStart (sortedBy toLex items) := by
  refine (pairwise_sortedBy toLex items).imp fun {a b} hab => ?_
  rcases Prod.Lex.toLex_le_toLex.1 hab with hlt | ⟨heq, -⟩
  · exact hlt.le
  · exact heq.le

/-- Merging keeps the starts of the intervals that are left, and extends their ends. -/
theorem mergeFrom_spec (hcurrent : current.1 ≤ current.2)
    (hsorted : ByStart (current :: items)) (hforward : Forward items) :
    Separated (mergeFrom current items) ∧
      (∀ item ∈ mergeFrom current items, current.1 ≤ item.1 ∧ item.1 ≤ item.2) ∧
      ∀ point, Covers (mergeFrom current items) point ↔ Covers (current :: items) point := by
  induction items generalizing current with
  | nil =>
      refine ⟨List.pairwise_singleton _ _, ?_, fun point => Iff.rfl⟩
      intro item hitem
      rw [mergeFrom, List.mem_singleton] at hitem
      rw [hitem]
      exact ⟨le_refl _, hcurrent⟩
  | cons item rest ih =>
      obtain ⟨hstarts, hrest⟩ := List.pairwise_cons.1 hsorted
      obtain ⟨hitem, hforwardRest⟩ := List.forall_mem_cons.1 hforward
      unfold mergeFrom
      split
      · next hmeets =>
          have hsortedNext : ByStart ((current.1, max item.2 current.2) :: rest) := by
            refine List.pairwise_cons.2 ⟨?_, (List.pairwise_cons.1 hrest).2⟩
            intro later hlater
            exact hstarts later (List.mem_cons_of_mem _ hlater)
          have hnext : current.1 ≤ max item.2 current.2 := hcurrent.trans (le_max_right _ _)
          obtain ⟨hseparated, hbounds, hcovers⟩ := ih hnext hsortedNext hforwardRest
          refine ⟨hseparated, hbounds, fun point => ?_⟩
          rw [hcovers, covers_cons, covers_cons, covers_cons, ← or_assoc]
          refine or_congr_left ?_
          dsimp only
          rw [lt_max_iff]
          have hstart : current.1 ≤ item.1 := hstarts item List.mem_cons_self
          constructor
          · rintro ⟨hlow, hhigh | hhigh⟩
            · rcases le_total item.1 point with hitemLow | hitemHigh
              · exact Or.inr ⟨hitemLow, hhigh⟩
              · rcases hitemHigh.lt_or_eq with hlt | rfl
                · exact Or.inl ⟨hlow, hlt.trans_le hmeets⟩
                · exact Or.inr ⟨le_refl _, hhigh⟩
            · exact Or.inl ⟨hlow, hhigh⟩
          · rintro (⟨hlow, hhigh⟩ | ⟨hlow, hhigh⟩)
            · exact ⟨hlow, Or.inr hhigh⟩
            · exact ⟨hstart.trans hlow, Or.inl hhigh⟩
      · next hgap =>
          rw [not_le] at hgap
          obtain ⟨hseparated, hbounds, hcovers⟩ := ih hitem hrest hforwardRest
          refine ⟨?_, ?_, fun point => ?_⟩
          · refine List.pairwise_cons.2 ⟨fun later hlater => ?_, hseparated⟩
            exact hgap.trans_le (hbounds later hlater).1
          · intro later hlater
            rcases List.mem_cons.1 hlater with rfl | hlater
            · exact ⟨le_refl _, hcurrent⟩
            · have hbound := hbounds later hlater
              exact ⟨(hcurrent.trans hgap.le).trans hbound.1, hbound.2⟩
          · rw [covers_cons, hcovers, ← covers_cons]

/-- An interval that is left begins like one of the intervals, which it contains, and ends
like one. -/
theorem mergeFrom_source {item : α × α} (h : item ∈ mergeFrom current items) :
    (∃ source ∈ current :: items, source.1 = item.1 ∧ source.2 ≤ item.2) ∧
      ∃ source ∈ current :: items, source.2 = item.2 := by
  induction items generalizing current with
  | nil =>
      rw [mergeFrom, List.mem_singleton] at h
      subst h
      exact ⟨⟨item, List.mem_singleton_self _, rfl, le_refl _⟩, item,
        List.mem_singleton_self _, rfl⟩
  | cons next rest ih =>
      unfold mergeFrom at h
      split at h
      · obtain ⟨⟨source, hsource, hstart, hend⟩, last, hlast, hlastEnd⟩ := ih h
        constructor
        · rcases List.mem_cons.1 hsource with rfl | hsource
          · exact ⟨current, List.mem_cons_self, hstart, (le_max_right _ _).trans hend⟩
          · exact ⟨source, List.mem_cons_of_mem _ (List.mem_cons_of_mem _ hsource), hstart, hend⟩
        · rcases List.mem_cons.1 hlast with rfl | hlast
          · rcases max_choice next.2 current.2 with hmax | hmax
            · exact ⟨next, List.mem_cons_of_mem _ List.mem_cons_self, hmax.symm.trans hlastEnd⟩
            · exact ⟨current, List.mem_cons_self, hmax.symm.trans hlastEnd⟩
          · exact ⟨last, List.mem_cons_of_mem _ (List.mem_cons_of_mem _ hlast), hlastEnd⟩
      · rcases List.mem_cons.1 h with rfl | h
        · exact ⟨⟨item, List.mem_cons_self, rfl, le_refl _⟩, item, List.mem_cons_self, rfl⟩
        · obtain ⟨⟨source, hsource, hstart⟩, last, hlast, hlastEnd⟩ := ih h
          exact ⟨⟨source, List.mem_cons_of_mem _ hsource, hstart⟩, last,
            List.mem_cons_of_mem _ hlast, hlastEnd⟩

/-- Every interval lies in one that is left. -/
theorem mergeFrom_contains (hsorted : ByStart (current :: items)) {source : α × α}
    (h : source ∈ current :: items) :
    ∃ item ∈ mergeFrom current items, item.1 ≤ source.1 ∧ source.2 ≤ item.2 := by
  induction items generalizing current source with
  | nil =>
      rw [List.mem_singleton] at h
      subst h
      exact ⟨source, List.mem_singleton_self _, le_refl _, le_refl _⟩
  | cons next rest ih =>
      obtain ⟨hstarts, hrest⟩ := List.pairwise_cons.1 hsorted
      unfold mergeFrom
      split
      · have hsortedNext : ByStart ((current.1, max next.2 current.2) :: rest) := by
          refine List.pairwise_cons.2 ⟨?_, (List.pairwise_cons.1 hrest).2⟩
          intro later hlater
          exact hstarts later (List.mem_cons_of_mem _ hlater)
        obtain ⟨item, hitem, hlow, hhigh⟩ := ih hsortedNext List.mem_cons_self
        rcases List.mem_cons.1 h with rfl | h
        · exact ⟨item, hitem, hlow, (le_max_right _ _).trans hhigh⟩
        · rcases List.mem_cons.1 h with rfl | h
          · exact ⟨item, hitem, hlow.trans (hstarts source List.mem_cons_self),
              (le_max_left _ _).trans hhigh⟩
          · exact ih hsortedNext (List.mem_cons_of_mem _ h)
      · rcases List.mem_cons.1 h with rfl | h
        · exact ⟨source, List.mem_cons_self, le_refl _, le_refl _⟩
        · obtain ⟨item, hitem, hwithin⟩ := ih hrest h
          exact ⟨item, List.mem_cons_of_mem _ hitem, hwithin⟩

end Merging

section Merged

variable {items : List (α × α)}

/-- Merged intervals are separated, run forward and cover what the intervals cover. -/
theorem mergeIntervals_spec (hforward : Forward items) :
    Separated (mergeIntervals items) ∧ Forward (mergeIntervals items) ∧
      ∀ point, Covers (mergeIntervals items) point ↔ Covers items point := by
  have hsortedForward : Forward (sortedBy toLex items) :=
    fun item hitem => hforward item (mem_sortedBy.1 hitem)
  have hsorted := byStart_sortedBy items
  have hcovers : ∀ point, Covers (sortedBy toLex items) point ↔ Covers items point := by
    intro point
    simp only [Covers, mem_sortedBy]
  unfold mergeIntervals
  cases hlist : sortedBy toLex items with
  | nil =>
      rw [hlist] at hcovers
      refine ⟨List.Pairwise.nil, fun item hitem => absurd hitem List.not_mem_nil, hcovers⟩
  | cons first rest =>
      rw [hlist] at hcovers hsorted hsortedForward
      obtain ⟨hfirst, hrest⟩ := List.forall_mem_cons.1 hsortedForward
      obtain ⟨hseparated, hbounds, hsame⟩ := mergeFrom_spec hfirst hsorted hrest
      exact ⟨hseparated, fun item hitem => (hbounds item hitem).2,
        fun point => (hsame point).trans (hcovers point)⟩

theorem mergeIntervals_source {item : α × α} (h : item ∈ mergeIntervals items) :
    (∃ source ∈ items, source.1 = item.1 ∧ source.2 ≤ item.2) ∧
      ∃ source ∈ items, source.2 = item.2 := by
  unfold mergeIntervals at h
  have hmem : ∀ source, source ∈ sortedBy toLex items ↔ source ∈ items :=
    fun source => mem_sortedBy
  cases hlist : sortedBy toLex items with
  | nil =>
      rw [hlist] at h
      exact absurd h List.not_mem_nil
  | cons first rest =>
      rw [hlist] at h hmem
      obtain ⟨⟨source, hsource, hstart⟩, last, hlast, hend⟩ := mergeFrom_source h
      exact ⟨⟨source, (hmem source).1 hsource, hstart⟩, last, (hmem last).1 hlast, hend⟩

theorem mergeIntervals_contains {source : α × α} (h : source ∈ items) :
    ∃ item ∈ mergeIntervals items, item.1 ≤ source.1 ∧ source.2 ≤ item.2 := by
  have hsorted := byStart_sortedBy items
  have hsource : source ∈ sortedBy toLex items := mem_sortedBy.2 h
  unfold mergeIntervals
  cases hlist : sortedBy toLex items with
  | nil =>
      rw [hlist] at hsource
      exact absurd hsource List.not_mem_nil
  | cons first rest =>
      rw [hlist] at hsource hsorted
      exact mergeFrom_contains hsorted hsource

/-- An empty interval at the least start is left exactly where nothing covers it. -/
theorem bottom_mem_mergeIntervals {bottom : α} (hforward : Forward items)
    (hbottom : ∀ item ∈ items, bottom ≤ item.1) :
    (bottom, bottom) ∈ mergeIntervals items ↔
      (bottom, bottom) ∈ items ∧ ¬ Covers items bottom := by
  obtain ⟨hseparated, hmergedForward, hcovers⟩ := mergeIntervals_spec hforward
  constructor
  · intro h
    constructor
    · obtain ⟨⟨source, hsource, hstart, hend⟩, -⟩ := mergeIntervals_source h
      have hlow : bottom ≤ source.2 := hstart.symm.le.trans (hforward source hsource)
      have hpoint : source = (bottom, bottom) := Prod.ext hstart (le_antisymm hend hlow)
      rwa [← hpoint]
    · rw [← hcovers]
      exact hseparated.not_covers_end hmergedForward h
  · rintro ⟨hmem, hcover⟩
    obtain ⟨item, hitem, hlow, hhigh⟩ := mergeIntervals_contains hmem
    obtain ⟨⟨source, hsource, hstart, -⟩, -⟩ := mergeIntervals_source hitem
    have hfirst : item.1 = bottom :=
      le_antisymm hlow (hstart ▸ hbottom source hsource)
    have hlast : item.2 = bottom := by
      by_contra hne
      have hlt : bottom < item.2 := lt_of_le_of_ne hhigh (Ne.symm hne)
      exact hcover ((hcovers bottom).1 ⟨item, hitem, hlow, hlt⟩)
    have hpoint : item = (bottom, bottom) := Prod.ext hfirst hlast
    rwa [← hpoint]

end Merged

end SearchTrust.Order
