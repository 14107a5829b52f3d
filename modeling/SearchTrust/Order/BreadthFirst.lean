/-
A breadth-first search with a depth stored with each entry of its queue: what is found first
is found at its least depth, so that a search that empties its queue has found all that is
within reach.
-/
import Mathlib.Data.List.Nodup
import Mathlib.Data.List.Pairwise
import Mathlib.Order.Nat

namespace SearchTrust.Order

variable {α : Type*}

/-- What is reached from the roots through a number of edges. -/
inductive ReachedIn (roots : List α) (next : α → List α) : ℕ → α → Prop where
  | root {a : α} (h : a ∈ roots) : ReachedIn roots next 0 a
  | step {n : ℕ} {a b : α} (h : ReachedIn roots next n a) (hb : b ∈ next a) :
      ReachedIn roots next (n + 1) b

section Enqueue

variable [DecidableEq α]

/-- The queue with the items at its end that are neither visited nor queued. -/
def enqueue (visited : List α) (depth : ℕ) : List (α × ℕ) → List α → List (α × ℕ)
  | queue, [] => queue
  | queue, item :: items =>
      if item ∉ visited ∧ item ∉ queue.map Prod.fst then
        enqueue visited depth (queue ++ [(item, depth)]) items
      else enqueue visited depth queue items

variable {visited : List α} {depth : ℕ} {queue : List (α × ℕ)} {items : List α}

/-- New entries are items that were not known, at the depth of the step. -/
theorem enqueue_eq (visited : List α) (depth : ℕ) (queue : List (α × ℕ)) (items : List α) :
    ∃ fresh : List α, enqueue visited depth queue items = queue ++ fresh.map (·, depth) ∧
      fresh.Nodup ∧ (∀ item ∈ fresh, item ∈ items ∧ item ∉ visited ∧ item ∉ queue.map Prod.fst) ∧
      ∀ item ∈ items, item ∈ visited ∨ item ∈ queue.map Prod.fst ∨ item ∈ fresh := by
  induction items generalizing queue with
  | nil => exact ⟨[], (List.append_nil _).symm, List.nodup_nil, by simp, by simp⟩
  | cons item items ih =>
      rw [enqueue]
      split
      next hnew =>
        obtain ⟨fresh, hqueue, hnodup, hfresh, hall⟩ := ih (queue ++ [(item, depth)])
        have hfirst : ∀ other ∈ fresh, other ∉ queue.map Prod.fst ∧ other ≠ item := by
          intro other hother
          have hknown := (hfresh other hother).2.2
          rw [List.map_append, List.mem_append, not_or, List.map_singleton,
            List.mem_singleton] at hknown
          exact hknown
        refine ⟨item :: fresh, ?_, ?_, ?_, ?_⟩
        · rw [hqueue, List.append_assoc]
          rfl
        · exact List.nodup_cons.2 ⟨fun h => (hfirst item h).2 rfl, hnodup⟩
        · intro other hother
          rcases List.mem_cons.1 hother with rfl | hother
          · exact ⟨List.mem_cons_self, hnew⟩
          · exact ⟨List.mem_cons_of_mem _ (hfresh other hother).1, (hfresh other hother).2.1,
              (hfirst other hother).1⟩
        · intro other hother
          rcases List.mem_cons.1 hother with rfl | hother
          · exact .inr (.inr List.mem_cons_self)
          · rcases hall other hother with h | h | h
            · exact .inl h
            · rw [List.map_append, List.mem_append, List.map_singleton, List.mem_singleton] at h
              rcases h with h | rfl
              · exact .inr (.inl h)
              · exact .inr (.inr List.mem_cons_self)
            · exact .inr (.inr (List.mem_cons_of_mem _ h))
      next hknown =>
        obtain ⟨fresh, hqueue, hnodup, hfresh, hall⟩ := ih queue
        refine ⟨fresh, hqueue, hnodup, ?_, ?_⟩
        · intro other hother
          exact ⟨List.mem_cons_of_mem _ (hfresh other hother).1, (hfresh other hother).2⟩
        · intro other hother
          rcases List.mem_cons.1 hother with rfl | hother
          · rw [not_and_or, not_not, not_not] at hknown
            rcases hknown with h | h
            · exact .inl h
            · exact .inr (.inl h)
          · exact hall other hother

end Enqueue

section Search

/-- The state of a search: what is done and what is queued, each with the depth at which it
was found. -/
structure SearchValid (roots : List α) (next : α → List α) (maxDepth : ℕ)
    (done queue : List (α × ℕ)) : Prop where
  distinct : ((done ++ queue).map Prod.fst).Nodup
  rising : (done ++ queue).Pairwise fun a b => a.2 ≤ b.2
  /-- The depths of the queue differ by one at most. -/
  window : ∀ a ∈ queue, ∀ b ∈ queue, b.2 ≤ a.2 + 1
  reached : ∀ entry ∈ done ++ queue, entry.2 ≤ maxDepth ∧ ReachedIn roots next entry.2 entry.1
  rooted : ∀ root ∈ roots, (root, 0) ∈ done ++ queue
  closed : ∀ entry ∈ done, entry.2 < maxDepth → ∀ b ∈ next entry.1,
    ∃ depth ≤ entry.2 + 1, (b, depth) ∈ done ++ queue

variable {roots : List α} {next : α → List α} {maxDepth : ℕ} {done queue rest : List (α × ℕ)}
  {entry : α × ℕ}

/-- The search starts with the roots. -/
theorem searchValid_start [DecidableEq α] (roots : List α) (next : α → List α) (maxDepth : ℕ) :
    SearchValid roots next maxDepth [] (enqueue [] 0 [] roots) := by
  obtain ⟨fresh, hqueue, hnodup, hfresh, hall⟩ := enqueue_eq [] 0 [] roots
  rw [List.nil_append] at hqueue
  have hmap : (fresh.map (·, 0)).map Prod.fst = fresh := by
    rw [List.map_map]
    exact List.map_id _
  have hzero : ∀ entry ∈ fresh.map (·, 0), entry.2 = 0 := by
    intro entry hentry
    obtain ⟨item, _, rfl⟩ := List.mem_map.1 hentry
    rfl
  rw [hqueue]
  refine ⟨?_, ?_, ?_, ?_, ?_, ?_⟩
  · rwa [List.nil_append, hmap]
  · rw [List.nil_append, List.pairwise_map]
    exact List.pairwise_of_forall fun _ _ => le_refl _
  · intro a ha b hb
    rw [hzero b hb]
    exact Nat.zero_le _
  · intro entry hentry
    rw [List.nil_append] at hentry
    rw [hzero entry hentry]
    obtain ⟨item, hitem, rfl⟩ := List.mem_map.1 hentry
    exact ⟨Nat.zero_le _, .root (hfresh item hitem).1⟩
  · intro root hroot
    rw [List.nil_append]
    rcases hall root hroot with h | h | h
    · exact absurd h List.not_mem_nil
    · exact absurd h List.not_mem_nil
    · exact List.mem_map_of_mem h
  · intro entry hentry
    exact absurd hentry List.not_mem_nil

theorem SearchValid.head_le (h : SearchValid roots next maxDepth done (entry :: rest)) :
    (∀ other ∈ done, other.2 ≤ entry.2) ∧ ∀ other ∈ rest, entry.2 ≤ other.2 := by
  have hrising := List.pairwise_append.1 h.rising
  refine ⟨fun other hother => hrising.2.2 other hother entry List.mem_cons_self, ?_⟩
  exact (List.pairwise_cons.1 hrising.2.1).1

/-- The next entry is not among those that are done. -/
theorem SearchValid.head_not_done (h : SearchValid roots next maxDepth done (entry :: rest)) :
    entry.1 ∉ done.map Prod.fst := by
  have hdistinct := h.distinct
  rw [List.map_append, List.nodup_append] at hdistinct
  intro hmem
  exact hdistinct.2.2 _ hmem _ (List.mem_map_of_mem List.mem_cons_self) rfl

/-- An entry is done when all that follows it is known or queued at the next depth. -/
theorem SearchValid.visit (h : SearchValid roots next maxDepth done (entry :: rest))
    {fresh : List α} (hnodup : fresh.Nodup)
    (hfresh : ∀ item ∈ fresh, entry.2 < maxDepth ∧ item ∈ next entry.1 ∧
      item ∉ (done ++ entry :: rest).map Prod.fst)
    (hall : entry.2 < maxDepth → ∀ item ∈ next entry.1,
      item ∈ (done ++ entry :: rest).map Prod.fst ∨ item ∈ fresh) :
    SearchValid roots next maxDepth (done ++ [entry])
      (rest ++ fresh.map (·, entry.2 + 1)) := by
  have hfound : done ++ [entry] ++ (rest ++ fresh.map (·, entry.2 + 1)) =
      (done ++ entry :: rest) ++ fresh.map (·, entry.2 + 1) := by simp
  have hmap : (fresh.map (·, entry.2 + 1)).map Prod.fst = fresh := by
    rw [List.map_map]
    exact List.map_id _
  have hdepth : ∀ other ∈ fresh.map (·, entry.2 + 1), other.2 = entry.2 + 1 := by
    intro other hother
    obtain ⟨item, _, rfl⟩ := List.mem_map.1 hother
    rfl
  have hrest : ∀ other ∈ rest, entry.2 ≤ other.2 ∧ other.2 ≤ entry.2 + 1 := fun other hother =>
    ⟨h.head_le.2 other hother,
      h.window entry List.mem_cons_self other (List.mem_cons_of_mem _ hother)⟩
  have hlow : ∀ other ∈ done ++ entry :: rest, other.2 ≤ entry.2 + 1 := by
    intro other hother
    rcases List.mem_append.1 hother with hother | hother
    · exact (h.head_le.1 other hother).trans (Nat.le_succ _)
    · exact h.window entry List.mem_cons_self other hother
  refine ⟨?_, ?_, ?_, ?_, ?_, ?_⟩
  · rw [hfound, List.map_append, hmap, List.nodup_append]
    refine ⟨h.distinct, hnodup, ?_⟩
    rintro a ha b hb rfl
    exact (hfresh a hb).2.2 ha
  · rw [hfound, List.pairwise_append]
    refine ⟨h.rising, ?_, ?_⟩
    · rw [List.pairwise_map]
      exact List.pairwise_of_forall fun _ _ => le_refl _
    · intro a ha b hb
      rw [hdepth b hb]
      exact hlow a ha
  · intro a ha b hb
    have hge : entry.2 ≤ a.2 := by
      rcases List.mem_append.1 ha with ha | ha
      · exact (hrest a ha).1
      · rw [hdepth a ha]
        exact Nat.le_succ _
    have hle : b.2 ≤ entry.2 + 1 := by
      rcases List.mem_append.1 hb with hb | hb
      · exact (hrest b hb).2
      · exact (hdepth b hb).le
    exact hle.trans (Nat.succ_le_succ hge)
  · intro other hother
    rw [hfound, List.mem_append] at hother
    rcases hother with hother | hother
    · exact h.reached other hother
    · obtain ⟨item, hitem, rfl⟩ := List.mem_map.1 hother
      have hentry := h.reached entry (List.mem_append_right _ List.mem_cons_self)
      exact ⟨(hfresh item hitem).1, .step hentry.2 (hfresh item hitem).2.1⟩
  · intro root hroot
    rw [hfound]
    exact List.mem_append_left _ (h.rooted root hroot)
  · intro other hother hlt b hb
    rw [hfound]
    rcases List.mem_append.1 hother with hother | hother
    · obtain ⟨depth, hle, hmem⟩ := h.closed other hother hlt b hb
      exact ⟨depth, hle, List.mem_append_left _ hmem⟩
    · rw [List.mem_singleton.1 hother] at hlt hb ⊢
      rcases hall hlt b hb with hmem | hmem
      · obtain ⟨known, hknown, rfl⟩ := List.mem_map.1 hmem
        exact ⟨known.2, hlow known hknown, List.mem_append_left _ hknown⟩
      · exact ⟨entry.2 + 1, le_refl _, List.mem_append_right _ (List.mem_map_of_mem hmem)⟩

/-- A search whose queue is empty has done all that is within reach. -/
theorem SearchValid.complete (h : SearchValid roots next maxDepth done []) {n : ℕ} {a : α}
    (ha : ReachedIn roots next n a) (hn : n ≤ maxDepth) :
    ∃ depth ≤ n, (a, depth) ∈ done := by
  rw [show done = done ++ [] from (List.append_nil _).symm]
  induction ha with
  | root hroot => exact ⟨0, le_refl _, h.rooted _ hroot⟩
  | step _ hb ih =>
      obtain ⟨depth, hle, hmem⟩ := ih ((Nat.le_succ _).trans hn)
      rw [List.append_nil] at hmem
      obtain ⟨further, hfurther, hfound⟩ := h.closed _ hmem (lt_of_le_of_lt hle hn) _ hb
      exact ⟨further, hfurther.trans (Nat.succ_le_succ hle), hfound⟩

/-- What is done in a search whose queue is empty is what is within reach. -/
theorem SearchValid.done_iff (h : SearchValid roots next maxDepth done []) {a : α} :
    a ∈ done.map Prod.fst ↔ ∃ n ≤ maxDepth, ReachedIn roots next n a := by
  constructor
  · intro hmem
    obtain ⟨entry, hentry, rfl⟩ := List.mem_map.1 hmem
    exact ⟨entry.2, h.reached entry (List.mem_append_left _ hentry)⟩
  · rintro ⟨n, hn, hreached⟩
    obtain ⟨depth, _, hmem⟩ := h.complete hreached hn
    exact List.mem_map.2 ⟨(a, depth), hmem, rfl⟩

end Search

end SearchTrust.Order
