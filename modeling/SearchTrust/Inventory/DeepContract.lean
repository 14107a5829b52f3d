/-
What the deep collection promises for every pattern of failures: which pages are tried,
which of them are selected, and what the attempts and the limitations say about it.
-/
import SearchTrust.Inventory.DeepPages

namespace SearchTrust.Inventory

open SearchTrust.Order
open SearchTrust.Report.Outcomes

section Places

variable {Content : Type}

/-- A ranked page with its rank. -/
abbrev Place := RankedPage × ℕ

/-- The place that an outcome is about. -/
def Outcome.place (outcome : Outcome Content) : Place := (outcome.ranked, outcome.rank)

/-- A result that answers what reading a page came to. -/
def Answers (ranked : RankedPage) (result : Except InventoryErrorCode (DeepPageSnapshot Content)) :
    DeepFetch Content → Prop
  | .content content => result = .ok (snapshotOf ranked content)
  | .failed failure => result = .error (errorCode failure)
  | .raised => False

/-- The outcomes of the ranks before a rank. -/
def earlier (outcomes : List (Outcome Content)) (rank : ℕ) : List (Outcome Content) :=
  outcomes.filter fun outcome => outcome.rank < rank

/-- A contact page that answered. -/
def Outcome.contactAnswered (outcome : Outcome Content) : Bool :=
  outcome.succeeded && outcome.ranked.pageType = .contact

variable (lib : UrlLibraries) (collector : DeepCollector Content) (limit : ℕ)

/-- A place that should be tried, after some outcomes. -/
def Due (outcomes : List (Outcome Content)) (place : Place) : Prop :=
  collector.isAdmin lib place.1 = false ∧
    (earlier outcomes place.2).countP Outcome.succeeded < limit ∧
    (collector.isReserved place.1 && (earlier outcomes place.2).any Outcome.contactAnswered) = false

/-- What the loop keeps true of the places it has seen. -/
structure Collects (seen : List Place) (state : Collecting Content) : Prop where
  sub : (state.outcomes.map Outcome.place).Sublist seen
  answers : ∀ outcome ∈ state.outcomes,
    Answers outcome.ranked outcome.result (collector.deepSnapshot outcome.rank outcome.ranked)
  count : state.successCount = state.outcomes.countP Outcome.succeeded
  short : state.successCount ≤ limit
  contact : state.contactSucceeded = state.outcomes.any Outcome.contactAnswered
  chosen : ∀ place ∈ seen,
    place ∈ state.outcomes.map Outcome.place ↔ Due lib collector limit state.outcomes place

end Places

section Steps

variable {Content : Type} {lib : UrlLibraries} {collector : DeepCollector Content} {limit : ℕ}
  {seen rest : List Place} {state : Collecting Content}

theorem earlier_of_later {outcomes : List (Outcome Content)} {rank : ℕ}
    (h : ∀ outcome ∈ outcomes, outcome.rank < rank) : earlier outcomes rank = outcomes := by
  refine List.filter_eq_self.2 ?_
  intro outcome houtcome
  exact decide_eq_true (h outcome houtcome)

theorem earlier_append {outcomes : List (Outcome Content)} {outcome : Outcome Content} {rank : ℕ}
    (h : rank ≤ outcome.rank) : earlier (outcomes ++ [outcome]) rank = earlier outcomes rank := by
  have hnone : [outcome].filter (fun other => other.rank < rank) = [] := by
    refine List.filter_eq_nil_iff.2 ?_
    intro other hother
    rw [List.mem_singleton.1 hother, decide_eq_true_eq]
    omega
  rw [earlier, List.filter_append, hnone, List.append_nil]
  rfl

theorem answers_failed {ranked : RankedPage} {rank : ℕ} {failure : FetchFailure}
    (h : collector.deepSnapshot rank ranked = .failed failure) :
    Answers ranked (.error (errorCode failure)) (collector.deepSnapshot rank ranked) := by
  rw [h, Answers]

theorem answers_content {ranked : RankedPage} {rank : ℕ} {content : Content}
    (h : collector.deepSnapshot rank ranked = .content content) :
    Answers ranked (.ok (snapshotOf ranked content)) (collector.deepSnapshot rank ranked) := by
  rw [h, Answers]

/-- The outcomes come before what comes after the places that were seen. -/
theorem Collects.rank_lt (h : Collects lib collector limit seen state) {place : Place}
    (hlater : ∀ other ∈ seen, other.2 < place.2) :
    ∀ outcome ∈ state.outcomes, outcome.rank < place.2 := by
  intro outcome houtcome
  exact hlater outcome.place (h.sub.subset (List.mem_map_of_mem houtcome))

theorem Collects.not_mem (h : Collects lib collector limit seen state) {place : Place}
    (hlater : ∀ other ∈ seen, other.2 < place.2) : place ∉ state.outcomes.map Outcome.place := by
  intro hmem
  obtain ⟨outcome, houtcome, rfl⟩ := List.mem_map.1 hmem
  exact lt_irrefl _ (h.rank_lt hlater outcome houtcome)

/-- What the loop tests at the next place. -/
theorem Collects.due_iff (h : Collects lib collector limit seen state) {place : Place}
    (hlater : ∀ other ∈ seen, other.2 < place.2) :
    Due lib collector limit state.outcomes place ↔
      collector.isAdmin lib place.1 = false ∧ state.successCount < limit ∧
        (collector.isReserved place.1 && state.contactSucceeded) = false := by
  rw [Due, earlier_of_later (h.rank_lt hlater), ← h.count, ← h.contact]

/-- Places that are not due can be passed over. -/
theorem Collects.pass (h : Collects lib collector limit seen state)
    (hlater : ∀ place ∈ rest, ∀ other ∈ seen, other.2 < place.2)
    (hnot : ∀ place ∈ rest, ¬ Due lib collector limit state.outcomes place) :
    Collects lib collector limit (seen ++ rest) state where
  sub := h.sub.trans (List.sublist_append_left _ _)
  answers := h.answers
  count := h.count
  short := h.short
  contact := h.contact
  chosen := by
    intro place hplace
    rcases List.mem_append.1 hplace with hplace | hplace
    · exact h.chosen place hplace
    · exact iff_of_false (h.not_mem (hlater place hplace)) (hnot place hplace)

/-- The state after an outcome. -/
def Collecting.record (state : Collecting Content) (outcome : Outcome Content) :
    Collecting Content where
  outcomes := state.outcomes ++ [outcome]
  successCount := state.successCount + if outcome.succeeded then 1 else 0
  contactSucceeded := state.contactSucceeded || outcome.contactAnswered

/-- A place that is due is tried, and its outcome is kept. -/
theorem Collects.record (h : Collects lib collector limit seen state) (ranked : RankedPage)
    (rank : ℕ) (result : Except InventoryErrorCode (DeepPageSnapshot Content))
    (hlater : ∀ other ∈ seen, other.2 < rank)
    (hdue : Due lib collector limit state.outcomes (ranked, rank))
    (hanswers : Answers ranked result (collector.deepSnapshot rank ranked)) :
    Collects lib collector limit (seen ++ [(ranked, rank)])
      (state.record ⟨rank, ranked, result⟩) where
  sub := by
    rw [Collecting.record, List.map_append]
    exact h.sub.append (List.Sublist.refl _)
  answers := by
    intro other hother
    rcases List.mem_append.1 hother with hother | hother
    · exact h.answers other hother
    · rw [List.mem_singleton.1 hother]
      exact hanswers
  count := by
    rw [Collecting.record, List.countP_append, ← h.count, List.countP_singleton]
  short := by
    have hroom := ((h.due_iff hlater).1 hdue).2.1
    dsimp only [Collecting.record]
    split <;> omega
  contact := by
    rw [Collecting.record, List.any_append, ← h.contact, List.any_cons, List.any_nil,
      Bool.or_false]
  chosen := by
    intro place hplace
    have hle : place.2 ≤ rank := by
      rcases List.mem_append.1 hplace with hplace | hplace
      · exact (hlater place hplace).le
      · rw [List.mem_singleton.1 hplace]
    have hsame : Due lib collector limit (state.record ⟨rank, ranked, result⟩).outcomes place ↔
        Due lib collector limit state.outcomes place := by
      rw [Collecting.record, Due, Due, earlier_append hle]
    rw [hsame]
    rcases List.mem_append.1 hplace with hplace | hplace
    · rw [← h.chosen place hplace, Collecting.record, List.map_append, List.mem_append,
        List.map_singleton, List.mem_singleton, or_iff_left]
      rintro rfl
      exact lt_irrefl _ (hlater _ hplace)
    · rw [List.mem_singleton.1 hplace]
      refine iff_of_true ?_ hdue
      rw [Collecting.record, List.map_append]
      exact List.mem_append_right _ (List.mem_singleton_self _)

end Steps

section Runs

variable {Content : Type} {lib : UrlLibraries} {collector : DeepCollector Content} {limit : ℕ}

/-- What the loop leaves, by induction over the places that remain. -/
theorem collectPages_collects {seen rest : List Place} {state final : Collecting Content}
    (hranks : (seen ++ rest).Pairwise fun a b => a.2 < b.2)
    (h : Collects lib collector limit seen state)
    (hrun : collectPages lib collector limit rest state = .ok final) :
    Collects lib collector limit (seen ++ rest) final := by
  induction rest generalizing seen state with
  | nil =>
      cases hrun
      rwa [List.append_nil]
  | cons place rest ih =>
      obtain ⟨ranked, rank⟩ := place
      have hlater : ∀ other ∈ seen, other.2 < (ranked, rank).2 := by
        intro other hother
        exact (List.pairwise_append.1 hranks).2.2 other hother _ List.mem_cons_self
      have hsplit : seen ++ (ranked, rank) :: rest = (seen ++ [(ranked, rank)]) ++ rest := by simp
      have hpass : ¬ Due lib collector limit state.outcomes (ranked, rank) →
          Collects lib collector limit (seen ++ [(ranked, rank)]) state := by
        intro hnot
        refine h.pass ?_ ?_
        · intro place hplace
          rw [List.mem_singleton.1 hplace]
          exact hlater
        · intro place hplace
          rwa [List.mem_singleton.1 hplace]
      rw [collectPages] at hrun
      split at hrun
      next hadmin =>
        rw [hsplit]
        refine ih (hsplit ▸ hranks) (hpass fun hdue => ?_) hrun
        exact Bool.false_ne_true (hdue.1.symm.trans hadmin)
      next hadmin =>
        split at hrun
        next hfull =>
          cases hrun
          refine h.pass ?_ ?_
          · intro place hplace other hother
            exact (List.pairwise_append.1 hranks).2.2 other hother place hplace
          · intro place hplace hdue
            have hbefore : ∀ other ∈ seen, other.2 < place.2 := fun other hother =>
              (List.pairwise_append.1 hranks).2.2 other hother place hplace
            exact absurd ((h.due_iff hbefore).1 hdue).2.1 (not_lt.2 hfull)
        next hroom =>
          split at hrun
          next hwait =>
            rw [hsplit]
            refine ih (hsplit ▸ hranks) (hpass fun hdue => ?_) hrun
            exact Bool.false_ne_true (((h.due_iff hlater).1 hdue).2.2.symm.trans hwait)
          next hwait =>
            have hdue : Due lib collector limit state.outcomes (ranked, rank) :=
              (h.due_iff hlater).2
                ⟨Bool.eq_false_iff.2 hadmin, not_le.1 hroom, Bool.eq_false_iff.2 hwait⟩
            rw [hsplit]
            split at hrun
            next => cases hrun
            next failure hfetch =>
              have hstep : Collects lib collector limit (seen ++ [(ranked, rank)])
                  (state.record ⟨rank, ranked, .error (errorCode failure)⟩) :=
                h.record ranked rank _ hlater hdue (answers_failed hfetch)
              refine ih (hsplit ▸ hranks) hstep ?_
              rw [← hrun]
              simp [Collecting.record, Outcome.succeeded, Outcome.contactAnswered, Except.isOk,
                Except.toBool]
            next content hfetch =>
              have hstep : Collects lib collector limit (seen ++ [(ranked, rank)])
                  (state.record ⟨rank, ranked, .ok (snapshotOf ranked content)⟩) :=
                h.record ranked rank _ hlater hdue (answers_content hfetch)
              refine ih (hsplit ▸ hranks) hstep ?_
              rw [← hrun]
              simp [Collecting.record, Outcome.succeeded, Outcome.contactAnswered, Except.isOk,
                Except.toBool]

/-- The loop raises only what the reading of a page raises. -/
theorem collectPages_isOk {places : List Place} {state : Collecting Content}
    (h : ∀ place ∈ places, collector.deepSnapshot place.2 place.1 ≠ .raised) :
    ∃ final, collectPages lib collector limit places state = .ok final := by
  induction places generalizing state with
  | nil => exact ⟨state, rfl⟩
  | cons place places ih =>
      obtain ⟨ranked, rank⟩ := place
      have hrest : ∀ {state : Collecting Content},
          ∃ final, collectPages lib collector limit places state = .ok final := by
        intro state
        exact ih fun place hplace => h place (List.mem_cons_of_mem _ hplace)
      rw [collectPages]
      split
      next => exact hrest
      next =>
        split
        next => exact ⟨state, rfl⟩
        next =>
          split
          next => exact hrest
          next =>
            split
            next hraised => exact absurd hraised (h _ List.mem_cons_self)
            next => exact hrest
            next => exact hrest

end Runs

section Finals

variable {Content : Type} {limit : ℕ} {outcomes : List (Outcome Content)}

/-- Outcomes of increasing ranks are told apart by their ranks. -/
theorem eq_of_rank_eq (hranks : outcomes.Pairwise fun a b => a.rank < b.rank)
    {a b : Outcome Content} (ha : a ∈ outcomes) (hb : b ∈ outcomes) (h : a.rank = b.rank) :
    a = b := by
  have hnodup : (outcomes.map Outcome.rank).Nodup :=
    List.Pairwise.imp (fun h => h.ne) (List.pairwise_map.2 hranks)
  exact List.inj_on_of_nodup_map hnodup ha hb h

/-- The failures that fill the selection. -/
def failedFill (limit : ℕ) (outcomes : List (Outcome Content)) : List (Outcome Content) :=
  (outcomes.filter (! ·.succeeded)).take (limit - (outcomes.filter Outcome.succeeded).length)

theorem mem_finalOutcomes {outcome : Outcome Content} :
    outcome ∈ finalOutcomes limit outcomes ↔
      outcome ∈ outcomes.filter Outcome.succeeded ∨ outcome ∈ failedFill limit outcomes := by
  rw [finalOutcomes, mem_sortedBy, List.mem_append]
  rfl

theorem length_finalOutcomes : (finalOutcomes limit outcomes).length =
    (outcomes.filter Outcome.succeeded).length + (failedFill limit outcomes).length := by
  rw [finalOutcomes, length_sortedBy, List.length_append]
  rfl

/-- The selection keeps the order of the outcomes. -/
theorem finalOutcomes_sublist (hranks : outcomes.Pairwise fun a b => a.rank < b.rank) :
    (finalOutcomes limit outcomes).Sublist outcomes := by
  have hparts : (outcomes.filter Outcome.succeeded ++ failedFill limit outcomes).Subperm
      outcomes := by
    refine List.Subperm.trans ?_ (List.filter_append_perm Outcome.succeeded outcomes).subperm
    exact ((List.Sublist.refl _).append (List.take_sublist _ _)).subperm
  have hsub : (finalOutcomes limit outcomes).Subperm outcomes :=
    (sortedBy_perm _ _).subperm.trans hparts
  have hnodup : (finalOutcomes limit outcomes).Nodup := by
    have hall : outcomes.Nodup :=
      List.Pairwise.imp (fun h heq => absurd (congrArg Outcome.rank heq) h.ne) hranks
    obtain ⟨kept, hperm, hkept⟩ := hsub
    exact hperm.nodup_iff.1 (hkept.nodup hall)
  have hsorted : (finalOutcomes limit outcomes).Pairwise fun a b => a.rank < b.rank := by
    refine List.Pairwise.imp_of_mem ?_ ((pairwise_sortedBy _ _).and hnodup)
    intro a b ha hb hab
    refine lt_of_le_of_ne hab.1 fun heq => hab.2 ?_
    exact eq_of_rank_eq hranks (hsub.subset ha) (hsub.subset hb) heq
  have hanti : Std.Antisymm fun a b : Outcome Content => a.rank < b.rank :=
    ⟨fun a b hab hba => absurd hab hba.asymm⟩
  exact List.sublist_of_subperm_of_pairwise hsub hsorted hranks

/-- An outcome that is left out is a failure. -/
theorem failed_of_not_final {outcome : Outcome Content} (h : outcome ∈ outcomes)
    (hnot : outcome ∉ finalOutcomes limit outcomes) :
    outcome ∈ outcomes.filter (! ·.succeeded) ∧ outcome ∉ failedFill limit outcomes := by
  rw [mem_finalOutcomes, not_or, List.mem_filter] at hnot
  refine ⟨List.mem_filter.2 ⟨h, ?_⟩, hnot.2⟩
  rw [Bool.not_eq_true']
  exact Bool.eq_false_iff.2 fun hsucceeded => hnot.1 ⟨h, hsucceeded⟩

/-- A failure that is left out comes after each failure of the selection. -/
theorem fill_before (hranks : outcomes.Pairwise fun a b => a.rank < b.rank)
    {left kept : Outcome Content} (hleft : left ∈ outcomes)
    (hnot : left ∉ finalOutcomes limit outcomes) (hkept : kept ∈ finalOutcomes limit outcomes)
    (hfailed : kept.succeeded = false) : kept.rank < left.rank := by
  obtain ⟨hmem, hleft⟩ := failed_of_not_final hleft hnot
  have hfill : kept ∈ failedFill limit outcomes := by
    refine (mem_finalOutcomes.1 hkept).resolve_left fun h => ?_
    exact Bool.false_ne_true (hfailed.symm.trans (List.mem_filter.1 h).2)
  rw [← List.take_append_drop (limit - (outcomes.filter Outcome.succeeded).length)
    (outcomes.filter (! ·.succeeded)), List.mem_append] at hmem
  have hfailures := hranks.filter (! ·.succeeded)
  rw [← List.take_append_drop (limit - (outcomes.filter Outcome.succeeded).length)
    (outcomes.filter (! ·.succeeded)), List.pairwise_append] at hfailures
  exact hfailures.2.2 kept hfill left (hmem.resolve_left hleft)

/-- A failure is left out only where the selection is full. -/
theorem full_of_not_final (hshort : outcomes.countP Outcome.succeeded ≤ limit)
    {left : Outcome Content} (hleft : left ∈ outcomes)
    (hnot : left ∉ finalOutcomes limit outcomes) :
    (finalOutcomes limit outcomes).length = limit := by
  obtain ⟨hmem, hleft⟩ := failed_of_not_final hleft hnot
  have hlong : limit - (outcomes.filter Outcome.succeeded).length <
      (outcomes.filter (! ·.succeeded)).length := by
    refine not_le.1 fun hle => hleft ?_
    rwa [failedFill, List.take_of_length_le hle]
  rw [List.countP_eq_length_filter] at hshort
  rw [length_finalOutcomes, failedFill, List.length_take]
  omega

theorem finalOutcomes_short (hshort : outcomes.countP Outcome.succeeded ≤ limit) :
    (finalOutcomes limit outcomes).length ≤ limit := by
  rw [List.countP_eq_length_filter] at hshort
  rw [length_finalOutcomes, failedFill, List.length_take]
  omega

end Finals

section Contracts

/-- The attempts that become the selection: all that succeeded, and the earliest failures as
far as there is room. -/
structure FinalAttempts (limit : ℕ) (attempts final : List DeepPageAttempt) : Prop where
  sub : final.Sublist attempts
  short : final.length ≤ limit
  successes : ∀ attempt ∈ attempts, attempt.succeeded = true → attempt ∈ final
  earliest : ∀ left ∈ attempts, left ∉ final →
    ∀ kept ∈ final, kept.succeeded = false → kept.rank < left.rank
  filled : ∀ left ∈ attempts, left ∉ final → final.length = limit

variable {Content : Type} (lib : UrlLibraries) (collector : DeepCollector Content) (limit : ℕ)

/-- An attempt at a page, that says what came of it. -/
def AttemptAt (page : RankedPage) (attempt : DeepPageAttempt) : Prop :=
  attempt.url = page.url ∧
    match collector.deepSnapshot attempt.rank page with
    | .content _ => attempt.succeeded = true ∧ attempt.errorCode = none
    | .failed failure => attempt.succeeded = false ∧ attempt.errorCode = some (errorCode failure)
    | .raised => False

/-- The record of an attempt at a page. -/
def recordAt (page : RankedPage) (attempt : DeepPageAttempt) : SelectedPageRecord Content where
  url := page.url
  pageType := page.pageType
  crawlDepth := page.page.crawlDepth
  selectionScore := page.score
  selectionReasons := page.reasons
  deepAnalyzed := attempt.succeeded
  deepSnapshot := match collector.deepSnapshot attempt.rank page with
    | .content content => some (snapshotOf page content)
    | _ => none

/-- How many attempts before a rank succeeded. -/
def successesBefore (attempts : List DeepPageAttempt) (rank : ℕ) : ℕ :=
  attempts.countP fun attempt => attempt.rank < rank && attempt.succeeded

/-- A contact page answered before a rank. -/
def ContactBefore (places : List Place) (attempts : List DeepPageAttempt) (rank : ℕ) : Prop :=
  ∃ attempt ∈ attempts, attempt.rank < rank ∧ attempt.succeeded = true ∧
    ∃ page, (page, attempt.rank) ∈ places ∧ page.pageType = .contact

/-- What the deep collection of some ranked pages promises. -/
structure DeepContract (rankedPages : List RankedPage) (result : DeepCollection Content) :
    Prop where
  inOrder : result.attempts.Pairwise fun a b => a.rank < b.rank
  attempts : ∀ attempt ∈ result.attempts,
    ∃ page, (page, attempt.rank) ∈ rankedPages.zipIdx 1 ∧ AttemptAt collector page attempt
  /-- A page is tried unless it is out of scope, or enough pages before it succeeded, or it
  is kept for contacts and a contact page before it succeeded. -/
  tried : ∀ page rank, (page, rank) ∈ rankedPages.zipIdx 1 →
    (rank ∈ result.attempts.map DeepPageAttempt.rank ↔
      collector.isAdmin lib page = false ∧ successesBefore result.attempts rank < limit ∧
        ¬ (collector.isReserved page = true ∧
          ContactBefore (rankedPages.zipIdx 1) result.attempts rank))
  few : result.selected.length ≤ limit
  selection : ∃ final, FinalAttempts limit result.attempts final ∧
    List.Forall₂ (fun attempt record => ∃ page, (page, attempt.rank) ∈ rankedPages.zipIdx 1 ∧
      record = recordAt collector page attempt) final result.selected ∧
    ((rankedPages.map RankedPage.url).Nodup →
      ∀ attempt ∈ result.attempts, attempt.selectedFinal = true ↔ attempt ∈ final)
  selectedFinal : ∀ attempt ∈ result.attempts,
    attempt.selectedFinal = true ↔ attempt.url ∈ result.selected.map SelectedPageRecord.url
  exhausted : "candidate_exhausted" ∈ result.limitations ↔
    result.attempts.countP DeepPageAttempt.succeeded < limit
  failures : "deep_page_failures_present" ∈ result.limitations ↔
    ∃ attempt ∈ result.attempts, attempt.succeeded = false

end Contracts

section Results

variable {Content : Type} {lib : UrlLibraries} {collector : DeepCollector Content} {limit : ℕ}
  {rankedPages : List RankedPage}

theorem eq_of_validated {α : Type} {model : String} {valid : α → Bool} {value result : α}
    (h : validated model valid value = .ok result) : result = value := by
  unfold validated at h
  split at h
  · exact (Except.ok.inj h).symm
  · cases h

/-- What `collectDeepPages` returns, from the outcomes of its loop. -/
theorem collectDeepPages_ok {result : DeepCollection Content}
    (h : collectDeepPages lib collector limit rankedPages = .ok result) :
    ∃ state, collectPages lib collector limit (rankedPages.zipIdx 1) ⟨[], 0, false⟩ = .ok state ∧
      result.selected = (finalOutcomes limit state.outcomes).map Outcome.toRecord ∧
      result.attempts = state.outcomes.map
        (Outcome.toAttempt ((finalOutcomes limit state.outcomes).map (·.ranked.url))) ∧
      result.limitations =
        (if (state.outcomes.filter Outcome.succeeded).length < limit then ["candidate_exhausted"]
          else []) ++
        if state.outcomes.filter (! ·.succeeded) = [] then []
        else ["deep_page_failures_present"] := by
  obtain ⟨state, hstate, h⟩ := ok_of_bind h
  obtain ⟨selected, hselected, h⟩ := ok_of_bind h
  obtain ⟨attempts, hattempts, h⟩ := ok_of_bind h
  cases h
  refine ⟨state, hstate, ?_, ?_, rfl⟩
  · exact eq_map_of_forall₂ ((forall₂_of_mapM_ok hselected).imp fun _ _ h => eq_of_validated h)
  · exact eq_map_of_forall₂ ((forall₂_of_mapM_ok hattempts).imp fun _ _ h => eq_of_validated h)

/-- The places of ranked pages come in the order of their ranks. -/
theorem places_pairwise (rankedPages : List RankedPage) (first : ℕ) :
    (rankedPages.zipIdx first).Pairwise fun a b => a.2 < b.2 := by
  induction rankedPages generalizing first with
  | nil => exact List.Pairwise.nil
  | cons page rest ih =>
      rw [List.zipIdx_cons, List.pairwise_cons]
      refine ⟨?_, ih (first + 1)⟩
      intro place hplace
      exact List.le_snd_of_mem_zipIdx hplace

/-- One page has a rank. -/
theorem page_eq_of_places {page other : RankedPage} {rank : ℕ}
    (h : (page, rank) ∈ rankedPages.zipIdx 1) (hother : (other, rank) ∈ rankedPages.zipIdx 1) :
    page = other := by
  have hpage := (List.mk_mem_zipIdx_iff_le_and_getElem?_sub.1 h).2
  have hother := (List.mk_mem_zipIdx_iff_le_and_getElem?_sub.1 hother).2
  exact Option.some.inj (hpage.symm.trans hother)

/-- What the whole loop leaves. -/
theorem collectPages_run {state : Collecting Content}
    (h : collectPages lib collector limit (rankedPages.zipIdx 1) ⟨[], 0, false⟩ = .ok state) :
    Collects lib collector limit (rankedPages.zipIdx 1) state := by
  have hstart : Collects lib collector limit [] ⟨[], 0, false⟩ := by
    refine ⟨List.Sublist.refl _, ?_, rfl, Nat.zero_le _, rfl, ?_⟩
    · intro outcome h
      exact absurd h List.not_mem_nil
    · intro place h
      exact absurd h List.not_mem_nil
  have hranks : ([] ++ rankedPages.zipIdx 1).Pairwise fun a b : Place => a.2 < b.2 :=
    places_pairwise rankedPages 1
  exact collectPages_collects hranks hstart h

variable {outcomes : List (Outcome Content)} {urls : List String}

theorem mem_ranks_iff (hsub : (outcomes.map Outcome.place).Sublist (rankedPages.zipIdx 1))
    {page : RankedPage} {rank : ℕ} (h : (page, rank) ∈ rankedPages.zipIdx 1) :
    rank ∈ (outcomes.map (Outcome.toAttempt urls)).map DeepPageAttempt.rank ↔
      (page, rank) ∈ outcomes.map Outcome.place := by
  rw [List.map_map]
  constructor
  · intro hmem
    obtain ⟨outcome, houtcome, rfl⟩ := List.mem_map.1 hmem
    have hplace := List.mem_map_of_mem (f := Outcome.place) houtcome
    rwa [page_eq_of_places h (hsub.subset hplace)]
  · intro hmem
    obtain ⟨outcome, houtcome, hplace⟩ := List.mem_map.1 hmem
    exact List.mem_map.2 ⟨outcome, houtcome, congrArg Prod.snd hplace⟩

theorem countP_toAttempt : (outcomes.map (Outcome.toAttempt urls)).countP
    DeepPageAttempt.succeeded = outcomes.countP Outcome.succeeded := by
  rw [List.countP_map]
  rfl

theorem successesBefore_eq (rank : ℕ) :
    successesBefore (outcomes.map (Outcome.toAttempt urls)) rank =
      (earlier outcomes rank).countP Outcome.succeeded := by
  rw [successesBefore, earlier, List.countP_map, List.countP_filter]
  refine List.countP_congr fun outcome _ => ?_
  rw [Function.comp_apply, Bool.and_comm]
  rfl

theorem contactBefore_iff (hsub : (outcomes.map Outcome.place).Sublist (rankedPages.zipIdx 1))
    (rank : ℕ) :
    ContactBefore (rankedPages.zipIdx 1) (outcomes.map (Outcome.toAttempt urls)) rank ↔
      (earlier outcomes rank).any Outcome.contactAnswered = true := by
  rw [List.any_eq_true]
  constructor
  · rintro ⟨attempt, hattempt, hrank, hsucceeded, page, hpage, hcontact⟩
    obtain ⟨outcome, houtcome, rfl⟩ := List.mem_map.1 hattempt
    have hplace := hsub.subset (List.mem_map_of_mem (f := Outcome.place) houtcome)
    refine ⟨outcome, List.mem_filter.2 ⟨houtcome, decide_eq_true hrank⟩, ?_⟩
    rw [Outcome.contactAnswered, Bool.and_eq_true, decide_eq_true_eq]
    refine ⟨hsucceeded, ?_⟩
    have hsame : outcome.ranked = page := page_eq_of_places hplace hpage
    rw [hsame]
    exact hcontact
  · rintro ⟨outcome, houtcome, hcontact⟩
    obtain ⟨houtcome, hrank⟩ := List.mem_filter.1 houtcome
    rw [Outcome.contactAnswered, Bool.and_eq_true, decide_eq_true_eq] at hcontact
    exact ⟨_, List.mem_map_of_mem houtcome, of_decide_eq_true hrank, hcontact.1, outcome.ranked,
      hsub.subset (List.mem_map_of_mem (f := Outcome.place) houtcome), hcontact.2⟩

/-- An outcome is an attempt at its page. -/
theorem attemptAt_of_answers {outcome : Outcome Content}
    (h : Answers outcome.ranked outcome.result
      (collector.deepSnapshot outcome.rank outcome.ranked)) :
    AttemptAt collector outcome.ranked (outcome.toAttempt urls) := by
  refine ⟨rfl, ?_⟩
  have hrank : (outcome.toAttempt urls).rank = outcome.rank := rfl
  rw [hrank]
  cases hfetch : collector.deepSnapshot outcome.rank outcome.ranked with
  | content content =>
      rw [hfetch, Answers] at h
      simp [Outcome.toAttempt, Outcome.succeeded, h, Except.isOk, Except.toBool]
  | failed failure =>
      rw [hfetch, Answers] at h
      simp [Outcome.toAttempt, Outcome.succeeded, h, Except.isOk, Except.toBool]
  | raised => rwa [hfetch, Answers] at h

/-- The record of an outcome is the record of its attempt. -/
theorem toRecord_eq_recordAt {outcome : Outcome Content}
    (h : Answers outcome.ranked outcome.result
      (collector.deepSnapshot outcome.rank outcome.ranked)) :
    outcome.toRecord = recordAt collector outcome.ranked (outcome.toAttempt urls) := by
  have hrank : (outcome.toAttempt urls).rank = outcome.rank := rfl
  rw [recordAt, hrank, Outcome.toRecord]
  cases hfetch : collector.deepSnapshot outcome.rank outcome.ranked with
  | content content =>
      rw [hfetch, Answers] at h
      rw [h]
      rfl
  | failed failure =>
      rw [hfetch, Answers] at h
      rw [h]
      rfl
  | raised =>
      rw [hfetch, Answers] at h
      exact h.elim

/-- The attempts of the final outcomes. -/
theorem finalAttempts_of_outcomes (hranks : outcomes.Pairwise fun a b => a.rank < b.rank)
    (hshort : outcomes.countP Outcome.succeeded ≤ limit) :
    FinalAttempts limit (outcomes.map (Outcome.toAttempt urls))
      ((finalOutcomes limit outcomes).map (Outcome.toAttempt urls)) where
  sub := (finalOutcomes_sublist hranks).map _
  short := by
    rw [List.length_map]
    exact finalOutcomes_short hshort
  successes := by
    intro attempt hattempt hsucceeded
    obtain ⟨outcome, houtcome, rfl⟩ := List.mem_map.1 hattempt
    exact List.mem_map_of_mem
      (mem_finalOutcomes.2 (.inl (List.mem_filter.2 ⟨houtcome, hsucceeded⟩)))
  earliest := by
    intro left hleft hnot kept hkept hfailed
    obtain ⟨outcome, houtcome, rfl⟩ := List.mem_map.1 hleft
    obtain ⟨other, hother, rfl⟩ := List.mem_map.1 hkept
    exact fill_before hranks houtcome (fun h => hnot (List.mem_map_of_mem h)) hother hfailed
  filled := by
    intro left hleft hnot
    obtain ⟨outcome, houtcome, rfl⟩ := List.mem_map.1 hleft
    rw [List.length_map]
    exact full_of_not_final hshort houtcome fun h => hnot (List.mem_map_of_mem h)

/-- Where no URL is repeated, the flag of an attempt says whether it is selected. -/
theorem selectedFinal_iff (hurls : (rankedPages.map RankedPage.url).Nodup)
    (hsub : (outcomes.map Outcome.place).Sublist (rankedPages.zipIdx 1))
    (hranks : outcomes.Pairwise fun a b => a.rank < b.rank) {attempt : DeepPageAttempt}
    (hattempt : attempt ∈ outcomes.map
      (Outcome.toAttempt ((finalOutcomes limit outcomes).map (·.ranked.url)))) :
    attempt.selectedFinal = true ↔ attempt ∈ (finalOutcomes limit outcomes).map
      (Outcome.toAttempt ((finalOutcomes limit outcomes).map (·.ranked.url))) := by
  obtain ⟨outcome, houtcome, rfl⟩ := List.mem_map.1 hattempt
  have hpages : (outcomes.map fun outcome => outcome.ranked.url).Nodup := by
    have hplaces : ((rankedPages.zipIdx 1).map fun place => place.1.url).Nodup := by
      have hfst : ((rankedPages.zipIdx 1).map fun place => place.1.url) =
          rankedPages.map RankedPage.url := by
        have hmap := List.zipIdx_map_fst 1 rankedPages
        rw [← hmap, List.map_map, hmap]
        rfl
      rwa [hfst]
    have hmapped := (hsub.map fun place : Place => place.1.url).nodup hplaces
    rwa [List.map_map] at hmapped
  have hflag : (outcome.toAttempt ((finalOutcomes limit outcomes).map
      (·.ranked.url))).selectedFinal = true ↔
        outcome.ranked.url ∈ (finalOutcomes limit outcomes).map (·.ranked.url) :=
    decide_eq_true_iff
  rw [hflag]
  constructor
  · intro hurl
    obtain ⟨other, hother, hsame⟩ := List.mem_map.1 hurl
    have hmem := (finalOutcomes_sublist hranks).subset hother
    rw [← List.inj_on_of_nodup_map hpages hmem houtcome hsame]
    exact List.mem_map_of_mem hother
  · intro hmem
    obtain ⟨other, hother, hsame⟩ := List.mem_map.1 hmem
    have hurl : other.ranked.url = outcome.ranked.url := congrArg DeepPageAttempt.url hsame
    exact List.mem_map.2 ⟨other, hother, hurl⟩

/-- The deep collection keeps its contract. -/
theorem deepContract_of_ok {result : DeepCollection Content}
    (h : collectDeepPages lib collector limit rankedPages = .ok result) :
    DeepContract lib collector limit rankedPages result := by
  obtain ⟨state, hstate, hselected, hattempts, hlimitations⟩ := collectDeepPages_ok h
  have hrun := collectPages_run hstate
  have hranks : state.outcomes.Pairwise fun a b => a.rank < b.rank := by
    have hplaces := (places_pairwise rankedPages 1).sublist hrun.sub
    rwa [List.pairwise_map] at hplaces
  have hshort : state.outcomes.countP Outcome.succeeded ≤ limit := hrun.count ▸ hrun.short
  have hplace : ∀ {outcome}, outcome ∈ state.outcomes →
      (outcome.ranked, outcome.rank) ∈ rankedPages.zipIdx 1 := by
    intro outcome houtcome
    exact hrun.sub.subset (List.mem_map_of_mem (f := Outcome.place) houtcome)
  refine ⟨?_, ?_, ?_, ?_, ⟨(finalOutcomes limit state.outcomes).map
    (Outcome.toAttempt ((finalOutcomes limit state.outcomes).map (·.ranked.url))), ?_, ?_, ?_⟩,
    ?_, ?_, ?_⟩
  · rw [hattempts]
    exact List.pairwise_map.2 hranks
  · intro attempt hattempt
    rw [hattempts] at hattempt
    obtain ⟨outcome, houtcome, rfl⟩ := List.mem_map.1 hattempt
    exact ⟨outcome.ranked, hplace houtcome, attemptAt_of_answers (hrun.answers outcome houtcome)⟩
  · intro page rank hpage
    rw [hattempts, mem_ranks_iff hrun.sub hpage, hrun.chosen _ hpage, Due, successesBefore_eq,
      contactBefore_iff hrun.sub, ← Bool.and_eq_true, Bool.not_eq_true]
  · rw [hselected, List.length_map]
    exact finalOutcomes_short hshort
  · rw [hattempts]
    exact finalAttempts_of_outcomes hranks hshort
  · rw [hselected, List.forall₂_map_left_iff, List.forall₂_map_right_iff, List.forall₂_same]
    intro outcome houtcome
    have hmem := (finalOutcomes_sublist hranks).subset houtcome
    exact ⟨outcome.ranked, hplace hmem, toRecord_eq_recordAt (hrun.answers outcome hmem)⟩
  · intro hurls attempt hattempt
    rw [hattempts] at hattempt
    exact selectedFinal_iff hurls hrun.sub hranks hattempt
  · intro attempt hattempt
    rw [hattempts] at hattempt
    obtain ⟨outcome, houtcome, rfl⟩ := List.mem_map.1 hattempt
    rw [hselected, List.map_map]
    exact decide_eq_true_iff
  · rw [hlimitations, hattempts, countP_toAttempt, ← List.countP_eq_length_filter]
    by_cases hfew : state.outcomes.countP Outcome.succeeded < limit
    · simp [hfew]
    · simp only [hfew, ↓reduceIte, iff_false]
      split <;> simp
  · rw [hlimitations, hattempts]
    have hfailed : "deep_page_failures_present" ∈
        ((if (state.outcomes.filter Outcome.succeeded).length < limit then ["candidate_exhausted"]
          else []) ++
        if state.outcomes.filter (! ·.succeeded) = [] then []
        else ["deep_page_failures_present"]) ↔ state.outcomes.filter (! ·.succeeded) ≠ [] := by
      by_cases hnone : state.outcomes.filter (! ·.succeeded) = []
      · simp only [hnone, ↓reduceIte, List.append_nil, ne_eq, not_true_eq_false, iff_false]
        split <;> simp
      · simp [hnone]
    rw [hfailed, ne_eq, List.filter_eq_nil_iff]
    simp [Outcome.toAttempt]

end Results

section Totality

variable {Content : Type}

/-- Ranked pages that the records can hold, each of which answers or fails with an exception
that is caught. -/
structure Collectable (collector : DeepCollector Content) (rankedPages : List RankedPage) :
    Prop where
  few : rankedPages.length ≤ 500
  near : ∀ ranked ∈ rankedPages, ranked.page.crawlDepth ≤ 100
  reasons : ∀ ranked ∈ rankedPages, 1 ≤ ranked.reasons.length ∧ ranked.reasons.length ≤ 20
  reads : ∀ place ∈ rankedPages.zipIdx 1, collector.deepSnapshot place.2 place.1 ≠ .raised

variable {lib : UrlLibraries} {collector : DeepCollector Content} {limit : ℕ}
  {rankedPages : List RankedPage} {outcome : Outcome Content}

theorem toRecord_valid (h : Collectable collector rankedPages)
    (hplace : outcome.place ∈ rankedPages.zipIdx 1)
    (hanswers : Answers outcome.ranked outcome.result
      (collector.deepSnapshot outcome.rank outcome.ranked)) :
    outcome.toRecord.valid = true := by
  have hmem : outcome.ranked ∈ rankedPages := List.fst_mem_of_mem_zipIdx hplace
  have hdepth : outcome.toRecord.crawlDepth ≤ 100 := h.near _ hmem
  have hreasons : 1 ≤ outcome.toRecord.selectionReasons.length ∧
      outcome.toRecord.selectionReasons.length ≤ 20 := h.reasons _ hmem
  have hstate : (outcome.toRecord.deepAnalyzed == outcome.toRecord.deepSnapshot.isSome) = true ∧
      outcome.toRecord.deepSnapshot.all (·.url == outcome.toRecord.url) = true := by
    rw [Outcome.toRecord, Outcome.succeeded]
    cases hfetch : collector.deepSnapshot outcome.rank outcome.ranked with
    | content content =>
        rw [hfetch, Answers] at hanswers
        rw [hanswers]
        exact ⟨rfl, beq_self_eq_true _⟩
    | failed failure =>
        rw [hfetch, Answers] at hanswers
        rw [hanswers]
        exact ⟨rfl, rfl⟩
    | raised =>
        rw [hfetch, Answers] at hanswers
        exact hanswers.elim
  rw [SelectedPageRecord.valid, hstate.1, hstate.2, decide_eq_true hdepth,
    decide_eq_true hreasons.1, decide_eq_true hreasons.2]
  rfl

theorem toAttempt_valid (h : Collectable collector rankedPages) (urls : List String)
    (hplace : outcome.place ∈ rankedPages.zipIdx 1) : (outcome.toAttempt urls).valid = true := by
  have hfirst : 1 ≤ (outcome.toAttempt urls).rank := List.le_snd_of_mem_zipIdx hplace
  have hlast : (outcome.toAttempt urls).rank ≤ 500 := by
    have hlt : outcome.rank < rankedPages.length + 1 := List.snd_lt_of_mem_zipIdx hplace
    exact (Nat.le_of_lt_succ hlt).trans h.few
  have hcode : ((outcome.toAttempt urls).succeeded ==
      (outcome.toAttempt urls).errorCode.isNone) = true := by
    rw [Outcome.toAttempt, Outcome.succeeded]
    cases outcome.result with
    | ok snapshot => rfl
    | error code => rfl
  rw [DeepPageAttempt.valid, hcode, decide_eq_true hfirst, decide_eq_true hlast]
  rfl

/-- Whatever fails to be read, the collection returns. -/
theorem collectDeepPages_isOk (h : Collectable collector rankedPages) :
    ∃ result, collectDeepPages lib collector limit rankedPages = .ok result := by
  have hloop : ∃ state, collectPages lib collector limit (rankedPages.zipIdx 1) ⟨[], 0, false⟩ =
      .ok state := collectPages_isOk h.reads
  obtain ⟨state, hstate⟩ := hloop
  have hrun := collectPages_run hstate
  have hplace : ∀ outcome ∈ state.outcomes, outcome.place ∈ rankedPages.zipIdx 1 :=
    fun outcome houtcome => hrun.sub.subset (List.mem_map_of_mem houtcome)
  have hvalidated : ∀ {α : Type} {model : String} {valid : α → Bool} {value : α},
      valid value = true → ∃ result, validated model valid value = .ok result := by
    intro α model valid value hvalid
    exact ⟨value, if_pos hvalid⟩
  obtain ⟨selected, hselected⟩ := mapM_isOk (l := finalOutcomes limit state.outcomes)
    (f := fun outcome => validated "SelectedPageRecord" SelectedPageRecord.valid outcome.toRecord)
    fun outcome houtcome => by
      have hmem : outcome ∈ state.outcomes := by
        rcases mem_finalOutcomes.1 houtcome with h | h
        · exact (List.mem_filter.1 h).1
        · exact (List.mem_filter.1 (List.mem_of_mem_take h)).1
      exact hvalidated (toRecord_valid h (hplace outcome hmem) (hrun.answers outcome hmem))
  obtain ⟨attempts, hattempts⟩ := mapM_isOk (l := state.outcomes)
    (f := fun outcome => validated "DeepPageAttempt" DeepPageAttempt.valid
      (outcome.toAttempt ((finalOutcomes limit state.outcomes).map (·.ranked.url))))
    fun outcome houtcome => hvalidated (toAttempt_valid h _ (hplace outcome houtcome))
  rw [collectDeepPages, hstate, ok_bind]
  dsimp only
  rw [hselected, ok_bind, hattempts, ok_bind]
  exact ⟨_, rfl⟩

end Totality

/-- For all ranked pages, any limit and every pattern of failures: what the collection
returns keeps the contract, and it returns wherever the records can hold the pages and the
failures are ones that it catches. -/
theorem deep_pages_contract {Content : Type} (lib : UrlLibraries)
    (collector : DeepCollector Content) (limit : ℕ) (rankedPages : List RankedPage) :
    (∀ result, collectDeepPages lib collector limit rankedPages = .ok result →
      DeepContract lib collector limit rankedPages result) ∧
    (Collectable collector rankedPages →
      ∃ result, collectDeepPages lib collector limit rankedPages = .ok result ∧
        DeepContract lib collector limit rankedPages result) := by
  refine ⟨fun result h => deepContract_of_ok h, fun h => ?_⟩
  have hreturns : ∃ result, collectDeepPages lib collector limit rankedPages = .ok result :=
    collectDeepPages_isOk h
  obtain ⟨result, hresult⟩ := hreturns
  exact ⟨result, hresult, deepContract_of_ok hresult⟩

end SearchTrust.Inventory
