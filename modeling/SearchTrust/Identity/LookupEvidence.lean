/-
What a lookup concludes from its evidence.  One record is kept for each key, the
conclusion is drawn from the records that count, and a match names one group.
-/
import Mathlib.Data.List.Perm.Basic
import SearchTrust.Identity.Lookup

namespace SearchTrust.Identity

/-- The records that `add` takes: the first of each key that was not seen before. -/
def freshRecords (seen : List (String × String × String)) :
    List SavedGbpRecord → List SavedGbpRecord
  | [] => []
  | record :: rest =>
      if record.key ∈ seen then freshRecords seen rest
      else record :: freshRecords (record.key :: seen) rest

/-- Records of one key are one record. -/
def KeysIdentify (records : List SavedGbpRecord) : Prop :=
  ∀ a ∈ records, ∀ b ∈ records, a.key = b.key → a = b

section Fresh

variable {seen : List (String × String × String)} {records : List SavedGbpRecord}
  {record : SavedGbpRecord}

theorem mem_of_mem_freshRecords (h : record ∈ freshRecords seen records) : record ∈ records := by
  induction records generalizing seen with
  | nil => exact h
  | cons head rest ih =>
      rw [freshRecords] at h
      split at h
      · exact List.mem_cons_of_mem _ (ih h)
      · rcases List.mem_cons.1 h with rfl | hrest
        · exact List.mem_cons_self
        · exact List.mem_cons_of_mem _ (ih hrest)

theorem key_not_mem_of_mem_freshRecords (h : record ∈ freshRecords seen records) :
    record.key ∉ seen := by
  induction records generalizing seen with
  | nil => cases h
  | cons head rest ih =>
      rw [freshRecords] at h
      split at h
      · exact ih h
      · next hnew =>
          rcases List.mem_cons.1 h with rfl | hrest
          · exact hnew
          · exact fun hseen => ih hrest (List.mem_cons_of_mem _ hseen)

theorem nodup_freshRecords : (freshRecords seen records).Nodup := by
  induction records generalizing seen with
  | nil => exact List.nodup_nil
  | cons head rest ih =>
      rw [freshRecords]
      split
      · exact ih
      · refine List.nodup_cons.2 ⟨?_, ih⟩
        exact fun hmem => key_not_mem_of_mem_freshRecords hmem List.mem_cons_self

/-- Every key that was not seen before has a record. -/
theorem exists_mem_freshRecords (hmem : record ∈ records) (hnew : record.key ∉ seen) :
    ∃ kept ∈ freshRecords seen records, kept.key = record.key := by
  induction records generalizing seen with
  | nil => cases hmem
  | cons head rest ih =>
      rw [freshRecords]
      by_cases hhead : head.key = record.key
      · rw [if_neg (hhead ▸ hnew)]
        exact ⟨head, List.mem_cons_self, hhead⟩
      · have hrest : record ∈ rest := by
          rcases List.mem_cons.1 hmem with rfl | hrest
          · exact absurd rfl hhead
          · exact hrest
        split
        · exact ih hrest hnew
        · have hstill : record.key ∉ head.key :: seen := by
            intro hseen
            rcases List.mem_cons.1 hseen with heq | hold
            · exact hhead heq.symm
            · exact hnew hold
          obtain ⟨kept, hkept, hkey⟩ := ih hrest hstill
          exact ⟨kept, List.mem_cons_of_mem _ hkept, hkey⟩

/-- Where keys identify records, every record is kept. -/
theorem mem_freshRecords_iff (h : KeysIdentify records) :
    record ∈ freshRecords [] records ↔ record ∈ records := by
  constructor
  · exact mem_of_mem_freshRecords
  · intro hmem
    obtain ⟨kept, hkept, hkey⟩ : ∃ kept ∈ freshRecords [] records, kept.key = record.key :=
      exists_mem_freshRecords hmem List.not_mem_nil
    rwa [h record hmem kept (mem_of_mem_freshRecords hkept) hkey.symm]

/-- Then their order does not matter. -/
theorem freshRecords_perm {other : List SavedGbpRecord} (h : KeysIdentify records)
    (hperm : records.Perm other) : (freshRecords [] records).Perm (freshRecords [] other) := by
  have hother : KeysIdentify other := by
    intro a ha b hb
    exact h a (hperm.mem_iff.2 ha) b (hperm.mem_iff.2 hb)
  rw [List.perm_ext_iff_of_nodup nodup_freshRecords nodup_freshRecords]
  intro record
  rw [mem_freshRecords_iff h, mem_freshRecords_iff hother, hperm.mem_iff]

end Fresh

namespace Evidence

section Add

variable (lib : LookupLibrary)

theorem add_request (e : Evidence) (records : List SavedGbpRecord) :
    (e.add lib records).request = e.request := by
  induction records generalizing e with
  | nil => rfl
  | cons record rest ih =>
      rw [add, List.foldl_cons, ← add, ih, addRecord]
      split
      · rfl
      · rfl

/-- `add` decides about the fresh records, in their order. -/
theorem add_decisions (e : Evidence) (records : List SavedGbpRecord) :
    (e.add lib records).decisions =
      e.decisions ++ (freshRecords e.seen records).map (assessCandidate lib e.request) := by
  induction records generalizing e with
  | nil => rw [freshRecords, List.map_nil, List.append_nil]; rfl
  | cons record rest ih =>
      rw [add, List.foldl_cons, ← add, ih, addRecord, freshRecords]
      split
      · rfl
      · rw [List.map_cons, List.append_assoc, List.singleton_append]

theorem mem_add_seen (e : Evidence) (records : List SavedGbpRecord)
    (key : String × String × String) :
    key ∈ (e.add lib records).seen ↔ key ∈ e.seen ∨ ∃ record ∈ records, record.key = key := by
  induction records generalizing e with
  | nil => simp [add]
  | cons record rest ih =>
      rw [add, List.foldl_cons, ← add, ih, addRecord]
      split
      · next hseen =>
          rw [List.exists_mem_cons_iff]
          constructor
          · rintro (hold | hrest)
            · exact .inl hold
            · exact .inr (.inr hrest)
          · rintro (hold | rfl | hrest)
            · exact .inl hold
            · exact .inl hseen
            · exact .inr hrest
      · rw [List.exists_mem_cons_iff, List.mem_cons]
        constructor
        · rintro ((rfl | hold) | hrest)
          · exact .inr (.inl rfl)
          · exact .inl hold
          · exact .inr (.inr hrest)
        · rintro (hold | rfl | hrest)
          · exact .inl (.inr hold)
          · exact .inl (.inl rfl)
          · exact .inr hrest

end Add

section Resolution

/-- The records that count. -/
def counting (decisions : List CandidateDecision) : List CandidateDecision :=
  decisions.filter CandidateDecision.counts

theorem mem_counting {decisions : List CandidateDecision} {c : CandidateDecision} :
    c ∈ counting decisions ↔ c ∈ decisions ∧ c.counts = true := List.mem_filter

theorem mem_groups {eligible : List CandidateDecision} {group : Option String} :
    group ∈ groups eligible ↔ ∃ c ∈ eligible, groupOf eligible c.record = group := by
  rw [groups, List.mem_dedup, List.mem_map]

theorem latest_mem {decisions : List CandidateDecision} {c : CandidateDecision}
    (h : latest decisions = some c) : c ∈ decisions :=
  @List.argmax_mem _ _ Int.instLinearOrder.toPreorder Int.decLt _ _ _ h

theorem latest_eq_none {decisions : List CandidateDecision} (h : latest decisions = none) :
    decisions = [] :=
  (@List.argmax_eq_none _ _ Int.instLinearOrder.toPreorder Int.decLt _ _).1 h

/-- A group has a newest record, and it is one that counts. -/
theorem newest_mem {eligible : List CandidateDecision} {group : Option String}
    (h : group ∈ groups eligible) :
    ∃ c ∈ eligible, groupOf eligible c.record = group ∧
      newest eligible group = some c.record := by
  rw [newest]
  cases hmax : latest (eligible.filter fun c => groupOf eligible c.record = group) with
  | none =>
      obtain ⟨c, hc, hgroup⟩ := mem_groups.1 h
      have hmem : c ∈ eligible.filter fun c => groupOf eligible c.record = group :=
        List.mem_filter.2 ⟨hc, decide_eq_true hgroup⟩
      rw [latest_eq_none hmax] at hmem
      cases hmem
  | some c =>
      have hmem := List.mem_filter.1 (latest_mem hmax)
      exact ⟨c, hmem.1, of_decide_eq_true hmem.2, rfl⟩

/-- A result that matches names a record that counts, whose group is the only one or the
selected one. -/
def Justified (selectedBranch : Option String) (result : GbpIdentityResult) : Prop :=
  result.status = .matched →
    ∃ c ∈ counting result.candidates, result.selected = some c.record ∧
      (groups (counting result.candidates) = [groupOf (counting result.candidates) c.record] ∨
        chosenGroup (counting result.candidates) selectedBranch ≠ none ∧
          chosenGroup (counting result.candidates) selectedBranch =
            groupOf (counting result.candidates) c.record)

theorem justified_of_ne {selectedBranch : Option String} {result : GbpIdentityResult}
    (h : result.status ≠ .matched) : Justified selectedBranch result :=
  fun hmatched => absurd hmatched h

theorem stopped_justified (e : Evidence) (ledger : GbpLookupLedger) (reason : String)
    (selectedBranch : Option String) : Justified selectedBranch (e.stopped ledger reason) := by
  refine justified_of_ne ?_
  rw [stopped]
  split
  · exact LookupStatus.noConfusion
  · exact LookupStatus.noConfusion

theorem notFound_justified (e : Evidence) (ledger : GbpLookupLedger)
    (selectedBranch : Option String) : Justified selectedBranch (e.notFound ledger) := by
  refine justified_of_ne ?_
  rw [notFound]
  split
  · exact LookupStatus.noConfusion
  · exact LookupStatus.noConfusion

/-- What `resolved` concludes is justified. -/
theorem resolved_justified {e : Evidence} {status : LookupStatus} {reason : String}
    {selected : Option SavedGbpRecord} (h : e.resolved = some (status, reason, selected))
    (ledger : GbpLookupLedger) :
    Justified e.request.selectedBranchRef (e.result ledger status reason selected none) := by
  intro hmatched
  have hstatus : status = .matched := hmatched
  subst hstatus
  rw [resolved] at h
  split at h
  · next chosen hchosen =>
      split at h
      · next hfound =>
          cases h
          obtain ⟨c, hc, hgroup, hnewest⟩ := newest_mem hfound
          refine ⟨c, hc, hnewest, .inr ⟨?_, hchosen.trans hgroup.symm⟩⟩
          intro hnone
          have habsurd : some chosen = none := hchosen.symm.trans hnone
          cases habsurd
      · split at h
        · cases h
        · cases h
  · split at h
    · cases h
    · next group hgroups =>
        cases h
        have hmem : group ∈ groups (counting e.decisions) := by
          rw [counting, hgroups]
          exact List.mem_singleton_self group
        obtain ⟨c, hc, hgroup, hnewest⟩ := newest_mem hmem
        have hone : groups (counting e.decisions) = [groupOf (counting e.decisions) c.record] := by
          rw [hgroup]
          exact hgroups
        exact ⟨c, hc, hnewest, .inl hone⟩
    · cases h

/-- Nothing is concluded only while no record counts. -/
theorem resolved_eq_none {e : Evidence} (h : e.resolved = none) :
    ∀ c ∈ e.decisions, c.counts = false := by
  have hempty : groups (counting e.decisions) = [] := by
    rw [resolved] at h
    split at h
    · split at h
      · cases h
      · split at h
        · cases h
        · next hfound => exact not_not.1 hfound
    · split at h
      · next hfound => exact hfound
      · cases h
      · cases h
  intro c hc
  by_contra hcounts
  have hmem : groupOf (counting e.decisions) c.record ∈ groups (counting e.decisions) :=
    mem_groups.2 ⟨c, mem_counting.2 ⟨hc, by simpa using hcounts⟩, rfl⟩
  rw [hempty] at hmem
  cases hmem

end Resolution

end Evidence

end SearchTrust.Identity
