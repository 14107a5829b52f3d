/-
What interleaved lookups on one object promise: the budget, the reservation of every
request, the ledger that only grows, and a match that names one identity.
-/
import SearchTrust.Identity.LookupOrder
import SearchTrust.Identity.LookupRuns

namespace SearchTrust.Identity

open Evidence

/-- What holds in a state of the object. -/
structure LookupContract (lib : LookupLibrary) (settings : LookupSettings) (s : Lookups) :
    Prop where
  /-- At most three requests are sent for a case and a domain. -/
  budget : ∀ key, (s.sent key).length ≤ 3
  /-- A request is sent for an attempt of its own that is recorded and, where attempts are
  persisted, reserved. -/
  recorded : ∀ key number next, s.step lib settings (.provider key (.send number)) = some next →
    number ∉ s.sent key ∧
      (∃ ledger, s.ledgers key = some ledger ∧
        number ∈ ledger.attempts.map LookupAttempt.number) ∧
      (settings.persists = true → number ∈ s.reserved key)
  /-- It is sent by a call none of whose saved records is eligible and current, the first
  one of each key being taken. -/
  unsettled : ∀ key number next, s.step lib settings (.provider key (.send number)) = some next →
    ∃ call, s.running key = some call ∧ lookupKey lib call.asked = key ∧
      ∀ record ∈ freshRecords [] call.asked.savedRecords,
        (assessCandidate lib call.asked record).counts = false
  /-- However the run goes on, no attempt is dropped or renumbered. -/
  kept : ∀ events next key ledger, s.runs lib settings events = some next →
    s.ledgers key = some ledger →
      ∃ stored, next.ledgers key = some stored ∧ ledger.Extends stored ∧ stored.Numbered
  /-- A match names an eligible and current record of the only or of the selected group. -/
  matched : ∀ asked result, (asked, result) ∈ s.results →
    Justified asked.selectedBranchRef result
  /-- Two verified branches are no match unless one is selected. -/
  branches : ∀ asked result, (asked, result) ∈ s.results →
    Alignment.truthy asked.selectedBranchRef = false →
    ∀ c ∈ counting result.candidates, ∀ d ∈ counting result.candidates,
      groupOf (counting result.candidates) c.record ≠
        groupOf (counting result.candidates) d.record →
      result.status ≠ .matched
  /-- Two CIDs are two branches. -/
  cids : ∀ asked result, (asked, result) ∈ s.results →
    Alignment.truthy asked.selectedBranchRef = false →
    ∀ c ∈ counting result.candidates, ∀ d ∈ counting result.candidates,
      Alignment.truthy c.record.cid = true → Alignment.truthy d.record.cid = true →
      c.record.cid ≠ d.record.cid → result.status ≠ .matched

/-- The order of saved records whose keys identify them. -/
structure OrderContract (lib : LookupLibrary) (settings : LookupSettings)
    (request : GbpIdentityRequest) (records : List SavedGbpRecord) (domain : String)
    (ledger : GbpLookupLedger) : Prop where
  /-- It does not decide the status that is reached without a request. -/
  saved : (beginLookup lib settings request domain ledger).status =
    (beginLookup lib settings { request with savedRecords := records } domain ledger).status
  /-- With one order of refreshes, the same provider leads to the same status. -/
  asked : refreshes lib { request with savedRecords := records } = refreshes lib request →
    ∀ events,
      (turns lib settings ledger (beginLookup lib settings request domain ledger) events).map
          (fun last => last.2.status) =
        (turns lib settings ledger
          (beginLookup lib settings { request with savedRecords := records } domain ledger)
          events).map fun last => last.2.status

section Contract

variable {lib : LookupLibrary} {settings : LookupSettings} {s next : Lookups} {key : LookupKey}
  {number : Nat}

/-- A request that is sent was permitted to a running call. -/
theorem send_permitted (h : s.step lib settings (.provider key (.send number)) = some next) :
    number ∈ s.permits key ∧ ∃ call, s.running key = some call := by
  rw [Lookups.step] at h
  split at h
  · next call ledger hrunning hledger =>
      rw [Option.map_eq_some_iff] at h
      obtain ⟨turn, hadvance, -⟩ := h
      rw [advance] at hadvance
      split at hadvance
      · next hpermit =>
          refine ⟨?_, call, hrunning⟩
          rwa [Lookups.permits, hrunning]
      · cases hadvance
  · cases h

theorem not_sent_of_permitted (h : s.Sound lib settings key) (hpermit : number ∈ s.permits key) :
    number ∉ s.sent key := by
  intro hsent
  have hdisjoint := (List.nodup_append.1 h.counted.distinct).2.2
  exact hdisjoint number hsent number (List.mem_append_left _ hpermit) rfl

/-- A permitted attempt stands in the stored ledger. -/
theorem recorded_of_permitted (h : s.Sound lib settings key)
    (hpermit : number ∈ s.permits key) :
    ∃ ledger, s.ledgers key = some ledger ∧
      number ∈ ledger.attempts.map LookupAttempt.number := by
  have hrange := h.counted.recorded number
    (List.mem_append_right _ (List.mem_append_left _ hpermit))
  rw [Lookups.attemptCount] at hrange
  split at hrange
  · next ledger hledger =>
      refine ⟨ledger, hledger, ?_⟩
      rw [(h.numbered ledger hledger).numbers, List.mem_range'_1]
      omega
  · omega

theorem sent_length_le (h : s.Sound lib settings key) : (s.sent key).length ≤ 3 := by
  refine h.counted.length_sent_le.trans ?_
  rw [Lookups.attemptCount]
  split
  · next ledger hledger => exact (h.numbered ledger hledger).bound
  · exact Nat.zero_le _

/-- Without a selection no group is chosen. -/
theorem chosenGroup_eq_none {selected : Option String} (h : Alignment.truthy selected = false)
    (eligible : List CandidateDecision) : chosenGroup eligible selected = none := by
  cases selected with
  | none => rfl
  | some selected =>
      have hempty : selected = "" := not_not.1 (of_decide_eq_false h)
      subst hempty
      rfl

/-- A match without a selection has one group. -/
theorem not_matched_of_branches {selected : Option String} {result : GbpIdentityResult}
    (h : Justified selected result) (hselected : Alignment.truthy selected = false)
    {c d : CandidateDecision} (hc : c ∈ counting result.candidates)
    (hd : d ∈ counting result.candidates)
    (hne : groupOf (counting result.candidates) c.record ≠
      groupOf (counting result.candidates) d.record) : result.status ≠ .matched := by
  intro hmatched
  obtain ⟨chosen, -, -, hone | ⟨hselection, -⟩⟩ := h hmatched
  · have hcgroup := mem_groups.2 ⟨c, hc, rfl⟩
    have hdgroup := mem_groups.2 ⟨d, hd, rfl⟩
    rw [hone, List.mem_singleton] at hcgroup hdgroup
    exact hne (hcgroup.trans hdgroup.symm)
  · exact hselection (chosenGroup_eq_none hselected _)

/-- Records with different CIDs are of different groups. -/
theorem groupOf_ne_of_cid {eligible : List CandidateDecision} {a b : SavedGbpRecord}
    (ha : Alignment.truthy a.cid = true) (hb : Alignment.truthy b.cid = true)
    (hne : a.cid ≠ b.cid) : groupOf eligible a ≠ groupOf eligible b := by
  have hgroup : ∀ record : SavedGbpRecord, Alignment.truthy record.cid = true →
      groupOf eligible record = some ("cid:" ++ Alignment.orEmpty record.cid) := by
    intro record hrecord
    rw [groupOf, hrecord, branch, if_pos hrecord]
  rw [hgroup a ha, hgroup b hb]
  intro heq
  have htexts := (String.append_right_inj "cid:").1 (Option.some.inj heq)
  cases hacid : a.cid with
  | none => rw [hacid] at ha; exact Bool.noConfusion ha
  | some x =>
      cases hbcid : b.cid with
      | none => rw [hbcid] at hb; exact Bool.noConfusion hb
      | some y =>
          rw [hacid, hbcid] at htexts
          exact hne (by rw [hacid, hbcid]; exact congrArg some htexts)

/-- Interleaved lookups keep to their budget, record and reserve what they send, and
match one identity; the order of the saved records does not decide what these give. -/
theorem identity_lookups_keep_contract (lib : LookupLibrary) (settings : LookupSettings) :
    (∀ s, Reachable lib settings s → LookupContract lib settings s) ∧
      ∀ request records domain ledger, KeysIdentify request.savedRecords →
        request.savedRecords.Perm records →
        OrderContract lib settings request records domain ledger := by
  constructor
  · intro s hreachable
    have hsound := Lookups.sound_of_reachable hreachable
    have hjustified := Lookups.justified_of_reachable hreachable
    refine ⟨fun key => sent_length_le (hsound key), ?_, ?_, ?_,
      fun asked result hmem => hjustified _ hmem, ?_, ?_⟩
    · intro key number next hstep
      obtain ⟨hpermit, -⟩ := send_permitted hstep
      exact ⟨not_sent_of_permitted (hsound key) hpermit,
        recorded_of_permitted (hsound key) hpermit,
        fun hpersists => (hsound key).counted.held hpersists number
          (List.mem_append_right _ hpermit)⟩
    · intro key number next hstep
      obtain ⟨-, call, hrunning⟩ := send_permitted hstep
      obtain ⟨hkey, hunsettled⟩ := (hsound key).waiting call hrunning
      exact ⟨call, hrunning, hkey, fun record hrecord =>
        hunsettled.none_counts _ (hunsettled.saved record hrecord)⟩
    · intro events next key ledger hruns hledger
      have hrun := Lookups.runs_sound hsound hruns
      obtain ⟨stored, hstored, hextends⟩ := hrun.kept key ledger hledger
      exact ⟨stored, hstored, hextends, (hrun.sound key).numbered stored hstored⟩
    · intro asked result hmem hselected c hc d hd hne
      exact not_matched_of_branches (hjustified _ hmem) hselected hc hd hne
    · intro asked result hmem hselected c hc d hd hccid hdcid hne
      exact not_matched_of_branches (hjustified _ hmem) hselected hc hd
        (groupOf_ne_of_cid hccid hdcid hne)
  · intro request records domain ledger hkeys hperm
    exact ⟨beginLookup_status hkeys hperm domain ledger,
      fun hrefreshes => turns_status hkeys hperm hrefreshes domain ledger⟩

end Contract

section Samples

/-- Texts as they are, and a URL that is its own host. -/
def sampleLibrary : LookupLibrary where
  nfkc := id
  casefold := id
  isWord := Char.isAlphanum
  isDecimal := Char.isDigit
  parsePhone _ _ := none
  tagAddress _ := none
  urlsplit value := some ⟨"https", false, false, some value⟩
  idna := some
  lower := id
  lowerText := id
  isDigits value := value.all fun c => 48 ≤ c && c ≤ 57
  readLink _ := none
  dataCid _ := none

/-- A lookup that may ask, with a ledger to save. -/
def sampleSettings : LookupSettings := ⟨true, true, true⟩

def sampleChecksum : String :=
  "sha256:aaaaaaaaaaaaaaaaaaaaaaaaaaaaaaaaaaaaaaaaaaaaaaaaaaaaaaaaaaaaaaaa"

/-- A saved record of a website. -/
def sampleRecord (recordId website cid : String) (expiresAt : Option Jobs.Instant) :
    SavedGbpRecord :=
  { sourceRef := "saved"
    recordId
    payloadChecksum := sampleChecksum
    observedAt := 0
    expiresAt
    kind := .lookup
    businessName := some "Shop"
    websiteUrl := some website
    cid := some cid }

def sampleRequest (records : List SavedGbpRecord) : GbpIdentityRequest :=
  { caseRef := "case"
    siteUrl := "a.example"
    targetMarket := { displayName := "Austin", countryCode := "US" }
    evaluatedAt := 10
    savedRecords := records
    marketCollected := true }

def sampleKey : LookupKey := ("case", some "a.example")

def sampleLedger : GbpLookupLedger := { caseRef := "case", normalizedDomain := "a.example" }

/-- A call is made, and its first request is reserved and sent. -/
def sampleRun (records : List SavedGbpRecord) : List LookupEvent :=
  [.call (sampleRequest records) none, .provider sampleKey .before,
    .provider sampleKey (.reserved 1 true), .provider sampleKey (.send 1)]

/-- A provider that knows the first place and fails for the second. -/
def sampleAnswer (query : LookupQuery) : List ProviderEvent :=
  if query = .place (.cid (Market.text "1")) then
    [.before, .reserved 1 true, .send 1, .after false,
      .respond (.dict [("place_results", .dict [("title", .str (Market.text "Shop")),
        ("website", .str (Market.text "a.example")), ("data_cid", .str (Market.text "1"))])])
        sampleChecksum 20]
  else [.before, .reserved 1 true, .send 1, .raised]

/-- The status of a lookup whose first request gets the provider's answer. -/
def sampleStatus (records : List SavedGbpRecord) : Option LookupStatus :=
  match beginLookup sampleLibrary sampleSettings (sampleRequest records) "a.example"
      sampleLedger with
  | .finished result => some result.status
  | .asking state =>
      (turns sampleLibrary sampleSettings sampleLedger (.asking state)
        (sampleAnswer state.query)).bind fun last => last.2.status

/-- The contract in a run that sends a request. -/
theorem identity_lookups_keep_contract_sample :
    ∃ s, Lookups.initial.runs sampleLibrary sampleSettings
        (sampleRun [sampleRecord "1" "a.example" "1" (some 5)]) = some s ∧
      s.sent sampleKey = [1] ∧ LookupContract sampleLibrary sampleSettings s ∧
      OrderContract sampleLibrary sampleSettings
        (sampleRequest [sampleRecord "1" "a.example" "1" none,
          sampleRecord "2" "b.example" "2" none])
        [sampleRecord "2" "b.example" "2" none, sampleRecord "1" "a.example" "1" none]
        "a.example" sampleLedger := by
  have hrun : ((Lookups.initial.runs sampleLibrary sampleSettings
      (sampleRun [sampleRecord "1" "a.example" "1" (some 5)])).map fun s =>
        s.sent sampleKey) = some [1] := by with_unfolding_all decide
  obtain ⟨s, hs, hsent⟩ := Option.map_eq_some_iff.1 hrun
  have hcontract := identity_lookups_keep_contract sampleLibrary sampleSettings
  refine ⟨s, hs, hsent, hcontract.1 s ⟨_, hs⟩, hcontract.2 _ _ _ _ ?_ ?_⟩
  · unfold KeysIdentify
    decide
  · exact List.Perm.swap _ _ _

/-- The order of the saved records does matter: of two records of one key the first is
taken, so that a request is sent although a record is eligible and current, and the
expired records are asked for in their order. -/
theorem identity_lookups_depend_on_order :
    (sampleStatus [sampleRecord "1" "a.example" "1" none, sampleRecord "1" "b.example" "1" none]
        = some .matched ∧
      ((Lookups.initial.runs sampleLibrary sampleSettings
        (sampleRun [sampleRecord "1" "b.example" "1" none,
          sampleRecord "1" "a.example" "1" none])).map fun s => s.sent sampleKey) = some [1] ∧
      (assessCandidate sampleLibrary
        (sampleRequest [sampleRecord "1" "b.example" "1" none,
          sampleRecord "1" "a.example" "1" none])
        (sampleRecord "1" "a.example" "1" none)).counts = true) ∧
    sampleStatus [sampleRecord "1" "a.example" "1" (some 5),
        sampleRecord "2" "a.example" "2" (some 5)] = some .matched ∧
      sampleStatus [sampleRecord "2" "a.example" "2" (some 5),
        sampleRecord "1" "a.example" "1" (some 5)] = some .lookupNotChecked := by
  with_unfolding_all decide

end Samples

end SearchTrust.Identity
