/-
The delivered order against the check of a delivery: the ranking puts dependencies before
layers, the check asks for both.
-/
import SearchTrust.Capability.CandidateOrder
import SearchTrust.Capability.DeliveryContract

namespace SearchTrust.Capability

open SearchTrust.Order SearchTrust.Report
open SearchTrust.Report.Outcomes

section Layers

variable {κ : Type} [LinearOrder κ]

/-- The layer of an entry. -/
def PriorityDecision.layer (e : PriorityDecision) : ℕ := prerequisiteRank e.prerequisite

/-- The least of the entries that wait for nothing. -/
structure LeadsPool (key : PriorityDecision → κ) (entries : List PriorityDecision)
    (first : PriorityDecision) : Prop where
  mem : first ∈ entries
  free : first.input.dependencies = []
  least : ∀ e ∈ entries, e.input.dependencies = [] → key first ≤ key e

/-- The least of the others that wait for nothing but the first. -/
structure FollowsLead (key : PriorityDecision → κ) (entries : List PriorityDecision)
    (first second : PriorityDecision) : Prop where
  mem : second ∈ entries
  other : second.id ≠ first.id
  ready : second.input.dependencies ⊆ [first.id]
  least : ∀ e ∈ entries, e.id ≠ first.id → e.input.dependencies ⊆ [first.id] →
    key second ≤ key e

/-- No entry that waits for the lead alone lies in a layer before it, and none that waits
for the second, and for nothing but these two, lies in a layer before the second. -/
structure LayersFit (key : PriorityDecision → κ) (entries : List PriorityDecision) : Prop where
  lead : ∀ first, LeadsPool key entries first → ∀ e ∈ entries,
    first.id ∈ e.input.dependencies → e.input.dependencies ⊆ [first.id] → first.layer ≤ e.layer
  second : ∀ first second, LeadsPool key entries first → FollowsLead key entries first second →
    ∀ e ∈ entries, second.id ∈ e.input.dependencies →
      e.input.dependencies ⊆ [first.id, second.id] → second.layer ≤ e.layer

end Layers

section Order

variable {κ : Type} [LinearOrder κ] {message : String} {key : PriorityDecision → κ}
  {entries ordered : List PriorityDecision}

/-- Every entry of the order is the least of those that were ready. -/
theorem orderEntries_least (h : orderEntries message key entries = .ok ordered)
    {before after : List PriorityDecision} {e : PriorityDecision}
    (hsplit : ordered = before ++ e :: after) :
    ∀ other ∈ entries, other.id ∉ before.map (·.id) →
      other.input.dependencies ⊆ before.map (·.id) → key e ≤ key other := by
  have hstep : ∀ (turns : ℕ) (front result : List PriorityDecision),
      scheduleFrom (nextEntry message key entries) turns front = .ok result →
        ∀ before e after, result = before ++ e :: after → front.length ≤ before.length →
          nextEntry message key entries before = .ok e := by
    intro turns
    induction turns with
    | zero =>
        intro front result hresult before e after hsplit hlength
        obtain rfl := Except.ok.inj hresult
        rw [hsplit, List.length_append, List.length_cons] at hlength
        omega
    | succ turns ih =>
        intro front result hresult before e after hsplit hlength
        have hprefix := scheduleFrom_prefix hresult
        unfold scheduleFrom at hresult
        split at hresult
        next => cases hresult
        next item hitem =>
          by_cases hsame : front.length = before.length
          · obtain ⟨rest, hrest⟩ := hprefix
            have hparts := hrest.trans hsplit
            obtain ⟨rfl, -⟩ := List.append_inj hparts hsame
            obtain ⟨back, hback⟩ := scheduleFrom_prefix hresult
            rw [hsplit, List.append_assoc, List.append_cancel_left_eq] at hback
            rw [← (List.cons.inj hback).1]
            exact hitem
          · refine ih _ result hresult before e after hsplit ?_
            rw [List.length_append, List.length_singleton]
            omega
  have hpick := hstep entries.length [] ordered h before e after hsplit (Nat.zero_le _)
  exact (nextEntry_ok hpick).2.2.2

theorem id_inj (hnodup : (entries.map (·.id)).Nodup) {a b : PriorityDecision}
    (ha : a ∈ entries) (hb : b ∈ entries) (h : a.id = b.id) : a = b :=
  List.inj_on_of_nodup_map hnodup ha hb h

/-- The first of the order leads the pool. -/
theorem leadsPool_iff (hnodup : (entries.map (·.id)).Nodup)
    (hkey : ∀ a ∈ entries, ∀ b ∈ entries, key a = key b → a.id = b.id)
    {first : PriorityDecision} {rest : List PriorityDecision}
    (h : orderEntries message key entries = .ok (first :: rest)) {e : PriorityDecision} :
    LeadsPool key entries e ↔ e = first := by
  obtain ⟨hperm, hready⟩ := orderEntries_ok h
  have hmem : first ∈ entries := hperm.subset List.mem_cons_self
  have hfree : first.input.dependencies = [] := List.subset_nil.1 hready.2.1
  have hleast : ∀ other ∈ entries, other.input.dependencies = [] → key first ≤ key other := by
    intro other hother hwaits
    have hpick := orderEntries_least h (List.nil_append (first :: rest)).symm
    refine hpick other hother List.not_mem_nil ?_
    rw [hwaits]
    exact List.nil_subset _
  constructor
  · rintro ⟨he, hefree, heleast⟩
    refine id_inj hnodup he hmem (hkey e he first hmem ?_)
    exact le_antisymm (heleast first hmem hfree) (hleast e he hefree)
  · rintro rfl
    exact ⟨hmem, hfree, hleast⟩

/-- The second of the order follows the lead. -/
theorem followsLead_iff (hnodup : (entries.map (·.id)).Nodup)
    (hkey : ∀ a ∈ entries, ∀ b ∈ entries, key a = key b → a.id = b.id)
    {first second : PriorityDecision} {rest : List PriorityDecision}
    (h : orderEntries message key entries = .ok (first :: second :: rest))
    {e : PriorityDecision} : FollowsLead key entries first e ↔ e = second := by
  obtain ⟨hperm, hready⟩ := orderEntries_ok h
  have hmem : second ∈ entries := hperm.subset (List.mem_cons_of_mem _ List.mem_cons_self)
  have hother : second.id ≠ first.id := by
    intro heq
    exact hready.2.2.1 (List.mem_singleton.2 heq)
  have hwaits : second.input.dependencies ⊆ [first.id] := hready.2.2.2.1
  have hleast : ∀ other ∈ entries, other.id ≠ first.id →
      other.input.dependencies ⊆ [first.id] → key second ≤ key other := by
    intro other hin hne hdeps
    have hpick := orderEntries_least h
      (show first :: second :: rest = [first] ++ second :: rest from rfl)
    exact hpick other hin (fun hmem => hne (List.mem_singleton.1 hmem)) hdeps
  constructor
  · rintro ⟨he, hne, hdeps, heleast⟩
    refine id_inj hnodup he hmem (hkey e he second hmem ?_)
    exact le_antisymm (heleast second hmem hother hwaits) (hleast e he hne hdeps)
  · rintro rfl
    exact ⟨hmem, hother, hwaits, hleast⟩

/-- What waits for the last of some ordered entries is none of them. -/
theorem not_mem_of_waits (h : orderEntries message key entries = .ok ordered)
    {front after : List PriorityDecision} {last e : PriorityDecision}
    (hsplit : ordered = front ++ last :: after) (hwaits : last.id ∈ e.input.dependencies)
    (he : e ∈ entries) : e.id ∉ (front ++ [last]).map (·.id) := by
  obtain ⟨hperm, hready⟩ := orderEntries_ok h
  have hnodup := (names_of_readyOrder hready).1
  intro hmem
  obtain ⟨other, hother, hid⟩ := List.mem_map.1 hmem
  have hin : other ∈ ordered := by
    rw [hsplit]
    rcases List.mem_append.1 hother with hfront | hlast
    · exact List.mem_append_left _ hfront
    · rw [List.mem_singleton.1 hlast]
      exact List.mem_append_right _ List.mem_cons_self
  obtain rfl := List.inj_on_of_nodup_map hnodup hin (hperm.symm.subset he) hid
  have hearlier : last.id ∈ front.map (·.id) := by
    rcases List.mem_append.1 hother with hfront | hlast
    · obtain ⟨before, back, rfl⟩ := List.append_of_mem hfront
      have hdeps := dependency_earlier hready
        (show ordered = before ++ other :: (back ++ last :: after) by
          rw [hsplit, List.append_assoc, List.cons_append])
      rw [List.map_append]
      exact List.mem_append_left _ (hdeps hwaits)
    · obtain rfl := List.mem_singleton.1 hlast
      exact dependency_earlier hready hsplit hwaits
  rw [hsplit, List.map_append, List.nodup_append] at hnodup
  exact hnodup.2.2 _ hearlier _ List.mem_cons_self rfl

/-- The next entry lies in no earlier layer exactly when nothing that became ready with the
last one does. -/
theorem layer_step_iff (hlayer : ∀ a b : PriorityDecision, key a ≤ key b → a.layer ≤ b.layer)
    (h : orderEntries message key entries = .ok ordered)
    {front after : List PriorityDecision} {last next : PriorityDecision}
    (hsplit : ordered = front ++ last :: next :: after) :
    (∀ e ∈ entries, last.id ∈ e.input.dependencies →
        e.input.dependencies ⊆ (front ++ [last]).map (·.id) → last.layer ≤ e.layer) ↔
      last.layer ≤ next.layer := by
  obtain ⟨hperm, hready⟩ := orderEntries_ok h
  have hnext : next ∈ entries := by
    refine hperm.subset ?_
    rw [hsplit]
    exact List.mem_append_right _ (List.mem_cons_of_mem _ List.mem_cons_self)
  have hcut : ordered = (front ++ [last]) ++ next :: after := by
    rw [hsplit, List.append_assoc, List.singleton_append]
  constructor
  · intro hall
    by_contra hless
    have hdeps := dependency_earlier hready hcut
    refine hless (hall next hnext ?_ hdeps)
    -- otherwise it was ready before the last one was taken
    by_contra hfree
    have hfront : next.input.dependencies ⊆ front.map (·.id) := by
      intro id hid
      have hin := hdeps hid
      rw [List.map_append, List.mem_append] at hin
      rcases hin with hin | hin
      · exact hin
      · rw [List.map_singleton, List.mem_singleton] at hin
        exact absurd (hin ▸ hid) hfree
    have hfresh : next.id ∉ front.map (·.id) := by
      have hnodup := (names_of_readyOrder hready).1
      rw [hsplit, List.map_append, List.nodup_append] at hnodup
      intro hin
      exact hnodup.2.2 _ hin _ (List.mem_cons_of_mem _ List.mem_cons_self) rfl
    exact hless (hlayer _ _ (orderEntries_least h hsplit next hnext hfresh hfront))
  · intro hle e he hwaits hdeps
    have hfresh := not_mem_of_waits h hsplit hwaits he
    exact hle.trans (hlayer _ _ (orderEntries_least h hcut e he hfresh hdeps))

/-- Nothing waits for the last of all. -/
theorem nothing_waits (h : orderEntries message key entries = .ok ordered)
    {front : List PriorityDecision} {last e : PriorityDecision}
    (hsplit : ordered = front ++ [last]) (he : e ∈ entries) :
    last.id ∉ e.input.dependencies := by
  intro hwaits
  have hfresh := not_mem_of_waits h hsplit hwaits he
  rw [← hsplit] at hfresh
  exact hfresh (List.mem_map_of_mem ((orderEntries_ok h).1.symm.subset he))

/-- The layers of the first three do not fall exactly when the layers of the pool fit. -/
theorem layersFit_iff (hlayer : ∀ a b : PriorityDecision, key a ≤ key b → a.layer ≤ b.layer)
    (hnodup : (entries.map (·.id)).Nodup)
    (hkey : ∀ a ∈ entries, ∀ b ∈ entries, key a = key b → a.id = b.id)
    (h : orderEntries message key entries = .ok ordered) :
    LayersFit key entries ↔ List.IsChain (· ≤ ·) ((ordered.take 3).map (·.layer)) := by
  cases ordered with
  | nil =>
      have hempty : ∀ e, e ∉ entries := fun e he =>
        List.not_mem_nil ((orderEntries_ok h).1.symm.subset he)
      refine iff_of_true ⟨fun first hfirst => ?_, fun first _ hfirst => ?_⟩ List.isChain_nil
      · exact absurd hfirst.mem (hempty first)
      · exact absurd hfirst.mem (hempty first)
  | cons first rest =>
      have hlead := fun e => leadsPool_iff hnodup hkey h (e := e)
      cases rest with
      | nil =>
          refine iff_of_true ⟨fun e he other hother hwaits => ?_, fun e other he hfollow => ?_⟩
            (List.isChain_singleton _)
          · obtain rfl := (hlead e).1 he
            exact absurd hwaits (nothing_waits h (List.nil_append _).symm hother)
          · obtain rfl := (hlead e).1 he
            have hin := (orderEntries_ok h).1.symm.subset hfollow.mem
            rw [List.mem_singleton.1 hin] at hfollow
            exact absurd rfl hfollow.other
      | cons second rest =>
          have hsecond := fun e => followsLead_iff hnodup hkey h (e := e)
          have hfirst := layer_step_iff hlayer h (List.nil_append (first :: second :: rest)).symm
          have hleads : (∀ e ∈ entries, first.id ∈ e.input.dependencies →
              e.input.dependencies ⊆ [first.id] → first.layer ≤ e.layer) ↔
              first.layer ≤ second.layer := hfirst
          have hfit : LayersFit key entries ↔ first.layer ≤ second.layer ∧
              ∀ e ∈ entries, second.id ∈ e.input.dependencies →
                e.input.dependencies ⊆ [first.id, second.id] → second.layer ≤ e.layer := by
            rw [← hleads]
            constructor
            · rintro ⟨hone, htwo⟩
              exact ⟨hone first ((hlead first).2 rfl),
                htwo first second ((hlead first).2 rfl) ((hsecond second).2 rfl)⟩
            · rintro ⟨hone, htwo⟩
              refine ⟨fun e he => ?_, fun e other he hfollow => ?_⟩
              · obtain rfl := (hlead e).1 he
                exact hone
              · obtain rfl := (hlead e).1 he
                obtain rfl := (hsecond other).1 hfollow
                exact htwo
          rw [hfit]
          cases rest with
          | nil =>
              have hpair : first :: [second] = [first] ++ [second] := rfl
              have hnone : ∀ e ∈ entries, second.id ∈ e.input.dependencies →
                  e.input.dependencies ⊆ [first.id, second.id] → second.layer ≤ e.layer :=
                fun e he hwaits => absurd hwaits (nothing_waits h hpair he)
              simp only [List.take_succ_cons, List.take_nil, List.map_cons, List.map_nil,
                List.isChain_cons_cons, List.isChain_singleton, and_true]
              exact ⟨fun hboth => hboth.1, fun hone => ⟨hone, hnone⟩⟩
          | cons third rest =>
              have hstep := layer_step_iff hlayer h
                (show first :: second :: third :: rest = [first] ++ second :: third :: rest from rfl)
              have hthird : (∀ e ∈ entries, second.id ∈ e.input.dependencies →
                  e.input.dependencies ⊆ [first.id, second.id] → second.layer ≤ e.layer) ↔
                  second.layer ≤ third.layer := hstep
              rw [hthird]
              simp only [List.take_succ_cons, List.take_zero, List.map_cons, List.map_nil,
                List.isChain_cons_cons, List.isChain_singleton, and_true]

end Order

section Delivered

variable {trace : PrioritizationTrace} {ordered : List PriorityDecision}

/-- The first three of the order are delivered. -/
theorem chosenIds_settleFirst {chosen : List String}
    (hnone : ∀ e ∈ ordered, e.selectedOrder = none) :
    chosenIds (settleEntries settleFirst chosen ordered) =
      (ordered.take (3 - chosen.length)).map (·.id) := by
  induction ordered generalizing chosen with
  | nil => simp [settleEntries, chosenIds]
  | cons e rest ih =>
      have hrest : ∀ chosen, chosenIds (settleEntries settleFirst chosen rest) =
          (rest.take (3 - chosen.length)).map (·.id) :=
        fun chosen => ih fun other hother => hnone other (List.mem_cons_of_mem _ hother)
      have hnoneE := hnone e List.mem_cons_self
      rw [settleEntries, chosenIds_cons]
      by_cases hroom : chosen.length < 3
      · have hsettled : settleFirst chosen e = { e with selectedOrder := some (chosen.length + 1) } :=
          if_pos hroom
        rw [hsettled]
        simp only [Option.isSome_some, ↓reduceIte, hrest, List.length_append,
          List.length_singleton]
        have hcount : 3 - chosen.length = (3 - (chosen.length + 1)) + 1 := by omega
        rw [hcount, List.take_succ_cons]
        rfl
      · have hsettled : settleFirst chosen e =
            { e with reasonCodes := e.reasonCodes ++ ["outside_delivery_budget"] } :=
          if_neg hroom
        have hcount : 3 - chosen.length = 0 := by omega
        rw [hsettled]
        simp only [hnoneE, Option.isSome_none, Bool.false_eq_true, ↓reduceIte, hrest, hcount,
          List.take_zero, List.map_nil, List.nil_append]

/-- An entry of the trace is found under its name. -/
theorem find?_candidates (hnodup : (trace.candidates.map (·.id)).Nodup) {c : PriorityDecision}
    (hc : c ∈ trace.candidates) :
    trace.candidates.reverse.find? (fun e => e.input.actionId = c.id) = some c := by
  have hback : (trace.candidates.reverse.map fun e : PriorityDecision => e.id).Nodup := by
    rw [List.map_reverse]
    exact List.nodup_reverse.2 hnodup
  exact find?_key_eq hback (List.mem_reverse.2 hc)

/-- The check of some ordered entries asks for layers that do not fall. -/
theorem orderedByLayer_iff (hnodup : (trace.candidates.map (·.id)).Nodup)
    (hcore : ∀ e ∈ ordered, ∃ c ∈ trace.candidates, c.core = e.core)
    {seen : List String} {layer : ℕ}
    (hready : ReadyOrder (·.id) (·.input.dependencies) seen ordered) :
    orderedByLayer trace seen layer (ordered.map (·.id)) = true ↔
      List.IsChain (· ≤ ·) (layer :: ordered.map (·.layer)) := by
  induction ordered generalizing seen layer with
  | nil => simp [orderedByLayer]
  | cons e rest ih =>
      obtain ⟨c, hc, hsame⟩ := hcore e List.mem_cons_self
      obtain ⟨-, hdeps, hrest⟩ := hready
      have hinput := input_of_core hsame
      have hid : c.id = e.id := congrArg (·.actionId) hinput
      have hfound := find?_candidates hnodup hc
      rw [hid] at hfound
      have hnext : orderedByLayer trace (seen ++ [e.id]) e.layer (rest.map (·.id)) = true ↔
          List.IsChain (· ≤ ·) (e.layer :: rest.map (·.layer)) :=
        ih (fun other hother => hcore other (List.mem_cons_of_mem _ hother)) hrest
      have hlayer : prerequisiteRank c.prerequisite = e.layer := by
        rw [prerequisite_of_core hsame]
        rfl
      rw [List.map_cons, orderedByLayer, hfound]
      simp only [hlayer, hinput, Bool.and_eq_true, decide_eq_true_eq, hdeps, and_true, hnext]
      rw [List.map_cons, List.isChain_cons_cons]

end Delivered

section Linked

variable (lib : Library) (rules : RulesVersion) (business : BusinessScope)

/-- The entry of a candidate, for the findings that are linked to it. -/
def entryFrom (candidate : PriorityCandidateInput) :
    List CapabilityFinding → Option PriorityDecision
  | [] => none
  | first :: rest => some (entryOf lib rules business candidate first rest)

/-- One finding for each id that a candidate names. -/
def Linked (findings : List CapabilityFinding) (candidate : PriorityCandidateInput)
    (linked : List CapabilityFinding) : Prop :=
  List.Forall₂ (fun key f => f ∈ findings ∧ f.id = key) candidate.findingIds linked

/-- Where findings share an id, it makes no difference which of them a candidate means. -/
def Unambiguous (inputs : List PriorityCandidateInput) (findings : List CapabilityFinding) :
    Prop :=
  ∀ c ∈ inputs, ∀ linked others, Linked findings c linked → Linked findings c others →
    entryFrom lib rules business c linked = entryFrom lib rules business c others

/-- The entries of the candidates. -/
def inputEntries (inputs : List PriorityCandidateInput) (findings : List CapabilityFinding) :
    List PriorityDecision :=
  inputs.filterMap fun c => entryFrom lib rules business c (linkedFindings findings c)

variable {lib rules business} {inputs : List PriorityCandidateInput}
  {findings : List CapabilityFinding} {candidate : PriorityCandidateInput} {ids : List String}
  {e : PriorityDecision}

/-- Findings with different ids leave nothing open. -/
theorem unambiguous_of_nodup (h : (findings.map (·.id)).Nodup) :
    Unambiguous lib rules business inputs findings := by
  intro c _ linked others hlinked hothers
  have hsame : linked = others := by
    have hpairs : ∀ (keys : List String) (linked others : List CapabilityFinding),
        List.Forall₂ (fun key f => f ∈ findings ∧ f.id = key) keys linked →
        List.Forall₂ (fun key f => f ∈ findings ∧ f.id = key) keys others → linked = others := by
      intro keys
      induction keys with
      | nil =>
          intro linked others hlinked hothers
          rw [List.forall₂_nil_left_iff.1 hlinked, List.forall₂_nil_left_iff.1 hothers]
      | cons key keys ih =>
          intro linked others hlinked hothers
          obtain ⟨f, rest, hf, hrest, rfl⟩ := List.forall₂_cons_left_iff.1 hlinked
          obtain ⟨g, back, hg, hback, rfl⟩ := List.forall₂_cons_left_iff.1 hothers
          rw [ih rest back hrest hback,
            List.inj_on_of_nodup_map h hf.1 hg.1 (hf.2.trans hg.2.symm)]
    exact hpairs _ _ _ hlinked hothers
  rw [hsame]

theorem priorityEntry_eq : priorityEntry lib rules business ids findings candidate =
    if isCanonical candidate = true then
      if referencesFit ids findings candidate = true then
        match entryFrom lib rules business candidate (linkedFindings findings candidate) with
        | none => .error "invalid priority references"
        | some e => .ok e
      else .error "invalid priority references"
    else .error "noncanonical priority input" := by
  unfold priorityEntry
  cases isCanonical candidate with
  | false => rfl
  | true =>
    cases referencesFit ids findings candidate with
    | false => rfl
    | true =>
      cases linkedFindings findings candidate with
      | nil => rfl
      | cons first rest => rfl

theorem priorityEntry_ok_iff : priorityEntry lib rules business ids findings candidate = .ok e ↔
    isCanonical candidate = true ∧ referencesFit ids findings candidate = true ∧
      entryFrom lib rules business candidate (linkedFindings findings candidate) = some e := by
  rw [priorityEntry_eq]
  constructor
  · intro h
    split at h
    · next hcanonical =>
      split at h
      · next hreferences =>
        split at h
        · cases h
        · next found hfound =>
          obtain rfl := Except.ok.inj h
          exact ⟨hcanonical, hreferences, hfound⟩
      · cases h
    · cases h
  · rintro ⟨hcanonical, hreferences, hfound⟩
    rw [if_pos hcanonical, if_pos hreferences, hfound]

/-- An entry is new, and its codes tell what it holds. -/
theorem entryFrom_settled {linked : List CapabilityFinding}
    (h : entryFrom lib rules business candidate linked = some e) :
    e.selectedOrder = none ∧ e.input = candidate ∧
      e.reasonCodes = reasonCodesOf rules business e.input e.prerequisite e.businessMatch
        e.evidenceSupport e.execution e.severity e.confidence := by
  cases linked with
  | nil => cases h
  | cons first rest =>
      obtain rfl := Option.some.inj h
      exact ⟨rfl, rfl, rfl⟩

theorem entry_eq_of_core {linked others : List CapabilityFinding} {other : PriorityDecision}
    (h : entryFrom lib rules business candidate linked = some e)
    (hother : entryFrom lib rules business candidate others = some other)
    (hcore : e.core = other.core) : e = other := by
  obtain ⟨horder, -, hcodes⟩ := entryFrom_settled h
  obtain ⟨horderOther, -, hcodesOther⟩ := entryFrom_settled hother
  have hrebuild : ∀ d : PriorityDecision,
      d = { d.core with reasonCodes := d.reasonCodes, selectedOrder := d.selectedOrder } :=
    fun _ => rfl
  have hsame : e.reasonCodes = other.reasonCodes := by
    rw [hcodes, hcodesOther]
    have hfields := congrArg (fun d : PriorityDecision =>
      reasonCodesOf rules business d.input d.prerequisite d.businessMatch d.evidenceSupport
        d.execution d.severity d.confidence) hcore
    exact hfields
  rw [hrebuild e, hrebuild other, hcore, hsame, horder, horderOther]

end Linked

section Agreement

variable {lib : Library} {inputs : List PriorityCandidateInput}
  {findings : List CapabilityFinding} {business : BusinessScope} {checksum : Checksum}
  {rules : RulesVersion} {trace : PrioritizationTrace}

theorem layer_le_of_priorityKey_le (a b : PriorityDecision)
    (h : priorityKey rules business a ≤ priorityKey rules business b) : a.layer ≤ b.layer := by
  unfold priorityKey at h
  rw [Prod.Lex.toLex_le_toLex] at h
  rcases h with h | ⟨h, -⟩
  · exact Nat.le_of_lt h
  · exact Nat.le_of_eq h

theorem id_of_priorityKey_eq {a b : PriorityDecision}
    (h : priorityKey rules business a = priorityKey rules business b) : a.id = b.id := by
  simp only [priorityKey, toLex_inj, Prod.mk.injEq] at h
  exact h.2.2.2.2.2.2.2

theorem layersFit_congr {κ : Type} [LinearOrder κ] {key : PriorityDecision → κ}
    {entries others : List PriorityDecision} (h : ∀ e, e ∈ entries ↔ e ∈ others) :
    LayersFit key entries ↔ LayersFit key others := by
  have hlead : ∀ first, LeadsPool key entries first ↔ LeadsPool key others first := by
    intro first
    constructor
    · rintro ⟨hmem, hfree, hleast⟩
      exact ⟨(h first).1 hmem, hfree, fun e he => hleast e ((h e).2 he)⟩
    · rintro ⟨hmem, hfree, hleast⟩
      exact ⟨(h first).2 hmem, hfree, fun e he => hleast e ((h e).1 he)⟩
  have hfollow : ∀ first second,
      FollowsLead key entries first second ↔ FollowsLead key others first second := by
    intro first second
    constructor
    · rintro ⟨hmem, hother, hready, hleast⟩
      exact ⟨(h second).1 hmem, hother, hready, fun e he => hleast e ((h e).2 he)⟩
    · rintro ⟨hmem, hother, hready, hleast⟩
      exact ⟨(h second).2 hmem, hother, hready, fun e he => hleast e ((h e).1 he)⟩
  constructor
  · rintro ⟨hone, htwo⟩
    exact ⟨fun first hfirst e he => hone first ((hlead first).2 hfirst) e ((h e).2 he),
      fun first second hfirst hsecond e he => htwo first second ((hlead first).2 hfirst)
        ((hfollow first second).2 hsecond) e ((h e).2 he)⟩
  · rintro ⟨hone, htwo⟩
    exact ⟨fun first hfirst e he => hone first ((hlead first).1 hfirst) e ((h e).1 he),
      fun first second hfirst hsecond e he => htwo first second ((hlead first).1 hfirst)
        ((hfollow first second).1 hsecond) e ((h e).1 he)⟩

/-- The entries of an accepted input are those of its candidates. -/
theorem mem_entries_iff {entries : List PriorityDecision}
    (h : (sortedBy (·.actionId) inputs).mapM
      (priorityEntry lib rules business (inputs.map (·.actionId)) findings) = .ok entries)
    (e : PriorityDecision) : e ∈ entries ↔ e ∈ inputEntries lib rules business inputs findings := by
  have hpairs := forall₂_of_mapM_ok h
  rw [inputEntries, List.mem_filterMap]
  constructor
  · intro he
    obtain ⟨c, hc, hentry⟩ := exists_left_of_mem hpairs he
    exact ⟨c, mem_sortedBy.1 hc, (priorityEntry_ok_iff.1 hentry).2.2⟩
  · rintro ⟨c, hc, hentry⟩
    obtain ⟨other, hother, hok⟩ := exists_right_of_mem hpairs (mem_sortedBy.2 hc)
    have hsame := (priorityEntry_ok_iff.1 hok).2.2
    rw [hentry, Option.some.injEq] at hsame
    rw [hsame]
    exact hother

/-- The delivered order passes the check of a delivery exactly when the layers fit. -/
theorem validDeliveryOrder_iff
    (h : prioritizeFirst lib inputs findings business checksum rules = .ok trace) :
    validDeliveryOrder trace.actionOrder trace = true ↔
      LayersFit (priorityKey rules business) (inputEntries lib rules business inputs findings) := by
  have hfit := prioritizeFirst_isOk.1 ⟨trace, h⟩
  have htrace := (prioritizeFirst_candidates h).1
  obtain ⟨entries, ordered, hentries, hordered, rfl⟩ := prioritizeFirst_ok h
  have hperm : (entries.map (·.input)).Perm inputs := by
    rw [entries_inputs hentries]
    exact sortedBy_perm _ inputs
  have hnodup := (entries_fit hfit.distinct hfit.references hperm).1
  obtain ⟨horderedPerm, hready⟩ := orderEntries_ok hordered
  have hnone : ∀ e ∈ ordered, e.selectedOrder = none := by
    intro e he
    obtain ⟨c, -, hc⟩ := exists_left_of_mem (forall₂_of_mapM_ok hentries) (horderedPerm.subset he)
    exact (entryFrom_settled (priorityEntry_ok_iff.1 hc).2.2).1
  have hactions : chosenIds (settleEntries settleFirst [] ordered) =
      (ordered.take 3).map (·.id) := chosenIds_settleFirst hnone
  have hcore := map_core_writtenEntries (map_core_settleEntries [] core_settleFirst)
    horderedPerm hnodup
  have hwritten : ∀ e ∈ ordered.take 3, ∃ c ∈ writtenEntries entries
      (settleEntries settleFirst [] ordered), c.core = e.core := by
    intro e he
    have hmem : e.core ∈ (writtenEntries entries
        (settleEntries settleFirst [] ordered)).map (·.core) := by
      rw [hcore]
      exact List.mem_map_of_mem (horderedPerm.subset (List.mem_of_mem_take he))
    obtain ⟨c, hc, hsame⟩ := List.mem_map.1 hmem
    exact ⟨c, hc, hsame⟩
  have htake : ReadyOrder (fun e : PriorityDecision => e.id) (·.input.dependencies) []
      (ordered.take 3) := by
    rw [← List.take_append_drop 3 ordered, readyOrder_append] at hready
    exact hready.1
  have hchain := fun layer => @orderedByLayer_iff _ _ htrace hwritten [] layer htake
  have hstart : List.IsChain (· ≤ ·) (0 :: (ordered.take 3).map (·.layer)) ↔
      List.IsChain (· ≤ ·) ((ordered.take 3).map (·.layer)) := by
    cases (ordered.take 3).map (·.layer) with
    | nil => simp
    | cons layer rest => simp
  rw [validDeliveryOrder]
  simp only [hactions] at hchain ⊢
  simp only [Bool.and_eq_true, decide_eq_true_eq, List.Subset.refl, and_true]
  rw [hchain, hstart, ← layersFit_congr (mem_entries_iff hentries),
    layersFit_iff layer_le_of_priorityKey_le hnodup
      (fun a _ b _ heq => id_of_priorityKey_eq heq) hordered]
  exact and_iff_right (names_of_readyOrder htake).1

/-- The ranking does not look at the order of candidates, and at that of findings only
where they share an id. -/
theorem prioritizeFirst_perm (hclear : Unambiguous lib rules business inputs findings)
    {others : List PriorityCandidateInput} {known : List CapabilityFinding}
    (hothers : others.Perm inputs) (hknown : known.Perm findings)
    (h : prioritizeFirst lib inputs findings business checksum rules = .ok trace) :
    prioritizeFirst lib others known business checksum rules = .ok trace := by
  have hfit := prioritizeFirst_isOk.1 ⟨trace, h⟩
  obtain ⟨entries, ordered, hentries, hordered, rfl⟩ := prioritizeFirst_ok h
  have hids := hothers.map (·.actionId)
  have hsorted : sortedBy (·.actionId) others = sortedBy (·.actionId) inputs :=
    sortedBy_eq_of_perm hothers (hids.nodup_iff.2 hfit.distinct)
  have hfindings := hknown.map (·.id)
  have hsame : (sortedBy (·.actionId) others).mapM
      (priorityEntry lib rules business (others.map (·.actionId)) known) = .ok entries := by
    rw [hsorted]
    refine mapM_ok_of_forall₂ ?_
    have hpairs := forall₂_of_mapM_ok hentries
    have hmem := (List.forall₂_and_left _ _).2 ⟨fun c hc => mem_sortedBy.1 hc, hpairs⟩
    refine hmem.imp fun c e ⟨hc, hentry⟩ => ?_
    obtain ⟨hcanonical, hreferences, hfrom⟩ := priorityEntry_ok_iff.1 hentry
    obtain ⟨hdeps, hself, hne, hfound⟩ := referencesFit_iff.1 hreferences
    refine priorityEntry_ok_iff.2 ⟨hcanonical, referencesFit_iff.2
      ⟨fun id hid => hids.symm.subset (hdeps hid), hself, hne,
        fun id hid => hfindings.symm.subset (hfound hid)⟩, ?_⟩
    rw [← hfrom]
    refine hclear c hc _ _ ?_ (forall₂_linkedFindings hfound)
    exact (forall₂_linkedFindings fun id hid => hfindings.symm.subset (hfound hid)).imp
      fun key f hf => ⟨hknown.subset hf.1, hf.2⟩
  have hdistinct : require (decide (others.map (·.actionId)).Nodup)
      "duplicate priority candidate" = .ok () :=
    require_eq_ok.2 (decide_eq_true (hids.nodup_iff.2 hfit.distinct))
  simp only [prioritizeFirst, hdistinct, ok_bind, hsame, hordered]
  rfl

theorem findingById_append {front back : List CapabilityFinding}
    (hnodup : (back.map (·.id)).Nodup) {f : CapabilityFinding} (hf : f ∈ back) :
    findingById (front ++ back) f.id = some f := by
  have hback : (back.reverse.map fun g : CapabilityFinding => g.id).Nodup := by
    rw [List.map_reverse]
    exact List.nodup_reverse.2 hnodup
  have hfound : back.reverse.find? (fun g => g.id = f.id) = some f :=
    find?_key_eq hback (List.mem_reverse.2 hf)
  rw [findingById, List.reverse_append, List.find?_append, hfound]
  rfl

/-- Any findings that a candidate may mean are linked to it for some order of all. -/
theorem exists_perm_linked {candidate : PriorityCandidateInput}
    {linked : List CapabilityFinding} (hkeys : candidate.findingIds.Nodup)
    (h : Linked findings candidate linked) :
    ∃ known : List CapabilityFinding, known.Perm findings ∧
      linkedFindings known candidate = linked := by
  have hids : linked.map (·.id) = candidate.findingIds :=
    map_eq_of_forall₂ (h.imp fun _ _ hpair => hpair.2)
  have hnodupIds : (linked.map (·.id)).Nodup := hids ▸ hkeys
  have hsub : linked.Subperm findings := by
    refine List.subperm_of_subset (List.Nodup.of_map _ hnodupIds) fun f hf => ?_
    obtain ⟨key, -, hmem, -⟩ := exists_left_of_mem h hf
    exact hmem
  refine ⟨findings.diff linked ++ linked, ?_, ?_⟩
  · refine List.perm_append_comm.trans ?_
    exact List.subperm_append_diff_self_of_count_le (List.subperm_ext_iff.1 hsub)
  · rw [linkedFindings, ← hids, List.filterMap_map]
    have hall : ∀ f ∈ linked, (findingById (findings.diff linked ++ linked) ∘ (·.id)) f =
        (some ∘ id) f := fun f hf => findingById_append hnodupIds hf
    rw [List.filterMap_congr hall]
    simp

/-- The core of a candidate's entry stands in the trace. -/
theorem exists_core_of_linked
    (h : prioritizeFirst lib inputs findings business checksum rules = .ok trace)
    {c : PriorityCandidateInput} (hc : c ∈ inputs) :
    ∃ e, entryFrom lib rules business c (linkedFindings findings c) = some e ∧
      ∃ found ∈ trace.candidates, found.core = e.core := by
  have hfit := prioritizeFirst_isOk.1 ⟨trace, h⟩
  obtain ⟨entries, ordered, hentries, hordered, rfl⟩ := prioritizeFirst_ok h
  have hperm : (entries.map (·.input)).Perm inputs := by
    rw [entries_inputs hentries]
    exact sortedBy_perm _ inputs
  have hnodup := (entries_fit hfit.distinct hfit.references hperm).1
  have hcore := map_core_writtenEntries (map_core_settleEntries [] core_settleFirst)
    (orderEntries_ok hordered).1 hnodup
  obtain ⟨e, he, hentry⟩ :=
    exists_right_of_mem (forall₂_of_mapM_ok hentries) (mem_sortedBy.2 hc)
  refine ⟨e, (priorityEntry_ok_iff.1 hentry).2.2, ?_⟩
  have hmem : e.core ∈ (writtenEntries entries
      (settleEntries settleFirst [] ordered)).map (·.core) := by
    rw [hcore]
    exact List.mem_map_of_mem he
  obtain ⟨found, hfound, hsame⟩ := List.mem_map.1 hmem
  exact ⟨found, hfound, hsame⟩

/-- A trace that no order of the findings changes leaves nothing open. -/
theorem unambiguous_of_perm
    (h : prioritizeFirst lib inputs findings business checksum rules = .ok trace)
    (hall : ∀ known : List CapabilityFinding, known.Perm findings →
      prioritizeFirst lib inputs known business checksum rules = .ok trace) :
    Unambiguous lib rules business inputs findings := by
  have hfit := prioritizeFirst_isOk.1 ⟨trace, h⟩
  have hnodup := (prioritizeFirst_candidates h).1
  intro c hc linked others hlinked hothers
  have hkeys : c.findingIds.Nodup := by
    have hcanonical := hfit.canonical c hc
    simp only [isCanonical, Bool.and_eq_true, decide_eq_true_eq] at hcanonical
    rw [hcanonical.1.1.1]
    exact nodup_sortedSet _
  obtain ⟨known, hknown, rfl⟩ := exists_perm_linked hkeys hlinked
  obtain ⟨seen, hseen, rfl⟩ := exists_perm_linked hkeys hothers
  obtain ⟨e, he, found, hfound, hcore⟩ := exists_core_of_linked (hall known hknown) hc
  obtain ⟨d, hd, other, hother, hcoreOther⟩ := exists_core_of_linked (hall seen hseen) hc
  have hid : found.id = other.id := by
    have hone : found.id = c.actionId := by
      rw [← (entryFrom_settled he).2.1, ← input_of_core hcore]
    have htwo : other.id = c.actionId := by
      rw [← (entryFrom_settled hd).2.1, ← input_of_core hcoreOther]
    rw [hone, htwo]
  have hsame := List.inj_on_of_nodup_map hnodup hfound hother hid
  rw [he, hd, entry_eq_of_core he hd (by rw [← hcore, ← hcoreOther, hsame])]

end Agreement

section Sample

/-- The candidates of the two sample actions: the technical one waits for the other. -/
def sampleInputs : List PriorityCandidateInput :=
  [candidateInput weakAction, candidateInput technicalAction]

end Sample

end SearchTrust.Capability
