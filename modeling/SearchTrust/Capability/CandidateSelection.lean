/-
What the selection loop delivers: which candidates it takes, and that technical work
comes first among those that wait for nothing.
-/
import SearchTrust.Capability.CandidatePriority
import SearchTrust.Report.Outcomes

namespace SearchTrust.Capability

open SearchTrust.Order SearchTrust.Report
open SearchTrust.Report.Outcomes

/-- The name under which an entry is ordered. -/
abbrev PriorityDecision.id (e : PriorityDecision) : String := e.input.actionId

/-- What the loops leave alone in an entry. -/
def PriorityDecision.core (e : PriorityDecision) : PriorityDecision :=
  { e with reasonCodes := [], selectedOrder := none }

section Core

variable {e s : PriorityDecision}

theorem input_of_core (h : s.core = e.core) : s.input = e.input := by
  have hfield := congrArg PriorityDecision.input h
  exact hfield

theorem technical_of_core (h : s.core = e.core) :
    s.technicalFindingIds = e.technicalFindingIds := by
  have hfield := congrArg PriorityDecision.technicalFindingIds h
  exact hfield

theorem visible_of_core (h : s.core = e.core) : s.defaultVisible = e.defaultVisible := by
  have hfield := congrArg PriorityDecision.defaultVisible h
  exact hfield

theorem prerequisite_of_core (h : s.core = e.core) : s.prerequisite = e.prerequisite := by
  have hfield := congrArg PriorityDecision.prerequisite h
  exact hfield

theorem core_settleCandidate (chosen : List String) (e : PriorityDecision) :
    (settleCandidate chosen e).core = e.core := by
  unfold settleCandidate
  split <;> rfl

theorem core_settleFirst (chosen : List String) (e : PriorityDecision) :
    (settleFirst chosen e).core = e.core := by
  unfold settleFirst
  split <;> rfl

end Core

section Order

variable {κ : Type} [LinearOrder κ] {message : String} {key : PriorityDecision → κ}
  {entries ordered : List PriorityDecision} {e : PriorityDecision}

/-- What a turn of the selection loop takes. -/
theorem nextEntry_ok (h : nextEntry message key entries ordered = .ok e) :
    e ∈ entries ∧ e.id ∉ ordered.map (·.id) ∧
      e.input.dependencies ⊆ ordered.map (·.id) ∧
      ∀ other ∈ entries, other.id ∉ ordered.map (·.id) →
        other.input.dependencies ⊆ ordered.map (·.id) → key e ≤ key other := by
  simp only [nextEntry] at h
  split at h
  next => cases h
  next first rest hsorted =>
    obtain rfl := Except.ok.inj h
    have hmem : first ∈ sortedBy key (entries.filter fun e =>
        e.input.actionId ∉ ordered.map (·.input.actionId) ∧
          e.input.dependencies ⊆ ordered.map (·.input.actionId)) := by
      rw [hsorted]
      exact List.mem_cons_self
    rw [mem_sortedBy, List.mem_filter, decide_eq_true_eq] at hmem
    refine ⟨hmem.1, hmem.2.1, hmem.2.2, ?_⟩
    intro other hother hfresh hready
    refine head_sortedBy_le hsorted ?_
    rw [List.mem_filter, decide_eq_true_eq]
    exact ⟨hother, hfresh, hready⟩

theorem nextEntry_picksReady :
    PicksReady (·.id) (·.input.dependencies) entries (nextEntry message key entries) where
  mem h := (nextEntry_ok h).1
  fresh h := (nextEntry_ok h).2.1
  ready h := (nextEntry_ok h).2.2.1

theorem orderEntries_ok (h : orderEntries message key entries = .ok ordered) :
    ordered.Perm entries ∧ ReadyOrder (·.id) (·.input.dependencies) [] ordered :=
  schedule_ok nextEntry_picksReady h

/-- The loop starts with the least of the entries that wait for nothing. -/
theorem orderEntries_head (h : orderEntries message key entries = .ok ordered)
    (hmem : e ∈ entries) (hfree : e.input.dependencies = []) :
    ∃ first rest, ordered = first :: rest ∧ first ∈ entries ∧
      first.input.dependencies = [] ∧ key first ≤ key e := by
  obtain ⟨hperm, hready⟩ := orderEntries_ok h
  cases entries with
  | nil => cases hmem
  | cons a entries =>
      unfold orderEntries schedule at h
      rw [List.length_cons, scheduleFrom] at h
      split at h
      next => cases h
      next first hfirst =>
        obtain ⟨hin, -, hdeps, hle⟩ := nextEntry_ok hfirst
        have hhead : [first] <+: ordered := scheduleFrom_prefix h
        obtain ⟨rest, rfl⟩ := hhead
        refine ⟨first, rest, rfl, hin, List.subset_nil.1 hdeps, ?_⟩
        exact hle e hmem List.not_mem_nil (by rw [hfree]; exact List.nil_subset _)

end Order

section Settled

variable {settle : List String → PriorityDecision → PriorityDecision}
  {entries before after ordered settled : List PriorityDecision} {e : PriorityDecision}
  {chosen : List String}

theorem chosenIds_append : chosenIds (before ++ after) = chosenIds before ++ chosenIds after := by
  rw [chosenIds, List.filter_append, List.map_append]
  rfl

theorem chosenIds_cons : chosenIds (e :: after) =
    (if e.selectedOrder.isSome then [e.id] else []) ++ chosenIds after := by
  unfold chosenIds
  cases h : e.selectedOrder.isSome <;> simp [List.filter_cons, h]

/-- The entries behind a cut are settled by what is chosen before it. -/
theorem settleEntries_append (hcore : ∀ chosen e, (settle chosen e).core = e.core) :
    settleEntries settle chosen (before ++ after) =
      settleEntries settle chosen before ++
        settleEntries settle (chosen ++ chosenIds (settleEntries settle chosen before)) after := by
  induction before generalizing chosen with
  | nil => simp [settleEntries, chosenIds]
  | cons e before ih =>
      simp only [List.cons_append, settleEntries, ih]
      have hid : (settle chosen e).input = e.input := input_of_core (hcore chosen e)
      cases hselected : (settle chosen e).selectedOrder with
      | none => simp [chosenIds, hselected]
      | some order => simp [chosenIds, hselected, hid]

theorem map_core_settleEntries (chosen : List String)
    (hcore : ∀ chosen e, (settle chosen e).core = e.core) :
    (settleEntries settle chosen ordered).map (·.core) = ordered.map (·.core) := by
  induction ordered generalizing chosen with
  | nil => rfl
  | cons e ordered ih => simp [settleEntries, hcore, ih]

/-- What is chosen was ordered. -/
theorem chosenIds_subset (h : settled.map (·.core) = ordered.map (·.core)) :
    chosenIds settled ⊆ ordered.map (·.id) := by
  have hids : settled.map (·.id) = ordered.map (·.id) := by
    have hmapped := congrArg (List.map fun e : PriorityDecision => e.id) h
    rw [List.map_map, List.map_map] at hmapped
    exact hmapped
  rw [← hids]
  exact ((List.filter_sublist).map _).subset

/-- An entry is found under its name with all that the loop leaves alone. -/
theorem map_core_writtenEntries (h : settled.map (·.core) = ordered.map (·.core))
    (hperm : ordered.Perm entries) (hnodup : (entries.map (·.id)).Nodup) :
    (writtenEntries entries settled).map (·.core) = entries.map (·.core) := by
  rw [writtenEntries, List.map_map]
  refine List.map_congr_left ?_
  intro e he
  rw [Function.comp_apply]
  cases hfound : settled.find? fun s => s.input.actionId = e.input.actionId with
  | none => rfl
  | some s =>
      have hsame : s.id = e.id := by simpa using List.find?_some hfound
      have hs : s.core ∈ ordered.map (·.core) := by
        rw [← h]
        exact List.mem_map_of_mem (List.mem_of_find?_eq_some hfound)
      obtain ⟨o, ho, hcore⟩ := List.mem_map.1 hs
      have hid : o.id = e.id := by
        rw [← hsame]
        exact congrArg (·.actionId) (input_of_core hcore)
      have hoe : o = e := List.inj_on_of_nodup_map hnodup (hperm.mem_iff.1 ho) he hid
      rw [Option.getD_some, ← hcore, hoe]

end Settled

section Selection

variable {ordered before after entries : List PriorityDecision} {e : PriorityDecision}
  {chosen : List String}

theorem isSome_settleCandidate (h : e.selectedOrder = none) :
    (settleCandidate chosen e).selectedOrder.isSome = true ↔ selects chosen e := by
  unfold settleCandidate
  split
  next hselects => simp [hselects]
  next hselects => simp [hselects, h]

/-- What the selection loop delivers of some ordered entries. -/
def deliveredIds (ordered : List PriorityDecision) : List String :=
  chosenIds (settleEntries settleCandidate [] ordered)

theorem deliveredIds_subset : deliveredIds ordered ⊆ ordered.map (·.id) :=
  chosenIds_subset (map_core_settleEntries _ core_settleCandidate)

/-- What is delivered of a cut order: the entry behind the cut by what is chosen
before it. -/
theorem deliveredIds_split (before after : List PriorityDecision)
    (h : e.selectedOrder = none) :
    ∃ later, deliveredIds (before ++ e :: after) =
        deliveredIds before ++ (if selects (deliveredIds before) e then [e.id] else []) ++ later ∧
      later ⊆ after.map (·.id) := by
  have hcut : settleEntries settleCandidate [] (before ++ e :: after) =
      settleEntries settleCandidate [] before ++
        settleEntries settleCandidate (deliveredIds before) (e :: after) := by
    rw [settleEntries_append core_settleCandidate, List.nil_append]
    rfl
  rw [settleEntries] at hcut
  generalize (if (settleCandidate (deliveredIds before) e).selectedOrder.isSome = true then
    deliveredIds before ++ [e.input.actionId] else deliveredIds before) = state at hcut
  refine ⟨chosenIds (settleEntries settleCandidate state after), ?_,
    chosenIds_subset (map_core_settleEntries _ core_settleCandidate)⟩
  have hid : (settleCandidate (deliveredIds before) e).input = e.input :=
    input_of_core (core_settleCandidate _ _)
  have hids : (settleCandidate (deliveredIds before) e).id = e.id := congrArg (·.actionId) hid
  have hdelivered : deliveredIds (before ++ e :: after) = deliveredIds before ++
      ((if (settleCandidate (deliveredIds before) e).selectedOrder.isSome then [e.id] else []) ++
        chosenIds (settleEntries settleCandidate state after)) := by
    rw [deliveredIds, hcut, chosenIds_append, chosenIds_cons, hids]
    rfl
  rw [hdelivered, List.append_assoc]
  simp only [isSome_settleCandidate h]

/-- Of the entries before a cut the whole loop delivers what it had delivered there. -/
theorem mem_deliveredIds_before {id : String} (h : e.selectedOrder = none)
    (hnodup : ((before ++ e :: after).map (·.id)).Nodup) (hid : id ∈ before.map (·.id)) :
    id ∈ deliveredIds (before ++ e :: after) ↔ id ∈ deliveredIds before := by
  obtain ⟨later, hsplit, hlater⟩ := deliveredIds_split before after h
  rw [List.map_append, List.map_cons, List.nodup_append] at hnodup
  have hne : ∀ other ∈ e.id :: after.map (·.id), id ≠ other := hnodup.2.2 id hid
  rw [hsplit, List.mem_append, List.mem_append]
  constructor
  · rintro ((hbefore | hself) | hafter)
    · exact hbefore
    · split at hself
      · exact absurd (List.mem_singleton.1 hself) (hne _ List.mem_cons_self)
      · cases hself
    · exact absurd rfl (hne id (List.mem_cons_of_mem _ (hlater hafter)))
  · intro hbefore
    exact Or.inl (Or.inl hbefore)

theorem nodup_deliveredIds (h : (ordered.map (·.id)).Nodup) : (deliveredIds ordered).Nodup := by
  have hcore : (settleEntries settleCandidate [] ordered).map (·.core) = ordered.map (·.core) :=
    map_core_settleEntries _ core_settleCandidate
  have hids := congrArg (List.map fun e : PriorityDecision => e.id) hcore
  rw [List.map_map, List.map_map] at hids
  have hsettled : ((settleEntries settleCandidate [] ordered).map (·.id)).Nodup := by
    have hsame : (settleEntries settleCandidate [] ordered).map (·.id) = ordered.map (·.id) := hids
    rwa [hsame]
  exact hsettled.sublist ((List.filter_sublist).map _)

/-- What the loop had delivered before a name came up. -/
def deliveredBefore (order delivered : List String) (id : String) : List String :=
  (order.takeWhile (· ≠ id)).filter (· ∈ delivered)

theorem takeWhile_before {order : List String} {id : String} {rest : List String}
    (h : id ∉ order) : (order ++ id :: rest).takeWhile (· ≠ id) = order := by
  have hall : ∀ other ∈ order, decide (other ≠ id) = true := by
    intro other hother
    exact decide_eq_true fun heq => h (heq ▸ hother)
  rw [List.takeWhile_append_of_pos hall]
  simp

/-- An entry is delivered when it may be seen, all that it depends on is delivered, and
fewer than three came before it. -/
theorem mem_deliveredIds_iff (hready : ReadyOrder (·.id) (·.input.dependencies) [] ordered)
    (hnone : ∀ e ∈ ordered, e.selectedOrder = none) (hmem : e ∈ ordered) :
    e.id ∈ deliveredIds ordered ↔ e.defaultVisible = some true ∧
      (deliveredBefore (ordered.map (·.id)) (deliveredIds ordered) e.id).length < 3 ∧
      e.input.dependencies ⊆ deliveredIds ordered := by
  have hnodup := (names_of_readyOrder hready).1
  obtain ⟨before, after, rfl⟩ := List.append_of_mem hmem
  have hfree := hnone e hmem
  have hdeps : e.input.dependencies ⊆ before.map (·.id) := dependency_earlier hready rfl
  obtain ⟨later, hsplit, hlater⟩ := deliveredIds_split before after hfree
  have hparts := hnodup
  rw [List.map_append, List.map_cons, List.nodup_append, List.nodup_cons] at hparts
  obtain ⟨hbefore, ⟨hselfAfter, -⟩, hdisjoint⟩ := hparts
  have hself : e.id ∉ before.map (·.id) := fun h => hdisjoint _ h _ List.mem_cons_self rfl
  have hdelivered : e.id ∈ deliveredIds (before ++ e :: after) ↔
      selects (deliveredIds before) e := by
    rw [hsplit, List.mem_append, List.mem_append]
    constructor
    · rintro ((h | h) | h)
      · exact absurd (deliveredIds_subset h) hself
      · split at h
        next hselects => exact hselects
        next => cases h
      · exact absurd (hlater h) hselfAfter
    · intro hselects
      rw [if_pos hselects]
      exact Or.inl (Or.inr (List.mem_singleton_self _))
  have hcount : (deliveredBefore ((before ++ e :: after).map (·.id))
      (deliveredIds (before ++ e :: after)) e.id).length = (deliveredIds before).length := by
    rw [deliveredBefore, List.map_append, List.map_cons, takeWhile_before hself]
    refine List.Perm.length_eq ((List.perm_ext_iff_of_nodup (hbefore.filter _)
      (nodup_deliveredIds hbefore)).2 ?_)
    intro id
    rw [List.mem_filter, decide_eq_true_eq]
    constructor
    · rintro ⟨hid, hin⟩
      exact (mem_deliveredIds_before hfree hnodup hid).1 hin
    · intro hin
      exact ⟨deliveredIds_subset hin,
        (mem_deliveredIds_before hfree hnodup (deliveredIds_subset hin)).2 hin⟩
  have hdepends : e.input.dependencies ⊆ deliveredIds (before ++ e :: after) ↔
      e.input.dependencies ⊆ deliveredIds before := by
    constructor
    · intro h id hid
      exact (mem_deliveredIds_before hfree hnodup (hdeps hid)).1 (h hid)
    · intro h id hid
      exact (mem_deliveredIds_before hfree hnodup (hdeps hid)).2 (h hid)
  rw [hdelivered, hcount, hdepends]
  rfl

end Selection

section Findings

variable {findings : List CapabilityFinding} {candidate : PriorityCandidateInput}

theorem maskedFinding_id (f : CapabilityFinding) : (maskedFinding f).id = f.id := by
  unfold maskedFinding
  split <;> rfl

/-- The masked view keeps the rule of qualified findings only. -/
theorem maskedFinding_access_iff (f : CapabilityFinding) :
    (maskedFinding f).ruleId ∈ accessRules ↔ qualifiedTechnical f = true := by
  unfold maskedFinding
  split
  next h =>
    have hother : "unqualified_technical_observation" ∉ accessRules := by decide
    exact ⟨fun hin => absurd hin hother, fun hqualified => absurd hqualified h.2⟩
  next h =>
    constructor
    · intro hrule
      by_contra hunqualified
      exact h ⟨hrule, hunqualified⟩
    · intro hqualified
      simp only [qualifiedTechnical, Bool.and_eq_true, decide_eq_true_eq] at hqualified
      exact hqualified.1.1.1.1.1

theorem findingById_masked (key : String) :
    findingById (findings.map maskedFinding) key =
      (findingById findings key).map maskedFinding := by
  rw [findingById, findingById, ← List.map_reverse, List.find?_map]
  simp only [Function.comp_def, maskedFinding_id]

theorem linkedFindings_masked :
    linkedFindings (findings.map maskedFinding) candidate =
      (linkedFindings findings candidate).map maskedFinding := by
  rw [linkedFindings, linkedFindings, List.map_filterMap]
  exact List.filterMap_congr fun key _ => findingById_masked key

/-- A candidate is a prerequisite for access exactly when a qualified technical finding
is linked to it. -/
theorem prerequisiteOf_masked_iff :
    prerequisiteOf (linkedFindings (findings.map maskedFinding) candidate) = .accessIndexing ↔
      ∃ f ∈ linkedFindings findings candidate, qualifiedTechnical f = true := by
  rw [linkedFindings_masked]
  have hany : (((linkedFindings findings candidate).map maskedFinding).any fun f =>
      decide (f.ruleId ∈ accessRules)) = true ↔
      ∃ f ∈ linkedFindings findings candidate, qualifiedTechnical f = true := by
    rw [List.any_map, List.any_eq_true]
    simp only [Function.comp_apply, decide_eq_true_eq, maskedFinding_access_iff]
  rw [← hany]
  unfold prerequisiteOf
  split
  next h => simp [h]
  next h => split <;> simp [h]

theorem isTechnical_candidateEntry (e : PriorityDecision) :
    (candidateEntry findings e).isTechnical = true ↔
      ∃ f ∈ linkedFindings findings e.input, qualifiedTechnical f = true := by
  rw [PriorityDecision.isTechnical, decide_eq_true_eq]
  simp only [candidateEntry, Option.getD_some]
  constructor
  · intro h
    obtain ⟨key, hkey⟩ := List.exists_mem_of_ne_nil _ h
    rw [mem_sortedBy, List.mem_map] at hkey
    obtain ⟨f, hf, -⟩ := hkey
    exact ⟨f, (List.mem_filter.1 hf).1, (List.mem_filter.1 hf).2⟩
  · rintro ⟨f, hf, hqualified⟩
    refine List.ne_nil_of_mem (mem_sortedBy.2 (List.mem_map_of_mem (a := f) ?_))
    exact List.mem_filter.2 ⟨hf, hqualified⟩

/-- Technical work is visible. -/
theorem visibleByDefault_of_technical {linked : List CapabilityFinding} {f : CapabilityFinding}
    (hf : f ∈ linked) (h : qualifiedTechnical f = true) : visibleByDefault linked = true := by
  simp only [qualifiedTechnical, Bool.and_eq_true, decide_eq_true_eq] at h
  obtain ⟨⟨⟨⟨⟨-, -⟩, hstatus⟩, hconfidence⟩, -⟩, -⟩ := h
  rw [visibleByDefault, List.any_eq_true]
  refine ⟨f, hf, ?_⟩
  rcases hconfidence with hc | hc <;> simp [hstatus, hc]

end Findings

section Traces

variable {lib : Library} {inputs : List PriorityCandidateInput}
  {findings : List CapabilityFinding} {business : BusinessScope} {checksum : Checksum}
  {rules : RulesVersion} {trace : PrioritizationTrace}

theorem priorityEntry_ok {ids : List String} {candidate : PriorityCandidateInput}
    {e : PriorityDecision}
    (h : priorityEntry lib rules business ids findings candidate = .ok e) :
    e.input = candidate ∧
      e.prerequisite = prerequisiteOf (linkedFindings findings candidate) := by
  unfold priorityEntry at h
  obtain ⟨-, -, h⟩ := ok_of_bind h
  obtain ⟨-, -, h⟩ := ok_of_bind h
  split at h
  next => cases h
  next first rest hlinked =>
    obtain rfl := Except.ok.inj h
    rw [hlinked]
    exact ⟨rfl, rfl⟩

/-- The candidates of a trace carry the names of the inputs, once each, and each has the
prerequisite that its linked findings give. -/
theorem prioritizeFirst_candidates
    (h : prioritizeFirst lib inputs findings business checksum rules = .ok trace) :
    (trace.candidates.map (·.id)).Nodup ∧
      ∀ c ∈ trace.candidates,
        c.prerequisite = prerequisiteOf (linkedFindings findings c.input) := by
  unfold prioritizeFirst at h
  obtain ⟨_, hnodup, h⟩ := ok_of_bind h
  obtain ⟨entries, hentries, h⟩ := ok_of_bind h
  obtain ⟨ordered, hordered, h⟩ := ok_of_bind h
  obtain rfl := Except.ok.inj h
  rw [require_eq_ok, decide_eq_true_eq] at hnodup
  have hpairs := forall₂_of_mapM_ok hentries
  have hinputs : entries.map (·.input) = sortedBy (·.actionId) inputs :=
    map_eq_of_forall₂ (hpairs.imp fun _ _ hpair => (priorityEntry_ok hpair).1)
  have hids : entries.map (·.id) = (sortedBy (·.actionId) inputs).map (·.actionId) := by
    rw [← hinputs, List.map_map]
    rfl
  have hnodupEntries : (entries.map (·.id)).Nodup := by
    rw [hids]
    exact ((sortedBy_perm _ inputs).map _).nodup_iff.2 hnodup
  have hcore := map_core_writtenEntries (map_core_settleEntries [] core_settleFirst)
    (orderEntries_ok hordered).1 hnodupEntries
  constructor
  · have hsame := congrArg (List.map fun e : PriorityDecision => e.id) hcore
    rw [List.map_map, List.map_map] at hsame
    have hwritten : (writtenEntries entries (settleEntries settleFirst [] ordered)).map (·.id) =
        entries.map (·.id) := hsame
    rw [hwritten]
    exact hnodupEntries
  · intro c hc
    have hin : c.core ∈ entries.map (·.core) := by
      rw [← hcore]
      exact List.mem_map_of_mem hc
    obtain ⟨e, he, hec⟩ := List.mem_map.1 hin
    obtain ⟨candidate, -, hcandidate⟩ := exists_left_of_mem hpairs he
    obtain ⟨hinput, hprerequisite⟩ := priorityEntry_ok hcandidate
    rw [← prerequisite_of_core hec, ← input_of_core hec, hprerequisite, hinput]

/-- What the pool order and the selection of a trace rest on: `ordered` has the entries
of its candidates in the order of the pool. -/
structure Selected (findings : List CapabilityFinding) (trace : PrioritizationTrace)
    (ordered : List PriorityDecision) : Prop where
  ready : ReadyOrder (·.id) (·.input.dependencies) [] ordered
  unsettled : ∀ e ∈ ordered, e.selectedOrder = none
  candidateOrder : trace.candidateOrder = some (ordered.map (·.id))
  actionOrder : trace.actionOrder = deliveredIds ordered
  candidates : ∀ e : PriorityDecision,
    e.core ∈ trace.candidates.map (·.core) ↔ e.core ∈ ordered.map (·.core)
  technical : ∀ e ∈ ordered, e.isTechnical = true ↔
    ∃ f ∈ linkedFindings findings e.input, qualifiedTechnical f = true
  visible : ∀ e ∈ ordered, e.isTechnical = true → e.defaultVisible = some true
  first : ∀ e ∈ ordered, e.isTechnical = true → e.input.dependencies = [] →
    ∃ lead ∈ ordered, lead.isTechnical = true ∧ lead.id ∈ deliveredIds ordered

/-- An entry that stands no later than a visible prerequisite for access is one itself. -/
theorem technical_of_candidateKey_le {e lead : PriorityDecision}
    (hvisible : e.defaultVisible = some true) (haccess : e.prerequisite = .accessIndexing)
    (hle : candidateKey business lead ≤ candidateKey business e) :
    lead.defaultVisible = some true ∧ lead.prerequisite = .accessIndexing := by
  unfold candidateKey priorityKey at hle
  rw [if_pos hvisible, haccess] at hle
  rw [Prod.Lex.toLex_le_toLex] at hle
  rcases hle with hlt | ⟨heq, hle⟩
  · exact absurd hlt (Nat.not_lt_zero _)
  · have hlead : lead.defaultVisible = some true := by
      by_contra hhidden
      simp [hhidden] at heq
    refine ⟨hlead, ?_⟩
    simp only [Prod.Lex.toLex_le_toLex] at hle
    have hrank : prerequisiteRank lead.prerequisite = 0 := by
      rcases hle with hlt | ⟨heq, -⟩
      · exact absurd hlt (Nat.not_lt_zero _)
      · exact heq
    cases hprerequisite : lead.prerequisite with
    | accessIndexing => rfl
    | measurement =>
        rw [hprerequisite] at hrank
        cases hrank
    | none =>
        rw [hprerequisite] at hrank
        cases hrank

theorem prioritizeCandidates_selected
    (h : prioritizeCandidates lib inputs findings business checksum = .ok trace) :
    ∃ ordered, Selected findings trace ordered := by
  unfold prioritizeCandidates at h
  obtain ⟨base, hbase, h⟩ := ok_of_bind h
  obtain ⟨ordered, hordered, h⟩ := ok_of_bind h
  obtain rfl := Except.ok.inj h
  obtain ⟨hnodupBase, hprerequisites⟩ := prioritizeFirst_candidates hbase
  obtain ⟨hperm, hready⟩ := orderEntries_ok hordered
  have hnodup : ((base.candidates.map (candidateEntry findings)).map (·.id)).Nodup := by
    rw [List.map_map]
    exact hnodupBase
  have hcore := map_core_writtenEntries
    (map_core_settleEntries [] core_settleCandidate) hperm hnodup
  have hentry : ∀ e ∈ ordered, ∃ c ∈ base.candidates, candidateEntry findings c = e := by
    intro e he
    exact List.mem_map.1 (hperm.mem_iff.1 he)
  have htechnical : ∀ e ∈ ordered, e.isTechnical = true ↔
      ∃ f ∈ linkedFindings findings e.input, qualifiedTechnical f = true := by
    intro e he
    obtain ⟨c, -, rfl⟩ := hentry e he
    exact isTechnical_candidateEntry c
  have haccess : ∀ e ∈ ordered, e.isTechnical = true ↔ e.prerequisite = .accessIndexing := by
    intro e he
    rw [htechnical e he]
    obtain ⟨c, hc, rfl⟩ := hentry e he
    have hprerequisite := hprerequisites c hc
    rw [← prerequisiteOf_masked_iff]
    exact ⟨fun h => hprerequisite.trans h, fun h => hprerequisite.symm.trans h⟩
  have hvisible : ∀ e ∈ ordered, e.isTechnical = true → e.defaultVisible = some true := by
    intro e he htech
    obtain ⟨f, hf, hqualified⟩ := (htechnical e he).1 htech
    obtain ⟨c, -, rfl⟩ := hentry e he
    exact congrArg some (visibleByDefault_of_technical hf hqualified)
  refine ⟨ordered, hready, ?_, rfl, rfl, ?_, htechnical, hvisible, ?_⟩
  · intro e he
    obtain ⟨c, -, rfl⟩ := hentry e he
    rfl
  · intro e
    have hsame : (writtenEntries (base.candidates.map (candidateEntry findings))
        (settleEntries settleCandidate [] ordered)).map (·.core) =
        (base.candidates.map (candidateEntry findings)).map (·.core) := hcore
    show e.core ∈ (writtenEntries _ _).map (·.core) ↔ _
    rw [hsame]
    exact (hperm.map _).mem_iff.symm
  · intro e he htech hfree
    obtain ⟨lead, rest, rfl, hlead, hleadFree, hle⟩ :=
      orderEntries_head hordered (hperm.mem_iff.1 he) hfree
    obtain ⟨hseen, hleadAccess⟩ := technical_of_candidateKey_le (hvisible e he htech)
      ((haccess e he).1 htech) hle
    refine ⟨lead, List.mem_cons_self, (haccess lead List.mem_cons_self).2 hleadAccess, ?_⟩
    have hnone : lead.selectedOrder = none := by
      obtain ⟨c, -, rfl⟩ := hentry lead List.mem_cons_self
      rfl
    have hselects : selects [] lead := by
      refine ⟨hseen, by decide, ?_⟩
      rw [hleadFree]
      exact List.nil_subset _
    obtain ⟨later, hsplit, -⟩ :=
      deliveredIds_split [] rest hnone
    rw [List.nil_append] at hsplit
    rw [hsplit]
    have hempty : deliveredIds ([] : List PriorityDecision) = [] := rfl
    rw [hempty, if_pos hselects]
    simp

end Traces

end SearchTrust.Capability
