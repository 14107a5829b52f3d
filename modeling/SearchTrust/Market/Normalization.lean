/-
When the normalization of a sanitized payload answers every item it lists with a
record or a limitation, and when it raises.
-/
import SearchTrust.Market.Results

namespace SearchTrust.Market

section Readable

variable (library : ResultLibrary) (call : MarketCall)

/-- A text of digits alone has decimal digits alone. -/
def Numeric (value : Option Value) : Prop :=
  ∀ t, value = some (.str t) → (t.filter fun c => c ≠ 0x2C).all library.isDigit = true →
    ∀ c ∈ t.filter fun c => c ≠ 0x2C, (library.decimal c).isSome = true

/-- The position of a listed item: its own, if it has one that is in range. -/
def positionOf (listed : ListedItem) (item : Fields) : Int :=
  match integerField library (Fields.get item "position") 1 10000 with
  | .ok (some position) => position
  | _ => listed.responseIndex

/-- The identity of a named item. -/
def identityOf (listed : ListedItem) : Option ResultIdentity :=
  match listed.item with
  | .dict item => (displayName library item).map fun name =>
      identityAt library call listed.resultType item name (positionOf library listed item)
  | _ => none

def recordIdOf (listed : ListedItem) : Option String :=
  (identityOf library call listed).map library.requestDigest

/-- Nothing in a named item makes the normalization raise: its position is read as a
number or not at all, its identity can be encoded and, unless an item before it has
the same one, its review count is read as a number or not at all. -/
def Readable (before : List ListedItem) (listed : ListedItem) : Prop :=
  ∀ item, listed.item = .dict item → ∀ identity, identityOf library call listed = some identity →
    Numeric library (Fields.get item "position") ∧ identity.encodable = true ∧
      (library.requestDigest identity ∉ before.filterMap (recordIdOf library call) →
        Numeric library (reviewsValue item))

/-- Every item is readable after those before it. -/
def ReadableAfter (before : List ListedItem) : List ListedItem → Prop
  | [] => True
  | listed :: rest => Readable library call before listed ∧ ReadableAfter (before ++ [listed]) rest

/-- The items that are listed, in the order in which they are looked at. -/
def listing (payload : Fields) (engine : SerpEngine) : List ListedItem :=
  (sections engine).flatMap fun entry =>
    match Fields.get payload entry.2 with
    | some (.list raw) => listedItems entry.1 raw
    | _ => []

/-- An item was answered with a record or with a limitation. -/
def Answered (listed : ListedItem) : SerpMarketResultRecord ⊕ String → Prop
  | .inl record => record.resultType = listed.resultType ∧ record.callId = call.callId
  | .inr limitation =>
      limitation = resultSkipped listed.resultType ∨
        limitation = duplicateSkipped listed.resultType

/-- Every listed item has its record or its limitation, and no two records have the
same id. -/
structure Handled (items : List ListedItem)
    (result : List SerpMarketResultRecord × List String) : Prop where
  answered : ∃ outcomes, List.Forall₂ (Answered call) items outcomes ∧
    result.1 = outcomes.filterMap Sum.getLeft? ∧
    ∀ limitation, .inr limitation ∈ outcomes → limitation ∈ result.2
  distinct : (result.1.map SerpMarketResultRecord.recordId).Nodup

variable {library call}

theorem readableAfter_append {before items rest : List ListedItem} :
    ReadableAfter library call before (items ++ rest) ↔
      ReadableAfter library call before items ∧
        ReadableAfter library call (before ++ items) rest := by
  induction items generalizing before with
  | nil => simp [ReadableAfter]
  | cons listed items ih =>
      rw [List.cons_append, ReadableAfter, ReadableAfter, ih, and_assoc, List.append_assoc,
        List.singleton_append]

end Readable

section Integers

variable {library : ResultLibrary}

theorem mapM_isSome_iff {α β : Type} (f : α → Option β) (items : List α) :
    (items.mapM f).isSome = true ↔ ∀ a ∈ items, (f a).isSome = true := by
  induction items with
  | nil => simp
  | cons a items ih =>
      rw [List.mapM_cons, List.forall_mem_cons, ← ih]
      cases f a with
      | none => simp
      | some b =>
          cases items.mapM f with
          | none => simp
          | some bs => simp

/-- `_integer` raises for texts of digits that are not decimal only. -/
theorem integerField_ok_iff (value : Option Value) (minimum maximum : Int) :
    (∃ number, integerField library value minimum maximum = .ok number) ↔
      Numeric library value := by
  unfold integerField Numeric
  split
  next number => exact ⟨fun _ t ht => absurd ht (by simp), fun _ => ⟨_, rfl⟩⟩
  next t =>
    simp only
    have hvalue := mapM_isSome_iff library.decimal (t.filter fun c => c ≠ 0x2C)
    split
    next hdigits =>
      unfold digitsValue
      cases hmap : (t.filter fun c => c ≠ 0x2C).mapM library.decimal with
      | none =>
          rw [hmap] at hvalue
          constructor
          · rintro ⟨number, hnumber⟩
            cases hnumber
          · intro h
            have hsome := hvalue.2 (h t rfl hdigits.2)
            cases hsome
      | some values =>
          rw [hmap] at hvalue
          refine ⟨fun _ t' ht' _ => ?_, fun _ => ⟨_, rfl⟩⟩
          obtain rfl := Value.str.inj (Option.some.inj ht')
          exact hvalue.1 rfl
    next hdigits =>
      refine ⟨fun _ t' ht' hall c hc => ?_, fun _ => ⟨_, rfl⟩⟩
      obtain rfl := Value.str.inj (Option.some.inj ht')
      exact absurd ⟨List.ne_nil_of_mem hc, hall⟩ hdigits
  next hint hstr => exact ⟨fun _ t ht => absurd ht (hstr t), fun _ => ⟨_, rfl⟩⟩

end Integers

section Items

variable {library : ResultLibrary} {call : MarketCall} {context : MarketContext}
  {payload : Fields} {responseChecksum : String} {observedAt : Int}

/-- A record says which item it is of. -/
theorem buildRecord_spec {listed : ListedItem} {item : Fields} {name : Text} {recordId : String}
    {providerPosition reviewCount : Option Int} {record : SerpMarketResultRecord}
    (h : buildRecord library call context payload responseChecksum observedAt listed item name
      recordId providerPosition reviewCount = some record) :
    record.recordId = recordId ∧ record.resultType = listed.resultType ∧
      record.callId = call.callId := by
  simp only [buildRecord, Option.bind_eq_bind, Option.bind_eq_some_iff] at h
  obtain ⟨_, -, _, -, _, -, _, -, _, -, _, -, _, -, _, -, _, -, _, -, _, -, h⟩ := h
  rw [Option.ite_none_right_eq_some] at h
  obtain rfl := Option.some.inj h.2
  exact ⟨rfl, rfl, rfl⟩

/-- All limitations that the normalization can report. -/
def knownLimitations : List String :=
  [SerpResultType.maps, .localPack, .organic].flatMap fun resultType =>
    [sectionInvalid resultType, resultSkipped resultType, duplicateSkipped resultType]

theorem mem_knownLimitations (resultType : SerpResultType) :
    sectionInvalid resultType ∈ knownLimitations ∧ resultSkipped resultType ∈ knownLimitations ∧
      duplicateSkipped resultType ∈ knownLimitations := by
  cases resultType with
  | maps => simp [knownLimitations]
  | localPack => simp [knownLimitations]
  | organic => simp [knownLimitations]

variable (library call) in
/-- What holds of the state after the items `done`. -/
structure Progress (done : List ListedItem) (state : NormalizeState) : Prop where
  seen_iff : ∀ id, id ∈ state.seen ↔ id ∈ done.filterMap (recordIdOf library call)
  seen_nodup : state.seen.Nodup
  records_seen : (state.records.map SerpMarketResultRecord.recordId).Sublist state.seen
  answered : ∃ outcomes, List.Forall₂ (Answered call) done outcomes ∧
    state.records = outcomes.filterMap Sum.getLeft? ∧
    ∀ limitation, .inr limitation ∈ outcomes → limitation ∈ state.limitations
  known : ∀ limitation ∈ state.limitations, limitation ∈ knownLimitations

theorem Progress.start : Progress library call [] ⟨[], [], []⟩ where
  seen_iff := by simp
  seen_nodup := List.nodup_nil
  records_seen := List.Sublist.refl _
  answered := ⟨[], .nil, rfl, by simp⟩
  known := by simp

variable {done : List ListedItem} {state state' : NormalizeState} {listed : ListedItem}

/-- A further limitation that is none of an item. -/
theorem Progress.report (h : Progress library call done state) {limitation : String}
    (hknown : limitation ∈ knownLimitations) :
    Progress library call done
      { state with limitations := state.limitations ++ [limitation] } where
  seen_iff := h.seen_iff
  seen_nodup := h.seen_nodup
  records_seen := h.records_seen
  answered := by
    obtain ⟨outcomes, hall, hrecords, hlimits⟩ := h.answered
    exact ⟨outcomes, hall, hrecords, fun l hl => List.mem_append_left _ (hlimits l hl)⟩
  known := by
    intro l hl
    rcases List.mem_append.1 hl with hl | hl
    · exact h.known l hl
    · rw [List.mem_singleton.1 hl]
      exact hknown

/-- An item that was answered with a limitation, with the ids seen since. -/
theorem Progress.limited (h : Progress library call done state) {limitation : String}
    {seen : List String} (hanswered : Answered call listed (.inr limitation))
    (hseen : ∀ id, id ∈ seen ↔
      id ∈ (done ++ [listed]).filterMap (recordIdOf library call))
    (hnodup : seen.Nodup) (hsub : state.seen.Sublist seen) :
    Progress library call (done ++ [listed])
      { state with limitations := state.limitations ++ [limitation], seen := seen } where
  seen_iff := hseen
  seen_nodup := hnodup
  records_seen := h.records_seen.trans hsub
  answered := by
    obtain ⟨outcomes, hall, hrecords, hlimits⟩ := h.answered
    refine ⟨outcomes ++ [.inr limitation], List.rel_append hall (.cons hanswered .nil), ?_, ?_⟩
    · rw [List.filterMap_append, hrecords]
      simp
    · intro l hl
      rcases List.mem_append.1 hl with hl | hl
      · exact List.mem_append_left _ (hlimits l hl)
      · rw [List.mem_singleton, Sum.inr.injEq] at hl
        rw [hl]
        exact List.mem_append_right _ (List.mem_singleton_self _)
  known := by
    intro l hl
    rcases List.mem_append.1 hl with hl | hl
    · exact h.known l hl
    · rw [List.mem_singleton.1 hl]
      rcases hanswered with rfl | rfl
      · exact (mem_knownLimitations _).2.1
      · exact (mem_knownLimitations _).2.2

/-- An item that was answered with a record. -/
theorem Progress.recorded (h : Progress library call done state)
    {record : SerpMarketResultRecord} (hanswered : Answered call listed (.inl record))
    (hid : recordIdOf library call listed = some record.recordId)
    (hnew : record.recordId ∉ state.seen) :
    Progress library call (done ++ [listed])
      { state with
        records := state.records ++ [record]
        seen := state.seen ++ [record.recordId] } where
  seen_iff := by
    intro id
    rw [List.mem_append, List.filterMap_append, List.mem_append, h.seen_iff]
    simp [hid, eq_comm]
  seen_nodup := List.nodup_append.2 ⟨h.seen_nodup, List.nodup_singleton _, by
    intro a ha b hb heq
    rw [List.mem_singleton.1 hb] at heq
    exact hnew (heq ▸ ha)⟩
  records_seen := by
    rw [List.map_append]
    exact h.records_seen.append (List.Sublist.refl _)
  answered := by
    obtain ⟨outcomes, hall, hrecords, hlimits⟩ := h.answered
    refine ⟨outcomes ++ [.inl record], List.rel_append hall (.cons hanswered .nil), ?_, ?_⟩
    · rw [List.filterMap_append, hrecords]
      simp
    · intro l hl
      rcases List.mem_append.1 hl with hl | hl
      · exact hlimits l hl
      · simp at hl
  known := h.known

/-- An item without a name, or that is no dict, has no identity. -/
theorem filterMap_recordIdOf_append (hid : recordIdOf library call listed = none) :
    (done ++ [listed]).filterMap (recordIdOf library call) =
      done.filterMap (recordIdOf library call) := by
  rw [List.filterMap_append]
  simp [hid]

theorem readable_of_identityOf_eq_none (hid : identityOf library call listed = none) :
    Readable library call done listed := by
  intro item _ identity hidentity
  rw [hid] at hidentity
  cases hidentity

/-- An item with an identity is readable when its own texts are. -/
theorem readable_iff_of_identityOf {item : Fields} {identity : ResultIdentity}
    (hitem : listed.item = .dict item) (hid : identityOf library call listed = some identity)
    (h : Progress library call done state) :
    Readable library call done listed ↔
      Numeric library (Fields.get item "position") ∧ identity.encodable = true ∧
        (library.requestDigest identity ∉ state.seen → Numeric library (reviewsValue item)) := by
  have hseen := h.seen_iff (library.requestDigest identity)
  constructor
  · intro hreadable
    obtain ⟨hposition, hencodable, hreviews⟩ := hreadable item hitem identity hid
    exact ⟨hposition, hencodable, fun hnew => hreviews fun hmem => hnew (hseen.2 hmem)⟩
  · rintro ⟨hposition, hencodable, hreviews⟩ item' hitem' identity' hid'
    rw [hitem] at hitem'
    rw [hid] at hid'
    obtain rfl := Value.dict.inj hitem'
    obtain rfl := Option.some.inj hid'
    exact ⟨hposition, hencodable, fun hnew => hreviews fun hmem => hnew (hseen.1 hmem)⟩

theorem positionOf_eq {item : Fields} {providerPosition : Option Int}
    (h : integerField library (Fields.get item "position") 1 10000 = .ok providerPosition) :
    positionOf library listed item = providerPosition.getD listed.responseIndex := by
  rw [positionOf, h]
  cases providerPosition with
  | none => rfl
  | some position => rfl

/-- The ids seen after a named item. -/
theorem Progress.seen_append (h : Progress library call done state) {id : String}
    (hid : recordIdOf library call listed = some id) (other : String) :
    other ∈ (done ++ [listed]).filterMap (recordIdOf library call) ↔
      other ∈ state.seen ∨ other = id := by
  rw [List.filterMap_append, List.mem_append, ← h.seen_iff]
  simp [hid, eq_comm]

/-- A named item: its position, its identity and then its review count are looked at. -/
theorem normalizeItem_named (h : Progress library call done state) {item : Fields} {name : Text}
    (hitem : listed.item = .dict item) (hname : displayName library item = some name)
    (hid : identityOf library call listed = some (identityAt library call listed.resultType item
      name (positionOf library listed item))) :
    (Readable library call done listed ∧ ∃ state',
      normalizeItem library call context payload responseChecksum observedAt state listed =
        .ok state' ∧ Progress library call (done ++ [listed]) state') ∨
    (¬ Readable library call done listed ∧ ∃ error,
      normalizeItem library call context payload responseChecksum observedAt state listed =
        .error error) := by
  have hposition : (∃ number, integerField library (Fields.get item "position") 1 10000 =
      .ok number) ↔ Numeric library (Fields.get item "position") := integerField_ok_iff _ _ _
  have hreviews : (∃ number, integerField library (reviewsValue item) 0 1000000000 =
      .ok number) ↔ Numeric library (reviewsValue item) := integerField_ok_iff _ _ _
  have hrecord : recordIdOf library call listed = some (library.requestDigest
      (identityAt library call listed.resultType item name
        (positionOf library listed item))) := by rw [recordIdOf, hid]; rfl
  rw [readable_iff_of_identityOf hitem hid h]
  simp only [normalizeItem, hitem, hname]
  cases hpos : integerField library (Fields.get item "position") 1 10000 with
  | error error =>
      refine .inr ⟨?_, error, rfl⟩
      rintro ⟨hnumeric, -⟩
      obtain ⟨number, hnumber⟩ := hposition.2 hnumeric
      rw [hpos] at hnumber
      cases hnumber
  | ok providerPosition =>
      have hplace : positionOf library listed item =
          providerPosition.getD listed.responseIndex := positionOf_eq hpos
      rw [hplace] at hrecord ⊢
      have hnumeric := hposition.1 ⟨_, hpos⟩
      dsimp only [bind, Except.bind]
      cases hencodable : (identityAt library call listed.resultType item name
          (providerPosition.getD listed.responseIndex)).encodable with
      | false => exact .inr ⟨fun hall => Bool.false_ne_true hall.2.1, .encodeError, rfl⟩
      | true =>
          simp only [Bool.not_true, Bool.false_eq_true, if_false]
          by_cases hseen : library.requestDigest (identityAt library call listed.resultType item
              name (providerPosition.getD listed.responseIndex)) ∈ state.seen
          · rw [if_pos hseen]
            refine .inl ⟨⟨hnumeric, trivial, fun hnew => absurd hseen hnew⟩, _, rfl, ?_⟩
            refine h.limited (.inr rfl) ?_ h.seen_nodup (List.Sublist.refl _)
            intro other
            rw [h.seen_append hrecord]
            constructor
            · exact .inl
            · rintro (hmem | rfl)
              · exact hmem
              · exact hseen
          · rw [if_neg hseen]
            cases hcount : integerField library (reviewsValue item) 0 1000000000 with
            | error error =>
                refine .inr ⟨?_, error, rfl⟩
                rintro ⟨-, -, hall⟩
                obtain ⟨number, hnumber⟩ := hreviews.2 (hall hseen)
                rw [hcount] at hnumber
                cases hnumber
            | ok reviewCount =>
                refine .inl ⟨⟨hnumeric, trivial, fun _ => hreviews.1 ⟨_, hcount⟩⟩, ?_⟩
                dsimp only
                cases hbuild : buildRecord library call context payload responseChecksum observedAt
                    listed item name (library.requestDigest (identityAt library call
                      listed.resultType item name
                        (providerPosition.getD listed.responseIndex)))
                      providerPosition reviewCount with
                | none =>
                    refine ⟨_, rfl, h.limited (.inl rfl) ?_ ?_ (List.sublist_append_left _ _)⟩
                    · intro id
                      rw [h.seen_append hrecord, List.mem_append, List.mem_singleton]
                    · exact List.nodup_append.2 ⟨h.seen_nodup, List.nodup_singleton _, by
                        intro a ha b hb heq
                        rw [List.mem_singleton.1 hb] at heq
                        exact hseen (heq ▸ ha)⟩
                | some record =>
                    obtain ⟨hrecordId, htype, hcall⟩ := buildRecord_spec hbuild
                    refine ⟨_, rfl, ?_⟩
                    rw [← hrecordId] at hrecord hseen ⊢
                    exact h.recorded ⟨htype, hcall⟩ hrecord hseen

/-- One turn of the loop over the items: it goes through exactly for a readable item,
and answers it. -/
theorem normalizeItem_spec (context : MarketContext) (payload : Fields)
    (responseChecksum : String) (observedAt : Int) (listed : ListedItem)
    (h : Progress library call done state) :
    (Readable library call done listed ∧ ∃ state',
      normalizeItem library call context payload responseChecksum observedAt state listed =
        .ok state' ∧ Progress library call (done ++ [listed]) state') ∨
    (¬ Readable library call done listed ∧ ∃ error,
      normalizeItem library call context payload responseChecksum observedAt state listed =
        .error error) := by
  have hskip : identityOf library call listed = none →
      Progress library call (done ++ [listed])
        { state with limitations := state.limitations ++ [resultSkipped listed.resultType] } := by
    intro hid
    have hrecord : recordIdOf library call listed = none := by
      rw [recordIdOf, hid]
      rfl
    refine h.limited (.inl rfl) ?_ h.seen_nodup (List.Sublist.refl _)
    rw [filterMap_recordIdOf_append hrecord]
    exact h.seen_iff
  match hitem : listed.item with
  | .null | .bool _ | .int _ | .float _ | .str _ | .list _ =>
      have hid : identityOf library call listed = none := by rw [identityOf, hitem]
      refine .inl ⟨readable_of_identityOf_eq_none hid, _, ?_, hskip hid⟩
      rw [normalizeItem, hitem]
  | .dict item =>
      cases hname : displayName library item with
      | none =>
          have hid : identityOf library call listed = none := by
            simp only [identityOf, hitem, hname, Option.map_none]
          refine .inl ⟨readable_of_identityOf_eq_none hid, _, ?_, hskip hid⟩
          simp only [normalizeItem, hitem, hname]
      | some name =>
          have hid : identityOf library call listed = some (identityAt library call
              listed.resultType item name (positionOf library listed item)) := by
            simp only [identityOf, hitem, hname, Option.map_some]
          exact normalizeItem_named h hitem hname hid

/-- The loop over the items. -/
theorem normalizeItems_spec (items : List ListedItem) (h : Progress library call done state) :
    (ReadableAfter library call done items ∧ ∃ state',
      items.foldlM (normalizeItem library call context payload responseChecksum observedAt)
        state = .ok state' ∧ Progress library call (done ++ items) state') ∨
    (¬ ReadableAfter library call done items ∧ ∃ error,
      items.foldlM (normalizeItem library call context payload responseChecksum observedAt)
        state = .error error) := by
  induction items generalizing done state with
  | nil => exact .inl ⟨trivial, state, rfl, by rwa [List.append_nil]⟩
  | cons listed items ih =>
      rw [List.foldlM_cons, ReadableAfter]
      rcases normalizeItem_spec context payload responseChecksum observedAt listed h with
        ⟨hreadable, next, hnext, hprogress⟩ | ⟨hnot, error, herror⟩
      · rw [hnext]
        rcases ih hprogress with ⟨hrest, last, hlast, hdone⟩ | ⟨hnot, error, herror⟩
        · rw [List.append_assoc, List.singleton_append] at hdone
          exact .inl ⟨⟨hreadable, hrest⟩, last, hlast, hdone⟩
        · exact .inr ⟨fun hall => hnot hall.2, error, herror⟩
      · rw [herror]
        exact .inr ⟨fun hall => hnot hall.1, error, rfl⟩

end Items

section Sections

variable {library : ResultLibrary} {call : MarketCall} {context : MarketContext}
  {payload : Fields} {responseChecksum : String} {observedAt : Int}
  {done : List ListedItem} {state : NormalizeState}

/-- The items of one section. -/
def sectionListing (payload : Fields) (entry : SerpResultType × String) : List ListedItem :=
  match Fields.get payload entry.2 with
  | some (.list raw) => listedItems entry.1 raw
  | _ => []

theorem normalizeSection_spec (context : MarketContext) (payload : Fields)
    (responseChecksum : String) (observedAt : Int) (entry : SerpResultType × String)
    (h : Progress library call done state) :
    (ReadableAfter library call done (sectionListing payload entry) ∧ ∃ state',
      normalizeSection library call context payload responseChecksum observedAt state entry =
        .ok state' ∧ Progress library call (done ++ sectionListing payload entry) state') ∨
    (¬ ReadableAfter library call done (sectionListing payload entry) ∧ ∃ error,
      normalizeSection library call context payload responseChecksum observedAt state entry =
        .error error) := by
  unfold normalizeSection sectionListing
  match Fields.get payload entry.2 with
  | some (.list raw) => exact normalizeItems_spec (listedItems entry.1 raw) h
  | none | some .null => exact .inl ⟨trivial, state, rfl, by rwa [List.append_nil]⟩
  | some (.bool _) | some (.int _) | some (.float _) | some (.str _) | some (.dict _) =>
      refine .inl ⟨trivial, _, rfl, ?_⟩
      rw [List.append_nil]
      exact h.report (mem_knownLimitations entry.1).1

/-- The loop over the sections. -/
theorem normalizeSections_spec (context : MarketContext) (payload : Fields)
    (responseChecksum : String) (observedAt : Int) (entries : List (SerpResultType × String))
    (h : Progress library call done state) :
    (ReadableAfter library call done (entries.flatMap (sectionListing payload)) ∧ ∃ state',
      entries.foldlM (normalizeSection library call context payload responseChecksum observedAt)
        state = .ok state' ∧
      Progress library call (done ++ entries.flatMap (sectionListing payload)) state') ∨
    (¬ ReadableAfter library call done (entries.flatMap (sectionListing payload)) ∧ ∃ error,
      entries.foldlM (normalizeSection library call context payload responseChecksum observedAt)
        state = .error error) := by
  induction entries generalizing done state with
  | nil => exact .inl ⟨trivial, state, rfl, by rwa [List.flatMap_nil, List.append_nil]⟩
  | cons entry entries ih =>
      rw [List.foldlM_cons, List.flatMap_cons, readableAfter_append]
      rcases normalizeSection_spec context payload responseChecksum observedAt entry h with
        ⟨hreadable, next, hnext, hprogress⟩ | ⟨hnot, error, herror⟩
      · rw [hnext]
        rcases ih hprogress with ⟨hrest, last, hlast, hdone⟩ | ⟨hnot, error, herror⟩
        · rw [List.append_assoc] at hdone
          exact .inl ⟨⟨hreadable, hrest⟩, last, hlast, hdone⟩
        · exact .inr ⟨fun hall => hnot hall.2, error, herror⟩
      · rw [herror]
        exact .inr ⟨fun hall => hnot hall.1, error, rfl⟩

/-- The state after all items answers them, and no limitation is cut off. -/
theorem Progress.handled {items : List ListedItem} (h : Progress library call items state) :
    Handled call items (state.records, state.limitations.eraseDups.take 20) where
  answered := by
    obtain ⟨outcomes, hall, hrecords, hlimits⟩ := h.answered
    refine ⟨outcomes, hall, hrecords, ?_⟩
    intro limitation hmem
    have hfew : state.limitations.eraseDups.length ≤ 20 :=
      (Order.length_eraseDups_le h.known).trans (by decide)
    rw [List.take_of_length_le hfew, List.mem_eraseDups]
    exact hlimits limitation hmem
  distinct := h.seen_nodup.sublist h.records_seen

variable (library call context payload responseChecksum observedAt)

/-- `sanitize_serp_payload`, and then `_normalize_results` of what it kept. -/
def collectResults :
    Except NormalizeError (List SerpMarketResultRecord × List String) :=
  normalizeResults library call context
    (sanitizeSerpPayload library.render payload call.engine.text) responseChecksum observedAt

/-- The items that the sanitized payload lists. -/
def sanitizedListing : List ListedItem :=
  listing (sanitizeSerpPayload library.render payload call.engine.text) call.engine

/-- Functions that know the digits of ASCII and the superscripts of Latin-1. -/
def latinLibrary : ResultLibrary where
  render := fun _ => []
  casefold := fun t => t.map fun c => if 65 ≤ c ∧ c ≤ 90 then c + 32 else c
  isDigit := fun c => (48 ≤ c && c ≤ 57) || c == 0xB2 || c == 0xB3 || c == 0xB9
  decimal := fun c => if 48 ≤ c ∧ c ≤ 57 then some (c - 48) else none
  hexInteger := fun _ => none
  splitUrl := fun _ => none
  httpUrl := fun _ => none
  urlHost := id
  requestDigest := fun identity => identity.callId

def latinCall : MarketCall := ⟨"sha256:0", "plumber", .googleMaps⟩

def latinContext : MarketContext := ⟨0, 0, "US", "en", .mobile⟩

/-- `{"local_results": [{"title": "a", "position": position}]}`. -/
def positioned (position : Text) : Fields :=
  [("local_results", .list [.dict [("title", .str (text "a")), ("position", .str position)]])]

end Sections

end SearchTrust.Market
