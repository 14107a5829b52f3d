/-
`sanitize_serp_payload`: what is kept of a provider response, and that keeping it
once more changes nothing, before and after it was written as JSON.
-/
import SearchTrust.Market.Values

namespace SearchTrust.Market

/-- `SERP_RESULT_LIMIT_PER_TYPE`. -/
def serpResultLimitPerType : Nat := 20

/-- What becomes of the value of a key; a missing key has none. -/
abbrev Rule := Option Value → Option Value

/-- The dict of those keys of `rules` whose rule keeps something. -/
def Fields.keep (rules : List (String × Rule)) (fields : Fields) : Fields :=
  Fields.present (rules.map fun rule => (rule.1, rule.2 (fields.get rule.1)))

section Sanitizing

variable (render : Value → Text)

/-- `str(value)`, given by `render` for all that is no text. -/
def Value.toText : Value → Text
  | .str value => value
  | value => render value

/-- `str(value or "")`; a missing key reads as `None`. -/
def textOrEmpty : Option Value → Text
  | some value => if value.truthy then value.toText render else []
  | none => []

/-- `_bounded_text(value, limit)`. -/
def boundedText (value : Option Value) (limit : Nat) : Option Text :=
  let stripped := strip (textOrEmpty render value)
  if stripped ≠ [] ∧ stripped.length ≤ limit then some stripped else none

def boundedString (limit : Nat) : Rule := fun value => (boundedText render value limit).map .str

/-- The texts that are kept of an item, with their limits. -/
def stringLimits : List (String × Nat) :=
  [("title", 240), ("name", 240), ("website", 2083), ("link", 2083), ("place_id", 500),
    ("data_id", 500), ("cid", 200), ("address", 500), ("phone", 100), ("type", 240),
    ("snippet", 2000)]

/-- A number or a short text, which the normalization may read as a number. -/
def keptNumber : Rule
  | some (.int value) => if |value| ≤ 10 ^ 12 then some (.int value) else none
  | some (.float value) =>
      if value.isFinite ∧ |value.value| ≤ 10 ^ 12 then some (.float value) else none
  | some (.str value) => if value.length ≤ 30 then some (.str value) else none
  | _ => none

def keptTexts : Rule
  | some (.list values) =>
      some (.list ((values.take 20).filterMap fun value => boundedString render 240 (some value)))
  | _ => none

def itemRules : List (String × Rule) :=
  (stringLimits.map fun entry => (entry.1, boundedString render entry.2)) ++
    (["position", "rating", "reviews", "reviews_count"].map fun key => (key, keptNumber)) ++
    (["types", "categories"].map fun key => (key, keptTexts render))

/-- What is kept of one item of a section. -/
def sanitizeItem : Value → Value
  | .dict item => .dict (Fields.keep (itemRules render) item)
  | _ => .null

def sanitizeSection : Rule
  | none | some .null => none
  | some (.list raw) => some (.list ((raw.take serpResultLimitPerType).map (sanitizeItem render)))
  | some _ => some (.str (text "invalid"))

def metadataRules : List (String × Rule) :=
  ["id", "status"].map fun key => (key, boundedString render 200)

def sanitizeMetadata : Rule
  | some (.dict metadata) => some (.dict (Fields.keep (metadataRules render) metadata))
  | _ => none

def sanitizeError : Rule
  | some value =>
      if value.truthy then
        some (.str ((boundedText render (some value) 500).getD (text "provider_error")))
      else none
  | none => none

def payloadRules (engine : String) : List (String × Rule) :=
  [("search_metadata", sanitizeMetadata render), ("error", sanitizeError render),
    ("local_results", sanitizeSection render)] ++
    if engine = "google" then [("organic_results", sanitizeSection render)] else []

/-- `sanitize_serp_payload(payload, engine)`. -/
def sanitizeSerpPayload (payload : Fields) (engine : String) : Fields :=
  Fields.keep (payloadRules render engine) payload

end Sanitizing

section Settled

/-- What a rule has kept it keeps as it is, also after it was written and read. -/
structure Settled (rule : Rule) : Prop where
  again : ∀ value, rule (rule value) = rule value
  reread : ∀ value, rule ((rule value).map Value.canonical) = rule value

/-- A rule whose results read back as they were written. -/
theorem Settled.of_plain {rule : Rule} (hagain : ∀ value, rule (rule value) = rule value)
    (hplain : ∀ value, (rule value).map Value.canonical = rule value) : Settled rule where
  again := hagain
  reread := fun value => by rw [hplain, hagain]

variable {rules : List (String × Rule)} {fields other : Fields}

theorem Fields.keep_congr (h : ∀ rule ∈ rules,
    rule.2 (other.get rule.1) = rule.2 (fields.get rule.1)) :
    other.keep rules = fields.keep rules := by
  unfold Fields.keep
  refine congrArg Fields.present (List.map_congr_left ?_)
  intro rule hrule
  rw [h rule hrule]

theorem Fields.keys_keep_nodup (hnodup : (rules.map Prod.fst).Nodup) (fields : Fields) :
    ((fields.keep rules).map Prod.fst).Nodup := by
  refine Fields.nodup_present ?_
  rw [List.map_map]
  exact hnodup

theorem Fields.get_keep (hnodup : (rules.map Prod.fst).Nodup) {rule : String × Rule}
    (hrule : rule ∈ rules) : (fields.keep rules).get rule.1 = rule.2 (fields.get rule.1) := by
  refine Fields.get_present ?_ ?_
  · rw [List.map_map]
    exact hnodup
  · exact List.mem_map_of_mem (f := fun rule : String × Rule =>
      (rule.1, rule.2 (fields.get rule.1))) hrule

/-- Keeping twice is keeping once. -/
theorem Fields.keep_keep (hnodup : (rules.map Prod.fst).Nodup)
    (hsettled : ∀ rule ∈ rules, Settled rule.2) :
    (fields.keep rules).keep rules = fields.keep rules := by
  refine Fields.keep_congr ?_
  intro rule hrule
  rw [Fields.get_keep hnodup hrule, (hsettled rule hrule).again]

/-- What was kept, written and read is kept in the same way. -/
theorem Fields.keep_sorted (hnodup : (rules.map Prod.fst).Nodup)
    (hsettled : ∀ rule ∈ rules, Settled rule.2) :
    Fields.keep rules ((Value.canonicalFields (fields.keep rules)).mergeSort Value.keyLe) =
      fields.keep rules := by
  refine Fields.keep_congr ?_
  intro rule hrule
  rw [Fields.get_sorted (Fields.keys_keep_nodup hnodup fields), Fields.get_keep hnodup hrule,
    (hsettled rule hrule).reread]

end Settled

section Fixed

variable {render : Value → Text} {limit : Nat}

/-- A bounded text is stripped, not empty and within its bound. -/
theorem boundedText_str {value : Option Value} {t : Text}
    (h : boundedText render value limit = some t) :
    boundedText render (some (.str t)) limit = some t := by
  unfold boundedText at h
  simp only at h
  split at h
  next hbounds =>
    have ht := Option.some.inj h
    rw [ht] at hbounds
    have hstrip : strip t = t := by
      rw [← ht, strip_strip]
    have htruthy : (Value.str t).truthy = true := by
      rw [Value.truthy, Bool.not_eq_true', List.isEmpty_eq_false_iff]
      exact hbounds.1
    unfold boundedText textOrEmpty
    simp only [htruthy, if_true, Value.toText, hstrip]
    rw [if_pos hbounds]
  next => cases h

theorem boundedString_settled (limit : Nat) : Settled (boundedString render limit) := by
  refine .of_plain ?_ ?_
  · intro value
    unfold boundedString
    cases h : boundedText render value limit with
    | none => rfl
    | some t =>
        have hfixed := boundedText_str h
        rw [Option.map_some, hfixed, Option.map_some]
  · intro value
    unfold boundedString
    cases boundedText render value limit with
    | none => rfl
    | some t => rfl

theorem keptNumber_settled : Settled keptNumber := by
  have hcases : ∀ value, keptNumber value = none ∨
      ∃ kept, keptNumber value = some kept ∧ keptNumber (some kept) = some kept ∧
        kept.canonical = kept := by
    intro value
    unfold keptNumber
    split
    next value =>
      split
      next h => exact .inr ⟨.int value, rfl, if_pos h, rfl⟩
      next => exact .inl rfl
    next value =>
      split
      next h => exact .inr ⟨.float value, rfl, if_pos h, if_pos h.1⟩
      next => exact .inl rfl
    next value =>
      split
      next h => exact .inr ⟨.str value, rfl, if_pos h, rfl⟩
      next => exact .inl rfl
    next => exact .inl rfl
  refine .of_plain ?_ ?_
  · intro value
    rcases hcases value with h | ⟨kept, h, hagain, -⟩
    · rw [h]
      rfl
    · rw [h, hagain]
  · intro value
    rcases hcases value with h | ⟨kept, h, -, hplain⟩
    · rw [h]
      rfl
    · rw [h, Option.map_some, hplain]

theorem keptTexts_settled : Settled (keptTexts render) := by
  have hfixed : ∀ values : List Value,
      ∀ kept ∈ (values.take 20).filterMap fun value => boundedString render 240 (some value),
        boundedString render 240 (some kept) = some kept ∧ kept.canonical = kept := by
    intro values kept hkept
    obtain ⟨value, -, hvalue⟩ := List.mem_filterMap.1 hkept
    have hsettled : Settled (boundedString render 240) := boundedString_settled 240
    have hagain := hsettled.again (some value)
    rw [hvalue] at hagain
    obtain ⟨t, -, rfl⟩ := Option.map_eq_some_iff.1 hvalue
    exact ⟨hagain, rfl⟩
  refine .of_plain ?_ ?_
  · intro value
    match value with
    | some (.list values) =>
        have hlength : ((values.take 20).filterMap fun value =>
            boundedString render 240 (some value)).length ≤ 20 := by
          refine (List.length_filterMap_le _ _).trans ?_
          rw [List.length_take]
          exact Nat.min_le_left _ _
        simp only [keptTexts]
        rw [List.take_of_length_le hlength]
        refine congrArg (fun items => some (Value.list items)) ?_
        refine (List.filterMap_congr fun kept hkept => (hfixed values kept hkept).1).trans ?_
        exact List.filterMap_some
    | none | some .null | some (.bool _) | some (.int _) | some (.float _) | some (.str _)
    | some (.dict _) => rfl
  · intro value
    match value with
    | some (.list values) =>
        simp only [keptTexts, Option.map_some, Value.canonical, Value.canonicalItems_eq_map]
        refine congrArg (fun items => some (Value.list items)) ?_
        refine (List.map_congr_left fun kept hkept => (hfixed values kept hkept).2).trans ?_
        exact List.map_id _
    | none | some .null | some (.bool _) | some (.int _) | some (.float _) | some (.str _)
    | some (.dict _) => rfl

theorem itemRules_settled : ∀ rule ∈ itemRules render, Settled rule.2 := by
  intro rule hrule
  rcases List.mem_append.1 hrule with hrule | hrule
  · rcases List.mem_append.1 hrule with hrule | hrule
    · obtain ⟨entry, -, rfl⟩ := List.mem_map.1 hrule
      exact boundedString_settled entry.2
    · obtain ⟨key, -, rfl⟩ := List.mem_map.1 hrule
      exact keptNumber_settled
  · obtain ⟨key, -, rfl⟩ := List.mem_map.1 hrule
    exact keptTexts_settled

theorem itemRules_nodup : ((itemRules render).map Prod.fst).Nodup := by
  have hkeys : (itemRules render).map Prod.fst =
      ["title", "name", "website", "link", "place_id", "data_id", "cid", "address", "phone",
        "type", "snippet", "position", "rating", "reviews", "reviews_count", "types",
        "categories"] := rfl
  rw [hkeys]
  decide

theorem sanitizeItem_sanitizeItem (item : Value) :
    sanitizeItem render (sanitizeItem render item) = sanitizeItem render item := by
  cases item with
  | dict fields =>
      exact congrArg Value.dict (Fields.keep_keep itemRules_nodup itemRules_settled)
  | _ => rfl

theorem sanitizeItem_canonical (item : Value) :
    sanitizeItem render (sanitizeItem render item).canonical = sanitizeItem render item := by
  cases item with
  | dict fields =>
      exact congrArg Value.dict (Fields.keep_sorted itemRules_nodup itemRules_settled)
  | _ => rfl

theorem sanitizeSection_settled : Settled (sanitizeSection render) := by
  have hshort : ∀ raw : List Value,
      ((raw.take serpResultLimitPerType).map (sanitizeItem render)).length ≤
        serpResultLimitPerType := by
    intro raw
    rw [List.length_map, List.length_take]
    exact Nat.min_le_left _ _
  constructor
  · intro value
    match value with
    | some (.list raw) =>
        simp only [sanitizeSection]
        rw [List.take_of_length_le (hshort raw), List.map_map]
        refine congrArg (fun items => some (Value.list items)) (List.map_congr_left ?_)
        intro item _
        exact sanitizeItem_sanitizeItem item
    | none | some .null | some (.bool _) | some (.int _) | some (.float _) | some (.str _)
    | some (.dict _) => rfl
  · intro value
    match value with
    | some (.list raw) =>
        simp only [sanitizeSection, Option.map_some, Value.canonical, Value.canonicalItems_eq_map]
        rw [List.take_of_length_le (by rw [List.length_map]; exact hshort raw), List.map_map,
          List.map_map]
        refine congrArg (fun items => some (Value.list items)) (List.map_congr_left ?_)
        intro item _
        exact sanitizeItem_canonical item
    | none | some .null | some (.bool _) | some (.int _) | some (.float _) | some (.str _)
    | some (.dict _) => rfl

theorem metadataRules_settled : ∀ rule ∈ metadataRules render, Settled rule.2 := by
  intro rule hrule
  obtain ⟨key, -, rfl⟩ := List.mem_map.1 hrule
  exact boundedString_settled 200

theorem metadataRules_nodup : ((metadataRules render).map Prod.fst).Nodup := by
  have hkeys : (metadataRules render).map Prod.fst = ["id", "status"] := rfl
  rw [hkeys]
  decide

theorem sanitizeMetadata_settled : Settled (sanitizeMetadata render) := by
  constructor
  · intro value
    match value with
    | some (.dict metadata) =>
        exact congrArg (fun fields => some (Value.dict fields))
          (Fields.keep_keep metadataRules_nodup metadataRules_settled)
    | none | some .null | some (.bool _) | some (.int _) | some (.float _) | some (.str _)
    | some (.list _) => rfl
  · intro value
    match value with
    | some (.dict metadata) =>
        exact congrArg (fun fields => some (Value.dict fields))
          (Fields.keep_sorted metadataRules_nodup metadataRules_settled)
    | none | some .null | some (.bool _) | some (.int _) | some (.float _) | some (.str _)
    | some (.list _) => rfl

theorem boundedText_provider_error :
    boundedText render (some (.str (text "provider_error"))) 500 =
      some (text "provider_error") := by
  have htext : textOrEmpty render (some (.str (text "provider_error"))) =
      text "provider_error" := rfl
  rw [boundedText, htext]
  decide

theorem sanitizeError_settled : Settled (sanitizeError render) := by
  have hcases : ∀ value, sanitizeError render value = none ∨
      ∃ t, sanitizeError render value = some (.str t) ∧
        boundedText render (some (.str t)) 500 = some t := by
    intro value
    unfold sanitizeError
    split
    next value =>
      split
      next =>
        refine .inr ⟨_, rfl, ?_⟩
        cases h : boundedText render (some value) 500 with
        | none => exact boundedText_provider_error
        | some t => exact boundedText_str h
      next => exact .inl rfl
    next => exact .inl rfl
  refine .of_plain ?_ ?_
  · intro value
    rcases hcases value with h | ⟨t, h, hfixed⟩
    · rw [h]
      rfl
    · have htruthy : (Value.str t).truthy = true := by
        by_contra hfalse
        rw [Bool.not_eq_true] at hfalse
        unfold boundedText textOrEmpty at hfixed
        simp [hfalse, strip] at hfixed
      rw [h, sanitizeError]
      simp only [htruthy, if_true, hfixed, Option.getD_some]
  · intro value
    rcases hcases value with h | ⟨t, h, -⟩
    · rw [h]
      rfl
    · rw [h]
      rfl

theorem payloadRules_settled (engine : String) :
    ∀ rule ∈ payloadRules render engine, Settled rule.2 := by
  intro rule hrule
  rcases List.mem_append.1 hrule with hrule | hrule
  · simp only [List.mem_cons, List.not_mem_nil, or_false] at hrule
    rcases hrule with rfl | rfl | rfl
    · exact sanitizeMetadata_settled
    · exact sanitizeError_settled
    · exact sanitizeSection_settled
  · split at hrule
    next =>
      rw [List.mem_singleton.1 hrule]
      exact sanitizeSection_settled
    next => exact absurd hrule List.not_mem_nil

theorem payloadRules_nodup (engine : String) :
    ((payloadRules render engine).map Prod.fst).Nodup := by
  unfold payloadRules
  split
  · change ["search_metadata", "error", "local_results", "organic_results"].Nodup
    decide
  · change ["search_metadata", "error", "local_results"].Nodup
    decide

/-- Sanitizing a sanitized payload changes nothing. -/
theorem sanitizeSerpPayload_idempotent (payload : Fields) (engine : String) :
    sanitizeSerpPayload render (sanitizeSerpPayload render payload engine) engine =
      sanitizeSerpPayload render payload engine :=
  Fields.keep_keep (payloadRules_nodup engine) (payloadRules_settled engine)

/-- Nor does it change one that was written and read back. -/
theorem sanitizeSerpPayload_canonical (payload : Fields) (engine : String) :
    sanitizeSerpPayload render
        (Value.canonicalDict (sanitizeSerpPayload render payload engine)) engine =
      sanitizeSerpPayload render payload engine :=
  Fields.keep_sorted (payloadRules_nodup engine) (payloadRules_settled engine)

end Fixed

end SearchTrust.Market
