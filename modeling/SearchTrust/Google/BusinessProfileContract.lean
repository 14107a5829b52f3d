/-
A location, the metrics of a window and a page of keywords are refused with the one error,
or they are what they promise.  The one exception is a keyword that is null: the error it
raises is none of those that are caught.
-/
import SearchTrust.Google.BusinessProfile

namespace SearchTrust.Google

open SearchTrust.Market (Text text Value Fields encodable)
open SearchTrust.Report (Date)
open SearchTrust.Report.Outcomes

section Raising

variable {lib : AnswerLibrary} {start stop : Date}

theorem raisesOnly_rowsOf (value : Value) (maximum : ℕ) :
    RaisesOnly profileErrors (rowsOf value maximum) := by
  unfold rowsOf
  split
  next => exact raisesOnly_ok _
  next =>
    apply raisesOnly_bind (raisesOnly_demand (by decide))
    intro _ _
    exact raisesOnly_mapM _ fun item _ => raisesOnly_dictOf (by decide) item
  next => exact raisesOnly_error (by decide)

theorem rowsOf_length {value : Value} {maximum : ℕ} {rows : List Fields}
    (h : rowsOf value maximum = .ok rows) : rows.length ≤ maximum := by
  unfold rowsOf at h
  split at h
  next =>
    cases h
    exact Nat.zero_le _
  next =>
    obtain ⟨_, hdemand, h⟩ := ok_of_bind h
    rw [← (forall₂_of_mapM_ok h).length_eq]
    exact ok_of_demand hdemand
  next => cases h

theorem raisesOnly_textOf (value : Value) (maximum : ℕ) :
    RaisesOnly profileErrors (textOf value maximum) := by
  unfold textOf
  split
  next => exact raisesOnly_ok _
  next =>
    split
    next => exact raisesOnly_ok _
    next => exact raisesOnly_error (by decide)
  next => exact raisesOnly_error (by decide)

theorem raisesOnly_booleanOf (value : Value) : RaisesOnly profileErrors (booleanOf value) := by
  unfold booleanOf
  split
  next => exact raisesOnly_ok _
  next => exact raisesOnly_ok _
  next => exact raisesOnly_error (by decide)

theorem raisesOnly_profileInt (value : Value) : RaisesOnly profileErrors (profileInt value) := by
  unfold profileInt
  split
  next =>
    split
    next => exact raisesOnly_ok _
    next => exact raisesOnly_error (by decide)
  next => exact raisesOnly_error (by decide)

theorem raisesOnly_dictField (fields : Fields) (key : String) :
    RaisesOnly profileErrors (dictField fields key) := raisesOnly_dictOf (by decide) _

theorem raisesOnly_integerOf (value : Value) : RaisesOnly profileErrors (integerOf value) := by
  unfold integerOf
  split
  next => exact raisesOnly_ok _
  next => exact raisesOnly_error (by decide)

theorem raisesOnly_dateOf (year month day : ℤ) :
    RaisesOnly profileErrors (dateOf lib year month day) := by
  unfold dateOf
  split
  next => exact raisesOnly_error (by decide)
  next =>
    split
    next =>
      split
      next => exact raisesOnly_ok _
      next => exact raisesOnly_error (by decide)
    next => exact raisesOnly_error (by decide)

theorem raisesOnly_windowDate (value : Value) :
    RaisesOnly profileErrors (windowDate lib value start stop) := by
  have hitem : ∀ fields key, RaisesOnly profileErrors (item fields key) :=
    raisesOnly_item (by decide)
  unfold windowDate
  apply raisesOnly_bind (raisesOnly_dictOf (by decide) value)
  intro fields _
  apply raisesOnly_bind (raisesOnly_demand (by decide))
  intro _ _
  apply raisesOnly_bind (hitem _ _)
  intro year _
  apply raisesOnly_bind (raisesOnly_integerOf year)
  intro year _
  apply raisesOnly_bind (hitem _ _)
  intro month _
  apply raisesOnly_bind (raisesOnly_integerOf month)
  intro month _
  apply raisesOnly_bind (hitem _ _)
  intro day _
  apply raisesOnly_bind (raisesOnly_integerOf day)
  intro day _
  apply raisesOnly_bind (raisesOnly_dateOf _ _ _)
  intro date _
  apply raisesOnly_bind (raisesOnly_demand (by decide))
  intro _ _
  exact raisesOnly_ok _

theorem windowDate_eq_ok {value : Value} {day : Date}
    (h : windowDate lib value start stop = .ok day) : start ≤ day ∧ day ≤ stop := by
  unfold windowDate at h
  obtain ⟨_, _, h⟩ := ok_of_bind h
  obtain ⟨_, _, h⟩ := ok_of_bind h
  obtain ⟨_, _, h⟩ := ok_of_bind h
  obtain ⟨_, _, h⟩ := ok_of_bind h
  obtain ⟨_, _, h⟩ := ok_of_bind h
  obtain ⟨_, _, h⟩ := ok_of_bind h
  obtain ⟨_, _, h⟩ := ok_of_bind h
  obtain ⟨_, _, h⟩ := ok_of_bind h
  obtain ⟨date, _, h⟩ := ok_of_bind h
  obtain ⟨_, hdemand, h⟩ := ok_of_bind h
  cases h
  exact ok_of_demand hdemand

end Raising

section Location

variable {lib : AnswerLibrary}

theorem raisesOnly_checkWebsite (website : Option Text) :
    RaisesOnly profileErrors (checkWebsite lib website) := by
  unfold checkWebsite
  split
  next =>
    unfold checkUrl
    split
    next => exact raisesOnly_error (by decide)
    next => exact raisesOnly_demand (by decide)
  next => exact raisesOnly_ok _

theorem raisesOnly_readLocation (payload : Value) (resourceId : Text) :
    RaisesOnly profileErrors (readLocation lib payload resourceId) := by
  unfold readLocation
  apply raisesOnly_bind (raisesOnly_dictOf (by decide) payload)
  intro fields _
  apply raisesOnly_bind (raisesOnly_demand (by decide))
  intro _ _
  apply raisesOnly_bind (raisesOnly_textOf _ _)
  intro title _
  apply raisesOnly_bind (raisesOnly_textOf _ _)
  intro website _
  apply raisesOnly_bind (raisesOnly_checkWebsite website)
  intro _ _
  apply raisesOnly_bind (raisesOnly_dictField _ _)
  intro phones _
  apply raisesOnly_bind (raisesOnly_textOf _ _)
  intro phone _
  apply raisesOnly_bind (raisesOnly_dictField _ _)
  intro categories _
  apply raisesOnly_bind (raisesOnly_dictField _ _)
  intro category _
  apply raisesOnly_bind (raisesOnly_textOf _ _)
  intro categoryName _
  apply raisesOnly_bind (raisesOnly_dictField _ _)
  intro hours _
  apply raisesOnly_bind (raisesOnly_rowsOf _ _)
  intro periods _
  apply raisesOnly_bind (raisesOnly_dictField _ _)
  intro address _
  apply raisesOnly_bind (raisesOnly_dictField _ _)
  intro area _
  apply raisesOnly_bind (raisesOnly_dictField _ _)
  intro openInfo _
  apply raisesOnly_bind (raisesOnly_textOf _ _)
  intro status _
  apply raisesOnly_bind (raisesOnly_demand (by decide))
  intro _ _
  apply raisesOnly_bind (raisesOnly_dictField _ _)
  intro metadata _
  apply raisesOnly_bind (raisesOnly_booleanOf _)
  intro voice _
  apply raisesOnly_bind (raisesOnly_dictField _ _)
  intro _ _
  apply raisesOnly_bind (raisesOnly_dictField _ _)
  intro _ _
  apply raisesOnly_bind (raisesOnly_rowsOf _ _)
  intro _ _
  apply raisesOnly_bind (raisesOnly_rowsOf _ _)
  intro _ _
  exact raisesOnly_ok _

/-- A location is refused with the one error, or its checks are given. -/
theorem normalizeLocation_answers (payload : Value) (resourceId : Text) :
    Answers (fun _ => True) (normalizeLocation lib payload resourceId) :=
  answers_guarded (raisesOnly_readLocation payload resourceId) fun _ _ => trivial

end Location

section Performance

variable {lib : AnswerLibrary} {start stop : Date}

/-- What the days of a metric are. -/
structure SeriesFits (start stop : Date) (values : List (Date × ℕ)) : Prop where
  days : (values.map Prod.fst).Nodup
  window : ∀ entry ∈ values, start ≤ entry.1 ∧ entry.1 ≤ stop
  length : values.length ≤ 180

/-- What the metrics of a window are. -/
structure PerformanceFits (start stop : Date) (performance : Performance) : Prop where
  metrics : (performance.map Prod.fst).Nodup
  known : ∀ entry ∈ performance, entry.1 ∈ dailyMetrics
  series : ∀ entry ∈ performance, SeriesFits start stop entry.2

theorem raisesOnly_addPoint (values : List (Date × ℕ)) (point : Fields) :
    RaisesOnly profileErrors (addPoint lib start stop values point) := by
  unfold addPoint
  apply raisesOnly_bind (raisesOnly_demand (by decide))
  intro _ _
  apply raisesOnly_bind (raisesOnly_windowDate _)
  intro day _
  apply raisesOnly_bind (raisesOnly_demand (by decide))
  intro _ _
  apply raisesOnly_bind
  · unfold pointCount
    split
    next => exact raisesOnly_ok _
    next => exact raisesOnly_profileInt _
  intro count _
  exact raisesOnly_ok _

/-- One more day keeps the days apart and in the window. -/
theorem addPoint_eq_ok {values next : List (Date × ℕ)} {point : Fields}
    (h : addPoint lib start stop values point = .ok next) :
    ∃ day count, next = values ++ [(day, count)] ∧ day ∉ values.map Prod.fst ∧
      start ≤ day ∧ day ≤ stop := by
  unfold addPoint at h
  obtain ⟨_, _, h⟩ := ok_of_bind h
  obtain ⟨day, hday, h⟩ := ok_of_bind h
  obtain ⟨_, hfresh, h⟩ := ok_of_bind h
  obtain ⟨count, _, h⟩ := ok_of_bind h
  cases h
  exact ⟨day, count, rfl, ok_of_demand hfresh, windowDate_eq_ok hday⟩

theorem addPoints_eq_ok {points : List Fields} {values result : List (Date × ℕ)}
    (h : points.foldlM (addPoint lib start stop) values = .ok result)
    (hdays : (values.map Prod.fst).Nodup)
    (hwindow : ∀ entry ∈ values, start ≤ entry.1 ∧ entry.1 ≤ stop) :
    (result.map Prod.fst).Nodup ∧ (∀ entry ∈ result, start ≤ entry.1 ∧ entry.1 ≤ stop) ∧
      result.length = values.length + points.length := by
  induction points generalizing values with
  | nil =>
      cases h
      exact ⟨hdays, hwindow, rfl⟩
  | cons point points ih =>
      rw [List.foldlM_cons] at h
      obtain ⟨next, hnext, h⟩ := ok_of_bind h
      obtain ⟨day, count, rfl, hfresh, hday⟩ := addPoint_eq_ok hnext
      have hnodup : ((values ++ [(day, count)]).map Prod.fst).Nodup := by
        rw [List.map_append]
        apply List.Nodup.append hdays (List.nodup_singleton _)
        simpa using hfresh
      have hall : ∀ entry ∈ values ++ [(day, count)], start ≤ entry.1 ∧ entry.1 ≤ stop := by
        intro entry hentry
        rcases List.mem_append.1 hentry with hold | hnew
        · exact hwindow entry hold
        · rw [List.mem_singleton.1 hnew]
          exact hday
      obtain ⟨hresult, hin, hlength⟩ := ih h hnodup hall
      refine ⟨hresult, hin, ?_⟩
      rw [hlength, List.length_append, List.length_singleton, List.length_cons]
      omega

theorem raisesOnly_addSeries (result : Performance) (series : Fields) :
    RaisesOnly profileErrors (addSeries lib start stop result series) := by
  unfold addSeries
  apply raisesOnly_bind (raisesOnly_demand (by decide))
  intro _ _
  apply raisesOnly_bind (raisesOnly_textOf _ _)
  intro metric _
  split
  next => exact raisesOnly_error (by decide)
  next =>
    apply raisesOnly_bind (raisesOnly_demand (by decide))
    intro _ _
    apply raisesOnly_bind (raisesOnly_dictField _ _)
    intro timeSeries _
    apply raisesOnly_bind (raisesOnly_demand (by decide))
    intro _ _
    apply raisesOnly_bind (raisesOnly_rowsOf _ _)
    intro points _
    apply raisesOnly_bind (raisesOnly_foldlM raisesOnly_addPoint _ _)
    intro values _
    exact raisesOnly_ok _

theorem PerformanceFits.addSeries {result next : Performance} {series : Fields}
    (hresult : PerformanceFits start stop result)
    (h : addSeries lib start stop result series = .ok next) : PerformanceFits start stop next := by
  unfold Google.addSeries at h
  obtain ⟨_, _, h⟩ := ok_of_bind h
  obtain ⟨metric, _, h⟩ := ok_of_bind h
  split at h
  next => cases h
  next metric =>
    obtain ⟨_, hdemand, h⟩ := ok_of_bind h
    obtain ⟨timeSeries, _, h⟩ := ok_of_bind h
    obtain ⟨_, _, h⟩ := ok_of_bind h
    obtain ⟨points, hpoints, h⟩ := ok_of_bind h
    obtain ⟨values, hvalues, h⟩ := ok_of_bind h
    cases h
    obtain ⟨hknown, hfresh, _⟩ := ok_of_demand hdemand
    have hnone : ∀ entry ∈ ([] : List (Date × ℕ)), start ≤ entry.1 ∧ entry.1 ≤ stop :=
      fun _ h => absurd h List.not_mem_nil
    obtain ⟨hdays, hwindow, hlength⟩ := addPoints_eq_ok hvalues List.nodup_nil hnone
    have hfew : values.length ≤ 180 := by
      rw [hlength]
      simpa using rowsOf_length hpoints
    refine ⟨?_, ?_, ?_⟩
    · rw [List.map_append]
      apply List.Nodup.append hresult.metrics (List.nodup_singleton _)
      simpa using hfresh
    · intro entry hentry
      rcases List.mem_append.1 hentry with hold | hnew
      · exact hresult.known entry hold
      · rw [List.mem_singleton.1 hnew]
        exact hknown
    · intro entry hentry
      rcases List.mem_append.1 hentry with hold | hnew
      · exact hresult.series entry hold
      · rw [List.mem_singleton.1 hnew]
        exact ⟨hdays, hwindow, hfew⟩

theorem raisesOnly_addGroup (result : Performance) (group : Fields) :
    RaisesOnly profileErrors (addGroup lib start stop result group) := by
  unfold addGroup
  apply raisesOnly_bind (raisesOnly_demand (by decide))
  intro _ _
  apply raisesOnly_bind (raisesOnly_rowsOf _ _)
  intro series _
  exact raisesOnly_foldlM raisesOnly_addSeries _ _

theorem PerformanceFits.addGroup {result next : Performance} {group : Fields}
    (hresult : PerformanceFits start stop result)
    (h : addGroup lib start stop result group = .ok next) : PerformanceFits start stop next := by
  obtain ⟨_, _, h⟩ := ok_of_bind h
  obtain ⟨series, _, h⟩ := ok_of_bind h
  exact foldlM_keeps (fun _ _ _ hs hstep => PerformanceFits.addSeries hs hstep) hresult h

/-- The metrics are refused with the one error, or they are those of the window. -/
theorem normalizePerformance_answers (payload : Value) (start stop : Date) :
    Answers (PerformanceFits start stop) (normalizePerformance lib payload start stop) := by
  apply answers_guarded
  · apply raisesOnly_bind (raisesOnly_dictOf (by decide) payload)
    intro fields _
    apply raisesOnly_bind (raisesOnly_demand (by decide))
    intro _ _
    apply raisesOnly_bind (raisesOnly_rowsOf _ _)
    intro groups _
    exact raisesOnly_foldlM raisesOnly_addGroup _ _
  · intro performance h
    obtain ⟨fields, _, h⟩ := ok_of_bind h
    obtain ⟨_, _, h⟩ := ok_of_bind h
    obtain ⟨groups, _, h⟩ := ok_of_bind h
    have hnone : PerformanceFits start stop [] :=
      ⟨List.nodup_nil, fun _ h => absurd h List.not_mem_nil, fun _ h => absurd h List.not_mem_nil⟩
    exact foldlM_keeps (fun _ _ _ hs hstep => PerformanceFits.addGroup hs hstep) hnone h

end Performance

section Keywords

variable {lib : AnswerLibrary} {payload : Value} {seen : List Text}

/-- What a page of keywords is. -/
structure KeywordPageFits (lib : AnswerLibrary) (payload : Value) (seen : List Text)
    (page : KeywordPage) : Prop where
  keywords : (page.rows.map fun row => lib.casefold row.keyword).Nodup
  fresh : ∀ row ∈ page.rows, lib.casefold row.keyword ∉ seen
  seen : page.seen = seen ++ page.rows.map fun row => lib.casefold row.keyword
  length : page.rows.length ≤ 100
  rows : ∀ fields values, keywordValues payload = .ok (fields, values) →
    page.rows.length = values.length

/-- A keyword of the shape of a row that is null. -/
def IsNullKeyword (raw : Fields) : Prop :=
  KeysAre raw ["searchKeyword", "insightsValue"] ∧ raw.get "searchKeyword" = some .null

/-- An answer whose first rows are accepted, and whose next keyword is null. -/
def ReachesNullKeyword (lib : AnswerLibrary) (payload : Value) (seen : List Text) : Prop :=
  ∃ fields before raw after, keywordValues payload = .ok (fields, before ++ raw :: after) ∧
    (before.foldlM (addKeyword lib) (seen, [])).isOk = true ∧ IsNullKeyword raw

theorem raisesOnly_insightOf (fields : Fields) : RaisesOnly profileErrors (insightOf fields) := by
  unfold insightOf
  split
  next =>
    apply raisesOnly_bind (raisesOnly_item (by decide) _ _)
    intro value _
    apply raisesOnly_bind (raisesOnly_profileInt value)
    intro n _
    exact raisesOnly_ok _
  next =>
    split
    next =>
      apply raisesOnly_bind (raisesOnly_item (by decide) _ _)
      intro value _
      apply raisesOnly_bind (raisesOnly_profileInt value)
      intro n _
      exact raisesOnly_ok _
    next => exact raisesOnly_error (by decide)

theorem keywordRow_eq_ok {keyword : Text} {insight : Insight} {row : KeywordRow}
    (h : keywordRow keyword insight = .ok row) : row.keyword = keyword := by
  unfold keywordRow at h
  split at h
  next =>
    cases h
    rfl
  next => cases h

theorem textOf_eq_none {value : Value} {maximum : ℕ} (h : textOf value maximum = .ok none) :
    value = .null := by
  unfold textOf at h
  split at h
  next => rfl
  next =>
    split at h
    next => cases h
    next => cases h
  next => cases h

theorem item_eq_ok {fields : Fields} {key : String} {value : Value}
    (h : item fields key = .ok value) : fields.get key = some value := by
  unfold item at h
  split at h
  next other hother =>
    obtain rfl := Except.ok.inj h
    exact hother
  next => cases h

/-- A row raises an error that is not caught only where its keyword is null. -/
theorem addKeyword_error {state : List Text × List KeywordRow} {raw : Fields} {e : Exc}
    (h : addKeyword lib state raw = .error e) : e ∈ profileErrors ∨ IsNullKeyword raw := by
  have hitem : ∀ fields key, RaisesOnly profileErrors (item fields key) :=
    raisesOnly_item (by decide)
  unfold addKeyword at h
  rcases error_of_bind h with h | ⟨_, hkeys, h⟩
  · exact .inl (raisesOnly_demand (by decide) e h)
  rcases error_of_bind h with h | ⟨value, hvalue, h⟩
  · exact .inl (hitem _ _ e h)
  rcases error_of_bind h with h | ⟨keyword, hkeyword, h⟩
  · exact .inl (raisesOnly_textOf _ _ e h)
  cases keyword with
  | none =>
      right
      refine ⟨ok_of_demand hkeys, ?_⟩
      rw [item_eq_ok hvalue, textOf_eq_none hkeyword]
  | some keyword =>
      left
      have hrest : RaisesOnly profileErrors (do
          let folded ← foldedKeyword lib (some keyword)
          demand (folded.2 ∉ state.1)
          let value ← item raw "insightsValue"
          let fields ← dictOf value
          let insight ← insightOf fields
          let row ← keywordRow folded.1 insight
          return (state.1 ++ [folded.2], state.2 ++ [row])) := by
        apply raisesOnly_bind (raisesOnly_ok _)
        intro folded _
        apply raisesOnly_bind (raisesOnly_demand (by decide))
        intro _ _
        apply raisesOnly_bind (hitem _ _)
        intro value _
        apply raisesOnly_bind (raisesOnly_dictOf (by decide) value)
        intro fields _
        apply raisesOnly_bind (raisesOnly_insightOf fields)
        intro insight _
        apply raisesOnly_bind
        · unfold keywordRow
          split
          next => exact raisesOnly_ok _
          next => exact raisesOnly_error (by decide)
        intro row _
        exact raisesOnly_ok _
      exact hrest e h

/-- A null keyword raises an `AttributeError`. -/
theorem addKeyword_null {state : List Text × List KeywordRow} {raw : Fields}
    (h : IsNullKeyword raw) : addKeyword lib state raw = .error .attributeError := by
  unfold addKeyword
  simp only [demand, if_pos h.1, ok_bind, item, h.2, textOf, foldedKeyword]
  rfl

theorem addKeyword_eq_ok {state next : List Text × List KeywordRow} {raw : Fields}
    (h : addKeyword lib state raw = .ok next) :
    ∃ row, next = (state.1 ++ [lib.casefold row.keyword], state.2 ++ [row]) ∧
      lib.casefold row.keyword ∉ state.1 := by
  unfold addKeyword at h
  obtain ⟨_, _, h⟩ := ok_of_bind h
  obtain ⟨_, _, h⟩ := ok_of_bind h
  obtain ⟨keyword, _, h⟩ := ok_of_bind h
  obtain ⟨folded, hfolded, h⟩ := ok_of_bind h
  obtain ⟨_, hfresh, h⟩ := ok_of_bind h
  obtain ⟨_, _, h⟩ := ok_of_bind h
  obtain ⟨_, _, h⟩ := ok_of_bind h
  obtain ⟨_, _, h⟩ := ok_of_bind h
  obtain ⟨row, hrow, h⟩ := ok_of_bind h
  cases h
  have hpair : folded.2 = lib.casefold folded.1 := by
    cases keyword with
    | none => cases hfolded
    | some t =>
        cases hfolded
        rfl
  rw [hpair, ← keywordRow_eq_ok hrow] at hfresh ⊢
  exact ⟨row, rfl, ok_of_demand hfresh⟩

/-- The rows that have been read: the seen keywords are those before and theirs. -/
theorem addKeywords_eq_ok {values : List Fields} {state result : List Text × List KeywordRow}
    (h : values.foldlM (addKeyword lib) state = .ok result) :
    ∃ rows, result = (state.1 ++ rows.map (fun row => lib.casefold row.keyword), state.2 ++ rows) ∧
      rows.length = values.length ∧ (rows.map fun row => lib.casefold row.keyword).Nodup ∧
      ∀ row ∈ rows, lib.casefold row.keyword ∉ state.1 := by
  induction values generalizing state with
  | nil =>
      cases h
      exact ⟨[], by simp, rfl, List.nodup_nil, fun _ h => absurd h List.not_mem_nil⟩
  | cons raw values ih =>
      rw [List.foldlM_cons] at h
      obtain ⟨next, hnext, h⟩ := ok_of_bind h
      obtain ⟨row, rfl, hfresh⟩ := addKeyword_eq_ok hnext
      obtain ⟨rows, rfl, hlength, hnodup, hnew⟩ := ih h
      refine ⟨row :: rows, by simp, by simp [hlength], ?_, ?_⟩
      · rw [List.map_cons]
        apply List.nodup_cons.2
        refine ⟨?_, hnodup⟩
        intro hmem
        obtain ⟨other, hother, hsame⟩ := List.mem_map.1 hmem
        apply hnew other hother
        simp [hsame]
      · intro other hother
        rcases List.mem_cons.1 hother with rfl | hrest
        · exact hfresh
        · intro hmem
          exact hnew other hrest (List.mem_append_left _ hmem)

/-- A page raises an error that is not caught only where it reaches a null keyword. -/
theorem addKeywords_error {values : List Fields} {state : List Text × List KeywordRow} {e : Exc}
    (h : values.foldlM (addKeyword lib) state = .error e) :
    e ∈ profileErrors ∨ ∃ before raw after, values = before ++ raw :: after ∧
      (before.foldlM (addKeyword lib) state).isOk = true ∧ IsNullKeyword raw := by
  induction values generalizing state with
  | nil => cases h
  | cons raw values ih =>
      rw [List.foldlM_cons] at h
      rcases error_of_bind h with hraw | ⟨next, hnext, h⟩
      · rcases addKeyword_error hraw with hcaught | hnull
        · exact .inl hcaught
        · exact .inr ⟨[], raw, values, rfl, rfl, hnull⟩
      · rcases ih h with hcaught | ⟨before, other, after, rfl, hbefore, hnull⟩
        · exact .inl hcaught
        · refine .inr ⟨raw :: before, other, after, rfl, ?_, hnull⟩
          rw [List.foldlM_cons, hnext, ok_bind]
          exact hbefore

theorem raisesOnly_keywordValues : RaisesOnly profileErrors (keywordValues payload) := by
  unfold keywordValues
  apply raisesOnly_bind (raisesOnly_dictOf (by decide) payload)
  intro fields _
  apply raisesOnly_bind (raisesOnly_demand (by decide))
  intro _ _
  apply raisesOnly_bind (raisesOnly_rowsOf _ _)
  intro values _
  exact raisesOnly_ok _

theorem keywordValues_length {read : Fields × List Fields}
    (h : keywordValues payload = .ok read) : read.2.length ≤ 100 := by
  unfold keywordValues at h
  obtain ⟨_, _, h⟩ := ok_of_bind h
  obtain ⟨_, _, h⟩ := ok_of_bind h
  obtain ⟨values, hvalues, h⟩ := ok_of_bind h
  cases h
  exact rowsOf_length hvalues

theorem readKeywordPage_null (h : ReachesNullKeyword lib payload seen) :
    readKeywordPage lib payload seen = .error .attributeError := by
  obtain ⟨fields, before, raw, after, hvalues, hbefore, hnull⟩ := h
  cases hread : before.foldlM (addKeyword lib) (seen, []) with
  | error e =>
      rw [hread] at hbefore
      cases hbefore
  | ok state =>
      unfold readKeywordPage
      rw [hvalues, ok_bind]
      simp only [List.foldlM_append, List.foldlM_cons, hread, ok_bind, addKeyword_null hnull]
      rfl

theorem readKeywordPage_raises (h : ¬ReachesNullKeyword lib payload seen) :
    RaisesOnly profileErrors (readKeywordPage lib payload seen) := by
  unfold readKeywordPage
  apply raisesOnly_bind raisesOnly_keywordValues
  intro read hread
  apply raisesOnly_bind
  · intro e he
    rcases addKeywords_error he with hcaught | ⟨before, raw, after, hsplit, hbefore, hnull⟩
    · exact hcaught
    · exact absurd ⟨read.1, before, raw, after, by rw [hread, ← hsplit], hbefore, hnull⟩ h
  intro state _
  apply raisesOnly_bind (raisesOnly_textOf _ _)
  intro token _
  exact raisesOnly_ok _

theorem readKeywordPage_eq_ok {page : KeywordPage}
    (h : readKeywordPage lib payload seen = .ok page) : KeywordPageFits lib payload seen page := by
  unfold readKeywordPage at h
  obtain ⟨read, hread, h⟩ := ok_of_bind h
  obtain ⟨state, hstate, h⟩ := ok_of_bind h
  obtain ⟨token, _, h⟩ := ok_of_bind h
  cases h
  obtain ⟨rows, rfl, hlength, hnodup, hfresh⟩ := addKeywords_eq_ok hstate
  refine ⟨?_, ?_, ?_, ?_, ?_⟩
  · simpa using hnodup
  · simpa using hfresh
  · simp
  · simpa [hlength] using keywordValues_length hread
  · intro fields values hvalues
    rw [hread] at hvalues
    obtain rfl := Except.ok.inj hvalues
    simpa using hlength

/-- A page of keywords is refused with the one error or is what it promises, exactly when
its accepted rows reach no null keyword. -/
theorem normalizeKeywordPage_answers_iff :
    Answers (KeywordPageFits lib payload seen) (normalizeKeywordPage lib payload seen) ↔
      ¬ReachesNullKeyword lib payload seen := by
  constructor
  · intro hanswers hnull
    have hrun : normalizeKeywordPage lib payload seen = .error (.uncaught .attributeError) := by
      unfold normalizeKeywordPage
      rw [readKeywordPage_null hnull]
      rfl
    rcases hanswers with herror | ⟨page, hpage, _⟩
    · rw [hrun] at herror
      cases herror
    · rw [hrun] at hpage
      cases hpage
  · intro hclear
    exact answers_guarded (readKeywordPage_raises hclear) fun page => readKeywordPage_eq_ok

end Keywords

end SearchTrust.Google
