/-
Reading an answer of the Search Console API: the rows of one view, each with a key of its
own, or the one error of an invalid response.
-/
import SearchTrust.Google.Answers

namespace SearchTrust.Google

open SearchTrust.Market (Text text Value Fields encodable)
open SearchTrust.Report (Date isoformat)
open SearchTrust.Report.Outcomes

section Models

inductive Dimension where
  | query | page | date | device | country
deriving DecidableEq

structure MetricRow where
  key : Option Text
  clicks : ℚ
  impressions : ℚ
  ctr : ℚ
  position : ℚ

structure View where
  rows : List MetricRow
  truncated : Bool
  aggregationType : Text

end Models

section Reading

variable (lib : AnswerLibrary)

/-- `MetricRow(key=key, ...)`. -/
def metricRow (key : Option Text) (clicks impressions ctr position : Value) :
    Except Exc MetricRow := do
  let key ← constrained (fun key : Option Text =>
    ∀ t ∈ key, t.length ≤ 4096 ∧ encodable t = true) key
  let clicks ← field (strictFloat clicks)
  let clicks ← constrained (0 ≤ ·) clicks
  let impressions ← field (strictFloat impressions)
  let impressions ← constrained (0 ≤ ·) impressions
  let ctr ← field (strictFloat ctr)
  let ctr ← constrained (fun x => 0 ≤ x ∧ x ≤ 1) ctr
  let position ← field (strictFloat position)
  let position ← constrained (0 ≤ ·) position
  return ⟨key, clicks, impressions, ctr, position⟩

def metricFields : List String := ["clicks", "impressions", "ctr", "position"]

/-- The key of a row, where its dimension asks for one. -/
def rowKey (dimension : Option Dimension) (keys : List Value) : Except Exc (Option Text) :=
  match dimension with
  | none => .ok none
  | some _ =>
      match keys with
      | .str key :: _ => if key = [] then .error .valueError else .ok (some key)
      | _ => .error .valueError

/-- A date that is written as `isoformat` writes it, and lies in the window. -/
def checkDateKey (start stop : Date) (key : Text) : Except Exc Unit :=
  match lib.fromisoformat key with
  | none => .error .valueError
  | some day => demand (text (isoformat day) = key ∧ start ≤ day ∧ day ≤ stop)

def isLetter (c : ℕ) : Bool := (65 ≤ c && c ≤ 90) || (97 ≤ c && c ≤ 122)

/-- What the dimension asks of a key. -/
def checkKey (dimension : Option Dimension) (start stop : Date) (key : Option Text) :
    Except Exc Unit :=
  match dimension, key with
  | some .date, some key => checkDateKey lib start stop key
  | some .device, some key =>
      demand (lib.upper key ∈ [text "DESKTOP", text "MOBILE", text "TABLET"])
  | some .country, some key => demand (key.length = 3 ∧ key.all isLetter = true)
  | _, _ => .ok ()

/-- One row, after the keys of those before it. -/
def viewRow (dimension : Option Dimension) (start stop : Date) (rows : List MetricRow)
    (value : Value) : Except Exc (List MetricRow) := do
  let row ← dictOf value
  let expected := if dimension.isSome ∨ "keys" ∈ keysOf row then "keys" :: metricFields
    else metricFields
  demand (KeysAre row expected)
  let keys ← listOf (getOr row "keys" (.list []))
  demand (keys.length = if dimension.isSome then 1 else 0)
  let key ← rowKey dimension keys
  demand (key ∉ rows.map MetricRow.key)
  checkKey lib dimension start stop key
  let clicks ← item row "clicks"
  let impressions ← item row "impressions"
  let ctr ← item row "ctr"
  let position ← item row "position"
  let made ← metricRow key clicks impressions ctr position
  return rows ++ [made]

/-- The dimensions with a fixed number of keys. -/
def hasFixedKeys (dimension : Option Dimension) : Bool :=
  dimension = none || dimension = some .date || dimension = some .device

def aggregationTypes : List Text := [text "auto", text "byProperty", text "byPage"]

/-- `View(...)`. -/
def makeView (rows : List MetricRow) (limit : ℕ) (aggregation : Value) : Except Exc View :=
  match aggregation with
  | .str t =>
      if t ∈ aggregationTypes then .ok ⟨rows.take limit, decide (limit < rows.length), t⟩
      else .error .validationError
  | _ => .error .validationError

/-- The exceptions that `normalize_view` turns into a `SyncError`. -/
def viewErrors : List Exc :=
  [.valueError, .typeError, .keyError, .attributeError, .validationError]

/-- `normalize_view`. -/
def normalizeView (payload : Value) (dimension : Option Dimension) (limit : ℕ)
    (start stop : Date) : Except Raised View :=
  guarded viewErrors do
    let fields ← dictOf payload
    let values ← listOf (getOr fields "rows" (.list []))
    demand (values.length ≤ limit + 1)
    let rows ← values.foldlM (viewRow lib dimension start stop) []
    demand (¬(hasFixedKeys dimension = true ∧ limit < rows.length))
    makeView rows limit (getOr fields "responseAggregationType" (.str (text "auto")))

end Reading

section Contract

variable {lib : AnswerLibrary} {dimension : Option Dimension} {limit : ℕ} {start stop : Date}

/-- What a row of a view is. -/
structure RowFits (dimension : Option Dimension) (start stop : Date) (row : MetricRow) : Prop where
  key : row.key.isSome = dimension.isSome
  date : dimension = some .date →
    ∃ day, row.key = some (text (isoformat day)) ∧ start ≤ day ∧ day ≤ stop
  clicks : 0 ≤ row.clicks
  impressions : 0 ≤ row.impressions
  ctr : 0 ≤ row.ctr ∧ row.ctr ≤ 1
  position : 0 ≤ row.position

/-- What a view is. -/
structure ViewFits (payload : Value) (dimension : Option Dimension) (limit : ℕ)
    (start stop : Date) (view : View) : Prop where
  keys : (view.rows.map MetricRow.key).Nodup
  rows : ∀ row ∈ view.rows, RowFits dimension start stop row
  length : view.rows.length ≤ limit
  truncated : view.truncated = true ↔ limit < providerRows payload

theorem raisesOnly_metricRow (key : Option Text) (clicks impressions ctr position : Value) :
    RaisesOnly viewErrors (metricRow key clicks impressions ctr position) := by
  have hfield : ∀ x : Option ℚ, RaisesOnly viewErrors (field x) := raisesOnly_field (by decide)
  have hconstrained : ∀ (p : ℚ → Prop) [DecidablePred p] (x : ℚ),
      RaisesOnly viewErrors (constrained p x) :=
    fun p _ x => raisesOnly_constrained (by decide) x
  unfold metricRow
  apply raisesOnly_bind (raisesOnly_constrained (by decide) key)
  intro key _
  apply raisesOnly_bind (hfield _)
  intro clicks _
  apply raisesOnly_bind (hconstrained _ _)
  intro clicks _
  apply raisesOnly_bind (hfield _)
  intro impressions _
  apply raisesOnly_bind (hconstrained _ _)
  intro impressions _
  apply raisesOnly_bind (hfield _)
  intro ctr _
  apply raisesOnly_bind (hconstrained _ _)
  intro ctr _
  apply raisesOnly_bind (hfield _)
  intro position _
  apply raisesOnly_bind (hconstrained _ _)
  intro position _
  exact raisesOnly_ok _

theorem metricRow_eq_ok {key : Option Text} {clicks impressions ctr position : Value}
    {row : MetricRow} (h : metricRow key clicks impressions ctr position = .ok row) :
    row.key = key ∧ 0 ≤ row.clicks ∧ 0 ≤ row.impressions ∧ (0 ≤ row.ctr ∧ row.ctr ≤ 1) ∧
      0 ≤ row.position := by
  unfold metricRow at h
  obtain ⟨key', hkey, h⟩ := ok_of_bind h
  obtain ⟨_, _, h⟩ := ok_of_bind h
  obtain ⟨clicks', hclicks, h⟩ := ok_of_bind h
  obtain ⟨_, _, h⟩ := ok_of_bind h
  obtain ⟨impressions', himpressions, h⟩ := ok_of_bind h
  obtain ⟨_, _, h⟩ := ok_of_bind h
  obtain ⟨ctr', hctr, h⟩ := ok_of_bind h
  obtain ⟨_, _, h⟩ := ok_of_bind h
  obtain ⟨position', hposition, h⟩ := ok_of_bind h
  cases h
  exact ⟨(ok_of_constrained hkey).1, (ok_of_constrained hclicks).2,
    (ok_of_constrained himpressions).2, (ok_of_constrained hctr).2,
    (ok_of_constrained hposition).2⟩

theorem raisesOnly_rowKey (keys : List Value) : RaisesOnly viewErrors (rowKey dimension keys) := by
  unfold rowKey
  split
  next => exact raisesOnly_ok _
  next =>
    split
    next =>
      split
      next => exact raisesOnly_error (by decide)
      next => exact raisesOnly_ok _
    next => exact raisesOnly_error (by decide)

theorem rowKey_eq_ok {keys : List Value} {key : Option Text} (h : rowKey dimension keys = .ok key) :
    key.isSome = dimension.isSome := by
  unfold rowKey at h
  split at h
  next =>
    cases h
    rfl
  next =>
    split at h
    next =>
      split at h
      next => cases h
      next =>
        cases h
        rfl
    next => cases h

theorem raisesOnly_checkKey (key : Option Text) :
    RaisesOnly viewErrors (checkKey lib dimension start stop key) := by
  unfold checkKey
  split
  next =>
    unfold checkDateKey
    split
    next => exact raisesOnly_error (by decide)
    next => exact raisesOnly_demand (by decide)
  next => exact raisesOnly_demand (by decide)
  next => exact raisesOnly_demand (by decide)
  next => exact raisesOnly_ok _

/-- A checked date lies in the window. -/
theorem checkKey_date {key : Option Text} {u : Unit} (hsome : key.isSome)
    (h : checkKey lib (some .date) start stop key = .ok u) :
    ∃ day, key = some (text (isoformat day)) ∧ start ≤ day ∧ day ≤ stop := by
  obtain ⟨written, rfl⟩ := Option.isSome_iff_exists.1 hsome
  simp only [checkKey, checkDateKey] at h
  split at h
  next => cases h
  next day _ =>
    obtain ⟨hwritten, hstart, hstop⟩ := ok_of_demand h
    exact ⟨day, by rw [hwritten], hstart, hstop⟩

theorem raisesOnly_viewRow (rows : List MetricRow) (value : Value) :
    RaisesOnly viewErrors (viewRow lib dimension start stop rows value) := by
  have hitem : ∀ fields key, RaisesOnly viewErrors (item fields key) :=
    raisesOnly_item (by decide)
  unfold viewRow
  apply raisesOnly_bind (raisesOnly_dictOf (by decide) value)
  intro row _
  apply raisesOnly_bind (raisesOnly_demand (by decide))
  intro _ _
  apply raisesOnly_bind (raisesOnly_listOf (by decide) _)
  intro keys _
  apply raisesOnly_bind (raisesOnly_demand (by decide))
  intro _ _
  apply raisesOnly_bind (raisesOnly_rowKey keys)
  intro key _
  apply raisesOnly_bind (raisesOnly_demand (by decide))
  intro _ _
  apply raisesOnly_bind (raisesOnly_checkKey key)
  intro _ _
  apply raisesOnly_bind (hitem _ _)
  intro clicks _
  apply raisesOnly_bind (hitem _ _)
  intro impressions _
  apply raisesOnly_bind (hitem _ _)
  intro ctr _
  apply raisesOnly_bind (hitem _ _)
  intro position _
  apply raisesOnly_bind (raisesOnly_metricRow _ _ _ _ _)
  intro made _
  exact raisesOnly_ok _

theorem viewRow_eq_ok {rows next : List MetricRow} {value : Value}
    (h : viewRow lib dimension start stop rows value = .ok next) :
    ∃ made, next = rows ++ [made] ∧ made.key ∉ rows.map MetricRow.key ∧
      RowFits dimension start stop made := by
  unfold viewRow at h
  obtain ⟨row, _, h⟩ := ok_of_bind h
  obtain ⟨_, _, h⟩ := ok_of_bind h
  obtain ⟨keys, _, h⟩ := ok_of_bind h
  obtain ⟨_, _, h⟩ := ok_of_bind h
  obtain ⟨key, hkey, h⟩ := ok_of_bind h
  obtain ⟨_, hfresh, h⟩ := ok_of_bind h
  obtain ⟨_, hcheck, h⟩ := ok_of_bind h
  obtain ⟨clicks, _, h⟩ := ok_of_bind h
  obtain ⟨impressions, _, h⟩ := ok_of_bind h
  obtain ⟨ctr, _, h⟩ := ok_of_bind h
  obtain ⟨position, _, h⟩ := ok_of_bind h
  obtain ⟨made, hmade, h⟩ := ok_of_bind h
  cases h
  obtain ⟨hsame, hclicks, himpressions, hctr, hposition⟩ := metricRow_eq_ok hmade
  refine ⟨made, rfl, ?_, ?_⟩
  · rw [hsame]
    exact ok_of_demand hfresh
  · have hsome := rowKey_eq_ok hkey
    refine ⟨by rw [hsame, hsome], ?_, hclicks, himpressions, hctr, hposition⟩
    rintro rfl
    rw [hsame]
    exact checkKey_date hsome hcheck

/-- The rows that have been read: fresh keys, and one row for each value. -/
theorem viewRows_eq_ok {values : List Value} {rows result : List MetricRow}
    (h : values.foldlM (viewRow lib dimension start stop) rows = .ok result)
    (hkeys : (rows.map MetricRow.key).Nodup)
    (hrows : ∀ row ∈ rows, RowFits dimension start stop row) :
    (result.map MetricRow.key).Nodup ∧ (∀ row ∈ result, RowFits dimension start stop row) ∧
      result.length = rows.length + values.length := by
  induction values generalizing rows with
  | nil =>
      cases h
      exact ⟨hkeys, hrows, rfl⟩
  | cons value values ih =>
      rw [List.foldlM_cons] at h
      obtain ⟨next, hnext, h⟩ := ok_of_bind h
      obtain ⟨made, rfl, hfresh, hmade⟩ := viewRow_eq_ok hnext
      have hnodup : ((rows ++ [made]).map MetricRow.key).Nodup := by
        rw [List.map_append]
        apply List.Nodup.append hkeys (List.nodup_singleton _)
        simpa using hfresh
      have hall : ∀ row ∈ rows ++ [made], RowFits dimension start stop row := by
        intro row hrow
        rcases List.mem_append.1 hrow with hold | hnew
        · exact hrows row hold
        · rw [List.mem_singleton.1 hnew]
          exact hmade
      obtain ⟨hresult, hfits, hlength⟩ := ih h hnodup hall
      refine ⟨hresult, hfits, ?_⟩
      rw [hlength, List.length_append, List.length_singleton, List.length_cons]
      omega

theorem makeView_eq_ok {rows : List MetricRow} {aggregation : Value} {view : View}
    (h : makeView rows limit aggregation = .ok view) :
    view.rows = rows.take limit ∧ view.truncated = decide (limit < rows.length) := by
  unfold makeView at h
  split at h
  next =>
    split at h
    next =>
      cases h
      exact ⟨rfl, rfl⟩
    next => cases h
  next => cases h

/-- A view is refused with the one error, or it is what the answer says. -/
theorem normalizeView_answers (payload : Value) (dimension : Option Dimension) (limit : ℕ)
    (start stop : Date) :
    Answers (ViewFits payload dimension limit start stop)
      (normalizeView lib payload dimension limit start stop) := by
  apply answers_guarded
  · apply raisesOnly_bind (raisesOnly_dictOf (by decide) payload)
    intro fields _
    apply raisesOnly_bind (raisesOnly_listOf (by decide) _)
    intro values _
    apply raisesOnly_bind (raisesOnly_demand (by decide))
    intro _ _
    apply raisesOnly_bind (raisesOnly_foldlM raisesOnly_viewRow _ _)
    intro rows _
    apply raisesOnly_bind (raisesOnly_demand (by decide))
    intro _ _
    unfold makeView
    split
    next =>
      split
      next => exact raisesOnly_ok _
      next => exact raisesOnly_error (by decide)
    next => exact raisesOnly_error (by decide)
  · intro view h
    obtain ⟨fields, hfields, h⟩ := ok_of_bind h
    obtain ⟨values, hvalues, h⟩ := ok_of_bind h
    obtain ⟨_, _, h⟩ := ok_of_bind h
    obtain ⟨rows, hrows, h⟩ := ok_of_bind h
    obtain ⟨_, _, h⟩ := ok_of_bind h
    obtain ⟨hview, htruncated⟩ := makeView_eq_ok h
    have hnone : ∀ row ∈ ([] : List MetricRow), RowFits dimension start stop row :=
      fun _ h => absurd h List.not_mem_nil
    obtain ⟨hkeys, hfits, hlength⟩ := viewRows_eq_ok hrows List.nodup_nil hnone
    have hprovider : providerRows payload = rows.length := by
      rw [dictOf_eq_ok hfields, hlength]
      simp [providerRows, listOf_eq_ok hvalues]
    refine ⟨?_, ?_, ?_, ?_⟩
    · rw [hview, List.map_take]
      exact hkeys.sublist (List.take_sublist _ _)
    · intro row hrow
      rw [hview] at hrow
      exact hfits row (List.mem_of_mem_take hrow)
    · rw [hview]
      exact List.length_take_le _ _
    · rw [htruncated, hprovider, decide_eq_true_eq]

end Contract

end SearchTrust.Google
