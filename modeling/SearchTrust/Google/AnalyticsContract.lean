/-
A report is refused with the one error, or its rows are what the view promises.  The one
exception is a report of totals that counts more rows than it has: nothing tells that the
others were left out.
-/
import SearchTrust.Google.Analytics

namespace SearchTrust.Google

open SearchTrust.Market (Text text Value Fields Float64 encodable)
open SearchTrust.Report (Date)
open SearchTrust.Report.Outcomes

section Raising

theorem raisesOnly_reportInt (value : Value) : RaisesOnly reportErrors (reportInt value) := by
  unfold reportInt
  split
  next =>
    split
    next => exact raisesOnly_ok _
    next => exact raisesOnly_error (by decide)
  next => exact raisesOnly_error (by decide)

variable {lib : AnswerLibrary}

theorem raisesOnly_reportFloat (value : Value) :
    RaisesOnly reportErrors (reportFloat lib value) := by
  unfold reportFloat
  split
  next =>
    split
    next => exact raisesOnly_error (by decide)
    next =>
      split
      next => exact raisesOnly_error (by decide)
      next =>
        split
        next => exact raisesOnly_ok _
        next => exact raisesOnly_error (by decide)
  next => exact raisesOnly_error (by decide)

theorem reportFloat_nonneg {value : Value} {x : ℚ} (h : reportFloat lib value = .ok x) : 0 ≤ x := by
  unfold reportFloat at h
  split at h
  next =>
    split at h
    next => cases h
    next =>
      split at h
      next => cases h
      next =>
        split at h
        next hx =>
          cases h
          exact hx.2
        next => cases h
  next => cases h

theorem raisesOnly_samplingOf (fields : Fields) :
    RaisesOnly reportErrors (samplingOf fields) := by
  unfold samplingOf
  apply raisesOnly_bind (raisesOnly_item (by decide) _ _)
  intro read _
  apply raisesOnly_bind (raisesOnly_reportInt read)
  intro read _
  apply raisesOnly_bind (raisesOnly_item (by decide) _ _)
  intro space _
  apply raisesOnly_bind (raisesOnly_reportInt space)
  intro space _
  exact raisesOnly_ok _

theorem raisesOnly_restrictedMetricTypes (value : Value) :
    RaisesOnly reportErrors (restrictedMetricTypes value) := by
  unfold restrictedMetricTypes
  split
  next => exact raisesOnly_field (by decide) _
  next => exact raisesOnly_error (by decide)

theorem raisesOnly_restrictionOf (fields : Fields) :
    RaisesOnly reportErrors (restrictionOf fields) := by
  unfold restrictionOf
  apply raisesOnly_bind (raisesOnly_item (by decide) _ _)
  intro name _
  apply raisesOnly_bind (raisesOnly_field (by decide) _)
  intro name _
  apply raisesOnly_bind (raisesOnly_restrictedMetricTypes _)
  intro types _
  exact raisesOnly_ok _

theorem raisesOnly_emptyReason (value : Value) : RaisesOnly reportErrors (emptyReason value) := by
  have hfield : RaisesOnly reportErrors ((field (modelText 0 512 value)).map some) := by
    intro e he
    cases hvalue : modelText 0 512 value with
    | none =>
        rw [hvalue] at he
        cases he
        decide
    | some t =>
        rw [hvalue] at he
        cases he
  cases value with
  | null => exact raisesOnly_ok _
  | _ => exact hfield

theorem raisesOnly_timeZone (value : Value) : RaisesOnly reportErrors (timeZone value) := by
  unfold timeZone
  split
  next =>
    split
    next => exact raisesOnly_field (by decide) _
    next => exact raisesOnly_error (by decide)
  next => exact raisesOnly_error (by decide)

theorem raisesOnly_readMetadata (payload : Fields) :
    RaisesOnly reportErrors (readMetadata payload) := by
  have hdict : ∀ value, RaisesOnly reportErrors (dictOf value) := raisesOnly_dictOf (by decide)
  have hlist : ∀ value, RaisesOnly reportErrors (listOf value) := raisesOnly_listOf (by decide)
  have hflag : ∀ x : Option Bool, RaisesOnly reportErrors (field x) := raisesOnly_field (by decide)
  have hget : ∀ value key default, RaisesOnly reportErrors (attributeGet value key default) := by
    intro value key default
    cases value with
    | dict fields => exact raisesOnly_ok _
    | _ => exact raisesOnly_error (by decide)
  unfold readMetadata
  apply raisesOnly_bind (hdict _)
  intro raw _
  apply raisesOnly_bind (raisesOnly_timeZone _)
  intro zone _
  apply raisesOnly_bind (hlist _)
  intro sampling _
  apply raisesOnly_bind (raisesOnly_demand (by decide))
  intro _ _
  apply raisesOnly_bind (raisesOnly_mapM _ fun value _ => hdict value)
  intro sampling _
  apply raisesOnly_bind (hget _ _ _)
  intro restrictions _
  apply raisesOnly_bind (hlist _)
  intro restrictions _
  apply raisesOnly_bind (raisesOnly_demand (by decide))
  intro _ _
  apply raisesOnly_bind (raisesOnly_mapM _ fun value _ => hdict value)
  intro restrictions _
  apply raisesOnly_bind (raisesOnly_mapM _ fun fields _ => raisesOnly_samplingOf fields)
  intro sampling _
  apply raisesOnly_bind (raisesOnly_demand (by decide))
  intro _ _
  apply raisesOnly_bind (raisesOnly_mapM _ fun fields _ => raisesOnly_restrictionOf fields)
  intro restrictions _
  apply raisesOnly_bind (hflag _)
  intro thresholding _
  apply raisesOnly_bind (hflag _)
  intro loss _
  apply raisesOnly_bind (raisesOnly_emptyReason _)
  intro reason _
  exact raisesOnly_ok _

theorem raisesOnly_namesAre (headers : Value) (names : List String) :
    RaisesOnly reportErrors (namesAre headers names) := by
  unfold namesAre
  apply raisesOnly_bind (raisesOnly_listOf (by decide) headers)
  intro _ _
  exact raisesOnly_demand (by decide)

theorem raisesOnly_checkHeaders (payload : Fields) (dimensions metrics : List String) :
    RaisesOnly reportErrors (checkHeaders payload dimensions metrics) := by
  unfold checkHeaders
  apply raisesOnly_bind (raisesOnly_namesAre _ _)
  intro _ _
  split
  next => exact raisesOnly_ok _
  next => exact raisesOnly_namesAre _ _

theorem raisesOnly_metricInt (data : List (String × Value)) (name : String) :
    RaisesOnly reportErrors (metricInt data name) :=
  raisesOnly_bind (raisesOnly_item (by decide) _ _) fun value _ => raisesOnly_reportInt value

theorem raisesOnly_metricFloat (data : List (String × Value)) (name : String) :
    RaisesOnly reportErrors (metricFloat lib data name) :=
  raisesOnly_bind (raisesOnly_item (by decide) _ _) fun value _ => raisesOnly_reportFloat value

theorem raisesOnly_metricRate (data : List (String × Value)) (name : String) :
    RaisesOnly reportErrors (metricRate lib data name) :=
  raisesOnly_bind (raisesOnly_metricFloat _ _) fun value _ =>
    raisesOnly_constrained (by decide) value

theorem metricFloat_nonneg {data : List (String × Value)} {name : String} {x : ℚ}
    (h : metricFloat lib data name = .ok x) : 0 ≤ x := by
  obtain ⟨_, _, h⟩ := ok_of_bind h
  exact reportFloat_nonneg h

theorem metricRate_nonneg {data : List (String × Value)} {name : String} {x : ℚ}
    (h : metricRate lib data name = .ok x) : 0 ≤ x := by
  obtain ⟨_, _, h⟩ := ok_of_bind h
  exact (ok_of_constrained h).2.1

theorem raisesOnly_engagementOf (data : List (String × Value)) :
    RaisesOnly reportErrors (engagementOf lib data) := by
  unfold engagementOf
  apply raisesOnly_bind (raisesOnly_metricInt _ _)
  intro sessions _
  apply raisesOnly_bind (raisesOnly_metricInt _ _)
  intro engaged _
  apply raisesOnly_bind (raisesOnly_metricRate _ _)
  intro rate _
  apply raisesOnly_bind (raisesOnly_metricFloat _ _)
  intro duration _
  apply raisesOnly_bind (raisesOnly_metricInt _ _)
  intro views _
  apply raisesOnly_bind (raisesOnly_metricFloat _ _)
  intro events _
  apply raisesOnly_bind (raisesOnly_metricRate _ _)
  intro eventRate _
  exact raisesOnly_ok _

/-- Counts and rates that are not negative. -/
def Engagement.NonNegative (metrics : Engagement) : Prop :=
  0 ≤ metrics.engagementRate ∧ 0 ≤ metrics.averageSessionDuration ∧ 0 ≤ metrics.keyEvents ∧
    0 ≤ metrics.sessionKeyEventRate

theorem engagementOf_nonneg {data : List (String × Value)} {metrics : Engagement}
    (h : engagementOf lib data = .ok metrics) : metrics.NonNegative := by
  unfold engagementOf at h
  obtain ⟨_, _, h⟩ := ok_of_bind h
  obtain ⟨_, _, h⟩ := ok_of_bind h
  obtain ⟨_, hrate, h⟩ := ok_of_bind h
  obtain ⟨_, hduration, h⟩ := ok_of_bind h
  obtain ⟨_, _, h⟩ := ok_of_bind h
  obtain ⟨_, hevents, h⟩ := ok_of_bind h
  obtain ⟨_, heventRate, h⟩ := ok_of_bind h
  cases h
  exact ⟨metricRate_nonneg hrate, metricFloat_nonneg hduration, metricFloat_nonneg hevents,
    metricRate_nonneg heventRate⟩

end Raising

section Rows

variable {lib : AnswerLibrary} {view : ReportView} {start stop : Date}

/-- The key of a row; a report of totals has only one. -/
inductive ReportKey where
  | whole
  | named (name : Text)
  | day (date : Date)
deriving DecidableEq

def ReportRow.key : ReportRow → ReportKey
  | .overview _ _ => .whole
  | .landingPage page _ => .named page
  | .day date _ _ _ => .day date
  | .keyEvent name _ => .named name

/-- What a row of a report is. -/
def ReportRow.Fits (start stop : Date) : ReportRow → Prop
  | .overview _ metrics => metrics.NonNegative
  | .landingPage _ metrics => metrics.NonNegative
  | .day date _ _ events => (start ≤ date ∧ date ≤ stop) ∧ 0 ≤ events
  | .keyEvent _ events => 0 ≤ events

/-- The values of the dimensions that a key stands for. -/
def ReportKey.texts (lib : AnswerLibrary) : ReportKey → List Text
  | .whole => []
  | .named name => [name]
  | .day date => [lib.strftime date "%Y%m%d"]

theorem raisesOnly_firstKey (keys : List Text) : RaisesOnly reportErrors (firstKey keys) := by
  cases keys with
  | nil => exact raisesOnly_error (by decide)
  | cons key rest => exact raisesOnly_ok key

theorem raisesOnly_reportDate (key : Text) :
    RaisesOnly reportErrors (reportDate lib start stop key) := by
  unfold reportDate
  split
  next => exact raisesOnly_error (by decide)
  next =>
    apply raisesOnly_bind (raisesOnly_demand (by decide))
    intro _ _
    exact raisesOnly_ok _

theorem raisesOnly_makeRow (keys : List Text) (data : List (String × Value)) :
    RaisesOnly reportErrors (makeRow lib view start stop keys data) := by
  cases view with
  | totals =>
      apply raisesOnly_bind (raisesOnly_metricInt _ _)
      intro users _
      apply raisesOnly_bind (raisesOnly_engagementOf _)
      intro metrics _
      exact raisesOnly_ok _
  | landingPages =>
      apply raisesOnly_bind (raisesOnly_firstKey keys)
      intro page _
      apply raisesOnly_bind (raisesOnly_field (by decide) _)
      intro page _
      apply raisesOnly_bind (raisesOnly_engagementOf _)
      intro metrics _
      exact raisesOnly_ok _
  | dates =>
      apply raisesOnly_bind (raisesOnly_firstKey keys)
      intro key _
      apply raisesOnly_bind (raisesOnly_reportDate key)
      intro day _
      apply raisesOnly_bind (raisesOnly_metricInt _ _)
      intro sessions _
      apply raisesOnly_bind (raisesOnly_metricInt _ _)
      intro engaged _
      apply raisesOnly_bind (raisesOnly_metricFloat _ _)
      intro events _
      exact raisesOnly_ok _
  | keyEvents =>
      apply raisesOnly_bind (raisesOnly_firstKey keys)
      intro name _
      apply raisesOnly_bind (raisesOnly_field (by decide) _)
      intro name _
      apply raisesOnly_bind (raisesOnly_metricFloat _ _)
      intro events _
      exact raisesOnly_ok _

theorem eq_of_firstKey {keys : List Text} {key : Text} (h : firstKey keys = .ok key)
    (hlength : keys.length = 1) : keys = [key] := by
  obtain ⟨only, rfl⟩ := List.length_eq_one_iff.1 hlength
  cases h
  rfl

theorem modelText_eq {shortest longest : ℕ} {t result : Text}
    (h : field (modelText shortest longest (.str t)) = .ok result) : result = t := by
  by_cases hfits : shortest ≤ t.length ∧ t.length ≤ longest ∧ encodable t = true
  · rw [modelText, if_pos hfits] at h
    cases h
    rfl
  · rw [modelText, if_neg hfits] at h
    cases h

theorem makeRow_eq_ok {keys : List Text} {data : List (String × Value)} {row : ReportRow}
    (hlength : keys.length = view.dimensions.length)
    (h : makeRow lib view start stop keys data = .ok row) :
    row.key.texts lib = keys ∧ row.Fits start stop := by
  cases view with
  | totals =>
      obtain ⟨users, _, h⟩ := ok_of_bind h
      obtain ⟨metrics, hmetrics, h⟩ := ok_of_bind h
      cases h
      exact ⟨(List.eq_nil_of_length_eq_zero hlength).symm, engagementOf_nonneg hmetrics⟩
  | landingPages =>
      obtain ⟨page, hpage, h⟩ := ok_of_bind h
      obtain ⟨checked, hchecked, h⟩ := ok_of_bind h
      obtain ⟨metrics, hmetrics, h⟩ := ok_of_bind h
      cases h
      rw [eq_of_firstKey hpage hlength, modelText_eq hchecked]
      exact ⟨rfl, engagementOf_nonneg hmetrics⟩
  | dates =>
      obtain ⟨key, hkey, h⟩ := ok_of_bind h
      obtain ⟨day, hday, h⟩ := ok_of_bind h
      obtain ⟨sessions, _, h⟩ := ok_of_bind h
      obtain ⟨engaged, _, h⟩ := ok_of_bind h
      obtain ⟨events, hevents, h⟩ := ok_of_bind h
      cases h
      rw [eq_of_firstKey hkey hlength]
      unfold reportDate at hday
      split at hday
      next => cases hday
      next =>
        obtain ⟨_, hdemand, hday⟩ := ok_of_bind hday
        cases hday
        obtain ⟨hwritten, hwindow⟩ := ok_of_demand hdemand
        exact ⟨congrArg (fun t => [t]) hwritten, hwindow, metricFloat_nonneg hevents⟩
  | keyEvents =>
      obtain ⟨name, hname, h⟩ := ok_of_bind h
      obtain ⟨checked, hchecked, h⟩ := ok_of_bind h
      obtain ⟨events, hevents, h⟩ := ok_of_bind h
      cases h
      rw [eq_of_firstKey hname hlength, modelText_eq hchecked]
      exact ⟨rfl, metricFloat_nonneg hevents⟩

theorem raisesOnly_keyText (value : Value) : RaisesOnly reportErrors (keyText value) := by
  unfold keyText
  split
  next =>
    split
    next => exact raisesOnly_ok _
    next => exact raisesOnly_error (by decide)
  next => exact raisesOnly_error (by decide)

theorem raisesOnly_reportRow (state : List (List Text) × List ReportRow) (value : Value) :
    RaisesOnly reportErrors (reportRow lib view start stop state value) := by
  unfold reportRow
  apply raisesOnly_bind (raisesOnly_dictOf (by decide) value)
  intro raw _
  apply raisesOnly_bind (raisesOnly_listOf (by decide) _)
  intro dims _
  apply raisesOnly_bind (raisesOnly_listOf (by decide) _)
  intro vals _
  apply raisesOnly_bind (raisesOnly_demand (by decide))
  intro _ _
  apply raisesOnly_bind (raisesOnly_mapM _ fun value _ => raisesOnly_keyText value)
  intro keys _
  apply raisesOnly_bind (raisesOnly_demand (by decide))
  intro _ _
  apply raisesOnly_bind (raisesOnly_makeRow _ _)
  intro row _
  exact raisesOnly_ok _

/-- The rows that have been read, with their keys. -/
structure RowsRead (lib : AnswerLibrary) (view : ReportView) (start stop : Date)
    (state : List (List Text) × List ReportRow) : Prop where
  keys : state.1 = state.2.map fun row => row.key.texts lib
  fresh : state.1.Nodup
  lengths : ∀ keys ∈ state.1, keys.length = view.dimensions.length
  rows : ∀ row ∈ state.2, row.Fits start stop

theorem RowsRead.step {state next : List (List Text) × List ReportRow} {value : Value}
    (hstate : RowsRead lib view start stop state)
    (h : reportRow lib view start stop state value = .ok next) :
    RowsRead lib view start stop next ∧ next.2.length = state.2.length + 1 := by
  unfold reportRow at h
  obtain ⟨raw, _, h⟩ := ok_of_bind h
  obtain ⟨dims, _, h⟩ := ok_of_bind h
  obtain ⟨vals, _, h⟩ := ok_of_bind h
  obtain ⟨_, hlengths, h⟩ := ok_of_bind h
  obtain ⟨keys, hkeys, h⟩ := ok_of_bind h
  obtain ⟨_, hfresh, h⟩ := ok_of_bind h
  obtain ⟨row, hrow, h⟩ := ok_of_bind h
  cases h
  have hlength : keys.length = view.dimensions.length := by
    rw [← (forall₂_of_mapM_ok hkeys).length_eq, List.length_map]
    exact (ok_of_demand hlengths).1
  obtain ⟨htexts, hfits⟩ := makeRow_eq_ok hlength hrow
  refine ⟨⟨?_, ?_, ?_, ?_⟩, ?_⟩
  · simp [hstate.keys, htexts]
  · apply List.Nodup.append hstate.fresh (List.nodup_singleton _)
    simpa using ok_of_demand hfresh
  · intro other hother
    rcases List.mem_append.1 hother with hold | hnew
    · exact hstate.lengths other hold
    · rw [List.mem_singleton.1 hnew]
      exact hlength
  · intro other hother
    rcases List.mem_append.1 hother with hold | hnew
    · exact hstate.rows other hold
    · rw [List.mem_singleton.1 hnew]
      exact hfits
  · simp

theorem RowsRead.run {values : List Value} {state result : List (List Text) × List ReportRow}
    (hstate : RowsRead lib view start stop state)
    (h : values.foldlM (reportRow lib view start stop) state = .ok result) :
    RowsRead lib view start stop result ∧
      result.2.length = state.2.length + values.length := by
  induction values generalizing state with
  | nil =>
      cases h
      exact ⟨hstate, rfl⟩
  | cons value values ih =>
      rw [List.foldlM_cons] at h
      obtain ⟨next, hnext, h⟩ := ok_of_bind h
      obtain ⟨hstep, hlength⟩ := hstate.step hnext
      obtain ⟨hresult, hall⟩ := ih hstep h
      refine ⟨hresult, ?_⟩
      rw [hall, hlength, List.length_cons]
      omega

theorem RowsRead.nodup {state : List (List Text) × List ReportRow}
    (h : RowsRead lib view start stop state) : (state.2.map ReportRow.key).Nodup := by
  apply List.Nodup.of_map (ReportKey.texts lib)
  rw [List.map_map]
  have hfresh := h.fresh
  rw [h.keys] at hfresh
  exact hfresh

/-- A report of totals has at most one row. -/
theorem RowsRead.totals {state : List (List Text) × List ReportRow}
    (h : RowsRead lib .totals start stop state) : state.2.length ≤ 1 := by
  have hlength : state.1.length = state.2.length := by rw [h.keys, List.length_map]
  rw [← hlength]
  have hempty : ∀ keys ∈ state.1, keys = [] := fun keys hkeys =>
    List.eq_nil_of_length_eq_zero (h.lengths keys hkeys)
  have hsub : state.1 ⊆ [[]] := fun keys hkeys => List.mem_singleton.2 (hempty keys hkeys)
  exact (List.subperm_of_subset h.fresh hsub).length_le

end Rows

section Contract

variable {lib : AnswerLibrary} {payload : Value} {name : String} {start stop : Date}

/-- The number of rows that the provider reports. -/
def reportedRows : Value → ℤ
  | .dict fields =>
      match rowCountOf fields with
      | .ok n => n
      | .error _ => 0
  | _ => 0

/-- The limit of a view. -/
def viewLimit (name : String) : ℕ := ((ReportView.ofName name).map ReportView.limit).getD 0

/-- What a report is. -/
structure ReportFits (payload : Value) (name : String) (start stop : Date)
    (result : ReportResult) : Prop where
  keys : (result.rows.map ReportRow.key).Nodup
  rows : ∀ row ∈ result.rows, row.Fits start stop
  length : result.rows.length ≤ viewLimit name
  truncated : result.truncated = true ↔
    viewLimit name < providerRows payload ∨ (viewLimit name : ℤ) < reportedRows payload

/-- A readable report of totals that counts more rows than its one. -/
def HiddenTotals (lib : AnswerLibrary) (payload : Value) (name : String) (start stop : Date) : Prop :=
  name = "totals" ∧ 1 < reportedRows payload ∧
    (readReport lib payload name start stop).isOk = true

/-- What has been read of an answer. -/
structure ReadFits (payload : Value) (name : String) (start stop : Date) (read : ReadReport) :
    Prop where
  view : ReportView.ofName name = some read.view
  returned : providerRows payload = read.rows.length
  reported : reportedRows payload = read.rowCount
  count : (read.rows.length : ℤ) ≤ read.rowCount
  keys : (read.rows.map ReportRow.key).Nodup
  rows : ∀ row ∈ read.rows, row.Fits start stop
  totals : read.view = .totals → read.rows.length ≤ 1

theorem raisesOnly_rowCountOf (fields : Fields) : RaisesOnly reportErrors (rowCountOf fields) := by
  unfold rowCountOf
  split
  next => exact raisesOnly_ok _
  next => exact raisesOnly_error (by decide)

theorem raisesOnly_readReport : RaisesOnly reportErrors (readReport lib payload name start stop) := by
  unfold readReport
  apply raisesOnly_bind
  · unfold viewNamed
    split
    next => exact raisesOnly_ok _
    next => exact raisesOnly_error (by decide)
  intro view _
  apply raisesOnly_bind (raisesOnly_dictOf (by decide) payload)
  intro fields _
  apply raisesOnly_bind (raisesOnly_checkHeaders _ _ _)
  intro _ _
  apply raisesOnly_bind (raisesOnly_readMetadata fields)
  intro metadata _
  apply raisesOnly_bind (raisesOnly_listOf (by decide) _)
  intro raw _
  apply raisesOnly_bind (raisesOnly_demand (by decide))
  intro _ _
  apply raisesOnly_bind (raisesOnly_rowCountOf fields)
  intro count _
  apply raisesOnly_bind (raisesOnly_demand (by decide))
  intro _ _
  apply raisesOnly_bind (raisesOnly_foldlM raisesOnly_reportRow _ _)
  intro state _
  exact raisesOnly_ok _

theorem readReport_eq_ok {read : ReadReport}
    (h : readReport lib payload name start stop = .ok read) :
    ReadFits payload name start stop read := by
  unfold readReport at h
  obtain ⟨view, hview, h⟩ := ok_of_bind h
  obtain ⟨fields, hfields, h⟩ := ok_of_bind h
  obtain ⟨_, _, h⟩ := ok_of_bind h
  obtain ⟨metadata, _, h⟩ := ok_of_bind h
  obtain ⟨raw, hraw, h⟩ := ok_of_bind h
  obtain ⟨_, _, h⟩ := ok_of_bind h
  obtain ⟨count, hcount, h⟩ := ok_of_bind h
  obtain ⟨_, hdemand, h⟩ := ok_of_bind h
  obtain ⟨state, hstate, h⟩ := ok_of_bind h
  cases h
  have hstart : RowsRead lib view start stop ([], []) :=
    ⟨rfl, List.nodup_nil, fun _ hkeys => absurd hkeys List.not_mem_nil,
      fun _ hrow => absurd hrow List.not_mem_nil⟩
  obtain ⟨hread, hlength⟩ := hstart.run hstate
  have hrows : state.2.length = raw.length := by simpa using hlength
  refine ⟨?_, ?_, ?_, ?_, hread.nodup, hread.rows, ?_⟩
  · unfold viewNamed at hview
    split at hview
    next hname =>
      cases hview
      exact hname
    next => cases hview
  · rw [dictOf_eq_ok hfields, hrows]
    simp [providerRows, listOf_eq_ok hraw]
  · rw [dictOf_eq_ok hfields]
    simp [reportedRows, hcount]
  · rw [hrows]
    exact ok_of_demand hdemand
  · rintro rfl
    exact hread.totals

theorem raisesOnly_viewOf (read : ReadReport) : RaisesOnly reportErrors (viewOf read) := by
  unfold viewOf
  simp only
  split
  next =>
    apply raisesOnly_bind (raisesOnly_demand (by decide))
    intro _ _
    exact raisesOnly_ok _
  next => exact raisesOnly_ok _
  next =>
    apply raisesOnly_bind (raisesOnly_demand (by decide))
    intro _ _
    exact raisesOnly_ok _
  next => exact raisesOnly_ok _

/-- What a view of a read answer says: all but the totals tell of further rows. -/
theorem viewOf_eq_ok {read : ReadReport} {result : ReportResult} (h : viewOf read = .ok result) :
    result.rows = read.rows.take read.view.limit ∧
      (read.view ≠ .totals → (result.truncated = true ↔
        read.view.limit < read.rows.length ∨ (read.view.limit : ℤ) < read.rowCount)) ∧
      (read.view = .totals → result.truncated = false) := by
  unfold viewOf at h
  simp only at h
  split at h
  next hview =>
    obtain ⟨_, _, h⟩ := ok_of_bind h
    cases h
    exact ⟨rfl, fun hne => absurd hview hne, fun _ => rfl⟩
  next hview =>
    cases h
    exact ⟨rfl, fun _ => by simp, fun htotals => absurd (hview.symm.trans htotals) (by decide)⟩
  next hview =>
    obtain ⟨_, hdemand, h⟩ := ok_of_bind h
    cases h
    have hwhole := ok_of_demand hdemand
    refine ⟨rfl, fun _ => ?_, fun htotals => absurd (hview.symm.trans htotals) (by decide)⟩
    simpa using hwhole
  next hview =>
    cases h
    exact ⟨rfl, fun _ => by simp, fun htotals => absurd (hview.symm.trans htotals) (by decide)⟩

theorem ofName_totals_iff : ReportView.ofName name = some .totals ↔ name = "totals" := by
  unfold ReportView.ofName
  constructor
  · intro h
    by_contra hname
    rw [if_neg hname] at h
    split at h
    next => cases h
    next =>
      split at h
      next => cases h
      next =>
        split at h
        next => cases h
        next => cases h
  · rintro rfl
    rfl

theorem viewOf_totals {read : ReadReport} (hview : read.view = .totals)
    (hrows : read.rows.length ≤ 1) : ∃ result, viewOf read = .ok result := by
  have hfew : (read.rows.take read.view.limit).length ≤ 1 :=
    (List.length_take_le' _ _).trans hrows
  unfold viewOf
  simp only
  rw [hview] at hfew ⊢
  simp only [demand, if_pos hfew]
  exact ⟨_, rfl⟩

/-- A report is refused with the one error or is what its view promises, exactly when it
is no readable report of totals that counts more rows than one. -/
theorem normalizeReport_answers_iff :
    Answers (ReportFits payload name start stop)
      (normalizeReport lib payload name start stop) ↔
      ¬HiddenTotals lib payload name start stop := by
  constructor
  · rintro hanswers ⟨hname, hreported, hok⟩
    cases hread : readReport lib payload name start stop with
    | error e =>
        rw [hread] at hok
        cases hok
    | ok read =>
        have hfits := readReport_eq_ok hread
        have hview : read.view = .totals := by
          have hnamed := hfits.view
          rw [ofName_totals_iff.2 hname] at hnamed
          exact (Option.some.inj hnamed).symm
        obtain ⟨result, hresult⟩ := viewOf_totals hview (hfits.totals hview)
        have hrun : normalizeReport lib payload name start stop = .ok result := by
          unfold normalizeReport
          rw [hread, ok_bind, hresult]
          rfl
        rcases hanswers with herror | ⟨value, hvalue, hgood⟩
        · rw [hrun] at herror
          cases herror
        · rw [hrun] at hvalue
          obtain rfl := Except.ok.inj hvalue
          have hlimit : viewLimit name = 1 := by
            rw [viewLimit, ofName_totals_iff.2 hname]
            rfl
          have htruncated := hgood.truncated.2 (.inr (by rw [hlimit]; exact_mod_cast hreported))
          rw [(viewOf_eq_ok hresult).2.2 hview] at htruncated
          cases htruncated
  · intro hclear
    apply answers_guarded
    · apply raisesOnly_bind raisesOnly_readReport
      intro read _
      exact raisesOnly_viewOf read
    · intro result h
      obtain ⟨read, hread, h⟩ := ok_of_bind h
      have hfits := readReport_eq_ok hread
      have hlimit : viewLimit name = read.view.limit := by
        rw [viewLimit, hfits.view]
        rfl
      obtain ⟨hrows, htold, hsilent⟩ := viewOf_eq_ok h
      refine ⟨?_, ?_, ?_, ?_⟩
      · rw [hrows, List.map_take]
        exact hfits.keys.sublist (List.take_sublist _ _)
      · intro row hrow
        rw [hrows] at hrow
        exact hfits.rows row (List.mem_of_mem_take hrow)
      · rw [hrows, hlimit]
        exact List.length_take_le _ _
      · rw [hlimit, hfits.returned, hfits.reported]
        by_cases hview : read.view = .totals
        · have hname : name = "totals" := by
            apply ofName_totals_iff.1
            rw [hfits.view, hview]
          have hfew := hfits.totals hview
          have hone : read.view.limit = 1 := by
            rw [hview]
            rfl
          have hcount : ¬1 < read.rowCount := by
            intro hmany
            apply hclear
            refine ⟨hname, ?_, ?_⟩
            · rw [hfits.reported]
              exact hmany
            · rw [hread]
              rfl
          rw [hsilent hview, hone]
          simp only [Bool.false_eq_true, false_iff]
          omega
        · exact htold hview

end Contract

end SearchTrust.Google
