/-
What reading an answer of a Google API can raise, and the reading of its values
that the three sources share.
-/
import SearchTrust.Market.Results
import SearchTrust.Numeric.Binary64
import SearchTrust.Report.Dates
import SearchTrust.Report.Outcomes

namespace SearchTrust.Google

open SearchTrust.Market (Text text Value Fields Float64 encodable)
open SearchTrust.Numeric (toBinary64)
open SearchTrust.Report (Date isoformat)
open SearchTrust.Report.Outcomes

/-- The exceptions of Python and of the models that the readers meet. -/
inductive Exc where
  | valueError
  | typeError
  | keyError
  | attributeError
  | overflowError
  | validationError
deriving DecidableEq

/-- What leaves a function: a `SyncError`, or another exception that nothing caught. -/
inductive Raised where
  | syncError (code : String) (retryable : Bool)
  | uncaught (exc : Exc)
deriving DecidableEq

def invalidResponse : Raised := .syncError "SYNC_INVALID_GOOGLE_RESPONSE" false

/-- `except caught: raise SyncError("SYNC_INVALID_GOOGLE_RESPONSE")`. -/
def guarded {α : Type} (caught : List Exc) : Except Exc α → Except Raised α
  | .ok value => .ok value
  | .error exc => .error (if exc ∈ caught then invalidResponse else .uncaught exc)

/-- `if not condition: raise ValueError()`. -/
def demand (condition : Prop) [Decidable condition] : Except Exc Unit :=
  if condition then .ok () else .error .valueError

/-- The result of `urlsplit`, as far as it is read. -/
structure SplitResult where
  scheme : Text
  netloc : Text
  username : Option Text
  password : Option Text

/-- The functions on texts and dates that the readers are built on. -/
structure AnswerLibrary where
  upper : Text → Text
  casefold : Text → Text
  /-- `float(text)`; `none` where it raises `ValueError`. -/
  float : Text → Option Float64
  /-- `none` where `urlsplit` raises `ValueError`. -/
  urlsplit : Text → Option SplitResult
  /-- `date.fromisoformat(text)`; `none` where it raises `ValueError`. -/
  fromisoformat : Text → Option Date
  /-- `datetime.strptime(text, "%Y%m%d").date()`; `none` where it raises `ValueError`. -/
  strptime : Text → Option Date
  /-- `date(year, month, day)` of integers above 0; `none` where it raises `ValueError`. -/
  calendar : ℕ → ℕ → ℕ → Option Date
  /-- `day.strftime(pattern)`. -/
  strftime : Date → String → Text

section Values

/-- A value that has to be a dict. -/
def dictOf : Value → Except Exc Fields
  | .dict fields => .ok fields
  | _ => .error .valueError

/-- A value that has to be a list. -/
def listOf : Value → Except Exc (List Value)
  | .list items => .ok items
  | _ => .error .valueError

/-- `fields.get(key, default)`. -/
def getOr (fields : Fields) (key : String) (default : Value) : Value :=
  (fields.get key).getD default

/-- `fields[key]`. -/
def item (fields : Fields) (key : String) : Except Exc Value :=
  match fields.get key with
  | some value => .ok value
  | none => .error .keyError

/-- `value.get(key, default)` of a value that need not be a dict. -/
def attributeGet (value : Value) (key : String) (default : Value) : Except Exc Value :=
  match value with
  | .dict fields => .ok (getOr fields key default)
  | _ => .error .attributeError

/-- `item.get("value") if isinstance(item, dict) else None`, for some key. -/
def getIfDict (key : String) : Value → Value
  | .dict fields => getOr fields key .null
  | _ => .null

def keysOf (fields : Fields) : List String := fields.map Prod.fst

/-- `not set(fields) - allowed`. -/
def KeysWithin (fields : Fields) (allowed : List String) : Prop :=
  ∀ key ∈ keysOf fields, key ∈ allowed

/-- `set(fields) == expected`. -/
def KeysAre (fields : Fields) (expected : List String) : Prop :=
  KeysWithin fields expected ∧ ∀ key ∈ expected, key ∈ keysOf fields

instance decidableKeysWithin (fields : Fields) (allowed : List String) :
    Decidable (KeysWithin fields allowed) :=
  inferInstanceAs (Decidable (∀ key ∈ keysOf fields, key ∈ allowed))

instance decidableKeysAre (fields : Fields) (expected : List String) :
    Decidable (KeysAre fields expected) := inferInstanceAs (Decidable (_ ∧ _))

/-- The rows that an answer has. -/
def providerRows : Value → ℕ
  | .dict fields =>
      match getOr fields "rows" (.list []) with
      | .list rows => rows.length
      | _ => 0
  | _ => 0

/-- A model field `float` with `strict=True` and finite numbers only; an integer is
taken as the nearest float. -/
def strictFloat : Value → Option ℚ
  | .float x => if x.isFinite then some x.value else none
  | .int n => if n.natAbs < 2 ^ 1024 - 2 ^ 970 then some (toBinary64 n) else none
  | _ => none

/-- The text of ASCII digits. -/
def isDigits (t : Text) : Prop := t ≠ [] ∧ ∀ c ∈ t, 48 ≤ c ∧ c ≤ 57

instance decidableIsDigits (t : Text) : Decidable (isDigits t) :=
  inferInstanceAs (Decidable (_ ∧ _))

/-- `int(digits)`. -/
def decimalValue (digits : Text) : ℕ := digits.foldl (fun n c => 10 * n + (c - 48)) 0

/-- The most digits that `int` reads. -/
def maxStrDigits : ℕ := 4300

def maxSafeInteger : ℕ := 2 ^ 53 - 1

/-- A field of a model: the value where it is valid. -/
def field {α : Type} : Option α → Except Exc α
  | some value => .ok value
  | none => .error .validationError

/-- A value that meets the constraints of its field. -/
def constrained {α : Type} (p : α → Prop) [DecidablePred p] (value : α) : Except Exc α :=
  if p value then .ok value else .error .validationError

end Values

section Raising

variable {α β σ : Type} {caught : List Exc}

/-- The computation raises nothing but exceptions of the list. -/
def RaisesOnly (caught : List Exc) (x : Except Exc α) : Prop := ∀ e, x = .error e → e ∈ caught

theorem raisesOnly_ok (value : α) : RaisesOnly caught (.ok value) := by
  intro e h
  cases h

theorem raisesOnly_error {e : Exc} (he : e ∈ caught) :
    RaisesOnly caught (.error e : Except Exc α) := by
  intro e' h
  obtain rfl := Except.error.inj h
  exact he

theorem raisesOnly_bind {x : Except Exc α} {next : α → Except Exc β}
    (hx : RaisesOnly caught x) (hnext : ∀ a, x = .ok a → RaisesOnly caught (next a)) :
    RaisesOnly caught (x >>= next) := by
  intro e h
  rcases error_of_bind h with h | ⟨a, ha, h⟩
  · exact hx e h
  · exact hnext a ha e h

theorem raisesOnly_demand {condition : Prop} [Decidable condition]
    (h : Exc.valueError ∈ caught) : RaisesOnly caught (demand condition) := by
  unfold demand
  split
  · exact raisesOnly_ok _
  · exact raisesOnly_error h

theorem raisesOnly_foldlM {step : σ → α → Except Exc σ}
    (hstep : ∀ s a, RaisesOnly caught (step s a)) (items : List α) (s : σ) :
    RaisesOnly caught (items.foldlM step s) := by
  induction items generalizing s with
  | nil => exact raisesOnly_ok s
  | cons a items ih =>
      rw [List.foldlM_cons]
      exact raisesOnly_bind (hstep s a) fun next _ => ih next

/-- What each step keeps, a loop keeps. -/
theorem foldlM_keeps {P : σ → Prop} {step : σ → α → Except Exc σ}
    (hstep : ∀ s a s', P s → step s a = .ok s' → P s') {items : List α} {s s' : σ} (hs : P s)
    (h : items.foldlM step s = .ok s') : P s' := by
  induction items generalizing s with
  | nil =>
      cases h
      exact hs
  | cons a items ih =>
      rw [List.foldlM_cons] at h
      obtain ⟨next, hnext, h⟩ := ok_of_bind h
      exact ih (hstep s a next hs hnext) h

theorem raisesOnly_mapM {f : α → Except Exc β} (items : List α)
    (hf : ∀ a ∈ items, RaisesOnly caught (f a)) : RaisesOnly caught (items.mapM f) := by
  intro e h
  obtain ⟨a, ha, he⟩ := exists_of_mapM_error h
  exact hf a ha e he

theorem raisesOnly_dictOf (h : Exc.valueError ∈ caught) (value : Value) :
    RaisesOnly caught (dictOf value) := by
  cases value with
  | dict fields => exact raisesOnly_ok fields
  | _ => exact raisesOnly_error h

theorem raisesOnly_listOf (h : Exc.valueError ∈ caught) (value : Value) :
    RaisesOnly caught (listOf value) := by
  cases value with
  | list items => exact raisesOnly_ok items
  | _ => exact raisesOnly_error h

theorem raisesOnly_item (h : Exc.keyError ∈ caught) (fields : Fields) (key : String) :
    RaisesOnly caught (item fields key) := by
  unfold item
  split
  · exact raisesOnly_ok _
  · exact raisesOnly_error h

theorem raisesOnly_field (h : Exc.validationError ∈ caught) (value : Option α) :
    RaisesOnly caught (field value) := by
  cases value with
  | some value => exact raisesOnly_ok value
  | none => exact raisesOnly_error h

theorem raisesOnly_constrained (h : Exc.validationError ∈ caught) {p : α → Prop}
    [DecidablePred p] (value : α) : RaisesOnly caught (constrained p value) := by
  unfold constrained
  split
  · exact raisesOnly_ok value
  · exact raisesOnly_error h

/-- A function either refuses an answer with the one error of an invalid response or
gives a value with the property. -/
def Answers (P : α → Prop) (x : Except Raised α) : Prop :=
  x = .error invalidResponse ∨ ∃ value, x = .ok value ∧ P value

theorem answers_guarded {P : α → Prop} {x : Except Exc α} (hraises : RaisesOnly caught x)
    (hvalue : ∀ value, x = .ok value → P value) : Answers P (guarded caught x) := by
  cases hx : x with
  | ok value => exact .inr ⟨value, rfl, hvalue value hx⟩
  | error e =>
      exact .inl (congrArg Except.error (if_pos (hraises e hx)))

theorem ok_of_demand {condition : Prop} [Decidable condition] {u : Unit}
    (h : demand condition = .ok u) : condition := by
  unfold demand at h
  split at h
  next hcondition => exact hcondition
  next => cases h

theorem dictOf_eq_ok {value : Value} {fields : Fields} (h : dictOf value = .ok fields) :
    value = .dict fields := by
  cases value with
  | dict other => exact congrArg Value.dict (Except.ok.inj h)
  | _ => cases h

theorem listOf_eq_ok {value : Value} {items : List Value} (h : listOf value = .ok items) :
    value = .list items := by
  cases value with
  | list other => exact congrArg Value.list (Except.ok.inj h)
  | _ => cases h

theorem ok_of_constrained {p : α → Prop} [DecidablePred p] {value result : α}
    (h : constrained p value = .ok result) : result = value ∧ p result := by
  unfold constrained at h
  split at h
  next hp =>
    obtain rfl := Except.ok.inj h
    exact ⟨rfl, hp⟩
  next => cases h

end Raising

end SearchTrust.Google
