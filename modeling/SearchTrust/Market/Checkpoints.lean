/-
The checkpoint of a provider response: how it is written as JSON and read back,
and that every later search of the same call accepts what a search has saved.
`canonical_json_bytes` raises for lone surrogates; nothing is saved then.
-/
import SearchTrust.Market.Payloads
import SearchTrust.Providers.Search
import Mathlib.Tactic.Ring

namespace SearchTrust.Market

open SearchTrust.Interleave SearchTrust.Interleave.Program SearchTrust.Jobs
  SearchTrust.Providers

section Digests

/-- The code point of a hexadecimal digit. -/
def hexCode (digit : Nat) : Nat := if digit < 10 then 48 + digit else 87 + digit

def hexDigit (c : Nat) : Option Nat :=
  if 48 ≤ c ∧ c ≤ 57 then some (c - 48)
  else if 97 ≤ c ∧ c ≤ 102 then some (c - 87)
  else none

/-- The text of a digest. -/
def digestText (digest : Digest) : Text :=
  text "sha256:" ++ (List.range 64).reverse.map fun i => hexCode (digest.toNat / 16 ^ i % 16)

/-- The digest of a text of the form `^sha256:[a-f0-9]{64}$`. -/
def readDigest (t : Text) : Option Digest :=
  if t.take 7 = text "sha256:" ∧ t.length = 71 then
    ((t.drop 7).mapM hexDigit).map fun digits =>
      BitVec.ofNat 256 (digits.foldl (fun value digit => value * 16 + digit) 0)
  else none

theorem hexDigit_hexCode {digit : Nat} (h : digit < 16) : hexDigit (hexCode digit) = some digit := by
  unfold hexCode hexDigit
  split
  next hlt => rw [if_pos (by omega), Nat.add_sub_cancel_left]
  next hge => rw [if_neg (by omega), if_pos (by omega), Nat.add_sub_cancel_left]

theorem mapM_hexDigit (digits : List Nat) (h : ∀ digit ∈ digits, digit < 16) :
    (digits.map hexCode).mapM hexDigit = some digits := by
  induction digits with
  | nil => rfl
  | cons digit digits ih =>
      rw [List.map_cons, List.mapM_cons, hexDigit_hexCode (h digit List.mem_cons_self),
        ih fun other hother => h other (List.mem_cons_of_mem digit hother)]
      rfl

/-- The value of the digits, written with the most significant one first. -/
theorem foldl_digits (n value k : Nat) :
    ((List.range k).reverse.map fun i => n / 16 ^ i % 16).foldl
      (fun value digit => value * 16 + digit) value = value * 16 ^ k + n % 16 ^ k := by
  induction k generalizing value with
  | zero => simp [Nat.mod_one]
  | succ k ih =>
      rw [List.range_succ, List.reverse_append, List.reverse_singleton, List.singleton_append,
        List.map_cons, List.foldl_cons, ih, Nat.mod_pow_succ]
      ring

theorem readDigest_digestText (digest : Digest) : readDigest (digestText digest) = some digest := by
  have hdigits : ((List.range 64).reverse.map fun i => hexCode (digest.toNat / 16 ^ i % 16)) =
      ((List.range 64).reverse.map fun i => digest.toNat / 16 ^ i % 16).map hexCode := by
    rw [List.map_map]
    rfl
  have hlt : ∀ digit ∈ (List.range 64).reverse.map fun i => digest.toNat / 16 ^ i % 16,
      digit < 16 := by
    intro digit hdigit
    obtain ⟨i, -, rfl⟩ := List.mem_map.1 hdigit
    exact Nat.mod_lt _ (by decide)
  have hprefix : (text "sha256:").length = 7 := by decide
  have hform : (digestText digest).take 7 = text "sha256:" ∧ (digestText digest).length = 71 := by
    unfold digestText
    constructor
    · exact List.take_left' hprefix
    · rw [List.length_append, hprefix, List.length_map, List.length_reverse, List.length_range]
  have hdrop : (digestText digest).drop 7 =
      ((List.range 64).reverse.map fun i => digest.toNat / 16 ^ i % 16).map hexCode := by
    rw [← hdigits]
    exact List.drop_left' hprefix
  have hvalue : digest.toNat % 16 ^ 64 = digest.toNat := Nat.mod_eq_of_lt digest.isLt
  rw [readDigest, if_pos hform, hdrop, mapM_hexDigit _ hlt, Option.map_some, foldl_digits,
    Nat.zero_mul, Nat.zero_add, hvalue, BitVec.ofNat_toNat, BitVec.setWidth_eq]

theorem strip_eq_self {t : Text} (h : ∀ c ∈ t, isSpace c = false) : strip t = t := by
  have hdrop : t.dropWhile isSpace = t := by
    rw [List.dropWhile_eq_self_iff]
    intro hpos
    rw [h _ (List.getElem_mem hpos)]
    exact Bool.false_ne_true
  rw [strip, hdrop, List.rdropWhile_eq_self_iff]
  intro hne
  rw [h _ (List.getLast_mem hne)]
  exact Bool.false_ne_true

theorem strip_digestText (digest : Digest) : strip (digestText digest) = digestText digest := by
  have hcode : ∀ digit < 16, isSpace (hexCode digit) = false := by decide
  have hprefix : ∀ c ∈ text "sha256:", isSpace c = false := by decide
  refine strip_eq_self ?_
  intro c hc
  rcases List.mem_append.1 hc with hc | hc
  · exact hprefix c hc
  · obtain ⟨i, -, rfl⟩ := List.mem_map.1 hc
    exact hcode _ (Nat.mod_lt _ (by decide))

end Digests

section Format

/-- How aware datetimes are written and read; what was written is read again. -/
structure TimeFormat where
  write : Instant → Text
  read : Text → Option Instant
  read_write : ∀ time, read (write time) = some time

variable (format : TimeFormat)

/-- `checkpoint.model_dump(mode="json")`. -/
def dumpCheckpoint (checkpoint : ProviderCheckpoint Fields) : Fields :=
  [("schema_version", .str (text "serp_provider_response_v1")),
    ("request_digest", .str (digestText checkpoint.requestDigest)),
    ("engine", .str (text checkpoint.engine)),
    ("payload", .dict checkpoint.payload),
    ("payload_checksum", .str (digestText checkpoint.payloadChecksum)),
    ("provider_attempts", .int checkpoint.providerAttempts),
    ("started_at", .str (format.write checkpoint.startedAt)),
    ("completed_at", .str (format.write checkpoint.completedAt))]

def checkpointKeys : List String :=
  ["schema_version", "request_digest", "engine", "payload", "payload_checksum",
    "provider_attempts", "started_at", "completed_at"]

/-- A text field, stripped as the model strips it. -/
def textField (fields : Fields) (key : String) : Option Text :=
  match Fields.get fields key with
  | some (.str t) => some (strip t)
  | _ => none

def timeField (fields : Fields) (key : String) : Option Instant :=
  match Fields.get fields key with
  | some (.str t) => format.read t
  | _ => none

/-- `^(google_maps|google)$`. -/
def readEngine (t : Text) : Option String :=
  if t = text "google_maps" then some "google_maps"
  else if t = text "google" then some "google"
  else none

def readPayload : Option Value → Option Fields
  | some (.dict payload) => some payload
  | _ => none

def readAttempts : Option Value → Option Nat
  | some (.int attempts) => if 0 ≤ attempts then some attempts.toNat else none
  | _ => none

def readFields (fields : Fields) : Option (ProviderCheckpoint Fields) := do
  let schemaVersion ← textField fields "schema_version"
  let requestDigest ← (textField fields "request_digest").bind readDigest
  let engine ← (textField fields "engine").bind readEngine
  let payload ← readPayload (Fields.get fields "payload")
  let payloadChecksum ← (textField fields "payload_checksum").bind readDigest
  let providerAttempts ← readAttempts (Fields.get fields "provider_attempts")
  let startedAt ← timeField format fields "started_at"
  let completedAt ← timeField format fields "completed_at"
  let checkpoint : ProviderCheckpoint Fields :=
    { requestDigest := requestDigest
      engine := engine
      payload := payload
      payloadChecksum := payloadChecksum
      providerAttempts := providerAttempts
      startedAt := startedAt
      completedAt := completedAt }
  if schemaVersion = text "serp_provider_response_v1" ∧
      (∀ key ∈ fields.map Prod.fst, key ∈ checkpointKeys) ∧ checkpoint.accepted then
    some checkpoint
  else none

/-- `_validate_model(_ProviderCheckpoint, raw)`; `none` where it raises. -/
def readCheckpoint (raw : Value) : Option (ProviderCheckpoint Fields) :=
  match raw.canonical with
  | .dict fields => readFields format fields
  | _ => none

/-- What is saved of a checkpoint. -/
def savedCheckpoint (checkpoint : ProviderCheckpoint Fields) : Value :=
  (Value.dict (dumpCheckpoint format checkpoint)).canonical

variable {checkpoint : ProviderCheckpoint Fields}

theorem dumpCheckpoint_nodup : ((dumpCheckpoint format checkpoint).map Prod.fst).Nodup := by
  change checkpointKeys.Nodup
  decide

theorem readEngine_text {engine : String} (h : engine = "google_maps" ∨ engine = "google") :
    readEngine (strip (text engine)) = some engine := by
  rcases h with rfl | rfl
  · decide
  · decide

/-- A checkpoint is read back as it was saved, with its payload in the order of the
encoding. -/
theorem readCheckpoint_savedCheckpoint (haccepted : checkpoint.accepted = true)
    (hpayload : Value.canonicalDict checkpoint.payload = checkpoint.payload) :
    readCheckpoint format (savedCheckpoint format checkpoint) = some checkpoint := by
  have hget : ∀ key, Fields.get (Value.canonicalDict (dumpCheckpoint format checkpoint)) key =
      (Fields.get (dumpCheckpoint format checkpoint) key).map Value.canonical :=
    fun key => Fields.get_sorted (dumpCheckpoint_nodup format)
  have hkeys : ∀ key ∈ (Value.canonicalDict (dumpCheckpoint format checkpoint)).map Prod.fst,
      key ∈ checkpointKeys := by
    intro key hkey
    have hperm := (List.mergeSort_perm
      (Value.canonicalFields (dumpCheckpoint format checkpoint)) Value.keyLe).map Prod.fst
    have hmem := hperm.mem_iff.1 hkey
    rwa [Fields.keys_canonicalFields] at hmem
  have hschema : strip (text "serp_provider_response_v1") = text "serp_provider_response_v1" := by
    decide
  have hengine : checkpoint.engine = "google_maps" ∨ checkpoint.engine = "google" := by
    simp only [ProviderCheckpoint.accepted, Bool.and_eq_true, Bool.or_eq_true, beq_iff_eq]
      at haccepted
    exact haccepted.1.1.1
  have hdict : (savedCheckpoint format checkpoint).canonical =
      .dict (Value.canonicalDict (dumpCheckpoint format checkpoint)) := by
    rw [savedCheckpoint, Value.canonical_canonical, Value.canonical_dict]
  have hschemaField : Fields.get (dumpCheckpoint format checkpoint) "schema_version" =
      some (.str (text "serp_provider_response_v1")) := rfl
  have hdigestField : Fields.get (dumpCheckpoint format checkpoint) "request_digest" =
      some (.str (digestText checkpoint.requestDigest)) := rfl
  have hengineField : Fields.get (dumpCheckpoint format checkpoint) "engine" =
      some (.str (text checkpoint.engine)) := rfl
  have hpayloadField : Fields.get (dumpCheckpoint format checkpoint) "payload" =
      some (.dict checkpoint.payload) := rfl
  have hchecksumField : Fields.get (dumpCheckpoint format checkpoint) "payload_checksum" =
      some (.str (digestText checkpoint.payloadChecksum)) := rfl
  have hattemptsField : Fields.get (dumpCheckpoint format checkpoint) "provider_attempts" =
      some (.int checkpoint.providerAttempts) := rfl
  have hstartedField : Fields.get (dumpCheckpoint format checkpoint) "started_at" =
      some (.str (format.write checkpoint.startedAt)) := rfl
  have hcompletedField : Fields.get (dumpCheckpoint format checkpoint) "completed_at" =
      some (.str (format.write checkpoint.completedAt)) := rfl
  rw [readCheckpoint, hdict]
  simp only [readFields, textField, timeField, hget, hschemaField, hdigestField, hengineField,
    hpayloadField, hchecksumField, hattemptsField, hstartedField, hcompletedField,
    Option.map_some, Value.canonical, hschema, strip_digestText, Option.bind_some,
    readDigest_digestText, readEngine_text hengine, readPayload, readAttempts,
    format.read_write, Option.bind_eq_bind]
  have hcanonical : (Value.canonicalFields checkpoint.payload).mergeSort Value.keyLe =
      checkpoint.payload := hpayload
  simp only [hcanonical, Int.natCast_nonneg, if_true, Option.bind_some, Int.toNat_natCast]
  rw [if_pos ⟨trivial, hkeys, haccepted⟩]

end Format

section Searches

open CheckpointedSerpProvider (validatedCheckpoint persist search guarded takePermit)

/-- The functions outside this module that a search is built on. -/
structure SerpLibrary where
  /-- `str(value)` of a value that is no text. -/
  render : Value → Text
  /-- SHA-256 of the canonical bytes. -/
  sha256 : Fields → Digest
  /-- The number of canonical bytes. -/
  size : Fields → Nat
  payloadError : Fields → Option String
  normalizeMessage : Option String → String
  fingerprint : String → String

/-- The functions of `CheckpointedSerpProvider`.  Python compares dicts without the
order of their keys, so a sanitized payload has that of its encoding. -/
def SerpLibrary.functions (library : SerpLibrary) : PayloadFunctions Fields where
  sanitize := fun payload engine =>
    Value.canonicalDict (sanitizeSerpPayload library.render payload engine)
  requestDigest := fun payload => library.sha256 (Value.canonicalDict payload)
  size := fun payload => library.size (Value.canonicalDict payload)
  payloadError := library.payloadError
  normalizeMessage := library.normalizeMessage
  fingerprint := library.fingerprint

variable (library : SerpLibrary) (format : TimeFormat) (call : SerpPlannedCall)

/-- What a search has made sure of before it saves a checkpoint. -/
structure Savable (checkpoint : ProviderCheckpoint Fields) : Prop where
  requestDigest_eq : checkpoint.requestDigest = call.requestDigest
  engine_eq : checkpoint.engine = call.engine
  accepted : checkpoint.accepted = true
  sanitized : ∃ response, checkpoint.payload = library.functions.sanitize response call.engine
  checksum_eq : checkpoint.payloadChecksum = library.functions.requestDigest checkpoint.payload
  size_le : library.functions.size checkpoint.payload ≤ maxNormalizedCheckpointBytes

/-- A call of a search that saves a checkpoint saves a savable one. -/
def SavesSavable (op : SearchOp Fields) : Prop :=
  ∀ checkpoint, op = .saveCheckpoint checkpoint → Savable library call checkpoint

variable {library format call}

theorem savesSavable_of_ne {op : SearchOp Fields}
    (h : ∀ checkpoint, op ≠ .saveCheckpoint checkpoint) : SavesSavable library call op :=
  fun checkpoint heq => absurd heq (h checkpoint)

theorem onlySavable_searchCall {op : SearchOp Fields}
    (h : ∀ checkpoint, op ≠ .saveCheckpoint checkpoint) :
    (searchCall op).OnlyCalls (SavesSavable library call) :=
  onlyCalls_perform (savesSavable_of_ne h)

theorem onlySavable_validatedCheckpoint (saved : Option (ProviderCheckpoint Fields)) :
    (validatedCheckpoint library.functions call saved).OnlyCalls (SavesSavable library call) := by
  cases saved with
  | none => trivial
  | some checkpoint =>
      dsimp only [validatedCheckpoint]
      repeat' split
      all_goals trivial

theorem onlySavable_persist (now : SearchReadings) (response : SerpProviderResponse Fields) :
    (persist library.functions call now response).OnlyCalls (SavesSavable library call) := by
  refine OnlyCalls.bind (onlySavable_searchCall (by simp)) fun attempts => ?_
  dsimp only
  split
  · trivial
  split
  · trivial
  next hattempts haccepted =>
    split
    · trivial
    next hsize =>
      rw [Bool.not_eq_true', Bool.not_eq_false] at haccepted
      refine OnlyCalls.bind (onlyCalls_perform ?_) fun _ => ?_
      · rintro checkpoint heq
        obtain rfl := SearchOp.saveCheckpoint.inj heq
        exact ⟨rfl, rfl, haccepted, ⟨response.payload, rfl⟩, rfl, Nat.not_lt.1 hsize⟩
      · refine OnlyCalls.bind (onlySavable_searchCall (by simp)) fun saved => ?_
        cases saved with
        | none => trivial
        | some persisted =>
            exact OnlyCalls.bind (onlySavable_validatedCheckpoint persisted) fun _ => trivial

theorem onlySavable_record (held : Option CircuitPermit) {report : CircuitPermit → SearchOp Fields}
    (h : ∀ permit checkpoint, report permit ≠ .saveCheckpoint checkpoint) :
    (record held report).OnlyCalls (SavesSavable library call) := by
  cases held with
  | none => trivial
  | some permit => exact OnlyCalls.bind (onlySavable_searchCall (h permit)) fun _ => trivial

theorem onlySavable_guarded (now : SearchReadings) (held : Option CircuitPermit) :
    (guarded now held).OnlyCalls (SavesSavable library call) := by
  refine OnlyCalls.bind (OnlyCalls.attempt (onlySavable_searchCall (by simp))) fun result => ?_
  split
  · exact OnlyCalls.bind (onlySavable_record held (by simp)) fun _ => trivial
  · trivial
  · exact OnlyCalls.bind (onlySavable_record held (by simp)) fun _ =>
      OnlyCalls.bind (onlySavable_searchCall (by simp)) fun _ => trivial
  · trivial

/-- Whatever it is answered, a search saves savable checkpoints only. -/
theorem onlySavable_search (self : CheckpointedSerpProvider) (now : SearchReadings) :
    (search library.functions self call now).OnlyCalls (SavesSavable library call) := by
  refine OnlyCalls.bind (onlySavable_searchCall (by simp)) fun saved => ?_
  cases saved with
  | some existing =>
      dsimp only
      have hrest : (validatedCheckpoint library.functions call existing >>= fun checkpoint =>
          ret (CheckpointedSerpProvider.response checkpoint true)).OnlyCalls
            (SavesSavable library call) :=
        OnlyCalls.bind (onlySavable_validatedCheckpoint existing) fun _ => trivial
      split
      · exact OnlyCalls.bind (onlySavable_searchCall (by simp)) fun _ => hrest
      · exact hrest
  | none =>
      refine OnlyCalls.bind (onlySavable_searchCall (by simp)) fun attempts => ?_
      split
      · trivial
      refine OnlyCalls.bind ?_ fun held => ?_
      · unfold takePermit
        split
        · exact OnlyCalls.bind (onlySavable_searchCall (by simp)) fun _ => trivial
        · trivial
      · exact OnlyCalls.bind (onlySavable_guarded now held) fun response =>
          onlySavable_persist now response

theorem Savable.payload_canonical {checkpoint : ProviderCheckpoint Fields}
    (h : Savable library call checkpoint) :
    Value.canonicalDict checkpoint.payload = checkpoint.payload := by
  obtain ⟨response, hpayload⟩ := h.sanitized
  rw [hpayload]
  exact Value.canonicalDict_canonicalDict _

/-- A sanitized payload is a fixed point of sanitizing. -/
theorem SerpLibrary.sanitize_sanitize (library : SerpLibrary) (payload : Fields)
    (engine : String) :
    library.functions.sanitize (library.functions.sanitize payload engine) engine =
      library.functions.sanitize payload engine :=
  congrArg Value.canonicalDict (sanitizeSerpPayload_canonical payload engine)

/-- A savable checkpoint passes every check of a later reading. -/
theorem Savable.validated {checkpoint : ProviderCheckpoint Fields}
    (h : Savable library call checkpoint) :
    validatedCheckpoint library.functions call (some checkpoint) = .ret checkpoint := by
  obtain ⟨response, hpayload⟩ := h.sanitized
  have hsanitize : library.functions.sanitize checkpoint.payload call.engine =
      checkpoint.payload := by
    rw [hpayload]
    exact library.sanitize_sanitize response call.engine
  dsimp only [validatedCheckpoint]
  rw [if_neg (by simp [h.requestDigest_eq, h.engine_eq]), if_neg (Nat.not_lt.2 h.size_le),
    if_neg (by simp [hsanitize]), if_neg (by simp [h.checksum_eq])]
  rfl

theorem Savable.read {checkpoint : ProviderCheckpoint Fields}
    (h : Savable library call checkpoint) (format : TimeFormat) :
    readCheckpoint format (savedCheckpoint format checkpoint) = some checkpoint :=
  readCheckpoint_savedCheckpoint format h.accepted h.payload_canonical

variable (library format call)

/-- Some search of the call, in some process and under some answers, makes the call
that saves the checkpoint. -/
def Saves (checkpoint : ProviderCheckpoint Fields) : Prop :=
  ∃ (self : CheckpointedSerpProvider) (now : SearchReadings) (answers : SearchAnswers Fields),
    SearchOp.saveCheckpoint checkpoint ∈ (search library.functions self call now).calls answers

/-- How the checkpoint of the call changes: a search saves one where none is, and a
saved one expires. -/
inductive CheckpointStep : Option Value → Option Value → Prop
  | saved {checkpoint : ProviderCheckpoint Fields} (h : Saves library call checkpoint) :
      CheckpointStep none (some (savedCheckpoint format checkpoint))
  | expired (raw : Value) : CheckpointStep (some raw) none

/-- What the checkpoint may be after any searches of the call. -/
def CheckpointReachable (slot : Option Value) : Prop :=
  Relation.ReflTransGen (CheckpointStep library format call) none slot

variable {library format call}

theorem Saves.savable {checkpoint : ProviderCheckpoint Fields}
    (h : Saves library call checkpoint) : Savable library call checkpoint := by
  obtain ⟨self, now, answers, hmem⟩ := h
  exact (onlySavable_search self now).of_mem_calls answers hmem checkpoint rfl

/-- A checkpoint that is there was saved by a search. -/
theorem CheckpointReachable.saved {slot : Option Value}
    (h : CheckpointReachable library format call slot) {raw : Value} (hraw : slot = some raw) :
    ∃ checkpoint, Saves library call checkpoint ∧ raw = savedCheckpoint format checkpoint := by
  induction h with
  | refl => cases hraw
  | tail _ hstep _ =>
      cases hstep with
      | saved hsaves => exact ⟨_, hsaves, (Option.some.inj hraw).symm⟩
      | expired => cases hraw

/-- A search that finds a saved checkpoint returns what it says. -/
theorem search_of_saved {checkpoint : ProviderCheckpoint Fields}
    (h : Saves library call checkpoint) (self : CheckpointedSerpProvider) (now : SearchReadings)
    {answers : SearchAnswers Fields}
    (hfound : answers .getCheckpoint =
      .ok (some (readCheckpoint format (savedCheckpoint format checkpoint))))
    (hhit : answers .recordCheckpointHit = .ok ()) :
    (search library.functions self call now).outcome answers =
      .ok (CheckpointedSerpProvider.response checkpoint true) := by
  rw [h.savable.read] at hfound
  rw [search, outcome_bind, outcome_perform, hfound]
  dsimp only
  rw [h.savable.validated]
  split
  · rw [outcome_bind, outcome_perform, hhit]
    rfl
  · rfl

variable (library format call) in
/-- The answer to a reading of the checkpoint is that of a store that only searches
of the call have written to. -/
def ReadsSaved (answer : Except ProviderException (Option (Option (ProviderCheckpoint Fields)))) :
    Prop :=
  ∀ read, answer = .ok (some read) →
    ∃ raw, CheckpointReachable library format call (some raw) ∧ read = readCheckpoint format raw

/-- The run does not end with `SerpMarketCheckpointError`. -/
def Accepts {α : Type} (answers : SearchAnswers Fields) (p : SearchProc Fields α) : Prop :=
  p.outcome answers ≠ .error .checkpointInvalid

theorem Accepts.bind {α β : Type} {answers : SearchAnswers Fields} {p : SearchProc Fields α}
    {f : α → SearchProc Fields β} (hp : Accepts answers p)
    (hf : ∀ value, p.outcome answers = .ok value → Accepts answers (f value)) :
    Accepts answers (p >>= f) := by
  unfold Accepts at *
  rw [outcome_bind]
  cases h : p.outcome answers with
  | ok value => exact hf value h
  | error error =>
      rw [h] at hp
      exact fun heq => hp (congrArg Except.error (Except.error.inj heq))

theorem accepts_ret {α : Type} {answers : SearchAnswers Fields} (value : α) :
    Accepts answers (.ret value) := by
  intro heq
  cases heq

theorem accepts_raise {α : Type} {answers : SearchAnswers Fields} {error : ProviderException}
    (h : error ≠ .checkpointInvalid) :
    Accepts answers (.raise error : SearchProc Fields α) :=
  fun heq => h (Except.error.inj heq)

theorem accepts_validatedCheckpoint {answers : SearchAnswers Fields}
    {read : Option (ProviderCheckpoint Fields)}
    (h : ∃ raw, CheckpointReachable library format call (some raw) ∧
      read = readCheckpoint format raw) :
    Accepts answers (validatedCheckpoint library.functions call read) := by
  obtain ⟨raw, hreach, rfl⟩ := h
  obtain ⟨checkpoint, hsaves, rfl⟩ := hreach.saved rfl
  rw [hsaves.savable.read, hsaves.savable.validated]
  exact accepts_ret checkpoint

/-- No other call of the search ends with `SerpMarketCheckpointError`. -/
def OthersAccept (answers : SearchAnswers Fields) : Prop :=
  ∀ op, answers op ≠ .error .checkpointInvalid

theorem OthersAccept.searchCall {answers : SearchAnswers Fields} (h : OthersAccept answers)
    (op : SearchOp Fields) : Accepts answers (searchCall op) := by
  unfold Accepts
  rw [outcome_perform]
  exact h op

theorem accepts_persist {answers : SearchAnswers Fields} (hothers : OthersAccept answers)
    (hback : ReadsSaved library format call (answers .readBackCheckpoint))
    (now : SearchReadings) (response : SerpProviderResponse Fields) :
    Accepts answers (persist library.functions call now response) := by
  refine (hothers.searchCall _).bind fun attempts _ => ?_
  dsimp only
  split
  · exact accepts_raise (by simp)
  split
  · exact accepts_raise (by simp)
  split
  · exact accepts_raise (by simp)
  refine (hothers.searchCall _).bind fun _ _ => ?_
  refine (hothers.searchCall _).bind fun saved hsaved => ?_
  rw [outcome_perform] at hsaved
  cases saved with
  | none => exact accepts_ret _
  | some read =>
      exact (accepts_validatedCheckpoint (hback read hsaved)).bind fun _ _ => accepts_ret _

theorem accepts_guarded {answers : SearchAnswers Fields} (hothers : OthersAccept answers)
    (now : SearchReadings) (held : Option CircuitPermit) :
    Accepts answers (guarded now held) := by
  have hrecord : ∀ report, Accepts answers (record held report) := by
    intro report
    cases held with
    | none => exact accepts_ret _
    | some permit => exact (hothers.searchCall _).bind fun _ _ => accepts_ret _
  have hattempt : Accepts answers (searchCall SearchOp.delegateSearch).attempt := by
    unfold Accepts
    rw [outcome_attempt]
    intro heq
    cases heq
  refine hattempt.bind fun result hresult => ?_
  rw [outcome_attempt, outcome_perform] at hresult
  have hdelegate := hothers .delegateSearch
  rw [Except.ok.inj hresult] at hdelegate
  split
  · exact (hrecord _).bind fun _ _ => accepts_ret _
  · exact accepts_raise (by simp)
  · refine (hrecord _).bind fun _ _ => ?_
    exact (hothers.searchCall _).bind fun _ _ => accepts_raise (by simp)
  · exact fun heq => hdelegate (congrArg Except.error (Except.error.inj heq))

/-- A search that reads what searches have saved does not refuse it, at its first
reading and at the one after its save. -/
theorem accepts_search {answers : SearchAnswers Fields} (hothers : OthersAccept answers)
    (hfound : ReadsSaved library format call (answers .getCheckpoint))
    (hback : ReadsSaved library format call (answers .readBackCheckpoint))
    (self : CheckpointedSerpProvider) (now : SearchReadings) :
    Accepts answers (search library.functions self call now) := by
  refine (hothers.searchCall _).bind fun saved hsaved => ?_
  rw [outcome_perform] at hsaved
  cases saved with
  | some read =>
      dsimp only
      have hchecked : Accepts answers (validatedCheckpoint library.functions call read) :=
        accepts_validatedCheckpoint (hfound read hsaved)
      have hrest := hchecked.bind
        (f := fun checkpoint => ret (CheckpointedSerpProvider.response checkpoint true))
        fun checkpoint _ => accepts_ret _
      split
      · exact (hothers.searchCall _).bind fun _ _ => hrest
      · exact hrest
  | none =>
      refine (hothers.searchCall _).bind fun attempts _ => ?_
      split
      · exact accepts_raise (by simp)
      refine Accepts.bind ?_ fun held _ => ?_
      · unfold takePermit
        split
        · exact (hothers.searchCall _).bind fun _ _ => accepts_ret _
        · exact accepts_ret _
      · exact (accepts_guarded hothers now held).bind fun response _ =>
          accepts_persist hothers hback now response

/-- Sanitizing is idempotent, also across the encoding, so what a search saves every
later search of the call reads back as it was saved, and returns. -/
theorem checkpoints_reread (library : SerpLibrary) (format : TimeFormat) :
    (∀ payload engine,
      sanitizeSerpPayload library.render (sanitizeSerpPayload library.render payload engine)
        engine = sanitizeSerpPayload library.render payload engine) ∧
    (∀ payload engine,
      sanitizeSerpPayload library.render
        (Value.canonicalDict (sanitizeSerpPayload library.render payload engine)) engine =
        sanitizeSerpPayload library.render payload engine) ∧
    (∀ call raw, CheckpointReachable library format call (some raw) →
      ∃ checkpoint, Saves library call checkpoint ∧
        raw = savedCheckpoint format checkpoint ∧
        readCheckpoint format raw = some checkpoint ∧
        checkpoint.payloadChecksum = library.functions.requestDigest checkpoint.payload ∧
        ∀ self now answers, answers .getCheckpoint = .ok (some (readCheckpoint format raw)) →
          answers .recordCheckpointHit = .ok () →
          (search library.functions self call now).outcome answers =
            .ok (CheckpointedSerpProvider.response checkpoint true)) ∧
    ∀ call answers, OthersAccept answers →
      ReadsSaved library format call (answers .getCheckpoint) →
      ReadsSaved library format call (answers .readBackCheckpoint) →
      ∀ self now, Accepts answers (search library.functions self call now) := by
  refine ⟨sanitizeSerpPayload_idempotent, sanitizeSerpPayload_canonical, ?_, ?_⟩
  · intro call raw hreach
    obtain ⟨checkpoint, hsaves, rfl⟩ := hreach.saved rfl
    refine ⟨checkpoint, hsaves, rfl, hsaves.savable.read format, hsaves.savable.checksum_eq, ?_⟩
    intro self now answers hfound hhit
    exact search_of_saved hsaves self now hfound hhit
  · intro call answers hothers hfound hback self now
    exact accepts_search hothers hfound hback self now

/-- A provider that answers with one listing, at the start of the epoch. -/
def listingResponse : SerpProviderResponse Fields where
  payload := [("local_results", .list [.dict [("title", .str (text " Pipes "))]])]
  providerAttempts := 1
  logicalCallUsed := true
  checkpointHit := false
  startedAt := some 0
  completedAt := some 0

/-- The answers to a search whose checkpoint reads as `saved`. -/
def listingAnswers (saved : Option (Option (ProviderCheckpoint Fields))) : SearchAnswers Fields
  | .getCheckpoint => .ok saved
  | .recordCheckpointHit => .ok ()
  | .countAttempts => .ok 0
  | .recountAttempts => .ok 1
  | .delegateSearch => .ok listingResponse
  | .saveCheckpoint _ => .ok true
  | .readBackCheckpoint => .ok none
  | .beforeCall _ _ _ _ => .ok false
  | .recordSuccess _ => .ok ()
  | .recordFailure _ _ _ _ _ => .ok false
  | .openClient => .ok ()
  | .closeClient => .ok ()
  | .beforeAttempt _ _ => .ok ()
  | .get _ _ => .error .timeout
  | .afterAttempt _ _ _ => .ok ()

def listingLibrary : SerpLibrary where
  render := fun _ => []
  sha256 := fun _ => 0
  size := fun _ => 48
  payloadError := fun _ => none
  normalizeMessage := fun _ => ""
  fingerprint := id

def listingCall : SerpPlannedCall := ⟨0, "google_maps"⟩

def listingReadings : SearchReadings where
  startedAt := 0
  checkedAt := fun _ => 0
  failedAt := fun _ => 0
  completedAt := 0
  activeFingerprint := ""
  monotonic := 0
  blockedUntil := fun _ => 0

/-- The epoch is written as it is; every other time by its number. -/
def epochFormat : TimeFormat where
  write := fun time =>
    if time = 0 then text "1970-01-01T00:00:00Z"
    else if 0 ≤ time then [0, time.toNat] else [1, (-time).toNat]
  read := fun t =>
    if t = text "1970-01-01T00:00:00Z" then some 0
    else
      match t with
      | [0, n] => some n
      | [1, n] => some (-n)
      | _ => none
  read_write := by
    intro time
    have hlength : (text "1970-01-01T00:00:00Z").length = 20 := by decide
    have hshort : ∀ a b : Nat, ([a, b] : Text) ≠ text "1970-01-01T00:00:00Z" := by
      intro a b heq
      rw [← heq] at hlength
      simp at hlength
    by_cases hzero : time = 0
    · rw [if_pos hzero, if_pos rfl, hzero]
    · rw [if_neg hzero]
      by_cases hpos : 0 ≤ time
      · rw [if_pos hpos, if_neg (hshort _ _)]
        exact congrArg some (Int.toNat_of_nonneg hpos)
      · rw [if_neg hpos, if_neg (hshort _ _)]
        have hnat : ∀ t : Int, ¬ 0 ≤ t → -(((-t).toNat : Nat) : Int) = t := by omega
        exact congrArg some (hnat time hpos)

def listingCheckpoint : ProviderCheckpoint Fields where
  requestDigest := 0
  engine := "google_maps"
  payload := listingLibrary.functions.sanitize listingResponse.payload "google_maps"
  payloadChecksum := 0
  providerAttempts := 1
  startedAt := 0
  completedAt := 0

theorem listingCheckpoint_saved : Saves listingLibrary listingCall listingCheckpoint := by
  refine ⟨⟨false, false⟩, listingReadings, listingAnswers none, ?_⟩
  have hcalls : (search listingLibrary.functions ⟨false, false⟩ listingCall
      listingReadings).calls (listingAnswers none) =
      [.getCheckpoint, .countAttempts, .delegateSearch, .recountAttempts,
        .saveCheckpoint listingCheckpoint, .readBackCheckpoint] := rfl
  rw [hcalls]
  simp

theorem checkpoints_reread_listing :
    (search listingLibrary.functions ⟨false, false⟩ listingCall listingReadings).outcome
        (listingAnswers (some (readCheckpoint epochFormat
          (savedCheckpoint epochFormat listingCheckpoint)))) =
      .ok (CheckpointedSerpProvider.response listingCheckpoint true) := by
  obtain ⟨checkpoint, -, -, hread, -, hsearch⟩ :=
    (checkpoints_reread listingLibrary epochFormat).2.2.1 listingCall
      (savedCheckpoint epochFormat listingCheckpoint)
      (.single (.saved listingCheckpoint_saved))
  rw [listingCheckpoint_saved.savable.read epochFormat] at hread
  rw [← Option.some.inj hread] at hsearch
  exact hsearch ⟨false, false⟩ listingReadings _ rfl rfl

end Searches

end SearchTrust.Market
