/-
The sentence catalog of the controlled copy.
-/
import SearchTrust.Report.ActionCatalog
import SearchTrust.Report.CopyModels

namespace SearchTrust.Report

/-- A part of a format string. -/
inductive TemplatePart where
  | literal (text : String)
  | placeholder (name : String)
deriving DecidableEq

structure CopyPatternDefinition where
  spec : CopyPatternSpec
  template : List TemplatePart

/-- `template.format(**slots)`; `none` is a `KeyError`. -/
def format : List TemplatePart → (String → Option String) → Option String
  | [], _ => some ""
  | .literal text :: rest, slots => do
      let tail ← format rest slots
      return text ++ tail
  | .placeholder name :: rest, slots => do
      let value ← slots name
      let tail ← format rest slots
      return value ++ tail

/-- `sorted(ACTION_TEMPLATES)`. -/
def supportedTemplateKeys : List String :=
  ["align_public_gbp", "close_page_type_gap", "differentiate_page_titles",
    "restore_site_access_indexing", "review_market_visibility"]

/-- `_definition`. -/
def copyDefinition (key : String) (purpose : CopyPurpose) (hint : String)
    (slots : List CopyPatternSlotSpec) (template : List TemplatePart) :
    CopyPatternDefinition where
  spec := {
    patternKey := key
    purpose := purpose
    compatibleTemplateKeys := supportedTemplateKeys
    selectionHint := hint
    slots := slots
    maxRenderedChars := 200000 }
  template := template

def findingSlot : CopyPatternSlotSpec := ⟨"finding", [.findingStatement], 1, 1⟩

def whyNowCatalog : List CopyPatternDefinition := [
  copyDefinition "why_now.evidence_finding.v1" .whyNow
    "Lead with one supported finding from the saved evidence." [findingSlot]
    [.literal "The saved evidence makes this action timely: ", .placeholder "finding"],
  copyDefinition "why_now.current_finding.v1" .whyNow
    "Describe why the current supported finding makes the action relevant." [findingSlot]
    [.literal "This action is relevant now because the current finding is: ",
      .placeholder "finding"]]

/-- `_TARGET_FACT_TYPES`. -/
def targetFactTypes : List CopyFactType :=
  [.targetUrl, .targetQuery, .targetPageType, .targetGbpField, .targetSite]

def explanationSlots : List CopyPatternSlotSpec := [
  ⟨"targets", targetFactTypes, 1, 5000⟩,
  ⟨"completion", [.definitionOfDone], 1, 20⟩,
  ⟨"limitations", [.requiredLimitation], 1, 20⟩]

def explanationCatalog : List CopyPatternDefinition := [
  copyDefinition "explanation.targets_completion_limits.v1" .clientFacingExplanation
    "State the exact supported scope, completion condition and every required limitation."
    explanationSlots
    [.literal "Focus on ", .placeholder "targets",
      .literal ". Completion is defined by ", .placeholder "completion",
      .literal " Keep these limits in view: ", .placeholder "limitations"],
  copyDefinition "explanation.completion_targets_limits.v1" .clientFacingExplanation
    "Lead with the supported target, then state completion and every required limitation."
    explanationSlots
    [.literal "Use ", .placeholder "targets",
      .literal " as the exact scope. The completion condition is ", .placeholder "completion",
      .literal " Keep these limits in view: ", .placeholder "limitations"]]

/-- `ALL_PATTERNS`. -/
def allPatterns : List CopyPatternDefinition := whyNowCatalog ++ explanationCatalog

/-- `pattern_definitions_for`. -/
def patternDefinitionsFor (templateKey : String) (purpose : CopyPurpose) :
    List CopyPatternDefinition :=
  let source := if purpose = .whyNow then whyNowCatalog else explanationCatalog
  source.filter fun definition => templateKey ∈ definition.spec.compatibleTemplateKeys

/-- `PATTERNS_BY_KEY.get`. -/
def patternDefinition (patternKey : String) : Option CopyPatternDefinition :=
  allPatterns.find? fun definition => definition.spec.patternKey = patternKey

theorem patternDefinition_mem {key : String} {definition : CopyPatternDefinition}
    (h : patternDefinition key = some definition) : definition ∈ allPatterns :=
  List.mem_of_find?_eq_some h

theorem key_of_patternDefinition {key : String} {definition : CopyPatternDefinition}
    (h : patternDefinition key = some definition) : definition.spec.patternKey = key := by
  simpa using List.find?_some h

/-- The catalog passes the checks of its own models. -/
theorem allPatterns_valid : ∀ definition ∈ allPatterns, definition.spec.Valid := by
  decide

theorem allPatterns_stripped : ∀ definition ∈ allPatterns,
    definition.spec.stripped = definition.spec := by decide

theorem specs_stripped (definitions : List CopyPatternDefinition)
    (h : definitions ⊆ allPatterns) :
    (definitions.map (·.spec)).map CopyPatternSpec.stripped = definitions.map (·.spec) := by
  rw [List.map_map]
  exact List.map_congr_left fun definition hmem => allPatterns_stripped definition (h hmem)

/-- A template has no placeholder outside its slots. -/
theorem placeholder_mem_slots : ∀ definition ∈ allPatterns, ∀ part ∈ definition.template,
    ∀ name, part = .placeholder name →
      name ∈ definition.spec.slots.map (·.slotName) := by
  intro definition hdefinition part hpart name hname
  subst hname
  simp only [allPatterns, whyNowCatalog, explanationCatalog, List.cons_append,
    List.nil_append, List.mem_cons, List.not_mem_nil, or_false] at hdefinition
  rcases hdefinition with rfl | rfl | rfl | rfl <;>
    simp [copyDefinition, findingSlot, explanationSlots] at hpart ⊢ <;> tauto

/-- A format string is filled when every placeholder has a value. -/
theorem format_isSome (template : List TemplatePart) (slots : String → Option String)
    (h : ∀ part ∈ template, ∀ name, part = .placeholder name → (slots name).isSome) :
    (format template slots).isSome := by
  induction template with
  | nil => rfl
  | cons part rest ih =>
      have hrest := ih fun part hpart => h part (List.mem_cons_of_mem _ hpart)
      obtain ⟨tail, htail⟩ := Option.isSome_iff_exists.1 hrest
      cases part with
      | literal text => simp [format, htail]
      | placeholder name =>
          obtain ⟨value, hvalue⟩ :=
            Option.isSome_iff_exists.1 (h _ List.mem_cons_self name rfl)
          simp [format, htail, hvalue]

end SearchTrust.Report
