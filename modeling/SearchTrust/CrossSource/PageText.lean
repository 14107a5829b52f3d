/-
The paths and the queries of pages: what they are after one rewriting, and which changes
of them do not matter.
-/
import Mathlib.Data.List.ReduceOption
import SearchTrust.CrossSource.Pages

namespace SearchTrust.CrossSource

open SearchTrust.Order
open SearchTrust.Web

section Guards

variable {s t : Text}

theorem decodeUnreserved_eq (s : Text) : decodeUnreserved s = normalText s := by
  rw [decodeUnreserved, normalText, List.flatMap_map]
  refine List.flatMap_congr fun p _ => ?_
  cases p with
  | plain c => rfl
  | escape a b =>
      unfold replaceEscape Piece.normal
      dsimp only
      split <;> rfl

/-- The guard against malformed escapes. -/
theorem badPercent_eq_false_iff : badPercent s = false ↔ SoundText s := by
  rw [soundText_iff]
  induction s using pieces_induction with
  | nil => simp [badPercent, pieces]
  | escape a b rest ha hb ih =>
      have hplain : ∀ {c : Char}, isHex c = true → c ≠ '%' := by
        rintro c hc rfl
        cases hc
      rw [pieces_escape ha hb, badPercent, badPercent, badPercent]
      simp [ha, hb, hplain ha, hplain hb, ih]
  | plain c rest hcut ih =>
      rw [hcut, badPercent]
      by_cases hc : c = '%'
      · subst hc
        have hhex : (rest.length ≥ 2 && (rest.take 2).all isHex) = false := by
          rcases rest with - | ⟨a, - | ⟨b, rest⟩⟩
          · rfl
          · rfl
          · by_contra hhex
            rw [Bool.not_eq_false] at hhex
            have hboth : (isHex a && isHex b) = true := by simpa using hhex
            rw [pieces, if_pos hboth] at hcut
            cases hcut
        simp [hhex]
      · simp [hc, Ne.symm hc, ih]

/-- A text that the guards let pass. -/
structure Fit (s : Text) : Prop where
  sound : SoundText s
  control : ∀ c ∈ s, isControl c = false
  backslash : '\\' ∉ s

theorem unfit_eq_false_iff : unfit s = false ↔ Fit s := by
  rw [unfit, Bool.or_eq_false_iff, Bool.or_eq_false_iff, badPercent_eq_false_iff,
    List.any_eq_false, decide_eq_false_iff_not]
  constructor
  · rintro ⟨⟨hsound, hcontrol⟩, hbackslash⟩
    exact ⟨hsound, fun c hc => by simpa using hcontrol c hc, hbackslash⟩
  · rintro ⟨hsound, hcontrol, hbackslash⟩
    exact ⟨⟨hsound, fun c hc => by simp [hcontrol c hc]⟩, hbackslash⟩

theorem unfit_eq_true_iff : unfit s = true ↔ ¬ Fit s := by
  rw [← unfit_eq_false_iff, Bool.not_eq_false]

theorem isHex_of_isControl {c : Char} (h : isControl c = true) : isHex c = false := by
  by_contra hhex
  have hall : ∀ c ∈ hexDigits, isControl c = false :=
    List.all_iff_forall_prop.1 (by decide)
  rw [hall c (mem_hexDigits (by simpa using hhex))] at h
  cases h

theorem isAlwaysSafe_of_isControl {c : Char} (h : isControl c = true) :
    isAlwaysSafe c = false ∧ c ≠ '%' := by
  have hrange : c.toNat ≤ 31 ∨ c.toNat = 127 := by
    simpa [isControl] using h
  have hc : c = Char.ofNat c.toNat := (Char.ofNat_toNat c).symm
  have hall : ∀ n ∈ 127 :: List.range 32, isAlwaysSafe (Char.ofNat n) = false ∧
      Char.ofNat n ≠ '%' := by decide
  rw [hc]
  refine hall _ ?_
  rcases hrange with hle | heq
  · exact List.mem_cons_of_mem _ (List.mem_range.2 (by omega))
  · rw [heq]
    exact List.mem_cons_self

theorem isHex_backslash : isHex '\\' = false := by decide

theorem Fit.normalText (h : Fit s) : Fit (normalText s) where
  sound := h.sound.normalText
  control := by
    intro c hc
    by_contra hcontrol
    rw [Bool.not_eq_false] at hcontrol
    obtain ⟨hsafe, hpercent⟩ := isAlwaysSafe_of_isControl hcontrol
    rw [mem_normalText (isHex_of_isControl hcontrol) hpercent hsafe h.sound] at hc
    rw [h.control c hc] at hcontrol
    cases hcontrol
  backslash := by
    rw [mem_normalText isHex_backslash (by decide) (by decide) h.sound]
    exact h.backslash

/-- A separator that the guards let pass. -/
structure Separator (c : Char) : Prop where
  hex : isHex c = false
  percent : c ≠ '%'
  safe : isAlwaysSafe c = false
  control : isControl c = false
  backslash : c ≠ '\\'

theorem separator_slash : Separator '/' := ⟨by decide, by decide, by decide, by decide, by decide⟩
theorem separator_and : Separator '&' := ⟨by decide, by decide, by decide, by decide, by decide⟩
theorem separator_equals : Separator '=' := ⟨by decide, by decide, by decide, by decide, by decide⟩

variable {c : Char}

theorem fit_append (hc : Separator c) : Fit (s ++ c :: t) ↔ Fit s ∧ Fit t := by
  constructor
  · intro h
    obtain ⟨hs, ht⟩ := (soundText_append hc.hex hc.percent).1 h.sound
    have hbackslash := h.backslash
    rw [List.mem_append, List.mem_cons, not_or, not_or] at hbackslash
    exact ⟨⟨hs, fun d hd => h.control d (List.mem_append_left _ hd), hbackslash.1⟩,
      ⟨ht, fun d hd => h.control d (List.mem_append_right _ (List.mem_cons_of_mem _ hd)),
        hbackslash.2.2⟩⟩
  · rintro ⟨hs, ht⟩
    refine ⟨(soundText_append hc.hex hc.percent).2 ⟨hs.sound, ht.sound⟩, fun d hd => ?_, ?_⟩
    · rcases List.mem_append.1 hd with hd | hd
      · exact hs.control d hd
      · rcases List.mem_cons.1 hd with rfl | hd
        · exact hc.control
        · exact ht.control d hd
    · rw [List.mem_append, List.mem_cons, not_or, not_or]
      exact ⟨hs.backslash, fun heq => hc.backslash heq.symm, ht.backslash⟩

theorem fit_nil : Fit [] :=
  ⟨soundText_nil, fun _ hc => absurd hc List.not_mem_nil, List.not_mem_nil⟩

theorem fit_sameEscapes (h : SameEscapes s t) : Fit s ↔ Fit t := by
  have hone : ∀ {s t : Text}, SameEscapes s t → Fit s → Fit t := by
    intro s t h hs
    refine ⟨h.soundText.1 hs.sound, fun c hc => ?_, fun hmem => ?_⟩
    · by_contra hcontrol
      rw [Bool.not_eq_false] at hcontrol
      have hhex := isHex_of_isControl hcontrol
      have hpercent := (isAlwaysSafe_of_isControl hcontrol).2
      rw [← plain_mem_pieces hhex hpercent, ← h.plain_mem, plain_mem_pieces hhex hpercent] at hc
      rw [hs.control c hc] at hcontrol
      cases hcontrol
    · rw [← plain_mem_pieces isHex_backslash (by decide), ← h.plain_mem,
        plain_mem_pieces isHex_backslash (by decide)] at hmem
      exact hs.backslash hmem
  exact ⟨hone h, hone h.symm⟩

end Guards

section Paths

variable {s t : Text}

/-- The path has a segment of one or two dots. -/
def dotted (s : Text) : Bool :=
  (s.splitOn '/').any fun segment => segment = ['.'] || segment = ['.', '.']

/-- A path without the slashes at its end. -/
def trimmed (s : Text) : Text :=
  if s.rdropWhile (· = '/') = [] then ['/'] else s.rdropWhile (· = '/')

/-- The path of a text, in one step. -/
theorem pathOf_eq (s : Text) : pathOf s =
    if s.head? = some '/' ∧ unfit s = false ∧ dotted (normalText s) = false then
      some (trimmed (normalText s)) else none := by
  unfold pathOf
  rw [decodeUnreserved_eq]
  by_cases hhead : s.head? = some '/'
  · cases hunfit : unfit s with
    | true => simp
    | false =>
        rw [if_neg (by simp [hhead])]
        change (if dotted (normalText s) = true then none
          else if ¬ normalText s = ['/'] then some (trimmed (normalText s))
          else some (normalText s)) = _
        cases hdotted : dotted (normalText s) with
        | true => simp
        | false =>
            have hguards : s.head? = some '/' ∧ false = false ∧ false = false := ⟨hhead, rfl, rfl⟩
            rw [if_neg Bool.false_ne_true]
            by_cases hroot : normalText s = ['/']
            · rw [if_neg (not_not.2 hroot), if_pos hguards, hroot]
              rfl
            · rw [if_pos hroot, if_pos hguards]
  · rw [if_pos (.inl hhead), if_neg fun h => hhead h.1]

/-- A slash at the end changes no segment but adds an empty one. -/
theorem dotted_append_slash (s : Text) : dotted (s ++ ['/']) = dotted s := by
  rw [dotted, List.splitOn_append_cons_self, List.any_append, dotted]
  simp

theorem trimmed_append_slash (s : Text) : trimmed (s ++ ['/']) = trimmed s := by
  have hdrop : (s ++ ['/']).rdropWhile (· = '/') = s.rdropWhile (· = '/') := by
    rw [List.rdropWhile_concat_pos _ _ _ (by simp)]
  rw [trimmed, trimmed, hdrop]

theorem normalText_append_slash (s : Text) : normalText (s ++ ['/']) = normalText s ++ ['/'] :=
  normalText_append separator_slash.hex separator_slash.percent s []

theorem unfit_append_slash (s : Text) : unfit (s ++ ['/']) = unfit s := by
  rw [Bool.eq_iff_iff, unfit_eq_true_iff, unfit_eq_true_iff, fit_append separator_slash]
  simp [fit_nil]

/-- A slash at the end of a path does not matter. -/
theorem pathOf_append_slash (h : s ≠ []) : pathOf (s ++ ['/']) = pathOf s := by
  rw [pathOf_eq, pathOf_eq, normalText_append_slash, unfit_append_slash, dotted_append_slash,
    trimmed_append_slash, List.head?_append_of_ne_nil _ h]

/-- The letter case of the escapes of a path does not matter. -/
theorem pathOf_sameEscapes (h : SameEscapes s t) (hhead : s.head? = t.head?) :
    pathOf s = pathOf t := by
  have hfit : unfit s = unfit t := by
    rw [Bool.eq_iff_iff, unfit_eq_true_iff, unfit_eq_true_iff, fit_sameEscapes h]
  rw [pathOf_eq, pathOf_eq, hhead, hfit]
  cases hunfit : unfit t with
  | true => simp
  | false =>
      have hsound := (unfit_eq_false_iff.1 (hfit.trans hunfit)).sound
      rw [h.normalText hsound]

/-- What holds of a text with slashes at its end, and is kept when one is taken off,
holds without them. -/
theorem trimmed_induction {motive : Text → Prop} (slash : ∀ s, motive (s ++ ['/']) → motive s)
    (h : motive s) : motive (s.rdropWhile (· = '/')) := by
  induction s using List.reverseRecOn with
  | nil => exact h
  | append_singleton s c ih =>
      by_cases hc : c = '/'
      · subst hc
        rw [List.rdropWhile_concat_pos _ _ _ (by simp)]
        exact ih (slash s h)
      · rw [List.rdropWhile_concat_neg _ _ _ (by simpa using hc)]
        exact h

/-- A path that was rewritten stays as it is. -/
theorem pathOf_pathOf (h : pathOf s = some t) : pathOf t = some t := by
  rw [pathOf_eq] at h
  split at h
  next hguards =>
    obtain ⟨hhead, hunfit, hdotted⟩ := hguards
    rw [Option.some.injEq] at h
    have hfit := (unfit_eq_false_iff.1 hunfit).normalText
    have hnormal := normalText_normalText (unfit_eq_false_iff.1 hunfit).sound
    unfold trimmed at h
    split at h
    next =>
      subst h
      decide
    next hne =>
      have hkept : Fit t ∧ normalText t = t ∧ dotted t = false := by
        rw [← h]
        refine trimmed_induction (motive := fun s => Fit s ∧ normalText s = s ∧ dotted s = false)
          ?_ ⟨hfit, hnormal, hdotted⟩
        rintro s ⟨hfit, hnormal, hdotted⟩
        rw [normalText_append_slash] at hnormal
        rw [dotted_append_slash] at hdotted
        exact ⟨((fit_append separator_slash).1 hfit).1, List.append_cancel_right hnormal, hdotted⟩
      have hhead' : t.head? = some '/' := by
        obtain ⟨rest, hrest⟩ : ∃ rest, s = '/' :: rest := by
          cases s with
          | nil => cases hhead
          | cons c rest => exact ⟨rest, by rw [Option.some.inj hhead]⟩
        have hnormal' : normalText s = '/' :: normalText rest := by
          rw [hrest]
          exact normalText_append separator_slash.hex separator_slash.percent [] rest
        have hstart : t <+: normalText s := h ▸ List.rdropWhile_prefix _ _
        rw [h] at hne
        obtain ⟨c, cs, rfl⟩ := List.exists_cons_of_ne_nil hne
        rw [hnormal', List.cons_prefix_cons] at hstart
        rw [List.head?_cons, hstart.1]
      have htrim : trimmed t = t := by
        have hidempotent : t.rdropWhile (· = '/') = t := by
          rw [← h]
          exact List.rdropWhile_idempotent _ _
        rw [h] at hne
        rw [trimmed, hidempotent, if_neg hne]
      rw [pathOf_eq, hkept.2.1, if_pos ⟨hhead', unfit_eq_false_iff.2 hkept.1, hkept.2.2⟩, htrim]
  next => cases h

/-- What a path begins with, and that it holds no sign that would end it. -/
theorem pathOf_clean (h : pathOf s = some t) :
    t.head? = some '/' ∧ t.length ≤ s.length ∧ Fit t ∧
      ∀ c, isHex c = false → c ≠ '%' → isAlwaysSafe c = false → c ∉ s → c ∉ t := by
  have hself := pathOf_pathOf h
  rw [pathOf_eq] at hself
  split at hself
  next hguards =>
    rw [pathOf_eq] at h
    split at h
    next hguards' =>
      have hfit := unfit_eq_false_iff.1 hguards'.2.1
      have hstart : t = ['/'] ∨ t <+: normalText s := by
        rw [← Option.some.inj h, trimmed]
        split
        · exact .inl rfl
        · exact .inr (List.rdropWhile_prefix _ _)
      have hslash : '/' ∈ s := by
        cases s with
        | nil => cases hguards'.1
        | cons c rest =>
            rw [Option.some.inj hguards'.1]
            exact List.mem_cons_self
      refine ⟨hguards.1, ?_, unfit_eq_false_iff.1 hguards.2.1, ?_⟩
      · rcases hstart with rfl | hstart
        · exact List.length_pos_of_mem hslash
        · exact hstart.length_le.trans (length_normalText_le s)
      · intro c hhex hpercent hsafe hc
        rcases hstart with rfl | hstart
        · rw [List.mem_singleton]
          rintro rfl
          exact hc hslash
        · intro hmem
          exact hc ((mem_normalText hhex hpercent hsafe hfit.sound).1 (hstart.subset hmem))
    next => cases h
  next => cases hself

end Paths

section Items

variable (lib : PageLibrary)

/-- The key of a component. -/
def keyOf (component : Text) : Text := (partition '=' component).1

/-- The item of a component. -/
def itemOf (component : Text) : Item :=
  (normalText (keyOf component), normalText (partition '=' component).2,
    decide ('=' ∈ component))

/-- The component belongs to tracking. -/
def tracked (component : Text) : Bool :=
  (unquoteStrict lib.decode (keyOf component)).any (isTracking lib)

/-- A component that the guards let pass, with a key that has a text. -/
structure GoodItem (component : Text) : Prop where
  fit : Fit component
  decodes : unquoteStrict lib.decode (keyOf component) ≠ none

variable {lib} {s t : Text} {items other : List Text}

theorem queryItem_eq (component : Text) : queryItem lib component =
    if unquoteStrict lib.decode (keyOf component) = none then none
    else some (if tracked lib component then none else some (itemOf component)) := by
  have hitem : (decodeUnreserved (partition '=' component).1,
      decodeUnreserved (partition '=' component).2, decide ('=' ∈ component)) =
        itemOf component := by
    rw [decodeUnreserved_eq, decodeUnreserved_eq]
    rfl
  unfold queryItem tracked
  dsimp only
  rw [show (partition '=' component).1 = keyOf component from rfl] at hitem ⊢
  cases hdecoded : unquoteStrict lib.decode (keyOf component) with
  | none => rfl
  | some decoded =>
      rw [if_neg (by simp), Option.any_some, hitem]
      dsimp only
      cases isTracking lib decoded <;> rfl

theorem mapM_queryItem (items : List Text) : items.mapM (queryItem lib) =
    if ∀ c ∈ items, unquoteStrict lib.decode (keyOf c) ≠ none then
      some (items.map fun c => if tracked lib c then none else some (itemOf c)) else none := by
  induction items with
  | nil => rfl
  | cons c rest ih =>
      rw [List.mapM_cons, ih, queryItem_eq]
      by_cases hc : unquoteStrict lib.decode (keyOf c) = none
      · have hnot : ¬ ∀ d ∈ c :: rest, unquoteStrict lib.decode (keyOf d) ≠ none :=
          fun h => h c List.mem_cons_self hc
        rw [if_pos hc, if_neg hnot]
        rfl
      · rw [if_neg hc]
        by_cases hrest : ∀ d ∈ rest, unquoteStrict lib.decode (keyOf d) ≠ none
        · have hall : ∀ d ∈ c :: rest, unquoteStrict lib.decode (keyOf d) ≠ none :=
            List.forall_mem_cons.2 ⟨hc, hrest⟩
          rw [if_pos hrest, if_pos hall]
          rfl
        · have hnot : ¬ ∀ d ∈ c :: rest, unquoteStrict lib.decode (keyOf d) ≠ none :=
            fun h => hrest (List.forall_mem_cons.1 h).2
          rw [if_neg hrest, if_neg hnot]
          rfl

theorem reduceOption_tracked (items : List Text) :
    (items.map fun c => if tracked lib c then none else some (itemOf c)).reduceOption =
      (items.filter fun c => ! tracked lib c).map itemOf := by
  induction items with
  | nil => rfl
  | cons c rest ih =>
      rw [List.map_cons, List.filter_cons]
      cases htracked : tracked lib c with
      | true => 
          rw [if_pos rfl, List.reduceOption_cons_of_none, ih]
          rfl
      | false =>
          rw [if_neg Bool.false_ne_true, List.reduceOption_cons_of_some, ih]
          rfl

theorem fit_intercalate : Fit (['&'].intercalate items) ↔ ∀ c ∈ items, Fit c := by
  induction items with
  | nil =>
      simp only [List.not_mem_nil, false_imp_iff, implies_true, iff_true]
      exact fit_nil
  | cons c rest ih =>
      rw [List.forall_mem_cons, ← ih]
      cases rest with
      | nil =>
          rw [List.intercalate_singleton]
          exact (and_iff_left fit_nil).symm
      | cons d rest =>
          rw [List.intercalate_cons_cons, List.append_assoc, List.singleton_append]
          exact fit_append separator_and

/-- A query of good components, in one step. -/
theorem queryOf_intercalate (hitems : ∀ c ∈ items, '&' ∉ c) (hgood : ∀ c ∈ items, GoodItem lib c) :
    queryOf lib (['&'].intercalate items) =
      some (['&'].intercalate ((sortedBy itemKey
        ((items.filter fun c => ! tracked lib c).map itemOf)).map itemText)) := by
  have hfit : unfit (['&'].intercalate items) = false :=
    unfit_eq_false_iff.2 (fit_intercalate.2 fun c hc => (hgood c hc).fit)
  unfold queryOf
  rw [hfit, if_neg Bool.false_ne_true]
  split
  next hempty =>
    match items with
    | [] => rfl
    | [c] =>
        rw [List.intercalate_singleton] at hempty
        subst hempty
        rw [List.filter_cons]
        cases tracked lib [] with
        | true => rfl
        | false => rfl
    | c :: d :: rest =>
        rw [List.intercalate_cons_cons] at hempty
        simp at hempty
  next hne =>
    have hitemsNe : items ≠ [] := by
      rintro rfl
      exact hne rfl
    have hall : ∀ c ∈ items, unquoteStrict lib.decode (keyOf c) ≠ none :=
      fun c hc => (hgood c hc).decodes
    rw [List.splitOn_intercalate '&' hitems hitemsNe, mapM_queryItem, if_pos hall,
      Option.map_some, reduceOption_tracked]

/-- The components of a query that is accepted are good. -/
theorem goodItem_of_queryOf (hitems : ∀ c ∈ items, '&' ∉ c) {query : Text}
    (h : queryOf lib (['&'].intercalate items) = some query) : ∀ c ∈ items, GoodItem lib c := by
  unfold queryOf at h
  split at h
  next => cases h
  next hunfit =>
    rw [Bool.not_eq_true] at hunfit
    have hfit := fit_intercalate.1 (unfit_eq_false_iff.1 hunfit)
    split at h
    next hempty =>
      intro c hc
      obtain rfl : c = [] := by
        match items with
        | [] => cases hc
        | [d] =>
            rw [List.intercalate_singleton] at hempty
            rw [List.mem_singleton.1 hc, hempty]
        | d :: e :: rest =>
            rw [List.intercalate_cons_cons] at hempty
            simp at hempty
      exact ⟨fit_nil, by simp [keyOf, partition, unquoteStrict]⟩
    next hne =>
      have hitemsNe : items ≠ [] := by
        rintro rfl
        exact hne rfl
      rw [List.splitOn_intercalate '&' hitems hitemsNe, mapM_queryItem] at h
      by_cases hall : ∀ c ∈ items, unquoteStrict lib.decode (keyOf c) ≠ none
      · exact fun c hc => ⟨hfit c hc, hall c hc⟩
      · rw [if_neg hall] at h
        cases h

end Items

section Rewriting

variable {lib : PageLibrary} {s t : Text} {items other : List Text}

/-- A text with a separator is what stands before it, the separator and what stands behind. -/
theorem partition_of_mem {sep : Char} (h : sep ∈ s) :
    s = (partition sep s).1 ++ sep :: (partition sep s).2 ∧ sep ∉ (partition sep s).1 := by
  have hsplit := List.takeWhile_append_dropWhile (p := (· ≠ sep)) (l := s)
  have hnot : sep ∉ s.takeWhile (· ≠ sep) := by
    intro hmem
    have := List.mem_takeWhile_imp hmem
    simp at this
  refine ⟨?_, hnot⟩
  cases hdrop : s.dropWhile (· ≠ sep) with
  | nil =>
      rw [hdrop, List.append_nil] at hsplit
      rw [hsplit] at hnot
      exact absurd h hnot
  | cons c rest =>
      have hne : s.dropWhile (· ≠ sep) ≠ [] := by
        rw [hdrop]
        exact List.cons_ne_nil _ _
      have hhead := List.head_dropWhile_not _ hne
      simp only [hdrop, List.head_cons] at hhead
      have hc : c = sep := by simpa using hhead
      rw [hdrop, hc] at hsplit
      rw [partition]
      dsimp only
      rw [hdrop]
      exact hsplit.symm

/-- A text with an equals sign is its key, the sign and its value. -/
theorem partition_equals (h : '=' ∈ s) :
    s = keyOf s ++ '=' :: (partition '=' s).2 ∧ '=' ∉ keyOf s := partition_of_mem h

theorem ne_of_notMem {sep : Char} (h : sep ∉ s) : ∀ c ∈ s, (c ≠ sep : Bool) = true := by
  intro c hc
  refine decide_eq_true ?_
  rintro rfl
  exact h hc

theorem partition_of_notMem {sep : Char} (h : sep ∉ s) : partition sep s = (s, []) := by
  rw [partition, List.takeWhile_eq_self_iff.2 (ne_of_notMem h),
    List.dropWhile_eq_nil_iff.2 (ne_of_notMem h)]
  rfl

theorem partition_append_cons {sep : Char} (h : sep ∉ s) :
    partition sep (s ++ sep :: t) = (s, t) := by
  rw [partition, List.takeWhile_append_of_pos (ne_of_notMem h),
    List.takeWhile_cons_of_neg (by simp), List.append_nil,
    List.dropWhile_append_of_pos (ne_of_notMem h), List.dropWhile_cons_of_neg (by simp)]
  rfl

theorem parts_of_notMem (h : '=' ∉ s) : keyOf s = s ∧ (partition '=' s).2 = [] := by
  rw [keyOf, partition_of_notMem h]
  exact ⟨rfl, rfl⟩

theorem parts_append (h : '=' ∉ s) :
    keyOf (s ++ '=' :: t) = s ∧ (partition '=' (s ++ '=' :: t)).2 = t := by
  rw [keyOf, partition_append_cons h]
  exact ⟨rfl, rfl⟩

/-- The parts of a fit component are fit. -/
theorem fit_parts (h : Fit s) : Fit (keyOf s) ∧ Fit (partition '=' s).2 := by
  by_cases hmem : '=' ∈ s
  · obtain ⟨hsplit, -⟩ := partition_equals hmem
    rw [hsplit] at h
    have hparts := (fit_append separator_equals).1 h
    exact hparts
  · obtain ⟨hkey, hvalue⟩ := parts_of_notMem hmem
    rw [hkey, hvalue]
    exact ⟨h, fit_nil⟩

theorem keyOf_subset {c : Char} (h : c ∈ keyOf s) : c ∈ s := partition_fst_subset h

/-- The text of an item is a component with this item. -/
theorem itemOf_itemText (h : Fit s) : Fit (itemText (itemOf s)) ∧
    itemOf (itemText (itemOf s)) = itemOf s ∧
    keyOf (itemText (itemOf s)) = normalText (keyOf s) := by
  obtain ⟨hkey, hvalue⟩ := fit_parts h
  have hnot : '=' ∉ keyOf s → '=' ∉ normalText (keyOf s) := by
    intro hnot
    rwa [mem_normalText separator_equals.hex separator_equals.percent separator_equals.safe
      hkey.sound]
  by_cases hmem : '=' ∈ s
  · have hnot' := hnot (partition_equals hmem).2
    have htext : itemText (itemOf s) =
        normalText (keyOf s) ++ '=' :: normalText (partition '=' s).2 := by
      rw [itemText, itemOf, decide_eq_true hmem]
      rfl
    obtain ⟨hkey', hvalue'⟩ := parts_append (t := normalText (partition '=' s).2) hnot'
    rw [htext]
    refine ⟨(fit_append separator_equals).2 ⟨hkey.normalText, hvalue.normalText⟩, ?_, hkey'⟩
    rw [itemOf, hkey', hvalue', normalText_normalText hkey.sound,
      normalText_normalText hvalue.sound, itemOf, decide_eq_true hmem, decide_eq_true (by simp)]
  · obtain ⟨hself, hempty⟩ := parts_of_notMem hmem
    have hnot' := hnot (by rwa [hself])
    have htext : itemText (itemOf s) = normalText (keyOf s) := by
      rw [itemText, itemOf, decide_eq_false hmem]
      rfl
    obtain ⟨hself', hempty'⟩ := parts_of_notMem hnot'
    rw [htext]
    refine ⟨hkey.normalText, ?_, hself'⟩
    rw [itemOf, hself', hempty', itemOf, hempty, normalText_normalText hkey.sound,
      decide_eq_false hmem, decide_eq_false hnot']

theorem notMem_itemText {c : Char} (hc : isHex c = false) (hpercent : c ≠ '%')
    (hsafe : isAlwaysSafe c = false) (hequals : c ≠ '=') (h : Fit s) (hmem : c ∉ s) :
    c ∉ itemText (itemOf s) := by
  obtain ⟨hkey, hvalue⟩ := fit_parts h
  have hkey' : c ∉ normalText (keyOf s) := by
    rw [mem_normalText hc hpercent hsafe hkey.sound]
    exact fun h => hmem (keyOf_subset h)
  have hvalue' : c ∉ normalText (partition '=' s).2 := by
    rw [mem_normalText hc hpercent hsafe hvalue.sound]
    exact fun h => hmem (partition_snd_subset h)
  rw [itemText, itemOf]
  dsimp only
  split
  · rw [List.mem_append, List.mem_cons, not_or, not_or]
    exact ⟨hkey', hequals, hvalue'⟩
  · exact hkey'

/-- A piece of a text that is split has no separator, and its characters are of the text. -/
theorem of_mem_splitOn {a : Char} (h : t ∈ s.splitOn a) : a ∉ t ∧ t ⊆ s := by
  induction s generalizing t with
  | nil =>
      rw [List.splitOn_nil, List.mem_singleton] at h
      rw [h]
      exact ⟨List.not_mem_nil, List.Subset.refl _⟩
  | cons c rest ih =>
      rw [List.splitOn_cons_eq_if_modifyHead] at h
      split at h
      next =>
        rcases List.mem_cons.1 h with rfl | h
        · exact ⟨List.not_mem_nil, List.nil_subset _⟩
        · exact ⟨(ih h).1, List.subset_cons_of_subset c (ih h).2⟩
      next hne =>
        obtain ⟨first, others, hcons⟩ := List.exists_cons_of_ne_nil (List.splitOn_ne_nil a rest)
        rw [hcons, List.modifyHead_cons] at h
        rcases List.mem_cons.1 h with rfl | h
        · obtain ⟨hnot, hsubset⟩ := ih (t := first) (hcons ▸ List.mem_cons_self)
          rw [List.mem_cons, not_or]
          exact ⟨⟨fun heq => hne (by simp [heq]), hnot⟩, List.cons_subset_cons c hsubset⟩
        · obtain ⟨hnot, hsubset⟩ := ih (t := t) (hcons ▸ List.mem_cons_of_mem _ h)
          exact ⟨hnot, List.subset_cons_of_subset c hsubset⟩

theorem itemKey_injective {a b : Item} (h : itemKey a = itemKey b) : a = b := by
  have hpair : (a.1, toLex (a.2.1, a.2.2)) = (b.1, toLex (b.2.1, b.2.2)) := toLex.injective h
  obtain ⟨hfirst, hrest⟩ := Prod.mk.inj hpair
  obtain ⟨hsecond, hthird⟩ := Prod.mk.inj (toLex.injective hrest)
  exact Prod.ext hfirst (Prod.ext hsecond hthird)

/-- The items of a query are sorted in one way. -/
theorem sortedBy_itemKey_eq {items other : List Item} (h : items.Perm other) :
    sortedBy itemKey items = sortedBy itemKey other := by
  refine ((sortedBy_perm itemKey items).trans (h.trans (sortedBy_perm itemKey other).symm)).eq_of_pairwise
    ?_ (pairwise_sortedBy itemKey items) (pairwise_sortedBy itemKey other)
  exact fun a b _ _ hab hba => itemKey_injective (le_antisymm hab hba)

/-- A query that was rewritten stays as it is. -/
theorem queryOf_queryOf (h : queryOf lib s = some t) : queryOf lib t = some t := by
  have hsplit : ∀ c ∈ s.splitOn '&', '&' ∉ c := fun c hc => (of_mem_splitOn hc).1
  have hjoin : ['&'].intercalate (s.splitOn '&') = s := List.intercalate_splitOn '&'
  rw [← hjoin] at h
  have hgood := goodItem_of_queryOf hsplit h
  rw [queryOf_intercalate hsplit hgood, Option.some.injEq] at h
  generalize hretained : ((s.splitOn '&').filter fun c => ! tracked lib c).map itemOf = retained at h
  have hitem : ∀ item ∈ sortedBy itemKey retained, ∃ c ∈ s.splitOn '&',
      tracked lib c = false ∧ itemOf c = item := by
    intro item hitem
    rw [mem_sortedBy, ← hretained] at hitem
    obtain ⟨c, hc, rfl⟩ := List.mem_map.1 hitem
    obtain ⟨hmem, htracked⟩ := List.mem_filter.1 hc
    exact ⟨c, hmem, by simpa using htracked, rfl⟩
  have hunquote : ∀ c ∈ s.splitOn '&', unquoteStrict lib.decode (keyOf (itemText (itemOf c))) =
      unquoteStrict lib.decode (keyOf c) := by
    intro c hc
    rw [(itemOf_itemText (hgood c hc).fit).2.2]
    exact unquoteStrict_normalText lib.decode_ascii (fit_parts (hgood c hc).fit).1.sound
  have htexts : ∀ text ∈ (sortedBy itemKey retained).map itemText, '&' ∉ text ∧
      GoodItem lib text ∧ tracked lib text = false ∧ itemText (itemOf text) = text := by
    intro text htext
    obtain ⟨item, hmem, rfl⟩ := List.mem_map.1 htext
    obtain ⟨c, hc, htracked, rfl⟩ := hitem item hmem
    obtain ⟨hfit, hitem, -⟩ := itemOf_itemText (hgood c hc).fit
    refine ⟨notMem_itemText separator_and.hex separator_and.percent separator_and.safe (by decide)
      (hgood c hc).fit (hsplit c hc), ⟨hfit, ?_⟩, ?_, by rw [hitem]⟩
    · rw [hunquote c hc]
      exact (hgood c hc).decodes
    · rw [tracked, hunquote c hc]
      exact htracked
  have hfilter : (((sortedBy itemKey retained).map itemText).filter fun c => ! tracked lib c) =
      (sortedBy itemKey retained).map itemText :=
    List.filter_eq_self.2 fun text htext => by simp [(htexts text htext).2.2.1]
  have hback : ((sortedBy itemKey retained).map itemText).map itemOf =
      sortedBy itemKey retained := by
    rw [List.map_map]
    refine (List.map_congr_left fun item hmem => ?_).trans (List.map_id _)
    obtain ⟨c, hc, -, rfl⟩ := hitem item hmem
    exact (itemOf_itemText (hgood c hc).fit).2.1
  rw [← h, queryOf_intercalate (fun c hc => (htexts c hc).1) fun c hc => (htexts c hc).2.1,
    hfilter, hback]
  congr 3
  exact (pairwise_sortedBy itemKey retained).insertionSort_eq

end Rewriting

end SearchTrust.CrossSource
