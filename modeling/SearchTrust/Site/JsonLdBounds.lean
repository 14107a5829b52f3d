/-
The scan of a block bounds what the decoder does with it: the decoder never gets further
than a prefix that the scan has counted.
-/
import Mathlib.Data.List.Monad
import SearchTrust.Site.JsonLd
import SearchTrust.Text.JsonLexemes

namespace SearchTrust.Site

open SearchTrust.Text.JsonText
open SearchTrust.Web (isSpace)

variable {limits : SiteBusinessLimits} {final st : ScanState}

section Scanning

/-- The scan gets through a text to a final state. -/
def Passes (limits : SiteBusinessLimits) (final st : ScanState) (s : List Char) : Prop :=
  scan limits st s = some final

/-- The scan stands outside of strings, with so many containers open. -/
structure Outside (st : ScanState) (depth : ℕ) : Prop where
  string : st.string = false
  escape : st.escape = false
  depth : st.depth = depth

theorem passes_cons {c : Char} {s : List Char} (h : Passes limits final st (c :: s)) :
    ∃ st', scanChar limits st c = some st' ∧ Passes limits final st' s := by
  unfold Passes scan at h
  rw [List.foldlM_cons] at h
  cases hstep : scanChar limits st c with
  | none =>
      rw [hstep] at h
      cases h
  | some st' =>
      rw [hstep] at h
      exact ⟨st', rfl, h⟩

theorem checkedNodes_eq_some {st' : ScanState} (h : checkedNodes limits st = some st') :
    st' = st ∧ st.counter ≤ limits.maxJsonNodesPerPage := by
  unfold checkedNodes at h
  split at h
  next hle => exact ⟨(Option.some.inj h).symm, hle⟩
  next => cases h

/-- A step counts up, and what it counts is checked. -/
theorem scanChar_counter {c : Char} {st' : ScanState} (h : scanChar limits st c = some st') :
    st.counter ≤ st'.counter ∧
      (st'.counter = st.counter ∨ st'.counter ≤ limits.maxJsonNodesPerPage) := by
  have hchecked : ∀ {next : ScanState}, checkedNodes limits next = some st' →
      st.counter ≤ next.counter → st.counter ≤ st'.counter ∧
        (st'.counter = st.counter ∨ st'.counter ≤ limits.maxJsonNodesPerPage) := by
    intro next hnext hle
    obtain ⟨rfl, hmax⟩ := checkedNodes_eq_some hnext
    exact ⟨hle, .inr hmax⟩
  have hsame : ∀ {next : ScanState}, some next = some st' → next.counter = st.counter →
      st.counter ≤ st'.counter ∧
        (st'.counter = st.counter ∨ st'.counter ≤ limits.maxJsonNodesPerPage) := by
    intro next hnext heq
    obtain rfl := Option.some.inj hnext
    exact ⟨heq.ge, .inl heq⟩
  unfold scanChar at h
  split at h
  next =>
    split at h
    next => exact hsame h rfl
    next =>
      split at h
      next => exact hsame h rfl
      next =>
        split at h
        next => exact hsame h rfl
        next => exact hsame h rfl
  next =>
    split at h
    next => exact hchecked h le_rfl
    next =>
      split at h
      next =>
        split at h
        next => exact hchecked h (Nat.le_succ _)
        next => cases h
      next =>
        split at h
        next => exact hchecked h le_rfl
        next =>
          split at h
          next => exact hchecked h (Nat.le_succ _)
          next =>
            split at h
            next => exact hchecked h (Nat.le_succ _)
            next => exact hchecked h le_rfl

theorem passes_counter {s : List Char} (h : Passes limits final st s) :
    st.counter ≤ final.counter ∧
      (final.counter = st.counter ∨ final.counter ≤ limits.maxJsonNodesPerPage) := by
  induction s generalizing st with
  | nil =>
      obtain rfl : st = final := Option.some.inj h
      exact ⟨le_rfl, .inl rfl⟩
  | cons c rest ih =>
      obtain ⟨st', hstep, hrest⟩ := passes_cons h
      obtain ⟨hle, hor⟩ := scanChar_counter hstep
      obtain ⟨hle', hor'⟩ := ih hrest
      refine ⟨hle.trans hle', ?_⟩
      rcases hor' with heq | hmax
      · rw [heq]
        exact hor
      · exact .inr hmax

/-- A character that belongs to a scalar. -/
structure IsToken (c : Char) : Prop where
  space : isSpace c = false
  signs : c ∉ [',', ':', '[', '{', ']', '}', '"']

theorem scanChar_separator {c : Char} {depth : ℕ} (h : Outside st depth)
    (hc : isSpace c = true ∨ c = ',' ∨ c = ':') {st' : ScanState}
    (hstep : scanChar limits st c = some st') :
    Outside st' depth ∧ st'.token = false ∧ st'.counter = st.counter := by
  unfold scanChar at hstep
  rw [h.string, if_neg Bool.false_ne_true, if_pos hc] at hstep
  obtain ⟨rfl, -⟩ := checkedNodes_eq_some hstep
  exact ⟨⟨rfl, h.escape, h.depth⟩, rfl, rfl⟩

theorem scanChar_open {c : Char} {depth : ℕ} (h : Outside st depth) (hc : c = '[' ∨ c = '{')
    {st' : ScanState} (hstep : scanChar limits st c = some st') :
    Outside st' (depth + 1) ∧ st'.token = false ∧ st'.counter = st.counter + 1 ∧
      depth + 1 ≤ limits.maxJsonDepth := by
  have hseparator : ¬ (isSpace c = true ∨ c = ',' ∨ c = ':') := by
    rcases hc with rfl | rfl <;> decide
  unfold scanChar at hstep
  rw [h.string, if_neg Bool.false_ne_true, if_neg hseparator, if_pos hc] at hstep
  split at hstep
  next hdepth =>
    obtain ⟨rfl, -⟩ := checkedNodes_eq_some hstep
    rw [h.depth] at hdepth
    refine ⟨⟨rfl, h.escape, ?_⟩, rfl, rfl, by omega⟩
    rw [h.depth]
    rfl
  next => cases hstep

theorem scanChar_close {c : Char} {depth : ℕ} (h : Outside st (depth + 1)) (hc : c = ']' ∨ c = '}')
    {st' : ScanState} (hstep : scanChar limits st c = some st') :
    Outside st' depth ∧ st'.counter = st.counter := by
  have hseparator : ¬ (isSpace c = true ∨ c = ',' ∨ c = ':') := by
    rcases hc with rfl | rfl <;> decide
  have hopen : ¬ (c = '[' ∨ c = '{') := by
    rcases hc with rfl | rfl <;> decide
  unfold scanChar at hstep
  rw [h.string, if_neg Bool.false_ne_true, if_neg hseparator, if_neg hopen, if_pos hc] at hstep
  obtain ⟨rfl, -⟩ := checkedNodes_eq_some hstep
  refine ⟨⟨rfl, h.escape, ?_⟩, rfl⟩
  have hdepth := h.depth
  push_cast at hdepth
  change st.depth - 1 = depth
  omega

theorem scanChar_quote {depth : ℕ} (h : Outside st depth) {st' : ScanState}
    (hstep : scanChar limits st '"' = some st') :
    st' = { st with string := true, counter := st.counter + 1, token := false } := by
  unfold scanChar at hstep
  rw [h.string, if_neg Bool.false_ne_true, if_neg (by decide), if_neg (by decide),
    if_neg (by decide), if_pos rfl] at hstep
  exact (checkedNodes_eq_some hstep).1

theorem scanChar_token {c : Char} {depth : ℕ} (h : Outside st depth) (hc : IsToken c)
    {st' : ScanState} (hstep : scanChar limits st c = some st') :
    Outside st' depth ∧ st'.token = true ∧
      st'.counter = st.counter + (if st.token = true then 0 else 1) := by
  have hsigns := hc.signs
  simp only [List.mem_cons, List.not_mem_nil, or_false, not_or] at hsigns
  obtain ⟨hcomma, hcolon, hopen, hbrace, hclose, hbrace', hquote⟩ := hsigns
  have hseparator : ¬ (isSpace c = true ∨ c = ',' ∨ c = ':') := by
    rintro (hspace | hor)
    · rw [hc.space] at hspace
      cases hspace
    · exact hor.elim hcomma hcolon
  unfold scanChar at hstep
  rw [h.string, if_neg Bool.false_ne_true, if_neg hseparator, if_neg (not_or.2 ⟨hopen, hbrace⟩), if_neg (not_or.2 ⟨hclose, hbrace'⟩), if_neg hquote] at hstep
  cases htoken : st.token with
  | true =>
      rw [htoken, if_neg (by decide)] at hstep
      obtain ⟨rfl, -⟩ := checkedNodes_eq_some hstep
      exact ⟨h, htoken, rfl⟩
  | false =>
      rw [htoken, if_pos (by decide)] at hstep
      obtain ⟨rfl, -⟩ := checkedNodes_eq_some hstep
      exact ⟨⟨rfl, h.escape, h.depth⟩, rfl, rfl⟩

theorem isSpace_of_isJsonSpace {c : Char} (h : isJsonSpace c = true) : isSpace c = true := by
  have hcases : c = ' ' ∨ c = '\t' ∨ c = '\n' ∨ c = '\r' := by
    simpa [isJsonSpace, or_assoc] using h
  rcases hcases with rfl | rfl | rfl | rfl <;> decide

/-- Blanks are passed without a change but of the flag of a token. -/
theorem passes_skipBlank {depth : ℕ} {s : List Char} (h : Outside st depth)
    (hs : Passes limits final st s) : ∃ st', Outside st' depth ∧ st'.counter = st.counter ∧
      (st.token = false → st'.token = false) ∧ Passes limits final st' (skipBlank s) := by
  induction s generalizing st with
  | nil => exact ⟨st, h, rfl, fun h => h, hs⟩
  | cons c rest ih =>
      unfold skipBlank
      rw [List.dropWhile_cons]
      split
      next hblank =>
        obtain ⟨st', hstep, hrest⟩ := passes_cons hs
        obtain ⟨houtside, htoken, hcounter⟩ :=
          scanChar_separator h (.inl (isSpace_of_isJsonSpace hblank)) hstep
        obtain ⟨st'', houtside', hcounter', htoken', hpass⟩ := ih houtside hrest
        exact ⟨st'', houtside', hcounter'.trans hcounter, fun _ => htoken' htoken, hpass⟩
      next => exact ⟨st, h, rfl, fun h => h, hs⟩

/-- A comma or a colon, with the blanks behind it. -/
theorem passes_comma {depth : ℕ} {c : Char} {s : List Char} (h : Outside st depth)
    (hc : c = ',' ∨ c = ':') (hs : Passes limits final st (c :: s)) : ∃ st', Outside st' depth ∧
      st'.token = false ∧ st'.counter = st.counter ∧ Passes limits final st' (skipBlank s) := by
  obtain ⟨st', hstep, hpass⟩ := passes_cons hs
  obtain ⟨houtside, htoken, hcounter⟩ := scanChar_separator h (.inr hc) hstep
  obtain ⟨st'', houtside', hcounter', htoken', hpass'⟩ := passes_skipBlank houtside hpass
  exact ⟨st'', houtside', htoken' htoken, hcounter'.trans hcounter, hpass'⟩

/-- Behind a token, the scan has counted one node. -/
theorem passes_token {depth : ℕ} {token rest : List Char} (h : Outside st depth)
    (htoken : ∀ c ∈ token, IsToken c) (hs : Passes limits final st (token ++ rest)) :
    ∃ st', Outside st' depth ∧ Passes limits final st' rest ∧
      st'.counter = st.counter + (if st.token = true ∨ token = [] then 0 else 1) := by
  induction token generalizing st with
  | nil => exact ⟨st, h, hs, by simp⟩
  | cons c token ih =>
      rw [List.forall_mem_cons] at htoken
      obtain ⟨st', hstep, hrest⟩ := passes_cons hs
      obtain ⟨houtside, hflag, hcounter⟩ := scanChar_token h htoken.1 hstep
      obtain ⟨st'', houtside', hpass, hcounter'⟩ := ih houtside htoken.2 hrest
      rw [if_pos (.inl hflag)] at hcounter'
      refine ⟨st'', houtside', hpass, ?_⟩
      rw [hcounter', hcounter]
      simp

set_option maxRecDepth 20000 in
theorem isToken_of_isScalarChar {c : Char} (h : isScalarChar c = true) : IsToken c := by
  have hlt : c.toNat < 128 := by
    delta isScalarChar Char.isAlphanum Char.isAlpha Char.isUpper Char.isLower Char.isDigit at h
    simp only [Bool.or_eq_true, Bool.and_eq_true, decide_eq_true_eq] at h
    rcases h with ((((h | h) | h) | h) | h) | h
    · exact lt_of_le_of_lt (UInt32.le_iff_toNat_le.1 h.2) (by decide)
    · exact lt_of_le_of_lt (UInt32.le_iff_toNat_le.1 h.2) (by decide)
    · exact lt_of_le_of_lt (UInt32.le_iff_toNat_le.1 h.2) (by decide)
    · rw [h]
      decide
    · rw [h]
      decide
    · rw [h]
      decide
  have hall : ∀ n ∈ List.range 128, isScalarChar (Char.ofNat n) = true →
      isSpace (Char.ofNat n) = false ∧
        Char.ofNat n ∉ [',', ':', '[', '{', ']', '}', '"'] := by decide
  have hrange := hall c.toNat (List.mem_range.2 hlt)
  rw [Char.ofNat_toNat] at hrange
  exact ⟨(hrange h).1, (hrange h).2⟩

/-- The digits of a code unit are no signs of a string. -/
theorem hexDigits_of_codeUnit {a b c d : Char} {unit : ℕ} (h : codeUnit a b c d = some unit) :
    (a ≠ '\\' ∧ a ≠ '"') ∧ (b ≠ '\\' ∧ b ≠ '"') ∧ (c ≠ '\\' ∧ c ≠ '"') ∧ d ≠ '\\' ∧ d ≠ '"' := by
  have hsign : ∀ {c : Char}, hexDigit c ≠ none → c ≠ '\\' ∧ c ≠ '"' := by
    rintro c hc
    constructor
    · rintro rfl
      exact hc rfl
    · rintro rfl
      exact hc rfl
  unfold codeUnit at h
  obtain ⟨_, ha, h⟩ := Option.bind_eq_some_iff.1 h
  obtain ⟨_, hb, h⟩ := Option.bind_eq_some_iff.1 h
  obtain ⟨_, hc, h⟩ := Option.bind_eq_some_iff.1 h
  obtain ⟨_, hd, -⟩ := Option.bind_eq_some_iff.1 h
  refine ⟨hsign ?_, hsign ?_, hsign ?_, hsign ?_⟩
  · rw [ha]; exact Option.some_ne_none _
  · rw [hb]; exact Option.some_ne_none _
  · rw [hc]; exact Option.some_ne_none _
  · rw [hd]; exact Option.some_ne_none _

/-- Inside a string, the scan gets to the quote that closes it. -/
theorem passes_string {units : List ℕ} {body rest : List Char} {st : ScanState}
    (hbody : WritesUnits units body) (hstring : st.string = true) (hescape : st.escape = false)
    (hs : Passes limits final st (body ++ '"' :: rest)) :
    Passes limits final { st with string := false } rest := by
  have hbackslash : ∀ {c : Char} {s : List Char}, Passes limits final st ('\\' :: c :: s) →
      Passes limits final st s := by
    intro c s hpass
    obtain ⟨st', hstep, hpass⟩ := passes_cons hpass
    rw [scanChar, if_pos hstring, hescape, if_neg Bool.false_ne_true, if_pos rfl] at hstep
    obtain rfl := Option.some.inj hstep
    obtain ⟨st'', hstep, hpass⟩ := passes_cons hpass
    rw [scanChar, if_pos hstring, if_pos rfl] at hstep
    obtain rfl := Option.some.inj hstep
    rw [← hescape] at hpass
    exact hpass
  have hplain : ∀ {c : Char} {s : List Char}, c ≠ '\\' → c ≠ '"' → Passes limits final st (c :: s) →
      Passes limits final st s := by
    intro c s hslash hquote hpass
    obtain ⟨st', hstep, hpass⟩ := passes_cons hpass
    rw [scanChar, if_pos hstring, hescape, if_neg Bool.false_ne_true, if_neg hslash,
      if_neg hquote] at hstep
    obtain rfl := Option.some.inj hstep
    exact hpass
  induction hbody with
  | nil =>
      obtain ⟨st', hstep, hpass⟩ := passes_cons hs
      rw [scanChar, if_pos hstring, if_neg (by rw [hescape]; exact Bool.false_ne_true),
        if_neg (by decide), if_pos rfl] at hstep
      obtain rfl := Option.some.inj hstep
      exact hpass
  | plain c _ hquote hslash _ ih => exact ih (hplain hslash hquote hs)
  | escaped c _ _ ih => exact ih (hbackslash hs)
  | unicode a b c d hunit _ ih =>
      obtain ⟨ha, hb, hc, hd⟩ := hexDigits_of_codeUnit hunit
      have hrest := hplain ha.1 ha.2 (hbackslash hs)
      have hrest := hplain hb.1 hb.2 hrest
      have hrest := hplain hc.1 hc.2 hrest
      exact ih (hplain hd.1 hd.2 hrest)

end Scanning

section Runs

variable {ε α β : Type} {depth : ℕ}

/-- A run of the decoder whose nodes the scan has counted, from where it stands, and whose
nesting it has bounded; behind a result the scan goes on at the given depth. -/
structure Safe (limits : SiteBusinessLimits) (final st : ScanState) (depth : ℕ) (run : Run ε α) :
    Prop where
  nodes : st.counter + run.nodes ≤ final.counter
  deepest : run.deepest ≤ limits.maxJsonDepth
  after : ∀ a rest, run.result = .ok (a, rest) → ∃ st', Outside st' depth ∧
    st'.counter = st.counter + run.nodes ∧ Passes limits final st' rest

theorem safe_fail {s : List Char} (e : ε) (hs : Passes limits final st s) :
    Safe limits final st depth (Run.fail e : Run ε α) where
  nodes := (passes_counter hs).1
  deepest := Nat.zero_le _
  after := fun _ _ h => by cases h

theorem safe_done {result : Except ε α} {rest : List Char} (h : Outside st depth)
    (hs : Passes limits final st rest) : Safe limits final st depth (Run.done result rest) where
  nodes := (passes_counter hs).1
  deepest := Nat.zero_le _
  after := by
    intro a rest' heq
    cases result with
    | error e => cases heq
    | ok value =>
        cases heq
        exact ⟨st, h, rfl, hs⟩

/-- Of where the scan stands, the counter matters. -/
theorem Safe.of_counter {st' : ScanState} {run : Run ε α} (h : Safe limits final st' depth run)
    (hcounter : st'.counter = st.counter) : Safe limits final st depth run := by
  refine ⟨hcounter ▸ h.nodes, h.deepest, fun a rest heq => ?_⟩
  obtain ⟨st'', houtside, hcounter', hpass⟩ := h.after a rest heq
  exact ⟨st'', houtside, hcounter'.trans (congrArg (· + run.nodes) hcounter), hpass⟩

theorem Safe.andThen {depth' : ℕ} {first : Run ε α} {next : α → List Char → Run ε β}
    (h : Safe limits final st depth first)
    (hnext : ∀ a rest st', Outside st' depth → Passes limits final st' rest →
      Safe limits final st' depth' (next a rest)) : Safe limits final st depth' (first.andThen next) := by
  unfold Run.andThen
  split
  next e _ => exact ⟨h.nodes, h.deepest, fun _ _ heq => by cases heq⟩
  next a rest hresult =>
    obtain ⟨st', houtside, hcounter, hpass⟩ := h.after a rest hresult
    have hsecond := hnext a rest st' houtside hpass
    have hfirst := h.nodes
    have hnodes := hsecond.nodes
    refine ⟨?_, max_le h.deepest hsecond.deepest, fun b rest' heq => ?_⟩
    · dsimp only
      omega
    · obtain ⟨st'', houtside', hcounter', hpass'⟩ := hsecond.after b rest' heq
      refine ⟨st'', houtside', ?_, hpass'⟩
      dsimp only
      omega

end Runs

section Decoding

variable {ε : Type} {hooks : Hooks ε} {depth : ℕ}

/-- A string or a key: the scan has counted it at its first quote. -/
theorem safe_key {s : List Char} (h : Outside st depth) (hs : Passes limits final st ('"' :: s)) :
    Safe limits final st depth (Run.produced (scanString hooks s)) := by
  obtain ⟨st', hstep, hpass⟩ := passes_cons hs
  obtain rfl := scanChar_quote h hstep
  unfold scanString
  cases hunits : scanUnits s with
  | none => exact safe_fail _ hs
  | some read =>
      obtain ⟨units, rest⟩ := read
      obtain ⟨body, hbody, rfl⟩ := writes_of_scanUnits hunits
      have hescape : ({ st with string := true, counter := st.counter + 1, token := false } :
          ScanState).escape = false := h.escape
      have hrest := passes_string hbody rfl hescape hpass
      refine ⟨(passes_counter hpass).1, Nat.zero_le _, fun a rest' heq => ?_⟩
      cases heq
      exact ⟨{ st with string := false, counter := st.counter + 1, token := false },
        ⟨rfl, h.escape, h.depth⟩, rfl, hrest⟩

theorem safe_string {s : List Char} (h : Outside st depth)
    (hs : Passes limits final st ('"' :: s)) : Safe limits final st depth (Run.produced
      ((scanString hooks s).map fun (points, rest) => (Value.string points, rest))) := by
  have hkey : Safe limits final st depth (Run.produced (scanString hooks s)) := safe_key h hs
  cases hscan : scanString hooks s with
  | error e => exact safe_fail e hs
  | ok read =>
      obtain ⟨points, rest⟩ := read
      rw [hscan] at hkey
      refine ⟨hkey.nodes, hkey.deepest, fun a rest' heq => ?_⟩
      cases heq
      exact hkey.after points rest rfl

theorem safe_scalar {s : List Char} (h : Outside st depth) (htoken : st.token = false)
    (hs : Passes limits final st s) :
    Safe limits final st depth (Run.produced (scanScalar hooks s)) := by
  cases hscalar : scanScalar hooks s with
  | error e => exact safe_fail e hs
  | ok read =>
      obtain ⟨v, rest⟩ := read
      obtain ⟨token, hne, rfl, hchars⟩ := token_of_scanScalar hscalar
      obtain ⟨st', houtside, hpass, hcounter⟩ :=
        passes_token h (fun c hc => isToken_of_isScalarChar (hchars c hc)) hs
      rw [if_neg (by rw [htoken]; exact fun hor => hor.elim Bool.false_ne_true hne)] at hcounter
      refine ⟨?_, Nat.zero_le _, fun a rest' heq => ?_⟩
      · exact hcounter ▸ (passes_counter hpass).1
      · obtain ⟨rfl, rfl⟩ := Prod.mk.inj (Except.ok.inj heq)
        exact ⟨st', houtside, hcounter, hpass⟩

/-- A container: the scan has counted it, and its depth, at its bracket. -/
theorem safe_opened {α : Type} {c : Char} {s : List Char} {inner : Run ε α} (h : Outside st depth)
    (hc : c = '[' ∨ c = '{') (hs : Passes limits final st (c :: s))
    (hinner : ∀ st', Outside st' (depth + 1) → st'.token = false → Passes limits final st' s →
      Safe limits final st' depth inner) :
    Safe limits final st depth (inner.opened (depth + 1)) := by
  obtain ⟨st', hstep, hpass⟩ := passes_cons hs
  obtain ⟨houtside, htoken, hcounter, hdepth⟩ := scanChar_open h hc hstep
  have hsafe := hinner st' houtside htoken hpass
  have hnodes := hsafe.nodes
  refine ⟨?_, max_le hdepth hsafe.deepest, fun a rest heq => ?_⟩
  · change st.counter + (1 + inner.nodes) ≤ final.counter
    omega
  · obtain ⟨st'', houtside', hcounter', hpass'⟩ := hsafe.after a rest heq
    refine ⟨st'', houtside', ?_, hpass'⟩
    change st''.counter = st.counter + (1 + inner.nodes)
    omega

theorem safe_close {α : Type} {c : Char} {rest : List Char} {result : Except ε α}
    (h : Outside st (depth + 1)) (hc : c = ']' ∨ c = '}') (hs : Passes limits final st (c :: rest)) :
    Safe limits final st depth (Run.done result rest) := by
  obtain ⟨st', hstep, hpass⟩ := passes_cons hs
  obtain ⟨houtside, hcounter⟩ := scanChar_close h hc hstep
  exact (safe_done houtside hpass).of_counter hcounter

/-- What stands for each of the three readers: from where the scan stands, all is counted. -/
structure SafeReaders (limits : SiteBusinessLimits) (final : ScanState) (hooks : Hooks ε)
    (fuel : ℕ) : Prop where
  value : ∀ {st : ScanState} {depth : ℕ} {s : List Char}, Outside st depth → st.token = false →
    Passes limits final st s → Safe limits final st depth (decodeValue hooks fuel depth s)
  items : ∀ {st : ScanState} {depth : ℕ} {done : List Value} {s : List Char},
    Outside st (depth + 1) → st.token = false → Passes limits final st s →
    Safe limits final st depth (decodeItems hooks fuel (depth + 1) done s)
  fields : ∀ {st : ScanState} {depth : ℕ} {done : List (List ℕ × Value)} {s : List Char},
    Outside st (depth + 1) → st.token = false → Passes limits final st s →
    Safe limits final st depth (decodeFields hooks fuel (depth + 1) done s)

/-- The three readers of values, of items and of fields, by induction on the fuel. -/
theorem safeReaders (fuel : ℕ) : SafeReaders limits final hooks fuel := by
  induction fuel with
  | zero =>
      exact ⟨fun _ _ hs => safe_fail _ hs, fun _ _ hs => safe_fail _ hs,
        fun _ _ hs => safe_fail _ hs⟩
  | succ fuel ih =>
      refine ⟨fun {st depth s} h htoken hs => ?_, fun {st depth done s} h htoken hs => ?_,
        fun {st depth done s} h htoken hs => ?_⟩
      · rw [decodeValue.eq_def]
        dsimp only
        split
        next heq => cases heq
        next => exact safe_string h hs
        next heq =>
          obtain rfl := Nat.succ.inj heq
          refine safe_opened h (.inr rfl) hs fun st' houtside htoken' hpass => ?_
          obtain ⟨st'', houtside', hcounter, htoken'', hpass'⟩ := passes_skipBlank houtside hpass
          refine Safe.of_counter ?_ hcounter
          split
          next hclose =>
            rw [hclose] at hpass'
            exact safe_close houtside' (.inr rfl) hpass'
          next => exact ih.fields houtside' (htoken'' htoken') hpass'
        next heq =>
          obtain rfl := Nat.succ.inj heq
          refine safe_opened h (.inl rfl) hs fun st' houtside htoken' hpass => ?_
          obtain ⟨st'', houtside', hcounter, htoken'', hpass'⟩ := passes_skipBlank houtside hpass
          refine Safe.of_counter ?_ hcounter
          split
          next hclose =>
            rw [hclose] at hpass'
            exact safe_close houtside' (.inl rfl) hpass'
          next => exact ih.items houtside' (htoken'' htoken') hpass'
        next => exact safe_scalar h htoken hs
      · rw [decodeItems]
        refine (ih.value h htoken hs).andThen fun item rest st' houtside hpass => ?_
        obtain ⟨st'', houtside', hcounter, -, hpass'⟩ := passes_skipBlank houtside hpass
        refine Safe.of_counter ?_ hcounter
        split
        next hclose =>
          rw [hclose] at hpass'
          exact safe_close houtside' (.inl rfl) hpass'
        next hcomma =>
          rw [hcomma] at hpass'
          obtain ⟨st₁, h₁, htoken₁, hcounter₁, hpass₁⟩ := passes_comma houtside' (.inl rfl) hpass'
          exact (ih.items h₁ htoken₁ hpass₁).of_counter hcounter₁
        next => exact safe_fail _ hpass'
      · rw [decodeFields.eq_def]
        split
        next heq => cases heq
        next heq =>
          obtain rfl := Nat.succ.inj heq
          refine (safe_key h hs).andThen fun key rest st' houtside hpass => ?_
          obtain ⟨st'', houtside', hcounter, -, hpass'⟩ := passes_skipBlank houtside hpass
          refine Safe.of_counter ?_ hcounter
          split
          next hcolon =>
            rw [hcolon] at hpass'
            obtain ⟨st₁, h₁, htoken₁, hcounter₁, hpass₁⟩ :=
              passes_comma houtside' (.inr rfl) hpass'
            refine Safe.of_counter ?_ hcounter₁
            refine (ih.value h₁ htoken₁ hpass₁).andThen fun value rest st₂ houtside₂ hpass₂ => ?_
            obtain ⟨st₃, houtside₃, hcounter₃, -, hpass₃⟩ := passes_skipBlank houtside₂ hpass₂
            refine Safe.of_counter ?_ hcounter₃
            split
            next hclose =>
              rw [hclose] at hpass₃
              exact safe_close houtside₃ (.inr rfl) hpass₃
            next hcomma =>
              rw [hcomma] at hpass₃
              obtain ⟨st₄, h₄, htoken₄, hcounter₄, hpass₄⟩ :=
                passes_comma houtside₃ (.inl rfl) hpass₃
              exact (ih.fields h₄ htoken₄ hpass₄).of_counter hcounter₄
            next => exact safe_fail _ hpass₃
          next => exact safe_fail _ hpass'
        next => exact safe_fail _ hs

/-- What the scan counts and bounds of a whole block. -/
theorem safe_loads {raw : List Char} {counter : ℕ}
    (h : Passes limits final (startState counter) raw) :
    counter + (loads hooks raw).nodes ≤ final.counter ∧
      (loads hooks raw).deepest ≤ limits.maxJsonDepth := by
  have hstart : Outside (startState counter) 0 := ⟨rfl, rfl, rfl⟩
  have hsafe : Safe limits final (startState counter) 0 (loads hooks raw) := by
    unfold loads
    split
    next => exact safe_fail _ h
    next =>
      obtain ⟨st', houtside, hcounter, htoken, hpass⟩ := passes_skipBlank hstart h
      refine Safe.of_counter ?_ hcounter
      refine ((safeReaders _).value houtside (htoken rfl) hpass).andThen
        fun value rest st₁ houtside₁ hpass₁ => ?_
      obtain ⟨st₂, houtside₂, hcounter₂, -, hpass₂⟩ := passes_skipBlank houtside₁ hpass₁
      refine Safe.of_counter ?_ hcounter₂
      split
      next hend =>
        rw [hend] at hpass₂
        exact safe_done houtside₂ hpass₂
      next => exact safe_fail _ hpass₂
  exact ⟨hsafe.nodes, hsafe.deepest⟩

end Decoding

end SearchTrust.Site
