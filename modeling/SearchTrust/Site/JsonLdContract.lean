/-
The bounds of the JSON-LD blocks: the decoder gets a block only where its depth and the nodes
of the page stay within their limits, and every document within them is decoded.
-/
import Mathlib.Data.Bool.AllAny
import Mathlib.Tactic.NormNum
import Mathlib.Tactic.Ring
import SearchTrust.Site.JsonLdBounds
import SearchTrust.Text.JsonReading

namespace SearchTrust.Site

open SearchTrust.Text.JsonText
open SearchTrust.Web (isSpace)

variable {limits : SiteBusinessLimits} {st : ScanState} {depth : ℕ}

section Scans

/-- The scan gets through a text, and has counted so many nodes behind it. -/
def Counts (limits : SiteBusinessLimits) (st : ScanState) (depth n : ℕ) (s : List Char) : Prop :=
  ∃ st', scan limits st s = some st' ∧ Outside st' depth ∧ st'.counter = st.counter + n

theorem scan_append (s t : List Char) :
    scan limits st (s ++ t) = (scan limits st s).bind fun st' => scan limits st' t :=
  List.foldlM_append ..

theorem Counts.append {depth' n m : ℕ} {s t : List Char} (h : Counts limits st depth n s)
    (hnext : ∀ st', Outside st' depth → st'.counter = st.counter + n →
      Counts limits st' depth' m t) : Counts limits st depth' (n + m) (s ++ t) := by
  obtain ⟨st', hscan, houtside, hcounter⟩ := h
  obtain ⟨st'', hscan', houtside', hcounter'⟩ := hnext st' houtside hcounter
  refine ⟨st'', ?_, houtside', by omega⟩
  rw [scan_append, hscan]
  exact hscan'

theorem checkedNodes_of_le (h : st.counter ≤ limits.maxJsonNodesPerPage) :
    checkedNodes limits st = some st := if_pos h

theorem scan_cons (c : Char) (s : List Char) :
    scan limits st (c :: s) = (scanChar limits st c).bind fun st' => scan limits st' s :=
  List.foldlM_cons ..

/-- A separator is passed, and no token goes on behind it. -/
theorem scanChar_separator_eq (h : Outside st depth) {c : Char}
    (hc : isSpace c = true ∨ c = ',' ∨ c = ':')
    (hle : st.counter ≤ limits.maxJsonNodesPerPage) :
    scanChar limits st c = some { st with token := false } := by
  rw [scanChar, if_neg (by rw [h.string]; exact Bool.false_ne_true), if_pos hc]
  exact checkedNodes_of_le hle

/-- Blanks leave all but the flag of a token. -/
theorem scan_blank {blank : List Char} (hblank : isBlank blank) (h : Outside st depth)
    (hle : st.counter ≤ limits.maxJsonNodesPerPage) :
    ∃ st', scan limits st blank = some st' ∧ Outside st' depth ∧ st'.counter = st.counter ∧
      (st.token = false → st'.token = false) := by
  induction blank generalizing st with
  | nil => exact ⟨st, rfl, h, rfl, fun h => h⟩
  | cons c blank ih =>
      have hc := isSpace_of_isJsonSpace (hblank c List.mem_cons_self)
      have hnext : Outside { st with token := false } depth := ⟨h.string, h.escape, h.depth⟩
      obtain ⟨st', hscan, houtside, hcounter, htoken⟩ :=
        ih (fun d hd => hblank d (List.mem_cons_of_mem _ hd)) hnext hle
      refine ⟨st', ?_, houtside, hcounter, fun _ => htoken rfl⟩
      rw [scan_cons, scanChar_separator_eq h (.inl hc) hle]
      exact hscan

/-- A text that is counted from where the scan stands behind the text before it. -/
theorem Counts.of_scan {depth' n : ℕ} {s t : List Char} {st' : ScanState}
    (hscan : scan limits st s = some st') (hcounter : st'.counter = st.counter)
    (h : Counts limits st' depth' n t) : Counts limits st depth' n (s ++ t) := by
  obtain ⟨st'', hscan', houtside, hcounter'⟩ := h
  refine ⟨st'', ?_, houtside, by omega⟩
  rw [scan_append, hscan]
  exact hscan'

theorem Counts.blank_before {depth' n : ℕ} {blank t : List Char} (hblank : isBlank blank)
    (h : Outside st depth) (htoken : st.token = false)
    (hle : st.counter ≤ limits.maxJsonNodesPerPage)
    (ht : ∀ st', Outside st' depth → st'.token = false → st'.counter = st.counter →
      Counts limits st' depth' n t) : Counts limits st depth' n (blank ++ t) := by
  obtain ⟨st', hscan, houtside, hcounter, htoken'⟩ := scan_blank hblank h hle
  exact (ht st' houtside (htoken' htoken) hcounter).of_scan hscan hcounter

theorem Counts.blank_after {n : ℕ} {blank t : List Char} (h : Counts limits st depth n t)
    (hblank : isBlank blank) (hle : st.counter + n ≤ limits.maxJsonNodesPerPage) :
    Counts limits st depth n (t ++ blank) := by
  refine h.append (m := 0) fun st' houtside hcounter => ?_
  have hle' : st'.counter ≤ limits.maxJsonNodesPerPage := hcounter ▸ hle
  obtain ⟨st'', hscan, houtside', hcounter', -⟩ := scan_blank hblank houtside hle'
  exact ⟨st'', hscan, houtside', hcounter'⟩

theorem Counts.separator {depth' n : ℕ} {c : Char} {t : List Char} (h : Outside st depth)
    (hc : c = ',' ∨ c = ':') (hle : st.counter ≤ limits.maxJsonNodesPerPage)
    (ht : ∀ st', Outside st' depth → st'.token = false → st'.counter = st.counter →
      Counts limits st' depth' n t) : Counts limits st depth' n (c :: t) := by
  have hstep : scan limits st [c] = some { st with token := false } := by
    rw [scan_cons, scanChar_separator_eq h (.inr hc) hle]
    rfl
  exact (ht { st with token := false } ⟨h.string, h.escape, h.depth⟩ rfl rfl).of_scan hstep rfl

/-- A scalar is one node. -/
theorem counts_token {token : List Char} (hne : token ≠ []) (hchars : ∀ c ∈ token, IsToken c)
    (h : Outside st depth) (htoken : st.token = false)
    (hle : st.counter + 1 ≤ limits.maxJsonNodesPerPage) : Counts limits st depth 1 token := by
  have hsigns : ∀ {st : ScanState} {c : Char}, IsToken c → st.string = false →
      scanChar limits st c = if ! st.token then
        checkedNodes limits { st with counter := st.counter + 1, token := true }
      else checkedNodes limits st := by
    intro st c hc hstring
    have hsigns := hc.signs
    simp only [List.mem_cons, List.not_mem_nil, or_false, not_or] at hsigns
    obtain ⟨hcomma, hcolon, hopen, hbrace, hclose, hbrace', hquote⟩ := hsigns
    have hseparator : ¬ (isSpace c = true ∨ c = ',' ∨ c = ':') := by
      rintro (hspace | hor)
      · rw [hc.space] at hspace
        cases hspace
      · exact hor.elim hcomma hcolon
    rw [scanChar, if_neg (by rw [hstring]; exact Bool.false_ne_true), if_neg hseparator,
      if_neg (not_or.2 ⟨hopen, hbrace⟩), if_neg (not_or.2 ⟨hclose, hbrace'⟩), if_neg hquote]
  have hmore : ∀ {st : ScanState} {token : List Char}, (∀ c ∈ token, IsToken c) →
      st.string = false → st.token = true → st.counter ≤ limits.maxJsonNodesPerPage →
      scan limits st token = some st := by
    intro st token hchars hstring htoken hle
    induction token with
    | nil => rfl
    | cons c token ih =>
        rw [List.forall_mem_cons] at hchars
        rw [scan_cons, hsigns hchars.1 hstring, htoken, if_neg (by decide), checkedNodes_of_le hle]
        exact ih hchars.2
  obtain ⟨c, rest, rfl⟩ := List.exists_cons_of_ne_nil hne
  rw [List.forall_mem_cons] at hchars
  refine ⟨{ st with counter := st.counter + 1, token := true }, ?_,
    ⟨h.string, h.escape, h.depth⟩, rfl⟩
  rw [scan_cons, hsigns hchars.1 h.string, htoken, if_pos (by decide), checkedNodes_of_le hle]
  exact hmore hchars.2 h.string rfl hle

/-- Inside a string, the scan stays there up to the quote that closes it. -/
theorem scan_body {units : List ℕ} {body : List Char} (hbody : WritesUnits units body)
    (hstring : st.string = true) (hescape : st.escape = false) :
    scan limits st (body ++ ['"']) = some { st with string := false } := by
  have hplain : ∀ {c : Char} (s : List Char), c ≠ '\\' → c ≠ '"' →
      scan limits st (c :: s) = scan limits st s := by
    intro c s hslash hquote
    rw [scan_cons, scanChar, if_pos hstring, if_neg (by rw [hescape]; exact Bool.false_ne_true),
      if_neg hslash, if_neg hquote]
    rfl
  have hbackslash : ∀ (c : Char) (s : List Char),
      scan limits st ('\\' :: c :: s) = scan limits st s := by
    intro c s
    rw [scan_cons, scanChar, if_pos hstring, if_neg (by rw [hescape]; exact Bool.false_ne_true),
      if_pos rfl]
    change scan limits { st with escape := true } (c :: s) = _
    rw [scan_cons, scanChar, if_pos hstring, if_pos rfl, ← hescape]
    rfl
  induction hbody with
  | nil =>
      rw [List.nil_append, scan_cons, scanChar, if_pos hstring,
        if_neg (by rw [hescape]; exact Bool.false_ne_true), if_neg (by decide), if_pos rfl]
      rfl
  | plain c _ hquote hslash _ ih => exact (hplain _ hslash hquote).trans ih
  | escaped c _ _ ih => exact (hbackslash c _).trans ih
  | unicode a b c d hunit _ ih =>
      obtain ⟨ha, hb, hc, hd⟩ := hexDigits_of_codeUnit hunit
      refine (hbackslash 'u' _).trans ?_
      exact ((hplain _ ha.1 ha.2).trans (hplain _ hb.1 hb.2)).trans
        ((hplain _ hc.1 hc.2).trans ((hplain _ hd.1 hd.2).trans ih))

/-- A string or a key is one node. -/
theorem counts_string {units : List ℕ} {body : List Char} (hbody : WritesUnits units body)
    (h : Outside st depth) (hle : st.counter + 1 ≤ limits.maxJsonNodesPerPage) :
    Counts limits st depth 1 ('"' :: (body ++ ['"'])) := by
  refine ⟨{ st with string := false, counter := st.counter + 1, token := false }, ?_,
    ⟨rfl, h.escape, h.depth⟩, rfl⟩
  rw [scan_cons, scanChar, if_neg (by rw [h.string]; exact Bool.false_ne_true),
    if_neg (by decide), if_neg (by decide), if_neg (by decide), if_pos rfl, checkedNodes_of_le hle]
  exact scan_body hbody rfl h.escape

/-- A container is one node, and one level. -/
theorem counts_container {n : ℕ} {opening closing : Char} {body : List Char}
    (hopening : opening = '[' ∨ opening = '{') (hclosing : closing = ']' ∨ closing = '}')
    (h : Outside st depth) (hdepth : depth + 1 ≤ limits.maxJsonDepth)
    (hle : st.counter + 1 + n ≤ limits.maxJsonNodesPerPage)
    (hbody : ∀ st', Outside st' (depth + 1) → st'.token = false →
      st'.counter = st.counter + 1 → Counts limits st' (depth + 1) n body) :
    Counts limits st depth (1 + n) (opening :: (body ++ [closing])) := by
  have hseparator : ∀ {c : Char}, c = '[' ∨ c = '{' ∨ c = ']' ∨ c = '}' →
      ¬ (isSpace c = true ∨ c = ',' ∨ c = ':') := by
    rintro c (rfl | rfl | rfl | rfl) <;> decide
  have hopen : scan limits st [opening] =
      some { st with depth := st.depth + 1, counter := st.counter + 1, token := false } := by
    have hbound : st.depth + 1 ≤ limits.maxJsonDepth := by
      rw [h.depth]
      omega
    rw [scan_cons, scanChar, if_neg (by rw [h.string]; exact Bool.false_ne_true),
      if_neg (hseparator (hopening.imp_right .inl)), if_pos hopening, if_pos hbound,
      checkedNodes_of_le (by dsimp only; omega)]
    rfl
  have hopened : Counts limits st (depth + 1) 1 [opening] := by
    refine ⟨_, hopen, ⟨h.string, h.escape, ?_⟩, rfl⟩
    dsimp only
    rw [h.depth]
    rfl
  obtain ⟨st', hscan, houtside, hcounter⟩ := hbody
    { st with depth := st.depth + 1, counter := st.counter + 1, token := false }
    ⟨h.string, h.escape, by dsimp only; rw [h.depth]; rfl⟩ rfl rfl
  have hclose : Counts limits st' depth 0 [closing] := by
    refine ⟨{ st' with depth := st'.depth - 1, token := false }, ?_,
      ⟨houtside.string, houtside.escape, ?_⟩, rfl⟩
    · have hnot : ¬ (closing = '[' ∨ closing = '{') := by
        rcases hclosing with rfl | rfl <;> decide
      have hmax : st'.counter ≤ limits.maxJsonNodesPerPage := by
        dsimp only at hcounter
        omega
      rw [scan_cons, scanChar, if_neg (by rw [houtside.string]; exact Bool.false_ne_true),
        if_neg (hseparator (.inr (.inr hclosing))), if_neg hnot, if_pos hclosing,
        checkedNodes_of_le (by exact hmax)]
      rfl
    · dsimp only
      rw [houtside.depth]
      push_cast
      omega
  obtain ⟨st'', hscan', houtside', hcounter'⟩ := hclose
  refine ⟨st'', ?_, houtside', ?_⟩
  · change scan limits st ([opening] ++ (body ++ [closing])) = some st''
    rw [scan_append, hopen]
    change scan limits _ (body ++ [closing]) = _
    rw [scan_append, hscan]
    exact hscan'
  · dsimp only at hcounter
    omega

/-- The scan counts the nodes of a content where its text stands, within the limits. -/
def Scans (limits : SiteBusinessLimits) : Content → List Char → Prop
  | .value v, t => ∀ st depth, Outside st depth → st.token = false →
      depth + nesting v ≤ limits.maxJsonDepth →
      st.counter + nodes v ≤ limits.maxJsonNodesPerPage → Counts limits st depth (nodes v) t
  | .items items, t => ∀ st depth, Outside st depth → st.token = false →
      depth + itemNesting items ≤ limits.maxJsonDepth →
      st.counter + itemNodes items ≤ limits.maxJsonNodesPerPage →
      Counts limits st depth (itemNodes items) t
  | .fields fields, t => ∀ st depth, Outside st depth → st.token = false →
      depth + fieldNesting fields ≤ limits.maxJsonDepth →
      st.counter + fieldNodes fields ≤ limits.maxJsonNodesPerPage →
      Counts limits st depth (fieldNodes fields) t

theorem field_text (key middle rest : List Char) :
    '"' :: (key ++ '"' :: (middle ++ rest)) = ('"' :: (key ++ ['"']) ++ middle) ++ rest := by
  simp only [List.append_assoc, List.cons_append, List.nil_append]

/-- The scan counts what the grammar writes, by induction over the derivation. -/
theorem scans_of_writes {content : Content} {t : List Char} (h : Writes content t) :
    Scans limits content t := by
  have hscalar : ∀ {token : List Char}, token ≠ [] → (∀ c ∈ token, isScalarChar c = true) →
      ∀ st depth, Outside st depth → st.token = false →
        st.counter + 1 ≤ limits.maxJsonNodesPerPage → Counts limits st depth 1 token :=
    fun hne hchars st depth houtside htoken hle =>
      counts_token hne (fun c hc => isToken_of_isScalarChar (hchars c hc)) houtside htoken hle
  induction h with
  | null =>
      exact fun st depth h ht _ hle => hscalar (List.cons_ne_nil _ _) (by simp [isScalarChar]) _ _ h ht hle
  | true =>
      exact fun st depth h ht _ hle => hscalar (List.cons_ne_nil _ _) (by simp [isScalarChar]) _ _ h ht hle
  | false =>
      exact fun st depth h ht _ hle => hscalar (List.cons_ne_nil _ _) (by simp [isScalarChar]) _ _ h ht hle
  | number n hn =>
      exact fun st depth h ht _ hle => hscalar hn.scalarChars.1 hn.scalarChars.2 _ _ h ht hle
  | string hbody => exact fun st depth h _ _ hle => counts_string hbody h hle
  | emptyArray hblank =>
      intro st depth h _ hdepth hle
      refine counts_container (.inl rfl) (.inl rfl) h hdepth hle fun st' h' _ hcounter => ?_
      obtain ⟨st'', hscan, houtside, hcounter', -⟩ := scan_blank hblank h' (hcounter ▸ hle)
      exact ⟨st'', hscan, houtside, hcounter'⟩
  | array _ ih =>
      intro st depth h _ hdepth hle
      rw [nesting] at hdepth
      rw [nodes] at hle ⊢
      refine counts_container (.inl rfl) (.inl rfl) h (by omega) (by omega)
        fun st' h' htoken hcounter => ih st' (depth + 1) h' htoken (by omega) (by omega)
  | emptyObject hblank =>
      intro st depth h _ hdepth hle
      refine counts_container (.inr rfl) (.inr rfl) h hdepth hle fun st' h' _ hcounter => ?_
      obtain ⟨st'', hscan, houtside, hcounter', -⟩ := scan_blank hblank h' (hcounter ▸ hle)
      exact ⟨st'', hscan, houtside, hcounter'⟩
  | object _ ih =>
      intro st depth h _ hdepth hle
      rw [nesting] at hdepth
      rw [nodes] at hle ⊢
      refine counts_container (.inr rfl) (.inr rfl) h (by omega) (by omega)
        fun st' h' htoken hcounter => ih st' (depth + 1) h' htoken (by omega) (by omega)
  | item hbefore _ hafter ih =>
      intro st depth h htoken hdepth hle
      rw [itemNesting, itemNesting] at hdepth
      rw [itemNodes, itemNodes] at hle ⊢
      refine Counts.blank_before hbefore h htoken (by omega) fun st₁ h₁ htoken₁ hcounter₁ => ?_
      exact (ih st₁ depth h₁ htoken₁ (by omega) (by omega)).blank_after hafter (by omega)
  | items hbefore _ hafter _ ih ihrest =>
      intro st depth h htoken hdepth hle
      rw [itemNesting] at hdepth
      rw [itemNodes] at hle ⊢
      refine Counts.blank_before hbefore h htoken (by omega) fun st₁ h₁ htoken₁ hcounter₁ => ?_
      rw [← List.append_assoc]
      refine ((ih st₁ depth h₁ htoken₁ (by omega) (by omega)).blank_after hafter
        (by omega)).append fun st₂ h₂ hcounter₂ => ?_
      refine Counts.separator h₂ (.inl rfl) (by omega) fun st₃ h₃ htoken₃ hcounter₃ => ?_
      exact ihrest st₃ depth h₃ htoken₃ (by omega) (by omega)
  | @field before middle between after key body units value hbefore hkey hmiddle hbetween _
      hafter ih =>
      intro st depth h htoken hdepth hle
      rw [fieldNesting, fieldNesting] at hdepth
      rw [fieldNodes, fieldNodes] at hle ⊢
      refine Counts.blank_before hbefore h htoken (by omega) fun st₁ h₁ _ hcounter₁ => ?_
      rw [field_text, Nat.add_zero]
      refine ((counts_string hkey h₁ (by omega)).blank_after hmiddle (by omega)).append
        fun st₂ h₂ hcounter₂ => ?_
      refine Counts.separator h₂ (.inr rfl) (by omega) fun st₃ h₃ htoken₃ hcounter₃ => ?_
      refine Counts.blank_before hbetween h₃ htoken₃ (by omega) fun st₄ h₄ htoken₄ hcounter₄ => ?_
      exact (ih st₄ depth h₄ htoken₄ (by omega) (by omega)).blank_after hafter (by omega)
  | @fields before middle between after key body tail units value fields hbefore hkey hmiddle
      hbetween _ hafter _ ih ihrest =>
      intro st depth h htoken hdepth hle
      rw [fieldNesting] at hdepth
      rw [fieldNodes] at hle ⊢
      refine Counts.blank_before hbefore h htoken (by omega) fun st₁ h₁ _ hcounter₁ => ?_
      rw [field_text, Nat.add_assoc]
      refine ((counts_string hkey h₁ (by omega)).blank_after hmiddle (by omega)).append
        fun st₂ h₂ hcounter₂ => ?_
      refine Counts.separator h₂ (.inr rfl) (by omega) fun st₃ h₃ htoken₃ hcounter₃ => ?_
      refine Counts.blank_before hbetween h₃ htoken₃ (by omega) fun st₄ h₄ htoken₄ hcounter₄ => ?_
      rw [← List.append_assoc]
      refine ((ih st₄ depth h₄ htoken₄ (by omega) (by omega)).blank_after hafter
        (by omega)).append fun st₅ h₅ hcounter₅ => ?_
      refine Counts.separator h₅ (.inl rfl) (by omega) fun st₆ h₆ htoken₆ hcounter₆ => ?_
      exact ihrest st₆ depth h₆ htoken₆ (by omega) (by omega)

end Scans

section Contract

/-- No object of a document has a key twice. -/
def distinctKeys : Demand where
  number _ := true
  text _ := true
  keys keys := decide keys.Nodup

def contentMeets (d : Demand) : Content → Bool
  | .value v => meets d v
  | .items items => itemsMeet d items
  | .fields fields => fieldsMeet d fields

theorem le_foldl_digits (s : List Char) (n : ℕ) :
    n * 10 ^ s.length ≤ s.foldl (fun n c => 10 * n + (c.toNat - '0'.toNat)) n := by
  induction s generalizing n with
  | nil => simp
  | cons c rest ih =>
      refine le_trans ?_ (ih _)
      dsimp only
      rw [List.length_cons, pow_succ, Nat.add_mul]
      calc n * (10 ^ rest.length * 10) = 10 * n * 10 ^ rest.length := by ring
        _ ≤ _ := Nat.le_add_right _ _

/-- An integer of 64 bits is one that the interpreter converts. -/
theorem converts_of_isInteger64 {n : NumberText} (h : n.WellFormed) (hn : isInteger64 n = true) :
    n.converts = true := by
  unfold isInteger64 at hn
  unfold NumberText.converts
  cases hint : n.isInt with
  | false => rfl
  | true =>
      rw [hint, Bool.not_true, Bool.false_or] at hn
      rw [Bool.not_true, Bool.false_or]
      refine decide_eq_true ?_
      have hvalue : digitsValue n.whole ≤ 2 ^ 64 := by
        split at hn
        next => exact (of_decide_eq_true hn).trans (by norm_num)
        next => exact (of_decide_eq_true hn).le
      rcases h.whole with hzero | ⟨hne, hdigits, hhead⟩
      · rw [hzero]
        decide
      · obtain ⟨c, rest, hcons⟩ := List.exists_cons_of_ne_nil hne
        have hc : 1 ≤ c.toNat - '0'.toNat := by
          have hdigit := hdigits c (hcons ▸ List.mem_cons_self)
          rw [hcons, List.head?_cons, Ne, Option.some.injEq] at hhead
          have hle : '0'.toNat ≤ c.toNat := by
            simp only [Char.isDigit, Bool.and_eq_true, decide_eq_true_eq] at hdigit
            exact UInt32.le_iff_toNat_le.1 hdigit.1
          have hne : c.toNat ≠ '0'.toNat := fun heq => hhead (Char.toNat_inj.1 heq)
          omega
        have hlower : 10 ^ rest.length ≤ digitsValue n.whole := by
          rw [hcons, digitsValue, List.foldl_cons]
          refine le_trans ?_ (le_foldl_digits rest _)
          exact Nat.le_mul_of_pos_left _ (by omega)
        have hlength : rest.length < 20 := by
          by_contra hlong
          have hpow : 10 ^ 20 ≤ 10 ^ rest.length :=
            Nat.pow_le_pow_right (by norm_num) (Nat.not_lt.1 hlong)
          have hmax : (2 : ℕ) ^ 64 < 10 ^ 20 := by norm_num
          omega
        rw [hcons, List.length_cons, maxIntDigits]
        omega

/-- A document without double keys whose values can be encoded is one that the decoder reads. -/
theorem readable_of_writes {content : Content} {t : List Char} (h : Writes content t)
    (hkeys : contentMeets distinctKeys content = true)
    (hencodable : contentMeets encodable content = true) :
    contentMeets readable content = true := by
  induction h with
  | null => rfl
  | true => rfl
  | false => rfl
  | number n hn =>
      have hboth : (isFinite n && isInteger64 n) = true := hencodable
      exact converts_of_isInteger64 hn (Bool.and_eq_true_iff.1 hboth).2
  | string _ => rfl
  | emptyArray _ => rfl
  | array _ ih => exact ih hkeys hencodable
  | emptyObject _ => rfl
  | @object fields body _ ih =>
      have hfields : (decide (fields.map Prod.fst).Nodup && fieldsMeet distinctKeys fields) = true :=
        hkeys
      have hencoded : (true && fieldsMeet encodable fields) = true := hencodable
      rw [Bool.and_eq_true] at hfields hencoded
      exact Bool.and_eq_true_iff.2 ⟨hfields.1, ih hfields.2 hencoded.2⟩
  | @item _ _ _ value _ _ _ ih =>
      have hvalue : (meets distinctKeys value && true) = true := hkeys
      have hencoded : (meets encodable value && true) = true := hencodable
      rw [Bool.and_true] at hvalue hencoded
      exact Bool.and_eq_true_iff.2 ⟨ih hvalue hencoded, rfl⟩
  | @items _ _ _ _ value items _ _ _ _ ih ihrest =>
      have hvalue : (meets distinctKeys value && itemsMeet distinctKeys items) = true := hkeys
      have hencoded : (meets encodable value && itemsMeet encodable items) = true := hencodable
      rw [Bool.and_eq_true] at hvalue hencoded
      exact Bool.and_eq_true_iff.2 ⟨ih hvalue.1 hencoded.1, ihrest hvalue.2 hencoded.2⟩
  | @field _ _ _ _ _ _ units value _ _ _ _ _ _ ih =>
      have hvalue : (true && meets distinctKeys value && true) = true := hkeys
      have hencoded : (isScalarText (joinPoints units) && meets encodable value && true) = true :=
        hencodable
      rw [Bool.and_true, Bool.and_eq_true] at hvalue hencoded
      exact Bool.and_eq_true_iff.2 ⟨Bool.and_eq_true_iff.2 ⟨rfl, ih hvalue.2 hencoded.2⟩, rfl⟩
  | @fields _ _ _ _ _ _ _ units value fields _ _ _ _ _ _ _ ih ihrest =>
      have hvalue : (true && meets distinctKeys value && fieldsMeet distinctKeys fields) = true :=
        hkeys
      have hencoded : (isScalarText (joinPoints units) && meets encodable value &&
        fieldsMeet encodable fields) = true := hencodable
      rw [Bool.and_eq_true, Bool.and_eq_true] at hvalue hencoded
      exact Bool.and_eq_true_iff.2 ⟨Bool.and_eq_true_iff.2 ⟨rfl, ih hvalue.1.2 hencoded.1.2⟩,
        ihrest hvalue.2 hencoded.2⟩

/-- What the scan counts of a document are its nodes. -/
theorem counts_document {counter : ℕ} {v : Value} {raw : List Char} (h : WritesDocument v raw)
    (hdepth : nesting v ≤ limits.maxJsonDepth)
    (hle : counter + nodes v ≤ limits.maxJsonNodesPerPage) :
    Counts limits (startState counter) 0 (nodes v) raw := by
  obtain ⟨before, body, after, hbefore, hvalue, hafter, rfl⟩ := h
  have hstart : Outside (startState counter) 0 := ⟨rfl, rfl, rfl⟩
  have hcounter : (startState counter).counter = counter := rfl
  refine Counts.blank_before hbefore hstart rfl (by omega) fun st h htoken hsame => ?_
  exact (scans_of_writes hvalue st 0 h htoken (by omega) (by omega)).blank_after hafter (by omega)

theorem admitted_eq_some {counter : ℕ} {raw : List Char} {st : ScanState}
    (h : admitted limits counter raw = some st) : Passes limits st (startState counter) raw := by
  unfold admitted at h
  split at h
  next => exact h
  next => cases h

/-- The blocks of a page, by induction: the counter is never behind what was produced. -/
theorem decodeBlocks_counter {counter counter' : ℕ} {blocks : List (List Char)}
    {decoded : List (Except JsonIssue Value)}
    (h : decodeBlocks limits counter blocks = some (counter', decoded)) :
    counter + (blocks.map fun raw => (loads hooks raw).nodes).sum ≤ counter' ∧
      (counter' = counter ∨ counter' ≤ limits.maxJsonNodesPerPage) := by
  induction blocks generalizing counter counter' decoded with
  | nil =>
      obtain ⟨rfl, -⟩ := Prod.mk.inj (Option.some.inj h)
      exact ⟨le_rfl, .inl rfl⟩
  | cons raw rest ih =>
      rw [decodeBlocks] at h
      obtain ⟨⟨middle, first⟩, hfirst, h⟩ := Option.bind_eq_some_iff.1 h
      obtain ⟨⟨last, others⟩, hothers, heq⟩ := Option.map_eq_some_iff.1 h
      obtain ⟨rfl, -⟩ := Prod.mk.inj heq
      obtain ⟨st, hadmitted, heq⟩ := Option.map_eq_some_iff.1 hfirst
      obtain ⟨rfl, -⟩ := Prod.mk.inj heq
      have hpass := admitted_eq_some hadmitted
      have hsafe : counter + (loads hooks raw).nodes ≤ st.counter := (safe_loads hpass).1
      have hbound : st.counter = counter ∨ st.counter ≤ limits.maxJsonNodesPerPage :=
        (passes_counter hpass).2
      obtain ⟨hrest, hor⟩ := ih hothers
      refine ⟨?_, ?_⟩
      · rw [List.map_cons, List.sum_cons]
        omega
      · rcases hor with rfl | hmax
        · exact hbound
        · exact .inr hmax

/-- The bounds of a block.  Where its text is given to the decoder, this nests no deeper than
the limit, and what it produces fits in what the earlier blocks of the page have left; else
the limit is exceeded before it starts.  A document within the bounds is decoded to its
value, if no key is there twice and its numbers and texts can be encoded.  And the blocks of
a page together produce no more than the limit. -/
theorem decodeJson_bounds (limits : SiteBusinessLimits) :
    (∀ counter raw, match decodeJson limits counter raw with
      | none => admitted limits counter raw = none
      | some (counter', decoded) => decoded = decodeScanned raw ∧
          (loads hooks raw).deepest ≤ limits.maxJsonDepth ∧
          (loads hooks raw).nodes ≤ limits.maxJsonNodesPerPage - counter ∧
          counter + (loads hooks raw).nodes ≤ counter') ∧
    (∀ counter raw v, WritesDocument v raw → utf8Length raw ≤ limits.maxJsonldBytes →
      nesting v ≤ limits.maxJsonDepth → counter + nodes v ≤ limits.maxJsonNodesPerPage →
      meets distinctKeys v = true → meets encodable v = true →
      decodeJson limits counter raw = some (counter + nodes v, .ok v)) ∧
    (∀ blocks counter' decoded, decodeBlocks limits 0 blocks = some (counter', decoded) →
      (blocks.map fun raw => (loads hooks raw).nodes).sum ≤ limits.maxJsonNodesPerPage) := by
  refine ⟨fun counter raw => ?_, fun counter raw v h hbytes hdepth hle hkeys hencodable => ?_,
    fun blocks counter' decoded h => ?_⟩
  · cases hadmitted : admitted limits counter raw with
    | none =>
        rw [decodeJson, hadmitted]
        rfl
    | some st =>
        have hpass := admitted_eq_some hadmitted
        have hnodes : counter + (loads hooks raw).nodes ≤ st.counter := (safe_loads hpass).1
        have hdeepest : (loads hooks raw).deepest ≤ limits.maxJsonDepth := (safe_loads hpass).2
        have hbound : st.counter = counter ∨ st.counter ≤ limits.maxJsonNodesPerPage :=
          (passes_counter hpass).2
        rw [decodeJson, hadmitted]
        exact ⟨rfl, hdeepest, by omega, hnodes⟩
  · obtain ⟨st, hscan, -, hcounter⟩ := counts_document h hdepth hle
    have hcounter : st.counter = counter + nodes v := hcounter
    have hreadable : meets readable v = true := by
      obtain ⟨before, body, after, -, hvalue, -⟩ := h
      exact readable_of_writes hvalue hkeys hencodable
    have hpairs : ∀ fields : List (List ℕ × Value), (fields.map Prod.fst).Nodup →
        hooks.objectPairs fields = .ok (.object fields) := fun fields hnodup => if_pos hnodup
    have hloads := loads_of_writes hpairs h hreadable
    rw [decodeJson, admitted, if_pos hbytes, hscan, Option.map_some, hcounter, decodeScanned,
      hloads]
    dsimp only
    rw [if_pos hencodable]
  · obtain ⟨hsum, hor⟩ := decodeBlocks_counter h
    omega

/-- A list in a list, behind a block with three nodes. -/
theorem decodeJson_bounds_sample :
    decodeJson ⟨1, 1, 1, 1, 1, 1, 100, 2, 6⟩ 3 ['[', '[', ' ', ']', ',', 't', 'r', 'u', 'e', ']'] =
      some (6, .ok (.array [.array [], .bool true])) := by
  have hblank : isBlank [' '] := by
    unfold isBlank
    exact List.all_iff_forall_prop.1 (by decide)
  have hnil : isBlank [] := fun c hc => absurd hc List.not_mem_nil
  have hwrites : Writes (.value (.array [.array [], .bool true]))
      ['[', '[', ' ', ']', ',', 't', 'r', 'u', 'e', ']'] :=
    .array (.items hnil (.emptyArray hblank) hnil (.item hnil .true hnil))
  exact (decodeJson_bounds ⟨1, 1, 1, 1, 1, 1, 100, 2, 6⟩).2.1 3 _ _
    ⟨[], _, [], hnil, hwrites, hnil, rfl⟩ (by decide) (by decide) (by decide) (by decide) (by decide)

end Contract

end SearchTrust.Site
