/-
The strings and the numbers of JSON texts: the decoder reads exactly those that the grammar
writes.
-/
import Mathlib.Data.List.TakeWhile
import SearchTrust.Text.JsonDecoder

namespace SearchTrust.Text.JsonText

section Strings

theorem unescape_ne {c : Char} {unit : ℕ} (h : unescape c = some unit) : c ≠ 'u' := by
  rintro rfl
  cases h

/-- The decoder reads what a string writes. -/
theorem scanUnits_of_writes {units : List ℕ} {body : List Char} (h : WritesUnits units body)
    (rest : List Char) : scanUnits (body ++ '"' :: rest) = some (units, rest) := by
  induction h with
  | nil => rfl
  | @plain c hcontrol hquote hescape units body _ ih =>
      rw [List.cons_append, scanUnits, if_neg, ih]
      · rfl
      · exact not_or.2 ⟨Nat.not_lt.2 hcontrol, hescape⟩
      · exact hquote
      · exact fun a b c' d rest' heq => absurd heq hescape
      · exact fun c' rest' heq => absurd heq hescape
  | @escaped c unit hunit units body _ ih =>
      rw [List.cons_append, List.cons_append, scanUnits, ih, hunit]
      exact fun a b c' d rest' heq => absurd heq (unescape_ne hunit)
  | @unicode a b c d unit hunit units body _ ih =>
      simp only [List.cons_append]
      rw [scanUnits, ih, hunit]

/-- What the decoder reads is written by a string. -/
theorem writes_of_scanUnits {s rest : List Char} {units : List ℕ}
    (h : scanUnits s = some (units, rest)) :
    ∃ body, WritesUnits units body ∧ s = body ++ '"' :: rest := by
  induction s using scanUnits.induct generalizing units with
  | case1 => cases h
  | case2 tail =>
      rw [scanUnits, Option.some.injEq, Prod.mk.injEq] at h
      obtain ⟨rfl, rfl⟩ := h
      exact ⟨[], .nil, rfl⟩
  | case3 a b c d tail unit units' rest' htail hunit ih =>
      rw [scanUnits, hunit, htail] at h
      obtain ⟨rfl, rfl⟩ := Prod.mk.inj (Option.some.inj h)
      obtain ⟨body, hbody, rfl⟩ := ih htail
      exact ⟨_, .unicode a b c d hunit hbody, rfl⟩
  | case4 a b c d tail hnone _ =>
      rw [scanUnits] at h
      split at h
      next hunit htail => exact absurd htail fun htail => hnone _ _ _ hunit htail
      next => cases h
  | case5 c tail hno unit units' rest' htail hunit ih =>
      rw [scanUnits, hunit, htail] at h
      · obtain ⟨rfl, rfl⟩ := Prod.mk.inj (Option.some.inj h)
        obtain ⟨body, hbody, rfl⟩ := ih htail
        exact ⟨_, .escaped c hunit hbody, rfl⟩
      · exact hno
  | case6 c tail hno hnone _ =>
      rw [scanUnits] at h
      · split at h
        next hunit htail => exact absurd htail fun htail => hnone _ _ _ hunit htail
        next => cases h
      · exact hno
  | case7 c tail hquote hunicode hescape hbad =>
      rw [scanUnits, if_pos hbad] at h
      · cases h
      · exact hquote
      · exact hunicode
      · exact hescape
  | case8 c tail hquote hunicode hescape hgood ih =>
      rw [scanUnits, if_neg hgood] at h
      · obtain ⟨⟨units', rest'⟩, htail, heq⟩ := Option.map_eq_some_iff.1 h
        obtain ⟨rfl, rfl⟩ := Prod.mk.inj heq
        obtain ⟨body, hbody, rfl⟩ := ih htail
        rw [not_or, Nat.not_lt] at hgood
        exact ⟨_, .plain c hgood.1 hquote hgood.2 hbody, rfl⟩
      · exact hquote
      · exact hunicode
      · exact hescape

end Strings

section Numbers

/-- Nothing at the front of a text goes on with a number. -/
def EndsNumber (s : List Char) : Prop :=
  ∀ c, s.head? = some c → c.isDigit = false ∧ c ≠ '.' ∧ c ≠ 'e' ∧ c ≠ 'E'

theorem takeWhile_digits {digits s : List Char} (h : NumberText.isDigits digits)
    (hs : ∀ c, s.head? = some c → c.isDigit = false) :
    (digits ++ s).takeWhile Char.isDigit = digits ∧ (digits ++ s).dropWhile Char.isDigit = s := by
  have hend : s.takeWhile Char.isDigit = [] ∧ s.dropWhile Char.isDigit = s := by
    cases s with
    | nil => exact ⟨rfl, rfl⟩
    | cons c rest =>
        have hc : ¬ c.isDigit = true := by rw [hs c rfl]; exact Bool.false_ne_true
        exact ⟨List.takeWhile_cons_of_neg hc, List.dropWhile_cons_of_neg hc⟩
  rw [List.takeWhile_append_of_pos h, List.dropWhile_append_of_pos h, hend.1, hend.2,
    List.append_nil]
  exact ⟨rfl, rfl⟩

theorem isDigits_takeWhile (s : List Char) : NumberText.isDigits (s.takeWhile Char.isDigit) :=
  fun _ hc => List.mem_takeWhile_imp hc

variable {n : NumberText}

theorem scanSign_render (hwhole : n.whole ≠ [] ∧ NumberText.isDigits n.whole) (rest : List Char) :
    scanSign (NumberText.signChars n.negative ++ (n.whole ++ rest)) = (n.negative, n.whole ++ rest) := by
  unfold NumberText.signChars
  cases n.negative with
  | true => rfl
  | false =>
      obtain ⟨c, whole, hcons⟩ := List.exists_cons_of_ne_nil hwhole.1
      have hc : c.isDigit = true := hwhole.2 c (hcons ▸ List.mem_cons_self)
      rw [if_neg Bool.false_ne_true, List.nil_append, hcons, List.cons_append, scanSign]
      rintro rest' heq
      rw [(List.cons.inj heq).1] at hc
      cases hc

theorem scanWhole_render (h : n.WellFormed) {rest : List Char}
    (hrest : ∀ c, rest.head? = some c → c.isDigit = false) :
    scanWhole (n.whole ++ rest) = (n.whole, rest) := by
  rcases h.whole with hzero | ⟨hne, hdigits, hhead⟩
  · rw [hzero]
    rfl
  · rw [scanWhole]
    · rw [(takeWhile_digits hdigits hrest).1, (takeWhile_digits hdigits hrest).2]
    · rintro rest' heq
      obtain ⟨c, whole, hcons⟩ := List.exists_cons_of_ne_nil hne
      rw [hcons, List.cons_append] at heq
      rw [hcons, (List.cons.inj heq).1] at hhead
      exact hhead rfl

theorem scanFraction_render (h : n.WellFormed) {rest : List Char}
    (hrest : ∀ c, rest.head? = some c → c.isDigit = false ∧ c ≠ '.') :
    scanFraction (NumberText.fractionChars n.fraction ++ rest) = (n.fraction, rest) := by
  obtain ⟨htake, hdrop⟩ := takeWhile_digits h.fraction fun c hc => (hrest c hc).1
  unfold NumberText.fractionChars
  split
  next hempty =>
    rw [hempty, List.nil_append, scanFraction]
    rintro rest' heq
    exact (hrest '.' (by rw [heq]; rfl)).2 rfl
  next hne =>
    rw [List.cons_append, scanFraction]
    rw [htake, hdrop, if_neg hne]

theorem scanExponent_render (h : n.WellFormed) {rest : List Char} (hrest : EndsNumber rest) :
    scanExponent (NumberText.exponentChars n.exponent ++ rest) = (n.exponent, rest) := by
  unfold NumberText.exponentChars
  cases hexponent : n.exponent with
  | none =>
      rw [List.nil_append]
      cases rest with
      | nil => rfl
      | cons c rest =>
          obtain ⟨-, -, he, hE⟩ := hrest c rfl
          rw [scanExponent, if_neg (not_or.2 ⟨he, hE⟩)]
  | some exponent =>
      obtain ⟨mark, sign, digits⟩ := exponent
      obtain ⟨hmark, hsign, hne, hdigits⟩ := h.exponent mark sign digits hexponent
      obtain ⟨htake, hdrop⟩ := takeWhile_digits hdigits fun c hc => (hrest c hc).1
      have hscan : scanExponentSign (sign ++ (digits ++ rest)) = (sign, digits ++ rest) := by
        rcases hsign with rfl | rfl | rfl
        · obtain ⟨c, tail, hcons⟩ := List.exists_cons_of_ne_nil hne
          have hc : c.isDigit = true := hdigits c (hcons ▸ List.mem_cons_self)
          rw [List.nil_append, hcons, List.cons_append, scanExponentSign]
          · rintro rest' heq
            rw [(List.cons.inj heq).1] at hc
            cases hc
          · rintro rest' heq
            rw [(List.cons.inj heq).1] at hc
            cases hc
        · rfl
        · rfl
      dsimp only
      rw [List.cons_append, List.append_assoc, scanExponent, if_pos hmark, hscan]
      dsimp only
      rw [htake, hdrop, if_neg hne]

theorem NumberText.WellFormed.whole_ne (h : n.WellFormed) :
    n.whole ≠ [] ∧ isDigits n.whole := by
  rcases h.whole with hzero | ⟨hne, hdigits, -⟩
  · rw [hzero]
    exact ⟨List.cons_ne_nil _ _, by simp [isDigits]⟩
  · exact ⟨hne, hdigits⟩

theorem head?_exponentChars (h : n.WellFormed) {rest : List Char} (hrest : EndsNumber rest) (c : Char)
    (hc : (NumberText.exponentChars n.exponent ++ rest).head? = some c) : c.isDigit = false ∧ c ≠ '.' := by
  unfold NumberText.exponentChars at hc
  cases hexponent : n.exponent with
  | none =>
      rw [hexponent] at hc
      exact ⟨(hrest c hc).1, (hrest c hc).2.1⟩
  | some exponent =>
      obtain ⟨mark, sign, digits⟩ := exponent
      rw [hexponent] at hc
      obtain rfl : mark = c := Option.some.inj hc
      rcases (h.exponent mark sign digits hexponent).1 with rfl | rfl <;> decide

/-- The decoder reads what a number writes. -/
theorem scanNumber_render (h : n.WellFormed) {rest : List Char} (hrest : EndsNumber rest) :
    scanNumber (n.render ++ rest) = some (n, rest) := by
  have hfraction : ∀ c, (NumberText.fractionChars n.fraction ++ (NumberText.exponentChars n.exponent ++ rest)).head? = some c →
      c.isDigit = false := by
    intro c hc
    unfold NumberText.fractionChars at hc
    split at hc
    next => exact (head?_exponentChars h hrest c hc).1
    next =>
      obtain rfl : '.' = c := Option.some.inj hc
      decide
  have htext : n.render ++ rest =
      NumberText.signChars n.negative ++ (n.whole ++ (NumberText.fractionChars n.fraction ++ (NumberText.exponentChars n.exponent ++ rest))) := by
    simp only [NumberText.render, List.append_assoc]
  unfold scanNumber
  rw [htext, scanSign_render h.whole_ne]
  dsimp only
  rw [scanWhole_render h hfraction]
  dsimp only
  rw [scanFraction_render h (head?_exponentChars h hrest)]
  dsimp only
  rw [scanExponent_render h hrest]
  exact if_neg h.whole_ne.1

section Reading

variable {s rest : List Char}

theorem scanSign_eq {negative : Bool} (h : scanSign s = (negative, rest)) :
    s = NumberText.signChars negative ++ rest := by
  unfold scanSign at h
  split at h
  next =>
    obtain ⟨rfl, rfl⟩ := Prod.mk.inj h
    rfl
  next =>
    obtain ⟨rfl, rfl⟩ := Prod.mk.inj h
    rfl

theorem scanWhole_eq {whole : List Char} (h : scanWhole s = (whole, rest)) :
    s = whole ++ rest ∧
      (whole = ['0'] ∨ NumberText.isDigits whole ∧ whole.head? ≠ some '0') := by
  unfold scanWhole at h
  split at h
  next =>
    obtain ⟨rfl, rfl⟩ := Prod.mk.inj h
    exact ⟨rfl, .inl rfl⟩
  next hzero =>
    obtain ⟨rfl, rfl⟩ := Prod.mk.inj h
    refine ⟨List.takeWhile_append_dropWhile.symm, .inr ⟨isDigits_takeWhile _, fun hhead => ?_⟩⟩
    cases s with
    | nil => cases hhead
    | cons c tail =>
        rw [List.takeWhile_cons] at hhead
        split at hhead
        next =>
          obtain rfl : c = '0' := Option.some.inj hhead
          exact hzero tail rfl
        next => cases hhead

theorem scanFraction_eq {fraction : List Char} (h : scanFraction s = (fraction, rest)) :
    s = NumberText.fractionChars fraction ++ rest ∧ NumberText.isDigits fraction := by
  unfold scanFraction at h
  split at h
  next tail =>
    split at h
    next =>
      obtain ⟨rfl, rfl⟩ := Prod.mk.inj h
      exact ⟨rfl, fun _ hc => absurd hc List.not_mem_nil⟩
    next hdigits =>
      obtain ⟨rfl, rfl⟩ := Prod.mk.inj h
      rw [NumberText.fractionChars, if_neg hdigits, List.cons_append,
        List.takeWhile_append_dropWhile]
      exact ⟨rfl, isDigits_takeWhile _⟩
  next =>
    obtain ⟨rfl, rfl⟩ := Prod.mk.inj h
    exact ⟨rfl, fun _ hc => absurd hc List.not_mem_nil⟩

theorem scanExponentSign_eq {sign : List Char} (h : scanExponentSign s = (sign, rest)) :
    s = sign ++ rest ∧ (sign = [] ∨ sign = ['+'] ∨ sign = ['-']) := by
  unfold scanExponentSign at h
  split at h
  next =>
    obtain ⟨rfl, rfl⟩ := Prod.mk.inj h
    exact ⟨rfl, .inr (.inl rfl)⟩
  next =>
    obtain ⟨rfl, rfl⟩ := Prod.mk.inj h
    exact ⟨rfl, .inr (.inr rfl)⟩
  next =>
    obtain ⟨rfl, rfl⟩ := Prod.mk.inj h
    exact ⟨rfl, .inl rfl⟩

theorem isExponent_none : NumberText.isExponent none := by
  intro mark sign digits heq
  cases heq

theorem scanExponent_eq {exponent : Option (Char × List Char × List Char)}
    (h : scanExponent s = (exponent, rest)) :
    s = NumberText.exponentChars exponent ++ rest ∧ NumberText.isExponent exponent := by
  cases s with
  | nil =>
      obtain ⟨rfl, rfl⟩ := Prod.mk.inj h
      exact ⟨rfl, isExponent_none⟩
  | cons mark tail =>
      rw [scanExponent] at h
      split at h
      next hmark =>
        generalize hread : scanExponentSign tail = signRead at h
        obtain ⟨sign, tail'⟩ := signRead
        obtain ⟨htail, hsign⟩ := scanExponentSign_eq hread
        dsimp only at h
        by_cases hdigits : tail'.takeWhile Char.isDigit = []
        · rw [if_pos hdigits] at h
          obtain ⟨rfl, rfl⟩ := Prod.mk.inj h
          exact ⟨rfl, isExponent_none⟩
        · rw [if_neg hdigits] at h
          obtain ⟨rfl, rfl⟩ := Prod.mk.inj h
          refine ⟨?_, fun mark' sign' digits' heq => ?_⟩
          · rw [NumberText.exponentChars, List.cons_append, List.append_assoc,
              List.takeWhile_append_dropWhile, ← htail]
          · cases heq
            exact ⟨hmark, hsign, hdigits, isDigits_takeWhile _⟩
      next =>
        obtain ⟨rfl, rfl⟩ := Prod.mk.inj h
        exact ⟨rfl, isExponent_none⟩

/-- What the decoder reads as a number is written by it. -/
theorem writes_of_scanNumber (h : scanNumber s = some (n, rest)) :
    n.WellFormed ∧ s = n.render ++ rest := by
  unfold scanNumber at h
  generalize hsign : scanSign s = sign at h
  obtain ⟨negative, s₁⟩ := sign
  dsimp only at h
  generalize hwhole : scanWhole s₁ = wholeRead at h
  obtain ⟨whole, s₂⟩ := wholeRead
  dsimp only at h
  generalize hfraction : scanFraction s₂ = fractionRead at h
  obtain ⟨fraction, s₃⟩ := fractionRead
  dsimp only at h
  generalize hexponent : scanExponent s₃ = exponentRead at h
  obtain ⟨exponent, s₄⟩ := exponentRead
  dsimp only at h
  split at h
  next => cases h
  next hne =>
    obtain ⟨rfl, rfl⟩ := Prod.mk.inj (Option.some.inj h)
    obtain ⟨hwholeText, hwhole⟩ := scanWhole_eq hwhole
    obtain ⟨hfractionText, hfraction⟩ := scanFraction_eq hfraction
    obtain ⟨hexponentText, hexponent⟩ := scanExponent_eq hexponent
    refine ⟨⟨hwhole.imp_right fun h => ⟨hne, h⟩, hfraction, hexponent⟩, ?_⟩
    simp only [NumberText.render, List.append_assoc]
    rw [← hexponentText, ← hfractionText, ← hwholeText]
    exact scanSign_eq hsign

end Reading

end Numbers

section Scalars

/-- A character of a constant or a number. -/
def isScalarChar (c : Char) : Bool := c.isAlphanum || c = '+' || c = '-' || c = '.'

theorem isScalarChar_of_isDigit {c : Char} (h : c.isDigit = true) : isScalarChar c = true := by
  simp [isScalarChar, Char.isAlphanum, h]

theorem NumberText.WellFormed.scalarChars {n : NumberText} (h : n.WellFormed) :
    n.render ≠ [] ∧ ∀ c ∈ n.render, isScalarChar c = true := by
  constructor
  · intro hnil
    have hwhole : n.whole = [] := by
      have hlength := congrArg List.length hnil
      simp only [render, List.length_append, List.length_nil] at hlength
      exact List.eq_nil_of_length_eq_zero (by omega)
    exact h.whole_ne.1 hwhole
  · intro c hc
    unfold render at hc
    rcases List.mem_append.1 hc with hc | hc
    · rcases List.mem_append.1 hc with hc | hc
      · rcases List.mem_append.1 hc with hc | hc
        · unfold signChars at hc
          split at hc
          next =>
            rw [List.mem_singleton.1 hc]
            decide
          next => cases hc
        · exact isScalarChar_of_isDigit (h.whole_ne.2 c hc)
      · unfold fractionChars at hc
        split at hc
        next => cases hc
        next =>
          rcases List.mem_cons.1 hc with rfl | hc
          · decide
          · exact isScalarChar_of_isDigit (h.fraction c hc)
    · cases hexponent : n.exponent with
      | none =>
          rw [hexponent] at hc
          cases hc
      | some exponent =>
          obtain ⟨mark, sign, digits⟩ := exponent
          obtain ⟨hmark, hsign, -, hdigits⟩ := h.exponent mark sign digits hexponent
          rw [hexponent, exponentChars] at hc
          rcases List.mem_cons.1 hc with rfl | hc
          · rcases hmark with rfl | rfl <;> decide
          · rcases List.mem_append.1 hc with hc | hc
            · rcases hsign with rfl | rfl | rfl
              · cases hc
              · rw [List.mem_singleton.1 hc]
                decide
              · rw [List.mem_singleton.1 hc]
                decide
            · exact isScalarChar_of_isDigit (hdigits c hc)

variable {ε : Type} {hooks : Hooks ε} {s rest : List Char} {v : Value}

/-- A scalar is read from characters of scalars. -/
theorem token_of_scanScalar (h : scanScalar hooks s = .ok (v, rest)) :
    ∃ token, token ≠ [] ∧ s = token ++ rest ∧ ∀ c ∈ token, isScalarChar c = true := by
  have hconstant : ∀ {word tail : List Char}, (hooks.parseConstant word).map (·, tail) =
      .ok (v, rest) → word ≠ [] → (∀ c ∈ word, isScalarChar c = true) →
      ∃ token, token ≠ [] ∧ word ++ tail = token ++ rest ∧
        ∀ c ∈ token, isScalarChar c = true := by
    intro word tail h hne hword
    cases hparsed : hooks.parseConstant word with
    | error e =>
        rw [hparsed] at h
        cases h
    | ok value =>
        rw [hparsed] at h
        cases h
        exact ⟨word, hne, rfl, hword⟩
  unfold scanScalar at h
  split at h
  next =>
    cases h
    exact ⟨['n', 'u', 'l', 'l'], List.cons_ne_nil _ _, rfl, by simp [isScalarChar]⟩
  next =>
    cases h
    exact ⟨['t', 'r', 'u', 'e'], List.cons_ne_nil _ _, rfl, by simp [isScalarChar]⟩
  next =>
    cases h
    exact ⟨['f', 'a', 'l', 's', 'e'], List.cons_ne_nil _ _, rfl, by simp [isScalarChar]⟩
  next => exact hconstant h (List.cons_ne_nil _ _) (by simp [isScalarChar])
  next => exact hconstant h (List.cons_ne_nil _ _) (by simp [isScalarChar])
  next => exact hconstant h (List.cons_ne_nil _ _) (by simp [isScalarChar])
  next =>
    split at h
    next n tail hnumber =>
      split at h
      next =>
        cases h
        obtain ⟨hwf, htext⟩ := writes_of_scanNumber hnumber
        exact ⟨n.render, hwf.scalarChars.1, htext, hwf.scalarChars.2⟩
      next => cases h
    next => cases h

/-- The decoder reads a number that the interpreter converts. -/
theorem scanScalar_number {n : NumberText} (h : n.WellFormed) (hconverts : n.converts = true)
    (hrest : EndsNumber rest) : scanScalar hooks (n.render ++ rest) = .ok (.number n, rest) := by
  have hnumber := scanNumber_render h hrest
  have hhead : ∃ c tail, n.render ++ rest = c :: tail ∧
      (c.isDigit = true ∨ c = '-' ∧ ∃ d more, tail = d :: more ∧ d.isDigit = true) := by
    obtain ⟨d, whole, hwhole⟩ := List.exists_cons_of_ne_nil h.whole_ne.1
    have hd : d.isDigit = true := h.whole_ne.2 d (hwhole ▸ List.mem_cons_self)
    simp only [NumberText.render, hwhole, NumberText.signChars, List.append_assoc,
      List.cons_append]
    cases n.negative with
    | true => exact ⟨'-', _, rfl, .inr ⟨rfl, d, _, rfl, hd⟩⟩
    | false => exact ⟨d, _, rfl, .inl hd⟩
  obtain ⟨c, tail, htext, hcase⟩ := hhead
  rw [htext] at hnumber ⊢
  have hletter : ∀ l : Char, l.isDigit = false → l ≠ '-' → c ≠ l := by
    rintro l hl hminus rfl
    rcases hcase with hdigit | ⟨hdash, -⟩
    · rw [hl] at hdigit
      cases hdigit
    · exact hminus hdash
  unfold scanScalar
  split
  next heq => exact absurd (List.cons.inj heq).1 (hletter 'n' (by decide) (by decide))
  next heq => exact absurd (List.cons.inj heq).1 (hletter 't' (by decide) (by decide))
  next heq => exact absurd (List.cons.inj heq).1 (hletter 'f' (by decide) (by decide))
  next heq => exact absurd (List.cons.inj heq).1 (hletter 'N' (by decide) (by decide))
  next heq => exact absurd (List.cons.inj heq).1 (hletter 'I' (by decide) (by decide))
  next heq =>
    obtain ⟨hminus, htail⟩ := List.cons.inj heq
    rcases hcase with hdigit | ⟨-, d, more, hmore, hd⟩
    · rw [hminus] at hdigit
      cases hdigit
    · rw [hmore] at htail
      rw [(List.cons.inj htail).1] at hd
      cases hd
  next => rw [hnumber]; exact if_pos hconverts

end Scalars

end SearchTrust.Text.JsonText
