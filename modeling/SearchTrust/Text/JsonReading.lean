/-
The decoder reads the value that the grammar writes.
-/
import SearchTrust.Text.JsonLexemes

namespace SearchTrust.Text.JsonText

section Blanks

variable {blank s : List Char}

theorem skipBlank_append (h : isBlank blank) (s : List Char) :
    skipBlank (blank ++ s) = skipBlank s := List.dropWhile_append_of_pos h

theorem skipBlank_of_not {c : Char} (h : isJsonSpace c = false) (s : List Char) :
    skipBlank (c :: s) = c :: s :=
  List.dropWhile_cons_of_neg (by rw [h]; exact Bool.false_ne_true)

theorem skipBlank_eq_nil (h : isBlank blank) : skipBlank blank = [] :=
  List.dropWhile_eq_nil_iff.2 h

theorem endsNumber_cons {c : Char} (h : c.isDigit = false ∧ c ≠ '.' ∧ c ≠ 'e' ∧ c ≠ 'E')
    (s : List Char) : EndsNumber (c :: s) := by
  rintro d hd
  rw [← Option.some.inj hd]
  exact h

theorem endsNumber_append (h : isBlank blank) (hs : EndsNumber s) : EndsNumber (blank ++ s) := by
  cases blank with
  | nil => exact hs
  | cons c blank =>
      have hc := h c List.mem_cons_self
      have hcases : c = ' ' ∨ c = '\t' ∨ c = '\n' ∨ c = '\r' := by
        simpa [isJsonSpace, or_assoc] using hc
      refine endsNumber_cons ?_ _
      rcases hcases with rfl | rfl | rfl | rfl <;> decide

/-- How a value begins. -/
theorem head_of_writes {content : Content} {t : List Char} (h : Writes content t) {v : Value}
    (hv : content = .value v) : ∃ c tail, t = c :: tail ∧ isJsonSpace c = false ∧ c ≠ ']' ∧
      c ≠ Char.ofNat 0xFEFF := by
  cases h with
  | null => exact ⟨'n', _, rfl, by decide, by decide, by decide⟩
  | true => exact ⟨'t', _, rfl, by decide, by decide, by decide⟩
  | false => exact ⟨'f', _, rfl, by decide, by decide, by decide⟩
  | number n hn =>
      obtain ⟨c, tail, hcons⟩ := List.exists_cons_of_ne_nil hn.scalarChars.1
      refine ⟨c, tail, hcons, ?_, ?_, ?_⟩
      · have hc := hn.scalarChars.2 c (hcons ▸ List.mem_cons_self)
        by_contra hspace
        have hcases : c = ' ' ∨ c = '\t' ∨ c = '\n' ∨ c = '\r' := by
          simpa [isJsonSpace, or_assoc] using eq_true_of_ne_false hspace
        rcases hcases with rfl | rfl | rfl | rfl <;> revert hc <;> decide
      · rintro rfl
        have hc := hn.scalarChars.2 ']' (hcons ▸ List.mem_cons_self)
        revert hc
        decide
      · rintro rfl
        have hc := hn.scalarChars.2 _ (hcons ▸ List.mem_cons_self)
        revert hc
        decide
  | string _ => exact ⟨'"', _, rfl, by decide, by decide, by decide⟩
  | emptyArray _ => exact ⟨'[', _, rfl, by decide, by decide, by decide⟩
  | array _ => exact ⟨'[', _, rfl, by decide, by decide, by decide⟩
  | emptyObject _ => exact ⟨'{', _, rfl, by decide, by decide, by decide⟩
  | object _ => exact ⟨'{', _, rfl, by decide, by decide, by decide⟩
  | item _ _ _ => cases hv
  | items _ _ _ _ => cases hv
  | field _ _ _ _ _ _ => cases hv
  | fields _ _ _ _ _ _ _ => cases hv

end Blanks

section Steps

variable {ε : Type} {hooks : Hooks ε} {fuel depth : ℕ} {s rest : List Char}

theorem andThen_result {α β : Type} {first : Run ε α} {next : α → List Char → Run ε β} {a : α}
    (h : first.result = .ok (a, rest)) :
    (first.andThen next).result = (next a rest).result := by
  unfold Run.andThen
  rw [h]

theorem decodeValue_array (h : ∀ tail, skipBlank s ≠ ']' :: tail) :
    (decodeValue hooks (fuel + 1) depth ('[' :: s)).result =
      (decodeItems hooks fuel (depth + 1) [] (skipBlank s)).result := by
  rw [decodeValue]
  split
  next tail heq => exact absurd heq (h tail)
  next => rfl

theorem decodeValue_object (h : ∀ tail, skipBlank s ≠ '}' :: tail) :
    (decodeValue hooks (fuel + 1) depth ('{' :: s)).result =
      (decodeFields hooks fuel (depth + 1) [] (skipBlank s)).result := by
  rw [decodeValue]
  split
  next tail heq => exact absurd heq (h tail)
  next => rfl

theorem decodeItems_last {done : List Value} {item : Value} {middle : List Char}
    (hitem : (decodeValue hooks fuel depth s).result = .ok (item, middle))
    (hclose : skipBlank middle = ']' :: rest) :
    (decodeItems hooks (fuel + 1) depth done s).result = .ok (.array (done ++ [item]), rest) := by
  rw [decodeItems, andThen_result hitem, hclose]
  rfl

theorem decodeItems_next {done : List Value} {item : Value} {middle : List Char}
    (hitem : (decodeValue hooks fuel depth s).result = .ok (item, middle))
    (hcomma : skipBlank middle = ',' :: rest) :
    (decodeItems hooks (fuel + 1) depth done s).result =
      (decodeItems hooks fuel depth (done ++ [item]) (skipBlank rest)).result := by
  rw [decodeItems, andThen_result hitem, hcomma]
  rfl

/-- The step of a field: its key and its value are read, and what follows decides. -/
theorem decodeFields_step {done : List (List ℕ × Value)} {units : List ℕ} {value : Value}
    {key middle between tail : List Char} (hkey : WritesUnits units key) (hmiddle : isBlank middle)
    (hvalue : (decodeValue hooks fuel depth (skipBlank between)).result = .ok (value, tail)) :
    (decodeFields hooks (fuel + 1) depth done
        ('"' :: (key ++ '"' :: (middle ++ ':' :: between)))).result =
      (match skipBlank tail with
        | '}' :: rest => Run.done (hooks.objectPairs (done ++ [(joinPoints units, value)])) rest
        | ',' :: rest =>
            decodeFields hooks fuel depth (done ++ [(joinPoints units, value)]) (skipBlank rest)
        | _ => .fail hooks.malformed).result := by
  have hstring : (Run.produced (scanString hooks (key ++ '"' :: (middle ++ ':' :: between)))).result =
      .ok (joinPoints units, middle ++ ':' :: between) := by
    rw [scanString, scanUnits_of_writes hkey]
    rfl
  have hcolon : skipBlank (middle ++ ':' :: between) = ':' :: between := by
    rw [skipBlank_append hmiddle, skipBlank_of_not (by decide)]
  rw [decodeFields, andThen_result hstring, hcolon]
  exact andThen_result hvalue

end Steps

section Reading

variable {ε : Type} (hooks : Hooks ε)

/-- Integers that the interpreter converts, and no key of an object twice. -/
def readable : Demand where
  number := NumberText.converts
  text _ := true
  keys keys := decide keys.Nodup

/-- The decoder reads a content where its text stands. -/
def Reads : Content → List Char → Prop
  | .value v, t => meets readable v = true → ∀ fuel depth rest, 2 * t.length ≤ fuel →
      EndsNumber rest → (decodeValue hooks fuel depth (t ++ rest)).result = .ok (v, rest)
  | .items items, t => itemsMeet readable items = true → ∀ fuel depth done rest,
      2 * t.length + 1 ≤ fuel →
      (∀ tail, skipBlank (t ++ ']' :: rest) ≠ ']' :: tail) ∧
      (decodeItems hooks fuel depth done (skipBlank (t ++ ']' :: rest))).result =
        .ok (.array (done ++ items), rest)
  | .fields fields, t => fieldsMeet readable fields = true → ∀ fuel depth done rest,
      ((done ++ fields).map Prod.fst).Nodup → 2 * t.length + 1 ≤ fuel →
      (∀ tail, skipBlank (t ++ '}' :: rest) ≠ '}' :: tail) ∧
      (decodeFields hooks fuel depth done (skipBlank (t ++ '}' :: rest))).result =
        .ok (.object (done ++ fields), rest)

variable {hooks}

/-- A container of a value that is read begins with a value or a quote. -/
theorem skipBlank_value {before body : List Char} {v : Value} (hbefore : isBlank before)
    (h : Writes (.value v) body) (after : List Char) : skipBlank (before ++ (body ++ after)) = body ++ after ∧
      ∀ tail, body ++ after ≠ ']' :: tail := by
  obtain ⟨c, tail, rfl, hspace, hclose, -⟩ := head_of_writes h rfl
  rw [skipBlank_append hbefore, List.cons_append, skipBlank_of_not hspace]
  exact ⟨rfl, fun tail' heq => hclose (List.cons.inj heq).1⟩

/-- The decoder reads what the grammar writes, by induction over the derivation. -/
theorem reads_of_writes (hpairs : ∀ fields : List (List ℕ × Value),
    (fields.map Prod.fst).Nodup → hooks.objectPairs fields = .ok (.object fields))
    {content : Content} {t : List Char} (h : Writes content t) : Reads hooks content t := by
  induction h with
  | null =>
      intro _ fuel depth rest hfuel _
      obtain ⟨fuel, rfl⟩ : ∃ m, fuel = m + 1 := ⟨fuel - 1, by simp at hfuel; omega⟩
      rfl
  | true =>
      intro _ fuel depth rest hfuel _
      obtain ⟨fuel, rfl⟩ : ∃ m, fuel = m + 1 := ⟨fuel - 1, by simp at hfuel; omega⟩
      rfl
  | false =>
      intro _ fuel depth rest hfuel _
      obtain ⟨fuel, rfl⟩ : ∃ m, fuel = m + 1 := ⟨fuel - 1, by simp at hfuel; omega⟩
      rfl
  | number n hn =>
      intro hmeets fuel depth rest hfuel hrest
      have hpos := List.length_pos_iff.2 hn.scalarChars.1
      obtain ⟨fuel, rfl⟩ : ∃ m, fuel = m + 1 := ⟨fuel - 1, by omega⟩
      obtain ⟨c, tail, hcons⟩ := List.exists_cons_of_ne_nil hn.scalarChars.1
      have hc := hn.scalarChars.2 c (hcons ▸ List.mem_cons_self)
      have hscalar : scanScalar hooks (n.render ++ rest) = .ok (.number n, rest) :=
        scanScalar_number hn hmeets hrest
      have hne : ∀ {sign : Char} {more : List Char}, isScalarChar sign = false →
          n.render ++ rest = sign :: more → False := by
        intro sign more hsign heq
        rw [hcons] at heq
        rw [(List.cons.inj heq).1, hsign] at hc
        cases hc
      rw [decodeValue, hscalar]
      · rfl
      · exact fun more heq => hne (by decide) heq
      · exact fun more heq => hne (by decide) heq
      · exact fun more heq => hne (by decide) heq
  | string hbody =>
      intro _ fuel depth rest hfuel _
      obtain ⟨fuel, rfl⟩ : ∃ m, fuel = m + 1 := ⟨fuel - 1, by simp at hfuel; omega⟩
      rw [List.cons_append, List.append_assoc, decodeValue, scanString]
      rw [show ['"'] ++ rest = '"' :: rest from rfl, scanUnits_of_writes hbody]
      rfl
  | emptyArray hblank =>
      intro _ fuel depth rest hfuel _
      obtain ⟨fuel, rfl⟩ : ∃ m, fuel = m + 1 := ⟨fuel - 1, by simp at hfuel; omega⟩
      rw [List.cons_append, List.append_assoc, decodeValue, skipBlank_append hblank]
      rfl
  | array hbody ih =>
      intro hmeets fuel depth rest hfuel _
      obtain ⟨fuel, rfl⟩ : ∃ m, fuel = m + 1 := ⟨fuel - 1, by simp at hfuel; omega⟩
      simp only [List.length_cons, List.length_append, List.length_nil] at hfuel
      obtain ⟨hhead, hitems⟩ := ih hmeets fuel (depth + 1) [] rest (by omega)
      rw [List.cons_append, List.append_assoc]
      exact (decodeValue_array hhead).trans hitems
  | emptyObject hblank =>
      intro _ fuel depth rest hfuel _
      obtain ⟨fuel, rfl⟩ : ∃ m, fuel = m + 1 := ⟨fuel - 1, by simp at hfuel; omega⟩
      rw [List.cons_append, List.append_assoc, decodeValue, skipBlank_append hblank]
      have hempty := hpairs [] List.nodup_nil
      change (Run.done (hooks.objectPairs []) rest).result = _
      rw [hempty]
      rfl
  | object hbody ih =>
      intro hmeets fuel depth rest hfuel _
      obtain ⟨fuel, rfl⟩ : ∃ m, fuel = m + 1 := ⟨fuel - 1, by simp at hfuel; omega⟩
      simp only [List.length_cons, List.length_append, List.length_nil] at hfuel
      rw [meets, Bool.and_eq_true] at hmeets
      obtain ⟨hhead, hfields⟩ := ih hmeets.2 fuel (depth + 1) [] rest
        (of_decide_eq_true hmeets.1) (by omega)
      rw [List.cons_append, List.append_assoc]
      exact (decodeValue_object hhead).trans hfields
  | @item before after body value hbefore hvalue hafter ih =>
      intro hmeets fuel depth done rest hfuel
      obtain ⟨fuel, rfl⟩ : ∃ m, fuel = m + 1 := ⟨fuel - 1, by omega⟩
      simp only [List.length_append] at hfuel
      rw [itemsMeet, Bool.and_eq_true] at hmeets
      have hends : EndsNumber (after ++ ']' :: rest) :=
        endsNumber_append hafter (endsNumber_cons (by decide) _)
      have hread := ih hmeets.1 fuel depth (after ++ ']' :: rest) (by omega) hends
      obtain ⟨hskip, hhead⟩ := skipBlank_value hbefore hvalue (after ++ ']' :: rest)
      rw [List.append_assoc, List.append_assoc, hskip]
      refine ⟨hhead, decodeItems_last hread ?_⟩
      rw [skipBlank_append hafter, skipBlank_of_not (by decide)]
  | @items before after body tail value items hbefore hvalue hafter _ ih ihrest =>
      intro hmeets fuel depth done rest hfuel
      obtain ⟨fuel, rfl⟩ : ∃ m, fuel = m + 1 := ⟨fuel - 1, by omega⟩
      simp only [List.length_append, List.length_cons] at hfuel
      rw [itemsMeet, Bool.and_eq_true] at hmeets
      have hends : EndsNumber (after ++ ',' :: (tail ++ ']' :: rest)) :=
        endsNumber_append hafter (endsNumber_cons (by decide) _)
      have hread := ih hmeets.1 fuel depth _ (by omega) hends
      obtain ⟨hskip, hhead⟩ :=
        skipBlank_value hbefore hvalue (after ++ ',' :: (tail ++ ']' :: rest))
      obtain ⟨-, hitems⟩ := ihrest hmeets.2 fuel depth (done ++ [value]) rest (by omega)
      have htext : before ++ (body ++ (after ++ ',' :: tail)) ++ ']' :: rest =
          before ++ (body ++ (after ++ ',' :: (tail ++ ']' :: rest))) := by
        simp only [List.append_assoc, List.cons_append]
      have hcomma : skipBlank (after ++ ',' :: (tail ++ ']' :: rest)) =
          ',' :: (tail ++ ']' :: rest) := by
        rw [skipBlank_append hafter, skipBlank_of_not (by decide)]
      rw [htext, hskip]
      refine ⟨hhead, (decodeItems_next hread hcomma).trans ?_⟩
      rw [hitems, List.append_assoc]
      rfl
  | @field before middle between after key body units value hbefore hkey hmiddle hbetween hvalue
      hafter ih =>
      intro hmeets fuel depth done rest hnodup hfuel
      obtain ⟨fuel, rfl⟩ : ∃ m, fuel = m + 1 := ⟨fuel - 1, by omega⟩
      simp only [List.length_append, List.length_cons] at hfuel
      rw [fieldsMeet, Bool.and_eq_true, Bool.and_eq_true] at hmeets
      have hends : EndsNumber (after ++ '}' :: rest) :=
        endsNumber_append hafter (endsNumber_cons (by decide) _)
      have hread := ih hmeets.1.2 fuel depth _ (by omega) hends
      rw [← (skipBlank_value hbetween hvalue (after ++ '}' :: rest)).1] at hread
      have htext : before ++ '"' :: (key ++ '"' :: (middle ++ ':' :: (between ++ (body ++ after)))) ++
          '}' :: rest = before ++ '"' :: (key ++ '"' :: (middle ++ ':' ::
            (between ++ (body ++ (after ++ '}' :: rest))))) := by
        simp only [List.append_assoc, List.cons_append]
      have hclose : skipBlank (after ++ '}' :: rest) = '}' :: rest := by
        rw [skipBlank_append hafter, skipBlank_of_not (by decide)]
      rw [htext, skipBlank_append hbefore, skipBlank_of_not (by decide)]
      refine ⟨fun tail heq => absurd (List.cons.inj heq).1 (by decide), ?_⟩
      rw [decodeFields_step hkey hmiddle hread, hclose]
      change (Run.done (hooks.objectPairs (done ++ [(joinPoints units, value)])) rest).result = _
      rw [hpairs _ hnodup]
      rfl
  | @fields before middle between after key body tail units value fields hbefore hkey hmiddle
      hbetween hvalue hafter _ ih ihrest =>
      intro hmeets fuel depth done rest hnodup hfuel
      obtain ⟨fuel, rfl⟩ : ∃ m, fuel = m + 1 := ⟨fuel - 1, by omega⟩
      simp only [List.length_append, List.length_cons] at hfuel
      rw [fieldsMeet, Bool.and_eq_true, Bool.and_eq_true] at hmeets
      have hends : EndsNumber (after ++ ',' :: (tail ++ '}' :: rest)) :=
        endsNumber_append hafter (endsNumber_cons (by decide) _)
      have hread := ih hmeets.1.2 fuel depth _ (by omega) hends
      rw [← (skipBlank_value hbetween hvalue (after ++ ',' :: (tail ++ '}' :: rest))).1]
        at hread
      have hnodup' : ((done ++ [(joinPoints units, value)] ++ fields).map Prod.fst).Nodup := by
        rwa [List.append_assoc]
      obtain ⟨-, hfields⟩ := ihrest hmeets.2 fuel depth (done ++ [(joinPoints units, value)]) rest
        hnodup' (by omega)
      have htext : before ++ '"' :: (key ++ '"' :: (middle ++ ':' ::
            (between ++ (body ++ (after ++ ',' :: tail))))) ++ '}' :: rest =
          before ++ '"' :: (key ++ '"' :: (middle ++ ':' ::
            (between ++ (body ++ (after ++ ',' :: (tail ++ '}' :: rest)))))) := by
        simp only [List.append_assoc, List.cons_append]
      have hcomma : skipBlank (after ++ ',' :: (tail ++ '}' :: rest)) =
          ',' :: (tail ++ '}' :: rest) := by
        rw [skipBlank_append hafter, skipBlank_of_not (by decide)]
      rw [htext, skipBlank_append hbefore, skipBlank_of_not (by decide)]
      refine ⟨fun tail heq => absurd (List.cons.inj heq).1 (by decide), ?_⟩
      rw [decodeFields_step hkey hmiddle hread, hcomma]
      change (decodeFields hooks fuel depth (done ++ [(joinPoints units, value)])
        (skipBlank (tail ++ '}' :: rest))).result = _
      rw [hfields, List.append_assoc]
      rfl

/-- The decoder reads the value of a document. -/
theorem loads_of_writes (hpairs : ∀ fields : List (List ℕ × Value),
    (fields.map Prod.fst).Nodup → hooks.objectPairs fields = .ok (.object fields)) {v : Value}
    {t : List Char} (h : WritesDocument v t) (hmeets : meets readable v = true) :
    (loads hooks t).result = .ok (v, []) := by
  obtain ⟨before, body, after, hbefore, hvalue, hafter, rfl⟩ := h
  have hends : EndsNumber after := by
    have hnil : EndsNumber [] := fun c hc => by cases hc
    have happend := endsNumber_append hafter hnil
    rwa [List.append_nil] at happend
  have hread : (decodeValue hooks (2 * (before ++ (body ++ after)).length + 1) 0
      (body ++ after)).result = .ok (v, after) := by
    refine reads_of_writes hpairs hvalue hmeets _ 0 after ?_ hends
    rw [List.length_append, List.length_append]
    omega
  have hskip := (skipBlank_value hbefore hvalue after).1
  have hmark : (before ++ (body ++ after)).head? ≠ some (Char.ofNat 0xFEFF) := by
    intro hhead
    cases before with
    | nil =>
        obtain ⟨c, tail, rfl, -, -, hne⟩ := head_of_writes hvalue rfl
        exact hne (Option.some.inj hhead)
    | cons c before =>
        have hc := hbefore c List.mem_cons_self
        rw [Option.some.inj hhead] at hc
        revert hc
        decide
  unfold loads
  rw [if_neg hmark, hskip, andThen_result hread, if_pos (skipBlank_eq_nil hafter)]
  rfl

end Reading

end SearchTrust.Text.JsonText
