/-
Percent escapes: a text is cut into its escapes and its other characters, and what decodes,
rewrites or compares escapes acts on these pieces one by one.
-/
import Mathlib.Data.Bool.AllAny
import Mathlib.Tactic.IntervalCases
import SearchTrust.Web.QueryText

namespace SearchTrust.Web

/-- A character of a text, or an escape with its two digits. -/
inductive Piece where
  | plain (c : Char)
  | escape (a b : Char)
deriving DecidableEq

def isHex (c : Char) : Bool := (hexValue c).isSome

/-- The pieces of a text, from the left. -/
def pieces : Text → List Piece
  | [] => []
  | '%' :: a :: b :: rest =>
      if isHex a && isHex b then .escape a b :: pieces rest
      else .plain '%' :: pieces (a :: b :: rest)
  | c :: rest => .plain c :: pieces rest

namespace Piece

def render : Piece → Text
  | plain c => [c]
  | escape a b => ['%', a, b]

/-- The number that an escape stands for. -/
def code (a b : Char) : ℕ := 16 * (hexValue a).getD 0 + (hexValue b).getD 0

/-- An escape is of two digits, and no other piece is a percent sign. -/
def Sound : Piece → Prop
  | plain c => c ≠ '%'
  | escape a b => isHex a = true ∧ isHex b = true

/-- The byte that an ASCII piece stands for. -/
def byte : Piece → UInt8
  | plain c => asciiByte c
  | escape a b => UInt8.ofNat (code a b)

/-- The escape in upper case. -/
def upper : Piece → Piece
  | plain c => plain c
  | escape a b => escape a.toUpper b.toUpper

/-- The escape of an unreserved character is decoded, and others are in upper case. -/
def normal : Piece → Piece
  | plain c => plain c
  | escape a b =>
      if isAlwaysSafe (Char.ofNat (code a b)) then plain (Char.ofNat (code a b))
      else escape a.toUpper b.toUpper

end Piece

section Cutting

theorem pieces_escape {a b : Char} (ha : isHex a = true) (hb : isHex b = true) (rest : Text) :
    pieces ('%' :: a :: b :: rest) = .escape a b :: pieces rest := by
  rw [pieces, ha, hb]
  rfl

theorem pieces_plain {c : Char} (hc : c ≠ '%') (rest : Text) :
    pieces (c :: rest) = .plain c :: pieces rest := by
  rw [pieces]
  rintro a b rest' rfl
  exact absurd rfl hc

/-- An induction over a text by its pieces. -/
theorem pieces_induction {motive : Text → Prop} (nil : motive [])
    (escape : ∀ a b rest, isHex a = true → isHex b = true → motive rest →
      motive ('%' :: a :: b :: rest))
    (plain : ∀ c rest, pieces (c :: rest) = .plain c :: pieces rest → motive rest →
      motive (c :: rest)) (s : Text) : motive s := by
  induction s using pieces.induct with
  | case1 => exact nil
  | case2 a b rest hhex ih =>
      rw [Bool.and_eq_true] at hhex
      exact escape a b rest hhex.1 hhex.2 ih
  | case3 a b rest hhex ih =>
      refine plain '%' _ ?_ ih
      rw [pieces, if_neg hhex]
  | case4 c rest hno ih =>
      refine plain c rest ?_ ih
      rw [pieces]
      exact hno

theorem pieces_render (s : Text) : (pieces s).flatMap Piece.render = s := by
  induction s using pieces_induction with
  | nil => rfl
  | escape a b rest ha hb ih =>
      rw [pieces_escape ha hb, List.flatMap_cons, ih]
      rfl
  | plain c rest hcut ih =>
      rw [hcut, List.flatMap_cons, ih]
      rfl

/-- Sound pieces are the pieces of their text. -/
theorem pieces_flatMap_render {ps : List Piece} (h : ∀ p ∈ ps, p.Sound) :
    pieces (ps.flatMap Piece.render) = ps := by
  induction ps with
  | nil => rfl
  | cons p ps ih =>
      have hp := h p List.mem_cons_self
      have hps := ih fun p hp => h p (List.mem_cons_of_mem _ hp)
      rw [List.flatMap_cons]
      cases p with
      | plain c =>
          rw [Piece.render, List.singleton_append, pieces_plain hp, hps]
      | escape a b =>
          rw [Piece.render, List.cons_append, List.cons_append, List.cons_append, List.nil_append,
            pieces_escape hp.1 hp.2, hps]

/-- A character that is in no escape separates the pieces before it from those behind it. -/
theorem pieces_append {c : Char} (hc : isHex c = false) (hpercent : c ≠ '%') (s t : Text) :
    pieces (s ++ c :: t) = pieces s ++ .plain c :: pieces t := by
  induction s using pieces_induction with
  | nil => rw [List.nil_append, pieces_plain hpercent]; rfl
  | escape a b rest ha hb ih =>
      rw [List.cons_append, List.cons_append, List.cons_append, pieces_escape ha hb,
        pieces_escape ha hb, ih, List.cons_append]
  | plain d rest hcut ih =>
      have hcut' : pieces (d :: (rest ++ c :: t)) = .plain d :: pieces (rest ++ c :: t) := by
        by_cases hd : d = '%'
        · subst hd
          match rest with
          | [] => 
              match t with
              | [] => rfl
              | b :: t =>
                  rw [List.nil_append, pieces, hc]
                  rfl
          | [a] =>
              rw [List.singleton_append, pieces, hc, Bool.and_false]
              rfl
          | a :: b :: rest =>
              have hhex : ¬ (isHex a && isHex b) = true := by
                intro hhex
                rw [pieces, if_pos hhex] at hcut
                cases hcut
              rw [List.cons_append, List.cons_append, pieces, if_neg hhex]
        · exact pieces_plain hd _
      rw [List.cons_append, hcut', hcut, ih, List.cons_append]

theorem plain_mem_pieces {c : Char} (hc : isHex c = false) (hpercent : c ≠ '%') {s : Text} :
    .plain c ∈ pieces s ↔ c ∈ s := by
  constructor
  · intro h
    rw [← pieces_render s]
    exact List.mem_flatMap.2 ⟨_, h, List.mem_singleton_self _⟩
  · intro h
    obtain ⟨before, after, rfl⟩ := List.append_of_mem h
    rw [pieces_append hc hpercent]
    exact List.mem_append_right _ List.mem_cons_self

end Cutting

section Bytes

theorem unquoteToBytes_eq_map (s : Text) : unquoteToBytes s = (pieces s).map Piece.byte := by
  induction s using pieces_induction with
  | nil => rfl
  | escape a b rest ha hb ih =>
      obtain ⟨high, hhigh⟩ := Option.isSome_iff_exists.1 ha
      obtain ⟨low, hlow⟩ := Option.isSome_iff_exists.1 hb
      rw [pieces_escape ha hb, unquoteToBytes, hhigh, hlow, ih, List.map_cons, Piece.byte,
        Piece.code, hhigh, hlow]
      rfl
  | plain c rest hcut ih =>
      rw [hcut, List.map_cons, ← ih, Piece.byte]
      by_cases hc : c = '%'
      · subst hc
        match rest with
        | [] => rfl
        | [a] => rfl
        | a :: b :: rest =>
            have hhex : ¬ (isHex a && isHex b) = true := by
              intro hhex
              rw [pieces, if_pos hhex] at hcut
              cases hcut
            rw [unquoteToBytes]
            cases ha : hexValue a with
            | none => rfl
            | some high =>
                cases hb : hexValue b with
                | none => rfl
                | some low =>
                    rw [isHex, isHex, ha, hb] at hhex
                    exact absurd rfl hhex
      · rw [unquoteToBytes]
        intro a b rest' heq _
        exact hc heq

end Bytes

section Digits

/-- The digits of an escape. -/
def hexDigits : Text :=
  ['0', '1', '2', '3', '4', '5', '6', '7', '8', '9', 'a', 'b', 'c', 'd', 'e', 'f',
    'A', 'B', 'C', 'D', 'E', 'F']

theorem mem_hexDigits {c : Char} (h : isHex c = true) : c ∈ hexDigits := by
  have hrange : (48 ≤ c.toNat ∧ c.toNat ≤ 57) ∨ (97 ≤ c.toNat ∧ c.toNat ≤ 102) ∨
      (65 ≤ c.toNat ∧ c.toNat ≤ 70) := by
    unfold isHex hexValue at h
    split at h
    next hdigit => 
      left
      simpa [Char.isDigit, UInt32.le_iff_toNat_le] using hdigit
    next =>
      split at h
      next hlow => exact .inr (.inl hlow)
      next =>
        split at h
        next hhigh => exact .inr (.inr hhigh)
        next => cases h
  have hc : c = Char.ofNat c.toNat := (Char.ofNat_toNat c).symm
  generalize c.toNat = n at hrange hc
  subst hc
  rcases hrange with ⟨hle, hge⟩ | ⟨hle, hge⟩ | ⟨hle, hge⟩ <;> interval_cases n <;> decide

theorem hexValue_toUpper {c : Char} (h : isHex c = true) : hexValue c.toUpper = hexValue c := by
  have hall : ∀ c ∈ hexDigits, hexValue c.toUpper = hexValue c :=
    List.all_iff_forall_prop.1 (by decide)
  exact hall c (mem_hexDigits h)

theorem isHex_toUpper {c : Char} (h : isHex c = true) : isHex c.toUpper = true := by
  rw [isHex, hexValue_toUpper h]
  exact h

theorem toUpper_toUpper_hex {c : Char} (h : isHex c = true) :
    c.toUpper.toUpper = c.toUpper := by
  have hall : ∀ c ∈ hexDigits, c.toUpper.toUpper = c.toUpper :=
    List.all_iff_forall_prop.1 (by decide)
  exact hall c (mem_hexDigits h)

theorem code_toUpper {a b : Char} (ha : isHex a = true) (hb : isHex b = true) :
    Piece.code a.toUpper b.toUpper = Piece.code a b := by
  rw [Piece.code, Piece.code, hexValue_toUpper ha, hexValue_toUpper hb]

theorem code_lt {a b : Char} (ha : isHex a = true) (hb : isHex b = true) : Piece.code a b < 256 := by
  have hall : ∀ c ∈ hexDigits, (hexValue c).getD 0 ≤ 15 :=
    List.all_iff_forall_prop.1 (by decide)
  have := hall a (mem_hexDigits ha)
  have := hall b (mem_hexDigits hb)
  unfold Piece.code
  omega

theorem isAscii_of_isAlwaysSafe {c : Char} (h : isAlwaysSafe c = true) : c.toNat < 128 := by
  delta isAlwaysSafe Char.isAlphanum Char.isAlpha Char.isUpper Char.isLower Char.isDigit at h
  simp only [Bool.or_eq_true, Bool.and_eq_true, decide_eq_true_eq, UInt32.le_iff_toNat_le] at h
  rcases h with ((((((h | h) | h) | rfl) | rfl) | rfl) | rfl)
  · exact Nat.lt_of_le_of_lt h.2 (by decide)
  · exact Nat.lt_of_le_of_lt h.2 (by decide)
  · exact Nat.lt_of_le_of_lt h.2 (by decide)
  all_goals decide

theorem toNat_ofNat_of_lt {n : ℕ} (h : n < 256) : (Char.ofNat n).toNat = n := by
  have hvalid : n.isValidChar := .inl (by omega)
  rw [Char.ofNat, dif_pos hvalid]
  rfl

end Digits

section Normal

namespace Piece

theorem normal_plain_ne {a b : Char} (h : isAlwaysSafe (Char.ofNat (code a b)) = true) :
    Char.ofNat (code a b) ≠ '%' := by
  intro heq
  rw [heq] at h
  cases h

theorem Sound.normal {p : Piece} (h : p.Sound) : p.normal.Sound := by
  cases p with
  | plain c => exact h
  | escape a b =>
      unfold Piece.normal
      dsimp only
      split
      next hsafe => exact normal_plain_ne hsafe
      next => exact ⟨isHex_toUpper h.1, isHex_toUpper h.2⟩

theorem Sound.upper {p : Piece} (h : p.Sound) : p.upper.Sound := by
  cases p with
  | plain c => exact h
  | escape a b => exact ⟨isHex_toUpper h.1, isHex_toUpper h.2⟩

theorem normal_normal {p : Piece} (h : p.Sound) : p.normal.normal = p.normal := by
  cases p with
  | plain c => rfl
  | escape a b =>
      by_cases hsafe : isAlwaysSafe (Char.ofNat (code a b)) = true
      · simp only [normal, if_pos hsafe]
      · have hupper : ¬ isAlwaysSafe (Char.ofNat (code a.toUpper b.toUpper)) = true := by
          rw [code_toUpper h.1 h.2]
          exact hsafe
        simp only [normal, if_neg hsafe, if_neg hupper, toUpper_toUpper_hex h.1,
          toUpper_toUpper_hex h.2]

theorem normal_upper {p : Piece} (h : p.Sound) : p.upper.normal = p.normal := by
  cases p with
  | plain c => rfl
  | escape a b =>
      simp only [upper, normal, code_toUpper h.1 h.2, toUpper_toUpper_hex h.1,
        toUpper_toUpper_hex h.2]

theorem byte_normal {p : Piece} (h : p.Sound) : p.normal.byte = p.byte := by
  cases p with
  | plain c => rfl
  | escape a b =>
      unfold Piece.normal
      dsimp only
      split
      next => rw [byte, byte, asciiByte, toNat_ofNat_of_lt (code_lt h.1 h.2)]
      next => rw [byte, byte, code_toUpper h.1 h.2]

end Piece

/-- The text with its escapes of unreserved characters decoded, and others in upper case. -/
def normalText (s : Text) : Text := ((pieces s).map Piece.normal).flatMap Piece.render

/-- Every percent sign of the text begins an escape. -/
def SoundText (s : Text) : Prop := ∀ p ∈ pieces s, p.Sound

variable {s t : Text}

theorem pieces_normalText (h : SoundText s) : pieces (normalText s) = (pieces s).map Piece.normal := by
  refine pieces_flatMap_render fun p hp => ?_
  obtain ⟨q, hq, rfl⟩ := List.mem_map.1 hp
  exact (h q hq).normal

theorem SoundText.normalText (h : SoundText s) : SoundText (normalText s) := by
  intro p hp
  rw [pieces_normalText h] at hp
  obtain ⟨q, hq, rfl⟩ := List.mem_map.1 hp
  exact (h q hq).normal

theorem normalText_normalText (h : SoundText s) : normalText (normalText s) = normalText s := by
  rw [normalText, pieces_normalText h, List.map_map, normalText]
  congr 1
  exact List.map_congr_left fun p hp => Piece.normal_normal (h p hp)

/-- A character that is in no escape stays, and none of the others becomes it. -/
theorem normalText_append {c : Char} (hc : isHex c = false) (hpercent : c ≠ '%') (s t : Text) :
    normalText (s ++ c :: t) = normalText s ++ c :: normalText t := by
  rw [normalText, pieces_append hc hpercent, List.map_append, List.map_cons,
    List.flatMap_append, List.flatMap_cons]
  rfl

theorem mem_normalText {c : Char} (hc : isHex c = false) (hpercent : c ≠ '%')
    (hsafe : isAlwaysSafe c = false) (h : SoundText s) : c ∈ normalText s ↔ c ∈ s := by
  rw [← plain_mem_pieces hc hpercent, ← plain_mem_pieces hc hpercent, pieces_normalText h,
    List.mem_map]
  constructor
  · rintro ⟨p, hp, hnormal⟩
    cases p with
    | plain d => exact Piece.plain.inj hnormal ▸ hp
    | escape a b =>
        unfold Piece.normal at hnormal
        dsimp only at hnormal
        split at hnormal
        next hsafe' =>
          rw [Piece.plain.inj hnormal, hsafe] at hsafe'
          cases hsafe'
        next => cases hnormal
  · exact fun hp => ⟨_, hp, rfl⟩

theorem soundText_append {c : Char} (hc : isHex c = false) (hpercent : c ≠ '%') :
    SoundText (s ++ c :: t) ↔ SoundText s ∧ SoundText t := by
  unfold SoundText
  rw [pieces_append hc hpercent]
  constructor
  · intro h
    exact ⟨fun p hp => h p (List.mem_append_left _ hp),
      fun p hp => h p (List.mem_append_right _ (List.mem_cons_of_mem _ hp))⟩
  · rintro ⟨hs, ht⟩ p hp
    rcases List.mem_append.1 hp with hp | hp
    · exact hs p hp
    · rcases List.mem_cons.1 hp with rfl | hp
      · exact hpercent
      · exact ht p hp

theorem soundText_nil : SoundText [] := fun _ hp => absurd hp List.not_mem_nil

theorem length_normalText_le (s : Text) : (normalText s).length ≤ s.length := by
  have hpiece : ∀ p : Piece, p.normal.render.length ≤ p.render.length := by
    intro p
    cases p with
    | plain c => exact le_rfl
    | escape a b =>
        unfold Piece.normal
        dsimp only
        split
        · exact Nat.le_of_ble_eq_true rfl
        · exact le_rfl
  have hall : ∀ ps : List Piece, ((ps.map Piece.normal).flatMap Piece.render).length ≤
      (ps.flatMap Piece.render).length := by
    intro ps
    induction ps with
    | nil => exact le_rfl
    | cons p ps ih =>
        rw [List.map_cons, List.flatMap_cons, List.flatMap_cons, List.length_append,
          List.length_append]
        exact Nat.add_le_add (hpiece p) ih
  have hle := hall (pieces s)
  rwa [pieces_render] at hle

/-- Two texts that differ in the letter case of their escapes only. -/
def SameEscapes (s t : Text) : Prop := (pieces s).map Piece.upper = (pieces t).map Piece.upper

theorem SameEscapes.symm (h : SameEscapes s t) : SameEscapes t s := Eq.symm h

theorem SameEscapes.plain_mem (h : SameEscapes s t) (c : Char) :
    .plain c ∈ pieces s ↔ .plain c ∈ pieces t := by
  have hupper : ∀ ps : List Piece, .plain c ∈ ps ↔ .plain c ∈ ps.map Piece.upper := by
    intro ps
    rw [List.mem_map]
    constructor
    · exact fun hp => ⟨_, hp, rfl⟩
    · rintro ⟨p, hp, heq⟩
      cases p with
      | plain d => exact Piece.plain.inj heq ▸ hp
      | escape a b => cases heq
  rw [hupper, hupper (pieces t), show (pieces s).map Piece.upper = _ from h]

theorem isHex_of_mem_pieces {a b : Char} (h : .escape a b ∈ pieces s) :
    isHex a = true ∧ isHex b = true := by
  induction s using pieces_induction with
  | nil => cases h
  | escape a' b' rest ha hb ih =>
      rw [pieces_escape ha hb] at h
      rcases List.mem_cons.1 h with heq | h
      · cases heq
        exact ⟨ha, hb⟩
      · exact ih h
  | plain c rest hcut ih =>
      rw [hcut] at h
      rcases List.mem_cons.1 h with heq | h
      · cases heq
      · exact ih h

/-- A text is sound exactly where no piece is a percent sign alone. -/
theorem soundText_iff : SoundText s ↔ .plain '%' ∉ pieces s := by
  constructor
  · exact fun h hp => h _ hp rfl
  · intro h p hp
    cases p with
    | plain c =>
        rintro rfl
        exact h hp
    | escape a b => exact isHex_of_mem_pieces hp

theorem SameEscapes.soundText (h : SameEscapes s t) : SoundText s ↔ SoundText t := by
  rw [soundText_iff, soundText_iff, h.plain_mem]

theorem SameEscapes.normalText (h : SameEscapes s t) (hs : SoundText s) :
    normalText s = normalText t := by
  have ht := h.soundText.1 hs
  have hnormal : ∀ s : Text, SoundText s →
      (pieces s).map Piece.normal = ((pieces s).map Piece.upper).map Piece.normal := by
    intro s hs
    rw [List.map_map]
    exact List.map_congr_left fun p hp => (Piece.normal_upper (hs p hp)).symm
  rw [Web.normalText, Web.normalText, hnormal s hs, hnormal t ht,
    show (pieces s).map Piece.upper = _ from h]

end Normal

section Strict

variable (decode : List UInt8 → Option Text)

/-- `unquote(string, errors="strict")`, of a text with a percent sign: every run of ASCII
characters is decoded. -/
def strictRuns : Text → Text → Option Text
  | [], run => decode (unquoteToBytes run.reverse)
  | c :: rest, run =>
      if isAscii c then strictRuns rest (c :: run)
      else (decode (unquoteToBytes run.reverse)).bind fun head =>
        (strictRuns rest []).map fun tail => head ++ c :: tail

/-- `unquote(string, errors="strict")`; `none` is a `UnicodeDecodeError`. -/
def unquoteStrict (s : Text) : Option Text := if '%' ∈ s then strictRuns decode s [] else some s

/-- The runs, of the pieces of a text. -/
def decodePieces : List Piece → List UInt8 → Option Text
  | [], bytes => decode bytes
  | .plain c :: rest, bytes =>
      if isAscii c then decodePieces rest (bytes ++ [asciiByte c])
      else (decode bytes).bind fun head =>
        (decodePieces rest []).map fun tail => head ++ c :: tail
  | .escape a b :: rest, bytes => decodePieces rest (bytes ++ [(Piece.escape a b).byte])

variable {decode} {s : Text}

/-- Pieces of ASCII characters are one run. -/
theorem decodePieces_append {ps : List Piece} (h : ∀ c, .plain c ∈ ps → isAscii c = true)
    (rest : List Piece) (bytes : List UInt8) :
    decodePieces decode (ps ++ rest) bytes =
      decodePieces decode rest (bytes ++ ps.map Piece.byte) := by
  induction ps generalizing bytes with
  | nil => rw [List.nil_append, List.map_nil, List.append_nil]
  | cons p ps ih =>
      have hps : ∀ c, .plain c ∈ ps → isAscii c = true :=
        fun c hc => h c (List.mem_cons_of_mem _ hc)
      rw [List.cons_append, List.map_cons]
      cases p with
      | plain c =>
          rw [decodePieces, if_pos (h c List.mem_cons_self), ih hps, List.append_assoc]
          rfl
      | escape a b =>
          rw [decodePieces, ih hps, List.append_assoc]
          rfl

theorem isHex_of_not_ascii {c : Char} (h : isAscii c = false) : isHex c = false := by
  by_contra hhex
  have hall : ∀ c ∈ hexDigits, isAscii c = true :=
    List.all_eq_true.1 (by decide)
  rw [hall c (mem_hexDigits (by simpa using hhex))] at h
  cases h

theorem isAscii_of_mem_pieces (h : ∀ c ∈ s, isAscii c = true) (c : Char)
    (hc : .plain c ∈ pieces s) : isAscii c = true := by
  refine h c ?_
  rw [← pieces_render s]
  exact List.mem_flatMap.2 ⟨_, hc, List.mem_singleton_self _⟩

theorem strictRuns_eq {run : Text} (hrun : ∀ c ∈ run, isAscii c = true) :
    strictRuns decode s run = decodePieces decode (pieces (run.reverse ++ s)) [] := by
  have hreverse : ∀ {run : Text}, (∀ c ∈ run, isAscii c = true) →
      ∀ c, .plain c ∈ pieces run.reverse → isAscii c = true := fun hrun =>
    isAscii_of_mem_pieces fun c hc => hrun c (List.mem_reverse.1 hc)
  induction s generalizing run with
  | nil =>
      have happend : decodePieces decode (pieces run.reverse ++ []) [] = _ :=
        decodePieces_append (hreverse hrun) [] []
      rw [List.append_nil] at happend ⊢
      rw [happend, strictRuns, unquoteToBytes_eq_map]
      rfl
  | cons c rest ih =>
      rw [strictRuns]
      split
      next hascii =>
        rw [ih (List.forall_mem_cons.2 ⟨hascii, hrun⟩), List.reverse_cons, List.append_assoc]
        rfl
      next hascii =>
        rw [Bool.not_eq_true] at hascii
        have hpercent : c ≠ '%' := by
          rintro rfl
          cases hascii
        rw [pieces_append (isHex_of_not_ascii hascii) hpercent,
          decodePieces_append (hreverse hrun), decodePieces, if_neg (by simp [hascii]),
          ih (fun _ hc => absurd hc List.not_mem_nil), unquoteToBytes_eq_map]
        rfl

theorem decodePieces_normal {ps : List Piece} (h : ∀ p ∈ ps, p.Sound) (bytes : List UInt8) :
    decodePieces decode (ps.map Piece.normal) bytes = decodePieces decode ps bytes := by
  induction ps generalizing bytes with
  | nil => rfl
  | cons p ps ih =>
      have hps := fun bytes => ih (fun p hp => h p (List.mem_cons_of_mem _ hp)) bytes
      have hp := h p List.mem_cons_self
      rw [List.map_cons]
      cases p with
      | plain c =>
          rw [Piece.normal, decodePieces, decodePieces]
          simp only [hps]
      | escape a b =>
          have hbyte := Piece.byte_normal hp
          rw [decodePieces, ← hps, ← hbyte]
          cases hnormal : (Piece.escape a b).normal with
          | escape a' b' => rw [decodePieces]
          | plain c =>
              have hsafe : isAscii c = true := by
                unfold Piece.normal at hnormal
                dsimp only at hnormal
                split at hnormal
                next hsafe =>
                  rw [← Piece.plain.inj hnormal]
                  exact decide_eq_true (isAscii_of_isAlwaysSafe hsafe)
                next => cases hnormal
              rw [decodePieces, if_pos hsafe]
              rfl

/-- A decoder that reads ASCII bytes as ASCII characters. -/
def DecodesAscii (decode : List UInt8 → Option Text) : Prop :=
  ∀ s : Text, (∀ c ∈ s, isAscii c = true) → decode (s.map asciiByte) = some s

theorem unquoteToBytes_of_notMem (h : '%' ∉ s) : unquoteToBytes s = s.map asciiByte := by
  rw [unquoteToBytes_eq_map]
  induction s with
  | nil => rfl
  | cons c rest ih =>
      rw [List.mem_cons, not_or] at h
      rw [pieces_plain (Ne.symm h.1), List.map_cons, List.map_cons, ih h.2]
      rfl

theorem strictRuns_of_notMem (hdecode : DecodesAscii decode) (h : '%' ∉ s) {run : Text}
    (hrun : ∀ c ∈ run, isAscii c = true) (hpercent : '%' ∉ run) :
    strictRuns decode s run = some (run.reverse ++ s) := by
  have hbytes : ∀ {run : Text}, (∀ c ∈ run, isAscii c = true) → '%' ∉ run →
      decode (unquoteToBytes run.reverse) = some run.reverse := by
    intro run hrun hpercent
    rw [unquoteToBytes_of_notMem (by rwa [List.mem_reverse])]
    exact hdecode _ fun c hc => hrun c (List.mem_reverse.1 hc)
  induction s generalizing run with
  | nil => rw [strictRuns, hbytes hrun hpercent, List.append_nil]
  | cons c rest ih =>
      rw [List.mem_cons, not_or] at h
      rw [strictRuns]
      split
      next hascii =>
        rw [ih h.2 (List.forall_mem_cons.2 ⟨hascii, hrun⟩) (by simp [h.1, hpercent]),
          List.reverse_cons, List.append_assoc]
        rfl
      next =>
        rw [hbytes hrun hpercent, ih h.2 (fun _ hc => absurd hc List.not_mem_nil)
          List.not_mem_nil]
        rfl

theorem unquoteStrict_eq (hdecode : DecodesAscii decode) (s : Text) :
    unquoteStrict decode s = decodePieces decode (pieces s) [] := by
  rw [unquoteStrict]
  split
  next => exact strictRuns_eq fun _ hc => absurd hc List.not_mem_nil
  next hpercent =>
    have hruns : strictRuns decode s [] = _ := strictRuns_of_notMem hdecode hpercent
      (fun _ hc => absurd hc List.not_mem_nil) List.not_mem_nil
    rw [strictRuns_eq fun _ hc => absurd hc List.not_mem_nil] at hruns
    exact hruns.symm

/-- Decoding the unreserved characters first changes nothing of what is read. -/
theorem unquoteStrict_normalText (hdecode : DecodesAscii decode) (h : SoundText s) :
    unquoteStrict decode (normalText s) = unquoteStrict decode s := by
  rw [unquoteStrict_eq hdecode, unquoteStrict_eq hdecode, pieces_normalText h,
    decodePieces_normal h]

theorem SameEscapes.unquoteStrict {t : Text} (hdecode : DecodesAscii decode)
    (h : SameEscapes s t) (hs : SoundText s) :
    Web.unquoteStrict decode s = Web.unquoteStrict decode t := by
  rw [← unquoteStrict_normalText hdecode hs, h.normalText hs,
    unquoteStrict_normalText hdecode (h.soundText.1 hs)]

end Strict

end SearchTrust.Web
