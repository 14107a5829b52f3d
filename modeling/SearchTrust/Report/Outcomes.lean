/-
Computations that end with a value or an error: what a sequence of them, and
one of them over a list, tell about the parts.
-/
import Mathlib.Algebra.BigOperators.Group.List.Basic
import Mathlib.Algebra.GroupWithZero.Nat
import Mathlib.Data.List.Forall2

namespace SearchTrust.Report.Outcomes

universe u v

variable {α β : Type u} {ε : Type v}

theorem ok_bind (a : α) (next : α → Except ε β) : (.ok a >>= next) = next a := rfl

theorem ok_of_bind {x : Except ε α} {next : α → Except ε β} {b : β}
    (h : x >>= next = .ok b) : ∃ a, x = .ok a ∧ next a = .ok b := by
  cases x with
  | error e => cases h
  | ok a => exact ⟨a, rfl, h⟩

theorem ok_of_map {x : Except ε α} {f : α → β} {b : β} (h : x.map f = .ok b) :
    ∃ a, x = .ok a ∧ f a = b := by
  cases x with
  | error e => cases h
  | ok a => exact ⟨a, rfl, Except.ok.inj h⟩

theorem error_of_bind {x : Except ε α} {next : α → Except ε β} {e : ε}
    (h : x >>= next = .error e) : x = .error e ∨ ∃ a, x = .ok a ∧ next a = .error e := by
  cases x with
  | error e' =>
      cases h
      exact .inl rfl
  | ok a => exact .inr ⟨a, rfl, h⟩

theorem mapM_ok_cons {f : α → Except ε β} {a : α} {l : List α} {bs : List β}
    (h : (a :: l).mapM f = .ok bs) :
    ∃ b rest, f a = .ok b ∧ l.mapM f = .ok rest ∧ bs = b :: rest := by
  rw [List.mapM_cons] at h
  obtain ⟨b, hb, h⟩ := ok_of_bind h
  obtain ⟨rest, hrest, h⟩ := ok_of_bind h
  cases h
  exact ⟨b, rest, hb, hrest, rfl⟩

/-- Every item of the list has its result. -/
theorem forall₂_of_mapM_ok {f : α → Except ε β} {l : List α} {bs : List β}
    (h : l.mapM f = .ok bs) : List.Forall₂ (fun a b => f a = .ok b) l bs := by
  induction l generalizing bs with
  | nil =>
      cases h
      exact List.Forall₂.nil
  | cons a l ih =>
      obtain ⟨b, rest, hb, hrest, rfl⟩ := mapM_ok_cons h
      exact List.Forall₂.cons hb (ih hrest)

theorem mapM_ok_of_forall₂ {f : α → Except ε β} {l : List α} {bs : List β}
    (h : List.Forall₂ (fun a b => f a = .ok b) l bs) : l.mapM f = .ok bs := by
  induction h with
  | nil => rfl
  | cons hb _ ih =>
      rw [List.mapM_cons, hb, ih]
      rfl

/-- The list has results when each of its items has one. -/
theorem mapM_isOk {f : α → Except ε β} {l : List α} (h : ∀ a ∈ l, ∃ b, f a = .ok b) :
    ∃ bs, l.mapM f = .ok bs := by
  induction l with
  | nil => exact ⟨[], rfl⟩
  | cons a l ih =>
      obtain ⟨b, hb⟩ := h a List.mem_cons_self
      obtain ⟨bs, hbs⟩ := ih fun other hother => h other (List.mem_cons_of_mem _ hother)
      refine ⟨b :: bs, ?_⟩
      rw [List.mapM_cons, hb, hbs]
      rfl

/-- An error of the list is an error of one of its items. -/
theorem exists_of_mapM_error {f : α → Except ε β} {l : List α} {e : ε}
    (h : l.mapM f = .error e) : ∃ a ∈ l, f a = .error e := by
  induction l with
  | nil => cases h
  | cons a l ih =>
      rw [List.mapM_cons] at h
      rcases error_of_bind h with ha | ⟨b, _, h⟩
      · exact ⟨a, List.mem_cons_self, ha⟩
      · rcases error_of_bind h with hl | ⟨rest, _, h⟩
        · obtain ⟨a', ha', he⟩ := ih hl
          exact ⟨a', List.mem_cons_of_mem _ ha', he⟩
        · cases h

/-- What every round of a loop keeps of its state and of the items that it took. -/
theorem foldlM_ok {σ : Type u} {step : σ → α → Except ε σ} {Inv : σ → List α → Prop}
    (hstep : ∀ s taken a s', Inv s taken → step s a = .ok s' → Inv s' (taken ++ [a]))
    {items taken : List α} {s s' : σ} (hinv : Inv s taken)
    (h : items.foldlM step s = .ok s') : Inv s' (taken ++ items) := by
  induction items generalizing s taken with
  | nil =>
      cases h
      rwa [List.append_nil]
  | cons a items ih =>
      rw [List.foldlM_cons] at h
      obtain ⟨next, hnext, h⟩ := ok_of_bind h
      have hrest := ih (hstep s taken a next hinv hnext) h
      rwa [List.append_assoc] at hrest

section Pairs

variable {γ δ : Type*} {R : γ → δ → Prop} {l : List γ} {m : List δ}

theorem exists_left_of_mem (h : List.Forall₂ R l m) {b : δ} (hb : b ∈ m) :
    ∃ a ∈ l, R a b := by
  induction h with
  | nil => cases hb
  | cons hab _ ih =>
      rcases List.mem_cons.1 hb with rfl | hb
      · exact ⟨_, List.mem_cons_self, hab⟩
      · obtain ⟨a, ha, hR⟩ := ih hb
        exact ⟨a, List.mem_cons_of_mem _ ha, hR⟩

theorem exists_right_of_mem (h : List.Forall₂ R l m) {a : γ} (ha : a ∈ l) :
    ∃ b ∈ m, R a b := exists_left_of_mem h.flip ha

/-- A function that leads back from the results gives the list again. -/
theorem map_eq_of_forall₂ {back : δ → γ} (h : List.Forall₂ (fun a b => back b = a) l m) :
    m.map back = l := by
  induction h with
  | nil => rfl
  | cons hab _ ih => rw [List.map_cons, hab, ih]

/-- Results that a function gives are its image of the list. -/
theorem eq_map_of_forall₂ {f : γ → δ} (h : List.Forall₂ (fun a b => b = f a) l m) :
    m = l.map f := by
  induction h with
  | nil => rfl
  | cons hab _ ih => rw [hab, ih, List.map_cons]

/-- Pairs of two lists through a list between them. -/
theorem forall₂_trans {ι : Type*} {S : δ → ι → Prop} {T : γ → ι → Prop} {n : List ι}
    (h : List.Forall₂ R l m) (hnext : List.Forall₂ S m n)
    (hcomp : ∀ a b c, R a b → S b c → T a c) : List.Forall₂ T l n := by
  induction h generalizing n with
  | nil =>
      rw [List.forall₂_nil_left_iff] at hnext
      rw [hnext]
      exact List.Forall₂.nil
  | cons hab _ ih =>
      obtain ⟨c, rest, hbc, hrest, rfl⟩ := List.forall₂_cons_left_iff.1 hnext
      exact List.Forall₂.cons (hcomp _ _ _ hab hbc) (ih hrest)

/-- A choice for every pair, with the sum of what the choices weigh. -/
theorem exists_choice_of_forall₂ {ι : Type*} {P : γ → ι → Prop} {weight : γ → ι → ℕ}
    {bound : δ → ℕ}
    (h : List.Forall₂ (fun a b => ∃ c, P a c ∧ weight a c ≤ bound b) l m) :
    ∃ chosen : List ι, List.Forall₂ P l chosen ∧
      ((l.zip chosen).map fun pair => weight pair.1 pair.2).sum ≤ (m.map bound).sum := by
  induction h with
  | nil => exact ⟨[], List.Forall₂.nil, Nat.le_refl 0⟩
  | cons hpair _ ih =>
      obtain ⟨c, hc, hweight⟩ := hpair
      obtain ⟨chosen, hall, hsum⟩ := ih
      refine ⟨c :: chosen, List.Forall₂.cons hc hall, ?_⟩
      rw [List.zip_cons_cons, List.map_cons, List.sum_cons, List.map_cons, List.sum_cons]
      exact Nat.add_le_add hweight hsum

end Pairs

end SearchTrust.Report.Outcomes
