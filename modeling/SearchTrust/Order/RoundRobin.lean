/-
Drawing from queues in turn: one item of each kind a round, until the queues are
empty or a limit is reached, which may be in the middle of a round.
-/
import Mathlib.Data.List.Basic
import Mathlib.Data.List.Count
import Mathlib.Logic.Function.Basic
import Mathlib.Order.Lattice
import Mathlib.Order.MinMax

namespace SearchTrust.Order.RoundRobin

variable {ι κ : Type*} [DecidableEq κ]

structure State (ι κ : Type*) where
  queues : κ → List ι
  selected : List ι

/-- A turn of one kind. -/
def draw (limit : ℤ) (state : State ι κ) (kind : κ) : State ι κ :=
  match state.queues kind with
  | [] => state
  | item :: rest =>
      if (state.selected.length : ℤ) < limit then
        ⟨Function.update state.queues kind rest, state.selected ++ [item]⟩
      else state

def round (limit : ℤ) (kinds : List κ) (state : State ι κ) : State ι κ :=
  kinds.foldl (draw limit) state

/-- Rounds go on while there is room and something to draw. -/
def Active (limit : ℤ) (kinds : List κ) (state : State ι κ) : Prop :=
  (state.selected.length : ℤ) < limit ∧ ∃ kind ∈ kinds, state.queues kind ≠ []

instance decidableActive (limit : ℤ) (kinds : List κ) (state : State ι κ) :
    Decidable (Active limit kinds state) :=
  have : Decidable (∃ kind ∈ kinds, state.queues kind ≠ []) :=
    decidable_of_iff (kinds.any (fun kind => !(state.queues kind).isEmpty) = true) (by
      simp [List.any_eq_true])
  inferInstanceAs (Decidable (_ ∧ _))

section Turns

variable {limit : ℤ} {state : State ι κ} {kind : κ}

theorem draw_of_empty (h : state.queues kind = []) : draw limit state kind = state := by
  unfold draw
  rw [h]

theorem draw_of_full (h : limit ≤ state.selected.length) : draw limit state kind = state := by
  unfold draw
  split
  · rfl
  · rw [if_neg (not_lt.2 h)]

theorem draw_of_open {item : ι} {rest : List ι} (h : state.queues kind = item :: rest)
    (hlt : (state.selected.length : ℤ) < limit) :
    draw limit state kind =
      ⟨Function.update state.queues kind rest, state.selected ++ [item]⟩ := by
  unfold draw
  rw [h]
  exact if_pos hlt

/-- The three kinds of turns. -/
theorem draw_cases (limit : ℤ) (state : State ι κ) (kind : κ) :
    (draw limit state kind = state ∧
      (state.queues kind = [] ∨ limit ≤ state.selected.length)) ∨
    ∃ item rest, state.queues kind = item :: rest ∧ (state.selected.length : ℤ) < limit ∧
      draw limit state kind =
        ⟨Function.update state.queues kind rest, state.selected ++ [item]⟩ := by
  cases hqueue : state.queues kind with
  | nil => exact .inl ⟨draw_of_empty hqueue, .inl rfl⟩
  | cons item rest =>
      by_cases hlt : (state.selected.length : ℤ) < limit
      · exact .inr ⟨item, rest, rfl, hlt, draw_of_open hqueue hlt⟩
      · exact .inl ⟨draw_of_full (not_lt.1 hlt), .inr (not_lt.1 hlt)⟩

theorem length_le_draw : state.selected.length ≤ (draw limit state kind).selected.length := by
  rcases draw_cases limit state kind with ⟨h, _⟩ | ⟨item, rest, _, _, h⟩
  · rw [h]
  · rw [h, List.length_append]
    exact Nat.le_add_right _ _

theorem length_le_foldl_draw (kinds : List κ) (state : State ι κ) :
    state.selected.length ≤ (kinds.foldl (draw limit) state).selected.length := by
  induction kinds generalizing state with
  | nil => exact le_refl _
  | cons kind kinds ih => exact length_le_draw.trans (ih _)

theorem foldl_draw_of_full {kinds : List κ} (h : limit ≤ state.selected.length) :
    kinds.foldl (draw limit) state = state := by
  induction kinds with
  | nil => rfl
  | cons kind kinds ih => rw [List.foldl_cons, draw_of_full h, ih]

/-- A round with something to draw selects it. -/
theorem length_lt_round {kinds : List κ} (h : Active limit kinds state) :
    state.selected.length < (round limit kinds state).selected.length := by
  obtain ⟨hlt, kind, hkind, hqueue⟩ := h
  unfold round
  induction kinds with
  | nil => cases hkind
  | cons first kinds ih =>
      rw [List.foldl_cons]
      rcases draw_cases limit state first with ⟨hdraw, hend⟩ | ⟨item, rest, _, _, hdraw⟩
      · rw [hdraw]
        refine ih ?_
        rcases List.mem_cons.1 hkind with rfl | hmem
        · rcases hend with hempty | hfull
          · exact absurd hempty hqueue
          · exact absurd hlt (not_lt.2 hfull)
        · exact hmem
      · refine lt_of_lt_of_le ?_ (length_le_foldl_draw kinds _)
        rw [hdraw, List.length_append]
        exact Nat.lt_succ_self _

end Turns

/-- `while len(selected) < limit and any(queues)`. -/
def run (limit : ℤ) (kinds : List κ) (state : State ι κ) : State ι κ :=
  if Active limit kinds state then run limit kinds (round limit kinds state) else state
termination_by (limit - state.selected.length).toNat
decreasing_by
  next h =>
    have hgrows := length_lt_round h
    have hroom := h.1
    omega

section Runs

variable {limit : ℤ} {kinds : List κ}

/-- What a turn keeps, a run keeps. -/
theorem run_induction {motive : State ι κ → Prop}
    (hdraw : ∀ state, ∀ kind ∈ kinds, motive state → motive (draw limit state kind))
    {state : State ι κ} (h : motive state) : motive (run limit kinds state) := by
  induction state using run.induct limit kinds with
  | case1 state hactive ih =>
      rw [run, if_pos hactive]
      exact ih (List.foldlRecOn kinds (draw limit) h fun s hs kind hkind => hdraw s kind hkind hs)
  | case2 state hidle =>
      rw [run, if_neg hidle]
      exact h

/-- A run ends when the limit is reached or the queues are empty. -/
theorem run_ends (limit : ℤ) (kinds : List κ) (state : State ι κ) :
    limit ≤ (run limit kinds state).selected.length ∨
      ∀ kind ∈ kinds, (run limit kinds state).queues kind = [] := by
  induction state using run.induct limit kinds with
  | case1 state hactive ih =>
      rw [run, if_pos hactive]
      exact ih
  | case2 state hidle =>
      rw [run, if_neg hidle]
      by_cases hfull : limit ≤ state.selected.length
      · exact .inl hfull
      · refine .inr ?_
        intro kind hkind
        by_contra hqueue
        exact hidle ⟨not_le.1 hfull, kind, hkind, hqueue⟩

/-- A run does not select past its limit. -/
theorem length_run_le (state : State ι κ)
    (h : (state.selected.length : ℤ) ≤ max limit 0) :
    ((run limit kinds state).selected.length : ℤ) ≤ max limit 0 := by
  refine run_induction (motive := fun s => (s.selected.length : ℤ) ≤ max limit 0) ?_ h
  intro s kind _ hs
  rcases draw_cases limit s kind with ⟨hdraw, _⟩ | ⟨item, rest, _, hlt, hdraw⟩
  · rw [hdraw]
    exact hs
  · rw [hdraw, List.length_append, List.length_singleton]
    push_cast
    exact (Int.add_one_le_iff.2 hlt).trans (le_max_left _ _)

section Drawn

variable (kindOf : ι → κ) (groups : κ → List ι)

/-- What was selected of a kind, in order. -/
def drawn (state : State ι κ) (kind : κ) : List ι :=
  state.selected.filter fun item => kindOf item = kind

/-- Of every kind, a front of its group is selected and the rest is in its queue. -/
def Split (state : State ι κ) : Prop :=
  ∀ kind, drawn kindOf state kind ++ state.queues kind = groups kind

variable {kindOf groups}

theorem split_draw {state : State ι κ}
    (hgroups : ∀ kind, ∀ item ∈ groups kind, kindOf item = kind)
    (h : Split kindOf groups state) (kind : κ) :
    Split kindOf groups (draw limit state kind) := by
  rcases draw_cases limit state kind with ⟨hdraw, _⟩ | ⟨item, rest, hqueue, _, hdraw⟩
  · rw [hdraw]
    exact h
  have hkind : kindOf item = kind := by
    refine hgroups kind item ?_
    rw [← h kind, hqueue]
    exact List.mem_append_right _ List.mem_cons_self
  rw [hdraw]
  intro other
  have hother := h other
  unfold drawn at hother ⊢
  rw [List.filter_append]
  by_cases hsame : other = kind
  · subst hsame
    have hrest : Function.update state.queues other rest other = rest := Function.update_self ..
    rw [hqueue] at hother
    rw [List.filter_cons_of_pos (by simpa using hkind), List.filter_nil, List.append_assoc]
    change _ ++ ([item] ++ Function.update state.queues other rest other) = _
    rw [hrest]
    exact hother
  · have hne : kindOf item ≠ other := by
      rw [hkind]
      exact Ne.symm hsame
    have hrest : Function.update state.queues kind rest other = state.queues other :=
      Function.update_of_ne hsame ..
    rw [List.filter_cons_of_neg (by simpa using hne), List.filter_nil, List.append_nil]
    change _ ++ Function.update state.queues kind rest other = _
    rw [hrest]
    exact hother

/-- Every kind has been drawn `level` or `level + 1` times, as far as its group goes. -/
def Level (kindOf : ι → κ) (groups : κ → List ι) (kinds : List κ) (level : ℕ)
    (state : State ι κ) : Prop :=
  ∀ kind ∈ kinds, min level (groups kind).length ≤ (drawn kindOf state kind).length ∧
    (drawn kindOf state kind).length ≤ level + 1

/-- Every kind has been drawn `level` times, as far as its group goes. -/
def Even (kindOf : ι → κ) (groups : κ → List ι) (kinds : List κ) (level : ℕ)
    (state : State ι κ) : Prop :=
  ∀ kind ∈ kinds, (drawn kindOf state kind).length = min level (groups kind).length

theorem level_of_even {level : ℕ} {state : State ι κ}
    (h : Even kindOf groups kinds level state) : Level kindOf groups kinds level state := by
  intro kind hkind
  rw [h kind hkind]
  exact ⟨le_refl _, (min_le_left _ _).trans (Nat.le_succ _)⟩

/-- What a turn selects of each kind. -/
theorem length_drawn_draw {state : State ι κ}
    (hgroups : ∀ kind, ∀ item ∈ groups kind, kindOf item = kind)
    (h : Split kindOf groups state) (kind other : κ) :
    (drawn kindOf (draw limit state kind) other).length =
      if other = kind ∧ state.queues kind ≠ [] ∧ (state.selected.length : ℤ) < limit then
        (drawn kindOf state other).length + 1
      else (drawn kindOf state other).length := by
  rcases draw_cases limit state kind with ⟨hdraw, hend⟩ | ⟨item, rest, hqueue, hlt, hdraw⟩
  · have hidle : ¬(other = kind ∧ state.queues kind ≠ [] ∧
        (state.selected.length : ℤ) < limit) := by
      rintro ⟨_, hqueue, hlt⟩
      rcases hend with hempty | hfull
      · exact hqueue hempty
      · exact absurd hlt (not_lt.2 hfull)
    rw [hdraw, if_neg hidle]
  · have hkind : kindOf item = kind := by
      refine hgroups kind item ?_
      rw [← h kind, hqueue]
      exact List.mem_append_right _ List.mem_cons_self
    rw [hdraw]
    unfold drawn
    rw [List.filter_append, List.length_append]
    by_cases hsame : other = kind
    · subst hsame
      rw [if_pos ⟨rfl, by rw [hqueue]; exact List.cons_ne_nil _ _, hlt⟩,
        List.filter_cons_of_pos (by simpa using hkind)]
      rfl
    · have hne : kindOf item ≠ other := by
        rw [hkind]
        exact Ne.symm hsame
      rw [if_neg fun hturn => hsame hturn.1, List.filter_cons_of_neg (by simpa using hne)]
      rfl

theorem draw_of_even {level : ℕ} {state : State ι κ} {kind : κ}
    (hgroups : ∀ kind, ∀ item ∈ groups kind, kindOf item = kind)
    (h : Split kindOf groups state) (hroom : (state.selected.length : ℤ) < limit)
    (heven : (drawn kindOf state kind).length = min level (groups kind).length) :
    (drawn kindOf (draw limit state kind) kind).length = min (level + 1) (groups kind).length := by
  have hsize := congrArg List.length (h kind)
  rw [List.length_append] at hsize
  rw [length_drawn_draw hgroups h kind kind]
  by_cases hqueue : state.queues kind = []
  · rw [if_neg fun hturn => hturn.2.1 hqueue]
    rw [hqueue, List.length_nil] at hsize
    omega
  · rw [if_pos ⟨rfl, hqueue, hroom⟩]
    have hpos := List.length_pos_iff.2 hqueue
    omega

/-- A round after which there is still room has drawn one more of every kind. -/
theorem round_of_even {level : ℕ} {state : State ι κ}
    (hgroups : ∀ kind, ∀ item ∈ groups kind, kindOf item = kind) (hnodup : kinds.Nodup)
    (h : Split kindOf groups state) (heven : Even kindOf groups kinds level state) :
    (∀ other ∉ kinds, (drawn kindOf (round limit kinds state) other).length =
      (drawn kindOf state other).length) ∧
    (Even kindOf groups kinds (level + 1) (round limit kinds state) ∨
      limit ≤ (round limit kinds state).selected.length ∧
        Level kindOf groups kinds level (round limit kinds state)) := by
  by_cases hfull : limit ≤ state.selected.length
  · unfold round
    rw [foldl_draw_of_full hfull]
    exact ⟨fun _ _ => rfl, .inr ⟨hfull, level_of_even heven⟩⟩
  unfold round
  induction kinds generalizing state with
  | nil => exact ⟨fun _ _ => rfl, .inl fun kind hkind => absurd hkind List.not_mem_nil⟩
  | cons kind kinds ih =>
      obtain ⟨hfresh, hnodup⟩ := List.nodup_cons.1 hnodup
      have hown := draw_of_even hgroups h (not_le.1 hfull) (heven kind List.mem_cons_self)
      have hothers : ∀ other, other ≠ kind →
          (drawn kindOf (draw limit state kind) other).length =
            (drawn kindOf state other).length := by
        intro other hother
        rw [length_drawn_draw hgroups h kind other, if_neg fun hturn => hother hturn.1]
      have hrest : Even kindOf groups kinds level (draw limit state kind) := by
        intro other hother
        have hne : other ≠ kind := fun heq => hfresh (heq ▸ hother)
        rw [hothers other hne]
        exact heven other (List.mem_cons_of_mem _ hother)
      have hsplit : Split kindOf groups (draw limit state kind) := split_draw hgroups h kind
      rw [List.foldl_cons]
      by_cases hend : limit ≤ (draw limit state kind).selected.length
      · rw [foldl_draw_of_full hend]
        refine ⟨fun other hother => hothers other (List.ne_of_not_mem_cons hother), .inr ⟨hend, ?_⟩⟩
        intro other hother
        rcases List.mem_cons.1 hother with rfl | hother
        · rw [hown]
          exact ⟨min_le_min (Nat.le_succ _) (le_refl _), min_le_left _ _⟩
        · exact level_of_even hrest other hother
      · obtain ⟨hsame, hround⟩ := ih hnodup hsplit hrest hend
        refine ⟨?_, ?_⟩
        · intro other hother
          rw [hsame other (List.not_mem_of_not_mem_cons hother),
            hothers other (List.ne_of_not_mem_cons hother)]
        · refine hround.imp ?_ ?_
          · intro hnext other hother
            rcases List.mem_cons.1 hother with rfl | hother
            · rw [hsame other hfresh, hown]
            · exact hnext other hother
          · rintro ⟨hlimit, hlevel⟩
            refine ⟨hlimit, ?_⟩
            intro other hother
            rcases List.mem_cons.1 hother with rfl | hother
            · rw [hsame other hfresh, hown]
              exact ⟨min_le_min (Nat.le_succ _) (le_refl _), min_le_left _ _⟩
            · exact hlevel other hother

/-- However a run ends, no kind is more than one turn ahead of another one that still
has items. -/
theorem run_level {level : ℕ} {state : State ι κ}
    (hgroups : ∀ kind, ∀ item ∈ groups kind, kindOf item = kind) (hnodup : kinds.Nodup)
    (h : Split kindOf groups state) (heven : Even kindOf groups kinds level state) :
    ∃ reached, Level kindOf groups kinds reached (run limit kinds state) := by
  induction state using run.induct limit kinds generalizing level with
  | case1 state hactive ih =>
      rw [run, if_pos hactive]
      have hsplit : Split kindOf groups (round limit kinds state) :=
        List.foldlRecOn kinds (draw limit) h fun s hs kind _ => split_draw hgroups hs kind
      rcases (round_of_even hgroups hnodup h heven).2 with hnext | ⟨hfull, hlevel⟩
      · exact ih hsplit hnext
      · refine ⟨level, ?_⟩
        rw [run, if_neg fun hnext => absurd hnext.1 (not_lt.2 hfull)]
        exact hlevel
  | case2 state hidle =>
      rw [run, if_neg hidle]
      exact ⟨level, level_of_even heven⟩

end Drawn

end Runs

end SearchTrust.Order.RoundRobin
