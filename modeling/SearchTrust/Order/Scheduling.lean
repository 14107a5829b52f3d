/-
Ordering items one after the other so that each comes after what it depends on.
-/
import Mathlib.Data.Fintype.Card
import Mathlib.Data.List.Nodup
import Mathlib.Data.List.Perm.Basic
import Mathlib.Data.Set.Finite.List
import Mathlib.Logic.Relation

namespace SearchTrust.Order

variable {α ι ε : Type*}

/-- Every item comes when all that it depends on is done. -/
def ReadyOrder (name : α → ι) (dependencies : α → List ι) : List ι → List α → Prop
  | _, [] => True
  | done, item :: rest =>
      name item ∉ done ∧ dependencies item ⊆ done ∧
        ReadyOrder name dependencies (done ++ [name item]) rest

/-- A number of turns, each of which picks an item by what is ordered already. -/
def scheduleFrom (pick : List α → Except ε α) : ℕ → List α → Except ε (List α)
  | 0, ordered => .ok ordered
  | turns + 1, ordered =>
      match pick ordered with
      | .error e => .error e
      | .ok item => scheduleFrom pick turns (ordered ++ [item])

def schedule (pick : List α → Except ε α) (turns : ℕ) : Except ε (List α) :=
  scheduleFrom pick turns []

variable {name : α → ι} {dependencies : α → List ι} {pick : List α → Except ε α}

/-- What a pick has to keep to. -/
structure PicksReady (name : α → ι) (dependencies : α → List ι) (items : List α)
    (pick : List α → Except ε α) : Prop where
  mem : ∀ {ordered item}, pick ordered = .ok item → item ∈ items
  fresh : ∀ {ordered item}, pick ordered = .ok item → name item ∉ ordered.map name
  ready : ∀ {ordered item}, pick ordered = .ok item →
    dependencies item ⊆ ordered.map name

theorem readyOrder_append {done : List ι} {before after : List α} :
    ReadyOrder name dependencies done (before ++ after) ↔
      ReadyOrder name dependencies done before ∧
        ReadyOrder name dependencies (done ++ before.map name) after := by
  induction before generalizing done with
  | nil => simp [ReadyOrder]
  | cons item before ih =>
      simp only [List.cons_append, ReadyOrder, ih, List.map_cons, List.append_assoc,
        List.nil_append, and_assoc]

/-- One more turn keeps an order in which every item is ready. -/
theorem readyOrder_snoc {items ordered : List α} {item : α}
    (hpick : PicksReady name dependencies items pick) (h : pick ordered = .ok item)
    (hready : ReadyOrder name dependencies [] ordered) :
    ReadyOrder name dependencies [] (ordered ++ [item]) := by
  rw [readyOrder_append, List.nil_append]
  exact ⟨hready, hpick.fresh h, hpick.ready h, trivial⟩

theorem scheduleFrom_ok {items : List α} (hpick : PicksReady name dependencies items pick)
    {turns : ℕ} {ordered result : List α}
    (hready : ReadyOrder name dependencies [] ordered) (hmem : ordered ⊆ items)
    (h : scheduleFrom pick turns ordered = .ok result) :
    ReadyOrder name dependencies [] result ∧ result ⊆ items ∧
      result.length = ordered.length + turns := by
  induction turns generalizing ordered with
  | zero =>
      cases h
      exact ⟨hready, hmem, rfl⟩
  | succ turns ih =>
      unfold scheduleFrom at h
      split at h
      · cases h
      · next item hitem =>
          have hstep := readyOrder_snoc hpick hitem hready
          have hitems : ordered ++ [item] ⊆ items := by
            intro a ha
            rcases List.mem_append.1 ha with ha | ha
            · exact hmem ha
            · rw [List.mem_singleton.1 ha]
              exact hpick.mem hitem
          obtain ⟨hresult, hsub, hlength⟩ := ih hstep hitems h
          refine ⟨hresult, hsub, ?_⟩
          rw [hlength, List.length_append, List.length_singleton]
          omega

/-- The turns to come leave what is ordered where it stands. -/
theorem scheduleFrom_prefix {turns : ℕ} {ordered result : List α}
    (h : scheduleFrom pick turns ordered = .ok result) : ordered <+: result := by
  induction turns generalizing ordered with
  | zero =>
      cases h
      exact List.prefix_refl _
  | succ turns ih =>
      unfold scheduleFrom at h
      split at h
      · cases h
      · exact (List.prefix_append _ _).trans (ih h)

/-- A ready order names nothing twice, and nothing that was done before. -/
theorem names_of_readyOrder {done : List ι} {items : List α}
    (h : ReadyOrder name dependencies done items) :
    (items.map name).Nodup ∧ ∀ item ∈ items, name item ∉ done := by
  induction items generalizing done with
  | nil => exact ⟨List.nodup_nil, fun _ hmem => absurd hmem List.not_mem_nil⟩
  | cons item rest ih =>
      obtain ⟨hfresh, -, hrest⟩ := h
      obtain ⟨hnodup, hdone⟩ := ih hrest
      constructor
      · rw [List.map_cons, List.nodup_cons]
        refine ⟨?_, hnodup⟩
        intro hmem
        obtain ⟨other, hother, hname⟩ := List.mem_map.1 hmem
        apply hdone other hother
        rw [hname]
        exact List.mem_append_right _ (List.mem_singleton_self _)
      · intro other hother
        rcases List.mem_cons.1 hother with rfl | hother
        · exact hfresh
        · intro hin
          exact hdone other hother (List.mem_append_left _ hin)

/-- A schedule with a turn for every item orders all of them, each after what it
depends on. -/
theorem schedule_ok {items result : List α}
    (hpick : PicksReady name dependencies items pick)
    (h : schedule pick items.length = .ok result) :
    result.Perm items ∧ ReadyOrder name dependencies [] result := by
  have hstart : ReadyOrder name dependencies [] ([] : List α) := trivial
  obtain ⟨hready, hsub, hlength⟩ := scheduleFrom_ok hpick hstart (List.nil_subset _) h
  refine ⟨?_, hready⟩
  have hnodup : result.Nodup := List.Nodup.of_map name (names_of_readyOrder hready).1
  have hsubperm : result.Subperm items := List.subperm_of_subset hnodup hsub
  refine hsubperm.perm_of_length_le (Nat.le_of_eq ?_)
  rw [hlength, List.length_nil, Nat.zero_add]

/-- In a ready order a dependency is the name of an earlier item. -/
theorem dependency_earlier {items : List α} (h : ReadyOrder name dependencies [] items)
    {before after : List α} {item : α} (hsplit : items = before ++ item :: after) :
    dependencies item ⊆ before.map name := by
  rw [hsplit, readyOrder_append, List.nil_append] at h
  exact h.2.2.1

/-- A turn finds an item as long as some are left. -/
theorem scheduleFrom_isOk {items : List α} (hpick : PicksReady name dependencies items pick)
    (hprogress : ∀ ordered, ReadyOrder name dependencies [] ordered → ordered ⊆ items →
      ordered.length < items.length → ∃ item, pick ordered = .ok item)
    {turns : ℕ} {ordered : List α} (hready : ReadyOrder name dependencies [] ordered)
    (hmem : ordered ⊆ items) (hleft : ordered.length + turns ≤ items.length) :
    ∃ result, scheduleFrom pick turns ordered = .ok result := by
  induction turns generalizing ordered with
  | zero => exact ⟨ordered, rfl⟩
  | succ turns ih =>
      obtain ⟨item, hitem⟩ := hprogress ordered hready hmem (by omega)
      have hitems : ordered ++ [item] ⊆ items := by
        intro a ha
        rcases List.mem_append.1 ha with ha | ha
        · exact hmem ha
        · rw [List.mem_singleton.1 ha]
          exact hpick.mem hitem
      have hlength : (ordered ++ [item]).length + turns ≤ items.length := by
        rw [List.length_append, List.length_singleton]
        omega
      obtain ⟨result, hresult⟩ := ih (readyOrder_snoc hpick hitem hready) hitems hlength
      refine ⟨result, ?_⟩
      rw [scheduleFrom, hitem]
      exact hresult

section Cycles

/-- One name waits for another. -/
def DependsOn (name : α → ι) (dependencies : α → List ι) (items : List α) (a b : ι) : Prop :=
  ∃ item ∈ items, name item = a ∧ b ∈ dependencies item

/-- No name waits for itself, at any distance. -/
def Acyclic (name : α → ι) (dependencies : α → List ι) (items : List α) : Prop :=
  ∀ a, ¬ Relation.TransGen (DependsOn name dependencies items) a a

theorem dependsOn_of_subset {items others : List α} (h : items ⊆ others) {a b : ι}
    (hdepends : DependsOn name dependencies items a b) :
    DependsOn name dependencies others a b := by
  obtain ⟨item, hitem, hname, hb⟩ := hdepends
  exact ⟨item, h hitem, hname, hb⟩

theorem acyclic_of_subset {items others : List α} (h : items ⊆ others)
    (hacyclic : Acyclic name dependencies others) : Acyclic name dependencies items :=
  fun a hcycle => hacyclic a
    (Relation.TransGen.mono (fun _ _ hdepends => dependsOn_of_subset h hdepends) a a hcycle)

/-- The items of a ready order do not wait in a circle: those that are reached from a name
come before it. -/
theorem acyclic_of_readyOrder {items : List α} (h : ReadyOrder name dependencies [] items) :
    Acyclic name dependencies items := by
  have hearlier : ∀ (before : List α) (item : α) (after : List α),
      items = before ++ item :: after → ∀ b,
        Relation.TransGen (DependsOn name dependencies items) (name item) b →
        b ∈ before.map name := by
    intro before
    induction hlength : before.length using Nat.strong_induction_on generalizing before with
    | h n ih =>
        intro item after hsplit b hreach
        have hdirect : ∀ c, DependsOn name dependencies items (name item) c →
            c ∈ before.map name := by
          rintro c ⟨other, hother, hname, hc⟩
          have hsame : other = item := List.inj_on_of_nodup_map (names_of_readyOrder h).1 hother
            (hsplit ▸ List.mem_append_right _ List.mem_cons_self) hname
          exact dependency_earlier h hsplit (hsame ▸ hc)
        rcases Relation.TransGen.head'_iff.1 hreach with ⟨c, hc, hrest⟩
        have hbefore := hdirect c hc
        rcases Relation.reflTransGen_iff_eq_or_transGen.1 hrest with rfl | hmore
        · exact hbefore
        · obtain ⟨first, hfirst, rfl⟩ := List.mem_map.1 hbefore
          obtain ⟨front, back, rfl⟩ := List.append_of_mem hfirst
          have hshort : front.length < n := by
            rw [← hlength, List.length_append, List.length_cons]
            omega
          have hmem := ih front.length hshort front rfl first (back ++ item :: after)
            (by rw [hsplit, List.append_assoc, List.cons_append]) b hmore
          rw [List.map_append]
          exact List.mem_append_left _ hmem
  intro a hcycle
  obtain ⟨b, ⟨item, hitem, rfl, -⟩, -⟩ := Relation.TransGen.head'_iff.1 hcycle
  obtain ⟨before, after, hsplit⟩ := List.append_of_mem hitem
  have hself := hearlier before item after hsplit (name item) hcycle
  have hnodup := (names_of_readyOrder h).1
  rw [hsplit, List.map_append, List.map_cons, List.nodup_append] at hnodup
  exact hnodup.2.2 _ hself _ List.mem_cons_self rfl

/-- Where nothing waits in a circle, some item that is left waits for no other that is
left. -/
theorem exists_ready_of_acyclic {items : List α} {done : List ι}
    (hacyclic : Acyclic name dependencies items)
    (hclosed : ∀ item ∈ items, dependencies item ⊆ items.map name)
    (hleft : ∃ item ∈ items, name item ∉ done) :
    ∃ item ∈ items, name item ∉ done ∧ dependencies item ⊆ done := by
  have hfinite : Finite {a : ι // a ∈ items.map name} :=
    (List.finite_toSet (items.map name)).to_subtype
  have htrans : IsTrans {a : ι // a ∈ items.map name} fun b a =>
      Relation.TransGen (DependsOn name dependencies items) a.1 b.1 :=
    ⟨fun _ _ _ hab hbc => hbc.trans hab⟩
  have hirrefl : Std.Irrefl fun b a : {a : ι // a ∈ items.map name} =>
      Relation.TransGen (DependsOn name dependencies items) a.1 b.1 :=
    ⟨fun a => hacyclic a.1⟩
  have hwf := Finite.wellFounded_of_trans_of_irrefl
    fun b a : {a : ι // a ∈ items.map name} =>
      Relation.TransGen (DependsOn name dependencies items) a.1 b.1
  obtain ⟨start, hstart, hfresh⟩ := hleft
  have hnonempty : {a : {a : ι // a ∈ items.map name} | a.1 ∉ done}.Nonempty :=
    ⟨⟨name start, List.mem_map_of_mem hstart⟩, hfresh⟩
  obtain ⟨least, hleast, hmin⟩ := hwf.has_min _ hnonempty
  obtain ⟨item, hitem, hname⟩ := List.mem_map.1 least.2
  refine ⟨item, hitem, hname ▸ hleast, fun b hb => ?_⟩
  by_contra hb'
  exact hmin ⟨b, hclosed item hitem hb⟩ hb' (.single ⟨item, hitem, hname, hb⟩)

end Cycles

end SearchTrust.Order
