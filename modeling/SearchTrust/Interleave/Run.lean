/-
Interleaved runs of a pool of processes.  A configuration keeps the history of
the atomic calls made so far, so that a property of a run is a property of the
configurations it reaches.
-/
import Mathlib.Algebra.BigOperators.Group.Finset.Piecewise
import Mathlib.Algebra.Order.BigOperators.Group.Finset
import SearchTrust.Interleave.Program

namespace SearchTrust.Interleave

/-- What an atomic call does to the shared state.  The answer is the choice of
the environment for this call: a reply of an external service, a clock reading,
a failure.  A drift is a change of the state that no process makes. -/
structure Machine (S : Signature) (ε σ : Type) where
  Answer : Type
  exec : Answer → (op : S.Op) → σ → Option (Except ε (S.Value op) × σ)
  Drift : Type
  drift : Drift → σ → Option σ

/-- One atomic call that was made, with the state around it. -/
structure Event (S : Signature) (ε σ ι : Type) where
  actor : ι
  op : S.Op
  result : Except ε (S.Value op)
  before : σ
  after : σ

/-- The history, newest call first, the shared state, and what remains of every
process. -/
structure Config (S : Signature) (ε σ ι : Type) where
  history : List (Event S ε σ ι)
  state : σ
  pool : ι → Program S ε Unit

variable {S : Signature} {ε σ ι : Type}

namespace Machine

/-- Some answer of the environment makes the call end in this way. -/
def Performs (M : Machine S ε σ) (op : S.Op) (before : σ)
    (result : Except ε (S.Value op)) (after : σ) : Prop :=
  ∃ answer, M.exec answer op before = some (result, after)

def Drifts (M : Machine S ε σ) (before after : σ) : Prop :=
  ∃ choice, M.drift choice before = some after

end Machine

namespace Config

def drifted (c : Config S ε σ ι) (after : σ) : Config S ε σ ι :=
  { c with state := after }

@[simp] theorem drifted_history (c : Config S ε σ ι) (after : σ) :
    (c.drifted after).history = c.history := rfl

@[simp] theorem drifted_state (c : Config S ε σ ι) (after : σ) :
    (c.drifted after).state = after := rfl

@[simp] theorem drifted_pool (c : Config S ε σ ι) (after : σ) :
    (c.drifted after).pool = c.pool := rfl

variable [DecidableEq ι]

/-- The configuration after a call; `rest` is what remains of its process. -/
def perform (c : Config S ε σ ι) (e : Event S ε σ ι) (rest : Program S ε Unit) :
    Config S ε σ ι :=
  ⟨e :: c.history, e.after, Function.update c.pool e.actor rest⟩

/-- A crashed process makes no further call. -/
def crash (c : Config S ε σ ι) (i : ι) : Config S ε σ ι :=
  { c with pool := Function.update c.pool i (.ret ()) }

@[simp] theorem perform_history (c : Config S ε σ ι) (e : Event S ε σ ι)
    (rest : Program S ε Unit) : (c.perform e rest).history = e :: c.history := rfl

@[simp] theorem perform_state (c : Config S ε σ ι) (e : Event S ε σ ι)
    (rest : Program S ε Unit) : (c.perform e rest).state = e.after := rfl

theorem perform_pool (c : Config S ε σ ι) (e : Event S ε σ ι)
    (rest : Program S ε Unit) :
    (c.perform e rest).pool = Function.update c.pool e.actor rest := rfl

@[simp] theorem crash_history (c : Config S ε σ ι) (i : ι) :
    (c.crash i).history = c.history := rfl

@[simp] theorem crash_state (c : Config S ε σ ι) (i : ι) :
    (c.crash i).state = c.state := rfl

theorem crash_pool (c : Config S ε σ ι) (i : ι) :
    (c.crash i).pool = Function.update c.pool i (.ret ()) := rfl

end Config

section OwnCalls

variable [DecidableEq ι]

/-- The calls of one process. -/
def ownCalls (history : List (Event S ε σ ι)) (i : ι) : List (Event S ε σ ι) :=
  history.filter fun e => decide (e.actor = i)

@[simp] theorem ownCalls_cons_self (e : Event S ε σ ι)
    (history : List (Event S ε σ ι)) :
    ownCalls (e :: history) e.actor = e :: ownCalls history e.actor := by
  simp [ownCalls]

theorem ownCalls_cons_of_ne {e : Event S ε σ ι} {i : ι} (h : e.actor ≠ i)
    (history : List (Event S ε σ ι)) :
    ownCalls (e :: history) i = ownCalls history i := by
  simp [ownCalls, h]

/-- The latest call of a process. -/
def lastCall (history : List (Event S ε σ ι)) (i : ι) : Option (Event S ε σ ι) :=
  (ownCalls history i).head?

end OwnCalls

/-- A condition that a run may be asked to meet at each of its calls. -/
abbrev CallCondition (S : Signature) (ε σ ι : Type) :=
  Config S ε σ ι → Event S ε σ ι → Prop

section Step

variable [DecidableEq ι] (M : Machine S ε σ) (cond : CallCondition S ε σ ι)

/-- The call `e` is the next one of its process, the machine allows its outcome,
and it meets the condition. -/
structure Enabled (c : Config S ε σ ι) (e : Event S ε σ ι)
    (rest : Program S ε Unit) : Prop where
  next : ∃ k, c.pool e.actor = .call e.op k ∧ rest = k e.result
  before : e.before = c.state
  performs : M.Performs e.op c.state e.result e.after
  meets : cond c e

/-- One step of an interleaving: a call of some process, a drift, or a crash. -/
inductive Step : Config S ε σ ι → Config S ε σ ι → Prop
  | act {c e rest} (h : Enabled M cond c e rest) : Step c (c.perform e rest)
  | drift {c after} (h : M.Drifts c.state after) : Step c (c.drifted after)
  | crash (c i) : Step c (c.crash i)

/-- A run whose calls all meet the condition. -/
abbrev Run : Config S ε σ ι → Config S ε σ ι → Prop :=
  Relation.ReflTransGen (Step M cond)

end Step

/-- The condition that every call meets. -/
def Anything : CallCondition S ε σ ι := fun _ _ => True

/-- The start of a run: no call has been made. -/
def start (s : σ) (pool : ι → Program S ε Unit) : Config S ε σ ι :=
  ⟨[], s, pool⟩

section Runs

variable [DecidableEq ι] {M : Machine S ε σ} {cond : CallCondition S ε σ ι}
  {c c' : Config S ε σ ι}

/-- What holds at the start and is kept by calls, drifts and crashes holds in
every configuration a run reaches. -/
theorem Run.invariant {I : Config S ε σ ι → Prop} (hrun : Run M cond c c')
    (hstart : I c)
    (hact : ∀ {c e rest}, I c → Enabled M cond c e rest → I (c.perform e rest))
    (hdrift : ∀ {c after}, I c → M.Drifts c.state after → I (c.drifted after))
    (hcrash : ∀ {c} i, I c → I (c.crash i)) : I c' := by
  induction hrun with
  | refl => exact hstart
  | tail _ hstep ih =>
      cases hstep with
      | act h => exact hact ih h
      | drift h => exact hdrift ih h
      | crash i => exact hcrash i ih

/-- A weaker condition admits more runs. -/
theorem Run.weaken {cond' : CallCondition S ε σ ι} (hrun : Run M cond c c')
    (hweak : ∀ c e, cond c e → cond' c e) : Run M cond' c c' := by
  refine Relation.ReflTransGen.mono ?_ _ _ hrun
  intro d d' hstep
  cases hstep with
  | act h => exact .act ⟨h.next, h.before, h.performs, hweak _ _ h.meets⟩
  | drift h => exact .drift h
  | crash i => exact .crash _ i

/-- Every call in the history was enabled in a configuration of the run. -/
theorem Run.of_mem_history {s : σ} {pool : ι → Program S ε Unit}
    (hrun : Run M cond (start s pool) c) {e : Event S ε σ ι}
    (he : e ∈ c.history) :
    ∃ d rest, Run M cond (start s pool) d ∧ Enabled M cond d e rest ∧
      Run M cond (d.perform e rest) c := by
  induction hrun with
  | refl => simp [start] at he
  | tail hprev hstep ih =>
      cases hstep with
      | act h =>
          simp only [Config.perform_history, List.mem_cons] at he
          rcases he with rfl | he
          · exact ⟨_, _, hprev, h, .refl⟩
          · obtain ⟨d, rest, hd, hen, hafter⟩ := ih he
            exact ⟨d, rest, hd, hen, hafter.tail (.act h)⟩
      | drift h =>
          obtain ⟨d, rest, hd, hen, hafter⟩ := ih he
          exact ⟨d, rest, hd, hen, hafter.tail (.drift h)⟩
      | crash i =>
          obtain ⟨d, rest, hd, hen, hafter⟩ := ih he
          exact ⟨d, rest, hd, hen, hafter.tail (.crash _ i)⟩

end Runs

section Play

variable [DecidableEq ι]

/-- One entry of a schedule. -/
inductive Move (M : Machine S ε σ) (ι : Type) where
  | act (actor : ι) (answer : M.Answer)
  | drift (choice : M.Drift)
  | crash (actor : ι)

/-- The next call of process `i` under an answer of the environment, with what
remains of the process; `none` when the process has finished or is blocked, or
when the call does not pass the check. -/
def nextCall (M : Machine S ε σ) (check : Config S ε σ ι → Event S ε σ ι → Bool)
    (c : Config S ε σ ι) (i : ι) (answer : M.Answer) :
    Option (Event S ε σ ι × Program S ε Unit) :=
  match c.pool i with
  | .call op next =>
      match M.exec answer op c.state with
      | some (result, after) =>
          if check c ⟨i, op, result, c.state, after⟩ then
            some (⟨i, op, result, c.state, after⟩, next result)
          else none
      | none => none
  | _ => none

/-- Play one entry of a schedule. -/
def Move.play {M : Machine S ε σ} (check : Config S ε σ ι → Event S ε σ ι → Bool)
    (c : Config S ε σ ι) : Move M ι → Option (Config S ε σ ι)
  | .act i answer => (nextCall M check c i answer).map fun p => c.perform p.1 p.2
  | .drift choice => (M.drift choice c.state).map c.drifted
  | .crash i => some (c.crash i)

/-- Play a whole schedule. -/
def play {M : Machine S ε σ} (check : Config S ε σ ι → Event S ε σ ι → Bool) :
    List (Move M ι) → Config S ε σ ι → Option (Config S ε σ ι)
  | [], c => some c
  | move :: rest, c => (move.play check c).bind (play check rest)

variable {M : Machine S ε σ} {check : Config S ε σ ι → Event S ε σ ι → Bool}
  {cond : CallCondition S ε σ ι} {c c' : Config S ε σ ι}

omit [DecidableEq ι] in
theorem enabled_of_nextCall (hcheck : ∀ c e, check c e = true → cond c e)
    {i : ι} {answer : M.Answer} {p : Event S ε σ ι × Program S ε Unit}
    (h : nextCall M check c i answer = some p) : Enabled M cond c p.1 p.2 := by
  simp only [nextCall] at h
  split at h
  next op next hpool =>
    split at h
    next result after hexec =>
      split at h
      next hpass =>
        obtain rfl := Option.some.inj h
        exact ⟨⟨next, hpool, rfl⟩, rfl, ⟨answer, hexec⟩, hcheck _ _ hpass⟩
      next => cases h
    next => cases h
  next => cases h

theorem Move.play_step (hcheck : ∀ c e, check c e = true → cond c e)
    {move : Move M ι} (h : move.play check c = some c') : Step M cond c c' := by
  cases move with
  | act i answer =>
      obtain ⟨p, hp, rfl⟩ := Option.map_eq_some_iff.1 h
      exact .act (enabled_of_nextCall hcheck hp)
  | drift choice =>
      obtain ⟨after, hafter, rfl⟩ := Option.map_eq_some_iff.1 h
      exact .drift ⟨choice, hafter⟩
  | crash i =>
      obtain rfl := Option.some.inj h
      exact .crash c i

/-- A schedule that can be played is a run. -/
theorem play_run (hcheck : ∀ c e, check c e = true → cond c e)
    {moves : List (Move M ι)} (h : play check moves c = some c') :
    Run M cond c c' := by
  induction moves generalizing c with
  | nil =>
      obtain rfl := Option.some.inj h
      exact .refl
  | cons move rest ih =>
      obtain ⟨d, hd, hrest⟩ := Option.bind_eq_some_iff.1 h
      exact .head (Move.play_step hcheck hd) (ih hrest)

/-- A schedule whose last configuration passes a test reaches one that does. -/
theorem exists_run_of_play (hcheck : ∀ c e, check c e = true → cond c e)
    {moves : List (Move M ι)} {test : Config S ε σ ι → Bool}
    (h : (play check moves c).any test = true) :
    ∃ c', Run M cond c c' ∧ test c' = true := by
  obtain ⟨c', hplay, htest⟩ := Option.any_eq_true _ _ |>.1 h
  exact ⟨c', play_run hcheck hplay, htest⟩

omit [DecidableEq ι] in
/-- A next call that passes a test is an enabled call that does. -/
theorem exists_enabled_of_nextCall (hcheck : ∀ c e, check c e = true → cond c e)
    {i : ι} {answer : M.Answer}
    {test : Event S ε σ ι × Program S ε Unit → Bool}
    (h : (nextCall M check c i answer).any test = true) :
    ∃ e rest, Enabled M cond c e rest ∧ test (e, rest) = true := by
  obtain ⟨p, hp, htest⟩ := Option.any_eq_true _ _ |>.1 h
  exact ⟨p.1, p.2, enabled_of_nextCall hcheck hp, htest⟩

omit [DecidableEq ι] in
/-- A next call that passes a test, whatever the calls of the run have to meet. -/
theorem exists_call_of_nextCall {i : ι} {answer : M.Answer}
    {test : Event S ε σ ι × Program S ε Unit → Bool}
    (h : (nextCall M (fun _ _ => true) c i answer).any test = true) :
    ∃ e rest, Enabled M Anything c e rest ∧ test (e, rest) = true :=
  exists_enabled_of_nextCall (fun _ _ _ => trivial) h

end Play

end SearchTrust.Interleave
