/-
One process in an environment that answers each of its calls.  The answers are
fixed in advance, so they are the inputs of the process, and it has one run.
-/
import SearchTrust.Interleave.Run

namespace SearchTrust.Interleave

/-- What the environment answers to each call. -/
abbrev Answers (S : Signature) (ε : Type) := (op : S.Op) → Except ε (S.Value op)

variable {S : Signature} {ε α β : Type}

namespace Program

/-- The calls of the run, in order. -/
def calls (answers : Answers S ε) : Program S ε α → List S.Op
  | ret _ => []
  | raise _ => []
  | call op next => op :: (next (answers op)).calls answers

/-- How the run ends. -/
def outcome (answers : Answers S ε) : Program S ε α → Except ε α
  | ret value => .ok value
  | raise error => .error error
  | call op next => (next (answers op)).outcome answers

section Rules

variable (answers : Answers S ε)

@[simp] theorem calls_ret (value : α) : (ret value : Program S ε α).calls answers = [] :=
  rfl

@[simp] theorem calls_raise (error : ε) : (raise error : Program S ε α).calls answers = [] :=
  rfl

@[simp] theorem outcome_ret (value : α) :
    (ret value : Program S ε α).outcome answers = .ok value := rfl

@[simp] theorem outcome_raise (error : ε) :
    (raise error : Program S ε α).outcome answers = .error error := rfl

@[simp] theorem calls_perform (op : S.Op) :
    (perform op : Program S ε _).calls answers = [op] := by
  simp only [perform, calls]
  cases answers op <;> rfl

@[simp] theorem outcome_perform (op : S.Op) :
    (perform op : Program S ε _).outcome answers = answers op := by
  simp only [perform, outcome]
  cases answers op <;> rfl

@[simp] theorem outcome_ofExcept (result : Except ε α) :
    (ofExcept result : Program S ε α).outcome answers = result := by
  cases result <;> rfl

@[simp] theorem calls_ofExcept (result : Except ε α) :
    (ofExcept result : Program S ε α).calls answers = [] := by
  cases result <;> rfl

theorem outcome_bind (p : Program S ε α) (f : α → Program S ε β) :
    (p >>= f).outcome answers =
      match p.outcome answers with
      | .ok value => (f value).outcome answers
      | .error error => .error error := by
  induction p with
  | ret value => rfl
  | raise error => rfl
  | call op next ih => exact ih (answers op)

theorem calls_bind (p : Program S ε α) (f : α → Program S ε β) :
    (p >>= f).calls answers = p.calls answers ++
      match p.outcome answers with
      | .ok value => (f value).calls answers
      | .error _ => [] := by
  induction p with
  | ret value => rfl
  | raise error => rfl
  | call op next ih => exact congrArg (op :: ·) (ih (answers op))

variable {answers}

/-- What follows a program that returns. -/
theorem calls_bind_of_ok {p : Program S ε α} {value : α}
    (h : p.outcome answers = .ok value) (f : α → Program S ε β) :
    (p >>= f).calls answers = p.calls answers ++ (f value).calls answers := by
  rw [calls_bind, h]

variable (answers)

@[simp] theorem outcome_attempt (p : Program S ε α) :
    p.attempt.outcome answers = .ok (p.outcome answers) := by
  induction p with
  | ret value => rfl
  | raise error => rfl
  | call op next ih => exact ih (answers op)

@[simp] theorem calls_attempt (p : Program S ε α) :
    p.attempt.calls answers = p.calls answers := by
  induction p with
  | ret value => rfl
  | raise error => rfl
  | call op next ih => exact congrArg (op :: ·) (ih (answers op))

theorem calls_handle (p : Program S ε α) (handler : ε → Program S ε α) :
    (p.handle handler).calls answers = p.calls answers ++
      match p.outcome answers with
      | .ok _ => []
      | .error error => (handler error).calls answers := by
  unfold handle
  rw [calls_bind_of_ok (outcome_attempt answers p), calls_attempt]
  cases p.outcome answers <;> rfl

theorem calls_ensuring (p : Program S ε α) (cleanup : Program S ε Unit) :
    (p.ensuring cleanup).calls answers = p.calls answers ++ cleanup.calls answers := by
  unfold ensuring
  rw [calls_bind_of_ok (outcome_attempt answers p), calls_attempt, calls_bind]
  cases cleanup.outcome answers with
  | ok value => simp
  | error error => simp

/-- A handler that only replaces the exception makes no call. -/
theorem calls_handle_of_calls_eq_nil (p : Program S ε α) {handler : ε → Program S ε α}
    (h : ∀ error, (handler error).calls answers = []) :
    (p.handle handler).calls answers = p.calls answers := by
  rw [calls_handle]
  cases p.outcome answers with
  | ok value => exact List.append_nil _
  | error error => simp only [h error, List.append_nil]

/-- The calls of the run are calls that the program can make. -/
theorem OnlyCalls.of_mem_calls {P : S.Op → Prop} {p : Program S ε α} (hp : p.OnlyCalls P)
    {op : S.Op} (hop : op ∈ p.calls answers) : P op := by
  induction p with
  | ret value => cases hop
  | raise error => cases hop
  | call op' next ih =>
      rcases List.mem_cons.1 hop with rfl | hop
      · exact hp.1
      · exact ih (answers op') (hp.2 _) hop

end Rules

section Collect

variable {γ : Type} (answers : Answers S ε) (pick : S.Op → Option γ)

/-- What a test picks out of the calls of the run. -/
def collect (p : Program S ε α) : List γ := (p.calls answers).filterMap pick

@[simp] theorem collect_ret (value : α) :
    (ret value : Program S ε α).collect answers pick = [] := rfl

@[simp] theorem collect_raise (error : ε) :
    (raise error : Program S ε α).collect answers pick = [] := rfl

theorem collect_perform (op : S.Op) :
    (perform op : Program S ε _).collect answers pick = (pick op).toList := by
  rw [collect, calls_perform, List.filterMap_cons]
  cases pick op <;> rfl

@[simp] theorem collect_attempt (p : Program S ε α) :
    p.attempt.collect answers pick = p.collect answers pick := by
  rw [collect, calls_attempt, collect]

theorem collect_bind (p : Program S ε α) (f : α → Program S ε β) :
    (p >>= f).collect answers pick = p.collect answers pick ++
      match p.outcome answers with
      | .ok value => (f value).collect answers pick
      | .error _ => [] := by
  rw [collect, calls_bind, List.filterMap_append]
  cases p.outcome answers <;> rfl

theorem collect_bind_of_ok {p : Program S ε α} {value : α}
    (h : p.outcome answers = .ok value) (f : α → Program S ε β) :
    (p >>= f).collect answers pick =
      p.collect answers pick ++ (f value).collect answers pick := by
  rw [collect_bind, h]

theorem collect_bind_of_error {p : Program S ε α} {error : ε}
    (h : p.outcome answers = .error error) (f : α → Program S ε β) :
    (p >>= f).collect answers pick = p.collect answers pick := by
  rw [collect_bind, h, List.append_nil]

theorem collect_ensuring (p : Program S ε α) (cleanup : Program S ε Unit) :
    (p.ensuring cleanup).collect answers pick =
      p.collect answers pick ++ cleanup.collect answers pick := by
  rw [collect, calls_ensuring, List.filterMap_append]
  rfl

theorem collect_handle_of_calls_eq_nil (p : Program S ε α)
    {handler : ε → Program S ε α} (h : ∀ error, (handler error).calls answers = []) :
    (p.handle handler).collect answers pick = p.collect answers pick := by
  rw [collect, calls_handle_of_calls_eq_nil answers p h]
  rfl

/-- A program none of whose calls can be picked. -/
theorem collect_eq_nil {p : Program S ε α} (hp : p.OnlyCalls fun op => pick op = none) :
    p.collect answers pick = [] :=
  List.filterMap_eq_nil_iff.2 fun _ hop => hp.of_mem_calls answers hop

/-- What follows adds nothing when none of its calls can be picked. -/
theorem collect_bind_eq_left {p : Program S ε α} {f : α → Program S ε β}
    (hf : ∀ value, (f value).OnlyCalls fun op => pick op = none) :
    (p >>= f).collect answers pick = p.collect answers pick := by
  rw [collect_bind]
  cases p.outcome answers with
  | ok value => simp only [collect_eq_nil answers pick (hf value), List.append_nil]
  | error error => exact List.append_nil _

end Collect

end Program

/-- A process whose calls leave the shared state as it is makes all of them on its own. -/
theorem run_alone {σ ι : Type} [DecidableEq ι] {M : Machine S ε σ} {answers : Answers S ε}
    {i : ι} (p : Program S ε Unit) {c : Config S ε σ ι} (hpool : c.pool i = p)
    (hcalls : ∀ op ∈ p.calls answers, M.Performs op c.state (answers op) c.state) :
    ∃ c', Run M Anything c c' ∧
      (ownCalls c'.history i).length =
        (ownCalls c.history i).length + (p.calls answers).length := by
  induction p generalizing c with
  | ret value => exact ⟨c, .refl, rfl⟩
  | raise error => exact ⟨c, .refl, rfl⟩
  | call op next ih =>
      have hen : Enabled M Anything c ⟨i, op, answers op, c.state, c.state⟩
          (next (answers op)) :=
        ⟨⟨next, hpool, rfl⟩, rfl, hcalls op List.mem_cons_self, trivial⟩
      obtain ⟨c', hrun, hlength⟩ := ih (answers op)
        (c := c.perform ⟨i, op, answers op, c.state, c.state⟩ (next (answers op)))
        (by rw [Config.perform_pool, Function.update_self])
        fun op' hop' => hcalls op' (List.mem_cons_of_mem op hop')
      refine ⟨c', .head (.act hen) hrun, ?_⟩
      have hown : ownCalls (c.perform ⟨i, op, answers op, c.state, c.state⟩
          (next (answers op))).history i =
            ⟨i, op, answers op, c.state, c.state⟩ :: ownCalls c.history i :=
        ownCalls_cons_self ⟨i, op, answers op, c.state, c.state⟩ c.history
      rw [hlength, hown, List.length_cons, Program.calls, List.length_cons]
      omega

end SearchTrust.Interleave
