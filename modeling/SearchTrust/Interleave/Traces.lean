/-
The runs of one process in an environment that may answer the same call
differently every time, and may stop answering at any point.
-/
import SearchTrust.Interleave.Program

namespace SearchTrust.Interleave

/-- A call together with the answer it got. -/
structure Exchange (S : Signature) (ε : Type) where
  op : S.Op
  result : Except ε (S.Value op)

variable {S : Signature} {ε α β : Type}

namespace Program

/-- The calls that were made, oldest first, up to some point of a run. -/
inductive Trace : Program S ε α → List (Exchange S ε) → Prop where
  | stopped (p : Program S ε α) : Trace p []
  | call {op : S.Op} {next : Except ε (S.Value op) → Program S ε α}
      {trace : List (Exchange S ε)} (result : Except ε (S.Value op))
      (rest : Trace (next result) trace) :
      Trace (.call op next) (⟨op, result⟩ :: trace)

/-- After the calls in `past`, every further call of the program has `P`, which may
look at the calls before it, and `Q` holds of its outcome when it ends. -/
def Traced (P : List (Exchange S ε) → S.Op → Prop) (past : List (Exchange S ε)) :
    Program S ε α → (Except ε α → List (Exchange S ε) → Prop) → Prop
  | .ret value, Q => Q (.ok value) past
  | .raise error, Q => Q (.error error) past
  | .call op next, Q =>
      P past op ∧ ∀ result, Traced P (past ++ [⟨op, result⟩]) (next result) Q

/-- The calls of a run whose answers are given one by one; the run stops with them. -/
def transcript : List ((op : S.Op) → Except ε (S.Value op)) → Program S ε α →
    List (Exchange S ε)
  | answer :: rest, call op next => ⟨op, answer op⟩ :: transcript rest (next (answer op))
  | _, _ => []

theorem trace_transcript (answers : List ((op : S.Op) → Except ε (S.Value op)))
    (p : Program S ε α) : p.Trace (transcript answers p) := by
  induction answers generalizing p with
  | nil => exact .stopped p
  | cons answer rest ih =>
      cases p with
      | ret value => exact .stopped _
      | raise error => exact .stopped _
      | call op next => exact .call (answer op) (ih (next (answer op)))

section Rules

variable {P : List (Exchange S ε) → S.Op → Prop} {past : List (Exchange S ε)}
  {Q R : Except ε α → List (Exchange S ε) → Prop}

theorem Traced.weaken {p : Program S ε α} (hp : p.Traced P past Q)
    (hQ : ∀ outcome later, Q outcome later → R outcome later) : p.Traced P past R := by
  induction p generalizing past with
  | ret value => exact hQ _ _ hp
  | raise error => exact hQ _ _ hp
  | call op next ih => exact ⟨hp.1, fun result => ih result (hp.2 result)⟩

theorem Traced.bind {p : Program S ε α} {f : α → Program S ε β}
    {R : Except ε β → List (Exchange S ε) → Prop}
    (hp : p.Traced P past fun outcome later =>
      match outcome with
      | .ok value => (f value).Traced P later R
      | .error error => R (.error error) later) :
    (p >>= f).Traced P past R := by
  induction p generalizing past with
  | ret value => exact hp
  | raise error => exact hp
  | call op next ih => exact ⟨hp.1, fun result => ih result (hp.2 result)⟩

theorem Traced.attempt {p : Program S ε α}
    {R : Except ε (Except ε α) → List (Exchange S ε) → Prop}
    (hp : p.Traced P past fun outcome later => R (.ok outcome) later) :
    p.attempt.Traced P past R := by
  induction p generalizing past with
  | ret value => exact hp
  | raise error => exact hp
  | call op next ih => exact ⟨hp.1, fun result => ih result (hp.2 result)⟩

theorem Traced.handle {p : Program S ε α} {handler : ε → Program S ε α}
    (hp : p.Traced P past fun outcome later =>
      match outcome with
      | .ok value => Q (.ok value) later
      | .error error => (handler error).Traced P later Q) :
    (p.handle handler).Traced P past Q := by
  refine Traced.bind (Traced.attempt (hp.weaken fun outcome later h => ?_))
  cases outcome <;> exact h

theorem traced_perform {op : S.Op} {R : Except ε (S.Value op) → List (Exchange S ε) → Prop}
    (hop : P past op) (hR : ∀ result, R result (past ++ [⟨op, result⟩])) :
    (perform op : Program S ε _).Traced P past R := by
  refine ⟨hop, fun result => ?_⟩
  cases result <;> exact hR _

/-- Every call in a run of such a program has `P`. -/
theorem Traced.sound {p : Program S ε α} (hp : p.Traced P past Q)
    {trace : List (Exchange S ε)} (htrace : p.Trace trace)
    {earlier later : List (Exchange S ε)} {e : Exchange S ε}
    (hsplit : trace = earlier ++ e :: later) : P (past ++ earlier) e.op := by
  induction htrace generalizing past earlier with
  | stopped p => simp at hsplit
  | call result rest ih =>
      cases earlier with
      | nil =>
          obtain ⟨rfl, -⟩ := List.cons.inj hsplit
          rw [List.append_nil]
          exact hp.1
      | cons first earlier =>
          obtain ⟨rfl, hrest⟩ := List.cons.inj hsplit
          have htail := ih (hp.2 result) hrest
          rwa [List.append_assoc, List.singleton_append] at htail

end Rules

end Program

end SearchTrust.Interleave
