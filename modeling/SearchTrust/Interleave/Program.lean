/-
Processes that share state through atomic operations.  A process is the tree of
the calls it makes; a machine says what each call does to the shared state and
what the environment may do between two calls.
-/
import Mathlib.Logic.Function.Basic
import Mathlib.Logic.Relation

namespace SearchTrust.Interleave

/-- The atomic operations of a system, with the type of value each returns. -/
structure Signature where
  Op : Type
  Value : Op → Type

/-- A process as the tree of its atomic calls.  A call may raise, so its
continuation receives either the value or the exception. -/
inductive Program (S : Signature) (ε α : Type) where
  | ret (value : α)
  | raise (error : ε)
  | call (op : S.Op) (next : Except ε (S.Value op) → Program S ε α)

namespace Program

variable {S : Signature} {ε α β : Type}

/-- Run the second program on the value of the first; an exception skips it. -/
def bind : Program S ε α → (α → Program S ε β) → Program S ε β
  | ret value, f => f value
  | raise error, _ => raise error
  | call op next, f => call op fun result => (next result).bind f

instance : Monad (Program S ε) where
  pure := ret
  bind := bind

@[simp] theorem pure_eq_ret (value : α) :
    (pure value : Program S ε α) = ret value := rfl

@[simp] theorem ret_bind (value : α) (f : α → Program S ε β) :
    ret value >>= f = f value := rfl

@[simp] theorem raise_bind (error : ε) (f : α → Program S ε β) :
    raise error >>= f = raise error := rfl

@[simp] theorem call_bind (op : S.Op)
    (next : Except ε (S.Value op) → Program S ε α) (f : α → Program S ε β) :
    call op next >>= f = call op fun result => next result >>= f := rfl

/-- One atomic call whose exception propagates to the caller. -/
def perform (op : S.Op) : Program S ε (S.Value op) :=
  call op fun
    | .ok value => ret value
    | .error error => raise error

/-- `for item in items: body item`. -/
def forEach {γ : Type} : List γ → (γ → Program S ε Unit) → Program S ε Unit
  | [], _ => ret ()
  | item :: rest, body => body item >>= fun _ => forEach rest body

/-- A finished outcome replayed as a program. -/
def ofExcept : Except ε α → Program S ε α
  | .ok value => ret value
  | .error error => raise error

/-- Run a program and hand its exception to the caller as a value. -/
def attempt : Program S ε α → Program S ε (Except ε α)
  | ret value => ret (.ok value)
  | raise error => ret (.error error)
  | call op next => call op fun result => (next result).attempt

/-- `try: body except error: handler error`. -/
def handle (body : Program S ε α) (handler : ε → Program S ε α) :
    Program S ε α :=
  body.attempt >>= fun
    | .ok value => ret value
    | .error error => handler error

/-- `try: body finally: cleanup`. -/
def ensuring (body : Program S ε α) (cleanup : Program S ε Unit) :
    Program S ε α :=
  body.attempt >>= fun outcome => cleanup >>= fun _ => ofExcept outcome

/-- A program over one signature as a program over another one, which serves
each of its calls. -/
def interpret {E : Signature} (serve : (op : E.Op) → Program S ε (E.Value op)) :
    Program E ε α → Program S ε α
  | ret value => ret value
  | raise error => raise error
  | call op next => (serve op).attempt >>= fun result => interpret serve (next result)

theorem bind_assoc {γ : Type} (p : Program S ε α) (f : α → Program S ε β)
    (g : β → Program S ε γ) :
    (p >>= f) >>= g = p >>= fun value => f value >>= g := by
  induction p with
  | ret value => rfl
  | raise error => rfl
  | call op next ih =>
      simp only [call_bind, call.injEq, heq_eq_eq, true_and]
      funext result
      exact ih result

theorem bind_ret (p : Program S ε α) : p >>= ret = p := by
  induction p with
  | ret value => rfl
  | raise error => rfl
  | call op next ih =>
      simp only [call_bind, call.injEq, heq_eq_eq, true_and]
      funext result
      exact ih result

/-- An attempt does not raise, so attempting it again guards what follows. -/
theorem attempt_attempt_bind (p : Program S ε α)
    (f : Except ε α → Program S ε β) :
    (p.attempt >>= f).attempt = p.attempt >>= fun outcome => (f outcome).attempt := by
  induction p with
  | ret value => rfl
  | raise error => rfl
  | call op next ih =>
      simp only [attempt, call_bind, call.injEq, heq_eq_eq, true_and]
      funext result
      exact ih result

/-- Sequencing is an attempt whose exception is raised again. -/
theorem bind_eq_attempt_bind (p : Program S ε α) (f : α → Program S ε β) :
    p >>= f = p.attempt >>= fun
      | .ok value => f value
      | .error error => raise error := by
  induction p with
  | ret value => rfl
  | raise error => rfl
  | call op next ih =>
      simp only [attempt, call_bind, call.injEq, heq_eq_eq, true_and]
      funext result
      exact ih result

/-- A process that has returned or raised makes no further call. -/
def Finished : Program S ε α → Prop
  | ret _ => True
  | raise _ => True
  | call _ _ => False

/-- The check that a process has returned. -/
def returned : Program S ε α → Bool
  | ret _ => true
  | _ => false

theorem eq_ret_of_returned {p : Program S ε Unit} (h : p.returned = true) :
    p = ret () := by
  cases p with
  | ret value => rfl
  | _ => cases h

/-- Every call a program can make satisfies `P`, whatever its calls return. -/
def OnlyCalls (P : S.Op → Prop) : Program S ε α → Prop
  | ret _ => True
  | raise _ => True
  | call op next => P op ∧ ∀ result, (next result).OnlyCalls P

section OnlyCalls

variable {P : S.Op → Prop}

@[simp] theorem onlyCalls_ret (value : α) :
    (ret value : Program S ε α).OnlyCalls P := trivial

@[simp] theorem onlyCalls_raise (error : ε) :
    (raise error : Program S ε α).OnlyCalls P := trivial

theorem OnlyCalls.all (p : Program S ε α) : p.OnlyCalls fun _ => True := by
  induction p with
  | ret value => trivial
  | raise error => trivial
  | call op next ih => exact ⟨trivial, ih⟩

theorem onlyCalls_perform {op : S.Op} (hop : P op) :
    (perform op : Program S ε _).OnlyCalls P := by
  refine ⟨hop, fun result => ?_⟩
  cases result <;> trivial

theorem onlyCalls_ofExcept (outcome : Except ε α) :
    (ofExcept outcome : Program S ε α).OnlyCalls P := by
  cases outcome <;> trivial

theorem OnlyCalls.bind {body : Program S ε α} {f : α → Program S ε β}
    (hbody : body.OnlyCalls P) (hf : ∀ value, (f value).OnlyCalls P) :
    (body >>= f).OnlyCalls P := by
  induction body with
  | ret value => exact hf value
  | raise error => trivial
  | call op next ih => exact ⟨hbody.1, fun result => ih result (hbody.2 result)⟩

theorem onlyCalls_forEach {γ : Type} {items : List γ}
    {body : γ → Program S ε Unit}
    (hbody : ∀ item ∈ items, (body item).OnlyCalls P) :
    (forEach items body).OnlyCalls P := by
  induction items with
  | nil => trivial
  | cons item rest ih =>
      refine (hbody item List.mem_cons_self).bind fun _ => ih ?_
      intro other hother
      exact hbody other (List.mem_cons_of_mem item hother)

theorem OnlyCalls.attempt {body : Program S ε α} (hbody : body.OnlyCalls P) :
    body.attempt.OnlyCalls P := by
  induction body with
  | ret value => trivial
  | raise error => trivial
  | call op next ih => exact ⟨hbody.1, fun result => ih result (hbody.2 result)⟩

theorem OnlyCalls.handle {body : Program S ε α} {handler : ε → Program S ε α}
    (hbody : body.OnlyCalls P) (hhandler : ∀ error, (handler error).OnlyCalls P) :
    (body.handle handler).OnlyCalls P := by
  refine hbody.attempt.bind fun outcome => ?_
  cases outcome with
  | ok value => trivial
  | error error => exact hhandler error

theorem OnlyCalls.ensuring {body : Program S ε α} {cleanup : Program S ε Unit}
    (hbody : body.OnlyCalls P) (hcleanup : cleanup.OnlyCalls P) :
    (body.ensuring cleanup).OnlyCalls P :=
  hbody.attempt.bind fun outcome =>
    hcleanup.bind fun _ => onlyCalls_ofExcept outcome

theorem OnlyCalls.interpret {E : Signature}
    {serve : (op : E.Op) → Program S ε (E.Value op)}
    (hserve : ∀ op, (serve op).OnlyCalls P) (p : Program E ε α) :
    (p.interpret serve).OnlyCalls P := by
  induction p with
  | ret value => trivial
  | raise error => trivial
  | call op next ih => exact (hserve op).attempt.bind ih

theorem OnlyCalls.mono {Q : S.Op → Prop} {body : Program S ε α}
    (hbody : body.OnlyCalls P) (hPQ : ∀ op, P op → Q op) : body.OnlyCalls Q := by
  induction body with
  | ret value => trivial
  | raise error => trivial
  | call op next ih =>
      exact ⟨hPQ op hbody.1, fun result => ih result (hbody.2 result)⟩

end OnlyCalls

end Program

end SearchTrust.Interleave
