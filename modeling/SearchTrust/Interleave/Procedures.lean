/-
A procedure inside a process: what is left of it after some of its calls, and
what is known of the call with which it returns.
-/
import SearchTrust.Interleave.Run

namespace SearchTrust.Interleave

variable {S : Signature} {ε σ ι α β : Type}

/-- What can be left of a program after some of its calls. -/
inductive Residual (body : Program S ε α) : Program S ε α → Prop
  | start : Residual body body
  | call {op : S.Op} {next : Except ε (S.Value op) → Program S ε α}
      (result : Except ε (S.Value op)) (h : Residual body (.call op next)) :
      Residual body (next result)

namespace Program

/-- Every call with which the program returns has the property `P`. -/
def ReturnsBy (P : (op : S.Op) → Except ε (S.Value op) → α → Prop) :
    Program S ε α → Prop
  | ret _ => True
  | raise _ => True
  | call op next =>
      (∀ result value, next result = ret value → P op result value) ∧
        ∀ result, (next result).ReturnsBy P

/-- The program has not returned yet. -/
def Pending : Program S ε α → Prop
  | ret _ => False
  | _ => True

section ReturnsBy

variable {P : (op : S.Op) → Except ε (S.Value op) → β → Prop}

/-- What follows a program that does not return at once decides with which call
the whole returns. -/
theorem ReturnsBy.bind {f : α → Program S ε β}
    (hf : ∀ value, (f value).ReturnsBy P) (hpending : ∀ value, (f value).Pending)
    (body : Program S ε α) : (body >>= f).ReturnsBy P := by
  induction body with
  | ret value => exact hf value
  | raise error => trivial
  | call op next ih =>
      refine ⟨?_, ih⟩
      intro result value hvalue
      have hvalue : next result >>= f = ret value := hvalue
      cases hnext : next result with
      | ret inner =>
          rw [hnext, ret_bind] at hvalue
          have hinner := hpending inner
          rw [hvalue] at hinner
          cases hinner
      | raise error =>
          rw [hnext] at hvalue
          cases hvalue
      | call op' next' =>
          rw [hnext] at hvalue
          cases hvalue

/-- Sequencing, when what follows may return at once. -/
theorem ReturnsBy.andThen {P' : (op : S.Op) → Except ε (S.Value op) → α → Prop}
    {body : Program S ε α} {f : α → Program S ε β} (hbody : body.ReturnsBy P')
    (hf : ∀ value, (f value).ReturnsBy P)
    (h : ∀ op result inner value, P' op result inner → f inner = ret value →
      P op result value) : (body >>= f).ReturnsBy P := by
  induction body with
  | ret value => exact hf value
  | raise error => trivial
  | call op next ih =>
      refine ⟨?_, fun result => ih result (hbody.2 result)⟩
      intro result value hvalue
      have hvalue : next result >>= f = ret value := hvalue
      cases hnext : next result with
      | ret inner =>
          rw [hnext, ret_bind] at hvalue
          exact h op result inner value (hbody.1 result inner hnext) hvalue
      | raise error =>
          rw [hnext] at hvalue
          cases hvalue
      | call op' next' =>
          rw [hnext] at hvalue
          cases hvalue

theorem ReturnsBy.residual {body rest : Program S ε β} (hbody : body.ReturnsBy P)
    (hrest : Residual body rest) : rest.ReturnsBy P := by
  induction hrest with
  | start => exact hbody
  | call result _ ih => exact ih.2 result

end ReturnsBy

end Program

/-- Process `i` is inside a call of the procedure `body`, of which `rest` is left;
what the process does with the outcome comes after it. -/
structure Inside (c : Config S ε σ ι) (i : ι) (body rest : Program S ε α) : Prop where
  residual : Residual body rest
  pool : ∃ k, c.pool i = rest.attempt >>= k

/-- A procedure that is about to return returns by a call with the property. -/
theorem Inside.returnsBy {c : Config S ε σ ι} {i : ι} {body : Program S ε α}
    {P : (op : S.Op) → Except ε (S.Value op) → α → Prop} {op : S.Op}
    {next : Except ε (S.Value op) → Program S ε α}
    (h : Inside c i body (.call op next)) (hbody : body.ReturnsBy P)
    {result : Except ε (S.Value op)} {value : α} (hret : next result = .ret value) :
    P op result value :=
  (hbody.residual h.residual).1 result value hret

end SearchTrust.Interleave
