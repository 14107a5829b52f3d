/-
Rely-guarantee reasoning for pools of processes.  Every process is checked on
its own, against assertions that the calls of the other processes keep; the
soundness theorem then speaks about all interleavings of the pool.
-/
import SearchTrust.Interleave.Run

namespace SearchTrust.Interleave

variable {S : Signature} {ε σ ι α β : Type} [DecidableEq ι]

/-- What a pool is checked against: an invariant of all configurations, a
condition assumed of every call of the run, and the guarantee that every call
has to meet in return. -/
structure Discipline (S : Signature) (ε σ ι : Type) where
  inv : Config S ε σ ι → Prop
  cond : CallCondition S ε σ ι
  goal : CallCondition S ε σ ι

variable (M : Machine S ε σ) (D : Discipline S ε σ ι)

/-- An assertion of process `i` that no step of the rest of the system breaks. -/
structure Stable (i : ι) (A : Config S ε σ ι → Prop) : Prop where
  act : ∀ {c e rest}, D.inv c → A c → e.actor ≠ i → Enabled M D.cond c e rest →
    D.goal c e → A (c.perform e rest)
  drift : ∀ {c after}, D.inv c → A c → M.Drifts c.state after → A (c.drifted after)
  crash : ∀ {c} j, D.inv c → A c → A (c.crash j)

/-- An assertion that no step at all breaks. -/
structure Persistent (J : Config S ε σ ι → Prop) : Prop where
  act : ∀ {c e rest}, D.inv c → J c → M.Performs e.op c.state e.result e.after →
    D.cond c e → D.goal c e → J (c.perform e rest)
  drift : ∀ {c after}, D.inv c → J c → M.Drifts c.state after → J (c.drifted after)
  crash : ∀ {c} j, D.inv c → J c → J (c.crash j)

/-- From every configuration with the invariant and the assertion `A`, the
program of process `i` meets the guarantee at each of its calls, and `Q` holds
of its outcome when it ends. -/
def Safe (i : ι) : Program S ε α → (Config S ε σ ι → Prop) →
    (Except ε α → Config S ε σ ι → Prop) → Prop
  | .ret value, A, Q => ∀ c, D.inv c → A c → Q (.ok value) c
  | .raise error, A, Q => ∀ c, D.inv c → A c → Q (.error error) c
  | .call op next, A, Q =>
      ∀ c result after, D.inv c → A c → M.Performs op c.state result after →
        D.cond c ⟨i, op, result, c.state, after⟩ →
        D.goal c ⟨i, op, result, c.state, after⟩ ∧
        ∃ B, Stable M D i B ∧
          (∀ rest, D.inv (c.perform ⟨i, op, result, c.state, after⟩ rest) →
            B (c.perform ⟨i, op, result, c.state, after⟩ rest)) ∧
          Safe i (next result) B Q

/-- An assertion about the value of a program and one about its exception. -/
def Outcome (onValue : α → Config S ε σ ι → Prop)
    (onError : ε → Config S ε σ ι → Prop) : Except ε α → Config S ε σ ι → Prop
  | .ok value => onValue value
  | .error error => onError error

variable {M D} {i : ι}

theorem Persistent.stable {J : Config S ε σ ι → Prop} (hJ : Persistent M D J)
    (i : ι) : Stable M D i J where
  act := fun hinv h _ hen hg => hJ.act hinv h hen.performs hen.meets hg
  drift := hJ.drift
  crash := hJ.crash

namespace Persistent

/-- An assertion about the shared state that every call and drift keeps. -/
theorem of_state {P : σ → Prop}
    (hact : ∀ {c : Config S ε σ ι} {e : Event S ε σ ι}, D.inv c → P c.state →
      M.Performs e.op c.state e.result e.after → P e.after)
    (hdrift : ∀ {c : Config S ε σ ι} {after}, D.inv c → P c.state →
      M.Drifts c.state after → P after) :
    Persistent M D (fun c => P c.state) where
  act := fun hinv h hstep _ _ => hact hinv h hstep
  drift := fun hinv h hd => hdrift hinv h hd
  crash := fun _ _ h => h

/-- That a call of some kind has been made stays true. -/
theorem of_history (P : Event S ε σ ι → Prop) :
    Persistent M D (fun c => ∃ e ∈ c.history, P e) where
  act := fun _ h _ _ _ => by
    obtain ⟨e, he, hP⟩ := h
    exact ⟨e, List.mem_cons_of_mem _ he, hP⟩
  drift := fun _ h _ => h
  crash := fun _ _ h => h

theorem and {A B : Config S ε σ ι → Prop} (hA : Persistent M D A)
    (hB : Persistent M D B) : Persistent M D (fun c => A c ∧ B c) where
  act := fun hinv h hstep hcond hg =>
    ⟨hA.act hinv h.1 hstep hcond hg, hB.act hinv h.2 hstep hcond hg⟩
  drift := fun hinv h hd => ⟨hA.drift hinv h.1 hd, hB.drift hinv h.2 hd⟩
  crash := fun j hinv h => ⟨hA.crash j hinv h.1, hB.crash j hinv h.2⟩

theorem all {A : α → Config S ε σ ι → Prop} (hA : ∀ a, Persistent M D (A a)) :
    Persistent M D (fun c => ∀ a, A a c) where
  act := fun hinv h hstep hcond hg a => (hA a).act hinv (h a) hstep hcond hg
  drift := fun hinv h hd a => (hA a).drift hinv (h a) hd
  crash := fun j hinv h a => (hA a).crash j hinv (h a)

theorem imp (P : Prop) {A : Config S ε σ ι → Prop} (hA : Persistent M D A) :
    Persistent M D (fun c => P → A c) where
  act := fun hinv h hstep hcond hg hP => hA.act hinv (h hP) hstep hcond hg
  drift := fun hinv h hd hP => hA.drift hinv (h hP) hd
  crash := fun j hinv h hP => hA.crash j hinv (h hP)

end Persistent

namespace Stable

theorem const (P : Prop) : Stable M D i (fun _ => P) :=
  ⟨fun _ h _ _ _ => h, fun _ h _ => h, fun _ _ h => h⟩

theorem and {A B : Config S ε σ ι → Prop} (hA : Stable M D i A)
    (hB : Stable M D i B) : Stable M D i (fun c => A c ∧ B c) where
  act := fun hinv h hi hen hg =>
    ⟨hA.act hinv h.1 hi hen hg, hB.act hinv h.2 hi hen hg⟩
  drift := fun hinv h hd => ⟨hA.drift hinv h.1 hd, hB.drift hinv h.2 hd⟩
  crash := fun j hinv h => ⟨hA.crash j hinv h.1, hB.crash j hinv h.2⟩

/-- The other processes make no call of process `i`. -/
theorem of_ownCalls (P : List (Event S ε σ ι) → Prop) :
    Stable M D i (fun c => P (ownCalls c.history i)) where
  act := fun _ h hi _ _ => by
    rw [Config.perform_history, ownCalls_cons_of_ne hi]
    exact h
  drift := fun _ h _ => h
  crash := fun _ _ h => h

end Stable

namespace Safe

variable {A B : Config S ε σ ι → Prop} {Q Q' : Except ε α → Config S ε σ ι → Prop}

theorem strengthen {p : Program S ε α} (hp : Safe M D i p B Q)
    (hAB : ∀ c, D.inv c → A c → B c) : Safe M D i p A Q := by
  cases p with
  | ret value => exact fun c hinv hA => hp c hinv (hAB c hinv hA)
  | raise error => exact fun c hinv hA => hp c hinv (hAB c hinv hA)
  | call op next =>
      intro c result after hinv hA hstep hcond
      exact hp c result after hinv (hAB c hinv hA) hstep hcond

theorem weaken {p : Program S ε α} (hp : Safe M D i p A Q)
    (hQ : ∀ outcome c, D.inv c → Q outcome c → Q' outcome c) :
    Safe M D i p A Q' := by
  induction p generalizing A with
  | ret value => exact fun c hinv hA => hQ _ c hinv (hp c hinv hA)
  | raise error => exact fun c hinv hA => hQ _ c hinv (hp c hinv hA)
  | call op next ih =>
      intro c result after hinv hA hstep hcond
      obtain ⟨hgoal, B, hB, hpost, hnext⟩ := hp c result after hinv hA hstep hcond
      exact ⟨hgoal, B, hB, hpost, ih result hnext⟩

/-- Under an assertion that cannot hold every program is safe. -/
theorem of_false {p : Program S ε α} (hA : ∀ c, D.inv c → A c → False) :
    Safe M D i p A Q := by
  cases p with
  | ret value => exact fun c hinv h => (hA c hinv h).elim
  | raise error => exact fun c hinv h => (hA c hinv h).elim
  | call op next => exact fun c _ _ hinv h => (hA c hinv h).elim

/-- An assertion that no step breaks holds of the outcome too. -/
theorem frame {p : Program S ε α} {J : Config S ε σ ι → Prop}
    (hp : Safe M D i p A Q) (hJ : Persistent M D J) :
    Safe M D i p (fun c => A c ∧ J c) fun outcome c => Q outcome c ∧ J c := by
  induction p generalizing A with
  | ret value => exact fun c hinv h => ⟨hp c hinv h.1, h.2⟩
  | raise error => exact fun c hinv h => ⟨hp c hinv h.1, h.2⟩
  | call op next ih =>
      intro c result after hinv h hstep hcond
      obtain ⟨hgoal, B, hB, hpost, hnext⟩ := hp c result after hinv h.1 hstep hcond
      refine ⟨hgoal, _, hB.and (hJ.stable i), fun rest hinv' => ?_, ih result hnext⟩
      exact ⟨hpost rest hinv', hJ.act hinv h.2 hstep hcond hgoal⟩

/-- The program ends at once, whatever it was asked to establish. -/
theorem ret {value : α} (h : ∀ c, D.inv c → A c → Q (.ok value) c) :
    Safe M D i (.ret value) A Q := h

theorem raise {error : ε} (h : ∀ c, D.inv c → A c → Q (.error error) c) :
    Safe M D i (.raise error) A Q := h

/-- Sequencing: an exception of the first program skips the second. -/
theorem bind {p : Program S ε α} {f : α → Program S ε β}
    {B : α → Config S ε σ ι → Prop} {R : Except ε β → Config S ε σ ι → Prop}
    (hp : Safe M D i p A (Outcome B fun error => R (.error error)))
    (hf : ∀ value, Safe M D i (f value) (B value) R) :
    Safe M D i (p >>= f) A R := by
  induction p generalizing A with
  | ret value => exact (hf value).strengthen fun c hinv hA => hp c hinv hA
  | raise error => exact hp
  | call op next ih =>
      intro c result after hinv hA hstep hcond
      obtain ⟨hgoal, B, hB, hpost, hnext⟩ := hp c result after hinv hA hstep hcond
      exact ⟨hgoal, B, hB, hpost, ih result hnext⟩

/-- Nothing is known of the value and nothing of the exception. -/
theorem anyOutcome {p : Program S ε α} (hp : Safe M D i p A fun _ _ => True) :
    Safe M D i p A (Outcome (fun _ _ => True) fun _ _ => True) := by
  refine hp.weaken fun outcome c _ _ => ?_
  cases outcome <;> trivial

/-- What holds of every outcome holds of the value. -/
theorem onValue {p : Program S ε α} (hp : Safe M D i p A fun _ => B) :
    Safe M D i p A (Outcome (fun _ => B) fun _ _ => True) := by
  refine hp.weaken fun outcome c _ h => ?_
  cases outcome with
  | ok value => exact h
  | error error => trivial

/-- Sequencing when nothing has to be known in between or at the end. -/
theorem andThen {p : Program S ε α} {f : α → Program S ε β}
    (hp : Safe M D i p A fun _ _ => True)
    (hf : ∀ value, Safe M D i (f value) (fun _ => True) fun _ _ => True) :
    Safe M D i (p >>= f) A fun _ _ => True :=
  bind (B := fun _ _ => True) hp.anyOutcome hf

theorem done {value : α} : Safe M D i (.ret value) A fun _ _ => True :=
  fun _ _ _ => trivial

/-- A loop keeps an assertion that every round keeps. -/
theorem forEach {γ : Type} {items : List γ} {body : γ → Program S ε Unit}
    {J : Config S ε σ ι → Prop} {R : Except ε Unit → Config S ε σ ι → Prop}
    (hbody : ∀ item ∈ items, Safe M D i (body item) J
      (Outcome (fun _ => J) fun error => R (.error error)))
    (hend : ∀ c, D.inv c → J c → R (.ok ()) c) :
    Safe M D i (Program.forEach items body) J R := by
  induction items with
  | nil => exact hend
  | cons item rest ih =>
      refine bind (B := fun _ => J) (hbody item List.mem_cons_self) fun _ => ?_
      exact ih fun other hother =>
        hbody other (List.mem_cons_of_mem item hother)

theorem attempt {p : Program S ε α}
    {R : Except ε (Except ε α) → Config S ε σ ι → Prop}
    (hp : Safe M D i p A fun outcome => R (.ok outcome)) :
    Safe M D i p.attempt A R := by
  induction p generalizing A with
  | ret value => exact hp
  | raise error => exact hp
  | call op next ih =>
      intro c result after hinv hA hstep hcond
      obtain ⟨hgoal, B, hB, hpost, hnext⟩ := hp c result after hinv hA hstep hcond
      exact ⟨hgoal, B, hB, hpost, ih result hnext⟩

/-- `try: body except error: handler error`. -/
theorem handle {p : Program S ε α} {handler : ε → Program S ε α}
    {E : ε → Config S ε σ ι → Prop}
    (hp : Safe M D i p A (Outcome (fun value => Q (.ok value)) E))
    (hhandler : ∀ error, Safe M D i (handler error) (E error) Q) :
    Safe M D i (p.handle handler) A Q := by
  refine bind (B := Outcome (fun value => Q (.ok value)) E) ?_ ?_
  · exact attempt (hp.weaken fun _ _ _ h => h)
  · intro outcome
    cases outcome with
    | ok value => exact ret fun c _ h => h
    | error error => exact hhandler error

/-- `try: body finally: cleanup`, with an assertion `F` that holds when the
cleanup starts. -/
theorem ensuring {p : Program S ε α} {cleanup : Program S ε Unit}
    {F : Except ε α → Config S ε σ ι → Prop}
    (hp : Safe M D i p A F)
    (hcleanup : ∀ outcome, Safe M D i cleanup (F outcome)
      (Outcome (fun _ => Q outcome) fun error => Q (.error error))) :
    Safe M D i (p.ensuring cleanup) A Q := by
  refine bind (B := F) (attempt (hp.weaken fun _ _ _ h => h)) fun outcome => ?_
  refine bind (B := fun _ => Q outcome) ?_ fun _ => ?_
  · exact hcleanup outcome
  · cases outcome <;> exact fun c _ h => h

/-- One call: show the guarantee and choose what is known afterwards. -/
theorem perform {op : S.Op}
    {R : Except ε (S.Value op) → Config S ε σ ι → Prop}
    (h : ∀ c result after, D.inv c → A c → M.Performs op c.state result after →
      D.cond c ⟨i, op, result, c.state, after⟩ →
      D.goal c ⟨i, op, result, c.state, after⟩ ∧
      ∃ B, Stable M D i B ∧
        (∀ rest, D.inv (c.perform ⟨i, op, result, c.state, after⟩ rest) →
          B (c.perform ⟨i, op, result, c.state, after⟩ rest)) ∧
        ∀ c, D.inv c → B c → R result c) :
    Safe M D i (Program.perform op) A R := by
  intro c result after hinv hA hstep hcond
  obtain ⟨hgoal, B, hB, hpost, hR⟩ := h c result after hinv hA hstep hcond
  refine ⟨hgoal, B, hB, hpost, ?_⟩
  cases result with
  | ok value => exact fun c hinv hBc => hR c hinv hBc
  | error error => exact fun c hinv hBc => hR c hinv hBc

/-- One call whose outcome is described by one stable assertion per result. -/
theorem perform_post {op : S.Op}
    {B : Except ε (S.Value op) → Config S ε σ ι → Prop}
    (hstable : ∀ result, Stable M D i (B result))
    (h : ∀ c result after, D.inv c → A c → M.Performs op c.state result after →
      D.cond c ⟨i, op, result, c.state, after⟩ →
      D.goal c ⟨i, op, result, c.state, after⟩ ∧
        ∀ rest, D.inv (c.perform ⟨i, op, result, c.state, after⟩ rest) →
          B result (c.perform ⟨i, op, result, c.state, after⟩ rest)) :
    Safe M D i (Program.perform op) A B := by
  refine perform fun c result after hinv hA hstep hcond => ?_
  obtain ⟨hgoal, hpost⟩ := h c result after hinv hA hstep hcond
  exact ⟨hgoal, B result, hstable result, hpost, fun _ _ h => h⟩

/-- One call whose outcome is described by the calls of its own process. -/
theorem perform_own {op : S.Op} {P : List (Event S ε σ ι) → Prop}
    {R : Except ε (S.Value op) → List (Event S ε σ ι) → Prop}
    (hgoal : ∀ c result after, P (ownCalls c.history i) →
      M.Performs op c.state result after →
      D.goal c ⟨i, op, result, c.state, after⟩)
    (hpost : ∀ result before after earlier, P earlier →
      R result (⟨i, op, result, before, after⟩ :: earlier)) :
    Safe M D i (Program.perform op) (fun c => P (ownCalls c.history i))
      fun result c => R result (ownCalls c.history i) := by
  refine perform_post (fun result => Stable.of_ownCalls (R result)) ?_
  intro c result after _ hP hstep _
  refine ⟨hgoal c result after hP hstep, fun rest _ => ?_⟩
  rw [Config.perform_history, ownCalls_cons_self]
  exact hpost result c.state after _ hP

/-- A program whose calls another program serves keeps what each service keeps. -/
theorem interpret {E : Signature} {serve : (op : E.Op) → Program S ε (E.Value op)}
    {J : Config S ε σ ι → Prop}
    (hserve : ∀ op, Safe M D i (serve op) J fun _ => J) (p : Program E ε α) :
    Safe M D i (p.interpret serve) J fun _ => J := by
  induction p with
  | ret value => exact fun c _ h => h
  | raise error => exact fun c _ h => h
  | call op next ih =>
      refine bind (B := fun _ => J) (attempt ?_) ih
      exact (hserve op).weaken fun _ _ _ h => h

/-- A program whose calls all meet the guarantee by themselves, under an
assertion that these calls and the other processes keep. -/
theorem of_onlyCalls {P : S.Op → Prop} {p : Program S ε α} (hp : p.OnlyCalls P)
    (hstable : Stable M D i A)
    (h : ∀ c op result after, P op → D.inv c → A c →
      M.Performs op c.state result after →
      D.cond c ⟨i, op, result, c.state, after⟩ →
      D.goal c ⟨i, op, result, c.state, after⟩ ∧
        ∀ rest, A (c.perform ⟨i, op, result, c.state, after⟩ rest)) :
    Safe M D i p A fun _ => A := by
  induction p with
  | ret value => exact fun c _ hA => hA
  | raise error => exact fun c _ hA => hA
  | call op next ih =>
      intro c result after hinv hA hstep hcond
      obtain ⟨hgoal, hpost⟩ := h c op result after hp.1 hinv hA hstep hcond
      exact ⟨hgoal, A, hstable, fun rest _ => hpost rest, ih result (hp.2 result)⟩

/-- A program whose calls all meet the guarantee keeps what no step breaks. -/
theorem keeps {P : S.Op → Prop} {p : Program S ε α} {J : Config S ε σ ι → Prop}
    (hp : p.OnlyCalls P) (hJ : Persistent M D J)
    (h : ∀ c op result after, P op → D.inv c → M.Performs op c.state result after →
      D.cond c ⟨i, op, result, c.state, after⟩ →
      D.goal c ⟨i, op, result, c.state, after⟩) :
    Safe M D i p J fun _ => J := by
  refine of_onlyCalls hp (hJ.stable i) ?_
  intro c op result after hop hinv hA hstep hcond
  have hgoal := h c op result after hop hinv hstep hcond
  refine ⟨hgoal, fun rest => ?_⟩
  have hact : J (c.perform ⟨i, op, result, c.state, after⟩ rest) :=
    hJ.act hinv hA hstep hcond hgoal
  exact hact

/-- A program whose calls all meet the guarantee, when nothing has to be known. -/
theorem of_calls {P : S.Op → Prop} {p : Program S ε α} (hp : p.OnlyCalls P)
    (h : ∀ c op result after, P op → D.inv c → M.Performs op c.state result after →
      D.cond c ⟨i, op, result, c.state, after⟩ →
      D.goal c ⟨i, op, result, c.state, after⟩) :
    Safe M D i p A fun _ _ => True := by
  refine ((keeps (J := fun _ => True) hp ?_ h).strengthen ?_).weaken ?_
  · exact ⟨fun _ _ _ _ _ => trivial, fun _ _ _ => trivial, fun _ _ _ => trivial⟩
  · exact fun _ _ _ => trivial
  · exact fun _ _ _ _ => trivial

end Safe

/-- The invariant is kept by every step whose call meets the guarantee. -/
structure Discipline.Kept (M : Machine S ε σ) (D : Discipline S ε σ ι) : Prop where
  act : ∀ {c e rest}, D.inv c → Enabled M D.cond c e rest → D.goal c e →
    D.inv (c.perform e rest)
  drift : ∀ {c after}, D.inv c → M.Drifts c.state after → D.inv (c.drifted after)
  crash : ∀ {c} j, D.inv c → D.inv (c.crash j)

/-- Process `i` is safe in a configuration: what remains of its program is safe
from a stable assertion that holds there. -/
def SafeAt (M : Machine S ε σ) (D : Discipline S ε σ ι) (c : Config S ε σ ι)
    (i : ι) : Prop :=
  ∃ A, Stable M D i A ∧ A c ∧ Safe M D i (c.pool i) A fun _ _ => True

theorem SafeAt.of_safe {c : Config S ε σ ι} {i : ι} {A : Config S ε σ ι → Prop}
    {Q : Except ε Unit → Config S ε σ ι → Prop} (hstable : Stable M D i A)
    (hA : A c) (hp : Safe M D i (c.pool i) A Q) : SafeAt M D c i :=
  ⟨A, hstable, hA, hp.weaken fun _ _ _ _ => trivial⟩

/-- What remains of process `i` is safe and establishes `Q` when it ends. -/
def Ensures (M : Machine S ε σ) (D : Discipline S ε σ ι) (c : Config S ε σ ι)
    (i : ι) (Q : Except ε Unit → Config S ε σ ι → Prop) : Prop :=
  ∃ A, Stable M D i A ∧ A c ∧ Safe M D i (c.pool i) A Q

/-- The call of such a process meets the guarantee, and what remains of the
process still establishes `Q`. -/
theorem Ensures.call {c : Config S ε σ ι} {e : Event S ε σ ι}
    {rest : Program S ε Unit} {Q : Except ε Unit → Config S ε σ ι → Prop}
    (hkept : D.Kept M) (hinv : D.inv c) (hsafe : Ensures M D c e.actor Q)
    (hen : Enabled M D.cond c e rest) :
    D.goal c e ∧ Ensures M D (c.perform e rest) e.actor Q := by
  obtain ⟨A, _, hA, hp⟩ := hsafe
  obtain ⟨actor, op, result, before, after⟩ := e
  obtain ⟨⟨k, hpool, hrest⟩, hbefore, hperforms, hcond⟩ := hen
  simp only at hpool hrest hbefore hperforms
  subst hrest hbefore
  rw [hpool] at hp
  obtain ⟨hgoal, B, hB, hpost, hnext⟩ := hp c result after hinv hA hperforms hcond
  refine ⟨hgoal, B, hB, ?_, ?_⟩
  · exact hpost _ (hkept.act hinv ⟨⟨k, hpool, rfl⟩, rfl, hperforms, hcond⟩ hgoal)
  · simpa [Config.perform_pool] using hnext

/-- The call of a safe process meets the guarantee, and the process stays safe. -/
theorem SafeAt.call {c : Config S ε σ ι} {e : Event S ε σ ι}
    {rest : Program S ε Unit} (hkept : D.Kept M) (hinv : D.inv c)
    (hsafe : SafeAt M D c e.actor) (hen : Enabled M D.cond c e rest) :
    D.goal c e ∧ SafeAt M D (c.perform e rest) e.actor :=
  Ensures.call hkept hinv hsafe hen

/-- Soundness: in every run that meets the condition, started with all
processes safe, the invariant holds and every call meets the guarantee. -/
theorem Discipline.sound (hkept : D.Kept M) {c₀ c : Config S ε σ ι}
    (hstart : D.inv c₀) (hsafe : ∀ i, SafeAt M D c₀ i)
    (hrun : Run M D.cond c₀ c) : D.inv c ∧ ∀ i, SafeAt M D c i := by
  refine Run.invariant (I := fun d => D.inv d ∧ ∀ i, SafeAt M D d i) hrun
    ⟨hstart, hsafe⟩ ?_ ?_ ?_
  · rintro d e rest ⟨hinv, hall⟩ hen
    obtain ⟨hgoal, hactor⟩ := SafeAt.call hkept hinv (hall e.actor) hen
    refine ⟨hkept.act hinv hen hgoal, fun i => ?_⟩
    by_cases hi : e.actor = i
    · exact hi ▸ hactor
    · obtain ⟨A, hstable, hA, hp⟩ := hall i
      refine ⟨A, hstable, hstable.act hinv hA hi hen hgoal, ?_⟩
      rwa [Config.perform_pool, Function.update_of_ne (Ne.symm hi)]
  · rintro d after ⟨hinv, hall⟩ hd
    refine ⟨hkept.drift hinv hd, fun i => ?_⟩
    obtain ⟨A, hstable, hA, hp⟩ := hall i
    exact ⟨A, hstable, hstable.drift hinv hA hd, hp⟩
  · rintro d j ⟨hinv, hall⟩
    refine ⟨hkept.crash j hinv, fun i => ?_⟩
    obtain ⟨A, hstable, hA, hp⟩ := hall i
    refine ⟨A, hstable, hstable.crash j hinv hA, ?_⟩
    rw [Config.crash_pool]
    by_cases hi : i = j
    · subst hi
      rw [Function.update_self]
      exact fun _ _ _ => trivial
    · rwa [Function.update_of_ne hi]

/-- What every call that meets the guarantee keeps holds in every configuration
that such a run reaches. -/
theorem Discipline.invariant (hkept : D.Kept M) {c₀ c : Config S ε σ ι}
    (hstart : D.inv c₀) (hsafe : ∀ i, SafeAt M D c₀ i)
    (hrun : Run M D.cond c₀ c) {I : Config S ε σ ι → Prop} (hI : I c₀)
    (hact : ∀ {c e rest}, D.inv c → I c → Enabled M D.cond c e rest →
      D.goal c e → I (c.perform e rest))
    (hdrift : ∀ {c after}, D.inv c → I c → M.Drifts c.state after →
      I (c.drifted after))
    (hcrash : ∀ {c} j, D.inv c → I c → I (c.crash j)) : I c := by
  refine (Run.invariant
    (I := fun d => (D.inv d ∧ ∀ i, SafeAt M D d i) ∧ I d) hrun
    ⟨⟨hstart, hsafe⟩, hI⟩ ?_ ?_ ?_).2
  · rintro d e rest ⟨⟨hinv, hall⟩, hd⟩ hen
    have hgoal := (SafeAt.call hkept hinv (hall e.actor) hen).1
    exact ⟨D.sound hkept hinv hall (.single (.act hen)), hact hinv hd hen hgoal⟩
  · rintro d after ⟨⟨hinv, hall⟩, hd⟩ hdrifts
    exact ⟨D.sound hkept hinv hall (.single (.drift hdrifts)),
      hdrift hinv hd hdrifts⟩
  · rintro d j ⟨⟨hinv, hall⟩, hd⟩
    exact ⟨D.sound hkept hinv hall (.single (.crash d j)), hcrash j hinv hd⟩

/-- The form in which soundness is used: the guarantee at the next call. -/
theorem Discipline.goal_of_run (hkept : D.Kept M) {c₀ c : Config S ε σ ι}
    (hstart : D.inv c₀) (hsafe : ∀ i, SafeAt M D c₀ i)
    (hrun : Run M D.cond c₀ c) {e : Event S ε σ ι} {rest : Program S ε Unit}
    (hen : Enabled M D.cond c e rest) : D.goal c e := by
  obtain ⟨hinv, hall⟩ := D.sound hkept hstart hsafe hrun
  exact (SafeAt.call hkept hinv (hall e.actor) hen).1

/-- What a process was asked to establish holds when its own last call makes it
return. -/
theorem Discipline.returns_of_run (hkept : D.Kept M) {c₀ c : Config S ε σ ι}
    (hstart : D.inv c₀) (hsafe : ∀ i, SafeAt M D c₀ i)
    (hrun : Run M D.cond c₀ c) {Q : Except ε Unit → Config S ε σ ι → Prop}
    (hensures : Ensures M D c₀ i Q) {e : Event S ε σ ι} {rest : Program S ε Unit}
    (hen : Enabled M D.cond c e rest) (hi : e.actor = i) (hret : rest = .ret ()) :
    Q (.ok ()) (c.perform e rest) := by
  subst hi
  have hremains : Ensures M D c e.actor Q ∨ c.pool e.actor = .ret () := by
    refine D.invariant hkept hstart hsafe hrun
      (I := fun d => Ensures M D d e.actor Q ∨ d.pool e.actor = .ret ())
      (Or.inl hensures) ?_ ?_ ?_
    · intro d x rest' hinv hd hen' hgoal
      by_cases hx : x.actor = e.actor
      · rcases hd with hd | hdone
        · rw [← hx] at hd ⊢
          exact Or.inl (Ensures.call hkept hinv hd hen').2
        · obtain ⟨k, hpool, _⟩ := hen'.next
          rw [hx, hdone] at hpool
          cases hpool
      · rw [Config.perform_pool, Function.update_of_ne (Ne.symm hx)]
        refine hd.imp ?_ id
        rintro ⟨A, hstable, hA, hp⟩
        refine ⟨A, hstable, hstable.act hinv hA hx hen' hgoal, ?_⟩
        rwa [Config.perform_pool, Function.update_of_ne (Ne.symm hx)]
    · intro d after hinv hd hdrift
      refine hd.imp ?_ id
      rintro ⟨A, hstable, hA, hp⟩
      exact ⟨A, hstable, hstable.drift hinv hA hdrift, hp⟩
    · intro d j hinv hd
      by_cases hj : e.actor = j
      · right
        rw [Config.crash_pool, hj, Function.update_self]
      · rw [Config.crash_pool, Function.update_of_ne hj]
        refine hd.imp ?_ id
        rintro ⟨A, hstable, hA, hp⟩
        refine ⟨A, hstable, hstable.crash j hinv hA, ?_⟩
        rwa [Config.crash_pool, Function.update_of_ne hj]
  have hinv := (D.sound hkept hstart hsafe hrun).1
  rcases hremains with hremains | hdone
  · obtain ⟨hgoal, A, _, hA, hp⟩ := Ensures.call hkept hinv hremains hen
    have hpool : (c.perform e rest).pool e.actor = .ret () := by
      rw [Config.perform_pool, Function.update_self, hret]
    rw [hpool] at hp
    exact hp _ (hkept.act hinv hen hgoal) hA
  · obtain ⟨k, hpool, _⟩ := hen.next
    rw [hdone] at hpool
    cases hpool

end SearchTrust.Interleave
