import Mathlib.Algebra.Order.BigOperators.Group.List
import Mathlib.Algebra.GroupWithZero.Nat
import Mathlib.Algebra.Order.Group.Nat
import Extractor.Lib.Fallible

/-!
# Programs over requests

A program that talks to its surroundings is a tree: it either returns, or it makes a
request and continues with whatever answer comes back. The surroundings are not modelled;
every answer is possible. This library gives such programs their executions, with the
trace of requests and answers, and a rule of pre- and postconditions over traces.

## Main definitions

* `Program E α`: programs with requests `E β`, answered in `β`, and results in `α`.
* `Program.Exec p tr a`: `p` may return `a` after exactly the exchanges `tr`.
* `Program.Ensures Req p tr Q`: continuing from the history `tr`, every request that `p`
  makes after a history `h` satisfies `Req h`, and every result satisfies `Q`.
* `Program.FailsOn Bad p`: `p` returns an error exactly when it receives a bad answer.
* `Program.OkAfter Good P p`: `p` succeeds only with a value in `P` or after a good exchange.
* `Program.Requests C p`: `p` makes only requests that satisfy `C`.
* `Program.Costs w n p`: the exchanges of `p` weigh at most `n` together.
* `Program.After A B p`: in `p`, every exchange in `B` comes after one in `A`.
* `Program.Shows see p Q`: what is seen of a successful execution of `p` satisfies `Q`.
* `Program.Monitored step Req p s Q`: `Ensures`, with the state of a monitor for the history.
* `Program.Beside rely effect Req p s Q`: the same in a shared state, which requests change as
  `effect` says and others change as `rely` says, before every request and every return.
* `Program.ExecBeside rely effect p s tr t a`: the executions in such a state.

## Main results

* `Program.ensures_bind`, `Program.ensures_bind_except`: the sequencing rules.
* `Program.Ensures.exec`, `Program.Monitored.exec`: what the two say about every execution.
* `Program.exec_run`: answering every request by position gives an execution.
* `Program.Beside.ask`, `Program.Beside.done`, `Program.Beside.others`: what one step preserves.
* `Program.Beside.bind_except`, `Program.Beside.exec`: sequencing, and what holds of every
  execution.
* `Program.FailsOn.call_bind`, `Program.FailsOn.bind`, `Program.OkAfter.bind`: the rules for
  such properties of executions; `Program.Requests`, `Program.Costs` and `Program.After` have the
  same ones.
-/

/-- A program that makes requests in `E β`, receives answers in `β`, and returns `α`. -/
inductive Program (E : Type → Type) (α : Type) : Type 1
  /-- Return. -/
  | done (a : α) : Program E α
  /-- Make a request and continue with the answer. -/
  | ask {β : Type} (e : E β) (k : β → Program E α) : Program E α

namespace Program

variable {E : Type → Type} {α β γ ε : Type}

/-- Sequencing. -/
def andThen (p : Program E α) (f : α → Program E β) : Program E β :=
  match p with
  | .done a => f a
  | .ask e k => .ask e fun x => (k x).andThen f

instance : Monad (Program E) where
  pure := .done
  bind := andThen

/-- One request as a program. -/
def request (e : E β) : Program E β :=
  .ask e .done

/-- One request as a step of a program that may fail. -/
def call (e : E β) : ExceptT ε (Program E) β :=
  ExceptT.lift (request e)

/-- A result that is already known, as a program that may fail. -/
def ofExcept (r : Except ε α) : ExceptT ε (Program E) α :=
  ExceptT.mk (pure r)

/-- One exchange: a request and its answer. -/
structure Exchange (E : Type → Type) where
  {Answer : Type}
  request : E Answer
  answer : Answer

/-- The exchanges of an execution, in order. -/
abbrev Trace (E : Type → Type) := List (Exchange E)

/-- `p` may return `a` after exactly the exchanges `tr`. -/
inductive Exec : Program E α → Trace E → α → Prop
  | done (a : α) : Exec (.done a) [] a
  | ask {β : Type} (e : E β) (k : β → Program E α) (x : β) {tr : Trace E} {a : α} :
      Exec (k x) tr a → Exec (.ask e k) (⟨e, x⟩ :: tr) a

/-- A condition on the requests of a program, given the history they are made in. -/
abbrev Condition (E : Type → Type) := Trace E → {β : Type} → E β → Prop

/-- Continuing from the history `tr`, every request made after a history `h` satisfies
`Req h`, and every result, with the history at its return, satisfies `Q`. -/
def Ensures (Req : Condition E) (p : Program E α) (tr : Trace E) (Q : Trace E → α → Prop) :
    Prop :=
  match p with
  | .done a => Q tr a
  | .ask e k => Req tr e ∧ ∀ x, (k x).Ensures Req (tr ++ [⟨e, x⟩]) Q

/-- Runs a program on answers given by position. -/
def run (answer : ℕ → {β : Type} → E β → β) (p : Program E α) : ℕ → Trace E × α :=
  match p with
  | .done a => fun _ => ([], a)
  | .ask e k => fun n =>
      let r := (k (answer n e)).run answer (n + 1)
      (⟨e, answer n e⟩ :: r.1, r.2)

variable {Req : Condition E} {p : Program E α} {tr : Trace E}

/-! ### The rules -/

/-- The rule for returning. -/
@[simp]
theorem ensures_pure {a : α} {Q : Trace E → α → Prop} :
    Ensures Req (pure a : Program E α) tr Q ↔ Q tr a :=
  Iff.rfl

/-- The rule for one request. -/
@[simp]
theorem ensures_request {e : E β} {Q : Trace E → β → Prop} :
    Ensures Req (request e) tr Q ↔ Req tr e ∧ ∀ x, Q (tr ++ [⟨e, x⟩]) x :=
  Iff.rfl

/-- **The rule for sequencing.** -/
@[simp]
theorem ensures_bind {f : α → Program E β} {Q : Trace E → β → Prop} :
    Ensures Req (p >>= f) tr Q ↔ Ensures Req p tr fun h a => Ensures Req (f a) h Q := by
  induction p generalizing tr with
  | done a => exact Iff.rfl
  | ask e k ih => exact and_congr_right fun _ => forall_congr' fun x => ih x

/-- The rule of consequence. -/
theorem Ensures.mono {Req' : Condition E} {Q Q' : Trace E → α → Prop} (h : Ensures Req p tr Q)
    (hReq : ∀ (h : Trace E) {β : Type} (e : E β), Req h e → Req' h e)
    (hQ : ∀ h a, Q h a → Q' h a) : Ensures Req' p tr Q' := by
  induction p generalizing tr with
  | done a => exact hQ tr a h
  | ask e k ih => exact ⟨hReq tr e h.1, fun x => ih x (h.2 x)⟩

/-- The rule of consequence for the result alone. -/
theorem Ensures.imp {Q Q' : Trace E → α → Prop} (h : Ensures Req p tr Q)
    (hQ : ∀ h a, Q h a → Q' h a) : Ensures Req p tr Q' :=
  h.mono (fun _ _ _ hreq => hreq) hQ

/-! ### Programs that may fail -/

section Fallible

/-- The sequencing rule for programs that may return an error early. -/
@[simp]
theorem ensures_bind_except {p : ExceptT ε (Program E) α} {f : α → ExceptT ε (Program E) β}
    {Q : Trace E → Except ε β → Prop} :
    Ensures Req (p >>= f).run tr Q ↔
      Ensures Req p.run tr fun h r =>
        match r with
        | .ok a => Ensures Req (f a).run h Q
        | .error e => Q h (.error e) := by
  refine ensures_bind.trans ⟨fun h => h.imp ?_, fun h => h.imp ?_⟩
  · rintro h (e | a) hq
    · exact hq
    · exact hq
  · rintro h (e | a) hq
    · exact hq
    · exact hq

/-- The rule for returning a value. -/
@[simp]
theorem ensures_pure_except {a : α} {Q : Trace E → Except ε α → Prop} :
    Ensures Req (pure a : ExceptT ε (Program E) α).run tr Q ↔ Q tr (.ok a) :=
  Iff.rfl

/-- The rule for returning an error. -/
@[simp]
theorem ensures_throw {e : ε} {Q : Trace E → Except ε α → Prop} :
    Ensures Req (throw e : ExceptT ε (Program E) α).run tr Q ↔ Q tr (.error e) :=
  Iff.rfl

/-- The rule for one request. -/
@[simp]
theorem ensures_call {e : E β} {Q : Trace E → Except ε β → Prop} :
    Ensures Req (call e : ExceptT ε (Program E) β).run tr Q ↔
      Req tr e ∧ ∀ x, Q (tr ++ [⟨e, x⟩]) (.ok x) :=
  Iff.rfl

/-- A known value is handed on. -/
theorem ofExcept_ok_bind {a : α} {f : α → ExceptT ε (Program E) β} :
    (ofExcept (.ok a) : ExceptT ε (Program E) α) >>= f = f a :=
  rfl

/-- The rule for renamed errors. -/
@[simp]
theorem ensures_adapt {ε' : Type} {p : ExceptT ε (Program E) α} {f : ε → ε'}
    {Q : Trace E → Except ε' α → Prop} :
    Ensures Req (ExceptT.adapt f p).run tr Q ↔
      Ensures Req p.run tr fun h r => Q h (r.mapError f) :=
  ensures_bind

/-- The rule for a known result. -/
@[simp]
theorem ensures_ofExcept {r : Except ε α} {Q : Trace E → Except ε α → Prop} :
    Ensures Req (ofExcept r : ExceptT ε (Program E) α).run tr Q ↔ Q tr r :=
  Iff.rfl

/-- The rule for a check. -/
@[simp]
theorem ensures_require {c : Prop} [Decidable c] {e : ε} {Q : Trace E → Except ε Unit → Prop} :
    Ensures Req (require c e : ExceptT ε (Program E) Unit).run tr Q ↔
      if c then Q tr (.ok ()) else Q tr (.error e) := by
  unfold require
  split
  · exact Iff.rfl
  · exact Iff.rfl

/-- The rule for a value that must be present. -/
@[simp]
theorem ensures_okOr {o : Option α} {e : ε} {Q : Trace E → Except ε α → Prop} :
    Ensures Req (okOr o e : ExceptT ε (Program E) α).run tr Q ↔
      match o with
      | some a => Q tr (.ok a)
      | none => Q tr (.error e) := by
  cases o with
  | none => exact Iff.rfl
  | some a => exact Iff.rfl

end Fallible

/-! ### Executions -/

/-- What `Ensures` says about an execution: its result satisfies the postcondition, and every
exchange happened under its precondition. -/
theorem Ensures.exec_from {Q : Trace E → α → Prop} (h : Ensures Req p tr Q) {tr' : Trace E}
    {a : α} (hexec : Exec p tr' a) :
    Q (tr ++ tr') a ∧
      ∀ (pre post : Trace E) (x : Exchange E), tr' = pre ++ x :: post →
        Req (tr ++ pre) x.request := by
  induction hexec generalizing tr with
  | done a =>
      refine ⟨(List.append_nil tr).symm ▸ h, ?_⟩
      intro pre post x heq
      simp at heq
  | ask e k x hexec ih =>
      have hk := ih (h.2 x)
      refine ⟨by simpa using hk.1, ?_⟩
      rintro (_ | ⟨y, pre⟩) post x' heq
      · obtain ⟨rfl, -⟩ := List.cons.inj heq
        simpa using h.1
      · obtain ⟨rfl, hrest⟩ := List.cons.inj heq
        simpa using hk.2 pre post x' hrest

/-- **Soundness of `Ensures`**, for executions from the start. -/
theorem Ensures.exec {Q : Trace E → α → Prop} (h : Ensures Req p [] Q) {a : α}
    (hexec : Exec p tr a) :
    Q tr a ∧ ∀ (pre post : Trace E) (x : Exchange E), tr = pre ++ x :: post → Req pre x.request :=
  h.exec_from hexec

/-- Answering by position gives an execution. -/
theorem exec_run (answer : ℕ → {β : Type} → E β → β) (p : Program E α) (n : ℕ) :
    Exec p (p.run answer n).1 (p.run answer n).2 := by
  induction p generalizing n with
  | done a => exact Exec.done a
  | ask e k ih => exact Exec.ask e k (answer n e) (ih (answer n e) (n + 1))

/-- In such an execution every answer is one by position. -/
theorem answer_of_mem_run {answer : ℕ → {β : Type} → E β → β} {n : ℕ} {x : Exchange E}
    (hx : x ∈ (p.run answer n).1) : ∃ m, x.answer = answer m x.request := by
  induction p generalizing n with
  | done a => cases hx
  | ask e k ih =>
      rcases List.mem_cons.mp hx with rfl | hx
      · exact ⟨n, rfl⟩
      · exact ih (answer n e) hx

/-! ### Executions of sequences -/

/-- An execution of a sequence is one of its first part followed by one of its second. -/
theorem exec_bind_iff {f : α → Program E β} {b : β} :
    Exec (p >>= f) tr b ↔
      ∃ tr₁ tr₂ a, tr = tr₁ ++ tr₂ ∧ Exec p tr₁ a ∧ Exec (f a) tr₂ b := by
  constructor
  · intro h
    induction p generalizing tr with
    | done a => exact ⟨[], tr, a, rfl, Exec.done a, h⟩
    | ask e k ih =>
        cases h with
        | ask _ _ x h =>
            obtain ⟨tr₁, tr₂, a, rfl, hp, hf⟩ := ih x h
            exact ⟨⟨e, x⟩ :: tr₁, tr₂, a, rfl, Exec.ask e k x hp, hf⟩
  · rintro ⟨tr₁, tr₂, a, rfl, hp, hf⟩
    induction hp with
    | done a => exact hf
    | ask e k x _ ih => exact Exec.ask e _ x (ih hf)

/-- An execution of a sequence, from one of each part. -/
theorem Exec.bind {f : α → Program E β} {tr' : Trace E} {a : α} {b : β} (hp : Exec p tr a)
    (hf : Exec (f a) tr' b) : Exec (p >>= f) (tr ++ tr') b :=
  exec_bind_iff.mpr ⟨tr, tr', a, rfl, hp, hf⟩

section FallibleExec

variable {q : ExceptT ε (Program E) α} {f : α → ExceptT ε (Program E) β} {r : Except ε β}

/-- An execution of a sequence that may fail: its first part fails, or both parts run. -/
theorem exec_bind_except_iff :
    Exec (q >>= f).run tr r ↔
      (∃ e, Exec q.run tr (.error e) ∧ r = .error e) ∨
        ∃ tr₁ tr₂ a, tr = tr₁ ++ tr₂ ∧ Exec q.run tr₁ (.ok a) ∧ Exec (f a).run tr₂ r := by
  refine exec_bind_iff.trans ⟨?_, ?_⟩
  · rintro ⟨tr₁, tr₂, e | a, rfl, hq, hf⟩
    · cases hf with
      | done => exact Or.inl ⟨e, by rwa [List.append_nil], rfl⟩
    · exact Or.inr ⟨tr₁, tr₂, a, rfl, hq, hf⟩
  · rintro (⟨e, hq, rfl⟩ | ⟨tr₁, tr₂, a, rfl, hq, hf⟩)
    · exact ⟨tr, [], .error e, (List.append_nil tr).symm, hq, Exec.done _⟩
    · exact ⟨tr₁, tr₂, .ok a, rfl, hq, hf⟩

/-- An execution with its error renamed. -/
theorem Exec.adapt {ε' : Type} {e : ε → ε'} {a : Except ε α} (hq : Exec q.run tr a) :
    Exec (ExceptT.adapt e q).run (tr ++ []) (a.mapError e) :=
  hq.bind (.done _)

/-- An execution that starts with one request. -/
theorem exec_call_bind_iff {e : E γ} {f : γ → ExceptT ε (Program E) β} :
    Exec (call e >>= f).run tr r ↔ ∃ x tr', tr = ⟨e, x⟩ :: tr' ∧ Exec (f x).run tr' r := by
  constructor
  · intro h
    cases h with
    | ask _ _ x h => exact ⟨x, _, rfl, h⟩
  · rintro ⟨x, tr', rfl, h⟩
    exact Exec.ask e _ x h

/-- Returning makes no request. -/
theorem exec_done_iff {a a' : α} : Exec (.done a : Program E α) tr a' ↔ tr = [] ∧ a' = a := by
  constructor
  · intro h
    cases h with
    | done => exact ⟨rfl, rfl⟩
  · rintro ⟨rfl, rfl⟩
    exact Exec.done a'

/-- An execution of one request. -/
theorem exec_call_iff {e : E γ} {r : Except ε γ} :
    Exec (call e : ExceptT ε (Program E) γ).run tr r ↔ ∃ x, tr = [⟨e, x⟩] ∧ r = .ok x := by
  constructor
  · intro h
    cases h with
    | ask _ _ x h =>
        obtain ⟨rfl, rfl⟩ := exec_done_iff.mp h
        exact ⟨x, rfl, rfl⟩
  · rintro ⟨x, rfl, rfl⟩
    exact Exec.ask e _ x (.done _)

end FallibleExec

/-! ### Failing exactly on bad answers -/

/-- A program **fails exactly on** bad answers: an execution returns an error if and only if one
of its exchanges is bad. -/
def FailsOn (Bad : Exchange E → Prop) (q : ExceptT ε (Program E) α) : Prop :=
  ∀ tr r, Exec q.run tr r → ((∃ e, r = .error e) ↔ ∃ x ∈ tr, Bad x)

/-- A program **makes only** requests that satisfy `C`. -/
def Requests (C : ∀ β : Type, E β → Prop) (q : ExceptT ε (Program E) α) : Prop :=
  ∀ tr r, Exec q.run tr r → ∀ x ∈ tr, C _ x.request

/-- A program **succeeds only after** a good exchange, or with a value in `P`. -/
def OkAfter (Good : Exchange E → Prop) (P : α → Prop) (q : ExceptT ε (Program E) α) : Prop :=
  ∀ tr a, Exec q.run tr (.ok a) → P a ∨ ∃ x ∈ tr, Good x

/-- A program **costs at most** `n`, where `w` is the cost of an exchange. -/
def Costs (w : Exchange E → ℕ) (n : ℕ) (q : ExceptT ε (Program E) α) : Prop :=
  ∀ tr r, Exec q.run tr r → (tr.map w).sum ≤ n

/-- In a program, an exchange in `B` **comes after** one in `A`. -/
def After (A B : Exchange E → Prop) (q : ExceptT ε (Program E) α) : Prop :=
  ∀ tr r, Exec q.run tr r → ∀ pre x post, tr = pre ++ x :: post → B x → ∃ y ∈ pre, A y

section Rules

variable {Bad Good : Exchange E → Prop} {q : ExceptT ε (Program E) α}
  {f : α → ExceptT ε (Program E) β} {w : Exchange E → ℕ} {m n : ℕ}

/-- The rule for sequencing. -/
theorem FailsOn.bind (hq : FailsOn Bad q) (hf : ∀ a, FailsOn Bad (f a)) :
    FailsOn Bad (q >>= f) := by
  intro tr r h
  rcases exec_bind_except_iff.mp h with ⟨e, hexec, rfl⟩ | ⟨tr₁, tr₂, a, rfl, hexec, hrest⟩
  · exact ⟨fun _ => (hq tr _ hexec).mp ⟨e, rfl⟩, fun _ => ⟨e, rfl⟩⟩
  · have hfirst : ¬ ∃ x ∈ tr₁, Bad x := by
      intro hbad
      obtain ⟨e, he⟩ := (hq tr₁ _ hexec).mpr hbad
      cases he
    rw [hf a tr₂ r hrest]
    constructor
    · rintro ⟨x, hx, hbad⟩
      exact ⟨x, List.mem_append_right _ hx, hbad⟩
    · rintro ⟨x, hx, hbad⟩
      rcases List.mem_append.mp hx with hx | hx
      · exact absurd ⟨x, hx, hbad⟩ hfirst
      · exact ⟨x, hx, hbad⟩

/-- The rule for a request: a bad answer makes the program return at once. -/
theorem FailsOn.call_bind {e : E γ} {f : γ → ExceptT ε (Program E) β}
    (hbad : ∀ x, Bad ⟨e, x⟩ → ∃ error, (f x).run = .done (.error error))
    (hgood : ∀ x, ¬ Bad ⟨e, x⟩ → FailsOn Bad (f x)) : FailsOn Bad (call e >>= f) := by
  intro tr r h
  obtain ⟨x, tr', rfl, hrest⟩ := exec_call_bind_iff.mp h
  by_cases hx : Bad ⟨e, x⟩
  · obtain ⟨error, heq⟩ := hbad x hx
    rw [heq] at hrest
    obtain ⟨rfl, rfl⟩ := exec_done_iff.mp hrest
    exact ⟨fun _ => ⟨_, List.mem_cons_self, hx⟩, fun _ => ⟨error, rfl⟩⟩
  · rw [hgood x hx tr' r hrest]
    constructor
    · rintro ⟨y, hy, hbad'⟩
      exact ⟨y, List.mem_cons_of_mem _ hy, hbad'⟩
    · rintro ⟨y, hy, hbad'⟩
      rcases List.mem_cons.mp hy with rfl | hy
      · exact absurd hbad' hx
      · exact ⟨y, hy, hbad'⟩

/-- The rule for a request without bad answers. -/
theorem FailsOn.call_bind_of_forall {e : E γ} {f : γ → ExceptT ε (Program E) β}
    (h : ∀ x, ¬ Bad ⟨e, x⟩) (hf : ∀ x, FailsOn Bad (f x)) : FailsOn Bad (call e >>= f) :=
  FailsOn.call_bind (fun x hx => absurd hx (h x)) fun x _ => hf x

/-- The rule for a last request without bad answers. -/
theorem FailsOn.last_call {e : E γ} (h : ∀ x, ¬ Bad ⟨e, x⟩) :
    FailsOn Bad (call e : ExceptT ε (Program E) γ) := by
  intro tr r hexec
  obtain ⟨x, rfl, rfl⟩ := exec_call_iff.mp hexec
  simp [h x]

/-- A program that returns at once makes no request. -/
theorem Requests.done {C : ∀ β : Type, E β → Prop} {r : Except ε α} (h : q.run = .done r) :
    Requests C q := by
  intro tr r' hexec x hx
  rw [h] at hexec
  obtain ⟨rfl, -⟩ := exec_done_iff.mp hexec
  cases hx

/-- The rule for sequencing. -/
theorem Requests.bind {C : ∀ β : Type, E β → Prop} (hq : Requests C q)
    (hf : ∀ a, Requests C (f a)) : Requests C (q >>= f) := by
  intro tr r h x hx
  rcases exec_bind_except_iff.mp h with ⟨e, hexec, -⟩ | ⟨tr₁, tr₂, a, rfl, hexec, hrest⟩
  · exact hq tr _ hexec x hx
  · rcases List.mem_append.mp hx with hx | hx
    · exact hq tr₁ _ hexec x hx
    · exact hf a tr₂ r hrest x hx

/-- The rule for a request. -/
theorem Requests.call_bind {C : ∀ β : Type, E β → Prop} {e : E γ}
    {f : γ → ExceptT ε (Program E) β} (he : C _ e) (hf : ∀ x, Requests C (f x)) :
    Requests C (call e >>= f) := by
  intro tr r h x hx
  obtain ⟨y, tr', rfl, hrest⟩ := exec_call_bind_iff.mp h
  rcases List.mem_cons.mp hx with rfl | hx
  · exact he
  · exact hf y tr' r hrest x hx

/-- The rule for a last request. -/
theorem Requests.last_call {C : ∀ β : Type, E β → Prop} {e : E γ} (he : C _ e) :
    Requests C (call e : ExceptT ε (Program E) γ) := by
  intro tr r h x hx
  obtain ⟨y, rfl, -⟩ := exec_call_iff.mp h
  obtain rfl := List.mem_singleton.mp hx
  exact he

/-- A program that returns a value at once makes no bad exchange. -/
theorem FailsOn.done {a : α} (h : q.run = .done (.ok a)) : FailsOn Bad q := by
  intro tr r hexec
  rw [h] at hexec
  obtain ⟨rfl, rfl⟩ := exec_done_iff.mp hexec
  simp

/-- Every program succeeds with some value. -/
theorem OkAfter.any : OkAfter Good (fun _ => True) q :=
  fun _ _ _ => Or.inl trivial

/-- A program that returns a value at once. -/
theorem OkAfter.done {P : α → Prop} {a : α} (h : q.run = .done (.ok a)) (ha : P a) :
    OkAfter Good P q := by
  intro tr a' hexec
  rw [h] at hexec
  obtain ⟨-, heq⟩ := exec_done_iff.mp hexec
  exact Or.inl (Except.ok.inj heq ▸ ha)

/-- A program that fails at once succeeds with nothing. -/
theorem OkAfter.failed {P : α → Prop} {e : ε} (h : q.run = .done (.error e)) :
    OkAfter Good P q := by
  intro tr a hexec
  rw [h] at hexec
  obtain ⟨-, heq⟩ := exec_done_iff.mp hexec
  cases heq

/-- **The rule for sequencing**: what follows counts where the first part returned without a good
exchange. -/
theorem OkAfter.bind {P : α → Prop} {R : β → Prop} (hq : OkAfter Good P q)
    (hf : ∀ a, P a → OkAfter Good R (f a)) : OkAfter Good R (q >>= f) := by
  intro tr b hexec
  rcases exec_bind_except_iff.mp hexec with ⟨e, -, he⟩ | ⟨tr₁, tr₂, a, rfl, hfirst, hsecond⟩
  · cases he
  · rcases hq tr₁ a hfirst with ha | ⟨x, hx, hgood⟩
    · refine (hf a ha tr₂ b hsecond).imp_right ?_
      rintro ⟨x, hx, hgood⟩
      exact ⟨x, List.mem_append_right _ hx, hgood⟩
    · exact Or.inr ⟨x, List.mem_append_left _ hx, hgood⟩

/-- The rule for a request. -/
theorem OkAfter.call_bind {R : β → Prop} {e : E γ} {f : γ → ExceptT ε (Program E) β}
    (hf : ∀ x, OkAfter Good R (f x)) : OkAfter Good R (call e >>= f) :=
  OkAfter.bind OkAfter.any fun x _ => hf x

/-- Sequencing, where the requests of the second part depend on what the first part returns. -/
theorem Requests.bind_ok {C : ∀ β : Type, E β → Prop} {P : α → Prop} (hq : Requests C q)
    (hok : OkAfter (fun _ => False) P q) (hf : ∀ a, P a → Requests C (f a)) :
    Requests C (q >>= f) := by
  intro tr r h x hx
  rcases exec_bind_except_iff.mp h with ⟨e, hexec, -⟩ | ⟨tr₁, tr₂, a, rfl, hexec, hrest⟩
  · exact hq tr _ hexec x hx
  · rcases List.mem_append.mp hx with hx | hx
    · exact hq tr₁ _ hexec x hx
    · rcases hok tr₁ a hexec with ha | ⟨y, -, hfalse⟩
      · exact hf a ha tr₂ r hrest x hx
      · exact hfalse.elim

theorem Costs.mono (hq : Costs w m q) (h : m ≤ n) : Costs w n q :=
  fun tr r hexec => Nat.le_trans (hq tr r hexec) h

/-- A program that returns at once costs nothing. -/
theorem Costs.done {r : Except ε α} (h : q.run = .done r) : Costs w n q := by
  intro tr r' hexec
  rw [h] at hexec
  obtain ⟨rfl, -⟩ := exec_done_iff.mp hexec
  exact Nat.zero_le n

/-- The rule for sequencing. -/
theorem Costs.bind (hq : Costs w m q) (hf : ∀ a, Costs w n (f a)) : Costs w (m + n) (q >>= f) := by
  intro tr r h
  rcases exec_bind_except_iff.mp h with ⟨e, hexec, -⟩ | ⟨tr₁, tr₂, a, rfl, hexec, hrest⟩
  · exact Nat.le_trans (hq tr _ hexec) (Nat.le_add_right m n)
  · rw [List.map_append, List.sum_append]
    exact Nat.add_le_add (hq tr₁ _ hexec) (hf a tr₂ r hrest)

/-- Sequencing after a part without cost. -/
theorem Costs.free_bind (hq : Costs w 0 q) (hf : ∀ a, Costs w n (f a)) : Costs w n (q >>= f) :=
  (hq.bind hf).mono (Nat.le_of_eq (Nat.zero_add n))

/-- The rule for a request. -/
theorem Costs.call_bind {e : E γ} {f : γ → ExceptT ε (Program E) β} (he : ∀ x, w ⟨e, x⟩ ≤ m)
    (hf : ∀ x, Costs w n (f x)) : Costs w (m + n) (call e >>= f) := by
  intro tr r h
  obtain ⟨x, tr', rfl, hrest⟩ := exec_call_bind_iff.mp h
  rw [List.map_cons, List.sum_cons]
  exact Nat.add_le_add (he x) (hf x tr' r hrest)

/-- The rule for a request without cost. -/
theorem Costs.free_call {e : E γ} {f : γ → ExceptT ε (Program E) β} (he : ∀ x, w ⟨e, x⟩ = 0)
    (hf : ∀ x, Costs w n (f x)) : Costs w n (call e >>= f) :=
  (Costs.call_bind (fun x => Nat.le_of_eq (he x)) hf).mono (Nat.le_of_eq (Nat.zero_add n))

/-- The rule for a last request without cost. -/
theorem Costs.last_call {e : E γ} (he : ∀ x, w ⟨e, x⟩ = 0) :
    Costs w n (call e : ExceptT ε (Program E) γ) := by
  intro tr r h
  obtain ⟨x, rfl, -⟩ := exec_call_iff.mp h
  rw [List.map_singleton, List.sum_singleton, he x]
  exact Nat.zero_le n

/-- Where a program costs nothing, none of its exchanges has a price. -/
theorem Costs.eq_zero (hq : Costs w 0 q) {tr : Trace E} {r : Except ε α} (hexec : Exec q.run tr r)
    {x : Exchange E} (hx : x ∈ tr) : w x = 0 := by
  have hle : w x ≤ (tr.map w).sum := List.single_le_sum (by simp) _ (List.mem_map_of_mem hx)
  have hsum := hq tr r hexec
  omega

/-- Where nothing comes after, there is nothing to show. -/
theorem After.of_costs {A B : Exchange E → Prop} (hw : ∀ x, B x → w x ≠ 0) (hq : Costs w 0 q) :
    After A B q := by
  intro tr r hexec pre x post heq hx
  refine absurd (hq.eq_zero hexec ?_) (hw x hx)
  rw [heq]
  exact List.mem_append_right _ List.mem_cons_self

/-- The rule for sequencing. -/
theorem After.bind {A B : Exchange E → Prop} (hq : After A B q) (hf : ∀ a, After A B (f a)) :
    After A B (q >>= f) := by
  intro tr r h pre x post heq hx
  rcases exec_bind_except_iff.mp h with ⟨e, hexec, -⟩ | ⟨tr₁, tr₂, a, rfl, hexec, hrest⟩
  · exact hq tr _ hexec pre x post heq hx
  · rcases List.append_eq_append_iff.mp heq with ⟨mid, rfl, htr₂⟩ | ⟨mid, htr₁, hpost⟩
    · obtain ⟨y, hy, hA⟩ := hf a tr₂ r hrest mid x post htr₂ hx
      exact ⟨y, List.mem_append_right _ hy, hA⟩
    · cases mid with
      | nil =>
          obtain ⟨y, hy, hA⟩ := hf a tr₂ r hrest [] x post hpost.symm hx
          cases hy
      | cons y mid =>
          obtain ⟨rfl, -⟩ := List.cons.inj hpost
          exact hq tr₁ _ hexec pre x mid htr₁ hx

/-- The rule for a request: once it is answered as needed, the rest is free. -/
theorem After.call_bind {A B : Exchange E → Prop} {e : E γ} {f : γ → ExceptT ε (Program E) β}
    (he : ∀ x, ¬ B ⟨e, x⟩) (hf : ∀ x, A ⟨e, x⟩ ∨ After A B (f x)) :
    After A B (call e >>= f) := by
  intro tr r h pre y post heq hy
  obtain ⟨x, tr', rfl, hrest⟩ := exec_call_bind_iff.mp h
  cases pre with
  | nil =>
      obtain ⟨rfl, -⟩ := List.cons.inj heq
      exact absurd hy (he x)
  | cons z pre =>
      obtain ⟨rfl, htail⟩ := List.cons.inj heq
      rcases hf x with hA | hf
      · exact ⟨_, List.mem_cons_self, hA⟩
      · obtain ⟨z, hz, hA⟩ := hf tr' r hrest pre y post htail hy
        exact ⟨z, List.mem_cons_of_mem _ hz, hA⟩

end Rules

/-! ### What successful executions show -/

/-- What a program **shows** when it succeeds: `see` is what is seen of an exchange, and what is
seen of a whole execution satisfies `Q` with its value. -/
def Shows {M : Type} (see : Exchange E → List M) (q : ExceptT ε (Program E) α)
    (Q : List M → α → Prop) : Prop :=
  ∀ tr a, Exec q.run tr (.ok a) → Q (tr.flatMap see) a

section Shown

variable {M : Type} {see : Exchange E → List M} {q : ExceptT ε (Program E) α}
  {f : α → ExceptT ε (Program E) β} {R : List M → α → Prop} {Q : List M → β → Prop}

/-- The rule of consequence. -/
theorem Shows.imp {R' : List M → α → Prop} (h : Shows see q R)
    (hR : ∀ seen a, R seen a → R' seen a) : Shows see q R' :=
  fun tr a hexec => hR _ a (h tr a hexec)

/-- The rule for a known result. -/
theorem Shows.known {r : Except ε α} (h : q.run = .done r) (hr : ∀ a, r = .ok a → R [] a) :
    Shows see q R := by
  intro tr a hexec
  rw [h] at hexec
  obtain ⟨rfl, heq⟩ := exec_done_iff.mp hexec
  exact hr a heq.symm

/-- **The rule for sequencing.** -/
theorem Shows.bind (hq : Shows see q R)
    (hf : ∀ seen a, R seen a → Shows see (f a) fun seen' => Q (seen ++ seen')) :
    Shows see (q >>= f) Q := by
  intro tr b h
  rcases exec_bind_except_iff.mp h with ⟨e, -, heq⟩ | ⟨tr₁, tr₂, a, rfl, hexec, hrest⟩
  · cases heq
  · rw [List.flatMap_append]
    exact hf _ a (hq tr₁ a hexec) tr₂ b hrest

/-- Sequencing after a part that shows nothing. -/
theorem Shows.silent_bind (hq : Shows see q fun seen _ => seen = [])
    (hf : ∀ a, Shows see (f a) Q) : Shows see (q >>= f) Q :=
  hq.bind fun seen a hseen => by
    rw [hseen]
    exact hf a

/-- Sequencing after a value that is known. -/
theorem Shows.value_bind {a : α} (h : q.run = .done (.ok a)) (hf : Shows see (f a) Q) :
    Shows see (q >>= f) Q := by
  refine (Shows.known (R := fun seen a' => seen = [] ∧ a' = a) h ?_).bind ?_
  · rintro a' heq
    exact ⟨rfl, (Except.ok.inj heq).symm⟩
  · rintro seen a' ⟨rfl, rfl⟩
    exact hf

/-- The rule for a request. -/
theorem Shows.call_bind {e : E γ} {f : γ → ExceptT ε (Program E) β}
    (hf : ∀ x, Shows see (f x) fun seen => Q (see ⟨e, x⟩ ++ seen)) :
    Shows see (call e >>= f) Q := by
  intro tr b h
  obtain ⟨x, tr', rfl, hrest⟩ := exec_call_bind_iff.mp h
  rw [List.flatMap_cons]
  exact hf x tr' b hrest

/-- The rule for a last request. -/
theorem Shows.last_call {e : E γ} {Q : List M → γ → Prop} (h : ∀ x, Q (see ⟨e, x⟩) x) :
    Shows see (call e : ExceptT ε (Program E) γ) Q := by
  intro tr a hexec
  obtain ⟨x, rfl, heq⟩ := exec_call_iff.mp hexec
  obtain rfl := Except.ok.inj heq
  rw [List.flatMap_singleton]
  exact h a

/-- The rule for a request of which nothing is seen. -/
theorem Shows.silent_call {e : E γ} {f : γ → ExceptT ε (Program E) β}
    (he : ∀ x, see ⟨e, x⟩ = []) (hf : ∀ x, Shows see (f x) Q) : Shows see (call e >>= f) Q :=
  .call_bind fun x => by
    rw [he x]
    exact hf x

end Shown

/-! ### Monitors -/

/-- A program **under a monitor**: a state follows the exchanges, every request satisfies `Req` in
the state it is made in, and every result satisfies `Q` in the state it is returned in. -/
def Monitored {S : Type} (step : S → Exchange E → S) (Req : S → {β : Type} → E β → Prop)
    (p : Program E α) (s : S) (Q : S → α → Prop) : Prop :=
  match p with
  | .done a => Q s a
  | .ask e k => Req s e ∧ ∀ x, (k x).Monitored step Req (step s ⟨e, x⟩) Q

section Monitors

variable {S : Type} {step : S → Exchange E → S} {Require : S → {β : Type} → E β → Prop} {s : S}

/-- **The rule for sequencing.** -/
theorem monitored_bind {f : α → Program E β} {Q : S → β → Prop} :
    Monitored step Require (p >>= f) s Q ↔
      Monitored step Require p s fun t a => Monitored step Require (f a) t Q := by
  induction p generalizing s with
  | done a => exact Iff.rfl
  | ask e k ih => exact and_congr_right fun _ => forall_congr' fun x => ih x

/-- The rule of consequence. -/
theorem Monitored.imp {Q Q' : S → α → Prop} (h : Monitored step Require p s Q)
    (hQ : ∀ t a, Q t a → Q' t a) : Monitored step Require p s Q' := by
  induction p generalizing s with
  | done a => exact hQ s a h
  | ask e k ih => exact ⟨h.1, fun x => ih x (h.2 x)⟩

/-- The sequencing rule for programs that may return an error early. -/
theorem monitored_bind_except {q : ExceptT ε (Program E) α} {f : α → ExceptT ε (Program E) β}
    {Q : S → Except ε β → Prop} :
    Monitored step Require (q >>= f).run s Q ↔
      Monitored step Require q.run s fun t r =>
        match r with
        | .ok a => Monitored step Require (f a).run t Q
        | .error e => Q t (.error e) := by
  refine monitored_bind.trans ⟨fun h => h.imp ?_, fun h => h.imp ?_⟩
  · rintro t (e | a) hq
    · exact hq
    · exact hq
  · rintro t (e | a) hq
    · exact hq
    · exact hq

/-- The rule for a request. -/
theorem monitored_call_bind {e : E γ} {f : γ → ExceptT ε (Program E) β}
    {Q : S → Except ε β → Prop} :
    Monitored step Require (call e >>= f).run s Q ↔
      Require s e ∧ ∀ x, Monitored step Require (f x).run (step s ⟨e, x⟩) Q :=
  Iff.rfl

/-- **Soundness of `Monitored`**: the state at the end of an execution satisfies the
postcondition, and every exchange happened under its precondition. -/
theorem Monitored.exec {Q : S → α → Prop} (h : Monitored step Require p s Q) {a : α}
    (hexec : Exec p tr a) :
    Q (tr.foldl step s) a ∧
      ∀ (pre post : Trace E) (x : Exchange E), tr = pre ++ x :: post →
        Require (pre.foldl step s) x.request := by
  induction hexec generalizing s with
  | done a =>
      refine ⟨h, ?_⟩
      intro pre post x heq
      simp at heq
  | ask e k x hexec ih =>
      have hk := ih (h.2 x)
      refine ⟨hk.1, ?_⟩
      rintro (_ | ⟨y, pre⟩) post x' heq
      · obtain ⟨rfl, -⟩ := List.cons.inj heq
        exact h.1
      · obtain ⟨rfl, hrest⟩ := List.cons.inj heq
        exact hk.2 pre post x' hrest

end Monitors

/-! ### Programs beside others -/

section Sharing

universe u

variable {S : Type u}

/-- A program **beside others**: the others change the shared state by `rely`, every request is
made in a state that satisfies `Req` and changes it by `effect`, and every result satisfies `Q` in
the state it is returned in. -/
def Beside (rely : S → S → Prop) (effect : S → Exchange E → S → Prop)
    (Req : S → {β : Type} → E β → Prop) (p : Program E α) (s : S) (Q : S → α → Prop) : Prop :=
  match p with
  | .done a => ∀ t, rely s t → Q t a
  | .ask e k => ∀ t, rely s t →
      Req t e ∧ ∀ x u, effect t ⟨e, x⟩ u → (k x).Beside rely effect Req u Q

variable {rely : S → S → Prop} {effect : S → Exchange E → S → Prop}
  {Require : S → {β : Type} → E β → Prop} {s t : S} {Q : S → α → Prop}

/-- A step of the others. -/
theorem Beside.others (htrans : ∀ {s t u}, rely s t → rely t u → rely s u)
    (h : Beside rely effect Require p s Q) (hst : rely s t) : Beside rely effect Require p t Q := by
  cases p with
  | done a => exact fun u htu => h u (htrans hst htu)
  | ask e k => exact fun u htu => h u (htrans hst htu)

/-- A request of the program. -/
theorem Beside.ask (hrefl : ∀ s, rely s s) {e : E β} {k : β → Program E α}
    (h : Beside rely effect Require (.ask e k) s Q) :
    Require s e ∧ ∀ x u, effect s ⟨e, x⟩ u → Beside rely effect Require (k x) u Q :=
  h s (hrefl s)

/-- The return of the program. -/
theorem Beside.done (hrefl : ∀ s, rely s s) {a : α}
    (h : Beside rely effect Require (.done a : Program E α) s Q) : Q s a :=
  h s (hrefl s)

/-- An execution **beside others**: the others change the shared state by `rely` before every
request and every return, and an exchange changes it by `effect`. -/
inductive ExecBeside (rely : S → S → Prop) (effect : S → Exchange E → S → Prop) :
    Program E α → S → Trace E → S → α → Prop
  | done {s t : S} (a : α) (hst : rely s t) : ExecBeside rely effect (.done a) s [] t a
  | ask {β : Type} {s t u v : S} (e : E β) (k : β → Program E α) (x : β) {tr : Trace E} {a : α}
      (hst : rely s t) (heffect : effect t ⟨e, x⟩ u)
      (hrest : ExecBeside rely effect (k x) u tr v a) :
      ExecBeside rely effect (.ask e k) s (⟨e, x⟩ :: tr) v a

/-- An exchange that is written down in a history beside the state. -/
def recording (effect : S → Exchange E → S → Prop) (s : S × Trace E) (x : Exchange E)
    (t : S × Trace E) : Prop :=
  effect s.1 x t.1 ∧ t.2 = s.2 ++ [x]

/-- The others write nothing into the history. -/
def unrecorded (rely : S → S → Prop) (s t : S × Trace E) : Prop :=
  rely s.1 t.1 ∧ t.2 = s.2

section Rules

variable {rely : S → S → Prop} {effect : S → Exchange E → S → Prop}
  {Require : S → {β : Type} → E β → Prop} {s t : S} {Q Q' : S → α → Prop}

/-- The rule of consequence. -/
theorem Beside.imp (h : Beside rely effect Require p s Q) (hQ : ∀ t a, Q t a → Q' t a) :
    Beside rely effect Require p s Q' := by
  induction p generalizing s with
  | done a => exact fun t hst => hQ t a (h t hst)
  | ask e k ih =>
      exact fun t hst => ⟨(h t hst).1, fun x u heffect => ih x ((h t hst).2 x u heffect)⟩

/-- **The rule for sequencing.** -/
theorem Beside.bind (hrefl : ∀ s, rely s s) {f : α → Program E β} {R : S → β → Prop}
    (h : Beside rely effect Require p s fun t a => Beside rely effect Require (f a) t R) :
    Beside rely effect Require (p >>= f) s R := by
  induction p generalizing s with
  | done a => exact h s (hrefl s)
  | ask e k ih =>
      exact fun t hst => ⟨(h t hst).1, fun x u heffect => ih x ((h t hst).2 x u heffect)⟩

/-- The sequencing rule for programs that may return an error early. -/
theorem Beside.bind_except (hrefl : ∀ s, rely s s) {q : ExceptT ε (Program E) α}
    {f : α → ExceptT ε (Program E) β} {R : S → Except ε β → Prop}
    (h : Beside rely effect Require q.run s fun t r =>
      match r with
      | .ok a => Beside rely effect Require (f a).run t R
      | .error e => ∀ u, rely t u → R u (.error e)) :
    Beside rely effect Require (q >>= f).run s R := by
  refine Beside.bind hrefl (h.imp ?_)
  rintro t (e | a) hpost
  · exact hpost
  · exact hpost

/-- The rule for a check. -/
theorem Beside.check {c : Prop} [Decidable c] {e : ε} {f : Unit → ExceptT ε (Program E) β}
    {R : S → Except ε β → Prop} (hok : c → Beside rely effect Require (f ()).run s R)
    (herror : ∀ t, rely s t → R t (.error e)) :
    Beside rely effect Require (require c e >>= f).run s R := by
  unfold require
  split
  · next hc => exact hok hc
  · exact herror

/-- The rule for renamed errors. -/
theorem Beside.adapt {ε' : Type} (hrefl : ∀ s, rely s s) {q : ExceptT ε (Program E) α} {f : ε → ε'}
    {R : S → Except ε' α → Prop}
    (h : Beside rely effect Require q.run s fun t r => ∀ u, rely t u → R u (r.mapError f)) :
    Beside rely effect Require (ExceptT.adapt f q).run s R :=
  Beside.bind hrefl h

/-- The rule for a request. -/
theorem beside_call_bind {e : E γ} {f : γ → ExceptT ε (Program E) β}
    {R : S → Except ε β → Prop} :
    Beside rely effect Require (call e >>= f).run s R ↔
      ∀ t, rely s t → Require t e ∧
        ∀ x u, effect t ⟨e, x⟩ u → Beside rely effect Require (f x).run u R :=
  Iff.rfl

/-- What holds whatever the answers are also holds beside others. -/
theorem Beside.and_ensures {R : S × Trace E → α → Prop} {R' : Trace E → α → Prop}
    {Require : S × Trace E → {β : Type} → E β → Prop} {past : Trace E}
    (h : Beside (unrecorded rely) (recording effect) Require p (s, past) R)
    (h' : Ensures (fun _ _ _ => True) p past R') :
    Beside (unrecorded rely) (recording effect) Require p (s, past) fun t a =>
      R t a ∧ R' t.2 a := by
  induction p generalizing s past with
  | done a =>
      rintro ⟨t, past'⟩ ⟨hst, rfl⟩
      exact ⟨h _ ⟨hst, rfl⟩, h'⟩
  | ask e k ih =>
      rintro ⟨t, past'⟩ ⟨hst, rfl⟩
      refine ⟨(h _ ⟨hst, rfl⟩).1, ?_⟩
      rintro x ⟨u, past'⟩ ⟨heffect, rfl⟩
      exact ih x ((h _ ⟨hst, rfl⟩).2 x _ ⟨heffect, rfl⟩) (h'.2 x)

/-- A step of the others in front of an execution. -/
theorem ExecBeside.others (htrans : ∀ s t u, rely s t → rely t u → rely s u) {u : S} {a : α}
    (hst : rely s t) (hexec : ExecBeside rely effect p t tr u a) :
    ExecBeside rely effect p s tr u a := by
  cases hexec with
  | done a htu => exact .done a (htrans _ _ _ hst htu)
  | ask e k x htu heffect hrest => exact .ask e k x (htrans _ _ _ hst htu) heffect hrest

/-- An execution of a sequence, from one of each part. -/
theorem ExecBeside.bind (htrans : ∀ s t u, rely s t → rely t u → rely s u) {f : α → Program E β}
    {tr' : Trace E} {u : S} {a : α} {b : β} (hexec : ExecBeside rely effect p s tr t a)
    (hrest : ExecBeside rely effect (f a) t tr' u b) :
    ExecBeside rely effect (p >>= f) s (tr ++ tr') u b := by
  induction hexec with
  | done a hst => exact hrest.others htrans hst
  | ask e k x hst heffect _ ih => exact .ask e _ x hst heffect (ih hrest)

/-- An execution of a sequence that may fail, from one of each part. -/
theorem ExecBeside.bind_except (htrans : ∀ s t u, rely s t → rely t u → rely s u)
    {q : ExceptT ε (Program E) α} {f : α → ExceptT ε (Program E) β} {tr' : Trace E} {u : S} {a : α}
    {r : Except ε β} (hexec : ExecBeside rely effect q.run s tr t (.ok a))
    (hrest : ExecBeside rely effect (f a).run t tr' u r) :
    ExecBeside rely effect (q >>= f).run s (tr ++ tr') u r :=
  hexec.bind htrans hrest

/-- An execution with its error renamed. -/
theorem ExecBeside.adapt (hrefl : ∀ s, rely s s) (htrans : ∀ s t u, rely s t → rely t u → rely s u)
    {ε' : Type} {q : ExceptT ε (Program E) α} {f : ε → ε'} {r : Except ε α}
    (hexec : ExecBeside rely effect q.run s tr t r) :
    ExecBeside rely effect (ExceptT.adapt f q).run s (tr ++ []) t (r.mapError f) :=
  hexec.bind htrans (.done _ (hrefl t))

/-- An execution in a shared state is one. -/
theorem ExecBeside.exec {a : α} (hexec : ExecBeside rely effect p s tr t a) : Exec p tr a := by
  induction hexec with
  | done a _ => exact .done a
  | ask e k x _ _ _ ih => exact .ask e k x ih

/-- **Soundness of `Beside`**, with the history of the execution. -/
theorem Beside.exec {R : S × Trace E → α → Prop} {Require : S × Trace E → {β : Type} → E β → Prop}
    {past : Trace E} {a : α}
    (h : Beside (unrecorded rely) (recording effect) Require p (s, past) R)
    (hexec : ExecBeside rely effect p s tr t a) : R (t, past ++ tr) a := by
  induction hexec generalizing past with
  | done a hst => exact (List.append_nil past).symm ▸ h _ ⟨hst, rfl⟩
  | ask e k x hst heffect _ ih =>
      have hrest := ih ((h (_, past) ⟨hst, rfl⟩).2 x (_, past ++ [⟨e, x⟩]) ⟨heffect, rfl⟩)
      rw [List.append_assoc] at hrest
      exact hrest

end Rules

end Sharing

end Program
