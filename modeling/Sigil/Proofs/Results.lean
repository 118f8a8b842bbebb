import Sigil.Error

/-! # Results of computations that fail and keep their state

A check and an inference both end with an answer and a state, and the state is kept when the answer
is an error. The lemmas here take such a computation apart at a sequence: what ran before, what it
left, and where it failed.
-/

namespace EStateM.Result

variable {ε σ α : Type}

/-- The answer of a finished computation, without the state. -/
def answer : Result ε σ α → Except ε α
  | .ok value _ => .ok value
  | .error raised _ => .error raised

/-- The state that a finished computation leaves behind. -/
def state : Result ε σ α → σ
  | .ok _ left => left
  | .error _ left => left

@[simp] theorem answer_ok (value : α) (left : σ) :
    (ok value left : Result ε σ α).answer = .ok value := rfl

@[simp] theorem answer_error (raised : ε) (left : σ) :
    (error raised left : Result ε σ α).answer = .error raised := rfl

@[simp] theorem state_ok (value : α) (left : σ) : (ok value left : Result ε σ α).state = left := rfl

@[simp] theorem state_error (raised : ε) (left : σ) :
    (error raised left : Result ε σ α).state = left := rfl

end EStateM.Result

namespace Sigil

section Sequences

variable {σ α β : Type}

/-- A sequence runs its second part in the state that the first part leaves. -/
theorem bind_run (first : EStateM Error σ α) (next : α → EStateM Error σ β) (start : σ) :
    (first >>= next) start =
      match first start with
      | .ok given middle => next given middle
      | .error error left => .error error left := by
  change EStateM.bind first next start = _
  unfold EStateM.bind
  cases first start <;> rfl

theorem bind_of_ok {first : EStateM Error σ α} {next : α → EStateM Error σ β} {start middle : σ}
    {given : α} (ran : first start = .ok given middle) :
    (first >>= next) start = next given middle := by
  rw [bind_run, ran]

theorem bind_of_error {first : EStateM Error σ α} {next : α → EStateM Error σ β} {start left : σ}
    {error : Error} (failed : first start = .error error left) :
    (first >>= next) start = .error error left := by
  rw [bind_run, failed]

/-- A sequence succeeds exactly when both of its parts do, one after the other. -/
theorem bind_eq_ok_iff {first : EStateM Error σ α} {next : α → EStateM Error σ β} {start left : σ}
    {value : β} :
    (first >>= next) start = .ok value left ↔
      ∃ given middle, first start = .ok given middle ∧ next given middle = .ok value left := by
  rw [bind_run]
  cases first start <;> simp [and_assoc]

/-- A sequence fails where its first failing part does. -/
theorem bind_eq_error_iff {first : EStateM Error σ α} {next : α → EStateM Error σ β}
    {start left : σ} {error : Error} :
    (first >>= next) start = .error error left ↔
      first start = .error error left ∨
        ∃ given middle, first start = .ok given middle ∧ next given middle = .error error left := by
  rw [bind_run]
  cases first start <;> simp [and_assoc]

theorem except_bind_eq_ok_iff {first : Except Error α} {next : α → Except Error β} {value : β} :
    (first >>= next) = .ok value ↔ ∃ given, first = .ok given ∧ next given = .ok value := by
  cases first <;> simp [bind, Except.bind]

theorem except_bind_eq_error_iff {first : Except Error α} {next : α → Except Error β}
    {error : Error} :
    (first >>= next) = .error error ↔
      first = .error error ∨ ∃ given, first = .ok given ∧ next given = .error error := by
  cases first <;> simp [bind, Except.bind]

theorem toOption_eq_some_iff {answer : Except Error α} {value : α} :
    answer.toOption = some value ↔ answer = .ok value := by
  cases answer <;> simp [Except.toOption]

theorem require_eq_ok_iff {condition : Prop} [Decidable condition] {error : Error} {value : Unit} :
    (require condition error : Except Error Unit) = .ok value ↔ condition := by
  unfold require
  split <;> simp_all [pure, Except.pure, throw, throwThe, MonadExceptOf.throw]

theorem require_eq_error_iff {condition : Prop} [Decidable condition] {error raised : Error} :
    (require condition error : Except Error Unit) = .error raised ↔
      ¬ condition ∧ error = raised := by
  unfold require
  split <;> simp_all [pure, Except.pure, throw, throwThe, MonadExceptOf.throw]

theorem mapError_bind (change : Error → Error) (first : Except Error α)
    (next : α → Except Error β) :
    (first >>= next).mapError change =
      first.mapError change >>= fun value => (next value).mapError change := by
  cases first <;> rfl

theorem mapError_require (change : Error → Error) (condition : Prop) [Decidable condition]
    (error : Error) :
    (require condition error : Except Error Unit).mapError change =
      require condition (change error) := by
  unfold require
  split <;> rfl

end Sequences

end Sigil
