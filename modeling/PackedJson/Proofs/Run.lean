namespace PackedJson

/-!
Running a computation with a state and failures.

`Run step state good bad` says how a computation ends when it starts in a
state: with a result and a state that satisfy `good`, or with a failure and a
state that satisfy `bad`.  Every operation gets one such statement, and the
statements about longer computations are put together by `run_bind`.
-/

variable {Failure State Result Next : Type}

/-- A computation that starts in a state ends well or badly, as described. -/
def Run (step : EStateM Failure State Result) (state : State)
    (good : Result -> State -> Prop) (bad : Failure -> State -> Prop) : Prop :=
  match step state with
  | .ok result state => good result state
  | .error failure state => bad failure state

variable {state : State} {good : Result -> State -> Prop} {bad : Failure -> State -> Prop}

theorem run_of_ok {step : EStateM Failure State Result} {result : Result} {after : State}
    (ends : step state = .ok result after) : Run step state good bad ↔ good result after := by
  simp only [Run, ends]

theorem run_of_error {step : EStateM Failure State Result} {failure : Failure} {after : State}
    (ends : step state = .error failure after) :
    Run step state good bad ↔ bad failure after := by
  simp only [Run, ends]

theorem run_pure {result : Result} :
    Run (pure result : EStateM Failure State Result) state good bad ↔ good result state :=
  Iff.rfl

theorem run_throw {failure : Failure} :
    Run (throw failure : EStateM Failure State Result) state good bad ↔ bad failure state :=
  Iff.rfl

/-- A computation followed by another one: the second one starts where the
first one ended well, and a failure of either is a failure of both. -/
theorem run_bind {first : EStateM Failure State Result} {second : Result -> EStateM Failure State Next}
    {good : Next -> State -> Prop} :
    Run (first >>= second) state good bad ↔
      Run first state (fun result after => Run (second result) after good bad) bad := by
  simp only [Run, bind, EStateM.bind]
  cases first state <;> rfl

/-- What is known of the end may be weakened. -/
theorem Run.imp {step : EStateM Failure State Result}
    {weaker : Result -> State -> Prop} {weakerBad : Failure -> State -> Prop}
    (run : Run step state good bad)
    (onGood : forall result after, good result after -> weaker result after)
    (onBad : forall failure after, bad failure after -> weakerBad failure after) :
    Run step state weaker weakerBad := by
  unfold Run at run ⊢
  cases ends : step state with
  | ok result after =>
      rw [ends] at run
      exact onGood result after run
  | error failure after =>
      rw [ends] at run
      exact onBad failure after run

/-- What is known of the end is known together with the end itself. -/
theorem Run.remember {step : EStateM Failure State Result} (run : Run step state good bad) :
    Run step state (fun result after => good result after ∧ step state = .ok result after)
      (fun failure after => bad failure after ∧ step state = .error failure after) := by
  unfold Run at run ⊢
  cases ends : step state with
  | ok result after =>
      rw [ends] at run
      exact ⟨run, rfl⟩
  | error failure after =>
      rw [ends] at run
      exact ⟨run, rfl⟩

/-- A step whose end is known, followed by a computation that works from any
such end. -/
theorem Run.andThen {first : EStateM Failure State Result}
    {second : Result -> EStateM Failure State Next} {firstBad : Failure -> State -> Prop}
    {nextGood : Next -> State -> Prop}
    (run : Run first state good firstBad)
    (continued : forall result after, good result after ->
      Run (second result) after nextGood bad)
    (onBad : forall failure after, firstBad failure after -> bad failure after) :
    Run (first >>= second) state nextGood bad :=
  run_bind.mpr (run.imp continued onBad)

/-- What a computation ends well with, when it is known to have ended well. -/
theorem Run.of_ok {step : EStateM Failure State Result} {result : Result} {after : State}
    (run : Run step state good bad) (ends : step state = .ok result after) :
    good result after :=
  (run_of_ok ends).mp run

/-- What a computation ends badly with, when it is known to have failed. -/
theorem Run.of_error {step : EStateM Failure State Result} {failure : Failure} {after : State}
    (run : Run step state good bad) (ends : step state = .error failure after) :
    bad failure after :=
  (run_of_error ends).mp run

/-- A computation that cannot fail ends well. -/
theorem Run.exists_ok {step : EStateM Failure State Result}
    (run : Run step state good fun _ _ => False) : exists result after, step state = .ok result after := by
  cases ends : step state with
  | ok result after => exact ⟨result, after, rfl⟩
  | error failure after => exact (run.of_error ends).elim

/-- A computation that satisfies two descriptions satisfies both at once. -/
theorem Run.both {step : EStateM Failure State Result}
    {otherGood : Result -> State -> Prop} {otherBad : Failure -> State -> Prop}
    (run : Run step state good bad) (other : Run step state otherGood otherBad) :
    Run step state (fun result after => good result after ∧ otherGood result after)
      (fun failure after => bad failure after ∧ otherBad failure after) := by
  unfold Run at run other ⊢
  cases ends : step state <;> simp only [ends] at run other ⊢ <;> exact ⟨run, other⟩

end PackedJson
