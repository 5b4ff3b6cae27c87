import Statechart.Interpreter
import Statechart.Proofs.Outcome

/-!
# Calls that an event makes

`processIn` is the processing of an event with its effects as a parameter. Read `process_eq` first:
with the effects of a host it is `process`. With `Host.traced` it also collects the calls to
factories and reducers in the order in which they are made, and `result_process_in` says that its
result is that of `process`.
-/

namespace Statechart

/-- A call: where its marks start, what is called and with which arguments. -/
structure Call where
  start : Identity
  callee : Value
  args : List Value

/-- A computation that may fail, with the calls that it made. -/
structure Traced (α : Type) where
  calls : List Call
  result : Except Error α

instance : Monad Traced where
  pure a := ⟨[], .ok a⟩
  bind x f :=
    match x.result with
    | .ok a => ⟨x.calls ++ (f a).calls, (f a).result⟩
    | .error e => ⟨x.calls, .error e⟩

/-- What processing an event needs: computations without calls, calls, and errors in their final
wording. -/
structure Effects (M : Type → Type) where
  lift : {α : Type} → Except Error α → M α
  call : Call → M Value
  reword : {α : Type} → M α → M α

namespace Host

/-- The answer to a call. -/
def answer (h : Host) (call : Call) : Except Error Value :=
  h.apply call.start call.callee call.args

/-- The effects of a host. -/
def effects (h : Host) : Effects (Except Error) where
  lift x := x
  call := h.answer
  reword := Except.mapError Error.worded

/-- The effects of a host, with the calls that are made. -/
def traced (h : Host) : Effects Traced where
  lift x := ⟨[], x⟩
  call call := ⟨[call], h.answer call⟩
  reword x := { x with result := x.result.mapError Error.worded }

end Host

/-- The call of a factory. -/
def factoryCall (event : Value) (start : Identity) (p : Progress) (factory : Value)
    (d : Descriptor) : Call :=
  ⟨start, factory, [p.state, event, d.toValue]⟩

/-- The call that takes outputs in. -/
def outputsCall (c : Config) (start : Identity) (p : Progress) (o : Outcome) : Call :=
  ⟨start.nextCall, c.mergeOutputs, [p.outputs, o.outputs]⟩

/-- The call that takes an update in. -/
def updateCall (c : Config) (start : Identity) (p : Progress) (o : Outcome) : Call :=
  ⟨start.nextCall.nextCall, c.updateState, [p.state, o.updates]⟩

/-- Where the marks of the calls of the next action start. -/
def Identity.nextAction (i : Identity) : Identity :=
  i.nextCall.nextCall.nextCall

section

variable {M : Type → Type} [Monad M]

/-- Runs one action. -/
def actionIn (E : Effects M) (c : Config) (start : Identity) (event : Value) (p : Progress)
    (raw : Value) : M Progress := do
  let d ← E.lift (Descriptor.read raw)
  let factory ← E.lift (d.factory c.factories)
  let answer ← E.call (factoryCall event start p factory d)
  let outcome ← E.lift (Outcome.read answer d.toValue)
  let outputs ← E.call (outputsCall c start p outcome)
  let state ← E.call (updateCall c start p outcome)
  return ⟨state, outputs⟩

/-- Runs actions in order. -/
def actionsRunIn (E : Effects M) (c : Config) (start : Identity) (event : Value) :
    List Value → Progress → M Progress
  | [], p => return p
  | raw :: raws, p => do
      let p ← actionIn E c start event p raw
      actionsRunIn E c start.nextAction event raws p

/-- Processes an event from a snapshot. -/
def processIn (E : Effects M) (e : Engine) (c : Config) (s : Snapshot) (event : Value) :
    M (Snapshot × Value) := do
  let start : Identity := ⟨s.version + 1, 0, 0⟩
  let control ← E.lift (e.transition start s.control event s.state)
  let actions ← E.lift (actionsIn control)
  let raws ← E.lift actions.elements
  let p ← E.reword (actionsRunIn E c start.nextCall event raws ⟨s.state, c.noOutput⟩)
  return (⟨control, p.state, s.version + 1⟩, p.outputs)

end

variable {h : Host} {e : Engine} {c : Config} {start : Identity} {event : Value}

/-! ## The effects of a host -/

theorem run_actions_eq (raws : List Value) (p : Progress) :
    runActions h c start event raws p = actionsRunIn h.effects c start event raws p := by
  induction raws generalizing start p with
  | nil => rfl
  | cons raw raws ih =>
      show (runAction h c start event p raw >>= _) = (runAction h c start event p raw >>= _)
      congr 1
      funext p'
      exact ih p'

/-- Processing an event is processing it with the effects of the host. -/
theorem process_eq (s : Snapshot) :
    process h e c s event = processIn h.effects e c s event := by
  unfold process
  simp only [run_actions_eq]
  rfl

/-! ## Traces -/

section

variable {α β : Type}

theorem result_bind (x : Traced α) (f : α → Traced β) :
    (x >>= f).result = x.result >>= fun a => (f a).result := by
  rcases x with ⟨calls, _ | a⟩ <;> rfl

theorem result_lift (x : Except Error α) : (h.traced.lift x).result = h.effects.lift x := rfl

theorem result_reword (x : Traced α) :
    (h.traced.reword x).result = h.effects.reword x.result := rfl

end

/-- The result of a traced action is that of running it. -/
theorem result_action_in (p : Progress) (raw : Value) :
    (actionIn h.traced c start event p raw).result = actionIn h.effects c start event p raw := by
  simp only [actionIn, result_bind, result_lift]
  rfl

/-- The result of traced actions is that of running them. -/
theorem result_actions_run_in (raws : List Value) (p : Progress) :
    (actionsRunIn h.traced c start event raws p).result =
      actionsRunIn h.effects c start event raws p := by
  induction raws generalizing start p with
  | nil => rfl
  | cons raw raws ih =>
      rw [actionsRunIn, actionsRunIn, result_bind, result_action_in]
      congr 1
      funext p'
      exact ih p'

/-- The result of a traced event is that of processing it. -/
theorem result_process_in (s : Snapshot) :
    (processIn h.traced e c s event).result = process h e c s event := by
  rw [process_eq]
  simp only [processIn, result_bind, result_lift, result_reword, result_actions_run_in]
  rfl

end Statechart
