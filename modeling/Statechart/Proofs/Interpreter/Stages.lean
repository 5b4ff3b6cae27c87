import Statechart.Proofs.Interpreter.Trace

/-!
# The stages of an action

An action goes through six stages, each of which may fail: its shape is read, its factory is found
and called, the answer is read, and its outputs and its update are taken in. `Performs` and `Fails`
say what each stage needs and which calls have been made by then; `Runs` and `Breaks` say the same
of actions in order. `trace_of_runs` and `trace_of_breaks` are the traces of both.
-/

namespace Statechart

/-- The stages of an action, in order. -/
inductive Stage where
  | shape
  | resolution
  | call
  | result
  | outputs
  | update

variable {h : Host} {c : Config} {event : Value} {start last : Identity} {p p' : Progress}
  {raw : Value} {raws : List Value} {calls calls' : List Call} {stage : Stage} {error : Error}

section

variable (h : Host) (c : Config) (event : Value) (start : Identity) (p : Progress)

/-- An action succeeds: what it did so far, the calls that it makes, and what is done after it. -/
inductive Performs (raw : Value) : List Call → Progress → Prop where
  | intro {d : Descriptor} {factory answer outputs state : Value} {o : Outcome}
      (shape : Descriptor.read raw = .ok d)
      (resolution : d.factory c.factories = .ok factory)
      (call : h.answer (factoryCall event start p factory d) = .ok answer)
      (result : Outcome.read answer d.toValue = .ok o)
      (outputs_eq : h.answer (outputsCall c start p o) = .ok outputs)
      (update : h.answer (updateCall c start p o) = .ok state) :
      Performs raw
        [factoryCall event start p factory d, outputsCall c start p o, updateCall c start p o]
        ⟨state, outputs⟩

/-- An action fails at a stage with an error, the stages before it having succeeded: the calls that
it makes are those up to that stage. -/
inductive Fails (raw : Value) : Stage → List Call → Error → Prop where
  | shape {error : Error} (fails : Descriptor.read raw = .error error) : Fails raw .shape [] error
  | resolution {error : Error} {d : Descriptor}
      (shape : Descriptor.read raw = .ok d)
      (fails : d.factory c.factories = .error error) : Fails raw .resolution [] error
  | call {error : Error} {d : Descriptor} {factory : Value}
      (shape : Descriptor.read raw = .ok d)
      (resolution : d.factory c.factories = .ok factory)
      (fails : h.answer (factoryCall event start p factory d) = .error error) :
      Fails raw .call [factoryCall event start p factory d] error
  | result {error : Error} {d : Descriptor} {factory answer : Value}
      (shape : Descriptor.read raw = .ok d)
      (resolution : d.factory c.factories = .ok factory)
      (call : h.answer (factoryCall event start p factory d) = .ok answer)
      (fails : Outcome.read answer d.toValue = .error error) :
      Fails raw .result [factoryCall event start p factory d] error
  | outputs {error : Error} {d : Descriptor} {factory answer : Value} {o : Outcome}
      (shape : Descriptor.read raw = .ok d)
      (resolution : d.factory c.factories = .ok factory)
      (call : h.answer (factoryCall event start p factory d) = .ok answer)
      (result : Outcome.read answer d.toValue = .ok o)
      (fails : h.answer (outputsCall c start p o) = .error error) :
      Fails raw .outputs [factoryCall event start p factory d, outputsCall c start p o] error
  | update {error : Error} {d : Descriptor} {factory answer outputs : Value} {o : Outcome}
      (shape : Descriptor.read raw = .ok d)
      (resolution : d.factory c.factories = .ok factory)
      (call : h.answer (factoryCall event start p factory d) = .ok answer)
      (result : Outcome.read answer d.toValue = .ok o)
      (outputs_eq : h.answer (outputsCall c start p o) = .ok outputs)
      (fails : h.answer (updateCall c start p o) = .error error) :
      Fails raw .update
        [factoryCall event start p factory d, outputsCall c start p o, updateCall c start p o] error

end

/-- Actions succeed one after the other: the calls that they make, where the marks of the next calls
start, and what is done after them. -/
inductive Runs (h : Host) (c : Config) (event : Value) :
    Identity → Progress → List Value → List Call → Identity → Progress → Prop where
  | nil {start : Identity} {p : Progress} : Runs h c event start p [] [] start p
  | cons {start last : Identity} {p p' p'' : Progress} {raw : Value} {raws : List Value}
      {calls calls' : List Call}
      (first : Performs h c event start p raw calls p')
      (rest : Runs h c event start.nextAction p' raws calls' last p'') :
      Runs h c event start p (raw :: raws) (calls ++ calls') last p''

/-- Actions fail: those before the first that fails succeed, and it fails at some stage. -/
inductive Breaks (h : Host) (c : Config) (event : Value) (start : Identity) (p : Progress) :
    List Value → List Call → Error → Prop where
  | intro {last : Identity} {p' : Progress} {raws rest : List Value} {raw : Value}
      {calls calls' : List Call} {stage : Stage} {error : Error}
      (done : Runs h c event start p raws calls last p')
      (fails : Fails h c event last p' raw stage calls' error) :
      Breaks h c event start p (raws ++ raw :: rest) (calls ++ calls') error

/-- Actions fail when the first of them does. -/
theorem Breaks.first (fails : Fails h c event start p raw stage calls error) (rest : List Value) :
    Breaks h c event start p (raw :: rest) calls error :=
  have done : Runs h c event start p [] [] start p := .nil
  .intro done fails

/-! ## Traces -/

section

variable {α β : Type}

theorem lift_ok_bind (a : α) (f : α → Traced β) : (h.traced.lift (.ok a) >>= f) = f a := rfl

theorem lift_error_bind (e : Error) (f : α → Traced β) :
    (h.traced.lift (.error e) >>= f) = ⟨[], .error e⟩ := rfl

/-- The calls of a success come before those of the rest. -/
theorem traced_ok_bind (calls : List Call) (a : α) (f : α → Traced β) :
    ((⟨calls, .ok a⟩ : Traced α) >>= f) = ⟨calls ++ (f a).calls, (f a).result⟩ := rfl

/-- After a call that succeeds the rest is done. -/
theorem call_ok_bind {call : Call} {v : Value} (hcall : h.answer call = .ok v)
    (f : Value → Traced α) :
    (h.traced.call call >>= f) = ⟨call :: (f v).calls, (f v).result⟩ := by
  simp [Host.traced, hcall, bind]

/-- A call that fails is the last one. -/
theorem call_error_bind {call : Call} {e : Error} (hcall : h.answer call = .error e)
    (f : Value → Traced α) : (h.traced.call call >>= f) = ⟨[call], .error e⟩ := by
  simp [Host.traced, hcall, bind]

end

/-- The trace of an action that succeeds. -/
theorem trace_of_performs (hp : Performs h c event start p raw calls p') :
    actionIn h.traced c start event p raw = ⟨calls, .ok p'⟩ := by
  cases hp with
  | intro shape resolution call result outputs_eq update =>
      rw [actionIn, shape, lift_ok_bind, resolution, lift_ok_bind, call_ok_bind call, result,
        lift_ok_bind, call_ok_bind outputs_eq, call_ok_bind update]
      rfl

/-- The trace of an action that fails. -/
theorem trace_of_fails (hf : Fails h c event start p raw stage calls error) :
    actionIn h.traced c start event p raw = ⟨calls, .error error⟩ := by
  cases hf with
  | shape fails => rw [actionIn, fails, lift_error_bind]
  | resolution shape fails => rw [actionIn, shape, lift_ok_bind, fails, lift_error_bind]
  | call shape resolution fails =>
      rw [actionIn, shape, lift_ok_bind, resolution, lift_ok_bind, call_error_bind fails]
  | result shape resolution call fails =>
      rw [actionIn, shape, lift_ok_bind, resolution, lift_ok_bind, call_ok_bind call, fails,
        lift_error_bind]
  | outputs shape resolution call result fails =>
      rw [actionIn, shape, lift_ok_bind, resolution, lift_ok_bind, call_ok_bind call, result,
        lift_ok_bind, call_error_bind fails]
  | update shape resolution call result outputs_eq fails =>
      rw [actionIn, shape, lift_ok_bind, resolution, lift_ok_bind, call_ok_bind call, result,
        lift_ok_bind, call_ok_bind outputs_eq, call_error_bind fails]

/-- An action succeeds or fails at a stage. -/
theorem performs_or_fails (h : Host) (c : Config) (event : Value) (start : Identity) (p : Progress)
    (raw : Value) : (∃ calls p', Performs h c event start p raw calls p') ∨
      ∃ stage calls error, Fails h c event start p raw stage calls error := by
  cases shape : Descriptor.read raw with
  | error e => exact Or.inr ⟨_, _, e, .shape shape⟩
  | ok d =>
      cases resolution : d.factory c.factories with
      | error e => exact Or.inr ⟨_, _, e, .resolution shape resolution⟩
      | ok factory =>
          cases call : h.answer (factoryCall event start p factory d) with
          | error e => exact Or.inr ⟨_, _, e, .call shape resolution call⟩
          | ok answer =>
              cases result : Outcome.read answer d.toValue with
              | error e => exact Or.inr ⟨_, _, e, .result shape resolution call result⟩
              | ok o =>
                  cases outputs_eq : h.answer (outputsCall c start p o) with
                  | error e =>
                      exact Or.inr ⟨_, _, e, .outputs shape resolution call result outputs_eq⟩
                  | ok outputs =>
                      cases update : h.answer (updateCall c start p o) with
                      | error e =>
                          exact Or.inr
                            ⟨_, _, e, .update shape resolution call result outputs_eq update⟩
                      | ok state =>
                          exact Or.inl
                            ⟨_, _, .intro shape resolution call result outputs_eq update⟩

/-- Actions that succeed are followed by the rest. -/
theorem trace_append (hruns : Runs h c event start p raws calls last p') (rest : List Value) :
    actionsRunIn h.traced c start event (raws ++ rest) p =
      ⟨calls ++ (actionsRunIn h.traced c last event rest p').calls,
        (actionsRunIn h.traced c last event rest p').result⟩ := by
  induction hruns with
  | nil => rfl
  | cons first _ ih =>
      rw [List.cons_append, actionsRunIn, trace_of_performs first, traced_ok_bind, ih,
        List.append_assoc]

/-- The trace of actions that succeed. -/
theorem trace_of_runs (hruns : Runs h c event start p raws calls last p') :
    actionsRunIn h.traced c start event raws p = ⟨calls, .ok p'⟩ := by
  have htrace := trace_append hruns []
  rw [List.append_nil] at htrace
  rw [htrace]
  show (⟨calls ++ [], .ok p'⟩ : Traced Progress) = _
  rw [List.append_nil]

/-- The trace of actions that fail. -/
theorem trace_of_breaks (hbreaks : Breaks h c event start p raws calls error) :
    actionsRunIn h.traced c start event raws p = ⟨calls, .error error⟩ := by
  cases hbreaks with
  | intro done fails =>
      rw [trace_append done, actionsRunIn, trace_of_fails fails]
      rfl

/-- Actions succeed one after the other, or one of them is the first to fail. -/
theorem runs_or_breaks (h : Host) (c : Config) (event : Value) (start : Identity) (p : Progress)
    (raws : List Value) : (∃ calls last p', Runs h c event start p raws calls last p') ∨
      ∃ calls error, Breaks h c event start p raws calls error := by
  induction raws generalizing start p with
  | nil => exact Or.inl ⟨_, _, _, .nil⟩
  | cons raw raws ih =>
      rcases performs_or_fails h c event start p raw with ⟨_, p', first⟩ | ⟨_, _, error, fails⟩
      · rcases ih start.nextAction p' with ⟨_, _, _, rest⟩ | ⟨_, _, hbreaks⟩
        · exact Or.inl ⟨_, _, _, .cons first rest⟩
        · cases hbreaks with
          | intro done fails => exact Or.inr ⟨_, _, .intro (.cons first done) fails⟩
      · exact Or.inr ⟨_, error, .intro .nil fails⟩

end Statechart
