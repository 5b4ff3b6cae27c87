import Statechart.Proofs.Interpreter.Stages

/-!
# Events are taken in as a whole or not at all

`Sends` is what submitting an event means: the engine answers, its actions run in order, and the
snapshot changes only when all of them succeed. Read `sends_iff` first, which says that
`Interpreter.send` does exactly this and makes exactly these calls. `feed_kept` follows from it: the
events that fail can be left out of any series of events.
-/

namespace Statechart

namespace Interpreter

variable {h : Host} {i : Interpreter} {event : Value} {calls : List Call}
  {answer : Interpreter × Except Error Value}

/-- The processing of an event, with the calls to factories and reducers that it makes. -/
def trace (h : Host) (i : Interpreter) (event : Value) : Traced (Snapshot × Value) :=
  processIn h.traced i.engine i.config i.snapshot event

/-- The answer of the engine to an event. -/
def asked (i : Interpreter) (event : Value) : Except Error Value :=
  i.engine.transition ⟨i.snapshot.version + 1, 0, 0⟩ i.snapshot.control event i.snapshot.state

/-- The actions that come with an answer of the engine. -/
def emitted (control : Value) : Except Error (List Value) :=
  actionsIn control >>= Value.elements

/-- Submitting an event: the calls that are made, the interpreter afterwards and the outputs or the
error. The actions start with the extended state of the snapshot and without outputs, and the error
of an action is worded. -/
inductive Sends (h : Host) (i : Interpreter) (event : Value) :
    List Call → Interpreter × Except Error Value → Prop where
  | commit {control : Value} {raws : List Value} {calls : List Call} {last : Identity}
      {p : Progress}
      (engine : i.asked event = .ok control)
      (actions : emitted control = .ok raws)
      (runs : Runs h i.config event ⟨i.snapshot.version + 1, 1, 0⟩
        ⟨i.snapshot.state, i.config.noOutput⟩ raws calls last p) :
      Sends h i event calls
        ({ i with snapshot := ⟨control, p.state, i.snapshot.version + 1⟩ }, .ok p.outputs)
  | noAnswer {error : Error}
      (engine : i.asked event = .error error) : Sends h i event [] (i, .error error)
  | noActions {control : Value} {error : Error}
      (engine : i.asked event = .ok control)
      (actions : emitted control = .error error) : Sends h i event [] (i, .error error)
  | actionFails {control : Value} {raws : List Value} {calls : List Call} {error : Error}
      (engine : i.asked event = .ok control)
      (actions : emitted control = .ok raws)
      (breaks : Breaks h i.config event ⟨i.snapshot.version + 1, 1, 0⟩
        ⟨i.snapshot.state, i.config.noOutput⟩ raws calls error) :
      Sends h i event calls (i, .error error.worded)

/-- The interpreter after the processing of an event: the snapshot changes only by a success. -/
def settled (i : Interpreter) : Except Error (Snapshot × Value) → Interpreter × Except Error Value
  | .ok (s, outputs) => ({ i with snapshot := s }, .ok outputs)
  | .error e => (i, .error e)

/-- Submitting an event settles the result of its trace. -/
theorem send_eq_settled (h : Host) (i : Interpreter) (event : Value) :
    i.send h event = i.settled (i.trace h event).result := by
  rw [trace, result_process_in, send]
  cases process h i.engine i.config i.snapshot event <;> rfl

/-- The trace of an event, from those of its parts. -/
theorem trace_eq (h : Host) (i : Interpreter) (event : Value) :
    i.trace h event = do
      let control ← h.traced.lift (i.asked event)
      let raws ← h.traced.lift (emitted control)
      let p ← h.traced.reword (actionsRunIn h.traced i.config ⟨i.snapshot.version + 1, 1, 0⟩ event
        raws ⟨i.snapshot.state, i.config.noOutput⟩)
      return (⟨control, p.state, i.snapshot.version + 1⟩, p.outputs) := by
  show (h.traced.lift (i.asked event) >>= fun control => _) = _
  congr 1
  funext control
  unfold emitted
  cases actionsIn control with
  | error e => rfl
  | ok actions => rfl

/-- The trace of an event that is submitted. -/
theorem trace_of_sends (hsends : Sends h i event calls answer) :
    (i.trace h event).calls = calls ∧ i.settled (i.trace h event).result = answer := by
  rw [trace_eq]
  cases hsends with
  | commit engine actions runs =>
      rw [engine, lift_ok_bind, actions, lift_ok_bind, trace_of_runs runs]
      exact ⟨List.append_nil calls, rfl⟩
  | noAnswer engine =>
      rw [engine, lift_error_bind]
      exact ⟨rfl, rfl⟩
  | noActions engine actions =>
      rw [engine, lift_ok_bind, actions, lift_error_bind]
      exact ⟨rfl, rfl⟩
  | actionFails engine actions breaks =>
      rw [engine, lift_ok_bind, actions, lift_ok_bind, trace_of_breaks breaks]
      exact ⟨rfl, rfl⟩

/-- Every event that is submitted is taken in or fails in one of the ways there are. -/
theorem exists_sends (h : Host) (i : Interpreter) (event : Value) :
    ∃ calls answer, Sends h i event calls answer := by
  cases engine : i.asked event with
  | error e => exact ⟨_, _, .noAnswer engine⟩
  | ok control =>
      cases actions : emitted control with
      | error e => exact ⟨_, _, .noActions engine actions⟩
      | ok raws =>
          rcases runs_or_breaks h i.config event ⟨i.snapshot.version + 1, 1, 0⟩
            ⟨i.snapshot.state, i.config.noOutput⟩ raws with ⟨_, _, _, runs⟩ | ⟨_, _, breaks⟩
          · exact ⟨_, _, .commit engine actions runs⟩
          · exact ⟨_, _, .actionFails engine actions breaks⟩

/-- Submitting an event means what `Sends` says. -/
theorem sends_iff : Sends h i event calls answer ↔
    calls = (i.trace h event).calls ∧ answer = i.send h event := by
  rw [send_eq_settled]
  constructor
  · intro hsends
    obtain ⟨hcalls, hanswer⟩ := trace_of_sends hsends
    exact ⟨hcalls.symm, hanswer.symm⟩
  · intro h
    obtain ⟨hcalls, hanswer⟩ := h
    obtain ⟨calls', answer', hsends⟩ := exists_sends h i event
    obtain ⟨hcalls', hanswer'⟩ := trace_of_sends hsends
    rwa [hcalls, hcalls', hanswer, hanswer']

/-- An event is taken in when its actions succeed. -/
theorem send_eq_of_runs {control : Value} {raws : List Value} {last : Identity} {p : Progress}
    (engine : i.asked event = .ok control) (actions : emitted control = .ok raws)
    (runs : Runs h i.config event ⟨i.snapshot.version + 1, 1, 0⟩
      ⟨i.snapshot.state, i.config.noOutput⟩ raws calls last p) :
    i.send h event =
      ({ i with snapshot := ⟨control, p.state, i.snapshot.version + 1⟩ }, .ok p.outputs) :=
  (sends_iff.mp (.commit engine actions runs)).2.symm

/-! ## Series of events -/

/-- The interpreter after a series of events, and the outputs or the error of each. -/
def feed (h : Host) (i : Interpreter) : List Value → Interpreter × List (Except Error Value)
  | [] => (i, [])
  | event :: events =>
      let (j, answer) := i.send h event
      let (k, answers) := feed h j events
      (k, answer :: answers)

/-- The events of a series that do not fail. -/
def kept (h : Host) (i : Interpreter) (events : List Value) : List Value :=
  ((events.zip (i.feed h events).2).filter fun x => x.2.isOk).map Prod.fst

/-- An event that fails leaves the interpreter as it is. -/
theorem eq_of_send_error {error : Error} (hsend : (i.send h event).2 = .error error) :
    (i.send h event).1 = i := by
  rw [send_eq_settled] at hsend ⊢
  cases hresult : (i.trace h event).result with
  | ok s =>
      rw [hresult] at hsend
      cases hsend
  | error e => rfl

/-- Leaving out the events that fail changes neither the interpreter nor the other outputs. -/
theorem feed_kept (h : Host) (i : Interpreter) (events : List Value) :
    i.feed h (i.kept h events) =
      ((i.feed h events).1, (i.feed h events).2.filter fun answer => answer.isOk) := by
  induction events generalizing i with
  | nil => rfl
  | cons event events ih =>
      cases hanswer : (i.send h event).2 with
      | error error =>
          -- The rest of the series starts from the same interpreter as the whole.
          have hsame : (i.send h event).1 = i := eq_of_send_error hanswer
          have hkept : i.kept h (event :: events) = i.kept h events := by
            simp [kept, feed, hsame, hanswer, Except.isOk, Except.toBool]
          rw [hkept, ih]
          simp [feed, hsame, hanswer, Except.isOk, Except.toBool]
      | ok outputs =>
          have hkept : i.kept h (event :: events) =
              event :: (i.send h event).1.kept h events := by
            simp [kept, feed, hanswer, Except.isOk, Except.toBool]
          rw [hkept]
          simp [feed, hanswer, ih, Except.isOk, Except.toBool]

/-- Submitting an event runs its actions in order and takes all of them in or none, and the events
that fail can be left out of any series. -/
theorem send_all_or_nothing (h : Host) :
    (∀ (i : Interpreter) (event : Value) (calls : List Call)
      (answer : Interpreter × Except Error Value), Sends h i event calls answer ↔
        calls = (i.trace h event).calls ∧ answer = i.send h event) ∧
    ∀ (i : Interpreter) (events : List Value), i.feed h (i.kept h events) =
      ((i.feed h events).1, (i.feed h events).2.filter fun answer => answer.isOk) :=
  ⟨fun _ _ _ _ => sends_iff, feed_kept h⟩

end Interpreter

end Statechart
