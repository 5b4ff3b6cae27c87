import Statechart.Examples.Named
import Statechart.Proofs.Interpreter.Atomicity

/-!
# Interpreters that follow a system

A small system of states and steps can stand for what an interpreter does. `Follows` asks for one
event: it leads from related states to related ones, and its answer is one that the system gives.
Read `Follows.feed` first, which states the same of any series of events, and `Follows.answer`,
which says which answer each of them has. What an interpreter of a machine does with one event comes
from `Interprets.send_eq_of_runs` and `Interprets.send_eq_of_breaks`.
-/

namespace Statechart.Interpreter

variable {h : Host}

/-! ## Interpreters of a machine -/

section

variable {m : Machine} {c : Config} {i : Interpreter} {event control : Value} {raws : List Value}
  {calls : List Call}

/-- An interpreter whose engine answers as a machine does. -/
structure Interprets (i : Interpreter) (h : Host) (m : Machine) (c : Config) : Prop where
  engine : ∀ start, i.engine.transition start = m.transition h start
  config : i.config = c

/-- An interpreter of a configuration that defines a machine starts in its initial state. -/
theorem exists_of_machine {machine : Value} (hdefine : Machine.define machine = .ok m)
    (hinitial : m.initialState = .ok control) (c : Config) (context : Value) :
    ∃ i, ofMachine h machine c context = .ok i ∧ i.Interprets h m c ∧
      i.snapshot = ⟨control, initialContext machine context, 0⟩ := by
  refine ⟨⟨⟨control, fun start => m.transition h start⟩, c, _⟩, ?_, ⟨fun _ => rfl, rfl⟩, rfl⟩
  simp [ofMachine, hdefine, Engine.ofMachine, hinitial, new]

namespace Interprets

/-- A new snapshot does not change which machine is interpreted. -/
theorem commit (hi : i.Interprets h m c) (s : Snapshot) : Interprets { i with snapshot := s } h m c :=
  ⟨hi.engine, hi.config⟩

/-- The answer of the engine is that of the machine. -/
theorem asked_eq (hi : i.Interprets h m c) (event : Value) : i.asked event =
    m.transition h ⟨i.snapshot.version + 1, 0, 0⟩ i.snapshot.control event i.snapshot.state := by
  rw [asked, hi.engine]

/-- An event is taken in when the machine answers and the actions succeed. -/
theorem send_eq_of_runs (hi : i.Interprets h m c) {last : Identity} {p : Progress}
    (answer : m.transition h ⟨i.snapshot.version + 1, 0, 0⟩ i.snapshot.control event
      i.snapshot.state = .ok control) (actions : emitted control = .ok raws)
    (runs : Runs h c event ⟨i.snapshot.version + 1, 1, 0⟩ ⟨i.snapshot.state, c.noOutput⟩ raws calls
      last p) :
    i.send h event =
      ({ i with snapshot := ⟨control, p.state, i.snapshot.version + 1⟩ }, .ok p.outputs) := by
  obtain rfl := hi.config
  exact Interpreter.send_eq_of_runs ((hi.asked_eq event).trans answer) actions runs

/-- An event fails when the machine answers and an action fails. -/
theorem send_eq_of_breaks (hi : i.Interprets h m c) {error : Error}
    (answer : m.transition h ⟨i.snapshot.version + 1, 0, 0⟩ i.snapshot.control event
      i.snapshot.state = .ok control) (actions : emitted control = .ok raws)
    (breaks : Breaks h c event ⟨i.snapshot.version + 1, 1, 0⟩ ⟨i.snapshot.state, c.noOutput⟩ raws
      calls error) :
    i.send h event = (i, .error error.worded) := by
  obtain rfl := hi.config
  exact (sends_iff.mp (.actionFails ((hi.asked_eq event).trans answer) actions breaks)).2.symm

/-- An event fails when the machine has no answer. -/
theorem send_eq_of_error (hi : i.Interprets h m c) {error : Error}
    (answer : m.transition h ⟨i.snapshot.version + 1, 0, 0⟩ i.snapshot.control event
      i.snapshot.state = .error error) : i.send h event = (i, .error error) :=
  (sends_iff.mp (.noAnswer ((hi.asked_eq event).trans answer))).2.symm

end Interprets

end

/-! ## Series in two parts -/

/-- A series of events is submitted in two parts. -/
theorem feed_append (i : Interpreter) (events events' : List Value) :
    i.feed h (events ++ events') =
      (((i.feed h events).1.feed h events').1,
        (i.feed h events).2 ++ ((i.feed h events).1.feed h events').2) := by
  induction events generalizing i with
  | nil => rfl
  | cons event events ih => simp [feed, ih]

/-- Every event of a series has one answer. -/
theorem length_feed (i : Interpreter) (events : List Value) :
    (i.feed h events).2.length = events.length := by
  induction events generalizing i with
  | nil => rfl
  | cons event events ih => simp [feed, ih]

/-- The answer to an event of a series is the one to submitting it after those before it. -/
theorem answer_of_feed (i : Interpreter) (before after : List Value) (event : Value) :
    (i.feed h (before ++ event :: after)).2[before.length]? =
      some ((i.feed h before).1.send h event).2 := by
  rw [feed_append, ← length_feed i before, List.getElem?_append_right (Nat.le_refl _),
    Nat.sub_self]
  rfl

/-! ## Systems -/

section

variable {σ : Type} {related : σ → Interpreter → Prop} {accepts : Value → Prop}
  {step : σ → Value → σ} {gives : σ → Value → Except Error Value → Prop} {s : σ} {i : Interpreter}
  {events : List Value}

/-- Interpreters follow a system when each event that it accepts leads from related states to
related ones, with an answer that the system gives. -/
def Follows (h : Host) (related : σ → Interpreter → Prop) (accepts : Value → Prop)
    (step : σ → Value → σ) (gives : σ → Value → Except Error Value → Prop) : Prop :=
  ∀ s i event, related s i → accepts event →
    related (step s event) (i.send h event).1 ∧ gives s event (i.send h event).2

/-- An interpreter that follows a system does so for any series of events. -/
theorem Follows.feed (hfollows : Follows h related accepts step gives) (hi : related s i)
    (hevents : ∀ event ∈ events, accepts event) :
    related (events.foldl step s) (i.feed h events).1 ∧
      ∀ answer ∈ (i.feed h events).2, ∃ s' event, gives s' event answer := by
  induction events generalizing s i with
  | nil => exact ⟨hi, by simp [Interpreter.feed]⟩
  | cons event events ih =>
      obtain ⟨hevent, hevents⟩ := List.forall_mem_cons.mp hevents
      obtain ⟨hnext, hanswer⟩ := hfollows s i event hi hevent
      obtain ⟨hlast, hanswers⟩ := ih hnext hevents
      exact ⟨hlast, List.forall_mem_cons.mpr ⟨⟨s, event, hanswer⟩, hanswers⟩⟩

/-- When the answer depends on the event only, so do the answers to a series of events. -/
theorem Follows.answers_eq {answer : Value → Except Error Value}
    (hfollows : Follows h related accepts step fun _ event a => a = answer event)
    (hi : related s i) (hevents : ∀ event ∈ events, accepts event) :
    (i.feed h events).2 = events.map answer := by
  induction events generalizing s i with
  | nil => rfl
  | cons event events ih =>
      obtain ⟨hevent, hevents⟩ := List.forall_mem_cons.mp hevents
      obtain ⟨hnext, hanswer⟩ := hfollows s i event hi hevent
      rw [Interpreter.feed, List.map_cons, ← hanswer, ← ih hnext hevents]

/-- The answer to an event of a series is one that the system gives after the events before it. -/
theorem Follows.answer (hfollows : Follows h related accepts step gives) (hi : related s i)
    {before after : List Value} {event : Value}
    (hevents : ∀ e ∈ before ++ event :: after, accepts e) :
    ∃ answer, (i.feed h (before ++ event :: after)).2[before.length]? = some answer ∧
      gives (before.foldl step s) event answer := by
  have hbefore : ∀ e ∈ before, accepts e := fun e he => hevents e (List.mem_append_left _ he)
  exact ⟨_, answer_of_feed i before after event,
    (hfollows _ _ event (hfollows.feed hi hbefore).1 (hevents event (by simp))).2⟩

end

end Statechart.Interpreter

namespace Statechart.Examples

/-- An example is built when its configurations are accepted; it starts in the initial state of its
machine. -/
theorem Example.exists_build {e : Example} {h : Host} {m : Machine} {control : Value}
    (hcheck : e.config.check = .ok e.config) (hdefine : Machine.define e.machine = .ok m)
    (hinitial : m.initialState = .ok control) (context : Value) :
    ∃ i, e.build h context = .ok i ∧ i.Interprets h m e.config ∧
      i.snapshot = ⟨control, Interpreter.initialContext e.machine context, 0⟩ := by
  rw [Example.build, hcheck]
  exact Interpreter.exists_of_machine hdefine hinitial e.config context

end Statechart.Examples
