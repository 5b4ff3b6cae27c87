import Statechart.Examples.Named
import Statechart.Proofs.Interpreter.Atomicity
import Statechart.Replay

/-!
# Runs of series of events

`send_all_append` is the law that all else here follows from: a run of two series is a run of the
first and then, unless that failed, one of the second. `run_in_parts` says what this means: runs can
be made in parts, the first event that fails ends a run, and no event after it is sent. Which events
are sent is seen by `sendAllIn`, a run that has the submission of an event as a parameter.
-/

namespace Statechart

/-- An event that succeeds adds one to the version. -/
theorem Interpreter.version_of_send_ok {h : Host} {i next : Interpreter} {event outputs : Value}
    (hsend : i.send h event = (next, .ok outputs)) :
    next.snapshot.version = i.snapshot.version + 1 := by
  obtain ⟨calls, hsends⟩ : ∃ calls, Sends h i event calls (next, .ok outputs) :=
    ⟨_, hsend ▸ sends_iff.mpr ⟨rfl, rfl⟩⟩
  cases hsends with
  | commit => rfl

namespace Replay

variable {h : Host} {i : Interpreter} {name : String} {index : Nat} {es : List Value}
  {event : Value} {error : Error}

/-! ## One run after another -/

/-- What two runs leave behind when the second starts where the first ended. -/
def Trace.followedBy (t u : Trace) : Trace :=
  ⟨u.interpreter, t.outputs ++ u.outputs, t.applied + u.applied, t.logs ++ u.logs, u.failure⟩

/-- What a run leaves behind when a second one is made after it, unless it failed. -/
def Trace.andThen (t : Trace) (rest : Interpreter → Trace) : Trace :=
  match t.failure with
  | some _ => t
  | none => t.followedBy (rest t.interpreter)

/-- What a run leaves behind apart from its log. -/
def Trace.unlogged (t : Trace) : Trace :=
  { t with logs := [] }

theorem unlogged_eq_iff {t u : Trace} : t.unlogged = u.unlogged ↔
    t.interpreter = u.interpreter ∧ t.outputs = u.outputs ∧ t.applied = u.applied ∧
      t.failure = u.failure := by
  simp [Trace.unlogged]

/-- What an event that succeeds leaves behind. -/
def applied (name : String) (index : Nat) (event : Value) (next : Interpreter) (outputs : Value) :
    Trace :=
  ⟨next, [outputs], 1, [processed name index event next.snapshot.version], none⟩

theorem followed_by_assoc (t u v : Trace) :
    (t.followedBy u).followedBy v = t.followedBy (u.followedBy v) := by
  simp [Trace.followedBy, Nat.add_assoc]

theorem send_all_cons_ok {next : Interpreter} {outputs : Value}
    (hsend : i.send h event = (next, .ok outputs)) : sendAll h name index i (event :: es) =
      (applied name index event next outputs).followedBy (sendAll h name (index + 1) next es) := by
  simp [sendAll, hsend, applied, Trace.followedBy, Nat.add_comm]

theorem send_all_cons_error {next : Interpreter} (hsend : i.send h event = (next, .error error)) :
    sendAll h name index i (event :: es) =
      ⟨next, [], 0, [failed name index event], some error⟩ := by
  simp [sendAll, hsend]

/-- A run of two series is a run of the first and, unless that failed, one of the second. -/
theorem send_all_append (es ds : List Value) : sendAll h name index i (es ++ ds) =
    (sendAll h name index i es).andThen fun j => sendAll h name (index + es.length) j ds := by
  induction es generalizing index i with
  | nil => simp [sendAll, Trace.andThen, Trace.followedBy]
  | cons event es ih =>
      rcases hsend : i.send h event with ⟨next, error | outputs⟩
      · rw [List.cons_append, send_all_cons_error hsend, send_all_cons_error hsend]
        rfl
      · have hlength : index + (event :: es).length = index + 1 + es.length := by
          rw [List.length_cons]
          omega
        rw [List.cons_append, send_all_cons_ok hsend, send_all_cons_ok hsend, ih, hlength]
        cases hfailure : (sendAll h name (index + 1) next es).failure with
        | some error => simp [Trace.andThen, Trace.followedBy, hfailure]
        | none =>
            simp only [Trace.andThen, hfailure, show ∀ t u : Trace, (t.followedBy u).failure =
              u.failure from fun _ _ => rfl]
            exact (followed_by_assoc _ _ _).symm

/-- The name of a run and the numbers of its events matter for the log only. -/
theorem send_all_unlogged (h : Host) (i : Interpreter) (es : List Value) (name name' : String)
    (index index' : Nat) :
    (sendAll h name index i es).unlogged = (sendAll h name' index' i es).unlogged := by
  induction es generalizing index index' i with
  | nil => rfl
  | cons event es ih =>
      rcases hsend : i.send h event with ⟨next, error | outputs⟩
      · rw [send_all_cons_error hsend, send_all_cons_error hsend]
        rfl
      · have hrest := ih next (index + 1) (index' + 1)
        simp only [Trace.unlogged, Trace.mk.injEq] at hrest
        rw [send_all_cons_ok hsend, send_all_cons_ok hsend]
        simp [Trace.unlogged, Trace.followedBy, applied, hrest]

/-- A run has an output for each event that it applied, and each of them added one to the version;
a run that does not fail applied all events. -/
theorem counts_of_send_all (h : Host) (name : String) (index : Nat) (i : Interpreter)
    (es : List Value) : (sendAll h name index i es).outputs.length =
        (sendAll h name index i es).applied ∧
      (sendAll h name index i es).interpreter.snapshot.version =
        i.snapshot.version + (sendAll h name index i es).applied ∧
      ((sendAll h name index i es).failure = none →
        (sendAll h name index i es).applied = es.length) := by
  induction es generalizing index i with
  | nil => simp [sendAll]
  | cons event es ih =>
      rcases hsend : i.send h event with ⟨next, error | outputs⟩
      · have hsame : next = i := by
          have hstays := Interpreter.eq_of_send_error (congrArg Prod.snd hsend)
          rwa [hsend] at hstays
        simp [send_all_cons_error hsend, hsame]
      · obtain ⟨houtputs, hversion, hall⟩ := ih (index + 1) next
        have hnext := Interpreter.version_of_send_ok hsend
        rw [send_all_cons_ok hsend]
        simp only [Trace.followedBy, applied, List.length_append, List.length_cons, List.length_nil]
        refine ⟨by omega, by omega, fun hnone => ?_⟩
        rw [hall hnone]
        omega

/-! ## The events that are sent -/

/-- Sends events in order, with the submission of an event as a parameter. -/
def sendAllIn {M : Type → Type} [Monad M]
    (send : Interpreter → Value → M (Interpreter × Except Error Value)) (name : String)
    (index : Nat) (i : Interpreter) : List Value → M Trace
  | [] => return ⟨i, [], 0, [], none⟩
  | event :: es => do
      let (next, answer) ← send i event
      match answer with
      | .ok outputs =>
          let rest ← sendAllIn send name (index + 1) next es
          return (applied name index event next outputs).followedBy rest
      | .error e => return ⟨next, [], 0, [failed name index event], some e⟩

/-- Submits an event and notes it. -/
def noting (h : Host) (i : Interpreter) (event : Value) :
    StateM (List Value) (Interpreter × Except Error Value) := do
  modify fun noted => noted ++ [event]
  return i.send h event

/-- The events that a run sends. -/
def sent (h : Host) (name : String) (i : Interpreter) (es : List Value) : List Value :=
  ((sendAllIn (noting h) name 0 i es).run []).2

/-- The number of events that a run sent: those that it applied, and the one that failed. -/
def Trace.attempts (t : Trace) : Nat :=
  t.applied + t.failure.toList.length

theorem attempts_applied (t : Trace) (name : String) (index : Nat) (event : Value)
    (next : Interpreter) (outputs : Value) :
    ((applied name index event next outputs).followedBy t).attempts = t.attempts + 1 := by
  simp only [Trace.attempts, Trace.followedBy, applied]
  omega

/-- A run that notes the events it sends is `sendAll`, and it notes as many as it sent. -/
theorem run_noting (noted es : List Value) :
    (sendAllIn (noting h) name index i es).run noted =
      (sendAll h name index i es, noted ++ es.take (sendAll h name index i es).attempts) := by
  induction es generalizing index i noted with
  | nil =>
      rw [List.take_nil, List.append_nil]
      rfl
  | cons event es ih =>
      rcases hsend : i.send h event with ⟨next, error | outputs⟩
      · rw [send_all_cons_error hsend]
        simp only [sendAllIn, noting, hsend]
        rfl
      · have hstep : (sendAllIn (noting h) name index i (event :: es)).run noted =
            (fun p : Trace × List Value =>
              ((applied name index event next outputs).followedBy p.1, p.2)) <$>
            (sendAllIn (noting h) name (index + 1) next es).run (noted ++ [event]) := by
          simp [sendAllIn, noting, hsend]
        rw [hstep, ih, send_all_cons_ok hsend, attempts_applied, List.take_succ_cons,
          List.append_assoc, List.singleton_append]
        rfl

/-- A run sends the events that it applied and the one that failed. -/
theorem sent_eq_take (h : Host) (name : String) (i : Interpreter) (es : List Value) :
    sent h name i es = es.take (sendAll h name 0 i es).attempts := by
  rw [sent, run_noting, List.nil_append]

/-! ## The first event that fails -/

/-- The event at a position is the first of a series to fail: those before it succeed, and where
they lead it fails with the error. -/
structure FirstFailure (h : Host) (name : String) (i : Interpreter) (es : List Value) (k : Nat)
    (error : Error) : Prop where
  before : (sendAll h name 0 i (es.take k)).failure = none
  fails : ∃ event, es[k]? = some event ∧
    ((sendAll h name 0 i (es.take k)).interpreter.send h event).2 = .error error

/-- The events before the first one that fails are applied. -/
theorem FirstFailure.applied {k : Nat} (hfirst : FirstFailure h name i es k error) :
    (sendAll h name 0 i (es.take k)).applied = k := by
  obtain ⟨hbefore, event, hevent, -⟩ := hfirst
  obtain ⟨hk, -⟩ := List.getElem?_eq_some_iff.mp hevent
  rw [(counts_of_send_all h name 0 i (es.take k)).2.2 hbefore, List.length_take]
  omega

/-- The first event that fails ends a run where the events before it led, whatever comes after
it. -/
theorem FirstFailure.send_all {k : Nat} (hfirst : FirstFailure h name i es k error) :
    (sendAll h name 0 i es).failure = some error ∧
      (sendAll h name 0 i es).interpreter = (sendAll h name 0 i (es.take k)).interpreter ∧
      sent h name i es = es.take (k + 1) := by
  have happlied := hfirst.applied
  obtain ⟨hbefore, event, hevent, hfails⟩ := hfirst
  obtain ⟨hk, hget⟩ := List.getElem?_eq_some_iff.mp hevent
  generalize hdone : sendAll h name 0 i (es.take k) = done at happlied hbefore hfails ⊢
  have hsend : done.interpreter.send h event = (done.interpreter, .error error) :=
    Prod.ext (Interpreter.eq_of_send_error hfails) hfails
  have hwhole : sendAll h name 0 i es = done.followedBy
      ⟨done.interpreter, [], 0, [failed name (0 + (es.take k).length) event], some error⟩ := by
    conv_lhs => rw [← List.take_append_drop k es, List.drop_eq_getElem_cons hk, hget]
    rw [send_all_append, hdone, Trace.andThen, hbefore, send_all_cons_error hsend]
  have hattempts : (sendAll h name 0 i es).attempts = k + 1 := by
    rw [hwhole, Trace.attempts, Trace.followedBy, happlied]
    rfl
  rw [sent_eq_take, hattempts, hwhole]
  exact ⟨rfl, rfl, rfl⟩

/-- A run that fails has a first event that fails. -/
theorem exists_first_failure (hfailure : (sendAll h name 0 i es).failure = some error) :
    ∃ k, FirstFailure h name i es k error := by
  -- The induction goes by the number of events before those that are left.
  suffices hleft : ∀ done : List Value, (sendAll h name 0 i done).failure = none →
      (sendAll h name 0 i (done ++ es)).failure = some error →
      ∃ k, FirstFailure h name i (done ++ es) k error from hleft [] rfl hfailure
  clear hfailure
  induction es with
  | nil =>
      intro done hdone hfailure
      rw [List.append_nil, hdone] at hfailure
      cases hfailure
  | cons event es ih =>
      intro done hdone hfailure
      cases hanswer : ((sendAll h name 0 i done).interpreter.send h event).2 with
      | error error' =>
          have hfirst : FirstFailure h name i (done ++ event :: es) done.length error' := by
            refine ⟨?_, event, ?_, ?_⟩
            · rwa [List.take_left]
            · simp
            · rwa [List.take_left]
          rw [hfirst.send_all.1] at hfailure
          obtain rfl := Option.some.inj hfailure
          exact ⟨_, hfirst⟩
      | ok outputs =>
          have hnext : (sendAll h name 0 i (done ++ [event])).failure = none := by
            have hsend : (sendAll h name 0 i done).interpreter.send h event =
                (((sendAll h name 0 i done).interpreter.send h event).1, .ok outputs) :=
              Prod.ext rfl hanswer
            rw [send_all_append, Trace.andThen, hdone, send_all_cons_ok hsend]
            rfl
          rw [List.append_cons] at hfailure ⊢
          exact ih _ hnext hfailure

/-! ## Runs -/

/-- The initial event, if any, comes before all others. -/
theorem events_of_append (start : Bool) (es ds : List Value) :
    eventsOf start (es ++ ds) = eventsOf start es ++ ds := by
  cases start <;> rfl

/-- A run of a list sends its items. -/
theorem run_list (m : Mark) (es : List Value) (start : Bool) (name : Option String) :
    run h i (.list m es) start name = sendAll h (Log.runName name) 0 i (eventsOf start es) := rfl

/-- A run of two series is made by a run of the first and a run of the second where the first ended:
it succeeds when both do, and then leaves behind what both do. A run that succeeds has one output
and one version for each event, the initial one included, which a started run sends first. A run
that fails has a first event that fails; its error is that of the run, which stays where the events
before it led, and no event after it is sent. -/
theorem run_in_parts (h : Host) (i : Interpreter) (start : Bool) (name : Option String) :
    (∀ (m m₁ m₂ : Mark) (es₁ es₂ : List Value) (name₁ name₂ : Option String),
      let whole := run h i (.list m (es₁ ++ es₂)) start name
      let first := run h i (.list m₁ es₁) start name₁
      let second := run h first.interpreter (.list m₂ es₂) false name₂
      (whole.failure = none ↔ first.failure = none ∧ second.failure = none) ∧
      (whole.failure = none → whole.outputs = first.outputs ++ second.outputs ∧
        whole.applied = first.applied + second.applied ∧
        whole.interpreter = second.interpreter)) ∧
    (∀ (m : Mark) (es : List Value), let whole := run h i (.list m es) start name
      whole.failure = none → whole.outputs.length = (eventsOf start es).length ∧
        whole.applied = (eventsOf start es).length ∧
        whole.interpreter.snapshot.version = i.snapshot.version + whole.applied) ∧
    (∀ (m n : Mark) (es : List Value),
      run h i (.list m es) true name = run h i (.list n (Event.init :: es)) false name) ∧
    ∀ (m : Mark) (es : List Value), let whole := run h i (.list m es) start name
      let events := eventsOf start es
      (∀ error, whole.failure = some error ↔
        ∃ k, FirstFailure h (Log.runName name) i events k error) ∧
      ∀ (k : Nat) (error : Error), FirstFailure h (Log.runName name) i events k error →
        ∀ (n : Mark) (name' : Option String),
          let before := run h i (.list n (events.take k)) false name'
          before.failure = none ∧ before.applied = k ∧ whole.failure = some error ∧
          whole.interpreter = before.interpreter ∧
          sent h (Log.runName name) i events = events.take (k + 1) := by
  refine ⟨fun m m₁ m₂ es₁ es₂ name₁ name₂ => ?_, fun m es hwhole => ?_, fun m n es => rfl,
    fun m es => ⟨fun error => ⟨exists_first_failure, fun ⟨k, hfirst⟩ => hfirst.send_all.1⟩,
      fun k error hfirst n name' => ?_⟩⟩
  · simp only [run_list, events_of_append, send_all_append]
    obtain ⟨hinterpreter, houtputs, happlied, hfailure⟩ := unlogged_eq_iff.mp
      (send_all_unlogged h i (eventsOf start es₁) (Log.runName name₁) (Log.runName name) 0 0)
    rw [hinterpreter, houtputs, happlied, hfailure]
    generalize sendAll h (Log.runName name) 0 i (eventsOf start es₁) = first
    obtain ⟨hinterpreter, houtputs, happlied, hfailure⟩ := unlogged_eq_iff.mp
      (send_all_unlogged h first.interpreter es₂ (Log.runName name₂) (Log.runName name) 0
        (0 + (eventsOf start es₁).length))
    rw [show eventsOf false es₂ = es₂ from rfl, hinterpreter, houtputs, happlied, hfailure]
    cases hfirst : first.failure with
    | some error => simp [Trace.andThen, hfirst]
    | none => simp [Trace.andThen, Trace.followedBy, hfirst]
  · obtain ⟨houtputs, hversion, hall⟩ :=
      counts_of_send_all h (Log.runName name) 0 i (eventsOf start es)
    exact ⟨houtputs.trans (hall hwhole), hall hwhole, hversion⟩
  · obtain ⟨hinterpreter, -, happlied, hfailure⟩ := unlogged_eq_iff.mp
      (send_all_unlogged h i ((eventsOf start es).take k) (Log.runName name') (Log.runName name)
        0 0)
    obtain ⟨herror, hstays, hsent⟩ := hfirst.send_all
    simp only [run_list, show eventsOf false ((eventsOf start es).take k) =
      (eventsOf start es).take k from rfl]
    rw [hinterpreter, happlied, hfailure]
    exact ⟨hfirst.before, hfirst.applied, herror, hstays, hsent⟩

/-- A traffic light that has no factory for the action that switches from red to green. -/
def stuckLight : Config :=
  { Examples.TrafficLight.config with
    factories := .table
      [("incGreenTimer", Examples.Code.incGreenTimer.handle "inc_green_timer"),
        ("incYellowTimer", Examples.Code.incYellowTimer.handle "inc_yellow_timer")] }

/-- Five ticks of a timer. -/
def ticks : List Value :=
  List.replicate 5 (.text "TIMER")

/-- After its start the stuck light takes in three ticks; the fourth fails and is the last one
sent. -/
theorem stuck_light_run : ∃ i error,
    Interpreter.ofMachine Examples.host Examples.TrafficLight.machine stuckLight .null = .ok i ∧
    error.kind = "UnresolvedActionFactoryError" ∧
    FirstFailure Examples.host "N/A" i (eventsOf true ticks) 4 error ∧
    (run Examples.host i (.newList ticks) true none).failure = some error ∧
    (run Examples.host i (.newList ticks) true none).interpreter.snapshot.version = 4 ∧
    sent Examples.host "N/A" i (eventsOf true ticks) = Event.init :: ticks.take 4 := by
  obtain ⟨i, hi, hcheck⟩ := exists_of_any
    (x := Interpreter.ofMachine Examples.host Examples.TrafficLight.machine stuckLight .null)
    (P := fun i =>
      let before := sendAll Examples.host "N/A" 0 i ((eventsOf true ticks).take 4)
      before.failure.isNone && before.interpreter.snapshot.version == 4 &&
        match (before.interpreter.send Examples.host (.text "TIMER")).2 with
        | .ok _ => false
        | .error error => error.kind == "UnresolvedActionFactoryError")
    (by decide +kernel)
  simp only [Bool.and_eq_true, Option.isNone_iff_eq_none, beq_iff_eq] at hcheck
  obtain ⟨⟨hbefore, hversion⟩, hfails⟩ := hcheck
  split at hfails
  · cases hfails
  · next error herror =>
      have hfirst : FirstFailure Examples.host "N/A" i (eventsOf true ticks) 4 error :=
        ⟨hbefore, .text "TIMER", rfl, herror⟩
      obtain ⟨-, -, -, hruns⟩ := run_in_parts Examples.host i true none
      obtain ⟨-, -, hfailure, hstays, hsent⟩ := (hruns none ticks).2 4 error hfirst none none
      refine ⟨i, error, hi, by simpa using hfails, hfirst, hfailure, ?_, hsent⟩
      exact hstays ▸ hversion

end Replay

end Statechart
