import Statechart.Proofs.Examples.TrafficLight.Steps

/-!
# Runs of the traffic light

From its start the light follows a cycle of four timers, and each cycle leaves one green more in the
history: `Light.after` is the light after a number of timers. Read `Light.timer_after` first, the
step; by it `stands_feed` follows a light of the cycle along the events, and `light_after_events`
says what every run from the start shows.
-/

namespace Statechart

namespace Examples.TrafficLight

open Script

/-- A light: its colour, and the history of the lights that were switched on. -/
structure Light where
  colour : Colour
  history : List String

namespace Light

/-- A light as a lamp whose history holds texts only. -/
def lamp (l : Light) : Lamp :=
  ⟨l.colour, l.history.map some⟩

/-- The lights of a cycle that starts with a history of so many greens. -/
def inCycle (q : Nat) : (r : Nat) → Light
  | 0 => ⟨.green, List.replicate q "green"⟩
  | 1 => ⟨.yellow, List.replicate (q + 1) "green" ++ ["yellow"]⟩
  | 2 => ⟨.yellow, List.replicate (q + 1) "green" ++ ["yellow", "yellow"]⟩
  | _ => ⟨.red, List.replicate (q + 1) "green" ++ ["yellow", "yellow"]⟩

/-- The light after a number of timers from an empty history. -/
def after (k : Nat) : Light :=
  inCycle (k / 4) (k % 4)

/-- A timer leads to the next light of the cycle. -/
theorem timer_in_cycle {q r : Nat} (hr : r < 3) :
    (inCycle q r).lamp.timer = (inCycle q (r + 1)).lamp := by
  have hgreens : List.count (some "yellow") (List.replicate (q + 1) (some "green")) = 0 := by
    simp [List.count_replicate]
  match r with
  | 0 => simp [inCycle, lamp, Lamp.timer, List.replicate_succ']
  | 1 => simp [inCycle, lamp, Lamp.timer, Lamp.yellows, hgreens]
  | 2 => simp [inCycle, lamp, Lamp.timer, Lamp.yellows, hgreens]

/-- From the last light of a cycle a timer leads to the next cycle. -/
theorem timer_last (q : Nat) : (inCycle q 3).lamp.timer = (inCycle (q + 1) 0).lamp := by
  simp [inCycle, lamp, Lamp.timer]

/-- The light after one timer more. -/
theorem timer_after (k : Nat) : (after k).lamp.timer = (after (k + 1)).lamp := by
  by_cases hr : k % 4 < 3
  · have hdiv : (k + 1) / 4 = k / 4 := by omega
    have hmod : (k + 1) % 4 = k % 4 + 1 := by omega
    rw [after, timer_in_cycle hr, after, hdiv, hmod]
  · have hlast : k % 4 = 3 := by omega
    have hdiv : (k + 1) / 4 = k / 4 + 1 := by omega
    have hmod : (k + 1) % 4 = 0 := by omega
    rw [after, hlast, timer_last, after, hdiv, hmod]

/-- A light of the cycle that is red has been yellow twice. -/
theorem ready_after : (k : Nat) → (after k).lamp.Ready
  | 0 => nofun
  | k + 1 => timer_after k ▸ Lamp.ready_timer _

/-- The light of the cycle after an event other than the initial one. -/
theorem step_after {event : Value} (hinit : Event.isInit event = false) (k : Nat) :
    (after k).lamp.step event =
      (after (k + if Event.hasType "TIMER" event then 1 else 0)).lamp := by
  cases htimer : Event.hasType "TIMER" event with
  | false => simp [Lamp.step, hinit, htimer]
  | true => simp [Lamp.step, hinit, htimer, timer_after]

/-- Events other than the initial one lead to the light that is as many timers further. -/
theorem steps_after {events : List Value} (hinit : ∀ event ∈ events, Event.isInit event = false)
    (k : Nat) : events.foldl Lamp.step (after k).lamp =
      (after (k + events.countP (Event.hasType "TIMER"))).lamp := by
  induction events generalizing k with
  | nil => rfl
  | cons event events ih =>
      obtain ⟨hevent, hevents⟩ := List.forall_mem_cons.mp hinit
      have hcount : k + (event :: events).countP (Event.hasType "TIMER") =
          k + (if Event.hasType "TIMER" event then 1 else 0) +
            events.countP (Event.hasType "TIMER") := by
        rw [List.countP_cons]
        omega
      rw [List.foldl_cons, step_after hevent, ih hevents, hcount]

end Light

variable {l : Light} {i : Interpreter}

/-- An interpreter of the machine stands at a light. -/
structure Stands (l : Light) (i : Interpreter) : Prop where
  engine : ∀ start, i.engine.transition start = built.transition Examples.host start
  config : i.config = config
  control : ∃ actions changed, i.snapshot.control = l.colour.control actions changed
  state : ∃ m, i.snapshot.state = .list m (l.history.map .text)

/-- A list of texts is a history. -/
theorem is_history_texts (m : Mark) (history : List String) :
    IsHistory (history.map some) (.list m (history.map .text)) := by
  refine ⟨m, _, rfl, ?_, ?_⟩
  · simp [Value.all_copiable_eq, Value.copiable]
  · simp [Function.comp_def, Value.text?]

/-- A history all of whose members have a text is a list of texts. -/
theorem eq_texts {history : List String} {xs : List Value}
    (h : xs.map Value.text? = history.map some) : xs = history.map .text := by
  induction history generalizing xs with
  | nil => exact List.map_eq_nil_iff.mp h
  | cons s history ih =>
      obtain ⟨x, ys, rfl, hx, hys⟩ := List.map_eq_cons_iff.mp h
      rw [List.map_cons, Value.eq_text_of_text hx, ih hys]

/-- To stand at a light is to show it. -/
theorem stands_iff : Stands l i ↔ l.lamp.ShownBy i := by
  constructor
  · rintro ⟨hengine, hconfig, hcontrol, m, hstate⟩
    exact ⟨_, is_history_texts m l.history, ⟨hengine, hconfig⟩, hcontrol, hstate⟩
  · rintro ⟨_, ⟨m, xs, rfl, -, hxs⟩, ⟨hengine, hconfig⟩, hcontrol, hstate⟩
    exact ⟨hengine, hconfig, hcontrol, m, eq_texts hxs ▸ hstate⟩

/-- Events lead from a light of the cycle to the one that is as many timers further, and none of
them fails. -/
theorem stands_feed {k : Nat} {i : Interpreter} (hi : Stands (Light.after k) i)
    {events : List Value}
    (hevents : ∀ event ∈ events, Event.Typed event ∧ Event.isInit event = false) :
    Stands (Light.after (k + events.countP (Event.hasType "TIMER")))
        (i.feed Examples.host events).1 ∧
      ∀ answer ∈ (i.feed Examples.host events).2, ∃ outputs, answer = .ok outputs := by
  obtain ⟨⟨-, hlast⟩, hanswers⟩ := follows_lamp.feed ⟨Light.ready_after k, stands_iff.mp hi⟩
    fun event he => (hevents event he).1
  rw [Light.steps_after fun event he => (hevents event he).2] at hlast
  refine ⟨stands_iff.mpr hlast, fun answer ha => ?_⟩
  obtain ⟨-, -, hanswer⟩ := hanswers answer ha
  exact hanswer

/-- The interpreter of the example stands at a green light without a history. -/
theorem stands_start : ∃ e i, Examples.find? "traffic_light" = some e ∧
    e.build Examples.host .null = .ok i ∧ Stands (Light.after 0) i := by
  obtain ⟨e, i, hfind, hbuild, hinterprets, hcontrol, hstate⟩ := exists_build .null
  have hempty : Interpreter.initialContext machine .null = emptyHistory := by
    with_unfolding_all rfl
  exact ⟨e, i, hfind, hbuild, hinterprets.engine, hinterprets.config, hcontrol, none,
    hstate.trans hempty⟩

/-- Whatever texts and tables with a text as their type the traffic light is given from its start,
the initial event apart, none of them fails, and its colour and its history are those after as many
timers as there are among them. -/
theorem light_after_events {events : List Value}
    (hevents : ∀ event ∈ events, Event.Typed event ∧ Event.isInit event = false) :
    ∃ e i, Examples.find? "traffic_light" = some e ∧ e.build Examples.host .null = .ok i ∧
      (∀ answer ∈ (i.feed Examples.host events).2, ∃ outputs, answer = .ok outputs) ∧
      (i.feed Examples.host events).1.snapshot.control.attribute? "value" =
        some (.text (Light.after (events.countP (Event.hasType "TIMER"))).colour.name) ∧
      ∃ m, (i.feed Examples.host events).1.snapshot.state =
        .list m ((Light.after (events.countP (Event.hasType "TIMER"))).history.map .text) := by
  obtain ⟨e, i, hfind, hbuild, hstart⟩ := stands_start
  obtain ⟨⟨-, -, ⟨actions, changed, hcontrol⟩, hstate⟩, hanswers⟩ := stands_feed hstart hevents
  rw [Nat.zero_add] at hcontrol hstate
  refine ⟨e, i, hfind, hbuild, hanswers, ?_, hstate⟩
  rw [hcontrol]
  rfl

/-- Five timers, one of them a table, and another event after the second. -/
def fiveTimers : List Value :=
  [.text "TIMER", .table [("type", .text "TIMER")], .text "WALK", .text "TIMER", .text "TIMER",
    .text "TIMER"]

/-- After five timers the light is yellow again, with two greens and a yellow in its history. -/
theorem light_after_five_timers :
    (∀ event ∈ fiveTimers, Event.Typed event ∧ Event.isInit event = false) ∧
    ∃ e i m, Examples.find? "traffic_light" = some e ∧ e.build Examples.host .null = .ok i ∧
      (i.feed Examples.host fiveTimers).1.snapshot.control.attribute? "value" =
        some (.text "yellow") ∧
      (i.feed Examples.host fiveTimers).1.snapshot.state =
        .list m [.text "green", .text "green", .text "yellow"] := by
  have hevents : ∀ event ∈ fiveTimers, Event.Typed event ∧ Event.isInit event = false := by
    have htext : ∀ s, Event.Typed (.text s) := fun s => ⟨s, Or.inl rfl⟩
    have htable : Event.Typed (.table [("type", .text "TIMER")]) :=
      ⟨"TIMER", Or.inr ⟨_, rfl, by with_unfolding_all rfl⟩⟩
    simp only [fiveTimers, List.forall_mem_cons]
    exact ⟨⟨htext _, rfl⟩, ⟨htable, rfl⟩, ⟨htext _, rfl⟩, ⟨htext _, rfl⟩, ⟨htext _, rfl⟩,
      ⟨htext _, rfl⟩, by simp⟩
  have hcount : fiveTimers.countP (Event.hasType "TIMER") = 5 := by decide +kernel
  obtain ⟨e, i, hfind, hbuild, -, hvalue, m, hstate⟩ := light_after_events hevents
  rw [hcount] at hvalue hstate
  exact ⟨hevents, e, i, m, hfind, hbuild, hvalue, hstate⟩

end Examples.TrafficLight

end Statechart
