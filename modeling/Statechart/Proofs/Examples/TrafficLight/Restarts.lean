import Statechart.Proofs.Examples.TrafficLight.Steps

/-!
# The traffic light under restarts

A start makes the light green and keeps its history, so the history no longer tells where in the
cycle the light is. What stays true from any list as its history is that a red light has been yellow
twice, so there are two lights to drop. Read `red_after_two_yellows` first. No event fails, unless
the history cannot be copied: then `follows_uncopiable` says that the light stays green and that
timers fail.
-/

namespace Statechart

namespace Examples.TrafficLight

open Script

variable {m : Mark} {xs : List Value} {i : Interpreter} {event : Value} {events : List Value}

/-! ## Histories that cannot be copied -/

/-- What an event does to a light whose history cannot be copied: timers fail. -/
def refusal (event : Value) : Except Error Value :=
  if Event.hasType "TIMER" event then .error .wrongType else .ok .null

/-- The action that switches the green light on fails at the update, for want of a draft. -/
theorem fails_green (hxs : Value.allCopiable xs = false) (start : Identity) (event : Value) :
    ∃ calls, Fails Examples.host config event start ⟨.list m xs, .null⟩ (.text "incGreenTimer")
      .update calls .wrongType := by
  have hfactory : (Descriptor.named (.text "incGreenTimer") (.newTable [])).factory
      config.factories = .ok (Code.incGreenTimer.handle "inc_green_timer") := by
    with_unfolding_all rfl
  obtain ⟨j, captured, m', ys, hcall⟩ := apply_observing
    (rfl : Code.incGreenTimer.program = observing .appendGreen) "inc_green_timer" start
    (.list m xs) event (.named (.text "incGreenTimer") (.newTable []))
  have hnone : Output.accumulated .null = .ok [] := rfl
  obtain ⟨outputs, -, hconcat, -⟩ := concat_list hnone m' ys
  exact ⟨_, .update rfl hfactory hcall rfl hconcat
    (copy_on_write_of_not_copiable _ (some j) none (Value.copy_list_eq_none m hxs _))⟩

/-- A light whose history cannot be copied stays green and keeps it, and only timers fail. -/
theorem follows_uncopiable (hxs : Value.allCopiable xs = false) :
    Interpreter.Follows Examples.host (fun (_ : Unit) => ShowsColour .green (.list m xs))
      Event.Typed (fun _ _ => ()) fun _ event answer => answer = refusal event := by
  intro _ i event hi hevent
  show ShowsColour .green (.list m xs) _ ∧ _ = refusal event
  obtain ⟨type, -, htype, -⟩ := hevent.eq_ok Examples.host default
  cases hinit : Event.isInit event with
  | true =>
      have hrefusal : refusal event = .ok .null := by
        rw [Event.eq_init hinit]
        rfl
      rw [hrefusal]
      exact (hi.send_start hinit).symm
  | false =>
      by_cases htimer : type = "TIMER"
      · subst htimer
        have hrefusal : refusal event = .error .wrongType := by
          simp [refusal, Event.has_type_eq htype]
        obtain ⟨_, hfails⟩ := fails_green (m := m) hxs ⟨i.snapshot.version + 1, 1, 0⟩ event
        have hasked := hi.asked_timer (l := ⟨.green, _⟩) rfl hinit hevent htype
        rw [← hi.state] at hfails
        rw [hi.interprets.send_eq_of_breaks hasked rfl (.first hfails _), hrefusal]
        exact ⟨hi, rfl⟩
      · have hrefusal : refusal event = .ok .null := by
          simp [refusal, Event.has_type_eq htype, htimer]
        rw [hrefusal]
        exact (hi.send_other hinit hevent htype htimer).symm

/-! ## Any histories -/

/-- Only red is shown as red. -/
theorem Colour.eq_red {c : Colour} (h : some (Value.text c.name) = some (.text "red")) :
    c = .red := by
  cases c with
  | red => rfl
  | green => exact absurd h (by simp [Colour.name])
  | yellow => exact absurd h (by simp [Colour.name])

/-- A light that has started with a history that can be copied: if it is red, it has been yellow
twice, and no event has failed. -/
theorem red_of_copiable (hxs : Value.allCopiable xs = true)
    (hi : ShowsColour .green (.list m xs) i) (hevents : ∀ event ∈ events, Event.Typed event) :
    (∃ m' ys, (i.feed Examples.host events).1.snapshot.state = .list m' ys ∧
      ((i.feed Examples.host events).1.snapshot.control.attribute? "value" = some (.text "red") →
        2 ≤ (ys.map Value.text?).count (some "yellow"))) ∧
      ∀ answer ∈ (i.feed Examples.host events).2, ∃ outputs, answer = .ok outputs := by
  -- What carries the run is that the lamp is ready, which needs no closed form of its history.
  have hready : (⟨.green, xs.map Value.text?⟩ : Lamp).Ready := nofun
  obtain ⟨⟨hlast, _, ⟨m', ys, rfl, -, htexts⟩, hshows⟩, hanswers⟩ :=
    follows_lamp.feed ⟨hready, _, ⟨m, xs, rfl, hxs, rfl⟩, hi⟩ hevents
  refine ⟨⟨m', ys, hshows.state, fun hred => ?_⟩, fun answer ha => ?_⟩
  · rw [hshows.value_eq] at hred
    rw [htexts]
    exact hlast (Colour.eq_red hred)
  · obtain ⟨-, -, hanswer⟩ := hanswers answer ha
    exact hanswer

/-- From any list as its history, and whatever texts and tables with a text as their type the light
is given, starts among them, it has been yellow twice when it is red. None of the events fails when
the history can be copied; when it cannot, the light stays green with it and the timers fail. -/
theorem red_after_two_yellows (m : Mark) (xs : List Value) {events : List Value}
    (hevents : ∀ event ∈ events, Event.Typed event) :
    ∃ e i, Examples.find? "traffic_light" = some e ∧ e.build Examples.host (.list m xs) = .ok i ∧
      (∃ m' ys, (i.feed Examples.host events).1.snapshot.state = .list m' ys ∧
        ((i.feed Examples.host events).1.snapshot.control.attribute? "value" =
            some (.text "red") → 2 ≤ (ys.map Value.text?).count (some "yellow"))) ∧
      (Value.allCopiable xs = true →
        ∀ answer ∈ (i.feed Examples.host events).2, ∃ outputs, answer = .ok outputs) ∧
      (Value.allCopiable xs = false →
        (i.feed Examples.host events).1.snapshot.state = .list m xs ∧
        (i.feed Examples.host events).1.snapshot.control.attribute? "value" =
          some (.text "green") ∧
        (i.feed Examples.host events).2 = events.map refusal) := by
  obtain ⟨e, i, hfind, hbuild, hi⟩ := exists_build (.list m xs)
  refine ⟨e, i, hfind, hbuild, ?_⟩
  change ShowsColour .green (.list m xs) i at hi
  cases hxs : Value.allCopiable xs with
  | true =>
      obtain ⟨hred, hanswers⟩ := red_of_copiable hxs hi hevents
      exact ⟨hred, fun _ => hanswers, nofun⟩
  | false =>
      have hlast := ((follows_uncopiable hxs).feed (s := ()) hi hevents).1
      have hanswers := (follows_uncopiable hxs).answers_eq (s := ()) hi hevents
      refine ⟨⟨m, xs, hlast.state, fun hred => ?_⟩, nofun, fun _ =>
        ⟨hlast.state, hlast.value_eq, hanswers⟩⟩
      rw [hlast.value_eq] at hred
      exact absurd (Colour.eq_red hred) nofun

/-- A timer, a start and two timers more. -/
def restarted : List Value :=
  [.text "TIMER", Event.init, .table [("type", .text "TIMER")], .text "TIMER"]

/-- A light that has been started again is red after two timers, and was yellow before that. -/
theorem restarted_light_is_red :
    (∀ event ∈ restarted, Event.Typed event) ∧
    ∃ e i m ys, Examples.find? "traffic_light" = some e ∧
      e.build Examples.host (.newList [.int 1]) = .ok i ∧
      (i.feed Examples.host restarted).1.snapshot.control.attribute? "value" =
        some (.text "red") ∧
      (i.feed Examples.host restarted).1.snapshot.state = .list m ys ∧
      2 ≤ (ys.map Value.text?).count (some "yellow") ∧
      ∀ answer ∈ (i.feed Examples.host restarted).2, ∃ outputs, answer = .ok outputs := by
  have hevents : ∀ event ∈ restarted, Event.Typed event := by
    simp only [restarted, List.forall_mem_cons]
    exact ⟨Event.typed_text _, Event.typed_text _, Event.typed_table _, Event.typed_text _,
      by simp⟩
  obtain ⟨e, i, hfind, hbuild, ⟨m, ys, hstate, hred⟩, hanswers, -⟩ :=
    red_after_two_yellows none [.int 1] hevents
  obtain ⟨e', i', hfind', hbuild', hi⟩ := exists_build (.newList [.int 1])
  obtain rfl : e = e' := Option.some.inj (hfind.symm.trans hfind')
  obtain rfl : i = i' := Except.ok.inj (hbuild.symm.trans hbuild')
  have hready : (⟨.green, [none]⟩ : Lamp).Ready := nofun
  obtain ⟨⟨-, _, -, hshows⟩, -⟩ :=
    follows_lamp.feed ⟨hready, _, ⟨none, [.int 1], rfl, rfl, rfl⟩, hi⟩ hevents
  have hlamp : (restarted.foldl Lamp.step ⟨.green, [none]⟩).colour = .red := by
    with_unfolding_all rfl
  have hvalue := hshows.value_eq
  rw [hlamp] at hvalue
  exact ⟨hevents, e, i, m, ys, hfind, hbuild, hvalue, hstate, hred hvalue, hanswers rfl⟩

/-- A light whose history holds a read-only view fails on a timer. -/
theorem view_history_fails : ∃ e i, Examples.find? "traffic_light" = some e ∧
    e.build Examples.host (.newList [.view []]) = .ok i ∧
    (∀ event ∈ [Value.text "TIMER"], Event.Typed event) ∧
    (i.feed Examples.host [.text "TIMER"]).2 = [.error .wrongType] := by
  have hevents : ∀ event ∈ [Value.text "TIMER"], Event.Typed event := by
    simp only [List.forall_mem_singleton]
    exact ⟨_, Or.inl rfl⟩
  obtain ⟨e, i, hfind, hbuild, hi⟩ := exists_build (.newList [.view []])
  exact ⟨e, i, hfind, hbuild, hevents,
    (follows_uncopiable rfl).answers_eq (s := ()) hi hevents⟩

end Examples.TrafficLight

end Statechart
