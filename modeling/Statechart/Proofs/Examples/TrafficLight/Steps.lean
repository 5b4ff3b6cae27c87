import Statechart.Examples.Named
import Statechart.Proofs.Interpreter.Simulation
import Statechart.Proofs.Legality
import Statechart.Proofs.Script
import Statechart.Proofs.Value.Copy

/-!
# Steps of the traffic light

`Lamp` is what an interpreter of the traffic light shows: a colour and a history, of which only the
texts count. Read `follows_lamp` first: an event does to the interpreter what `Lamp.step` does to
the lamp, and it does not fail. It needs that a red lamp has been yellow twice, which
`Lamp.ready_step` says of every step, and that the history can be copied.
-/

namespace Statechart

namespace Examples.TrafficLight

open Script

/-- The colours, each a state of the machine. -/
inductive Colour where
  | green
  | yellow
  | red

/-- The key of a colour. -/
def Colour.name : Colour → String
  | .green => "green"
  | .yellow => "yellow"
  | .red => "red"

/-! ## Lamps -/

/-- A lamp: its colour, and the texts of its history, in which other things may stand as well. -/
structure Lamp where
  colour : Colour
  texts : List (Option String)

namespace Lamp

/-- How often a lamp has been yellow. -/
def yellows (l : Lamp) : Nat :=
  l.texts.count (some "yellow")

/-- The lamp after a timer. -/
def timer (l : Lamp) : Lamp :=
  match l.colour with
  | .green => ⟨.yellow, l.texts ++ [some "green", some "yellow"]⟩
  | .yellow =>
      if 1 < l.yellows then ⟨.red, l.texts⟩ else ⟨.yellow, l.texts ++ [some "yellow"]⟩
  | .red => ⟨.green, l.texts.dropLast.dropLast⟩

/-- The actions that come with a timer. -/
def actions (l : Lamp) : List String :=
  match l.colour with
  | .green => ["incGreenTimer", "incYellowTimer"]
  | .yellow => if 1 < l.yellows then [] else ["incYellowTimer"]
  | .red => ["logGreen"]

/-- The lamp after an event: a start makes it green and keeps its history. -/
def step (l : Lamp) (event : Value) : Lamp :=
  if Event.isInit event then ⟨.green, l.texts⟩
  else if Event.hasType "TIMER" event then l.timer
  else l

/-- A lamp that is red has been yellow twice. -/
def Ready (l : Lamp) : Prop :=
  l.colour = .red → 2 ≤ l.yellows

/-- A timer makes a lamp red only when it has been yellow twice. -/
theorem ready_timer (l : Lamp) : l.timer.Ready := by
  rcases l with ⟨colour, texts⟩
  cases colour with
  | green => nofun
  | yellow =>
      by_cases hyellows : 1 < (⟨.yellow, texts⟩ : Lamp).yellows
      · rw [timer, if_pos hyellows]
        exact fun _ => hyellows
      · rw [timer, if_neg hyellows]
        nofun
  | red => nofun

/-- Whatever an event does to it, a lamp that is red has been yellow twice. -/
theorem ready_step {l : Lamp} (hready : l.Ready) (event : Value) : (l.step event).Ready := by
  rw [step]
  split
  · nofun
  · split
    · exact l.ready_timer
    · exact hready

end Lamp

/-! ## The machine -/

/-- The transition that leaves green. -/
def toYellow : Transition :=
  ⟨["green"], [["yellow"]], none, [.text "incGreenTimer"], false⟩

/-- The transition that leaves yellow when it has been switched on twice. -/
def toRed : Transition :=
  ⟨["yellow"], [["red"]], some Code.yellowTwice.guard, [], false⟩

/-- The transition that switches yellow on again. -/
def again : Transition :=
  ⟨["yellow"], [["yellow"]], some Code.yellowOnce.guard, [], false⟩

/-- The transition that leaves red. -/
def toGreen : Transition :=
  ⟨["red"], [["green"]], none, [.text "logGreen"], false⟩

/-- The candidates of a colour on a timer. -/
def candidates : Colour → List Transition
  | .green => [toYellow]
  | .yellow => [toRed, again]
  | .red => [toGreen]

/-- What a colour declares. -/
def handlers (c : Colour) : Handlers :=
  [(.text "TIMER", candidates c)]

/-- The machine that the configuration defines. -/
def built : Machine where
  id := .text "light"
  root := .node ⟨.text "light", .compound, .text "green", [], [], []⟩
    [("green", .node ⟨.text "light.green", .atomic, .null, [], [], handlers .green⟩ []),
      ("yellow", .node ⟨.text "light.yellow", .atomic, .null, [.text "incYellowTimer"], [],
        handlers .yellow⟩ []),
      ("red", .node ⟨.text "light.red", .atomic, .null, [], [], handlers .red⟩ [])]

theorem define_machine : Machine.define machine = .ok built := by
  with_unfolding_all rfl

/-- The control state in which a colour shows. -/
def Colour.control (c : Colour) (actions : List String) (changed : Bool) : Value :=
  .state (.text c.name) (.tuple [.text c.name]) (.tuple (actions.map .text)) changed

variable {l : Lamp} {c : Colour} {actions : List String} {changed : Bool} {h : Host}
  {start : Identity} {event context object : Value} {m : Mark} {xs : List Value}
  {ts : List (Option String)}

/-- The transitions that are selected for an event while a colour shows. -/
theorem selected_eq {type : String} (htype : Event.typeOf event = .ok type)
    (hobject : Event.object h start event = .ok object) :
    built.selected h start (c.control actions changed) event context =
      (Tree.firstEnabled (Machine.enabled h start context object)
        (handlersFor (handlers c) type)).map fun t => ([[], [c.name]], t.toList) := by
  have hactive : built.activeNodes (c.control actions changed) = .ok [[], [c.name]] := by
    cases c <;> with_unfolding_all rfl
  have hknows : built.root.knows [[], [c.name]] = true := by cases c <;> rfl
  have hleaves : built.root.leaves [[], [c.name]] = [[c.name]] := by cases c <;> rfl
  have hcandidates : built.root.candidatesFrom type [c.name] = handlersFor (handlers c) type := by
    cases c <;> exact List.append_nil _
  rw [Machine.selected_of_leaf hactive hknows hleaves htype hobject, hcandidates]

/-- Without a candidate for its type an event leaves the colour. -/
theorem transition_of_other {type : String} (hinit : Event.isInit event = false)
    (htype : Event.typeOf event = .ok type) (hobject : Event.object h start event = .ok object)
    (hother : type ≠ "TIMER") :
    built.transition h start (c.control actions changed) event context =
      .ok (c.control [] false) := by
  have hnone : handlersFor (handlers c) type = [] := by
    rw [handlers, Tree.handlers_for_singleton, if_neg hother]
  rw [Machine.transition_eq hinit, selected_eq htype hobject, hnone]
  cases c <;> rfl

/-- On a timer the first enabled candidate of the colour is taken. -/
theorem transition_of_timer {t : Transition} {next : Colour} {raws : List String}
    (hinit : Event.isInit event = false)
    (htype : Event.typeOf event = .ok "TIMER") (hobject : Event.object h start event = .ok object)
    (ht : Tree.firstEnabled (Machine.enabled h start context object) (candidates c) = .ok (some t))
    (hnext : built.control (built.activeAfter [[], [c.name]] [t])
      (built.actionsOf [[], [c.name]] [t]) true = .ok (next.control raws true)) :
    built.transition h start (c.control actions changed) event context =
      .ok (next.control raws true) := by
  have hcandidates : handlersFor (handlers c) "TIMER" = candidates c := rfl
  rw [Machine.transition_eq hinit, selected_eq htype hobject, hcandidates, ht]
  exact hnext

/-! ## Guards -/

/-- The yellows of a history are counted. -/
theorem eval_yellows {s : Scope} {rest : List Value} (hargs : s.args = .list m xs :: rest) :
    yellows.eval s = .ok (.int ((xs.map Value.text?).count (some "yellow"))) := by
  simp only [yellows, Examples.state, Examples.text, Expr.eval, hargs, require,
    List.getElem?_cons_zero, ok_bind, Value.count_text]

/-- A guard of the yellow light compares the yellows of the history. -/
theorem apply_guard {code : Code} {x : Expr} {b : Bool} (hcode : code.program = computing x)
    (hx : ∀ s m ys rest, s.args = Value.list m ys :: rest →
      ys.map Value.text? = xs.map Value.text? → x.eval s = .ok (.bool b)) :
    Examples.host.apply start code.guard [.list m xs, object] = .ok (.bool b) := by
  obtain ⟨m', ys, hmark, hys⟩ := Value.exists_mark_list m xs start
  have hprogram : programs[code.index]? = some ⟨false, [], some x⟩ := by
    rw [programs_index, hcode, computing]
  exact call_computing (v := .bool b) hprogram rfl
    (hx _ m' ys _ (congrArg (· :: _) hmark) hys)

/-- Whether the yellow light may turn red. -/
theorem enabled_to_red (m : Mark) (xs : List Value) :
    Machine.enabled Examples.host start (.list m xs) object toRed =
      .ok (decide (1 < (xs.map Value.text?).count (some "yellow"))) := by
  have happly : Examples.host.apply start Code.yellowTwice.guard [.list m xs, object] =
      .ok (.bool (decide (1 < ((xs.map Value.text?).count (some "yellow") : Int)))) := by
    refine apply_guard rfl fun s m ys rest hargs hys => ?_
    simp only [Expr.eval, eval_yellows hargs, hys, ok_bind, Value.less_int, pure_eq_ok]
  simp [Machine.enabled, toRed, happly, Value.truthy]

/-- Whether the yellow light may stay yellow. -/
theorem enabled_again (m : Mark) (xs : List Value) :
    Machine.enabled Examples.host start (.list m xs) object again =
      .ok (decide ((xs.map Value.text?).count (some "yellow") ≤ 1)) := by
  have happly : Examples.host.apply start Code.yellowOnce.guard [.list m xs, object] =
      .ok (.bool (decide (((xs.map Value.text?).count (some "yellow") : Int) ≤ 1))) := by
    refine apply_guard rfl fun s m ys rest hargs hys => ?_
    simp only [Expr.eval, eval_yellows hargs, hys, ok_bind, Value.less_or_equal_int, pure_eq_ok]
  simp [Machine.enabled, again, happly, Value.truthy]

/-- On a timer the machine leads to the next colour, with the actions of the lamp. -/
theorem transition_timer (hinit : Event.isInit event = false)
    (htype : Event.typeOf event = .ok "TIMER")
    (hobject : Event.object Examples.host start event = .ok object)
    (hxs : xs.map Value.text? = l.texts) :
    built.transition Examples.host start (l.colour.control actions changed) event (.list m xs) =
      .ok (l.timer.colour.control l.actions true) := by
  -- Only the candidates of the yellow light have guards, which read the history.
  rcases l with ⟨colour, texts⟩
  cases colour with
  | green =>
      have ht : Tree.firstEnabled (Machine.enabled Examples.host start (.list m xs) object)
          (candidates .green) = .ok (some toYellow) := rfl
      exact transition_of_timer hinit htype hobject ht rfl
  | yellow =>
      obtain rfl : xs.map Value.text? = texts := hxs
      by_cases hyellows : 1 < (xs.map Value.text?).count (some "yellow")
      · have ht : Tree.firstEnabled (Machine.enabled Examples.host start (.list m xs) object)
            (candidates .yellow) = .ok (some toRed) := by
          simp [candidates, Tree.firstEnabled, enabled_to_red, hyellows]
        simp only [Lamp.timer, Lamp.actions, Lamp.yellows, hyellows, if_true]
        exact transition_of_timer hinit htype hobject ht rfl
      · have ht : Tree.firstEnabled (Machine.enabled Examples.host start (.list m xs) object)
            (candidates .yellow) = .ok (some again) := by
          simp [candidates, Tree.firstEnabled, enabled_to_red, enabled_again, hyellows,
            Nat.le_of_not_lt hyellows]
        simp only [Lamp.timer, Lamp.actions, Lamp.yellows, hyellows, if_false]
        exact transition_of_timer hinit htype hobject ht rfl
  | red =>
      have ht : Tree.firstEnabled (Machine.enabled Examples.host start (.list m xs) object)
          (candidates .red) = .ok (some toGreen) := rfl
      exact transition_of_timer hinit htype hobject ht rfl

/-! ## Actions -/

/-- A history that can be copied, with the given texts. -/
def IsHistory (ts : List (Option String)) (state : Value) : Prop :=
  ∃ m xs, state = .list m xs ∧ Value.allCopiable xs = true ∧ xs.map Value.text? = ts

/-- What an event has done so far when the extended state is a history: outputs can be added. -/
def Shows (ts : List (Option String)) (p : Progress) : Prop :=
  IsHistory ts p.state ∧ ∃ xs, Output.accumulated p.outputs = .ok xs

/-- A factory that asks for a recipe and outputs what it observes. -/
theorem apply_observing {code recipe : Code} (hcode : code.program = observing recipe)
    (label : String) (start : Identity) (state event d : Value) :
    ∃ i captured m outputs, Examples.host.apply start (code.handle label) [state, event, d] =
      .ok (.result (.callable (some i) none recipe.index captured) (.list m outputs)) := by
  have hprogram : programs[code.index]? =
      some ⟨false, [], some (.result (.recipe recipe.index) (.list [.arg 0, .arg 1]))⟩ := by
    rw [programs_index, hcode, observing, computing]
  obtain ⟨a, b, c, next, hargs⟩ : ∃ a b c next,
      (Value.markList [state, event, d]).run start = ([a, b, c], next) := ⟨_, _, _, _, rfl⟩
  have hcall : Examples.host.apply start (code.handle label) [state, event, d] = _ :=
    call_computing (v := .result (.callable none none recipe.index [a, b, c]) (.newList [a, b]))
      hprogram hargs rfl
  exact ⟨_, _, _, _, hcall⟩

/-- Outputs can be added to what was added to. -/
theorem concat_list {acc : Value} {xs : List Value} (hacc : Output.accumulated acc = .ok xs)
    (m : Mark) (ys : List Value) :
    ∃ outputs zs, Output.concat acc (.list m ys) = .ok outputs ∧
      Output.accumulated outputs = .ok zs := by
  have hconcat : Output.concat acc (.list m ys) = .ok (.newList (xs ++ ys)) := by
    rw [Output.concat, hacc]
    rfl
  refine ⟨_, xs ++ ys, hconcat, ?_⟩
  cases hzs : xs ++ ys with
  | nil => rfl
  | cons z zs => rfl

/-- An action whose factory asks for a recipe that edits the history. -/
theorem performs_observing {p : Progress} {ts' : List (Option String)} {name label : String}
    {code recipe : Code} {body : List Stmt} {edit : List Value → List Value} (hp : Shows ts p)
    (hfactory : (Descriptor.named (.text name) (.newTable [])).factory config.factories =
      .ok (code.handle label))
    (hcode : code.program = observing recipe) (hrecipe : recipe.program = editing body)
    (hbody : ∀ captured i xs, xs.map Value.text? = ts →
      runBody true body ⟨captured, some (.list (some i) xs)⟩ =
        pure ⟨captured, some (.list (some i) (edit xs))⟩)
    (hedit : ∀ xs, xs.map Value.text? = ts → Value.allCopiable xs = true →
      Value.allCopiable (edit xs) = true ∧ (edit xs).map Value.text? = ts') :
    ∃ calls p', Performs Examples.host config event start p (.text name) calls p' ∧
      Shows ts' p' := by
  rcases p with ⟨state, acc⟩
  obtain ⟨⟨m, xs, rfl, hcopiable, hxs⟩, outputs, hacc⟩ := hp
  obtain ⟨i, captured, m', ys, hcall⟩ := apply_observing hcode label start (.list m xs) event
    (.named (.text name) (.newTable []))
  obtain ⟨outputs', zs, hconcat, hzs⟩ := concat_list hacc m' ys
  have hprogram : programs[recipe.index]? = some ⟨true, body, none⟩ := by
    rw [programs_index, hrecipe, editing]
  obtain ⟨draft, next, hcopy, hdraft, htexts⟩ :=
    Value.exists_copy_list m hcopiable start.nextCall.nextCall
  have hupdate := copy_on_write_editing (some i) none hprogram hcopy
    (hbody captured _ draft (htexts.trans hxs))
  exact ⟨_, _, .intro rfl hfactory hcall rfl hconcat hupdate,
    ⟨_, _, rfl, hedit draft (htexts.trans hxs) hdraft⟩, zs, hzs⟩

/-- A recipe that appends a text to a history. -/
theorem run_append (t : String) (xs : List Value) (captured : List Value) (i : Identity) :
    runBody true [⟨[], .append (.lit (.text t))⟩] ⟨captured, some (.list (some i) xs)⟩ =
      pure ⟨captured, some (.list (some i) (xs ++ [.text t]))⟩ := by
  rw [run_body_edit (apply_append t) edited_list]
  rfl

/-- A recipe that drops the last two members of a history that has as many. -/
theorem run_drop_two (hxs : 2 ≤ xs.length) (captured : List Value) (i : Identity) :
    runBody true [⟨[], .pop⟩, ⟨[], .pop⟩] ⟨captured, some (.list (some i) xs)⟩ =
      pure ⟨captured, some (.list (some i) xs.dropLast.dropLast)⟩ := by
  have hfirst : xs ≠ [] := List.ne_nil_of_length_pos (by omega)
  have hsecond : xs.dropLast ≠ [] :=
    List.ne_nil_of_length_pos (by rw [List.length_dropLast]; omega)
  rw [run_body_edit (apply_pop hfirst) edited_list, run_body_edit (apply_pop hsecond) edited_list]
  rfl

/-- Appending a text keeps a history one that can be copied. -/
theorem appended (t : String) (hxs : xs.map Value.text? = ts)
    (hcopiable : Value.allCopiable xs = true) :
    Value.allCopiable (xs ++ [Value.text t]) = true ∧
      (xs ++ [Value.text t]).map Value.text? = ts ++ [some t] := by
  rw [Value.all_copiable_eq] at hcopiable ⊢
  simp [hcopiable, hxs, Value.copiable, Value.text?]

/-- Dropping members keeps a history one that can be copied. -/
theorem dropped (hxs : xs.map Value.text? = ts) (hcopiable : Value.allCopiable xs = true) :
    Value.allCopiable xs.dropLast.dropLast = true ∧
      xs.dropLast.dropLast.map Value.text? = ts.dropLast.dropLast := by
  rw [Value.all_copiable_eq, List.all_eq_true] at hcopiable ⊢
  refine ⟨fun x hx => hcopiable x ?_, by rw [List.map_dropLast, List.map_dropLast, hxs]⟩
  exact List.dropLast_subset _ (List.dropLast_subset _ hx)

section

variable {p : Progress}

/-- The action that switches the green light on. -/
theorem performs_green (hp : Shows ts p) :
    ∃ calls p', Performs Examples.host config event start p (.text "incGreenTimer") calls p' ∧
      Shows (ts ++ [some "green"]) p' :=
  performs_observing hp (by with_unfolding_all rfl)
    (rfl : Code.incGreenTimer.program = observing .appendGreen) rfl
    (fun captured i xs _ => run_append "green" xs captured i) fun _ => appended "green"

/-- The action that switches the yellow light on. -/
theorem performs_yellow (hp : Shows ts p) :
    ∃ calls p', Performs Examples.host config event start p (.text "incYellowTimer") calls p' ∧
      Shows (ts ++ [some "yellow"]) p' :=
  performs_observing hp (by with_unfolding_all rfl)
    (rfl : Code.incYellowTimer.program = observing .appendYellow) rfl
    (fun captured i xs _ => run_append "yellow" xs captured i) fun _ => appended "yellow"

/-- The action that drops two lights, when there are as many. -/
theorem performs_drop (hp : Shows ts p) (hlength : 2 ≤ ts.length) :
    ∃ calls p', Performs Examples.host config event start p (.text "logGreen") calls p' ∧
      Shows ts.dropLast.dropLast p' := by
  refine performs_observing hp (by with_unfolding_all rfl)
    (rfl : Code.logGreen.program = observing .dropTwo) rfl (fun captured i xs hxs => ?_)
    fun _ => dropped
  rw [← hxs, List.length_map] at hlength
  exact run_drop_two hlength captured i

end

/-- The actions that come with a timer do to the history what the lamp says. -/
theorem runs_actions (start : Identity) (event : Value) {p : Progress} (hready : l.Ready)
    (hp : Shows l.texts p) :
    ∃ calls last p', Runs Examples.host config event start p (l.actions.map .text) calls last p' ∧
      Shows l.timer.texts p' := by
  rcases l with ⟨colour, texts⟩
  cases colour with
  | green =>
      obtain ⟨_, p', first, hp'⟩ := performs_green hp
      obtain ⟨_, p'', second, hp''⟩ := performs_yellow hp'
      rw [List.append_assoc] at hp''
      exact ⟨_, _, p'', .cons first (.cons second .nil), hp''⟩
  | yellow =>
      by_cases hyellows : 1 < (⟨.yellow, texts⟩ : Lamp).yellows
      · simp only [Lamp.actions, Lamp.timer, hyellows, if_true]
        exact ⟨_, _, p, .nil, hp⟩
      · simp only [Lamp.actions, Lamp.timer, hyellows, if_false]
        obtain ⟨_, p', only, hp'⟩ := performs_yellow hp
        exact ⟨_, _, p', .cons only .nil, hp'⟩
  | red =>
      have hlength : 2 ≤ texts.length := (hready rfl).trans List.count_le_length
      obtain ⟨_, p', only, hp'⟩ := performs_drop hp hlength
      exact ⟨_, _, p', .cons only .nil, hp'⟩

/-! ## Interpreters -/

/-- A start makes the light green, without an action. -/
theorem initial_state : built.initialState = .ok (Colour.green.control [] true) := by
  with_unfolding_all rfl

/-- An interpreter of the machine shows a colour and has an extended state. -/
structure ShowsColour (c : Colour) (state : Value) (i : Interpreter) : Prop where
  interprets : i.Interprets Examples.host built config
  control : ∃ actions changed, i.snapshot.control = c.control actions changed
  state : i.snapshot.state = state

namespace ShowsColour

variable {i : Interpreter} {state : Value}

/-- The value of the control state is the key of the colour. -/
theorem value_eq (hi : ShowsColour c state i) :
    i.snapshot.control.attribute? "value" = some (.text c.name) := by
  obtain ⟨actions, changed, hcontrol⟩ := hi.control
  rw [hcontrol]
  rfl

/-- A start makes the light green and keeps its extended state. -/
theorem send_start (hi : ShowsColour c state i) (hinit : Event.isInit event = true) :
    (i.send Examples.host event).2 = .ok .null ∧
      ShowsColour .green state (i.send Examples.host event).1 := by
  rw [hi.interprets.send_eq_of_runs ((Machine.transition_of_init hinit).trans initial_state) rfl
    .nil]
  exact ⟨rfl, hi.interprets.commit _, ⟨_, _, rfl⟩, hi.state⟩

/-- An event of another type than a timer changes nothing. -/
theorem send_other (hi : ShowsColour c state i) (hinit : Event.isInit event = false)
    (hevent : Event.Typed event) {type : String} (htype : Event.typeOf event = .ok type)
    (hother : type ≠ "TIMER") :
    (i.send Examples.host event).2 = .ok .null ∧
      ShowsColour c state (i.send Examples.host event).1 := by
  obtain ⟨actions, changed, hcontrol⟩ := hi.control
  obtain ⟨-, object, -, hobject⟩ := hevent.eq_ok Examples.host ⟨i.snapshot.version + 1, 0, 0⟩
  have hanswer : built.transition Examples.host ⟨i.snapshot.version + 1, 0, 0⟩ i.snapshot.control
      event i.snapshot.state = .ok (c.control [] false) := by
    rw [hcontrol]
    exact transition_of_other hinit htype hobject hother
  rw [hi.interprets.send_eq_of_runs hanswer rfl .nil]
  exact ⟨rfl, hi.interprets.commit _, ⟨_, _, rfl⟩, hi.state⟩

/-- The answer of the machine to a timer, when the extended state is a history. -/
theorem asked_timer (hi : ShowsColour l.colour (.list m xs) i) (hxs : xs.map Value.text? = l.texts)
    (hinit : Event.isInit event = false) (hevent : Event.Typed event)
    (htype : Event.typeOf event = .ok "TIMER") :
    built.transition Examples.host ⟨i.snapshot.version + 1, 0, 0⟩ i.snapshot.control event
      i.snapshot.state = .ok (l.timer.colour.control l.actions true) := by
  obtain ⟨actions, changed, hcontrol⟩ := hi.control
  obtain ⟨-, object, -, hobject⟩ := hevent.eq_ok Examples.host ⟨i.snapshot.version + 1, 0, 0⟩
  rw [hcontrol, hi.state]
  exact transition_timer hinit htype hobject hxs

end ShowsColour

/-- An interpreter of the machine shows a lamp. -/
def Lamp.ShownBy (l : Lamp) (i : Interpreter) : Prop :=
  ∃ state, IsHistory l.texts state ∧ ShowsColour l.colour state i

/-- A timer changes a lamp that is ready. -/
theorem Lamp.ShownBy.send_timer {i : Interpreter} (hi : l.ShownBy i) (hready : l.Ready)
    (hinit : Event.isInit event = false) (hevent : Event.Typed event)
    (htype : Event.typeOf event = .ok "TIMER") :
    ∃ outputs, (i.send Examples.host event).2 = .ok outputs ∧
      l.timer.ShownBy (i.send Examples.host event).1 := by
  obtain ⟨state, hstate, hi⟩ := hi
  have hshows : Shows l.texts ⟨state, .null⟩ := ⟨hstate, [], rfl⟩
  obtain ⟨_, _, p, hruns, hp, -⟩ :=
    runs_actions ⟨i.snapshot.version + 1, 1, 0⟩ event hready hshows
  obtain ⟨m, xs, rfl, -, hxs⟩ := hstate
  rw [← hi.state] at hruns
  rw [hi.interprets.send_eq_of_runs (hi.asked_timer hxs hinit hevent htype) rfl hruns]
  exact ⟨_, rfl, _, hp, hi.interprets.commit _, ⟨_, _, rfl⟩, rfl⟩

/-- An interpreter that shows a lamp follows it from event to event, and none of them fails. -/
theorem follows_lamp :
    Interpreter.Follows Examples.host (fun l i => l.Ready ∧ l.ShownBy i) Event.Typed Lamp.step
      fun _ _ answer => ∃ outputs, answer = .ok outputs := by
  intro l i event hi hevent
  obtain ⟨hready, hshown⟩ := hi
  obtain ⟨type, -, htype, -⟩ := hevent.eq_ok Examples.host default
  suffices hsend : ∃ outputs, (i.send Examples.host event).2 = .ok outputs ∧
      (l.step event).ShownBy (i.send Examples.host event).1 by
    obtain ⟨outputs, hanswer, hnext⟩ := hsend
    exact ⟨⟨Lamp.ready_step hready event, hnext⟩, outputs, hanswer⟩
  rw [Lamp.step, Event.has_type_eq htype]
  obtain ⟨state, hstate, hi⟩ := hshown
  cases hinit : Event.isInit event with
  | true =>
      obtain ⟨hanswer, hnext⟩ := hi.send_start hinit
      exact ⟨_, hanswer, state, hstate, hnext⟩
  | false =>
      by_cases htimer : type = "TIMER"
      · subst htimer
        simpa using Lamp.ShownBy.send_timer ⟨state, hstate, hi⟩ hready hinit hevent htype
      · obtain ⟨hanswer, hnext⟩ := hi.send_other hinit hevent htype htimer
        rw [if_neg Bool.false_ne_true, if_neg (by simpa using htimer)]
        exact ⟨_, hanswer, state, hstate, hnext⟩

/-- The interpreter of the example, with any extended state to start with, shows green. -/
theorem exists_build (context : Value) : ∃ e i, Examples.find? "traffic_light" = some e ∧
    e.build Examples.host context = .ok i ∧
    ShowsColour .green (Interpreter.initialContext machine context) i := by
  have hcheck : config.check = .ok config := by with_unfolding_all rfl
  obtain ⟨i, hbuild, hinterprets, hsnapshot⟩ := Example.exists_build
    (e := ⟨"traffic_light", machine, config⟩) hcheck define_machine initial_state context
  exact ⟨_, i, rfl, hbuild, hinterprets, ⟨[], true, congrArg Snapshot.control hsnapshot⟩,
    congrArg Snapshot.state hsnapshot⟩

end Examples.TrafficLight

end Statechart
