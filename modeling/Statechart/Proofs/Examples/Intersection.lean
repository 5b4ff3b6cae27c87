import Statechart.Examples.Named
import Statechart.Proofs.Interpreter.Simulation
import Statechart.Proofs.Legality
import Statechart.Proofs.Script
import Statechart.Proofs.Value.Copy

/-!
# The intersection

Two lights change in step: `Crossing` is what an interpreter of the intersection shows, the colours
of both and how often they were announced. Read `follows_crossing` first: a start and a timer enter
a phase, announce both of its colours, the light from north to south first, and count them; nothing
else changes anything. By `Crossing.after_eq`, which counts the timers since the last start,
`colours_after_events` says what every run shows and outputs.
-/

namespace Statechart.Examples.Intersection

open Script

/-! ## Crossings -/

/-- The colours that show together, in the order in which they follow each other. -/
inductive Phase where
  | first
  | second
  | third

namespace Phase

/-- The colour from north to south. -/
def northSouth : Phase → String
  | .first => "green"
  | .second => "yellow"
  | .third => "red"

/-- The colour from east to west. -/
def eastWest : Phase → String
  | .first => "red"
  | .second => "green"
  | .third => "yellow"

/-- The phase after a timer. -/
def next : Phase → Phase
  | .first => .second
  | .second => .third
  | .third => .first

/-- The phase after a number of timers from the first. -/
def after (k : Nat) : Phase :=
  match k % 3 with
  | 0 => .first
  | 1 => .second
  | _ => .third

/-- The phase after one timer more. -/
theorem next_after (k : Nat) : (after k).next = after (k + 1) := by
  rcases (by omega : k % 3 = 0 ∨ k % 3 = 1 ∨ k % 3 = 2) with hk | hk | hk
  · have hnext : (k + 1) % 3 = 1 := by omega
    simp [after, hk, hnext, next]
  · have hnext : (k + 1) % 3 = 2 := by omega
    simp [after, hk, hnext, next]
  · have hnext : (k + 1) % 3 = 0 := by omega
    simp [after, hk, hnext, next]

/-- The two lights never show the same colour. -/
theorem colours_ne (p : Phase) : p.northSouth ≠ p.eastWest := by
  cases p <;> decide

/-- The texts that announce the colours of a phase. -/
def texts (p : Phase) : List String :=
  ["northSouth:" ++ p.northSouth, "eastWest:" ++ p.eastWest]

end Phase

/-- A crossing: its phase, and how often the colours of a phase have been announced. -/
structure Crossing where
  phase : Phase
  count : Nat

/-- Whether an event makes a crossing enter a phase: a start or a timer. -/
def enters (event : Value) : Bool :=
  Event.isInit event || Event.hasType "TIMER" event

/-- The crossing after an event. -/
def Crossing.step (c : Crossing) (event : Value) : Crossing :=
  if Event.isInit event then ⟨.first, c.count + 1⟩
  else if Event.hasType "TIMER" event then ⟨c.phase.next, c.count + 1⟩
  else c

/-- The timers among events since the last start. -/
def timers (events : List Value) : Nat :=
  (events.reverse.takeWhile fun event => !Event.isInit event).countP (Event.hasType "TIMER")

/-- The starts and the timers among events. -/
def entries (events : List Value) : Nat :=
  events.countP Event.isInit + events.countP (Event.hasType "TIMER")

/-- A start is no timer. -/
theorem not_timer {event : Value} (hinit : Event.isInit event = true) :
    Event.hasType "TIMER" event = false := by
  rw [Event.eq_init hinit]
  rfl

/-- The crossing after events is told by the timers since the last start, and by how many starts and
timers there are. -/
theorem Crossing.after_eq (events : List Value) :
    events.foldl step ⟨.first, 0⟩ = ⟨.after (timers events), entries events⟩ := by
  induction events using List.reverseRecOn with
  | nil => rfl
  | append_singleton events event ih =>
      rw [List.foldl_append, ih]
      cases hinit : Event.isInit event with
      | true => simp [step, hinit, timers, entries, not_timer hinit, Phase.after, Nat.add_right_comm]
      | false =>
          cases htimer : Event.hasType "TIMER" event with
          | true => simp [step, hinit, htimer, timers, entries, Phase.next_after, Nat.add_assoc]
          | false => simp [step, hinit, htimer, timers, entries]

/-! ## The machine -/

/-- The action that announces a colour. -/
def announcement (light colour : String) : Value :=
  .table [("type", .text "announce"), ("light", .text light), ("colour", .text colour)]

/-- The transition of a light to its next colour. -/
def change (region colour next : String) : Transition :=
  ⟨[region, colour], [[region, next]], none, [], false⟩

/-- The region of a light. -/
def region (name key initial : String) : Chart :=
  .node ⟨.text ("intersection." ++ key), .compound, .text initial, [], [], []⟩
    (colours.map fun c => (c.1, .node ⟨.text ("intersection." ++ key ++ "." ++ c.1), .atomic, .null,
      [announcement name c.1], [], [(.text "TIMER", [change key c.1 c.2])]⟩ []))

/-- The machine that the configuration defines. -/
def built : Machine where
  id := .text "intersection"
  root := .node ⟨.text "intersection", .parallel, .null, [], [], []⟩
    [("northSouthLight", region "northSouth" "northSouthLight" "green"),
      ("eastWestLight", region "eastWest" "eastWestLight" "red")]

theorem define_machine : Machine.define machine = .ok built := by
  with_unfolding_all rfl

namespace Phase

/-- The active nodes. -/
def active (p : Phase) : List Path :=
  [[], ["northSouthLight"], ["northSouthLight", p.northSouth], ["eastWestLight"],
    ["eastWestLight", p.eastWest]]

/-- The value of the control state. -/
def value (p : Phase) : Value :=
  .table [("northSouthLight", .text p.northSouth), ("eastWestLight", .text p.eastWest)]

/-- The control state of a phase. -/
def control (p : Phase) (actions : List Value) (changed : Bool) : Value :=
  .state p.value (.tuple (p.active.tail.map fun q => .text q.dotted)) (.tuple actions) changed

/-- The actions on entry of a phase. -/
def announcements (p : Phase) : List Value :=
  [announcement "northSouth" p.northSouth, announcement "eastWest" p.eastWest]

end Phase

variable {p : Phase} {actions : List Value} {changed : Bool} {h : Host} {start : Identity}
  {event context object : Value}

/-- A start leads to the first phase. -/
theorem initial_state :
    built.initialState = .ok (Phase.first.control Phase.first.announcements true) := by
  with_unfolding_all rfl

/-- The active nodes of a phase. -/
theorem active_nodes : built.activeNodes (p.control actions changed) = .ok p.active := by
  cases p <;> with_unfolding_all rfl

/-- The transitions that a timer takes, one in each region. -/
def Phase.changes (p : Phase) : List Transition :=
  [change "northSouthLight" p.northSouth p.next.northSouth,
    change "eastWestLight" p.eastWest p.next.eastWest]

/-- The transitions that are selected for an event. -/
theorem selected_eq {type : String} (htype : Event.typeOf event = .ok type)
    (hobject : Event.object h start event = .ok object) :
    built.selected h start (p.control actions changed) event context =
      .ok (p.active, if type = "TIMER" then p.changes else []) := by
  have hknows : built.root.knows p.active = true := by cases p <;> rfl
  have hselect : built.root.select (Machine.enabled h start context object) type p.active =
      .ok (if type = "TIMER" then p.changes else []) := by
    by_cases htimer : type = "TIMER"
    · subst htimer
      cases p <;> rfl
    · have hleaves : built.root.leaves p.active =
          [["northSouthLight", p.northSouth], ["eastWestLight", p.eastWest]] := by
        cases p <;> rfl
      have hnone : ∀ ts, handlersFor [(.text "TIMER", ts)] type = [] := fun ts => by
        rw [Tree.handlers_for_singleton, if_neg htimer]
      rw [if_neg htimer]
      refine Tree.select_eq_nil fun q hq => ?_
      rw [hleaves, List.mem_pair] at hq
      rcases hq with rfl | rfl
      · cases p <;> exact congrArg (· ++ []) (hnone _)
      · cases p <;> exact congrArg (· ++ []) (hnone _)
  simp [Machine.selected, active_nodes, htype, hobject, hknows, hselect]

/-- A timer leads to the next phase. -/
theorem transition_timer (hinit : Event.isInit event = false)
    (htype : Event.typeOf event = .ok "TIMER") (hobject : Event.object h start event = .ok object) :
    built.transition h start (p.control actions changed) event context =
      .ok (p.next.control p.next.announcements true) := by
  rw [Machine.transition_eq hinit, selected_eq htype hobject, if_pos rfl]
  cases p <;> rfl

/-- Any other event leaves the phase. -/
theorem transition_of_other {type : String} (hinit : Event.isInit event = false)
    (htype : Event.typeOf event = .ok type) (hobject : Event.object h start event = .ok object)
    (hother : type ≠ "TIMER") :
    built.transition h start (p.control actions changed) event context =
      .ok (p.control [] false) := by
  rw [Machine.transition_eq hinit, selected_eq htype hobject, if_neg hother]
  cases p <;> rfl

/-! ## Announcements -/

/-- Counts as a table. -/
def tally (cs : List (String × Int)) : Table :=
  cs.map fun c => (.text c.1, .int c.2)

/-- One more of a light, which is the first when there has been none. -/
def bump (light : String) : List (String × Int) → List (String × Int)
  | [] => [(light, 1)]
  | (l, n) :: cs => if l = light then (l, n + 1) :: cs else (l, n) :: bump light cs

/-- How many of a light have been counted. -/
def countOf (light : String) : List (String × Int) → Int
  | [] => 0
  | (l, n) :: cs => if l = light then n else countOf light cs

theorem get_tally (light : String) (cs : List (String × Int)) :
    ((tally cs).get? (.text light)).getD (.int 0) = .int (countOf light cs) := by
  induction cs with
  | nil => rfl
  | cons c cs ih =>
      by_cases hc : c.1 = light
      · simp [tally, Table.get?, countOf, hc]
      · simpa [tally, Table.get?, countOf, hc] using ih

theorem insert_tally (light : String) (cs : List (String × Int)) :
    (tally cs).insert (.text light) (.int (countOf light cs + 1)) = tally (bump light cs) := by
  induction cs with
  | nil => rfl
  | cons c cs ih =>
      by_cases hc : c.1 = light
      · simp [tally, Table.insert, bump, countOf, hc]
      · simpa [tally, Table.insert, bump, countOf, hc] using ih

theorem copy_entries_tally (cs : List (String × Int)) :
    Value.copyEntries (tally cs) = pure (tally cs) := by
  induction cs with
  | nil => rfl
  | cons c cs ih =>
      show Value.copyEntries ((.text c.1, .int c.2) :: tally cs) = _
      rw [Value.copyEntries, ih]
      rfl

/-- A copy of counts has the same counts. -/
theorem copy_tally (m : Mark) (cs : List (String × Int)) (start : Identity) :
    (Value.dict m (tally cs)).copy? start = some (.dict (some start) (tally cs), start.next) := by
  have hcopiable : Value.entriesCopiable (tally cs) = true := by
    simp [Value.entries_copiable_eq, tally, Value.copiable]
  rw [Value.copy?, Value.copiable, hcopiable, Value.copy, copy_entries_tally]
  cases m <;> rfl

/-- Counting one more of a light in a table of counts. -/
theorem apply_increment {s : Scope} {k : Expr} {light : String}
    (hk : k.eval s = .ok (.text light)) (m : Mark) (cs : List (String × Int)) :
    (Edit.increment k).apply s (.dict m (tally cs)) = pure (.dict m (tally (bump light cs))) := by
  have hget : (Value.dict m (tally cs)).getD (.text light) (.int 0) =
      .ok (.int (countOf light cs)) := by
    simp only [Value.getD, Value.entries?, Value.hashable, if_true, get_tally]
  have hadd : (Value.int (countOf light cs)).add (.int 1) = .ok (.int (countOf light cs + 1)) := rfl
  have hcopied : copied s k = pure (.text light) := by
    rw [copied, hk]
    rfl
  have hmarked : Making.marked (.int (countOf light cs + 1)) =
      pure (.int (countOf light cs + 1)) := rfl
  rw [← insert_tally]
  simp only [Edit.apply, hcopied, hget, hadd, hmarked, lift_ok_bind_making, pure_bind]

/-- The descriptor of an announcement. -/
def asking (m : Mark) (light colour : String) : Value :=
  .named (.text "announce") (.dict m [(.text "light", .text light), (.text "colour", .text colour)])

/-- What a call reads off the descriptor of an announcement. -/
theorem eval_params {s : Scope} {m : Mark} {light colour : String}
    (hargs : s.args[2]? = some (asking m light colour)) :
    (param "light").eval s = .ok (.text light) ∧ (param "colour").eval s = .ok (.text colour) := by
  have hparams : (Expr.params descriptor).eval s =
      .ok (.dict m [(.text "light", .text light), (.text "colour", .text colour)]) := by
    simp only [Expr.eval, hargs, require, ok_bind]
    rfl
  constructor
  · rw [param, Expr.eval, hparams]
    with_unfolding_all rfl
  · rw [param, Expr.eval, hparams]
    with_unfolding_all rfl

/-- The factory of announcements asks for a recipe and outputs the light and the colour. -/
theorem apply_announce (start : Identity) (state event : Value) (light colour : String) :
    ∃ i m m' a b, Examples.host.apply start (Code.announce.handle "announce")
      [state, event, asking none light colour] =
        .ok (.result (.callable (some i) none Code.bump.index [a, b, asking m light colour])
          (.list m' [.text (light ++ ":" ++ colour)])) := by
  obtain ⟨a, b, m, next, hargs⟩ : ∃ a b m next,
      (Value.markList [state, event, asking none light colour]).run start =
        ([a, b, asking m light colour], next) := ⟨_, _, _, _, rfl⟩
  have hprogram : programs[Code.announce.index]? = some Code.announce.program := rfl
  obtain ⟨hlight, hcolour⟩ :=
    eval_params (s := ⟨[a, b, asking m light colour], some a⟩) (m := m) rfl
  refine ⟨_, m, _, a, b, call_computing (v := .result
    (.callable none none Code.bump.index [a, b, asking m light colour])
    (.newList [.text (light ++ ":" ++ colour)])) hprogram hargs ?_⟩
  simp only [List.head?_cons, Expr.eval, evalList, hlight, hcolour, ok_bind, pure_eq_ok]
  rfl

/-- The recipe of an announcement counts it. -/
theorem run_bump (a b : Value) (m : Mark) (light colour : String) (i : Identity)
    (cs : List (String × Int)) :
    runBody true [⟨[], .increment (param "light")⟩]
        ⟨[a, b, asking m light colour], some (.dict (some i) (tally cs))⟩ =
      pure ⟨[a, b, asking m light colour], some (.dict (some i) (tally (bump light cs)))⟩ := by
  obtain ⟨hlight, -⟩ := eval_params
    (s := ⟨[a, b, asking m light colour], some (.dict (some i) (tally cs))⟩) (m := m) rfl
  rw [run_body_edit (apply_increment hlight _ _) edited_dict]
  rfl

/-- The outputs of an event that announces texts. -/
def announced (ts : List String) : Value :=
  if ts.isEmpty then .null else .newList (ts.map .text)

theorem concat_announced (ts : List String) (m : Mark) (t : String) :
    Output.concat (announced ts) (.list m [.text t]) = .ok (announced (ts ++ [t])) := by
  have hacc : Output.accumulated (announced ts) = .ok (ts.map .text) := by
    cases ts <;> rfl
  rw [Output.concat, hacc]
  simp [announced, Output.batch, Value.elements, Value.elements?]

/-- What an event has done so far: what is counted, and the texts that it has announced. -/
def Announced (cs : List (String × Int)) (ts : List String) (p : Progress) : Prop :=
  (∃ m, p.state = .dict m (tally cs)) ∧ p.outputs = announced ts

/-- An announcement is counted, and its text is an output. -/
theorem performs_announcement {cs : List (String × Int)} {ts : List String} {p : Progress}
    (start : Identity) (event : Value) (hp : Announced cs ts p) (light colour : String) :
    ∃ calls p', Performs Examples.host config event start p (announcement light colour) calls p' ∧
      Announced (bump light cs) (ts ++ [light ++ ":" ++ colour]) p' := by
  rcases p with ⟨state, acc⟩
  obtain ⟨⟨m, rfl⟩, rfl⟩ := hp
  have hshape : Descriptor.read (announcement light colour) = .ok (.named (.text "announce")
      (.table [("light", .text light), ("colour", .text colour)])) := by with_unfolding_all rfl
  have hfactory : (Descriptor.named (.text "announce")
      (.table [("light", .text light), ("colour", .text colour)])).factory config.factories =
        .ok (Code.announce.handle "announce") := by with_unfolding_all rfl
  obtain ⟨i, n, m', a, b, hcall⟩ := apply_announce start (.dict m (tally cs)) event light colour
  have hprogram : programs[Code.bump.index]? =
      some ⟨true, [⟨[], .increment (param "light")⟩], none⟩ := rfl
  have hupdate := copy_on_write_editing (some i) none hprogram
    (copy_tally m cs start.nextCall.nextCall)
    (run_bump a b n light colour start.nextCall.nextCall cs)
  exact ⟨_, _, .intro hshape hfactory hcall rfl (concat_announced ts m' _) hupdate, ⟨_, rfl⟩, rfl⟩

/-! ## Interpreters -/

/-- What is counted after so many announcements. -/
def counts : Nat → List (String × Int)
  | 0 => []
  | n + 1 => [("northSouth", n + 1), ("eastWest", n + 1)]

/-- The announcements of a phase are counted one after the other. -/
theorem bump_counts (n : Nat) : bump "eastWest" (bump "northSouth" (counts n)) = counts (n + 1) := by
  cases n <;> rfl

/-- The announcements of a phase are counted, and their texts are the outputs. -/
theorem runs_announcements (start : Identity) (event : Value) (p : Phase) {n : Nat}
    {state : Value} (hstate : ∃ m, state = .dict m (tally (counts n))) :
    ∃ calls last p', Runs Examples.host config event start ⟨state, .null⟩ p.announcements calls
      last p' ∧ Announced (counts (n + 1)) p.texts p' := by
  have hnone : Announced (counts n) [] ⟨state, .null⟩ := ⟨hstate, rfl⟩
  obtain ⟨_, p', first, hp'⟩ := performs_announcement start event hnone "northSouth" p.northSouth
  obtain ⟨_, p'', second, hp''⟩ :=
    performs_announcement start.nextAction event hp' "eastWest" p.eastWest
  rw [bump_counts] at hp''
  exact ⟨_, _, p'', .cons first (.cons second .nil), hp''⟩

/-- An interpreter of the machine shows a crossing. -/
structure Crossing.ShownBy (c : Crossing) (i : Interpreter) : Prop where
  interprets : i.Interprets Examples.host built config
  control : ∃ actions changed, i.snapshot.control = c.phase.control actions changed
  state : ∃ m, i.snapshot.state = .dict m (tally (counts c.count))

/-- An answer of the machine that enters a phase announces its colours and counts that. -/
theorem Crossing.ShownBy.enter {c : Crossing} {i : Interpreter} (hi : c.ShownBy i) {p : Phase}
    (hanswer : built.transition Examples.host ⟨i.snapshot.version + 1, 0, 0⟩ i.snapshot.control
      event i.snapshot.state = .ok (p.control p.announcements true)) :
    (⟨p, c.count + 1⟩ : Crossing).ShownBy (i.send Examples.host event).1 ∧
      (i.send Examples.host event).2 = .ok (announced p.texts) := by
  obtain ⟨_, _, p', hruns, hstate, houtputs⟩ :=
    runs_announcements ⟨i.snapshot.version + 1, 1, 0⟩ event p hi.state
  rw [hi.interprets.send_eq_of_runs hanswer rfl hruns]
  exact ⟨⟨hi.interprets.commit _, ⟨_, _, rfl⟩, hstate⟩, by rw [houtputs]⟩

/-- An interpreter that shows a crossing follows it from event to event, and outputs the
announcements of the phases that it enters. -/
theorem follows_crossing :
    Interpreter.Follows Examples.host Crossing.ShownBy Event.Typed Crossing.step
      fun c event answer =>
        answer = .ok (if enters event then announced (c.step event).phase.texts else .null) := by
  intro c i event hi hevent
  obtain ⟨actions, changed, hcontrol⟩ := hi.control
  obtain ⟨type, object, htype, hobject⟩ :=
    hevent.eq_ok Examples.host ⟨i.snapshot.version + 1, 0, 0⟩
  have htimer := Event.has_type_eq htype "TIMER"
  cases hinit : Event.isInit event with
  | true =>
      simp only [Crossing.step, enters, hinit, if_true, Bool.true_or]
      exact hi.enter ((Machine.transition_of_init hinit).trans initial_state)
  | false =>
      by_cases heq : type = "TIMER"
      · subst heq
        simp only [Crossing.step, enters, hinit, htimer, decide_true, if_true, Bool.false_or,
          Bool.false_eq_true, if_false]
        refine hi.enter ?_
        rw [hcontrol]
        exact transition_timer hinit htype hobject
      · simp only [Crossing.step, enters, hinit, htimer, heq, decide_false, Bool.or_self,
          Bool.false_eq_true, if_false]
        have hanswer : built.transition Examples.host ⟨i.snapshot.version + 1, 0, 0⟩
            i.snapshot.control event i.snapshot.state = .ok (c.phase.control [] false) := by
          rw [hcontrol]
          exact transition_of_other hinit htype hobject heq
        rw [hi.interprets.send_eq_of_runs hanswer rfl .nil]
        exact ⟨⟨hi.interprets.commit _, ⟨_, _, rfl⟩, hi.state⟩, rfl⟩

/-- The interpreter of the example shows the first phase and has counted nothing. -/
theorem exists_build : ∃ e i, Examples.find? "intersection" = some e ∧
    e.build Examples.host .null = .ok i ∧ (⟨.first, 0⟩ : Crossing).ShownBy i := by
  have hcheck : config.check = .ok config := by with_unfolding_all rfl
  obtain ⟨i, hbuild, hinterprets, hsnapshot⟩ := Example.exists_build
    (e := ⟨"intersection", machine, config⟩) hcheck define_machine initial_state .null
  have hcontext : Interpreter.initialContext machine .null = .table [] := by
    with_unfolding_all rfl
  exact ⟨_, i, rfl, hbuild, hinterprets, ⟨_, true, congrArg Snapshot.control hsnapshot⟩, none,
    (congrArg Snapshot.state hsnapshot).trans hcontext⟩

/-- Whatever texts and tables with a text as their type the intersection is given, starts among
them, none of them fails. Its lights are those after as many timers as there are since the last
start, never of one colour; the counts of both are the number of starts and timers; and each of
these outputs the announcements of the two colours that are entered. -/
theorem colours_after_events {events : List Value}
    (hevents : ∀ event ∈ events, Event.Typed event) :
    ∃ e i, Examples.find? "intersection" = some e ∧ e.build Examples.host .null = .ok i ∧
      (∀ answer ∈ (i.feed Examples.host events).2, ∃ outputs, answer = .ok outputs) ∧
      (i.feed Examples.host events).1.snapshot.control.attribute? "value" =
        some (.table [("northSouthLight", .text (Phase.after (timers events)).northSouth),
          ("eastWestLight", .text (Phase.after (timers events)).eastWest)]) ∧
      (Phase.after (timers events)).northSouth ≠ (Phase.after (timers events)).eastWest ∧
      (∃ m, (i.feed Examples.host events).1.snapshot.state =
        .dict m (tally (counts (entries events)))) ∧
      ∀ before event after, events = before ++ event :: after → enters event = true →
        (i.feed Examples.host events).2[before.length]? = some (.ok (.newList
          [.text ("northSouth:" ++ (Phase.after (timers (before ++ [event]))).northSouth),
            .text ("eastWest:" ++ (Phase.after (timers (before ++ [event]))).eastWest)])) := by
  obtain ⟨e, i, hfind, hbuild, hi⟩ := exists_build
  obtain ⟨hlast, hanswers⟩ := follows_crossing.feed hi hevents
  rw [Crossing.after_eq] at hlast
  obtain ⟨actions, changed, hcontrol⟩ := hlast.control
  refine ⟨e, i, hfind, hbuild, fun answer ha => ?_, ?_, Phase.colours_ne _, hlast.state, ?_⟩
  · obtain ⟨c, event, hanswer⟩ := hanswers answer ha
    exact ⟨_, hanswer⟩
  · rw [hcontrol]
    rfl
  · intro before event after heq henters
    subst heq
    obtain ⟨answer, hmem, rfl⟩ := follows_crossing.answer hi hevents
    have hphase : ((before.foldl Crossing.step ⟨.first, 0⟩).step event).phase =
        .after (timers (before ++ [event])) := by
      have hstep := Crossing.after_eq (before ++ [event])
      rw [List.foldl_append] at hstep
      exact congrArg Crossing.phase hstep
    rw [hmem, if_pos henters, hphase]
    rfl

/-- A timer, a start, a timer that is a table, and another event. -/
def restarted : List Value :=
  [.text "TIMER", Event.init, .table [("type", .text "TIMER")], .text "WALK"]

/-- After a start and a timer the lights are yellow and green; the start has announced green and
red, and the three entries are counted. -/
theorem restarted_lights :
    (∀ event ∈ restarted, Event.Typed event) ∧
    ∃ e i m, Examples.find? "intersection" = some e ∧ e.build Examples.host .null = .ok i ∧
      (i.feed Examples.host restarted).1.snapshot.control.attribute? "value" =
        some (.table [("northSouthLight", .text "yellow"), ("eastWestLight", .text "green")]) ∧
      (i.feed Examples.host restarted).1.snapshot.state =
        .dict m [(.text "northSouth", .int 3), (.text "eastWest", .int 3)] ∧
      (i.feed Examples.host restarted).2[1]? =
        some (.ok (.newList [.text "northSouth:green", .text "eastWest:red"])) := by
  have hevents : ∀ event ∈ restarted, Event.Typed event := by
    simp only [restarted, List.forall_mem_cons]
    exact ⟨Event.typed_text _, Event.typed_text _, Event.typed_table _, Event.typed_text _,
      by simp⟩
  have htimers : timers restarted = 1 := by decide +kernel
  have hentries : entries restarted = 3 := by decide +kernel
  have hfirst : timers [.text "TIMER", Event.init] = 0 := by decide +kernel
  obtain ⟨e, i, hfind, hbuild, -, hvalue, -, ⟨m, hstate⟩, hanswer⟩ := colours_after_events hevents
  rw [htimers] at hvalue
  rw [hentries] at hstate
  have hstart := hanswer [.text "TIMER"] Event.init _ rfl rfl
  rw [List.singleton_append, hfirst] at hstart
  exact ⟨hevents, e, i, m, hfind, hbuild, hvalue, hstate, hstart⟩

end Statechart.Examples.Intersection
