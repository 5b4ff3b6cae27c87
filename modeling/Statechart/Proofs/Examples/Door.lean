import Mathlib.Logic.Relation
import Statechart.Examples.Named
import Statechart.Proofs.Interpreter.Simulation
import Statechart.Proofs.Legality
import Statechart.Proofs.Patch.Standard
import Statechart.Proofs.Script

/-!
# The door

`Lock` is what an interpreter of the door shows: where the door is, and whether there is an admin.
Read `Lock.Moves` first, which lists what an event may do to it, and `moves_of_send`, which says
that every event does one of these, whatever value it is. An open door needs an admin and an error
comes of there being none, by `Lock.Sound.moves`; the rights are never given back, by
`Lock.Moves.admin_eq_false`. So a door without an admin stays shut, which is `shut_without_admin`.
-/

namespace Statechart.Examples.Door

open Script

/-! ## Locks -/

/-- Where the door is. -/
inductive Place where
  | idle
  | error
  | opened

/-- A lock: where the door is, and whether there is an admin. -/
structure Lock where
  place : Place
  admin : Bool

/-- The action on entry of the error. -/
def logging : Value :=
  Code.logErrorEntry.handle "log_error_entry"

/-- What an event may do to a lock, with the actions that come with it: nothing, a start, and for an
open and a shut door each what its two candidates do. -/
inductive Lock.Moves : Lock → List Value → Lock → Prop where
  | stay (l : Lock) : Moves l [] l
  | start (place : Place) (admin : Bool) : Moves ⟨place, admin⟩ [] ⟨.idle, admin⟩
  | opening {place : Place} (hshut : place ≠ .opened) : Moves ⟨place, true⟩ [] ⟨.opened, true⟩
  | refusing {place : Place} (hshut : place ≠ .opened) :
      Moves ⟨place, false⟩ [logging] ⟨.error, false⟩
  | overriding (admin : Bool) :
      Moves ⟨.opened, admin⟩ [.text "cancelAdmin"] ⟨.idle, false⟩
  | shutting (admin : Bool) : Moves ⟨.opened, admin⟩ [] ⟨.idle, admin⟩

/-- An open door has an admin, and an error none. -/
structure Lock.Sound (l : Lock) : Prop where
  opened : l.place = .opened → l.admin = true
  error : l.place = .error → l.admin = false

/-- Whatever an event does, an open door has an admin afterwards, and an error none. -/
theorem Lock.Sound.moves {l l' : Lock} {raws : List Value} (hl : l.Sound) (h : l.Moves raws l') :
    l'.Sound := by
  cases h with
  | stay => exact hl
  | start => exact ⟨nofun, nofun⟩
  | opening => exact ⟨fun _ => rfl, nofun⟩
  | refusing => exact ⟨nofun, fun _ => rfl⟩
  | overriding => exact ⟨nofun, nofun⟩
  | shutting => exact ⟨nofun, nofun⟩

/-- No event gives the rights back. -/
theorem Lock.Moves.admin_eq_false {l l' : Lock} {raws : List Value} (h : l.Moves raws l')
    (hadmin : l.admin = false) : l'.admin = false := by
  cases h with
  | opening => cases hadmin
  | overriding => rfl
  | refusing => rfl
  | _ => exact hadmin

/-! ## The machine -/

/-- The transition that opens the door to an admin. -/
def toOpened : Transition :=
  ⟨["closed"], [["opened"]], some Code.isAdmin.guard, [], false⟩

/-- The transition that refuses to open the door. -/
def toError : Transition :=
  ⟨["closed"], [["closed", "error"]], none, [], false⟩

/-- The transition that shuts the door and takes the rights away. -/
def override : Transition :=
  ⟨["opened"], [["closed"]], some Code.overridesAdmin.guard, [.text "cancelAdmin"], false⟩

/-- The transition that shuts the door. -/
def toClosed : Transition :=
  ⟨["opened"], [["closed"]], some Code.keepsAdmin.guard, [], false⟩

/-- The machine that the configuration defines. -/
def built : Machine where
  id := .text "door"
  root := .node ⟨.text "door", .compound, .text "closed", [], [], []⟩
    [("closed", .node ⟨.text "door.closed", .compound, .text "idle", [], [],
        [(.text "OPEN", [toOpened, toError])]⟩
        [("idle", .node ⟨.text "door.closed.idle", .atomic, .null, [], [], []⟩ []),
          ("error", .node ⟨.text "door.closed.error", .atomic, .null, [logging], [], []⟩ [])]),
      ("opened", .node ⟨.text "door.opened", .atomic, .null, [], [],
        [(.text "CLOSE", [override, toClosed])]⟩ [])]

theorem define_machine : Machine.define machine = .ok built := by
  with_unfolding_all rfl

namespace Place

/-- The active atomic node. -/
def leaf : Place → Path
  | .idle => ["closed", "idle"]
  | .error => ["closed", "error"]
  | .opened => ["opened"]

/-- The active nodes. -/
def active : Place → List Path
  | .idle => [[], ["closed"], ["closed", "idle"]]
  | .error => [[], ["closed"], ["closed", "error"]]
  | .opened => [[], ["opened"]]

/-- The value of the control state. -/
def value : Place → Value
  | .idle => .table [("closed", .text "idle")]
  | .error => .table [("closed", .text "error")]
  | .opened => .text "opened"

/-- No two places have the same value. -/
theorem value_inj {p q : Place} (h : p.value = q.value) : p = q := by
  cases p <;> cases q <;> first | rfl | simp [value, Value.table, Value.newTable] at h

/-- The control state of a place. -/
def control (p : Place) (actions : List Value) (changed : Bool) : Value :=
  .state p.value (.tuple (p.active.tail.map fun q => .text q.dotted)) (.tuple actions) changed

/-- The type of the events that a place answers. -/
def trigger : Place → String
  | .opened => "CLOSE"
  | _ => "OPEN"

/-- The candidates of a place. -/
def candidates : Place → List Transition
  | .opened => [override, toClosed]
  | _ => [toOpened, toError]

end Place

variable {p : Place} {l : Lock} {admin : Bool} {actions : List Value} {changed : Bool} {h : Host}
  {start : Identity} {event context object state : Value}

/-- The transitions that are selected for an event. -/
theorem selected_eq {type : String} (htype : Event.typeOf event = .ok type)
    (hobject : Event.object h start event = .ok object) :
    built.selected h start (p.control actions changed) event context =
      (Tree.firstEnabled (Machine.enabled h start context object)
        (if type = p.trigger then p.candidates else [])).map fun t => (p.active, t.toList) := by
  have hactive : built.activeNodes (p.control actions changed) = .ok p.active := by
    cases p <;> with_unfolding_all rfl
  have hknows : built.root.knows p.active = true := by cases p <;> rfl
  have hleaves : built.root.leaves p.active = [p.leaf] := by cases p <;> rfl
  have hcandidates : built.root.candidatesFrom type p.leaf =
      handlersFor [(.text p.trigger, p.candidates)] type := by
    cases p <;> exact List.append_nil _
  rw [Machine.selected_of_leaf hactive hknows hleaves htype hobject, hcandidates,
    Tree.handlers_for_singleton]

/-- A start shuts the door, without an action. -/
theorem initial_state : built.initialState = .ok (Place.idle.control [] true) := by
  with_unfolding_all rfl

/-- The extended state of a door. -/
def IsState (admin : Bool) (state : Value) : Prop :=
  ∃ m, state = .dict m [(.text "isAdmin", .bool admin)]

/-- Only an admin may open the door. -/
theorem enabled_to_opened (hstate : IsState admin state) :
    Machine.enabled Examples.host start state object toOpened = .ok admin := by
  obtain ⟨m, rfl⟩ := hstate
  obtain ⟨m', object', next, hargs⟩ : ∃ m' object' next, (Value.markList
      [.dict m [(.text "isAdmin", .bool admin)], object]).run start =
        ([.dict m' [(.text "isAdmin", .bool admin)], object'], next) := ⟨_, _, _, rfl⟩
  have hprogram : programs[Code.isAdmin.index]? =
      some ⟨false, [], some (.index Examples.state (Examples.text "isAdmin"))⟩ := rfl
  have hcall : Examples.host.apply start Code.isAdmin.guard
      [.dict m [(.text "isAdmin", .bool admin)], object] = .ok (.bool admin) :=
    call_computing (v := .bool admin) hprogram hargs (by with_unfolding_all rfl)
  simp [Machine.enabled, toOpened, hcall, Value.truthy]

/-- A shut door has one candidate for an admin and one for everyone else. -/
theorem first_enabled_shut (hshut : p ≠ .opened) (hstate : IsState admin state) :
    Tree.firstEnabled (Machine.enabled Examples.host start state object) p.candidates =
      .ok (some (if admin then toOpened else toError)) := by
  have hcandidates : p.candidates = [toOpened, toError] := by
    cases p with
    | opened => exact absurd rfl hshut
    | _ => rfl
  have herror : Machine.enabled Examples.host start state object toError = .ok true := rfl
  rw [hcandidates]
  cases admin with
  | true => simp [Tree.firstEnabled, enabled_to_opened hstate]
  | false => simp [Tree.firstEnabled, enabled_to_opened hstate, herror]

/-- A place to which a candidate leads, and the actions on the way. -/
def Leads (p : Place) (t : Transition) (raws : List Value) (p' : Place) : Prop :=
  built.control (built.activeAfter p.active [t]) (built.actionsOf p.active [t]) true =
    .ok (p'.control raws true)

theorem leads_to_opened (hshut : p ≠ .opened) : Leads p toOpened [] .opened := by
  cases p with
  | opened => exact absurd rfl hshut
  | _ => rfl

theorem leads_to_error (hshut : p ≠ .opened) : Leads p toError [logging] .error := by
  cases p with
  | opened => exact absurd rfl hshut
  | _ => rfl

/-- What the first enabled candidate of a place does is a move. -/
theorem moves_of_candidate {t : Transition} (hstate : IsState admin state)
    (ht : Tree.firstEnabled (Machine.enabled Examples.host start state object) p.candidates =
      .ok (some t)) :
    ∃ raws l', Lock.Moves ⟨p, admin⟩ raws l' ∧ Leads p t raws l'.place := by
  by_cases hplace : p = .opened
  · subst hplace
    have hmem : t = override ∨ t = toClosed := by
      simpa [Place.candidates] using Tree.mem_of_first_enabled ht
    rcases hmem with rfl | rfl
    · exact ⟨_, _, .overriding admin, rfl⟩
    · exact ⟨_, _, .shutting admin, rfl⟩
  · rw [first_enabled_shut hplace hstate] at ht
    obtain rfl := Option.some.inj (Except.ok.inj ht)
    cases admin with
    | true => exact ⟨_, _, .opening hplace, leads_to_opened hplace⟩
    | false => exact ⟨_, _, .refusing hplace, leads_to_error hplace⟩

/-- What the machine answers to an event is a move. -/
theorem moves_of_transition (hstate : IsState admin state) {s : Value}
    (hs : built.transition Examples.host start (p.control actions changed) event state = .ok s) :
    ∃ raws l' changed', Lock.Moves ⟨p, admin⟩ raws l' ∧ s = l'.place.control raws changed' := by
  have hstay : built.control (built.activeAfter p.active []) (built.actionsOf p.active []) false =
      .ok (p.control [] false) := by cases p <;> rfl
  cases hinit : Event.isInit event with
  | true =>
      rw [Machine.transition_of_init hinit, initial_state] at hs
      exact ⟨_, _, true, .start p admin, (Except.ok.inj hs).symm⟩
  | false =>
      rw [Machine.transition_eq hinit] at hs
      obtain ⟨answer, hts, hs⟩ := bind_eq_ok.mp hs
      obtain ⟨-, -, type, object, htype, hobject, -⟩ := Machine.select_of_selected hts
      rw [selected_eq htype hobject] at hts
      by_cases htrigger : type = p.trigger
      · rw [if_pos htrigger] at hts
        cases ht : Tree.firstEnabled (Machine.enabled Examples.host start state object)
            p.candidates with
        | error e =>
            rw [ht] at hts
            cases hts
        | ok t =>
            rw [ht] at hts
            obtain rfl := Except.ok.inj hts
            cases t with
            | none => exact ⟨_, _, false, .stay _, Except.ok.inj (hs.symm.trans hstay)⟩
            | some t =>
                obtain ⟨raws, l', hmoves, hleads⟩ := moves_of_candidate hstate ht
                exact ⟨raws, l', true, hmoves, Except.ok.inj (hs.symm.trans hleads)⟩
      · rw [if_neg htrigger] at hts
        obtain rfl := Except.ok.inj hts
        exact ⟨_, _, false, .stay _, Except.ok.inj (hs.symm.trans hstay)⟩

/-! ## Actions -/

/-- The only step of the patch that takes the rights away. -/
def cancelling : Table :=
  [(.text "op", .text "add"), (.text "path", .text "/isAdmin"), (.text "value", .bool false)]

/-- The patch that takes the rights away does so. -/
theorem apply_cancelling (m m' : Mark) (hstate : IsState admin state) :
    ∃ state', Patch.apply .standard start state (.list m [.dict m' cancelling]) = .ok state' ∧
      IsState false state' := by
  obtain ⟨n, rfl⟩ := hstate
  have hoperation : Patch.operation (.dict m' cancelling) =
      .ok ⟨.add, ["isAdmin"], cancelling⟩ := by with_unfolding_all rfl
  have hcopy : (Value.dict n [(.text "isAdmin", .bool admin)]).copy? start =
      some (.dict (some start) [(.text "isAdmin", .bool admin)], start.next) := by
    cases n <;> with_unfolding_all rfl
  have hvalue : Table.getText? cancelling "value" = some (.bool false) := by with_unfolding_all rfl
  have hfalse : (Value.bool false).copy? start.next = some (.bool false, start.next) := rfl
  refine ⟨_, Patch.apply_adding m hoperation hcopy hvalue hfalse, some start, ?_⟩
  simp [Table.insert]

/-- The action that takes the rights away. -/
theorem performs_cancel (start : Identity) (event : Value) (hstate : IsState admin state) :
    ∃ calls p', Performs Examples.host config event start ⟨state, .null⟩ (.text "cancelAdmin")
      calls p' ∧ IsState false p'.state := by
  have hfactory : (Descriptor.named (.text "cancelAdmin") (.newTable [])).factory
      config.factories = .ok (Code.cancelAdmin.handle "cancel_admin") := by with_unfolding_all rfl
  obtain ⟨a, b, c, next, hargs⟩ : ∃ a b c next, (Value.markList
      [state, event, .named (.text "cancelAdmin") (.newTable [])]).run start =
        ([a, b, c], next) := ⟨_, _, _, _, rfl⟩
  have hprogram : programs[Code.cancelAdmin.index]? = some Code.cancelAdmin.program := rfl
  obtain ⟨m, m', m'', xs, hcall⟩ : ∃ m m' m'' xs, Examples.host.apply start
      (Code.cancelAdmin.handle "cancel_admin")
      [state, event, .named (.text "cancelAdmin") (.newTable [])] =
        .ok (.result (.list m [.dict m' cancelling]) (.list m'' xs)) :=
    ⟨_, _, _, _, call_computing (v := .result (.newList [.newTable cancelling])
      (.newList [.text "admin rights overriden"])) hprogram hargs (by with_unfolding_all rfl)⟩
  obtain ⟨state', hpatch, hstate'⟩ := apply_cancelling m m' hstate
  exact ⟨_, _, .intro rfl hfactory hcall rfl rfl hpatch, hstate'⟩

/-- The action on entry of the error leaves the state as it is. -/
theorem performs_logging (start : Identity) (event state : Value) :
    ∃ calls p', Performs Examples.host config event start ⟨state, .null⟩ logging calls p' ∧
      p'.state = state := by
  have hshape : Descriptor.read logging = .ok (.embedded logging (.text "log_error_entry")) := rfl
  obtain ⟨a, b, c, next, hargs⟩ : ∃ a b c next, (Value.markList
      [state, event, .embedded logging (.text "log_error_entry")]).run start =
        ([a, b, c], next) := ⟨_, _, _, _, rfl⟩
  have hprogram : programs[Code.logErrorEntry.index]? = some Code.logErrorEntry.program := rfl
  obtain ⟨m, m', xs, hcall⟩ : ∃ m m' xs, Examples.host.apply start logging
      [state, event, .embedded logging (.text "log_error_entry")] =
        .ok (.result (.list m []) (.list m' xs)) :=
    ⟨_, _, _, call_computing (v := .result (.newList [])
      (.newList [.text "Entered .closed.error!", b])) hprogram hargs rfl⟩
  exact ⟨_, _, .intro hshape rfl hcall rfl rfl rfl, rfl⟩

/-- The actions of a move do to the extended state what the move says. -/
theorem runs_of_moves {raws : List Value} {l' : Lock} (start : Identity) (event : Value)
    (hmoves : l.Moves raws l') (hstate : IsState l.admin state) :
    ∃ calls last p', Runs Examples.host config event start ⟨state, .null⟩ raws calls last p' ∧
      IsState l'.admin p'.state := by
  cases hmoves with
  | refusing =>
      obtain ⟨_, p', only, hp'⟩ := performs_logging start event state
      exact ⟨_, _, p', .cons only .nil, hp' ▸ hstate⟩
  | overriding =>
      obtain ⟨_, p', only, hp'⟩ := performs_cancel start event hstate
      exact ⟨_, _, p', .cons only .nil, hp'⟩
  | _ => exact ⟨_, _, _, .nil, hstate⟩

/-! ## Interpreters -/

/-- An interpreter of the machine shows a lock. -/
structure Lock.ShownBy (l : Lock) (i : Interpreter) : Prop where
  interprets : i.Interprets Examples.host built config
  control : ∃ actions changed, i.snapshot.control = l.place.control actions changed
  state : IsState l.admin i.snapshot.state

/-- Every value that is submitted moves the lock, those that fail by leaving it as it is. -/
theorem moves_of_send {i : Interpreter} (hi : l.ShownBy i) (event : Value) :
    ∃ raws l', l.Moves raws l' ∧ l'.ShownBy (i.send Examples.host event).1 := by
  obtain ⟨actions, changed, hcontrol⟩ := hi.control
  cases hanswer : built.transition Examples.host ⟨i.snapshot.version + 1, 0, 0⟩ i.snapshot.control
      event i.snapshot.state with
  | error e =>
      rw [hi.interprets.send_eq_of_error hanswer]
      exact ⟨_, l, .stay l, hi⟩
  | ok s =>
      rw [hcontrol] at hanswer
      obtain ⟨raws, l', changed', hmoves, rfl⟩ := moves_of_transition hi.state hanswer
      obtain ⟨_, _, p, hruns, hp⟩ :=
        runs_of_moves ⟨i.snapshot.version + 1, 1, 0⟩ event hmoves hi.state
      rw [← hcontrol] at hanswer
      rw [hi.interprets.send_eq_of_runs hanswer rfl hruns]
      exact ⟨raws, l', hmoves, hi.interprets.commit _, ⟨_, _, rfl⟩, hp⟩

/-- The locks that events lead to from a lock. -/
def Lock.Reaches : Lock → Lock → Prop :=
  Relation.ReflTransGen fun l l' => ∃ raws, l.Moves raws l'

/-- In every reachable state an open door has an admin, and an error none. -/
theorem Lock.Sound.reaches {l l' : Lock} (hl : l.Sound) (h : l.Reaches l') : l'.Sound := by
  induction h with
  | refl => exact hl
  | tail _ hmoves ih =>
      obtain ⟨_, hmoves⟩ := hmoves
      exact ih.moves hmoves

/-- The rights are never given back. -/
theorem Lock.Reaches.admin_eq_false {l l' : Lock} (h : l.Reaches l') (hadmin : l.admin = false) :
    l'.admin = false := by
  induction h with
  | refl => exact hadmin
  | tail _ hmoves ih =>
      obtain ⟨_, hmoves⟩ := hmoves
      exact hmoves.admin_eq_false ih

/-- A series of events leads to a lock that can be reached. -/
theorem reaches_of_feed {i : Interpreter} (hi : l.ShownBy i) (events : List Value) :
    ∃ l', l.Reaches l' ∧ l'.ShownBy (i.feed Examples.host events).1 := by
  induction events generalizing l i with
  | nil => exact ⟨l, .refl, hi⟩
  | cons event events ih =>
      obtain ⟨raws, l', hmoves, hnext⟩ := moves_of_send hi event
      obtain ⟨l'', hreaches, hlast⟩ := ih hnext
      exact ⟨l'', .head ⟨raws, hmoves⟩ hreaches, hlast⟩

/-- Whether there is an admin, in the extended state of an interpreter. -/
def isAdmin (i : Interpreter) : Except Error Value :=
  i.snapshot.state.index (.text "isAdmin")

/-- The value of the control state of an interpreter. -/
def shown (i : Interpreter) : Option Value :=
  i.snapshot.control.attribute? "value"

theorem Lock.ShownBy.is_admin {i : Interpreter} (hi : l.ShownBy i) :
    isAdmin i = .ok (.bool l.admin) := by
  obtain ⟨m, hstate⟩ := hi.state
  rw [isAdmin, hstate]
  with_unfolding_all rfl

theorem Lock.ShownBy.shown_eq {i : Interpreter} (hi : l.ShownBy i) :
    shown i = some l.place.value := by
  obtain ⟨actions, changed, hcontrol⟩ := hi.control
  rw [shown, hcontrol]
  rfl

/-- The interpreter of the example shows a door that an admin has shut. -/
theorem exists_build : ∃ e i, Examples.find? "door" = some e ∧
    e.build Examples.host .null = .ok i ∧ (⟨.idle, true⟩ : Lock).ShownBy i := by
  have hcheck : config.check = .ok config := by with_unfolding_all rfl
  obtain ⟨i, hbuild, hinterprets, hsnapshot⟩ := Example.exists_build
    (e := ⟨"door", machine, config⟩) hcheck define_machine initial_state .null
  have hcontext : Interpreter.initialContext machine .null = initialContext := by
    with_unfolding_all rfl
  exact ⟨_, i, rfl, hbuild, hinterprets, ⟨[], true, congrArg Snapshot.control hsnapshot⟩, none,
    (congrArg Snapshot.state hsnapshot).trans hcontext⟩

/-- From its start and whatever values the door is given, starts among them, it is open only while
there is an admin and in error only while there is none. Once there is none, there is none ever
after, and the door is not opened again. -/
theorem shut_without_admin (events more : List Value) :
    ∃ e i, Examples.find? "door" = some e ∧ e.build Examples.host .null = .ok i ∧
      (∃ admin, isAdmin (i.feed Examples.host events).1 = .ok (.bool admin)) ∧
      (shown (i.feed Examples.host events).1 = some (.text "opened") →
        isAdmin (i.feed Examples.host events).1 = .ok (.bool true)) ∧
      (shown (i.feed Examples.host events).1 = some (.table [("closed", .text "error")]) →
        isAdmin (i.feed Examples.host events).1 = .ok (.bool false)) ∧
      (isAdmin (i.feed Examples.host events).1 = .ok (.bool false) →
        isAdmin (i.feed Examples.host (events ++ more)).1 = .ok (.bool false) ∧
        shown (i.feed Examples.host (events ++ more)).1 ≠ some (.text "opened")) := by
  obtain ⟨e, i, hfind, hbuild, hi⟩ := exists_build
  obtain ⟨l, hreaches, hl⟩ := reaches_of_feed hi events
  obtain ⟨l', hreaches', hl'⟩ := reaches_of_feed hl more
  have hstart : (⟨.idle, true⟩ : Lock).Sound := ⟨nofun, nofun⟩
  have hsound := hstart.reaches hreaches
  refine ⟨e, i, hfind, hbuild, ?_⟩
  rw [Interpreter.feed_append, hl.is_admin, hl.shown_eq, hl'.is_admin, hl'.shown_eq]
  refine ⟨⟨_, rfl⟩, fun hopened => ?_, fun herror => ?_, fun hnone => ?_⟩
  · rw [hsound.opened (Place.value_inj (q := .opened) (Option.some.inj hopened))]
  · rw [hsound.error (Place.value_inj (q := .error) (Option.some.inj herror))]
  · have hadmin : l'.admin = false := hreaches'.admin_eq_false (by simpa using hnone)
    refine ⟨by rw [hadmin], fun hopened => ?_⟩
    have hopen := (hsound.reaches hreaches').opened
      (Place.value_inj (q := .opened) (Option.some.inj hopened))
    rw [hadmin] at hopen
    cases hopen

end Statechart.Examples.Door
