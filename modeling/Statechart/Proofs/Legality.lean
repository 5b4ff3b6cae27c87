import Statechart.Examples.Named
import Statechart.Proofs.Transition

/-!
# Configurations stay legal

The transitions of a machine that have at most one target and do not move below a parallel root keep
the configuration legal. Read `legal_of_transition` first, the step; `transition_eq_ok` says that
every event with a type has an answer, and `legal_after_calls` says both of an interpreter after any
calls.
-/

namespace Statechart

/-- An event is typed when it is a text or a table with a text under `type`. -/
def Event.Typed (event : Value) : Prop :=
  ∃ type, event = .text type ∨
    ∃ es, event.entries? = some es ∧ Table.getText? es "type" = some (.text type)

/-- The type of a typed event can be read, and so can its form as a table. -/
theorem Event.Typed.eq_ok {event : Value} (h : Event.Typed event) (host : Host) (start : Identity) :
    ∃ type object, Event.typeOf event = .ok type ∧ Event.object host start event = .ok object := by
  obtain ⟨type, rfl | ⟨es, hes, htype⟩⟩ := h
  · exact ⟨type, _, rfl, rfl⟩
  · have hnot : ∀ s, event ≠ .text s := by
      intro s heq
      simp [heq, Value.entries?] at hes
    have hraw : Event.typeOf event = .ok type := by
      unfold Event.typeOf
      split
      · exact absurd rfl (hnot _)
      · simp [Event.rawType?, hes, htype]
    have hobject : Event.object host start event =
        .ok (.newTable (Table.insert es (.text "type") (.text type))) := by
      unfold Event.object
      split
      · exact absurd rfl (hnot _)
      · rw [hes, hraw]
        rfl
    exact ⟨type, _, hraw, hobject⟩

theorem Event.typed_text (type : String) : Event.Typed (.text type) :=
  ⟨type, Or.inl rfl⟩

theorem Event.typed_table (type : String) : Event.Typed (.table [("type", .text type)]) :=
  ⟨type, Or.inr ⟨_, rfl, by with_unfolding_all rfl⟩⟩

/-- Only one event asks for the initial control state. -/
theorem Event.eq_init {event : Value} (h : Event.isInit event = true) : event = Event.init := by
  cases event with
  | text s => exact congrArg Value.text (by simpa [Event.isInit] using h)
  | _ => cases h

/-- Whether an event is of a type. -/
def Event.hasType (type : String) (event : Value) : Bool :=
  (Event.typeOf event).toOption == some type

/-- An event whose type can be read is of that type only. -/
theorem Event.has_type_eq {event : Value} {type : String} (htype : Event.typeOf event = .ok type)
    (type' : String) : Event.hasType type' event = decide (type = type') := by
  rw [Event.hasType, htype, Bool.eq_iff_iff]
  simp [Except.toOption]

namespace Machine

variable {m : Machine} {h : Host} {start : Identity} {state event context : Value} {A : Set Path}

/-- A machine is plain when its transitions have at most one target each, and those that move below
a parallel root lead to the root itself. -/
structure Plain (m : Machine) : Prop where
  single : ∀ t ∈ m.root.transitions, t.targets.length ≤ 1
  regions : ∀ t ∈ m.root.transitions, m.root.kind? [] = some .parallel →
    m.root.domain? t = some [] → ∀ q ∈ t.targets, q = []

/-- The transitions of a plain machine are proper and lead to what they aim at. -/
theorem Plain.proper (hplain : m.Plain) (hwf : m.WellFormed) {t : Transition}
    (ht : t ∈ m.root.transitions) {d : Path} (hd : m.root.domain? t = some d) :
    m.root.Proper t d ∧ m.root.goal t = m.root.aim t := by
  have hdomain := Tree.domain_of_eq_some hd
  obtain ⟨q, targets, htargets⟩ := List.exists_cons_of_ne_nil hdomain.targeted
  obtain rfl : targets = [] := by
    have hlen := hplain.single t ht
    rw [htargets, List.length_cons] at hlen
    exact List.eq_nil_of_length_eq_zero (by omega)
  have hproper : m.root.Proper t d := by
    -- A target other than the root has a domain that is not parallel, since `m` is plain.
    by_cases hroot : q = []
    · exact Or.inl (hroot ▸ htargets)
    · refine Or.inr ⟨fun hkind => hroot ?_, ?_⟩
      · rcases hdomain.kind with rfl | hnot
        · exact hplain.regions t ht hkind hd q (by simp [htargets])
        · exact absurd hkind hnot
      · rcases hdomain.covers with hcovers | ⟨-, hmem⟩
        · exact hcovers
        · exact absurd (by simpa [htargets] using hmem : [] = q) (Ne.symm hroot)
  have hq : (m.root.at? q).isSome := hwf.targets t ht q (by simp [htargets])
  exact ⟨hproper, Tree.goal_eq_aim hwf.root hd hproper htargets hq (by simp)⟩

/-- The active nodes that transitions are selected for are those of the control state. -/
theorem active_of_selected (hwf : m.WellFormed) (hroot : [] ∈ A)
    (hknown : ∀ p ∈ A, (m.root.at? p).isSome) (hstate : m.Denotes A state)
    {active : List Path} {ts : List Transition}
    (h : m.selected h start state event context = .ok (active, ts)) :
    (∀ p, p ∈ active ↔ p ∈ A) ∧ ∃ type, m.root.Chosen type active ts := by
  obtain ⟨active', hactive', hmem⟩ := active_nodes_of_denotes hwf hroot hknown hstate
  obtain rfl : active' = active :=
    Except.ok.inj (hactive'.symm.trans (select_of_selected h).1)
  exact ⟨hmem, chosen_of_selected h⟩

/-- The same for a control state of a complete set. -/
theorem of_selected (hwf : m.WellFormed) (hA : m.root.Complete A) (hstate : m.Denotes A state)
    {active : List Path} {ts : List Transition}
    (h : m.selected h start state event context = .ok (active, ts)) :
    (∀ p, p ∈ active ↔ p ∈ A) ∧ ∃ type, m.root.Chosen type active ts :=
  active_of_selected hwf hA.root_mem hA.known hstate h

/-- The initial control state denotes the default configuration. -/
theorem denotes_initial (hwf : m.WellFormed) :
    ∃ s, m.initialState = .ok s ∧ m.Denotes {p | p ∈ m.root.defaults} s :=
  denotes_of_complete hwf (Tree.legal_defaults hwf.root).toComplete _ true

/-- An initial control state denotes the default configuration. -/
theorem denotes_of_initial (hwf : m.WellFormed) {s : Value} (hs : m.initialState = .ok s) :
    m.Denotes {p | p ∈ m.root.defaults} s := by
  obtain ⟨s', hs', hdenotes⟩ := denotes_initial hwf
  obtain rfl : s' = s := Except.ok.inj (hs'.symm.trans hs)
  exact hdenotes

/-- The active nodes of a dotted path are those of starting at the node that it leads to. -/
theorem active_nodes_of_text {dotted : String} {active : List Path}
    (h : m.activeNodes (.text dotted) = .ok active) :
    ∃ q, m.locate dotted = .ok q ∧ (m.root.at? q).isSome ∧ active = m.root.startAt q := by
  obtain ⟨q, hq, h⟩ := bind_eq_ok.mp h
  refine ⟨q, hq, ?_, (Except.ok.inj h).symm⟩
  simp only [locate] at hq
  split at hq
  · rename_i hknown
    exact Except.ok.inj hq ▸ hknown
  · cases hq

/-- The active nodes of a dotted path are legal. -/
theorem legal_of_text (hwf : m.WellFormed) {dotted : String} {active : List Path}
    (h : m.activeNodes (.text dotted) = .ok active) : m.root.Legal {p | p ∈ active} := by
  obtain ⟨q, -, hknown, rfl⟩ := active_nodes_of_text h
  exact Tree.legal_start_at hwf.root hknown

/-- A control state that denotes a legal configuration. -/
def LegalState (m : Machine) (s : Value) : Prop :=
  ∃ A, m.root.Legal A ∧ m.Denotes A s

/-- An initial control state denotes a legal configuration. -/
theorem legal_initial (hwf : m.WellFormed) {s : Value} (hs : m.initialState = .ok s) :
    m.LegalState s :=
  ⟨_, Tree.legal_defaults hwf.root, denotes_of_initial hwf hs⟩

/-- A transition of a plain machine leads from a legal configuration to a legal one. -/
theorem legal_of_selected (hwf : m.WellFormed) (hplain : m.Plain) (hA : m.root.Legal A)
    (hstate : m.Denotes A state) {active : List Path} {ts : List Transition}
    (hts : m.selected h start state event context = .ok (active, ts)) :
    m.root.Legal {p | p ∈ m.activeAfter active ts} := by
  obtain ⟨hmem, type, hchosen⟩ := of_selected hwf hA.toComplete hstate hts
  have hproper : ∀ t ∈ ts, ∀ d, m.root.domain? t = some d → _ := fun t ht d hd =>
    hplain.proper hwf (source_mem_of_chosen hwf hA.toComplete hmem hchosen ht).2 hd
  exact legal_active_after hwf hA hmem hchosen (fun t ht d hd => (hproper t ht d hd).1)
    fun t ht d hd => (hproper t ht d hd).2

/-- An answer of a plain machine to a control state of a legal configuration is one again. -/
theorem legal_of_transition (hwf : m.WellFormed) (hplain : m.Plain) (hstate : m.LegalState state)
    {s : Value} (hs : m.transition h start state event context = .ok s) : m.LegalState s := by
  obtain ⟨A, hA, hdenotes⟩ := hstate
  cases hinit : Event.isInit event with
  | true =>
      exact legal_initial hwf ((transition_of_init hinit).symm.trans hs)
  | false =>
      rw [transition_eq hinit] at hs
      obtain ⟨⟨active, ts⟩, hts, hs⟩ := bind_eq_ok.mp hs
      have hlegal := legal_of_selected hwf hplain hA hdenotes hts
      exact ⟨_, hlegal, denotes_of_control hwf hlegal.known hs⟩

/-- Whether a guard lets a transition through is known when the guard returns. -/
theorem enabled_eq_ok {object : Value} {t : Transition}
    (hguard : ∀ guard, t.guard = some guard → ∃ v, h.apply start guard [context, object] = .ok v) :
    ∃ b, enabled h start context object t = .ok b := by
  cases ht : t.guard with
  | none => exact ⟨true, by simp [enabled, ht]⟩
  | some guard =>
      obtain ⟨v, hv⟩ := hguard guard ht
      exact ⟨v.truthy, by simp [enabled, ht, hv]⟩

/-- The guards of a machine return for an event, under a host. -/
def GuardsReturn (m : Machine) (h : Host) (start : Identity) (event context : Value) : Prop :=
  ∀ object, Event.object h start event = .ok object → ∀ t ∈ m.root.transitions,
    ∀ guard, t.guard = some guard → ∃ v, h.apply start guard [context, object] = .ok v

/-- Transitions are selected for every typed event whose guards return. -/
theorem selected_eq_ok (hwf : m.WellFormed) (hA : m.root.Complete A) (hstate : m.Denotes A state)
    (hevent : Event.Typed event) (hguards : m.GuardsReturn h start event context) :
    ∃ active ts, m.selected h start state event context = .ok (active, ts) := by
  obtain ⟨active, hactive, hmem⟩ := active_nodes_of_denotes hwf hA.root_mem hA.known hstate
  obtain ⟨type, object, htype, hobject⟩ := hevent.eq_ok h start
  have hknows : m.root.knows active = true := by
    simpa [Tree.knows] using fun p hp => hA.known p ((hmem p).mp hp)
  have henabled : ∀ t ∈ m.root.transitions, ∃ b, enabled h start context object t = .ok b :=
    fun t ht => enabled_eq_ok (hguards object hobject t ht)
  obtain ⟨ts, hts⟩ := Tree.select_eq_ok hwf.root henabled type active
  exact ⟨active, ts, by simp [selected, hactive, htype, hobject, hknows, hts]⟩

/-- A plain machine has an answer to every typed event whose guards return. -/
theorem transition_eq_ok (hwf : m.WellFormed) (hplain : m.Plain) (hstate : m.LegalState state)
    (hevent : Event.Typed event) (hguards : m.GuardsReturn h start event context) :
    ∃ s, m.transition h start state event context = .ok s := by
  obtain ⟨A, hA, hdenotes⟩ := hstate
  cases hinit : Event.isInit event with
  | true =>
      obtain ⟨s, hs, -⟩ := denotes_initial hwf
      exact ⟨s, (transition_of_init hinit).trans hs⟩
  | false =>
      obtain ⟨active, ts, hts⟩ := selected_eq_ok hwf hA.toComplete hdenotes hevent hguards
      have hlegal := legal_of_selected hwf hplain hA hdenotes hts
      obtain ⟨s, hs, -⟩ := exists_answer hwf hinit hts hlegal.toComplete
      exact ⟨s, hs⟩

end Machine

/-! ## Interpreters -/

namespace Interpreter

/-- The interpreter after events that are submitted one after the other, each under a host of its
own. The initial event stands for a start, and an event that fails leaves the interpreter as it
is. -/
def after (i : Interpreter) (calls : List (Host × Value)) : Interpreter :=
  calls.foldl (fun i call => (i.send call.1 call.2).1) i

/-- An event keeps the engine, and the control state stays or is an answer of the engine. -/
theorem control_of_send (i : Interpreter) (h : Host) (event : Value) :
    (i.send h event).1.engine = i.engine ∧
      ((i.send h event).1.snapshot.control = i.snapshot.control ∨
        ∃ start, i.engine.transition start i.snapshot.control event i.snapshot.state =
          .ok (i.send h event).1.snapshot.control) := by
  cases hprocess : process h i.engine i.config i.snapshot event with
  | error e => simp [send, hprocess]
  | ok answer =>
      rcases answer with ⟨s, outputs⟩
      simp only [send, hprocess, true_and]
      obtain ⟨control, hcontrol, hprocess⟩ := bind_eq_ok.mp hprocess
      obtain ⟨actions, -, hprocess⟩ := bind_eq_ok.mp hprocess
      obtain ⟨raws, -, hprocess⟩ := bind_eq_ok.mp hprocess
      obtain ⟨p, -, hprocess⟩ := bind_eq_ok.mp hprocess
      obtain ⟨rfl, -⟩ := Prod.mk.inj (Except.ok.inj hprocess)
      exact Or.inr ⟨_, hcontrol⟩

/-- An interpreter of a plain machine keeps a legal configuration. -/
theorem legal_after {m : Machine} (hwf : m.WellFormed) (hplain : m.Plain) {h : Host}
    {i : Interpreter} (hengine : i.engine.transition = fun start => m.transition h start)
    (hlegal : m.LegalState i.snapshot.control) (calls : List (Host × Value)) :
    m.LegalState (i.after calls).snapshot.control := by
  induction calls generalizing i with
  | nil => exact hlegal
  | cons call calls ih =>
      obtain ⟨hsame, hcontrol⟩ := control_of_send i call.1 call.2
      refine ih (by rw [hsame, hengine]) ?_
      rcases hcontrol with hstays | ⟨start, hanswer⟩
      · exact hstays ▸ hlegal
      · rw [hengine] at hanswer
        exact Machine.legal_of_transition hwf hplain hlegal hanswer

end Interpreter

/-- Whatever is called on an interpreter of a plain machine, its control state denotes a legal
configuration, and from there the machine has an answer to every typed event whose guards return. -/
theorem legal_after_calls {config : Value} {m : Machine} (hconfig : config.wellFormed = true)
    (hm : Machine.define config = .ok m)
    (hsingle : ∀ t ∈ m.root.transitions, t.targets.length ≤ 1)
    (hregions : ∀ t ∈ m.root.transitions, m.root.kind? [] = some .parallel →
      m.root.domain? t = some [] → ∀ q ∈ t.targets, q = [])
    (h : Host) (c : Config) (context : Value) :
    ∃ e, Engine.ofMachine h m = .ok e ∧ ∀ calls : List (Host × Value),
      ∃ A, m.root.Legal A ∧
        m.Denotes A ((Interpreter.new e c context).after calls).snapshot.control ∧
        ∀ (h' : Host) (start : Identity) (event context' : Value), Event.Typed event →
          m.GuardsReturn h' start event context' → ∃ s B, m.root.Legal B ∧ m.Denotes B s ∧
            m.transition h' start ((Interpreter.new e c context).after calls).snapshot.control
              event context' = .ok s := by
  have hwf := Machine.well_formed_of_define hconfig hm
  have hplain : m.Plain := ⟨hsingle, hregions⟩
  obtain ⟨s, hs, -⟩ := Machine.denotes_initial hwf
  refine ⟨⟨s, fun start => m.transition h start⟩, by simp [Engine.ofMachine, hs], fun calls => ?_⟩
  have hinitial : m.LegalState s := Machine.legal_initial hwf hs
  have hstate := Interpreter.legal_after hwf hplain (h := h)
    (i := Interpreter.new ⟨s, fun start => m.transition h start⟩ c context) rfl hinitial calls
  obtain ⟨A, hA, hdenotes⟩ := hstate
  refine ⟨A, hA, hdenotes, fun h' start event context' hevent hguards => ?_⟩
  obtain ⟨s', hs'⟩ := Machine.transition_eq_ok hwf hplain ⟨A, hA, hdenotes⟩ hevent hguards
  obtain ⟨B, hB, hnext⟩ := Machine.legal_of_transition hwf hplain ⟨A, hA, hdenotes⟩ hs'
  exact ⟨s', B, hB, hnext, hs'⟩

/-- The configuration of a player: while it is on, its screen and its sound are in parallel, and so
are the two channels of a sound that plays. -/
def playerConfig : Value :=
  let ticking (target : String) : Value := .table [("on", .table [("TICK", .text target)])]
  .table
    [("id", .text "player"), ("initial", .text "off"),
      ("states", .table
        [("off", .table [("on", .table [("POWER", .text "on")])]),
          ("on", .table
            [("type", .text "parallel"), ("on", .table [("POWER", .text "off")]),
              ("states", .table
                [("screen", .table
                    [("initial", .text "dim"),
                      ("states", .table [("dim", ticking "bright"), ("bright", ticking "dim")])]),
                  ("sound", .table
                    [("initial", .text "mute"),
                      ("states", .table
                        [("mute", ticking "play.left"),
                          ("play", .table
                            [("type", .text "parallel"), ("on", .table [("TICK", .text "mute")]),
                              ("states", .table [("left", .null), ("right", .null)])])])])])])])]

/-- An interpreter of the player keeps a legal configuration. -/
theorem legal_after_calls_player :
    ∃ m e, Machine.define playerConfig = .ok m ∧ m.root.kind? [] = some .compound ∧
      (∀ t ∈ m.root.transitions, t.targets.length ≤ 1) ∧
      Engine.ofMachine Examples.host m = .ok e ∧ ∀ calls : List (Host × Value),
        m.LegalState ((Interpreter.new e Examples.Intersection.config .null).after calls
          ).snapshot.control := by
  obtain ⟨m, hm, hcheck⟩ : ∃ m, Machine.define playerConfig = .ok m ∧
      (m.root.transitions.all (fun t => t.targets.length ≤ 1) &&
        m.root.kind? [] == some .compound) = true :=
    exists_of_any (by decide +kernel)
  rw [Bool.and_eq_true, beq_iff_eq] at hcheck
  have hsingle : ∀ t ∈ m.root.transitions, t.targets.length ≤ 1 := by simpa using hcheck.1
  obtain ⟨e, he, hcalls⟩ := legal_after_calls (by decide +kernel) hm hsingle
    (fun t _ hkind => by simp [hcheck.2] at hkind) Examples.host Examples.Intersection.config .null
  refine ⟨m, e, hm, hcheck.2, hsingle, he, fun calls => ?_⟩
  obtain ⟨A, hA, hdenotes, -⟩ := hcalls calls
  exact ⟨A, hA, hdenotes⟩

end Statechart
