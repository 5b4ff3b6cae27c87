import Statechart.Proofs.Acceptance
import Statechart.Proofs.EntryAndExit

/-!
# Transitions taken one at a time

Selected transitions may be taken together or one after the other, in any order. Read `Independent`
first: each of two selected transitions spares what the other enters. One step is `mem_take_one`,
the run is `mem_take_in_turn`; `taken_in_any_order` says that the same nodes are active in the end
and that the answer is the same.
-/

namespace Statechart

namespace Tree

variable {root : Chart} {t u : Transition} {p : Path}

/-- Two transitions are independent when each spares what the other enters. -/
def Independent (root : Chart) (t u : Transition) : Prop :=
  (∀ p ∈ root.entriesOf t, root.Spares u p) ∧ ∀ p ∈ root.entriesOf u, root.Spares t p

/-- Independence does not depend on which transition is named first. -/
theorem Independent.symm (h : root.Independent t u) : root.Independent u t :=
  ⟨h.2, h.1⟩

/-- Transitions whose domains are apart are independent. -/
theorem independent_of_apart (hwf : root.WellFormed)
    (hapart : ∀ d e, root.domain? t = some d → root.domain? u = some e → Apart d e) :
    root.Independent t u :=
  ⟨fun _ hp => spares_of_apart hwf hapart hp,
    fun _ hp => spares_of_apart hwf (fun e d he hd => (hapart d e hd he).symm) hp⟩

end Tree

namespace Machine

variable {m : Machine} {h : Host} {start : Identity} {state event context : Value}
  {active : List Path} {ts : List Transition} {t : Transition} {p : Path}

/-! ## One step and a run of steps -/

/-- The nodes that are active after one transition is taken: those that it exits are removed, and
those that it enters are added. -/
def takeOne (m : Machine) (active : List Path) (t : Transition) : List Path :=
  active.filter (fun p => !(m.root.exitsOf active t).contains p) ++ m.root.entriesOf t

/-- The nodes that are active after transitions are taken one after the other. Each of them exits
nodes that the ones before it left active or entered. -/
def takeInTurn (m : Machine) (active : List Path) (ts : List Transition) : List Path :=
  ts.foldl m.takeOne active

/-- A transition keeps the active nodes that it spares and adds what it enters. -/
theorem mem_take_one : p ∈ m.takeOne active t ↔
    (p ∈ active ∧ m.root.Spares t p) ∨ p ∈ m.root.entriesOf t := by
  rw [takeOne, List.mem_append, List.mem_filter]
  refine or_congr_left (and_congr_right fun hp => ?_)
  simpa using Tree.not_mem_exits_iff hp

/-- Independent transitions that are taken in turn keep the active nodes that all of them spare and
add what each of them enters. -/
theorem mem_take_in_turn (hts : ts.Pairwise m.root.Independent) : p ∈ m.takeInTurn active ts ↔
    (p ∈ active ∧ ∀ t ∈ ts, m.root.Spares t p) ∨ ∃ t ∈ ts, p ∈ m.root.entriesOf t := by
  induction ts generalizing active with
  | nil => simp [takeInTurn]
  | cons t ts ih =>
      obtain ⟨hfirst, hrest⟩ := List.pairwise_cons.mp hts
      -- What the first transition enters stays to the end.
      have hstays : p ∈ m.root.entriesOf t → ∀ u ∈ ts, m.root.Spares u p := fun hp u hu =>
        (hfirst u hu).1 p hp
      have hstep : p ∈ m.takeInTurn active (t :: ts) ↔ p ∈ m.takeInTurn (m.takeOne active t) ts :=
        Iff.rfl
      rw [hstep, ih hrest, mem_take_one]
      simp only [List.mem_cons, forall_eq_or_imp, exists_eq_or_imp]
      constructor
      · intro hp
        rcases hp with ⟨⟨hactive, hspared⟩ | hentered, hall⟩ | hp
        · exact Or.inl ⟨hactive, hspared, hall⟩
        · exact Or.inr (Or.inl hentered)
        · exact Or.inr (Or.inr hp)
      · intro hp
        rcases hp with ⟨hactive, hspared, hall⟩ | hentered | hp
        · exact Or.inl ⟨Or.inl ⟨hactive, hspared⟩, hall⟩
        · exact Or.inl ⟨Or.inr hentered, hstays hentered⟩
        · exact Or.inr hp

/-- Independent transitions may be taken in turn instead of together, in any order. -/
theorem mem_take_in_turn_iff_active_after (hts : ts.Pairwise m.root.Independent)
    {order : List Transition} (horder : order.Perm ts) :
    p ∈ m.takeInTurn active order ↔ p ∈ m.activeAfter active ts := by
  have hpairwise : order.Pairwise m.root.Independent :=
    (horder.pairwise_iff Tree.Independent.symm).mpr hts
  rw [mem_take_in_turn hpairwise, mem_active_after_iff]
  simp only [horder.mem_iff]

/-! ## Selected transitions -/

/-- Selected transitions are independent. -/
theorem independent_of_chosen (hwf : m.WellFormed) (hactive : m.root.Complete {p | p ∈ active})
    {type : String} (hts : m.root.Chosen type active ts) : ts.Pairwise m.root.Independent :=
  hts.compatible.imp_of_mem fun ht hu hcompatible =>
    Tree.independent_of_apart hwf.root fun _ _ hd he =>
      apart_of_chosen hwf hactive (fun _ => Iff.rfl) hts ht hu hcompatible hd he

/-- The control state of active nodes depends only on which nodes are active. -/
theorem control_congr {active' : List Path} (hsame : ∀ p, p ∈ active ↔ p ∈ active')
    (actions : List Value) (changed : Bool) :
    m.control active actions changed = m.control active' actions changed := by
  have hordered : m.root.ordered active = m.root.ordered active' :=
    List.filter_congr fun p _ => Bool.eq_iff_iff.mpr (by simpa using hsame p)
  simp only [control, Tree.configuration, hordered, Tree.shown_congr m.root hsame]

/-- Taking the selected transitions one at a time, in any order, activates what taking them together
activates, so the answer shows the nodes that are active in the end. -/
theorem taken_in_any_order {config : Value} (hconfig : config.wellFormed = true)
    (hm : define config = .ok m) (hinit : Event.isInit event = false)
    (hts : m.selected h start state event context = .ok (active, ts))
    (hactive : m.root.Legal {p | p ∈ active}) {order : List Transition} (horder : order.Perm ts) :
    (∀ p, p ∈ m.takeInTurn active order ↔ p ∈ m.activeAfter active ts) ∧
      m.transition h start state event context =
        m.control (m.takeInTurn active order) (m.actionsOf active ts) (!ts.isEmpty) := by
  have hwf := well_formed_of_define hconfig hm
  obtain ⟨type, hchosen⟩ := chosen_of_selected hts
  have hindependent := independent_of_chosen hwf hactive.toComplete hchosen
  have hsame : ∀ p, p ∈ m.takeInTurn active order ↔ p ∈ m.activeAfter active ts := fun p =>
    mem_take_in_turn_iff_active_after hindependent horder
  refine ⟨hsame, ?_⟩
  rw [transition_eq hinit, hts, ok_bind]
  exact (control_congr hsame _ _).symm

/-- The fan of the booth may tick before its lamp does. -/
theorem booth_ticks_in_any_order : ∃ m active lamp fan, define boothConfig = .ok m ∧
    m.selected Examples.host ⟨1, 0, 0⟩ (.text "open") (.text "TICK") .null =
      .ok (active, [lamp, fan]) ∧
    (∀ p, p ∈ m.takeInTurn active [fan, lamp] ↔ p ∈ m.activeAfter active [lamp, fan]) ∧
    ["open", "lamp", "bright"] ∈ m.takeInTurn active [fan, lamp] ∧
    ["open", "fan", "fast"] ∈ m.takeInTurn active [fan, lamp] := by
  obtain ⟨m, hm, hcheck⟩ := exists_of_any (x := define boothConfig) (P := fun m =>
      (m.selected Examples.host ⟨1, 0, 0⟩ (.text "open") (.text "TICK") .null).toOption.any
        fun x => x.2.length == 2 &&
          (m.activeAfter x.1 x.2).contains ["open", "lamp", "bright"] &&
          (m.activeAfter x.1 x.2).contains ["open", "fan", "fast"])
    (by decide +kernel)
  obtain ⟨⟨active, ts⟩, hts, hcheck⟩ := exists_of_any hcheck
  simp only [Bool.and_eq_true, beq_iff_eq, List.contains_eq_mem, decide_eq_true_eq] at hcheck
  obtain ⟨⟨hlen, hlamp⟩, hfan⟩ := hcheck
  obtain ⟨lamp, fan, rfl⟩ := List.length_eq_two.mp hlen
  have hconfig : boothConfig.wellFormed = true := by decide +kernel
  have hactive := legal_of_text (well_formed_of_define hconfig hm) (select_of_selected hts).1
  obtain ⟨hsame, -⟩ :=
    taken_in_any_order hconfig hm rfl hts hactive (List.Perm.swap lamp fan [])
  exact ⟨m, active, lamp, fan, hm, hts, hsame, (hsame _).mpr hlamp, (hsame _).mpr hfan⟩

end Machine

end Statechart
