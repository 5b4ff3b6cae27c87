import Statechart.Proofs.Declared.Handlers

/-!
# Which configurations are refused

`Faulty` lists what can be wrong with a configuration, `Documented` says which configurations are
put together as they should be, whatever they declare. Read `define_refuses_iff` first: a documented
configuration is refused exactly when it is faulty, and gives a machine otherwise. Both passes over
a configuration stop at their first fault, so each direction needs both: a failure of either pass
shows a fault (`Explained`), and a fault anywhere in the configuration keeps one of them from
succeeding. Not every refusal is reported as a fault of the configuration: see `listed_default`.
-/

namespace Statechart

namespace Machine

variable {config cfg : Value} {p : Path} {e : Error}

/-! ## Both passes -/

/-- A documented configuration is read under the name that it gives. -/
theorem Documented.assemble_eq (hdoc : Documented config) : assemble config = do
    let (draft, _) ← readTree (.text (machineName config)) [] config []
    return ⟨.text (machineName config), ← readTransitions draft [] draft⟩ := by
  obtain ⟨mark, es, rfl⟩ := hdoc.table
  have hname : nameOf es = .text (machineName (.dict mark es)) := by
    have hkey : TextOrNone (field es "key") := hdoc.key
    cases hdoc.root with
    | node _ id _ _ _ _ _ =>
        have hid : TextOrNone (field es "id") := id
        rw [nameOf, or_else_eq_text hkey, or_else_eq_text hid]
        rfl
  have hcheck : checkKey true (.text (machineName (.dict mark es))) = .ok () := by
    simp [checkKey, Value.member]
  simp only [assemble, hname, hcheck, ok_bind]

/-- A failure to read a machine comes from a fault. -/
theorem explained_of_assemble (hconfig : config.wellFormed = true) (hdoc : Documented config)
    (h : assemble config = .error e) : Explained config e := by
  rw [hdoc.assemble_eq] at h
  rcases bind_eq_error.mp h with h | ⟨⟨draft, ids⟩, hdraft, h⟩
  · exact explained_of_read_tree hdoc.root hconfig rfl (fun v hv => by cases hv) h
  · rcases bind_eq_error.mp h with h | ⟨root, -, h⟩
    · have hread := read_from_of_read_tree hconfig hdoc.root hdraft
      obtain ⟨p, a, ha, he⟩ := exists_of_read_transitions_eq_error hread.wellFormed h
      rw [hread.get] at ha
      obtain ⟨cfg, hcfg, rfl⟩ := Option.map_eq_some_iff.mp ha
      exact explained_of_read_handlers hread (hdoc.root.declared hcfg) hcfg he
    · cases h

/-- The compound nodes of what was read have default children. -/
theorem ReadFrom.exists_default {draft : Draft} (h : ReadFrom config draft)
    (hp : declared config p = some cfg) (hkind : kindOf (fieldsOf cfg) = .compound) :
    ∃ k, (declared cfg [k]).isSome ∧ field (fieldsOf cfg) "initial" = .text k := by
  have hget := h.get p
  rw [hp, Option.map_some] at hget
  obtain ⟨⟨a, cs⟩, hs, ha⟩ := Option.map_eq_some_iff.mp hget
  obtain rfl : a = _ := ha
  obtain ⟨k, t, hk, hinitial⟩ := (h.wellFormed.at hs).default_child hkind
  have hknown : (draft.at? (p ++ [k])).isSome := by simp [Tree.at_concat, hs, Tree.children, hk]
  rw [h.known_iff, declared_append, hp] at hknown
  exact ⟨k, hknown, hinitial⟩

/-- A faulty configuration gives no machine. -/
theorem not_faulty_of_define {m : Machine} (hconfig : config.wellFormed = true)
    (hdoc : Documented config) (h : define config = .ok m) : ¬ Faulty config := by
  rw [define, map_error_eq_ok, hdoc.assemble_eq] at h
  obtain ⟨⟨draft, ids⟩, hdraft, h⟩ := bind_eq_ok.mp h
  obtain ⟨root, hroot, -⟩ := bind_eq_ok.mp h
  have hread := read_from_of_read_tree hconfig hdoc.root hdraft
  have hget : ∀ {p cfg}, declared config p = some cfg →
      draft.get? p = some (nodeOf (machineName config) p cfg) := by
    intro p cfg hp
    rw [hread.get, hp, Option.map_some]
  have hvalid : ∀ {p cfg item}, declared config p = some cfg → item ∈ offers cfg →
      isCandidate item = true ∧ (guardOf item ≠ .null → (guardOf item).isCallable = true) ∧
        ∀ target, .text target ∈ targetsOf item → ∃ q, Names config p target q := by
    intro p cfg item hp hitem
    obtain ⟨on, hon⟩ := exists_of_read_transitions_eq_ok hroot (hget hp)
    exact read_handlers_eq_ok hread (hdoc.root.declared hp) hp hon hitem
  intro hfaulty
  cases hfaulty with
  | dottedKey known hdot =>
      exact hread.wellFormed.dot_free (hread.known_iff.mpr known) _ (by simp) hdot
  | sharedId hp hq apart shared =>
      exact apart (hread.distinct _ _ _ _ _ (hget hp) (hget hq) rfl (by rw [node_of_id, shared]))
  | noInitial hp compound none =>
      obtain ⟨k, -, hinitial⟩ := hread.exists_default hp compound
      rw [none] at hinitial
      cases hinitial
  | strayInitial hp compound some stray =>
      obtain ⟨k, hk, hinitial⟩ := hread.exists_default hp compound
      exact stray k hk hinitial
  | invalidCandidate hp offered invalid =>
      rw [(hvalid hp offered).1] at invalid
      cases invalid
  | guardNotCallable hp offered some not =>
      rw [(hvalid hp offered).2.1 some] at not
      cases not
  | unknownTarget hp offered aimed unknown =>
      obtain ⟨q, hq⟩ := (hvalid hp offered).2.2 _ aimed
      exact unknown q hq

/-- How a refusal is reported: as a fault of the configuration, unless a default cannot be looked up
or what is at fault has no text to be named by. -/
theorem reported_of_define (hconfig : config.wellFormed = true) (hdoc : Documented config)
    (h : define config = .error e) : Faulty config ∧ ((∃ f, e = .definition f) ∨
      e = .wrongType ∧ UnhashableDefault config ∨
      e = .fault .wrongLength ∧ UnnamableFault config) := by
  obtain ⟨e', he', rfl⟩ := map_error_eq_error.mp h
  obtain ⟨hfaulty, ⟨f, rfl, hnone⟩ | ⟨rfl, hdefault⟩⟩ := explained_of_assemble hconfig hdoc he'
  · refine ⟨hfaulty, ?_⟩
    cases htext : f.hasText with
    | true => exact Or.inl ⟨f, by simp [Error.worded, Error.hasText, htext]⟩
    | false =>
        exact Or.inr (Or.inr ⟨by simp [Error.worded, Error.hasText, htext], hnone htext⟩)
  · exact ⟨hfaulty, Or.inr (Or.inl ⟨rfl, hdefault⟩)⟩

/-- A documented configuration is refused exactly when it is faulty, and this is reported as a fault
of the configuration, unless a compound node has a default that cannot be looked up, or what is at
fault has no text. A configuration without faults gives a machine whose initial control state
denotes a legal configuration and whose transitions lead from nodes to nodes. -/
theorem define_refuses_iff (hconfig : config.wellFormed = true) (hdoc : Documented config) :
    ((∃ e, define config = .error e) ↔ Faulty config) ∧
      (∀ e, define config = .error e → (∃ f, e = .definition f) ∨
        e = .wrongType ∧ UnhashableDefault config ∨
        e = .fault .wrongLength ∧ UnnamableFault config) ∧
      (¬ Faulty config → ∃ m s, define config = .ok m ∧ m.initialState = .ok s ∧
        m.LegalState s ∧ ∀ t ∈ m.root.transitions,
          (m.root.at? t.source).isSome ∧ ∀ q ∈ t.targets, (m.root.at? q).isSome) := by
  refine ⟨?_, fun e he => (reported_of_define hconfig hdoc he).2, fun hsound => ?_⟩
  · cases h : define config with
    | error e => exact iff_of_true ⟨e, rfl⟩ (reported_of_define hconfig hdoc h).1
    | ok m => exact iff_of_false (by simp) (not_faulty_of_define hconfig hdoc h)
  · cases h : define config with
    | error e => exact absurd (reported_of_define hconfig hdoc h).1 hsound
    | ok m =>
        have hwf := well_formed_of_define hconfig h
        obtain ⟨s, hs, -⟩ := denotes_initial hwf
        refine ⟨m, s, rfl, hs, legal_initial hwf hs, fun t ht => ⟨?_, hwf.targets t ht⟩⟩
        obtain ⟨p, a, ha, e, he, ht⟩ := (Tree.mem_transitions hwf.root).mp ht
        rw [hwf.source p a ha e he t ht]
        exact Tree.known_of_get ha

/-! ## A gate -/

/-- A shut gate goes where it is pushed, unless its guard holds it back. -/
def shutConfig (target : String) : Value :=
  .table [("on", .table [("PUSH", .newList
    [.table [("target", .text target), ("cond", .callable none none 0 [])], .text "#gate.shut"])])]

/-- The configuration of a gate. -/
def gateConfig (target : String) : Value :=
  .table
    [("id", .text "gate"), ("initial", .text "shut"),
      ("states", .table [("shut", shutConfig target), ("open", .null)])]

theorem gate_documented (target : String) : Documented (gateConfig target) := by
  have hopen : DocumentedNode .null := by
    constructor <;> simp [TextOrNone, TableOrNone, fieldsOf, statesOf, offers, field,
      Table.getText?, Table.get?, Value.entries?, Value.truthy]
  have hshut : DocumentedNode (shutConfig target) := by
    constructor <;> simp [shutConfig, TextOrNone, TableOrNone, fieldsOf, statesOf, offers, listed,
      targetsOf, items, field, Value.table, Value.newTable, Value.newList, Table.getText?,
      Table.get?, Value.entries?, Value.isMapping, Value.truthy]
  refine ⟨⟨none, _, rfl⟩, ?_, ?_⟩
  · simp [gateConfig, TextOrNone, fieldsOf, field, Value.table, Value.newTable, Table.getText?,
      Table.get?, Value.entries?, Value.truthy]
  · constructor <;> simp [gateConfig, TextOrNone, TableOrNone, fieldsOf, statesOf, offers, field,
      Value.table, Value.newTable, Table.getText?, Table.get?, Value.entries?, Value.isMapping,
      Value.truthy, hopen, hshut]

/-- A gate can be pushed open, but not to a place that it does not have. -/
theorem gate_pushed : ¬ Faulty (gateConfig "open") ∧ Faulty (gateConfig "away") ∧
    (∃ f, define (gateConfig "away") = .error (.definition f)) ∧
    ∃ m s, define (gateConfig "open") = .ok m ∧ m.initialState = .ok s ∧ m.LegalState s := by
  have hrefused : define (gateConfig "away") =
      .error (.definition (.unknownTarget "away" (.text "gate"))) := by with_unfolding_all rfl
  obtain ⟨m, hm, -⟩ : ∃ m, define (gateConfig "open") = .ok m ∧ true = true :=
    exists_of_any (by decide +kernel)
  obtain ⟨hopen, -, hlegal⟩ := define_refuses_iff (by decide +kernel) (gate_documented "open")
  obtain ⟨haway, -⟩ := define_refuses_iff (by decide +kernel) (gate_documented "away")
  have hsound : ¬ Faulty (gateConfig "open") := fun hfaulty => by
    obtain ⟨f, hf⟩ := hopen.mpr hfaulty
    rw [hm] at hf
    cases hf
  obtain ⟨m, s, hm, hs, hstate, -⟩ := hlegal hsound
  exact ⟨hsound, haway.mp ⟨_, hrefused⟩, ⟨_, hrefused⟩, m, s, hm, hs, hstate⟩

/-! ## A default in a list -/

/-- A box with one compartment, of which the given value says where it starts. -/
def boxConfig (initial : Value) : Value :=
  .table [("initial", initial), ("states", .table [("a", .null)])]

theorem box_documented (initial : Value) : Documented (boxConfig initial) := by
  have hcompartment : DocumentedNode .null := by
    constructor <;> simp [TextOrNone, TableOrNone, fieldsOf, statesOf, offers, field,
      Table.getText?, Table.get?, Value.entries?, Value.truthy]
  refine ⟨⟨none, _, rfl⟩, ?_, ?_⟩
  · simp [boxConfig, TextOrNone, fieldsOf, field, Value.table, Value.newTable, Table.getText?,
      Table.get?, Value.entries?, Value.truthy]
  · constructor <;> simp [boxConfig, TextOrNone, TableOrNone, fieldsOf, statesOf, offers, field,
      Value.table, Value.newTable, Table.getText?, Table.get?, Value.entries?, Value.isMapping,
      Value.truthy, hcompartment]

/-- A box is faulty when it does not start in its compartment. -/
theorem box_faulty {initial : Value} (hnull : initial ≠ .null) (h : initial ≠ .text "a") :
    Faulty (boxConfig initial) := by
  have hinitial : field (fieldsOf (boxConfig initial)) "initial" = initial := by
    with_unfolding_all rfl
  have hkind : kindOf (fieldsOf (boxConfig initial)) = .compound := by with_unfolding_all rfl
  refine .strayInitial (p := []) rfl hkind (hinitial.symm ▸ hnull) fun k hk => ?_
  have hkey : k = "a" := by
    rw [declared_cons] at hk
    by_contra hne
    simp [boxConfig, statesOf, fieldsOf, field, Value.table, Value.newTable, Value.entries?,
      Table.getText?, Table.get?, Ne.symm hne] at hk
  rw [hinitial, hkey]
  exact h

/-- A list cannot be looked up among the compartments of a box, so a box that starts in a list is
refused with an error of another kind; and so is one that starts in a number without a text. -/
theorem listed_default : Documented (boxConfig (.newList [.text "a"])) ∧
    Faulty (boxConfig (.newList [.text "a"])) ∧
    define (boxConfig (.newList [.text "a"])) = .error .wrongType ∧
    Documented (boxConfig (.int (tenPow 4300))) ∧ Faulty (boxConfig (.int (tenPow 4300))) ∧
    define (boxConfig (.int (tenPow 4300))) = .error (.fault .wrongLength) := by
  refine ⟨box_documented _, box_faulty nofun nofun, by with_unfolding_all rfl, box_documented _,
    box_faulty nofun nofun, ?_⟩
  have hlong : (Value.int (tenPow 4300)).hasText = false := by decide +kernel
  have hfault : assemble (boxConfig (.int (tenPow 4300))) =
      .error (.definition (.initialNotChild (.int (tenPow 4300)) (.text "machine"))) := by
    with_unfolding_all rfl
  rw [define, hfault, Except.mapError, Error.worded, Error.hasText, DefinitionFault.hasText, hlong]
  rfl

end Machine

end Statechart
