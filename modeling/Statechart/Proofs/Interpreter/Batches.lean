import Statechart.Proofs.Interpreter.Reshaped
import Statechart.Proofs.Patch.Batches
import Statechart.Proofs.Patch.Standard

/-!
# Actions in batches

Updates that are patches and outputs that are joined can be spread over the actions of an event in
any way. Read `process_batched` first: actions that always declare the same operations and outputs
do what one action does that declares all of them in order. The library of the patches checks each
operation on its own and applies the operations to a deep copy of the state; what an operation is
and does is left to it, as long as it sees no identities. The states that come about are twins,
because every patch makes containers of its own; `Twin.same` says when they are equal. States and
operations are values in a store here, as all values are that have been handed on by a call.
-/

namespace Statechart

open Value Patch

variable {T : Identity → Value} {h : Host} {c : Config} {e e' : Engine} {s : Snapshot}
  {event raw : Value} {raws : List Value} {ops outs : List Value} {version : Nat}
  {start : Identity} {batches : List (List Value × List Value)}

/-- An action whose factory declares the same operations and outputs for an event, whatever the
state and however many actions came before. What it makes anew at each call has the marks of that
call, but is the same otherwise. -/
structure Declares (h : Host) (c : Config) (version : Nat) (event raw : Value)
    (ops outs : List Value) : Prop where
  stored : ∀ op ∈ ops, ∃ T, Stored T op
  declared : ∃ d f, Descriptor.read raw = .ok d ∧ d.factory c.factories = .ok f ∧
    ∀ (start : Identity) (state : Value), start.version = version →
      ∃ answer u o, h.apply start f [state, event, d.toValue] = .ok answer ∧
        Outcome.read answer d.toValue = .ok ⟨u, o⟩ ∧ Batch start.nextCall.nextCall ops u ∧
        ∃ τ : Equiv.Perm Identity, Lists (outs.map (rename τ)) o

/-- A configuration that takes patches as updates and joins outputs, of which there are none at
first. -/
structure Config.Batching (c : Config) : Prop where
  updates : c.updateState = .builtin .jsonPatch
  outputs : c.mergeOutputs = .builtin .concat
  none : c.noOutput = .null

/-! ## Outputs -/

theorem accumulated_new_list (xs : List Value) : Output.accumulated (.newList xs) = .ok xs := by
  cases xs <;> rfl

theorem batch_of_lists {o : Value} {xs : List Value} (h : Lists xs o) :
    Output.batch o = .ok xs := by
  cases h <;> rfl

/-! ## Actions -/

/-- An action patches the state and adds to the outputs. -/
theorem run_action_of_declares (hc : c.Batching) (ha : Declares h c version event raw ops outs)
    (hstart : start.version = version) (state : Value) :
    ∃ u made, Batch start.nextCall.nextCall ops u ∧ List.Forall₂ Twin outs made ∧
      ∀ acc xs, Output.accumulated acc = .ok xs →
        runAction h c start event ⟨state, acc⟩ raw =
          (apply h.patches start.nextCall.nextCall state u).map fun state' =>
            ⟨state', .newList (xs ++ made)⟩ := by
  obtain ⟨d, f, hread, hfactory, hanswers⟩ := ha.declared
  obtain ⟨answer, u, o, hanswer, houtcome, hbatch, τ, hlists⟩ := hanswers start state hstart
  refine ⟨u, _, hbatch, twins_renamed outs τ, fun acc xs hacc => ?_⟩
  have houtputs : h.apply start.nextCall c.mergeOutputs [acc, o] =
      .ok (.newList (xs ++ outs.map (rename τ))) := by
    rw [hc.outputs]
    show Output.concat acc o = _
    rw [Output.concat, hacc, ok_bind, batch_of_lists hlists]
    rfl
  have hupdate : h.apply start.nextCall.nextCall c.updateState [state, u] =
      apply h.patches start.nextCall.nextCall state u := by
    rw [hc.updates]
    rfl
  rw [runAction, hread, ok_bind, hfactory, ok_bind, hanswer, ok_bind, houtcome, ok_bind, houtputs,
    ok_bind, hupdate]
  cases apply h.patches start.nextCall.nextCall state u <;> rfl

/-- Actions patch the state one after the other and add to the outputs in order. -/
theorem run_actions_of_declares (hc : c.Batching)
    (ha : List.Forall₂ (fun raw b => Declares h c version event raw b.1 b.2) raws batches)
    (start : Identity) (hstart : start.version = version) (state : Value) (xs : List Value) :
    ∃ us made, Batches start.nextCall.nextCall (batches.map Prod.fst) us ∧
      List.Forall₂ Twin (batches.flatMap Prod.snd) made ∧
      runActions h c start event raws ⟨state, .newList xs⟩ =
        (applyEach h.patches start.nextCall.nextCall us state).map fun state' =>
          ⟨state', .newList (xs ++ made)⟩ := by
  induction ha generalizing start state xs with
  | nil => exact ⟨[], [], .nil, .nil, by rw [List.append_nil]; rfl⟩
  | @cons raw b raws batches hraw _ ih =>
      obtain ⟨u, made, hu, hmade, hrun⟩ := run_action_of_declares hc hraw hstart state
      have hnext : start.nextAction.version = version := hstart
      rw [runActions, hrun _ xs (accumulated_new_list xs)]
      cases hstep : apply h.patches start.nextCall.nextCall state u with
      | error error =>
          -- The other actions are not run: what they would declare for this state will do.
          obtain ⟨us, made', hus, hmade', -⟩ := ih start.nextAction hnext state xs
          refine ⟨u :: us, made ++ made', .cons hu hus, ?_, ?_⟩
          · exact List.rel_append hmade hmade'
          · rw [applyEach, hstep]
            rfl
      | ok state' =>
          obtain ⟨us, made', hus, hmade', hrest⟩ := ih start.nextAction hnext state' (xs ++ made)
          refine ⟨u :: us, made ++ made', .cons hu hus, ?_, ?_⟩
          · exact List.rel_append hmade hmade'
          · rw [applyEach, hstep, ← List.append_assoc]
            exact hrest

/-- Null outputs are joined like an empty list. -/
theorem run_actions_null (hc : c.Batching) (hraws : raws ≠ []) (state : Value) :
    runActions h c start event raws ⟨state, .null⟩ =
      runActions h c start event raws ⟨state, .newList []⟩ := by
  cases raws with
  | nil => exact absurd rfl hraws
  | cons raw raws =>
      have haction : runAction h c start event ⟨state, .null⟩ raw =
          runAction h c start event ⟨state, .newList []⟩ raw := by
        simp only [runAction, hc.outputs]
        rfl
      rw [runActions, runActions, haction]

/-- An event whose actions declare operations and outputs patches the state with all of them. -/
theorem process_of_declares (hc : c.Batching) (hraws : raws ≠ [])
    (hemits : e.emits s event = .ok raws)
    (ha : List.Forall₂ (fun raw b => Declares h c (s.version + 1) event raw b.1 b.2) raws batches) :
    ∃ control us made, Batches ⟨s.version + 1, 3, 0⟩ (batches.map Prod.fst) us ∧
      List.Forall₂ Twin (batches.flatMap Prod.snd) made ∧
      process h e c s event =
        ((applyEach h.patches ⟨s.version + 1, 3, 0⟩ us s.state).mapError Error.worded).map
          fun state' => (⟨control, state', s.version + 1⟩, .newList made) := by
  obtain ⟨control, hprocess⟩ := process_of_emits (h := h) (c := c) hemits
  obtain ⟨us, made, hus, hmade, hrun⟩ :=
    run_actions_of_declares hc ha ⟨s.version + 1, 1, 0⟩ rfl s.state []
  refine ⟨control, us, made, hus, hmade, ?_⟩
  have hfirst : (⟨s.version + 1, 1, 0⟩ : Identity).nextCall.nextCall = ⟨s.version + 1, 3, 0⟩ := rfl
  rw [hprocess, hc.none, run_actions_null hc hraws, hrun, hfirst]
  cases applyEach h.patches ⟨s.version + 1, 3, 0⟩ us s.state <;> rfl

/-- A callable that always gives the same result declares what the result lists. -/
theorem declares_of_constant {m : Mark} {name : Option String} {code : Nat} {captured : List Value}
    {u o : Value} (hcall : ∀ start args, h.call start code captured args = .ok (.result u o))
    (hu : Lists ops u) (ho : Lists outs o) (hops : ∀ op ∈ ops, ∃ T, Stored T op)
    (hmarks : ∀ op ∈ ops, ∀ i ∈ op.marks, i.version < version) :
    Declares h c version event (.callable m name code captured) ops outs := by
  have hsame : ∀ xs : List Value, xs.map (rename (Equiv.refl Identity)) = xs := fun xs =>
    (List.map_congr_left fun x _ => rename_id x).trans (List.map_id xs)
  refine ⟨hops, _, _, rfl, rfl, fun start state hstart => ⟨_, u, o, hcall start _, rfl, ?_, ?_⟩⟩
  · refine ⟨Equiv.refl _, by rwa [hsame], fun op hop i hi hfrom => ?_⟩
    have hold := hmarks op hop i hi
    have hnew : i.version = start.version := hfrom.1
    omega
  · exact ⟨Equiv.refl _, by rwa [hsame]⟩

namespace Journal

/-- The lines of a journal that has just been opened. -/
def firstLines : Value :=
  .list (some ⟨0, 0, 2⟩) [.text "open"]

/-- The operation that opens a journal. -/
def opening : Value :=
  .dict (some ⟨0, 0, 1⟩)
    [(.text "op", .text "add"), (.text "path", .text "/journal"), (.text "value", firstLines)]

/-- The operation that adds a line to a journal. -/
def noting : Value :=
  .dict (some ⟨0, 0, 3⟩)
    [(.text "op", .text "add"), (.text "path", .text "/journal/-"), (.text "value", .text "note")]

/-- The operations and outputs of three actions, the second of which has none. -/
def declared : List (List Value × List Value) :=
  [([opening], [.text "opened"]), ([], []), ([noting, noting], [.text "noted"])]

/-- A host whose factories declare the operations and outputs one by one, or all of them. -/
def host : Host where
  call _ code _ _ :=
    match code with
    | 0 => .ok (.result (.newList [opening]) (.newList [.text "opened"]))
    | 1 => .ok (.result .null .null)
    | 2 => .ok (.result (.newList [noting, noting]) (.newList [.text "noted"]))
    | _ => .ok (.result (.newList [opening, noting, noting])
        (.newList [.text "opened", .text "noted"]))
  edit _ _ _ draft := .ok (draft, .null)
  patches := .standard

/-- A configuration for patches and joined outputs. -/
def config : Config :=
  ⟨.builtin .jsonPatch, .builtin .concat, .newTable [], .null⟩

/-- The action with the given code. -/
def action (code : Nat) : Value :=
  .callable (some ⟨0, 0, 4⟩) none code []

/-- The actions that write a journal. -/
def actions : List Value :=
  [action 0, action 1, action 2]

/-- An empty table as the state before. -/
def unwritten : Snapshot :=
  ⟨.null, .dict (some ⟨0, 0, 0⟩) [], 0⟩

theorem stored_text (s : String) : Stored T (.text s) :=
  (Live.text s : Live T (fun _ => True) (.text s)).stored

theorem stored_operations : ∀ op ∈ [opening, noting, noting], ∃ T, Stored T op := by
  have hopening : Stored (fun i => if i = ⟨0, 0, 1⟩ then opening else firstLines) opening := by
    refine .intro rfl (fun _ => ⟨_, rfl, rfl⟩) ?_
    have hlines : Stored (fun i => if i = ⟨0, 0, 1⟩ then opening else firstLines) firstLines :=
      .intro rfl (fun _ => ⟨_, rfl, rfl⟩) (by simp [firstLines, contents, stored_text])
    simp [contents, opening, stored_text]
    exact hlines
  have hnoting : Stored (fun _ => noting) noting :=
    .intro rfl (fun _ => ⟨_, rfl, rfl⟩) (by simp [noting, contents, stored_text])
  simp only [List.forall_mem_cons]
  exact ⟨⟨_, hopening⟩, ⟨_, hnoting⟩, ⟨_, hnoting⟩, by simp⟩

theorem old_operations : ∀ op ∈ [opening, noting, noting], ∀ i ∈ op.marks, i.version < 1 := by
  decide +kernel

theorem actions_declare : List.Forall₂ (fun raw b => Declares host config 1 .null raw b.1 b.2)
    actions declared := by
  have hopening := List.forall_mem_cons.mp stored_operations
  have hnoting := List.forall_mem_cons.mp hopening.2
  have hold := List.forall_mem_cons.mp old_operations
  refine .cons ?_ (.cons ?_ (.cons ?_ .nil))
  · exact declares_of_constant (fun _ _ => rfl) (.list none _) (.list none _)
      (by simpa using hopening.1) (by simpa using hold.1)
  · exact declares_of_constant (fun _ _ => rfl) .null .null (by simp) (by simp)
  · exact declares_of_constant (fun _ _ => rfl) (.list none _) (.list none _) hopening.2 hold.2

theorem whole_declares : Declares host config 1 .null (action 3) [opening, noting, noting]
    [.text "opened", .text "noted"] :=
  declares_of_constant (fun _ _ => rfl) (.list none _) (.list none _) stored_operations
    old_operations

/-- The operation that puts the first lines of the journal into an archive as well. -/
def archiving : Value :=
  .dict (some ⟨0, 0, 5⟩)
    [(.text "op", .text "add"), (.text "path", .text "/archive"), (.text "value", firstLines)]

-- A library that puts in the lines themselves adds the note to the archive too, if the lines have
-- not been copied in between.
example : ((applyEach .sharing ⟨1, 0, 0⟩ [.newList [opening], .newList [archiving],
    .newList [noting]] unwritten.state).toOption.bind fun d =>
      (apply .sharing ⟨1, 0, 0⟩ unwritten.state
        (.newList [opening, archiving, noting])).toOption.map d.same) = some false := by
  decide +kernel

end Journal

end Statechart
