import Statechart.Call
import Statechart.Proofs.Outcome
import Statechart.Proofs.Value.Renamed
import Statechart.Script.Eval

/-!
# Recipes that edit their draft or return a value

A recipe may edit its draft or return a value, but not both. Whether it has edited the draft is
decided by comparing the draft with the state. Read `copy_on_write_settles`: it says which edits
that shows, namely those after which the draft is not like the state any more, and for which states
a draft that nobody has touched passes. An edit that equality does not see passes for none, and an
object in the state passes for an edit.
-/

namespace Statechart.Update

open Value

variable {T : Identity → Value} {h : Host} {start next : Identity}
variable {state recipe draft edited returned : Value}

/-- What a recipe that has ended leaves behind settles the next state. -/
theorem copy_on_write_eq (hcall : recipe.isCallable = true)
    (hcopy : state.copy? start = some (draft, next))
    (hrun : h.edited next recipe draft = .ok (edited, returned)) :
    copyOnWrite h start state recipe = settle state edited returned := by
  unfold copyOnWrite
  split
  · cases hcall
  · rw [if_pos hcall, hcopy]
    show (h.edited next recipe draft >>= fun r => settle state r.1 r.2) = _
    rw [hrun, ok_bind]

/-- A draft that nobody has touched is like the state when no object stands in the state: objects
are copied, and a copy is another object. -/
theorem like_draft_iff {g : Identity → Identity} (hstate : Stored T state)
    (hwf : state.wellFormed = true) (hold : ∀ i ∈ state.marks, ¬ Identity.From start i)
    (hnew : ∀ i ∈ state.marks, Identity.From start (g i))
    (hg : ∀ i ∈ state.marks, ∀ j ∈ state.marks, g i = g j → i = j) :
    Like (state.rename g) state ↔ state.objects = [] := by
  constructor
  · intro h
    refine List.eq_nil_iff_forall_not_mem.mpr fun i hi => ?_
    have hcopy : g i ∈ (state.rename g).objects := by
      rw [objects_rename]
      exact List.mem_map_of_mem hi
    exact hold (g i) (mem_marks_of_mem_objects (h.objects_subset hcopy))
      (hnew i (mem_marks_of_mem_objects hi))
  · intro h
    have hsame : same (state.rename g) (state.rename id) = same state state :=
      same_rename (by simp [h])
    rw [rename_id] at hsame
    rw [← same_iff_like (well_formed_rename hwf hg) hwf, hsame, same_iff_like hwf hwf]
    exact hstate.like_self

/-- What becomes of a recipe that has run on a copy of the state. When it returns nothing, its
draft is the next state. What it returns is the next state when the draft is like the state, and the
state is a number if it is one at all, and is refused otherwise. A draft that nobody has touched is
like the state unless an object stands in it. -/
theorem copy_on_write_settles (hstate : Stored T state) (hwf : state.wellFormed = true)
    (hold : ∀ i ∈ state.marks, ¬ Identity.From start i) (hcall : recipe.isCallable = true)
    (hcopy : state.copy? start = some (draft, next))
    (hrun : h.edited next recipe draft = .ok (edited, returned))
    (hedited : edited.wellFormed = true) :
    (returned = .null → copyOnWrite h start state recipe = .ok edited) ∧
      (returned ≠ .null →
        (Like edited state ∧ state.isNan = false →
          copyOnWrite h start state recipe = .ok returned) ∧
        (¬ (Like edited state ∧ state.isNan = false) →
          copyOnWrite h start state recipe = .error (.recipeChangedAndReturned returned))) ∧
      (edited = draft → (Like edited state ↔ state.objects = [])) := by
  rw [copy_on_write_eq hcall hcopy hrun]
  refine ⟨?nothing, fun hreturned => ?value, ?untouched⟩
  case nothing =>
    rintro rfl
    rfl
  case value =>
    have hsettle : settle state edited returned = if edited.eq state then .ok returned
        else .error (.recipeChangedAndReturned returned) := by
      unfold settle
      split
      · exact absurd rfl hreturned
      · rfl
    rw [hsettle, ← eq_iff_like hedited hwf]
    exact ⟨fun heq => if_pos heq, fun hne => if_neg hne⟩
  case untouched =>
    rintro rfl
    have hcopiable : state.copiable = true := by
      by_contra hview
      rw [copy_eq_none (by simpa using hview)] at hcopy
      cases hcopy
    obtain ⟨g, next', hdraft, -, hg, hnew⟩ := exists_copy hstate hcopiable start
    obtain ⟨rfl, -⟩ : state.rename g = edited ∧ next' = next := by
      rw [hdraft] at hcopy
      simpa using hcopy
    exact like_draft_iff hstate hwf hold (fun i hi => (hnew i hi).1) hg

/-- A list with one number. -/
def counters : Value :=
  .list (some ⟨0, 0, 0⟩) [.int 1]

/-- A program that puts a value in the first place of its draft and returns a text. -/
def overwrite (v : Value) : Script.Program :=
  ⟨false, [⟨[], .set (.lit (.int 0)) (.lit v)⟩], some (.lit (.text "done"))⟩

theorem stored_counters : Stored (fun _ => counters) counters := by
  refine .intro rfl (fun _ => ⟨_, rfl, rfl⟩) fun w hw => ?_
  obtain rfl := List.mem_singleton.mp hw
  exact .intro rfl (fun h => by cases h) fun w hw => by cases hw

/-- A recipe that puts another number in a list and returns a text is refused. -/
theorem overwritten_number_refused :
    copyOnWrite (Script.host [overwrite (.int 2)]) ⟨1, 0, 0⟩ counters (.callable none none 0 []) =
      .error (.recipeChangedAndReturned (.text "done")) := by
  have hcopy : counters.copy? ⟨1, 0, 0⟩ =
    some (.list (some ⟨1, 0, 0⟩) [.int 1], ⟨1, 0, 1⟩) := rfl
  have hrun : (Script.host [overwrite (.int 2)]).edited ⟨1, 0, 1⟩ (.callable none none 0 [])
        (.list (some ⟨1, 0, 0⟩) [.int 1]) =
      .ok (.list (some ⟨1, 0, 0⟩) [.int 2], .text "done") := by
    with_unfolding_all rfl
  have hold : ∀ i ∈ counters.marks, ¬ Identity.From ⟨1, 0, 0⟩ i := by
    intro i hi hfrom
    have hversion : i.version = 0 := by
      rcases mem_marks.mp hi with hi | ⟨w, hw, hi⟩
      · rw [← Option.some.inj hi]
      · obtain rfl := List.mem_singleton.mp hw
        simp [marks_eq, ownMark, contents] at hi
    exact absurd (hversion.symm.trans hfrom.1) Nat.zero_ne_one
  obtain ⟨-, hreturned, -⟩ :=
    copy_on_write_settles stored_counters rfl hold rfl hcopy hrun (by decide)
  refine (hreturned fun h => by cases h).2 fun hlike => ?_
  have hsame : same (.list (some ⟨1, 0, 0⟩) [.int 2]) counters = false := by decide +kernel
  exact Bool.false_ne_true (hsame.symm.trans ((same_iff_like (by decide) (by decide)).mpr hlike.1))

/-- A recipe that puts a truth value in place of a number and returns a text is not refused, though
it has edited its draft. -/
theorem overwritten_type_accepted : ∃ draft next edited,
    counters.copy? ⟨1, 0, 0⟩ = some (draft, next) ∧
      (Script.host [overwrite (.bool true)]).edited next (.callable none none 0 []) draft =
        .ok (edited, .text "done") ∧
      draft = .list (some ⟨1, 0, 0⟩) [.int 1] ∧ edited = .list (some ⟨1, 0, 0⟩) [.bool true] ∧
      copyOnWrite (Script.host [overwrite (.bool true)]) ⟨1, 0, 0⟩ counters
        (.callable none none 0 []) = .ok (.text "done") := by
  have hcopy : counters.copy? ⟨1, 0, 0⟩ =
    some (.list (some ⟨1, 0, 0⟩) [.int 1], ⟨1, 0, 1⟩) := rfl
  have hrun : (Script.host [overwrite (.bool true)]).edited ⟨1, 0, 1⟩ (.callable none none 0 [])
        (.list (some ⟨1, 0, 0⟩) [.int 1]) =
      .ok (.list (some ⟨1, 0, 0⟩) [.bool true], .text "done") := by
    with_unfolding_all rfl
  refine ⟨_, _, _, hcopy, hrun, rfl, rfl, ?_⟩
  rw [copy_on_write_eq rfl hcopy hrun]
  simp [settle, Value.eq, counters, same, sameList, place?]

end Statechart.Update
