import Mathlib.Algebra.Order.Ring.Int
import Statechart.Call
import Statechart.Proofs.Outcome
import Statechart.Proofs.Value.WellFormed
import Statechart.Script.Eval

/-!
# What scripts do

A program without statements gives the value of its expression on the marked arguments of the call,
and a recipe gives what its statements leave of the draft. Read `call_computing` and
`copy_on_write_editing` first; the lemmas before them are about the values that the scripts of this
library work on: the texts of a list, how many there are of one, and whole numbers.
-/

namespace Statechart

namespace Value

/-! ## Texts -/

/-- How often a text occurs in a list. -/
theorem count_text (m : Mark) (xs : List Value) (s : String) :
    (list m xs).count (.text s) = .ok (.int ((xs.map text?).count (some s))) := by
  have hsame : ∀ x, same x (.text s) = (x.text? == some s) := fun x => by
    rw [same_text_eq, Bool.eq_iff_iff]
    simp
  simp only [count, hsame, List.count, List.countP_map, Function.comp_def]

/-! ## Whole numbers -/

/-- A power of two is positive. -/
theorem two_pow_pos (k : Nat) : (0 : Int) < twoPow k :=
  Int.natCast_pos.mpr (Nat.pow_pos Nat.two_pos)

/-- The places of whole numbers are ordered as the numbers are. -/
theorem place_lt_of_int (i j : Int) :
    Binary64.placeLt (Binary64.placeOfInt i) (Binary64.placeOfInt j) = decide (i < j) := by
  simp only [Binary64.placeLt, Binary64.placeOfInt, Int.mul_lt_mul_right (two_pow_pos 1074),
    lt_self_iff_false, decide_false, beq_self_eq_true, Bool.true_and, Bool.false_or]

/-- Whole numbers at one place are equal. -/
theorem place_of_int_inj {i j : Int} : Binary64.placeOfInt i = Binary64.placeOfInt j ↔ i = j := by
  rw [Binary64.placeOfInt, Binary64.placeOfInt, Prod.mk.injEq, Int.mul_eq_mul_right_iff
    (two_pow_pos 1074).ne']
  exact and_iff_right rfl

/-- The order of whole numbers as values. -/
theorem less_int (i j : Int) : less (.int i) (.int j) = .ok (decide (i < j)) := by
  simp only [less, isNumber, place?, place_lt_of_int, Bool.and_self, if_true]

/-- The order of whole numbers as values, both of which may be the same. -/
theorem less_or_equal_int (i j : Int) : lessOrEqual (.int i) (.int j) = .ok (decide (i ≤ j)) := by
  have hsame : same (.int i) (.int j) = decide (i = j) := by
    rw [Bool.eq_iff_iff, decide_eq_true_eq, ← place_of_int_inj]
    simp [same, place?]
  simp only [lessOrEqual, less_int, ok_bind, pure_eq_ok, eq, hsame, ← Bool.decide_or,
    le_iff_lt_or_eq]

end Value

namespace Script

variable {programs : List Program} {code : Nat} {captured args marked : List Value}
  {start next i : Identity} {m : Mark} {xs : List Value} {draft changed v : Value} {s : Scope}

/-- A call of a program that only computes a value. -/
theorem call_computing {x : Expr} (hcode : programs[code]? = some ⟨false, [], some x⟩)
    (hargs : (Value.markList args).run start = (marked, next))
    (hx : x.eval ⟨marked, marked.head?⟩ = .ok v) :
    (host programs).call start code captured args = .ok (v.mark.run next).1 := by
  simp only [host, hcode, Program.run, runBody, hargs]
  simp [hx]
  rfl

/-! ## Recipes -/

/-- What is made without fail is at hand. -/
theorem lift_ok_bind_making {α β : Type} (a : α) (f : α → Making β) :
    ((liftM (Except.ok a : Except Error α) : Making α) >>= f) = f a := by
  funext next
  rfl

/-- Appending a text to a list. -/
theorem apply_append (t : String) :
    (Edit.append (.lit (.text t))).apply s (.list m xs) =
      pure (Value.list m (xs ++ [.text t])) := rfl

/-- Removing the last member of a list that has one. -/
theorem apply_pop (hxs : xs ≠ []) :
    Edit.pop.apply s (.list m xs) = pure (Value.list m xs.dropLast) := by
  cases xs with
  | nil => exact absurd rfl hxs
  | cons y ys => rfl

/-- A statement of a recipe that edits its draft as a whole. -/
theorem run_body_edit {e : Edit} {rest : List Stmt}
    (hedit : e.apply ⟨captured, some draft⟩ draft = pure changed)
    (hput : draft.edited draft changed = changed) :
    runBody true (⟨[], e⟩ :: rest) ⟨captured, some draft⟩ =
      runBody true rest ⟨captured, some changed⟩ := by
  rw [runBody]
  simp only [require, List.foldlM_nil, lift_ok_bind_making, pure_eq_ok, hedit, pure_bind, hput]
  rfl

/-- A draft that is a list is edited as a whole. -/
theorem edited_list : (Value.list (some i) xs).edited (.list (some i) xs) changed = changed := by
  simp [Value.edited, Value.containerMark, Value.put]

/-- A draft that is a table is edited as a whole. -/
theorem edited_dict {es : Table} :
    (Value.dict (some i) es).edited (.dict (some i) es) changed = changed := by
  simp [Value.edited, Value.containerMark, Value.put]

/-- There is no copy-on-write update of a state that cannot be copied. -/
theorem copy_on_write_of_not_copiable (h : Host) (m : Mark) (name : Option String) {state : Value}
    (hcopy : state.copy? start = none) :
    Update.copyOnWrite h start state (.callable m name code captured) = .error .wrongType := by
  simp [Update.copyOnWrite, Value.isCallable, hcopy]

/-- A copy-on-write update by a recipe that only edits its draft. -/
theorem copy_on_write_editing (m : Mark) (name : Option String) {body : List Stmt}
    {state : Value} (hcode : programs[code]? = some ⟨true, body, none⟩)
    (hcopy : state.copy? start = some (draft, next))
    (hbody : runBody true body ⟨captured, some draft⟩ = pure ⟨captured, some changed⟩) :
    Update.copyOnWrite (host programs) start state (.callable m name code captured) =
      .ok changed := by
  have hedited : (host programs).edit next code captured draft = .ok (changed, .null) := by
    simp only [host, hcode, Program.run, if_true]
    simp [hbody]
  simp [Update.copyOnWrite, Value.isCallable, hcopy, Host.edited, hedited, Update.settle]

end Script

end Statechart
