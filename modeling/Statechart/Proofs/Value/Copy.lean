import Mathlib.Data.List.Basic
import Statechart.Value.Copy

/-!
# What marking and copying keep

Marking a value and copying one keep which members of a list are texts, and what these say. Read
`exists_mark_list` and `exists_copy_list` first. The copy of a value that can be copied can be
copied again, so a state that is copied for every event never stops being one that can.

A copy in the making looks up what has been copied before. What carries the induction is that all of
that are things without a text that can be copied, which is `Copying.Sound`.
-/

namespace Statechart.Value

/-! ## Marks -/

/-- A mark does not change the text of a value. -/
theorem text_mark (v : Value) (next : Identity) : (v.mark.run next).1.text? = v.text? := by
  cases v with
  | float x =>
      show _ = none
      rw [mark]
      split <;> rfl
  | _ => rfl

/-- The marked members of a list have the texts of the members. -/
theorem texts_mark_list (xs : List Value) (next : Identity) :
    ((markList xs).run next).1.map text? = xs.map text? := by
  induction xs generalizing next with
  | nil => rfl
  | cons x xs ih => exact congrArg₂ List.cons (text_mark x next) (ih _)

/-- A marked list is a list with the same texts. -/
theorem exists_mark_list (m : Mark) (xs : List Value) (start : Identity) :
    ∃ m' ys, ((list m xs).mark.run start).1 = .list m' ys ∧ ys.map text? = xs.map text? :=
  ⟨_, _, rfl, texts_mark_list xs _⟩

/-! ## What can be copied -/

theorem all_copiable_eq (xs : List Value) : allCopiable xs = xs.all copiable := by
  induction xs with
  | nil => rfl
  | cons x xs ih => simp [allCopiable, ih]

theorem entries_copiable_eq (es : List (Value × Value)) :
    entriesCopiable es = es.all fun e => e.1.copiable && e.2.copiable := by
  induction es with
  | nil => rfl
  | cons e es ih => simp [entriesCopiable, ih]

theorem fields_copiable_eq (fs : List (String × Value)) :
    fieldsCopiable fs = fs.all fun f => f.2.copiable := by
  induction fs with
  | nil => rfl
  | cons f fs ih => simp [fieldsCopiable, ih]

/-! ## Copies in the making -/

/-- A copy of something with the given text, or without one: it can be copied again. -/
def IsCopy (t : Option String) (w : Value) : Prop :=
  w.copiable = true ∧ w.text? = t

namespace Copying

variable {α β : Type} {P : α → Prop} {Q : β → Prop} {x : StateM Copying α}

/-- What has been copied so far are copies of things without a text. -/
def Sound (c : Copying) : Prop :=
  ∀ e ∈ c.copies, IsCopy none e.2

/-- Whatever has been copied so far, a computation makes something with a property. -/
def Makes (P : α → Prop) (x : StateM Copying α) : Prop :=
  ∀ c : Copying, c.Sound → P (x.run c).1 ∧ (x.run c).2.Sound

theorem Makes.pure {a : α} (ha : P a) : Makes P (pure a) :=
  fun _ hc => ⟨ha, hc⟩

theorem Makes.bind {f : α → StateM Copying β} (hx : Makes P x) (hf : ∀ a, P a → Makes Q (f a)) :
    Makes Q (x >>= f) :=
  fun c hc => hf _ (hx c hc).1 _ (hx c hc).2

/-- Taking a new identity copies nothing. -/
theorem Makes.take {f : Identity → StateM Copying β} (hf : ∀ i, Makes Q (f i)) :
    Makes Q (take >>= f) :=
  fun c hc => hf c.next ⟨c.next.next, c.copies⟩ hc

/-- What has been copied before is not copied again. -/
theorem run_once_of_some {i : Identity} {make : StateM Copying Value} {c : Copying} {w : Value}
    (hfound : c.copies.lookup i = some w) : (once (some i) make).run c = (w, c) := by
  simp [once, hfound]
  rfl

/-- What has not been copied before is copied and remembered. -/
theorem run_once_of_none {i : Identity} {make : StateM Copying Value} {c : Copying}
    (hfound : c.copies.lookup i = none) : (once (some i) make).run c =
      ((make.run c).1,
        { (make.run c).2 with copies := (i, (make.run c).1) :: (make.run c).2.copies }) := by
  simp [once, hfound]
  rfl

/-- A thing without a text that is copied once: its copy is new, or one of those made so far. -/
theorem Makes.once {m : Mark} {make : StateM Copying Value} (hmake : Makes (IsCopy none) make) :
    Makes (IsCopy none) (once m make) := by
  intro c hc
  cases m with
  | none => exact hmake c hc
  | some i =>
      cases hfound : c.copies.lookup i with
      | some v =>
          obtain ⟨before, after, hcopies, -⟩ := List.lookup_eq_some_iff.mp hfound
          rw [run_once_of_some hfound]
          exact ⟨hc (i, v) (by simp [hcopies]), hc⟩
      | none =>
          obtain ⟨hmade, hsound⟩ := hmake c hc
          rw [run_once_of_none hfound]
          exact ⟨hmade, List.forall_mem_cons.mpr ⟨hmade, hsound⟩⟩

end Copying

/-! ## Copies -/

open Copying

mutual

/-- The copy of a value that can be copied is one. -/
theorem makes_copy : ∀ v : Value, v.copiable = true → Makes (IsCopy v.text?) v.copy
  | .list m xs, h => .once <| .take fun _ =>
      .bind (makes_copy_list xs h) fun _ hys => .pure ⟨hys.1, rfl⟩
  | .set m xs, h => .once <| .take fun _ =>
      .bind (makes_copy_list xs h) fun _ hys => .pure ⟨hys.1, rfl⟩
  | .tuple xs, h => .bind (makes_copy_list xs h) fun _ hys => .pure ⟨hys.1, rfl⟩
  | .frozenSet xs, h => .bind (makes_copy_list xs h) fun _ hys => .pure ⟨hys.1, rfl⟩
  | .dict m es, h => .once <| .take fun _ =>
      .bind (makes_copy_entries es h) fun _ hds => .pure ⟨hds, rfl⟩
  | .record name fields, h => .bind (makes_copy_fields fields h) fun _ hfs => .pure ⟨hfs, rfl⟩
  | .object m kind own shared, h => .once <| .take fun _ =>
      .bind (makes_copy_fields own h) fun _ hfs => .pure ⟨hfs, rfl⟩
  | .named name params, h => by
      obtain ⟨hn, hp⟩ := Bool.and_eq_true_iff.mp h
      exact .bind (makes_copy name hn) fun _ hn => .bind (makes_copy params hp) fun _ hp =>
        .pure ⟨Bool.and_eq_true_iff.mpr ⟨hn.1, hp.1⟩, rfl⟩
  | .embedded factory name, h => by
      obtain ⟨hf, hn⟩ := Bool.and_eq_true_iff.mp h
      exact .bind (makes_copy factory hf) fun _ hf => .bind (makes_copy name hn) fun _ hn =>
        .pure ⟨Bool.and_eq_true_iff.mpr ⟨hf.1, hn.1⟩, rfl⟩
  | .result u o, h => by
      obtain ⟨hu, ho⟩ := Bool.and_eq_true_iff.mp h
      exact .bind (makes_copy u hu) fun _ hu => .bind (makes_copy o ho) fun _ ho =>
        .pure ⟨Bool.and_eq_true_iff.mpr ⟨hu.1, ho.1⟩, rfl⟩
  | .state value configuration actions changed, h => by
      obtain ⟨hvc, ha⟩ := Bool.and_eq_true_iff.mp h
      obtain ⟨hv, hc⟩ := Bool.and_eq_true_iff.mp hvc
      exact .bind (makes_copy value hv) fun _ hv => .bind (makes_copy configuration hc) fun _ hc =>
        .bind (makes_copy actions ha) fun _ ha =>
          .pure ⟨Bool.and_eq_true_iff.mpr ⟨Bool.and_eq_true_iff.mpr ⟨hv.1, hc.1⟩, ha.1⟩, rfl⟩
  | .float x, _ => by
      show Makes (IsCopy none) _
      rw [copy]
      split
      · exact .pure ⟨rfl, rfl⟩
      · exact .take fun _ => .pure ⟨rfl, rfl⟩
  | .callable none name code captured, _ => .take fun _ => .pure ⟨rfl, rfl⟩
  | .callable (some i) name code captured, _ => .pure ⟨rfl, rfl⟩
  | .null, _ => .pure ⟨rfl, rfl⟩
  | .bool _, _ => .pure ⟨rfl, rfl⟩
  | .int _, _ => .pure ⟨rfl, rfl⟩
  | .text _, _ => .pure ⟨rfl, rfl⟩
  | .bytes _, _ => .pure ⟨rfl, rfl⟩
  | .builtin _, _ => .pure ⟨rfl, rfl⟩

/-- The copies of values that can be copied can be copied and have the texts of the values. -/
theorem makes_copy_list : ∀ xs : List Value, allCopiable xs = true →
    Makes (fun ys => allCopiable ys = true ∧ ys.map text? = xs.map text?) (copyList xs)
  | [], _ => .pure ⟨rfl, rfl⟩
  | x :: xs, h => by
      obtain ⟨hx, hxs⟩ := Bool.and_eq_true_iff.mp h
      exact .bind (makes_copy x hx) fun y hy => .bind (makes_copy_list xs hxs) fun ys hys =>
        .pure ⟨Bool.and_eq_true_iff.mpr ⟨hy.1, hys.1⟩, congrArg₂ List.cons hy.2 hys.2⟩

/-- The copies of entries that can be copied can be copied. -/
theorem makes_copy_entries : ∀ es : List (Value × Value), entriesCopiable es = true →
    Makes (fun ds => entriesCopiable ds = true) (copyEntries es)
  | [], _ => .pure rfl
  | (k, v) :: es, h => by
      obtain ⟨hkv, hes⟩ := Bool.and_eq_true_iff.mp h
      obtain ⟨hk, hv⟩ := Bool.and_eq_true_iff.mp hkv
      exact .bind (makes_copy k hk) fun _ hk => .bind (makes_copy v hv) fun _ hv =>
        .bind (makes_copy_entries es hes) fun _ hds =>
          .pure (Bool.and_eq_true_iff.mpr ⟨Bool.and_eq_true_iff.mpr ⟨hk.1, hv.1⟩, hds⟩)

/-- The copies of fields that can be copied can be copied. -/
theorem makes_copy_fields : ∀ fs : List (String × Value), fieldsCopiable fs = true →
    Makes (fun gs => fieldsCopiable gs = true) (copyFields fs)
  | [], _ => .pure rfl
  | (_, v) :: fs, h => by
      obtain ⟨hv, hfs⟩ := Bool.and_eq_true_iff.mp h
      exact .bind (makes_copy v hv) fun _ hv => .bind (makes_copy_fields fs hfs) fun _ hgs =>
        .pure (Bool.and_eq_true_iff.mpr ⟨hv.1, hgs⟩)

end

/-- The copy of a list that can be copied is a new list with the same texts that can be copied. -/
theorem exists_copy_list (m : Mark) {xs : List Value} (hxs : allCopiable xs = true)
    (start : Identity) :
    ∃ ys next, (list m xs).copy? start = some (.list (some start) ys, next) ∧
      allCopiable ys = true ∧ ys.map text? = xs.map text? := by
  obtain ⟨hmade, -⟩ := makes_copy_list xs hxs ⟨start.next, []⟩ (by simp [Sound])
  obtain ⟨next, hcopy⟩ : ∃ next, (list m xs).copy? start =
      some (.list (some start) ((copyList xs).run ⟨start.next, []⟩).1, next) := by
    rw [copy?, copiable, hxs]
    cases m with
    | none => exact ⟨_, rfl⟩
    | some i => exact ⟨_, rfl⟩
  exact ⟨_, next, hcopy, hmade⟩

/-- There is no copy of a list that cannot be copied. -/
theorem copy_list_eq_none (m : Mark) {xs : List Value} (hxs : allCopiable xs = false)
    (start : Identity) : (list m xs).copy? start = none := by
  rw [copy?, copiable, hxs]
  rfl

end Statechart.Value
