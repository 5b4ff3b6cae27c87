import Statechart.Proofs.Value.Varied

/-!
# Values up to the order of table entries

`Value.Reordered` relates two values that differ at most in the order in which the entries of their
tables were stored, at any depth. Marks do not count where they are not shown, and binary64 numbers
count by how they are shown. A read-only view is shown in the order of its entries, and so is an
object that shows its attributes: these are only related to themselves.
-/

namespace Statechart.Value

/-- Two values that are the same up to the order of the entries of their tables. -/
inductive Reordered : Value → Value → Prop where
  | same (v : Value) : Reordered v v
  | float {x y : Binary64} (h : x.chars floatFormat = y.chars floatFormat) :
      Reordered (.float x) (.float y)
  | list {m n : Mark} {xs ys : List Value} (h : List.Forall₂ Reordered xs ys) :
      Reordered (.list m xs) (.list n ys)
  | tuple {xs ys : List Value} (h : List.Forall₂ Reordered xs ys) :
      Reordered (.tuple xs) (.tuple ys)
  | set {m n : Mark} {xs ys : List Value} (h : List.Forall₂ Reordered xs ys) :
      Reordered (.set m xs) (.set n ys)
  | frozenSet {xs ys : List Value} (h : List.Forall₂ Reordered xs ys) :
      Reordered (.frozenSet xs) (.frozenSet ys)
  | dict {m n : Mark} {es ds fs : List (Value × Value)} (h : Entrywise Reordered es ds)
      (hperm : ds.Perm fs) : Reordered (.dict m es) (.dict n fs)
  | record {name : String} {fs gs : List (String × Value)} (h : Entrywise Reordered fs gs) :
      Reordered (.record name fs) (.record name gs)
  | named {n n' p p' : Value} (hn : Reordered n n') (hp : Reordered p p') :
      Reordered (.named n p) (.named n' p')
  | embedded {f f' n n' : Value} (hf : Reordered f f') (hn : Reordered n n') :
      Reordered (.embedded f n) (.embedded f' n')
  | result {u u' o o' : Value} (hu : Reordered u u') (ho : Reordered o o') :
      Reordered (.result u o) (.result u' o')
  | state {v v' c c' a a' : Value} {changed : Bool} (hv : Reordered v v') (hc : Reordered c c')
      (ha : Reordered a a') : Reordered (.state v c a changed) (.state v' c' a' changed)
  | object {m n : Mark} {kind : ObjectClass} {own own' shared shared' : List (String × Value)}
      (haddress : kind.showsAddress = true → m = n) (hattributes : kind.showsAttributes = false)
      (hown : Entrywise Reordered own own') (hshared : Entrywise Reordered shared shared') :
      Reordered (.object m kind own shared) (.object n kind own' shared')
  | callable {m n : Mark} {name : Option String} {code : Nat} {captured captured' : List Value}
      (h : List.Forall₂ Reordered captured captured') :
      Reordered (.callable m name code captured) (.callable n name code captured')

/-- The objects of a class that does not show attributes are shown alike when their marks are the
same or not shown. -/
theorem alike_object {m n : Mark} {kind : ObjectClass} {own own' : List (String × Value)}
    (shared shared' : List (String × Value)) (haddress : kind.showsAddress = true → m = n)
    (hattributes : kind.showsAttributes = false) :
    Alike (.object m kind own shared) (.object n kind own' shared') := by
  refine ⟨by simp [hasText, hattributes], ?_⟩
  have htext : display (.object m kind own shared) = display (.object n kind own' shared') :=
    ObjectClass.text_congr (fun h => haddress h ▸ rfl) (by simp [hattributes])
  show Json.Similar (.str (display _)) (.str (display _))
  rw [htext]
  exact .same _

/-- Reordered values differ in what does not count. -/
theorem Reordered.varied {v w : Value} (h : Reordered v w) : Varied Eq List.Perm v w := by
  induction v using members_induction generalizing w with
  | step v ih =>
      have hlist : ∀ {xs ys : List Value}, (∀ x ∈ xs, x ∈ v.members) →
          List.Forall₂ Reordered xs ys → List.Forall₂ (Varied Eq List.Perm) xs ys :=
        fun hxs h => forall₂_imp_of_mem h fun x hx y _ => ih x (hxs x hx)
      have hfields : ∀ {fs gs : List (String × Value)}, (∀ x ∈ fs.map Prod.snd, x ∈ v.members) →
          Entrywise Reordered fs gs → Entrywise (Varied Eq List.Perm) fs gs :=
        fun hfs h => h.imp fun f hf g _ => ih _ (hfs _ (List.mem_map_of_mem hf))
      cases h with
      | same => exact .same _
      | float h =>
          have htrue : true = true := rfl
          exact .leaf ⟨⟨rfl, rfl⟩, ⟨htrue, .float (Binary64.chars_display_iff.mp h)⟩, htrue, htrue,
            htrue⟩
      | list h => exact .sequence (.list _ _) (.list _ _) (hlist (fun _ hx => hx) h)
      | tuple h => exact .sequence (.tuple _) (.tuple _) (hlist (fun _ hx => hx) h)
      | set h => exact .gathering (.set _ _) (.set _ _) (hlist (fun _ hx => hx) h) rfl
      | frozenSet h => exact .gathering (.frozenSet _) (.frozenSet _) (hlist (fun _ hx => hx) h) rfl
      | dict h hperm =>
          exact .dict (forall₂_eq_of_keys h) (hlist (fun _ hx => hx) h.values) hperm
      | record h => exact .filed (.record _ _) (.record _ _) (hfields (fun _ hx => hx) h)
      | named hn hp =>
          refine .filed (.named _ _) (.named _ _) (hfields (fun _ hx => hx) ?_)
          exact .cons hn (.cons hp .nil)
      | embedded hf hn =>
          refine .filed (.embedded _ _) (.embedded _ _) (hfields (fun _ hx => hx) ?_)
          exact .cons hf (.cons hn .nil)
      | result hu ho =>
          exact .sequence (.result _ _) (.result _ _)
            (hlist (fun _ hx => hx) (.cons hu (.cons ho .nil)))
      | state hv hc ha =>
          refine .filed (.state _ _ _ _) (.state _ _ _ _) (hfields (fun _ hx => hx) ?_)
          exact .cons hv (.cons hc (.cons ha (.cons (.same _) .nil)))
      | @object _ _ _ own own' _ _ haddress hattributes hown hshared =>
          have hcopiable : fieldsCopiable own = fieldsCopiable own' := by
            rw [fields_copiable_eq, fields_copiable_eq]
            exact (hfields (fun _ hx => List.mem_append_left _ hx) hown).all_eq
              fun f _ y hfy => hfy.copiable_eq (by simp) (by simp)
          exact .leaf ⟨⟨rfl, rfl⟩, alike_object _ _ haddress hattributes, hcopiable, hcopiable,
            by simp [addressless, hattributes]⟩
      | callable => exact .leaf ⟨⟨rfl, rfl⟩, ⟨rfl, .same _⟩, rfl, rfl, rfl⟩

end Statechart.Value
