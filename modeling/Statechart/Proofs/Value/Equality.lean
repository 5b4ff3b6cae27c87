import Statechart.Proofs.Value.Remarked
import Statechart.Proofs.Value.WellFormed

/-!
# What equality tells apart

Two values are equal when equality sees the same of both: `face` is what it sees at once, and
`same_eq` says that nothing else counts. `Like` relates the values that are not told apart at any
depth: numbers of one size in any type, sets in any order, tables in any order of their entries, and
containers whatever their marks. Read `same_iff_like`: equality as a member of a container is this
relation on well-formed values, where it is symmetric and transitive. A new number that is none, and
a thing without a mark, are not even like themselves.
-/

namespace Statechart.Value

/-! ## What equality sees -/

/-- What equality sees of a value that has no parts. -/
inductive Atom where
  | null
  | number (place : Int × Int)
  | nan (x : Binary64)
  | text (s : String)
  | bytes (bs : List UInt8)
  | object (i : Identity)
  | callable (i : Identity) (code : Nat)
  | builtin (b : Builtin)
deriving DecidableEq

/-- What equality sees of a value with parts in order, apart from them. -/
inductive Form where
  | list
  | tuple
  | record (name : String) (fields : List String)
  | named
  | embedded
  | state (changed : Bool)
deriving DecidableEq

/-- What equality sees of a value: an atom, if the value equals anything at all, or its parts. -/
inductive Face where
  | atom (a : Option Atom)
  | ordered (f : Form) (xs : List Value)
  | unordered (xs : List Value)
  | table (es : Table)

/-- What equality sees of a number: its place, or which of those it is that have none. -/
def floatAtom? (x : Binary64) : Option Atom :=
  match x.place with
  | some p => some (.number p)
  | none => if x.isNamed then some (.nan x) else none

/-- What equality sees of a value. -/
def face : Value → Face
  | .null => .atom (some .null)
  | .bool b => .atom (some (.number (Binary64.placeOfInt b.toInt)))
  | .int i => .atom (some (.number (Binary64.placeOfInt i)))
  | .float x => .atom (floatAtom? x)
  | .text s => .atom (some (.text s))
  | .bytes bs => .atom (some (.bytes bs))
  | .list _ xs => .ordered .list xs
  | .tuple xs => .ordered .tuple xs
  | .set _ xs => .unordered xs
  | .frozenSet xs => .unordered xs
  | .dict _ es => .table es
  | .view es => .table es
  | .record name fields => .ordered (.record name (fields.map Prod.fst)) (fields.map Prod.snd)
  | .named name params => .ordered .named [name, params]
  | .embedded factory name => .ordered .embedded [factory, name]
  | .result u o => .ordered .tuple [u, o]
  | .state value configuration actions changed =>
      .ordered (.state changed) [value, configuration, actions]
  | .object m .. => .atom (m.map .object)
  | .callable m _ code _ => .atom (m.map fun i => .callable i code)
  | .builtin b => .atom (some (.builtin b))

/-- Equality of what is seen. -/
def sameFaces : Face → Face → Bool
  | .atom a, .atom b => a.isSome && a == b
  | .ordered f xs, .ordered g ys => f == g && sameList xs ys
  | .unordered xs, .unordered ys => xs.length == ys.length && within xs ys
  | .table es, .table ds => es.length == ds.length && entriesWithin es ds
  | _, _ => false

theorem same_fields_eq (fs gs : List (String × Value)) : sameFields fs gs =
    (decide (fs.map Prod.fst = gs.map Prod.fst) &&
      sameList (fs.map Prod.snd) (gs.map Prod.snd)) := by
  induction fs generalizing gs with
  | nil => cases gs <;> simp [sameFields, sameList]
  | cons f fs ih =>
      rcases f with ⟨n, x⟩
      cases gs with
      | nil => simp [sameFields]
      | cons g gs =>
          rcases g with ⟨m, y⟩
          rw [Bool.eq_iff_iff]
          simp only [sameFields, ih, List.map_cons, sameList, List.cons.injEq, Bool.and_eq_true,
            beq_iff_eq, decide_eq_true_eq]
          tauto

theorem same_tuple_result (xs : List Value) (u o : Value) :
    same (.tuple xs) (.result u o) = sameList xs [u, o] := by
  rcases xs with _ | ⟨x, _ | ⟨y, _ | ⟨z, zs⟩⟩⟩ <;> simp [same, sameList, place?]

theorem same_result_tuple (u o : Value) (xs : List Value) :
    same (.result u o) (.tuple xs) = sameList [u, o] xs := by
  rcases xs with _ | ⟨x, _ | ⟨y, _ | ⟨z, zs⟩⟩⟩ <;> simp [same, sameList, place?]

/-- Values are equal when what is seen of them is. -/
theorem same_eq (v w : Value) : same v w = sameFaces v.face w.face := by
  cases v <;> cases w
  case record.record =>
      rw [Bool.eq_iff_iff]
      simp only [same, face, sameFaces, same_fields_eq, Bool.and_eq_true, beq_iff_eq,
        decide_eq_true_eq, Form.record.injEq, and_assoc]
  case state.state =>
      rw [Bool.eq_iff_iff]
      simp only [same, face, sameFaces, sameList, Bool.and_eq_true, beq_iff_eq, Bool.and_true,
        Form.state.injEq]
      tauto
  -- Of the others, those that are not of one kind are told apart at once.
  all_goals first
    | simp [same, face, sameFaces, place?, sameList, same_tuple_result, same_result_tuple]; done
    | simp only [same, face, sameFaces, place?, floatAtom?, sameMark, Option.map]; grind

/-! ## The parts that are compared -/

/-- The values that equality compares with those of another value. -/
def Face.parts : Face → List Value
  | .atom _ => []
  | .ordered _ xs => xs
  | .unordered xs => xs
  | .table es => es.flatMap fun e => [e.1, e.2]

variable {u v w : Value}

theorem Face.key_mem_parts {es : Table} {e : Value × Value} (h : e ∈ es) :
    e.1 ∈ (Face.table es).parts :=
  List.mem_flatMap.mpr ⟨e, h, by simp⟩

theorem Face.value_mem_parts {es : Table} {e : Value × Value} (h : e ∈ es) :
    e.2 ∈ (Face.table es).parts :=
  List.mem_flatMap.mpr ⟨e, h, by simp⟩

/-- An object is compared as a whole, and of any other value those inside it are. -/
theorem mem_contents_of_mem_parts (h : w ∈ v.face.parts) : w ∈ v.contents := by
  cases v with
  | _ => first | exact h | cases h

theorem size_of_lt_of_mem_parts (h : w ∈ v.face.parts) : sizeOf w < sizeOf v :=
  size_of_lt_of_mem_contents (mem_contents_of_mem_parts h)

/-- Members that stand for the same elements, or keys that do, are different in a well-formed
value. -/
def Face.Distinct : Face → Prop
  | .unordered xs => allDistinct xs = true
  | .table es => allDistinct (es.map Prod.fst) = true
  | _ => True

/-- The values that a class or a callable holds. -/
def hidden : Value → List Value
  | .object _ _ _ shared => shared.map Prod.snd
  | .callable _ _ _ captured => captured
  | _ => []

/-- A value is well-formed when it compares different elements and different keys, and the values
inside it are well-formed, which goes for what classes and callables hold as well. -/
theorem well_formed_iff : v.wellFormed = true ↔ v.face.Distinct ∧
    (∀ w ∈ v.contents, w.wellFormed = true) ∧ ∀ w ∈ v.hidden, w.wellFormed = true := by
  cases v <;> simp only [wellFormed, face, Face.Distinct, contents, hidden, all_well_formed_iff,
    entries_well_formed_iff, fields_well_formed_iff, List.forall_mem_flatMap, Bool.and_eq_true,
    List.forall_mem_map] <;> simp [and_assoc]

/-- A well-formed value compares different elements and different keys. -/
theorem distinct_face (h : v.wellFormed = true) : v.face.Distinct :=
  (well_formed_iff.mp h).1

/-- The values inside a well-formed value are well-formed. -/
theorem well_formed_of_mem_contents (h : v.wellFormed = true) (hw : w ∈ v.contents) :
    w.wellFormed = true :=
  (well_formed_iff.mp h).2.1 w hw

theorem pairwise_of_all_distinct {xs : List Value} (h : allDistinct xs = true) :
    xs.Pairwise fun x y => ¬ same x y = true := by
  induction xs with
  | nil => exact .nil
  | cons x xs ih =>
      obtain ⟨hx, hxs⟩ := Bool.and_eq_true_iff.mp h
      exact .cons (by simpa using hx) (ih hxs)

/-! ## Values that are not told apart -/

/-- What is seen of two values is alike when their parts are. -/
inductive Face.Alike (R : Value → Value → Prop) : Face → Face → Prop where
  | atom (a : Atom) : Alike R (.atom (some a)) (.atom (some a))
  | ordered (f : Form) {xs ys : List Value} (h : List.Forall₂ R xs ys) :
      Alike R (.ordered f xs) (.ordered f ys)
  | unordered {xs ys : List Value} (hlen : xs.length = ys.length)
      (h : ∀ x ∈ xs, ∃ y ∈ ys, R x y) : Alike R (.unordered xs) (.unordered ys)
  | table {es ds : Table} (hlen : es.length = ds.length)
      (h : ∀ e ∈ es, ∃ d ∈ ds, R e.1 d.1 ∧ R e.2 d.2) : Alike R (.table es) (.table ds)

theorem Face.Alike.imp {R S : Value → Value → Prop} {a b : Face} (h : Alike R a b)
    (hRS : ∀ x ∈ a.parts, ∀ y ∈ b.parts, R x y → S x y) : Alike S a b := by
  cases h with
  | atom a => exact .atom a
  | ordered f h => exact .ordered f (forall₂_imp_of_mem h hRS)
  | unordered hlen h =>
      refine .unordered hlen fun x hx => ?_
      obtain ⟨y, hy, hxy⟩ := h x hx
      exact ⟨y, hy, hRS x hx y hy hxy⟩
  | table hlen h =>
      refine .table hlen fun e he => ?_
      obtain ⟨d, hd, hkey, hvalue⟩ := h e he
      exact ⟨d, hd, hRS _ (Face.key_mem_parts he) _ (Face.key_mem_parts hd) hkey,
        hRS _ (Face.value_mem_parts he) _ (Face.value_mem_parts hd) hvalue⟩

/-- Two values that are not told apart at any depth. The bound on the parts, which all of them keep,
is why this is a definition. -/
def Like (v w : Value) : Prop :=
  Face.Alike (fun x y => ∃ _ : sizeOf x < sizeOf v, Like x y) v.face w.face
termination_by sizeOf v

/-- Values are alike when their parts are. -/
theorem like_iff : Like v w ↔ Face.Alike Like v.face w.face := by
  rw [Like]
  exact ⟨fun h => h.imp fun x _ y _ ⟨_, hxy⟩ => hxy,
    fun h => h.imp fun x hx y _ hxy => ⟨size_of_lt_of_mem_parts hx, hxy⟩⟩

/-- What is like a value is like all that this is like. -/
theorem Like.trans (h : Like u v) (h' : Like v w) : Like u w := by
  induction u using contents_induction generalizing v w with
  | step u ih =>
      have ih : ∀ x ∈ u.face.parts, ∀ y z : Value, Like x y → Like y z → Like x z :=
        fun x hx y z => ih x (mem_contents_of_mem_parts hx)
      rw [like_iff] at h h' ⊢
      generalize u.face = a, v.face = b, w.face = c at h h' ih
      cases h with
      | atom a => exact h'
      | ordered f h =>
          cases h' with
          | ordered _ h' => exact .ordered f (forall₂_trans_of_mem h h' ih)
      | unordered hlen h =>
          cases h' with
          | unordered hlen' h' =>
              refine .unordered (hlen.trans hlen') fun x hx => ?_
              obtain ⟨y, hy, hxy⟩ := h x hx
              obtain ⟨z, hz, hyz⟩ := h' y hy
              exact ⟨z, hz, ih x hx y z hxy hyz⟩
      | table hlen h =>
          cases h' with
          | table hlen' h' =>
              refine .table (hlen.trans hlen') fun e he => ?_
              obtain ⟨d, hd, hkey, hvalue⟩ := h e he
              obtain ⟨c, hc, hkey', hvalue'⟩ := h' d hd
              exact ⟨c, hc, ih _ (Face.key_mem_parts he) _ _ hkey hkey',
                ih _ (Face.value_mem_parts he) _ _ hvalue hvalue'⟩

/-! ## Equality is being alike -/

theorem same_list_iff {xs ys : List Value} :
    sameList xs ys = true ↔ List.Forall₂ (fun x y => same x y = true) xs ys := by
  induction xs generalizing ys with
  | nil => cases ys <;> simp [sameList]
  | cons x xs ih => cases ys <;> simp [sameList, ih]

theorem within_iff {xs ys : List Value} :
    within xs ys = true ↔ ∀ x ∈ xs, ∃ y ∈ ys, same x y = true := by
  induction xs with
  | nil => simp [within]
  | cons x xs ih => simp [within, ih]

/-- Entries stand in a table when each of them has its like there. -/
theorem entries_within_iff {es ds : List (Value × Value)} :
    entriesWithin es ds = true ↔
      ∀ e ∈ es, ∃ d, ds.find? (fun d => same e.1 d.1) = some d ∧ same e.2 d.2 = true := by
  induction es with
  | nil => simp [entriesWithin]
  | cons e es ih =>
      rcases e with ⟨k, v⟩
      rw [entriesWithin, Bool.and_eq_true, ih, List.forall_mem_cons]
      refine and_congr_left fun _ => ?_
      cases ds.find? (fun d => same k d.1) <;> simp

/-- Whether equality is being alike among some values, and goes both ways there. -/
def Told (P : Value → Prop) : Prop :=
  ∀ v w, P v → P w → (same v w = true ↔ Like v w) ∧ (Like v w → Like w v)

section Told

variable {P : Value → Prop} {a b : Face}

/-- Members that differ are not like one and the same value. -/
theorem Told.pairwise {xs : List Value} (hP : Told P) (hxs : ∀ x ∈ xs, P x)
    (hdistinct : allDistinct xs = true) :
    xs.Pairwise fun x x' => ∀ y, P y → Like x y → ¬ Like x' y :=
  (pairwise_of_all_distinct hdistinct).imp_of_mem fun {x x'} hx hx' hne y hy hxy hx'y =>
    hne (((hP x x' (hxs x hx) (hxs x' hx')).1).mpr
      (hxy.trans ((hP x' y (hxs x' hx') hy).2 hx'y)))

/-- Entries of a table whose keys are alike are one. -/
theorem Told.entry_eq {es : Table} {e d : Value × Value} (hP : Told P)
    (hes : ∀ x ∈ (Face.table es).parts, P x) (hdistinct : (Face.table es).Distinct) (he : e ∈ es)
    (hd : d ∈ es) (hed : Like e.1 d.1) (hde : Like d.1 e.1) : e = d := by
  have hkeys := (hP e.1 d.1 (hes _ (Face.key_mem_parts he)) (hes _ (Face.key_mem_parts hd))).1
  have hkeys' := (hP d.1 e.1 (hes _ (Face.key_mem_parts hd)) (hes _ (Face.key_mem_parts he))).1
  exact eq_of_pairwise_not (List.pairwise_map.mp (pairwise_of_all_distinct hdistinct)) he hd
    (hkeys.mpr hed) (hkeys'.mpr hde)

/-- Where equality of the parts is being alike, equality is. -/
theorem Told.same_faces_iff (hP : Told P) (ha : ∀ x ∈ a.parts, P x) (hb : ∀ y ∈ b.parts, P y)
    (hdistinct : b.Distinct) : sameFaces a b = true ↔ Face.Alike Like a b := by
  have hsame : ∀ x ∈ a.parts, ∀ y ∈ b.parts, (same x y = true ↔ Like x y) :=
    fun x hx y hy => (hP x y (ha x hx) (hb y hy)).1
  constructor
  · intro h
    refine Face.Alike.imp (R := fun x y => same x y = true) ?_ fun x hx y hy => (hsame x hx y hy).mp
    cases a <;> cases b
    case atom.atom a b =>
      obtain ⟨hsome, rfl⟩ : a.isSome = true ∧ a = b := by simpa [sameFaces] using h
      obtain ⟨a, rfl⟩ := Option.isSome_iff_exists.mp hsome
      exact .atom a
    case ordered.ordered f xs g ys =>
      obtain ⟨rfl, hs⟩ : f = g ∧ sameList xs ys = true := by simpa [sameFaces] using h
      exact .ordered f (same_list_iff.mp hs)
    case unordered.unordered xs ys =>
      obtain ⟨hlen, hs⟩ : xs.length = ys.length ∧ within xs ys = true := by
        simpa [sameFaces] using h
      exact .unordered hlen (within_iff.mp hs)
    case table.table es ds =>
      obtain ⟨hlen, hs⟩ : es.length = ds.length ∧ entriesWithin es ds = true := by
        simpa [sameFaces] using h
      refine .table hlen fun e he => ?_
      obtain ⟨d, hd, hvalue⟩ := entries_within_iff.mp hs e he
      exact ⟨d, List.mem_of_find?_eq_some hd, by simpa using List.find?_some hd, hvalue⟩
    all_goals simp [sameFaces] at h
  · intro h
    cases h with
    | atom a => simp [sameFaces]
    | ordered f h =>
        simp [sameFaces, same_list_iff, forall₂_imp_of_mem h fun x hx y hy => (hsame x hx y hy).mpr]
    | unordered hlen h =>
        simp only [sameFaces, hlen, beq_self_eq_true, Bool.true_and, within_iff]
        intro x hx
        obtain ⟨y, hy, hxy⟩ := h x hx
        exact ⟨y, hy, (hsame x hx y hy).mpr hxy⟩
    | @table es ds hlen h =>
        simp only [sameFaces, hlen, beq_self_eq_true, Bool.true_and, entries_within_iff]
        intro e he
        obtain ⟨d, hd, hkey, hvalue⟩ := h e he
        have hsame_key : same e.1 d.1 = true :=
          (hsame _ (Face.key_mem_parts he) _ (Face.key_mem_parts hd)).mpr hkey
        obtain ⟨d', hd'⟩ : ∃ d', (ds.find? fun d => same e.1 d.1) = some d' :=
          Option.isSome_iff_exists.mp (List.find?_isSome.mpr ⟨d, hd, hsame_key⟩)
        -- The first key that is found is like the one that is there, so it is that one.
        have hmem := List.mem_of_find?_eq_some hd'
        have hkey' : Like e.1 d'.1 :=
          (hsame _ (Face.key_mem_parts he) _ (Face.key_mem_parts hmem)).mp
            (by simpa using List.find?_some hd')
        have hback : ∀ d ∈ ds, Like e.1 d.1 → Like d.1 e.1 := fun d hd =>
          (hP _ _ (ha _ (Face.key_mem_parts he)) (hb _ (Face.key_mem_parts hd))).2
        obtain rfl : d' = d := hP.entry_eq hb hdistinct hmem hd
          ((hback d' hmem hkey').trans hkey) ((hback d hd hkey).trans hkey')
        exact ⟨d', hd', (hsame _ (Face.value_mem_parts he) _ (Face.value_mem_parts hd)).mpr hvalue⟩

/-- Where being alike goes both ways for the parts, it does so for the values. -/
theorem Told.alike_symm (hP : Told P) (ha : ∀ x ∈ a.parts, P x) (hb : ∀ y ∈ b.parts, P y)
    (hdistinct : a.Distinct) (h : Face.Alike Like a b) : Face.Alike Like b a := by
  have hsymm : ∀ x ∈ a.parts, ∀ y ∈ b.parts, Like x y → Like y x :=
    fun x hx y hy => (hP x y (ha x hx) (hb y hy)).2
  cases h with
  | atom a => exact .atom a
  | ordered f h =>
      exact .ordered f (forall₂_imp_of_mem h.flip fun y hy x hx => hsymm x hx y hy)
  | @unordered xs ys hlen h =>
      have hback := exists_of_mem_of_length_eq (R := fun x y => P y ∧ Like x y) hlen
        (fun x hx => (h x hx).imp fun y ⟨hy, hxy⟩ => ⟨hy, hb y hy, hxy⟩)
        ((hP.pairwise ha hdistinct).imp fun {x x'} hne y hxy hx'y => hne y hxy.1 hxy.2 hx'y.2)
      refine .unordered hlen.symm fun y hy => ?_
      obtain ⟨x, hx, -, hxy⟩ := hback y hy
      exact ⟨x, hx, hsymm x hx y hy hxy⟩
  | @table es ds hlen h =>
      have hkeys : ∀ k ∈ es.map Prod.fst, P k := by
        intro k hk
        obtain ⟨e, he, rfl⟩ := List.mem_map.mp hk
        exact ha _ (Face.key_mem_parts he)
      have hback := exists_of_mem_of_length_eq
        (R := fun e d => P d.1 ∧ Like e.1 d.1 ∧ Like e.2 d.2) hlen
        (fun e he => (h e he).imp fun d ⟨hd, hed⟩ => ⟨hd, hb _ (Face.key_mem_parts hd), hed⟩)
        ((List.pairwise_map.mp (hP.pairwise hkeys hdistinct)).imp
          fun {e e'} hne d hed he'd => hne d.1 hed.1 hed.2.1 he'd.2.1)
      refine .table hlen.symm fun d hd => ?_
      obtain ⟨e, he, -, hkey, hvalue⟩ := hback d hd
      exact ⟨e, he, hsymm _ (Face.key_mem_parts he) _ (Face.key_mem_parts hd) hkey,
        hsymm _ (Face.value_mem_parts he) _ (Face.value_mem_parts hd) hvalue⟩

end Told

/-- Equality of well-formed values up to a size is being alike. -/
theorem told_of_size_lt (n : Nat) : Told fun v => v.wellFormed = true ∧ sizeOf v < n := by
  induction n with
  | zero => exact fun v w hv => absurd hv.2 (Nat.not_lt_zero _)
  | succ n ih =>
      intro v w ⟨hv, hsv⟩ ⟨hw, hsw⟩
      have hparts : ∀ {u : Value}, u.wellFormed = true → sizeOf u < n + 1 →
          ∀ x ∈ u.face.parts, x.wellFormed = true ∧ sizeOf x < n := by
        intro u hu hsu x hx
        have hlt := size_of_lt_of_mem_parts hx
        exact ⟨well_formed_of_mem_contents hu (mem_contents_of_mem_parts hx), by omega⟩
      rw [same_eq, like_iff, like_iff]
      exact ⟨ih.same_faces_iff (hparts hv hsv) (hparts hw hsw) (distinct_face hw),
        ih.alike_symm (hparts hv hsv) (hparts hw hsw) (distinct_face hv)⟩

/-- Well-formed values are the same as members of a container when they are alike. -/
theorem same_iff_like (hv : v.wellFormed = true) (hw : w.wellFormed = true) :
    same v w = true ↔ Like v w :=
  (told_of_size_lt (sizeOf v + sizeOf w + 1) v w ⟨hv, by omega⟩ ⟨hw, by omega⟩).1

/-- Whether a value is a number without a place among the others. -/
def isNan : Value → Bool
  | .float x => x.place.isNone
  | _ => false

/-- Values that are equal on their own are equal as members of a container, and not-a-number is the
one that is only the latter. -/
theorem eq_iff_same : v.eq w = true ↔ same v w = true ∧ w.isNan = false := by
  unfold eq
  split
  case h_1 x y =>
    simp only [same, isNan, Bool.and_eq_true, Bool.or_eq_true, beq_iff_eq,
      Option.isSome_iff_ne_none, Option.isNone_eq_false_iff, ne_eq]
    grind
  case h_2 hfloats =>
    refine ⟨fun h => ⟨h, ?_⟩, And.left⟩
    cases w with
    | float y =>
        cases v with
        | float x => exact (hfloats x y rfl rfl).elim
        | bool b =>
            have hplace : some (Binary64.placeOfInt b.toInt) = y.place := by
              simpa [same, place?] using h
            simp [isNan, ← hplace]
        | int i =>
            have hplace : some (Binary64.placeOfInt i) = y.place := by
              simpa [same, place?] using h
            simp [isNan, ← hplace]
        | _ => simp [same, place?] at h
    | _ => rfl

/-- Well-formed values are equal on their own when they are alike and numbers. -/
theorem eq_iff_like (hv : v.wellFormed = true) (hw : w.wellFormed = true) :
    v.eq w = true ↔ Like v w ∧ w.isNan = false := by
  rw [eq_iff_same, same_iff_like hv hw]

end Statechart.Value
