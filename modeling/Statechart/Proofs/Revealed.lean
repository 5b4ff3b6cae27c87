import Statechart.Proofs.Acceptance
import Statechart.Proofs.Entries
import Statechart.Proofs.Value.Equality

/-!
# Values reveal which nodes are active

The value of a control state is a text or a table, depending on the kinds of the active nodes, and
it leaves out where an atomic child is the only one. Read `mem_revealed` first: reading a value
along the chart gives back the legal configuration that it is the value of. Therefore different
legal configurations have different values, which `value_faithful` says of a machine.
-/

namespace Statechart

namespace Value

/-- What a value shows of the child under a key, if it shows the child at all: a text shows the
child that it names, and a table those under its keys. -/
def branch? (v : Value) (k : String) : Option Value :=
  match v with
  | .text s => if s = k then some .null else none
  | v => v.entries?.bind fun es => Table.getText? es k

@[simp] theorem branch_text (s k : String) :
    (text s).branch? k = if s = k then some .null else none := rfl

@[simp] theorem branch_table (es : List (Value × Value)) (k : String) :
    (newTable es).branch? k = Table.getText? es k := rfl

/-- What a text is the same as is that text. -/
theorem text_same_eq (s : String) (v : Value) : same (.text s) v = decide (v.text? = some s) := by
  rw [Bool.eq_iff_iff, decide_eq_true_eq]
  refine ⟨fun h => ?_, fun h => ?_⟩
  · rw [text_of_same h, text?]
  · rw [eq_text_of_text h, same_text, beq_self_eq_true]

/-- Looking for the like of a text among keys is looking the text up. -/
theorem find_text_eq (ds : List (Value × Value)) (k : String) :
    (ds.find? fun d => same (.text k) d.1).map Prod.snd = Table.getText? ds k := by
  simp only [Table.getText?, Table.get?, text_same_eq, same_text_eq]

/-- What stands under a text stands in every table that has the like of all entries. -/
theorem get_text_of_entries_within {es ds : List (Value × Value)} {k : String} {x : Value}
    (h : entriesWithin es ds = true) (hx : Table.getText? es k = some x) :
    ∃ y, Table.getText? ds k = some y ∧ same x y = true := by
  obtain ⟨e, he, rfl⟩ := Option.map_eq_some_iff.mp hx
  obtain ⟨d, hd, hsame⟩ := entries_within_iff.mp h e (List.mem_of_find?_eq_some he)
  have hkey : e.1 = .text k := text_of_same_text (by simpa using List.find?_some he)
  rw [hkey] at hd
  exact ⟨d.2, by rw [← find_text_eq, hd, Option.map_some], hsame⟩

/-- Equal values show equal things of a child. -/
theorem branch_of_same {v w x : Value} {k : String} (h : same v w = true)
    (hx : v.branch? k = some x) : ∃ y, w.branch? k = some y ∧ same x y = true := by
  have htables : ∀ {es ds}, (es.length == ds.length && entriesWithin es ds) = true →
      Table.getText? es k = some x → ∃ y, Table.getText? ds k = some y ∧ same x y = true :=
    fun h hx => get_text_of_entries_within (Bool.and_eq_true _ _ ▸ h).2 hx
  cases v with
  | text s =>
      obtain rfl := text_of_same h
      obtain ⟨hk, rfl⟩ : s = k ∧ .null = x := by simpa using hx
      exact ⟨.null, by simp [hk], by simp [same]⟩
  | dict m es =>
      cases w with
      | dict n ds => exact htables (by simpa only [same] using h) hx
      | view ds => exact htables (by simpa only [same] using h) hx
      | _ => simp [same, place?] at h
  | view es =>
      cases w with
      | dict n ds => exact htables (by simpa only [same] using h) hx
      | view ds => exact htables (by simpa only [same] using h) hx
      | _ => simp [same, place?] at h
  | _ => simp [branch?, entries?] at hx

end Value

namespace Tree

variable {τ : Type}

mutual

/-- The nodes that a value shows to be active, relative to the node whose value it is. -/
def revealed : Tree (Node τ) → Value → List Path
  | .node _ cs, v => [] :: revealedBelow cs v

/-- The nodes that a value shows to be active at and below children. -/
def revealedBelow : List (String × Tree (Node τ)) → Value → List Path
  | [], _ => []
  | (k, t) :: cs, v =>
      (match v.branch? k with
        | some w => (t.revealed w).map (k :: ·)
        | none => []) ++ revealedBelow cs v

end

variable {a : Node τ} {cs : List (String × Tree (Node τ))} {active : List Path} {A : Set Path}
  {key v : Value}

theorem mem_revealed_below {p : Path} : p ∈ revealedBelow cs v ↔
    ∃ c ∈ cs, ∃ w, v.branch? c.1 = some w ∧ ∃ q ∈ c.2.revealed w, p = c.1 :: q := by
  induction cs with
  | nil => simp [revealedBelow]
  | cons c cs ih =>
      rcases c with ⟨k, t⟩
      cases hbranch : v.branch? k <;> simp [revealedBelow, hbranch, ih, eq_comm]

/-- The root of a chart is active whatever the value. -/
@[simp] theorem nil_mem_revealed (t : Tree (Node τ)) (v : Value) : [] ∈ t.revealed v := by
  cases t; simp [revealed]

/-- The nodes at and below a child are shown by what the value shows of the child. -/
theorem cons_mem_revealed (hwf : (Tree.node a cs).WellFormed) {k : String} {p : Path} :
    k :: p ∈ (Tree.node a cs).revealed v ↔
      ∃ t w, cs.lookup k = some t ∧ v.branch? k = some w ∧ p ∈ t.revealed w := by
  simp only [revealed, List.mem_cons, reduceCtorEq, false_or, mem_revealed_below, List.cons.injEq]
  constructor
  · intro h
    obtain ⟨c, hc, w, hw, q, hq, rfl, rfl⟩ := h
    exact ⟨c.2, w, hwf.lookup.mpr hc, hw, hq⟩
  · intro h
    obtain ⟨t, w, ht, hw, hp⟩ := h
    exact ⟨(k, t), hwf.lookup.mp ht, w, hw, p, hp, rfl, rfl⟩

/-- Equal values show the same nodes. -/
theorem revealed_subset_of_same (t : Tree (Node τ)) {v w : Value} (h : Value.same v w = true) :
    t.revealed v ⊆ t.revealed w := by
  induction t using node_induction generalizing v w with
  | node a cs ih =>
      intro p hp
      simp only [revealed, List.mem_cons, mem_revealed_below] at hp ⊢
      refine hp.imp_right fun hp => ?_
      obtain ⟨c, hc, x, hx, q, hq, rfl⟩ := hp
      obtain ⟨y, hy, hsame⟩ := Value.branch_of_same h hx
      exact ⟨c, hc, y, hy, q, ih c hc hsame hq, rfl⟩

/-! ## What the value of a node is made of -/

/-- An atomic node shows the key that it is given. -/
theorem shown_of_atomic {t : Tree (Node τ)} (ht : t.value.kind = .atomic) (key : Value)
    (active : List Path) : t.shown key active = .ok key := by
  cases t with
  | node a cs => simp [shown, show a.kind = .atomic from ht]

/-- The value of a compound node is made from that of an active child, which is under its key,
unless the child is atomic, when it is the key alone. -/
theorem shown_child_cases (h : shownChild active cs = .ok v) : ∃ k t, (k, t) ∈ cs ∧
    [k] ∈ active ∧ (t.value.kind = .atomic ∧ v = .text k ∨
      ∃ w, t.shown (.text k) (inside k active) = .ok w ∧ v = .newTable [(.text k, w)]) := by
  induction cs with
  | nil => cases h
  | cons c cs ih =>
      rcases c with ⟨k, t⟩
      by_cases hk : [k] ∈ active
      · refine ⟨k, t, List.mem_cons_self, hk, ?_⟩
        simp only [shownChild, List.contains_eq_mem, hk, decide_true, if_true] at h
        split at h
        · rename_i hatomic
          exact Or.inl ⟨hatomic, (Except.ok.inj h).symm⟩
        · obtain ⟨w, hw, h⟩ := bind_eq_ok.mp h
          exact Or.inr ⟨w, hw, (Except.ok.inj h).symm⟩
      · simp only [shownChild, List.contains_eq_mem, hk, decide_false, Bool.false_eq_true,
          if_false] at h
        obtain ⟨l, u, hmem, hu⟩ := ih h
        exact ⟨l, u, List.mem_cons_of_mem _ hmem, hu⟩

/-- An entry of the value of a parallel node stands under the key of a child, with what the child
shows for one key or another that equals itself. -/
def EntryOf (active : List Path) (c : String × Tree (Node τ)) (e : Value × Value) : Prop :=
  e.1 = .text c.1 ∧ ∃ key : Value, Value.same key key = true ∧
    c.2.shown key (inside c.1 active) = .ok e.2

/-- The value of a parallel node has an entry for each child in turn. -/
theorem entries_of_shown_regions {es : List (Value × Value)}
    (h : shownRegions active cs = .ok es) : List.Forall₂ (EntryOf active) cs es := by
  induction cs generalizing es with
  | nil =>
      obtain rfl := Except.ok.inj h
      exact .nil
  | cons c cs ih =>
      rcases c with ⟨k, t⟩
      simp only [shownRegions] at h
      split at h
      · rename_i hatomic
        obtain ⟨v, hv, h⟩ := bind_eq_ok.mp h
        obtain ⟨rest, hrest, h⟩ := bind_eq_ok.mp h
        obtain rfl := Except.ok.inj hv
        obtain rfl := Except.ok.inj h
        have hempty : Value.same (.newTable []) (.newTable []) = true := by
          simp [Value.newTable, Value.same, Value.entriesWithin]
        exact .cons ⟨rfl, .newTable [], hempty, shown_of_atomic hatomic _ _⟩ (ih hrest)
      · obtain ⟨v, hv, h⟩ := bind_eq_ok.mp h
        obtain ⟨rest, hrest, h⟩ := bind_eq_ok.mp h
        obtain rfl := Except.ok.inj h
        exact .cons ⟨rfl, .text k, by simp, hv⟩ (ih hrest)

/-- Each of the entries for different children is found by its key. -/
theorem find_entry {es : List (Value × Value)} (hkeys : (cs.map Prod.fst).Nodup)
    (h : List.Forall₂ (EntryOf active) cs es) :
    ∀ e ∈ es, es.find? (fun d => Value.same e.1 d.1) = some e := by
  induction h with
  | nil => simp
  | @cons c e cs es hfirst hrest ih =>
      obtain ⟨hfresh, hkeys⟩ := List.nodup_cons.mp hkeys
      intro d hd
      rcases List.mem_cons.mp hd with rfl | hd
      · exact List.find?_cons_of_pos (by simp [hfirst.1])
      · obtain ⟨b, hb, hentry⟩ := exists_of_mem_forall₂ hrest hd
        have hne : ¬ b.1 = c.1 := fun heq => hfresh (heq ▸ List.mem_map_of_mem hb)
        rw [List.find?_cons_of_neg (by simp [hfirst.1, hentry.1, hne])]
        exact ih hkeys d hd

/-- The value of a legal configuration shows of each active child what the child itself shows for
one key or another, and nothing of the other children. -/
theorem branch_of_shown (hwf : (Tree.node a cs).WellFormed) (hA : (Tree.node a cs).Legal A)
    (hmem : ∀ p, p ∈ active ↔ p ∈ A) (h : (Tree.node a cs).shown key active = .ok v)
    {k : String} {t : Tree (Node τ)} (hk : cs.lookup k = some t) :
    ([k] ∈ A ∧ ∃ key' w, v.branch? k = some w ∧ t.shown key' (inside k active) = .ok w) ∨
      ([k] ∉ A ∧ v.branch? k = none) := by
  cases hkind : a.kind with
  | atomic => simp [hwf.no_children hkind] at hk
  | compound =>
      obtain ⟨l, u, hl, hactive, hv⟩ := shown_child_cases (by simpa [shown, hkind] using h)
      have hroot : (Tree.node a cs).kind? [] = some .compound := by simp [kind_nil, hkind]
      by_cases hkA : [k] ∈ A
      · obtain rfl : k = l := hA.unique [] hA.root_mem hroot k l hkA ((hmem _).mp hactive)
        obtain rfl : t = u := Option.some.inj (hk.symm.trans (hwf.lookup.mpr hl))
        refine Or.inl ⟨hkA, ?_⟩
        rcases hv with ⟨hatomic, rfl⟩ | ⟨w, hw, rfl⟩
        · exact ⟨.null, .null, by simp, shown_of_atomic hatomic _ _⟩
        · exact ⟨_, w, by simp [Value.get_text_cons, Value.text?], hw⟩
      · have hne : ¬ l = k := fun heq => hkA (heq ▸ (hmem _).mp hactive)
        refine Or.inr ⟨hkA, ?_⟩
        rcases hv with ⟨-, rfl⟩ | ⟨w, -, rfl⟩
        · simp [hne]
        · simp [hne, Table.getText?, Table.get?]
  | parallel =>
      have hroot : (Tree.node a cs).kind? [] = some .parallel := by simp [kind_nil, hkind]
      have hkA : [k] ∈ A := hA.parallel [] hA.root_mem hroot k (by simp [at_cons, hk])
      simp only [shown, hkind] at h
      obtain ⟨es, hes, h⟩ := bind_eq_ok.mp h
      obtain rfl := Except.ok.inj h
      have hentries := entries_of_shown_regions hes
      obtain ⟨e, he, hkey, key', -, hshown⟩ :=
        exists_of_mem_forall₂ hentries.flip (hwf.lookup.mp hk)
      have hfind := find_entry hwf.keys hentries e he
      rw [hkey] at hfind
      exact Or.inl ⟨hkA, key', e.2, by rw [Value.branch_table, ← Value.find_text_eq, hfind]; rfl,
        hshown⟩

/-- The value of a legal configuration shows its nodes. -/
theorem mem_revealed {t : Tree (Node τ)} (hwf : t.WellFormed) (hA : t.Legal A)
    (hmem : ∀ p, p ∈ active ↔ p ∈ A) (h : t.shown key active = .ok v) (p : Path) :
    p ∈ t.revealed v ↔ p ∈ A := by
  induction t using node_induction generalizing A active key v p with
  | node a cs ih =>
      cases p with
      | nil => exact iff_of_true (nil_mem_revealed _ v) hA.root_mem
      | cons k p =>
          rw [cons_mem_revealed hwf]
          cases hk : cs.lookup k with
          | none =>
              have hnot : k :: p ∉ A := fun hp => by simpa [at_cons, hk] using hA.known _ hp
              simp [hnot]
          | some t =>
              rcases branch_of_shown hwf hA hmem h hk with ⟨hkA, key', w, hw, hshown⟩ | ⟨hkA, hw⟩
              · have hchild := ih _ (hwf.lookup.mp hk) (hwf.child hk) (hA.child hk hkA)
                  (fun q => mem_inside.trans (hmem _)) hshown p
                simpa [hw] using hchild
              · have hnot : k :: p ∉ A := fun hp => hkA (hA.prefix_mem hp (by simp))
                simp [hw, hnot]

/-! ## Equal values -/

/-- The value of a node equals itself, unless the node is atomic and the key that it is given does
not. -/
theorem same_self_of_shown {t : Tree (Node τ)} (hwf : t.WellFormed)
    (hkey : t.value.kind = .atomic → Value.same key key = true)
    (h : t.shown key active = .ok v) : Value.same v v = true := by
  induction t using node_induction generalizing active key v with
  | node a cs ih =>
      have hchild : ∀ c ∈ cs, ∀ {key w}, Value.same key key = true →
          c.2.shown key (inside c.1 active) = .ok w → Value.same w w = true :=
        fun c hc _ _ hkey hw => ih c hc (hwf.child (hwf.lookup.mpr hc)) (fun _ => hkey) hw
      cases hkind : a.kind with
      | atomic =>
          obtain rfl : key = v := by simpa [shown, hkind] using h
          exact hkey hkind
      | compound =>
          obtain ⟨k, t, ht, -, hv⟩ := shown_child_cases (by simpa [shown, hkind] using h)
          rcases hv with ⟨-, rfl⟩ | ⟨w, hw, rfl⟩
          · simp
          · have hself := hchild _ ht (by simp) hw
            simp [Value.newTable, Value.same, Value.entriesWithin, hself]
      | parallel =>
          simp only [shown, hkind] at h
          obtain ⟨es, hes, h⟩ := bind_eq_ok.mp h
          obtain rfl := Except.ok.inj h
          have hentries := entries_of_shown_regions hes
          have hwithin : Value.entriesWithin es es = true := by
            rw [Value.entries_within_iff]
            intro e he
            obtain ⟨c, hc, -, key', hkey', hw⟩ := exists_of_mem_forall₂ hentries he
            exact ⟨e, find_entry hwf.keys hentries e he, hchild c hc hkey' hw⟩
          simpa [Value.newTable, Value.same] using hwithin

/-- On its own, too, the value of a node equals itself, unless the node is atomic and the key that
it is given does not. -/
theorem eq_self_of_shown {t : Tree (Node τ)} (hwf : t.WellFormed)
    (hkey : t.value.kind = .atomic → key.eq key = true) (h : t.shown key active = .ok v) :
    v.eq v = true := by
  have hself := same_self_of_shown hwf (fun hatomic => (Value.eq_iff_same.mp (hkey hatomic)).1) h
  cases v with
  | float x =>
      -- Only an atomic node has a number for its value, and that is the key.
      cases t with
      | node a cs =>
          cases hkind : a.kind with
          | atomic =>
              obtain rfl : key = .float x := by simpa [shown, hkind] using h
              exact hkey hkind
          | compound =>
              obtain ⟨k, t, -, -, ⟨-, hv⟩ | ⟨w, -, hv⟩⟩ :=
                shown_child_cases (by simpa [shown, hkind] using h) <;> cases hv
          | parallel =>
              simp only [shown, hkind] at h
              obtain ⟨es, -, h⟩ := bind_eq_ok.mp h
              cases Except.ok.inj h
  | _ => exact hself

end Tree

namespace Machine

variable {m : Machine}

/-- Every legal configuration has a value, from which its nodes can be read. Two of them have the
same value exactly when they have the same nodes, and it does not matter whether values are compared
as they are or by their equality, as long as the name of the machine, which is the value of a
machine with a single node, equals itself. -/
theorem value_faithful {config : Value} (hconfig : config.wellFormed = true)
    (hm : define config = .ok m) {active active' : List Path}
    (hA : m.root.Legal {p | p ∈ active}) (hB : m.root.Legal {p | p ∈ active'}) :
    ∃ v w, m.root.shown m.id active = .ok v ∧ m.root.shown m.id active' = .ok w ∧
      (∀ p, p ∈ m.root.revealed v ↔ p ∈ active) ∧
      (v = w ↔ ∀ p, p ∈ active ↔ p ∈ active') ∧
      ((m.root.value.kind = .atomic → m.id.eq m.id = true) →
        (v.eq w = true ↔ ∀ p, p ∈ active ↔ p ∈ active')) := by
  have hwf := well_formed_of_define hconfig hm
  obtain ⟨v, hv⟩ := hA.toComplete.shown_eq_ok hwf.root (fun _ => Iff.rfl) m.id
  obtain ⟨w, hw⟩ := hB.toComplete.shown_eq_ok hwf.root (fun _ => Iff.rfl) m.id
  have hreadv := Tree.mem_revealed hwf.root hA (fun _ => Iff.rfl) hv
  have hreadw := Tree.mem_revealed hwf.root hB (fun _ => Iff.rfl) hw
  have hunique : (∀ p, p ∈ active ↔ p ∈ active') → v = w := by
    intro hsame
    rw [Tree.shown_congr m.root hsame, hw] at hv
    exact (Except.ok.inj hv).symm
  refine ⟨v, w, hv, hw, hreadv, ⟨fun heq p => ?_, hunique⟩, fun hid => ⟨fun heq p => ?_,
    fun hsame => ?_⟩⟩
  · exact (hreadv p).symm.trans (heq ▸ hreadw p)
  · -- Equal values show the same nodes, and no legal configuration lies inside another.
    have hsub : {p | p ∈ active} ⊆ {p | p ∈ active'} := fun p hp => (hreadw p).mp
      (Tree.revealed_subset_of_same m.root (Value.eq_iff_same.mp heq).1 ((hreadv p).mpr hp))
    exact Set.ext_iff.mp (Tree.Legal.eq_of_subset hwf.root hA.toComplete hB hsub) p
  · rw [← hunique hsame]
    exact Tree.eq_self_of_shown hwf.root hid hv

/-- The values of the player tell a sound that plays, which it does on both channels, from one that
is mute. -/
theorem player_values_differ : ∃ m v w, define playerConfig = .ok m ∧
    m.root.shown m.id (m.root.startAt ["on", "sound", "play"]) = .ok v ∧
    m.root.shown m.id (m.root.startAt ["on"]) = .ok w ∧ v ≠ w ∧ v.eq w = false ∧
    ["on", "sound", "play", "left"] ∈ m.root.revealed v ∧
    ["on", "sound", "play", "right"] ∈ m.root.revealed v := by
  obtain ⟨m, hm, hcheck⟩ := exists_of_any (x := define playerConfig) (P := fun m =>
      (m.root.at? ["on", "sound", "play"]).isSome && m.root.value.kind == .compound &&
        (m.root.startAt ["on", "sound", "play"]).contains ["on", "sound", "play", "left"] &&
        (m.root.startAt ["on", "sound", "play"]).contains ["on", "sound", "play", "right"] &&
        !(m.root.startAt ["on"]).contains ["on", "sound", "play", "right"])
    (by decide +kernel)
  simp only [Bool.and_eq_true, List.contains_eq_mem, decide_eq_true_eq, beq_iff_eq,
    Bool.not_eq_true', decide_eq_false_iff_not] at hcheck
  obtain ⟨⟨⟨⟨hplay, hkind⟩, hleft⟩, hright⟩, hmute⟩ := hcheck
  have hconfig : playerConfig.wellFormed = true := by decide +kernel
  have hwf := well_formed_of_define hconfig hm
  have hon := Tree.at_isSome_above hplay (q := ["on"]) (by simp)
  obtain ⟨v, w, hv, hw, hread, hiff, heq⟩ := value_faithful hconfig hm
    (Tree.legal_start_at hwf.root hplay) (Tree.legal_start_at hwf.root hon)
  have hdiffer : ¬ ∀ p, p ∈ m.root.startAt ["on", "sound", "play"] ↔ p ∈ m.root.startAt ["on"] :=
    fun hsame => hmute ((hsame _).mp hright)
  have hnot : ¬ v.eq w = true := fun h => hdiffer ((heq (by simp [hkind])).mp h)
  exact ⟨m, v, w, hm, hv, hw, fun h => hdiffer (hiff.mp h), Bool.eq_false_iff.mpr hnot,
    (hread _).mpr hleft, (hread _).mpr hright⟩

end Machine

end Statechart
