import Statechart.Proofs.Acceptance

/-!
# Leaves and the transitions that they bring

Every active atomic node, a leaf, brings a transition: the first enabled one of the nearest node on
its way to the root that has one. Read `Brings` and `select_settles` first: what is selected was
brought by leaves, no two of the selected transitions meet, and what a leaf brings is selected
unless it would exit a node that a transition of an earlier leaf exits. The step is
`Selection.Fair.step`, one leaf, and the run is `Selection.Fair.select_from`.
-/

namespace Statechart

namespace Tree

variable {root : Chart} {enabled : Transition → Except Error Bool} {type : String}
  {active : List Path} {leaf p : Path} {t u : Transition}

/-! ## The first enabled candidate -/

/-- What a search finds is enabled, and no candidate before it is. -/
theorem first_enabled_iff {ts : List Transition} :
    firstEnabled enabled ts = .ok (some t) ↔ ∃ before after, ts = before ++ t :: after ∧
      (∀ u ∈ before, enabled u = .ok false) ∧ enabled t = .ok true := by
  induction ts with
  | nil => simp [firstEnabled]
  | cons v ts ih =>
      constructor
      · intro h
        obtain ⟨b, hb, h⟩ := bind_eq_ok.mp h
        cases b with
        | true =>
            obtain rfl : v = t := by simpa using h
            exact ⟨[], ts, rfl, by simp, hb⟩
        | false =>
            obtain ⟨before, after, rfl, hbefore, ht⟩ := ih.mp h
            exact ⟨v :: before, after, rfl, List.forall_mem_cons.mpr ⟨hb, hbefore⟩, ht⟩
      · intro h
        obtain ⟨before, after, hsplit, hbefore, ht⟩ := h
        cases before with
        | nil =>
            obtain ⟨rfl, rfl⟩ := List.cons.inj hsplit
            simp [firstEnabled, ht]
        | cons w before =>
            obtain ⟨rfl, rfl⟩ := List.cons.inj hsplit
            obtain ⟨hw, hbefore⟩ := List.forall_mem_cons.mp hbefore
            simpa [firstEnabled, hw] using ih.mpr ⟨before, after, rfl, hbefore, ht⟩

/-- A leaf brings a transition: the first enabled one, in the order declared, of the nearest node on
the way to the root that has an enabled one. -/
inductive Brings (root : Chart) (enabled : Transition → Except Error Bool) (type : String)
    (leaf : Path) : Transition → Prop where
  | intro {p : Path} {before after : List Transition} {t : Transition}
      (above : p <+: leaf)
      (declared : root.declared type p = before ++ t :: after)
      (first : ∀ u ∈ before, enabled u = .ok false)
      (on : enabled t = .ok true)
      (nearest : ∀ q : Path, q <+: leaf → q.isBelow p = true →
        ∀ u ∈ root.declared type q, enabled u = .ok false) : Brings root enabled type leaf t

/-- Searching the candidates of several nodes in turn finds the first enabled one of the first node
that has one. -/
theorem first_enabled_flat_map {ps : List Path} {f : Path → List Transition} :
    firstEnabled enabled (ps.flatMap f) = .ok (some t) ↔ ∃ nearer p farther,
      ps = nearer ++ p :: farther ∧ firstEnabled enabled (f p) = .ok (some t) ∧
        ∀ q ∈ nearer, ∀ u ∈ f q, enabled u = .ok false := by
  simp only [first_enabled_iff]
  constructor
  · intro h
    obtain ⟨before, after, hsplit, hbefore, ht⟩ := h
    induction ps generalizing before with
    | nil => simp at hsplit
    | cons p ps ih =>
        rw [List.flatMap_cons] at hsplit
        rcases List.append_eq_append_iff.mp hsplit with ⟨rest, rfl, hlater⟩ | ⟨rest, hp, hrest⟩
        · -- The transition is a candidate of a later node.
          obtain ⟨hfirst, hbefore⟩ := List.forall_mem_append.mp hbefore
          obtain ⟨nearer, q, farther, rfl, hq, hnearer⟩ := ih rest hlater hbefore
          exact ⟨p :: nearer, q, farther, rfl, hq, List.forall_mem_cons.mpr ⟨hfirst, hnearer⟩⟩
        · cases rest with
          | nil =>
              obtain ⟨nearer, q, farther, rfl, hq, hnearer⟩ :=
                ih [] (by simpa using hrest.symm) (by simp)
              have hall : ∀ u ∈ f p, enabled u = .ok false := by simpa [hp] using hbefore
              exact ⟨p :: nearer, q, farther, rfl, hq, List.forall_mem_cons.mpr ⟨hall, hnearer⟩⟩
          | cons v rest =>
              obtain ⟨rfl, -⟩ := List.cons.inj hrest
              exact ⟨[], p, ps, rfl, ⟨before, rest, hp, hbefore, ht⟩, by simp⟩
  · intro h
    obtain ⟨nearer, p, farther, rfl, ⟨before, after, hp, hbefore, ht⟩, hnearer⟩ := h
    refine ⟨nearer.flatMap f ++ before, after ++ farther.flatMap f, by simp [hp], ?_, ht⟩
    intro u hu
    rcases List.mem_append.mp hu with hu | hu
    · obtain ⟨q, hq, hu⟩ := List.mem_flatMap.mp hu
      exact hnearer q hq u hu
    · exact hbefore u hu

/-- The search from a leaf to the root finds what the leaf brings. -/
theorem brings_iff : root.Brings enabled type leaf t ↔
    firstEnabled enabled (root.candidatesFrom type leaf) = .ok (some t) := by
  have hchain : ∀ {q}, q ∈ leaf :: leaf.ancestors ↔ q <+: leaf := Path.mem_self_or_ancestors
  rw [candidatesFrom, first_enabled_flat_map]
  constructor
  · intro h
    cases h with
    | @intro p before after t above declared first on nearest =>
        obtain ⟨nearer, farther, hsplit⟩ := List.append_of_mem (hchain.mpr above)
        have hordered := hsplit ▸ Path.pairwise_self_ancestors leaf
        refine ⟨nearer, p, farther, hsplit, first_enabled_iff.mpr
          ⟨before, after, declared, first, on⟩, fun q hq u hu => nearest q ?_ ?_ u hu⟩
        · exact hchain.mp (hsplit ▸ List.mem_append_left _ hq)
        · exact (List.pairwise_append.mp hordered).2.2 q hq p List.mem_cons_self
  · intro h
    obtain ⟨nearer, p, farther, hsplit, hp, hnearer⟩ := h
    obtain ⟨before, after, declared, first, on⟩ := first_enabled_iff.mp hp
    have hordered := hsplit ▸ Path.pairwise_self_ancestors leaf
    refine .intro (hchain.mp (by simp [hsplit])) declared first on fun q hq hbelow u hu => ?_
    -- What is on the way and below `p` comes before it.
    have hmem : q ∈ nearer ++ p :: farther := hsplit ▸ hchain.mpr hq
    rcases List.mem_append.mp hmem with hq | hq
    · exact hnearer q hq u hu
    · rcases List.mem_cons.mp hq with rfl | hq
      · simp at hbelow
      · have habove : p.isBelow q = true :=
          List.rel_of_pairwise_cons (List.pairwise_append.mp hordered).2.1 hq
        have hself := Path.is_below_trans hbelow (Path.is_below_iff_ne.mp habove).1
        simp at hself

/-- Leaves that bring transitions of one source bring the same one. -/
theorem Brings.eq_of_source (hsource : ∀ p, ∀ t ∈ root.declared type p, t.source = p)
    {leaf' : Path} (ht : root.Brings enabled type leaf t) (hu : root.Brings enabled type leaf' u)
    (h : t.source = u.source) : t = u := by
  have hfound : ∀ {leaf t}, root.Brings enabled type leaf t →
      firstEnabled enabled (root.declared type t.source) = .ok (some t) := by
    intro leaf t ht
    cases ht with
    | @intro p before after t above declared first on nearest =>
        have hp : t.source = p := hsource p t (by simp [declared])
        rw [hp]
        exact first_enabled_iff.mpr ⟨before, after, declared, first, on⟩
  have hsame := (hfound ht).symm.trans (h ▸ hfound hu)
  simpa using hsame

/-! ## Going through the leaves -/

/-- What a leaf brings is settled by the leaves before it: it is taken, or it would exit a node that
is exited by a transition that is taken and that one of those leaves brings. -/
def Settled (root : Chart) (enabled : Transition → Except Error Bool) (type : String)
    (active : List Path) (taken : List Transition) (before : List Path) (leaf : Path) : Prop :=
  ∀ t, root.Brings enabled type leaf t → t ∈ taken ∨ ∃ earlier ∈ before, ∃ u ∈ taken,
    root.Brings enabled type earlier u ∧
      ∃ p ∈ root.exitsOf active t, p ∈ root.exitsOf active u

/-- What is settled stays settled when more is taken. -/
theorem Settled.mono {taken taken' : List Transition} {before : List Path}
    (h : root.Settled enabled type active taken before leaf) (hsub : taken ⊆ taken') :
    root.Settled enabled type active taken' before leaf := by
  intro t ht
  rcases h t ht with hmem | ⟨earlier, hearlier, u, hu, hbrings, hexit⟩
  · exact Or.inl (hsub hmem)
  · exact Or.inr ⟨earlier, hearlier, u, hsub hu, hbrings, hexit⟩

/-- A selection is fair to the leaves that were gone through: it holds what they bring, and what
each of them brings is settled by those before it. -/
structure Selection.Fair (root : Chart) (enabled : Transition → Except Error Bool) (type : String)
    (active : List Path) (done : List Path) (s : Selection) : Prop
    extends s.Sound root type active where
  brought : ∀ t ∈ s.taken, ∃ leaf ∈ done, root.Brings enabled type leaf t
  settled : ∀ before leaf, before ++ [leaf] <+: done →
    root.Settled enabled type active s.taken before leaf

section

variable {s s' : Selection} {done : List Path}

/-- A selection that holds what it held and what a leaf brings is fair to that leaf as well when
what the leaf brings is settled. -/
theorem Selection.Fair.extend (hs : s.Fair root enabled type active done)
    (hsound : s'.Sound root type active) (hsub : s.taken ⊆ s'.taken)
    (hbrought : ∀ t ∈ s'.taken, t ∈ s.taken ∨ root.Brings enabled type leaf t)
    (hsettled : root.Settled enabled type active s'.taken done leaf) :
    s'.Fair root enabled type active (done ++ [leaf]) where
  toSound := hsound
  brought := by
    intro t ht
    rcases hbrought t ht with ht | ht
    · obtain ⟨earlier, hearlier, hbrings⟩ := hs.brought t ht
      exact ⟨earlier, List.mem_append_left _ hearlier, hbrings⟩
    · exact ⟨leaf, by simp, ht⟩
  settled := by
    intro before last hpre
    rcases List.prefix_concat_iff.mp hpre with heq | hpre
    · obtain ⟨rfl, hlast⟩ := List.append_inj' heq rfl
      obtain rfl : last = leaf := by simpa using hlast
      exact hsettled
    · exact (hs.settled before last hpre).mono hsub

/-- Going through one leaf more keeps a selection fair. -/
theorem Selection.Fair.step (hsource : ∀ p, ∀ t ∈ root.declared type p, t.source = p)
    (hs : s.Fair root enabled type active done) (hleaf : leaf ∈ active)
    (ht : root.Brings enabled type leaf t) :
    (s.add root active t).Fair root enabled type active (done ++ [leaf]) := by
  have hfound := brings_iff.mp ht
  have hsound := hs.toSound.add hleaf (mem_of_first_enabled hfound)
  -- It is enough to settle this one transition, since the leaf brings no other.
  have honly : ∀ {v}, root.Brings enabled type leaf v → v = t := by
    intro v hv
    have hsame := (brings_iff.mp hv).symm.trans hfound
    simpa using hsame
  rcases s.add_cases root active t with ⟨⟨u, hu, hsame⟩, heq⟩ | ⟨⟨p, hp, hexited⟩, heq⟩ | ⟨-, -, heq⟩
  · rw [heq] at hsound ⊢
    obtain ⟨earlier, -, hbrings⟩ := hs.brought u hu
    obtain rfl := hbrings.eq_of_source hsource ht hsame
    exact hs.extend hsound (List.Subset.refl _) (fun _ => Or.inl)
      fun v hv => Or.inl (honly hv ▸ hu)
  · rw [heq] at hsound ⊢
    refine hs.extend hsound (List.Subset.refl _) (fun _ => Or.inl) fun v hv => Or.inr ?_
    obtain ⟨u, hu, hexit⟩ := List.mem_flatMap.mp (hs.exited ▸ hexited)
    obtain ⟨earlier, hearlier, hbrings⟩ := hs.brought u hu
    exact ⟨earlier, hearlier, u, hu, hbrings, p, honly hv ▸ hp, hexit⟩
  · rw [heq] at hsound ⊢
    refine hs.extend hsound (by simp) (fun v hv => ?_) fun v hv => Or.inl ?_
    · rcases List.mem_append.mp hv with hv | hv
      · exact Or.inl hv
      · exact Or.inr (List.mem_singleton.mp hv ▸ ht)
    · rw [honly hv]
      simp

/-- Going through leaves keeps a selection fair. -/
theorem Selection.Fair.select_from (hsource : ∀ p, ∀ t ∈ root.declared type p, t.source = p)
    {leaves : List Path} (hs : s.Fair root enabled type active done)
    (hleaves : ∀ leaf ∈ leaves, leaf ∈ active)
    (h : root.selectFrom enabled type active leaves s = .ok s') :
    s'.Fair root enabled type active (done ++ leaves) := by
  induction leaves generalizing s done with
  | nil =>
      obtain rfl : s = s' := by simpa [selectFrom] using h
      simpa using hs
  | cons leaf leaves ih =>
      obtain ⟨hleaf, hleaves⟩ := List.forall_mem_cons.mp hleaves
      obtain ⟨found, hfound, h⟩ := bind_eq_ok.mp h
      rw [List.append_cons]
      cases found with
      | none =>
          refine ih (hs.extend hs.toSound (List.Subset.refl _) (fun _ => Or.inl) ?_) hleaves h
          intro t ht
          have hsame := (brings_iff.mp ht).symm.trans hfound
          simp at hsame
      | some t => exact ih (hs.step hsource hleaf (brings_iff.mpr hfound)) hleaves h

/-- A selection is fair to all leaves. -/
theorem fair_of_select (hsource : ∀ p, ∀ t ∈ root.declared type p, t.source = p)
    {ts : List Transition} (h : root.select enabled type active = .ok ts) :
    ∃ s : Selection, s.taken = ts ∧ s.Fair root enabled type active (root.leaves active) := by
  obtain ⟨s, hs, h⟩ := bind_eq_ok.mp h
  have hempty : Selection.Fair root enabled type active [] ⟨[], []⟩ :=
    ⟨⟨⟨by simp, List.Pairwise.nil⟩, rfl⟩, by simp, by simp⟩
  refine ⟨s, Except.ok.inj h, hempty.select_from hsource (fun leaf hleaf => ?_) hs⟩
  have hordered := (List.mem_filter.mp hleaf).1
  simpa using (List.mem_filter.mp hordered).2

end

end Tree

/-! ## Machines -/

namespace Machine

variable {m : Machine} {h : Host} {start : Identity} {context object : Value} {A : Set Path}

/-- When the guards return, transitions are selected from every legal configuration. They are all
different, and each is brought by an active leaf. No two of them exit the same node, and the domains
of any two that have targets are apart. What an active leaf brings is selected, unless it would exit
a node that a selected transition exits which a leaf before it in document order brings. -/
theorem select_settles {config : Value} (hconfig : config.wellFormed = true)
    (hm : define config = .ok m) (hA : m.root.Legal A) {active : List Path}
    (hmem : ∀ p, p ∈ active ↔ p ∈ A) (type : String)
    (hguards : ∀ t ∈ m.root.transitions, ∀ guard, t.guard = some guard →
      ∃ v, h.apply start guard [context, object] = .ok v) :
    ∃ ts, m.root.select (enabled h start context object) type active = .ok ts ∧ ts.Nodup ∧
      (∀ t ∈ ts, ∃ leaf ∈ A, m.root.kind? leaf = some .atomic ∧
        m.root.Brings (enabled h start context object) type leaf t) ∧
      ts.Pairwise (fun t u => ∀ p ∈ m.root.exitsOf active t, p ∉ m.root.exitsOf active u) ∧
      ts.Pairwise (fun t u => ∀ d e, m.root.domain? t = some d → m.root.domain? u = some e →
        Tree.Apart d e) ∧
      ∀ leaf ∈ A, m.root.kind? leaf = some .atomic →
        ∀ t, m.root.Brings (enabled h start context object) type leaf t → t ∈ ts ∨
          ∃ earlier ∈ A, m.root.kind? earlier = some .atomic ∧
            [earlier, leaf].Sublist m.root.paths ∧ ∃ u ∈ ts,
              m.root.Brings (enabled h start context object) type earlier u ∧
                ∃ p ∈ m.root.exitsOf active t, p ∈ m.root.exitsOf active u := by
  have hwf := well_formed_of_define hconfig hm
  have hsource : ∀ p, ∀ t ∈ m.root.declared type p, t.source = p := by
    intro p t ht
    obtain ⟨a, ha, e, he, hte⟩ := Tree.mem_of_declared ht
    exact hwf.source p a ha e he t hte
  have hreturn : ∀ t ∈ m.root.transitions, ∃ b, enabled h start context object t = .ok b :=
    fun t ht => enabled_eq_ok (hguards t ht)
  have hleaves : ∀ {leaf}, leaf ∈ m.root.leaves active ↔
      leaf ∈ A ∧ m.root.kind? leaf = some .atomic := by
    intro leaf
    rw [Tree.mem_leaves hwf.root, hmem]
  obtain ⟨ts, hts⟩ := Tree.select_eq_ok hwf.root hreturn type active
  have hchosen := Tree.chosen_of_select hts
  obtain ⟨s, rfl, hfair⟩ := Tree.fair_of_select hsource hts
  refine ⟨s.taken, hts, ?_, ?_, hchosen.compatible.imp fun hc => hc.2, ?_, ?_⟩
  · exact hchosen.compatible.imp fun hc heq => hc.1 (congrArg Transition.source heq)
  · intro t ht
    obtain ⟨leaf, hleaf, hbrings⟩ := hfair.brought t ht
    exact ⟨leaf, (hleaves.mp hleaf).1, (hleaves.mp hleaf).2, hbrings⟩
  · exact hchosen.compatible.imp_of_mem fun ht hu hc d e hd he =>
      apart_of_chosen hwf hA.toComplete hmem hchosen ht hu hc hd he
  · intro leaf hleaf hatomic t ht
    obtain ⟨before, after, hsplit⟩ := List.append_of_mem (hleaves.mpr ⟨hleaf, hatomic⟩)
    have hpre : before ++ [leaf] <+: m.root.leaves active := ⟨after, by simp [hsplit]⟩
    refine (hfair.settled before leaf hpre t ht).imp_right fun hblocked => ?_
    obtain ⟨earlier, hearlier, u, hu, hbrings, hexit⟩ := hblocked
    obtain ⟨hactive, hkind⟩ := hleaves.mp (hpre.subset (List.mem_append_left _ hearlier))
    have horder : [earlier, leaf].Sublist m.root.paths :=
      (((List.singleton_sublist.mpr hearlier).append (List.Sublist.refl [leaf])).trans
        hpre.sublist).trans (List.filter_sublist.trans List.filter_sublist)
    exact ⟨earlier, hactive, hkind, horder, u, hu, hbrings, hexit⟩

/-- The configuration of a kiosk whose screen turns it off, unless an admin taps it, while a tap
also wakes its pad. -/
def kioskConfig : Value :=
  .table
    [("id", .text "kiosk"), ("initial", .text "on"),
      ("states", .table
        [("on", .table
            [("type", .text "parallel"),
              ("states", .table
                [("screen", .table
                    [("initial", .text "lit"),
                      ("states", .table
                        [("lit", .table
                            [("on", .table
                              [("TAP", .newList
                                [.table [("target", .text "menu"),
                                    ("cond", Examples.Code.isAdmin.guard)],
                                  .text "#kiosk.off"])])]),
                          ("menu", .table [])])]),
                  ("pad", .table
                    [("initial", .text "idle"),
                      ("states", .table
                        [("idle", .table [("on", .table [("TAP", .text "busy")])]),
                          ("busy", .table [])])])])]),
          ("off", .table [])])]

/-- The guards of the kiosk when it is tapped by somebody who is no admin. -/
def tapped : Transition → Except Error Bool :=
  enabled Examples.host ⟨1, 0, 0⟩ (.table [("isAdmin", .bool false)])
    (.table [("type", .text "TAP")])

/-- A tap turns the kiosk off, and its pad is not woken: what the pad brings would exit a node that
is exited already. -/
theorem kiosk_settles : ∃ m ts t, define kioskConfig = .ok m ∧
    (∀ t ∈ m.root.transitions, ∀ guard, t.guard = some guard →
      ∃ v, Examples.host.apply ⟨1, 0, 0⟩ guard
        [.table [("isAdmin", .bool false)], .table [("type", .text "TAP")]] = .ok v) ∧
    m.root.Legal {p | p ∈ m.root.defaults} ∧
    m.root.select tapped "TAP" m.root.defaults = .ok ts ∧
    ts.map Transition.source = [["on", "screen", "lit"]] ∧
    m.root.Brings tapped "TAP" ["on", "pad", "idle"] t ∧
    ∃ earlier, ∃ u ∈ ts, m.root.Brings tapped "TAP" earlier u ∧
      ∃ p ∈ m.root.exitsOf m.root.defaults t, p ∈ m.root.exitsOf m.root.defaults u := by
  obtain ⟨m, hm, hcheck⟩ := exists_of_any (x := define kioskConfig) (P := fun m =>
      m.root.transitions.all (fun t => t.guard.all fun guard =>
        (Examples.host.apply ⟨1, 0, 0⟩ guard
          [.table [("isAdmin", .bool false)], .table [("type", .text "TAP")]]).toOption.any
            fun _ => true) &&
        m.root.defaults.contains ["on", "pad", "idle"] &&
        m.root.kind? ["on", "pad", "idle"] == some .atomic &&
        (m.root.select tapped "TAP" m.root.defaults).toOption.any (fun ts =>
          ts.map Transition.source == [["on", "screen", "lit"]]) &&
        (Tree.firstEnabled tapped (m.root.candidatesFrom "TAP" ["on", "pad", "idle"])
          ).toOption.any fun found => found.any fun t => t.source == ["on", "pad", "idle"])
    (by decide +kernel)
  simp only [Bool.and_eq_true, List.contains_eq_mem, decide_eq_true_eq, beq_iff_eq] at hcheck
  obtain ⟨⟨⟨⟨hguards, hidle⟩, hatomic⟩, hselect⟩, hfound⟩ := hcheck
  obtain ⟨ts, hts, hsources⟩ := exists_of_any hselect
  obtain ⟨found, hfound, hpad⟩ := exists_of_any hfound
  obtain ⟨t, rfl, hsource⟩ : ∃ t, found = some t ∧ t.source = ["on", "pad", "idle"] := by
    cases found with
    | none => cases hpad
    | some t => exact ⟨t, rfl, by simpa using hpad⟩
  have hreturn : ∀ t ∈ m.root.transitions, ∀ guard, t.guard = some guard →
      ∃ v, Examples.host.apply ⟨1, 0, 0⟩ guard
        [.table [("isAdmin", .bool false)], .table [("type", .text "TAP")]] = .ok v := by
    intro t ht guard hguard
    have hreturns := List.all_eq_true.mp hguards t ht
    rw [hguard, Option.all_some] at hreturns
    obtain ⟨v, hv, -⟩ := exists_of_any hreturns
    exact ⟨v, hv⟩
  have hconfig : kioskConfig.wellFormed = true := by decide +kernel
  have hlegal := Tree.legal_defaults (well_formed_of_define hconfig hm).root
  have hbrings : m.root.Brings tapped "TAP" ["on", "pad", "idle"] t := Tree.brings_iff.mpr hfound
  obtain ⟨ts', hts', -, -, -, -, hsettled⟩ :=
    select_settles hconfig hm hlegal (fun _ => Iff.rfl) "TAP" hreturn
  obtain rfl : ts = ts' := Except.ok.inj (hts.symm.trans hts')
  rw [beq_iff_eq] at hsources
  refine ⟨m, ts, t, hm, hreturn, hlegal, hts, hsources, hbrings, ?_⟩
  rcases hsettled _ hidle hatomic t hbrings with hmem | ⟨earlier, -, -, -, u, hu, hearlier, hexit⟩
  · have htaken : t.source ∈ ts.map Transition.source := List.mem_map_of_mem hmem
    simp [hsources, hsource] at htaken
  · exact ⟨earlier, u, hu, hearlier, hexit⟩

end Machine

end Statechart
