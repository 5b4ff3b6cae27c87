import Statechart.Proofs.Declared.Nodes

/-!
# What the second pass reads

The second pass resolves the targets of all candidates in the draft that the first has read. Read
`resolve_eq_ok_iff` first: a text resolves to the path that it names. A failure of this pass is a
fault of the configuration (`explained_of_read_handlers`), and where it succeeds there is none at
any node (`read_handlers_eq_ok`).
-/

namespace Statechart

namespace Machine

variable {config cfg : Value} {name : String} {path p q : Path} {ids : List Value} {t : Draft}
  {e : Error}

/-! ## Targets -/

/-- A draft that was read from a configuration. -/
structure ReadFrom (config : Value) (draft : Draft) : Prop where
  wellFormed : draft.WellFormed
  distinct : draft.DistinctIds
  get : ∀ p, draft.get? p = (declared config p).map (nodeOf (machineName config) p)

theorem read_from_of_read_tree (hconfig : config.wellFormed = true) (hdoc : DocumentedNode config)
    (h : readTree (.text (machineName config)) [] config [] = .ok (t, ids)) :
    ReadFrom config t where
  wellFormed := read_tree_well_formed config hconfig h
  distinct := distinct_ids_of_read_tree (read_tree_well_formed config hconfig h) h
  get := get_of_read_tree hdoc h

section

variable {draft : Draft}

theorem ReadFrom.known_iff (h : ReadFrom config draft) :
    (draft.at? p).isSome ↔ (declared config p).isSome := by
  have hget := congrArg Option.isSome (h.get p)
  rw [Tree.get?, Option.isSome_map, Option.isSome_map] at hget
  rw [hget]

/-- The nodes of a draft have the identities that their configurations give them. -/
theorem ReadFrom.id_iff (h : ReadFrom config draft) {s : String} :
    (∃ a, draft.get? p = some a ∧ a.id = .text s) ↔
      ∃ cfg, declared config p = some cfg ∧ identity (machineName config) p cfg = s := by
  rw [h.get]
  cases declared config p <;> simp

/-- The parent of a node, or the root itself, is where the path goes without its last key. -/
theorem parent_getD (p : Path) : p.parent?.getD p = p.dropLast := by
  cases p using List.reverseRecOn with
  | nil => rfl
  | append_singleton p k => simp [Path.parent?, Path.ancestors_concat]

/-- A target starts at an identity, inside the source, or beside it. -/
theorem target_cases (s : String) : (∃ rest, s = "#" ++ rest) ∨ (∃ rest, s = "." ++ rest) ∨
    s.toList.head? ≠ some '#' ∧ s.toList.head? ≠ some '.' := by
  have hcons : ∀ {c : Char} {cs : List Char}, s.toList = c :: cs →
      s = String.singleton c ++ String.ofList cs := by
    intro c cs hs
    exact String.ext (by simp [String.toList_append, hs])
  cases hs : s.toList with
  | nil => simp
  | cons c cs =>
      by_cases hhash : c = '#'
      · exact Or.inl ⟨_, hhash ▸ hcons hs⟩
      · by_cases hdot : c = '.'
        · exact Or.inr (Or.inl ⟨_, hdot ▸ hcons hs⟩)
        · simp [hhash, hdot]

theorem resolve_inside (root : Draft) (p : Path) (rest : String) :
    root.resolve p ("." ++ rest) = root.descendFrom ("." ++ rest) p rest.toList := by
  have htarget : ("." ++ rest).toList = '.' :: rest.toList := by simp [String.toList_append]
  simp only [Tree.resolve, htarget]

theorem resolve_beside (root : Draft) (p : Path) {s : String}
    (hhash : s.toList.head? ≠ some '#') (hdot : s.toList.head? ≠ some '.') :
    root.resolve p s = root.descendFrom s p.dropLast s.toList := by
  rw [Tree.resolve, parent_getD]
  split
  · rename_i hs
    simp [hs] at hhash
  · rename_i hs
    simp [hs] at hdot
  · rfl

/-- A target is resolved to what it names. -/
theorem resolve_eq_ok_iff (h : ReadFrom config draft) (hp : (declared config p).isSome)
    {s : String} : draft.resolve p s = .ok q ↔ Names config p s q := by
  have hsource := h.known_iff.mpr hp
  have hparent : (draft.at? p.dropLast).isSome := Tree.at_isSome_above hsource p.dropLast_prefix
  have hdescend : ∀ {s : String} {b : Path} {rest : String}, (draft.at? b).isSome →
      (draft.descendFrom s b rest.toList = .ok q ↔
        q = b ++ Path.ofDotted rest ∧ (declared config q).isSome) := by
    intro s b rest hb
    rw [Tree.descend_from_eq_ok hb, h.known_iff, String.ofList_toList]
  constructor
  · intro hq
    rcases target_cases s with ⟨rest, rfl⟩ | ⟨rest, rfl⟩ | ⟨hhash, hdot⟩
    · by_cases hdot : '.' ∈ rest.toList
      · obtain ⟨id, rest, rfl, hid⟩ := Tree.exists_first_dot hdot
        obtain ⟨b, a, ha, ha', rfl, hknown⟩ :=
          (Tree.resolve_path_iff h.wellFormed h.distinct hid).mp hq
        obtain ⟨cfg, hb, rfl⟩ := h.id_iff.mp ⟨a, ha, ha'⟩
        exact .below hb hid (h.known_iff.mp hknown)
      · obtain ⟨cfg, hb, rfl⟩ :=
          h.id_iff.mp ((Tree.resolve_id_iff h.wellFormed h.distinct hdot).mp hq)
        exact .identified hb hdot
    · rw [resolve_inside] at hq
      obtain ⟨rfl, hknown⟩ := (hdescend hsource).mp hq
      exact .inside hknown
    · rw [resolve_beside draft p hhash hdot] at hq
      obtain ⟨rfl, hknown⟩ := (hdescend hparent).mp hq
      exact .beside hhash hdot hknown
  · intro hnames
    cases hnames with
    | identified hq hdot =>
        exact (Tree.resolve_id_iff h.wellFormed h.distinct hdot).mpr (h.id_iff.mpr ⟨_, hq, rfl⟩)
    | @below b cfg rest hb hdot known =>
        obtain ⟨a, ha, hid⟩ := h.id_iff.mpr ⟨_, hb, rfl⟩
        exact (Tree.resolve_path_iff h.wellFormed h.distinct hdot).mpr
          ⟨b, a, ha, hid, rfl, h.known_iff.mpr known⟩
    | inside known =>
        rw [resolve_inside]
        exact (hdescend hsource).mpr ⟨rfl, known⟩
    | beside hhash hdot known =>
        rw [resolve_beside draft p hhash hdot]
        exact (hdescend hparent).mpr ⟨rfl, known⟩

/-- The identities of the nodes of a draft are texts. -/
theorem ReadFrom.ids_have_text (h : ReadFrom config draft) {a : Node Value}
    (ha : draft.get? p = some a) : a.id.hasText = true := by
  rw [h.get] at ha
  obtain ⟨cfg, -, rfl⟩ := Option.map_eq_some_iff.mp ha
  rfl

/-- A way down that is not found is reported as an unknown target. -/
theorem descend_eq_error {s : String} {ks : Path} (ht : draft.at? path = some t)
    (hids : ∀ p a, draft.get? p = some a → a.id.hasText = true)
    (he : t.descend s path ks = .error e) : ∃ f, e = .definition f ∧ f.hasText = true := by
  induction ks generalizing path t with
  | nil =>
      rcases t with ⟨a, cs⟩
      cases he
  | cons k ks ih =>
      rcases t with ⟨a, cs⟩
      rw [Tree.descend] at he
      split at he
      · rename_i u hu
        exact ih (by simp [Tree.at_concat, ht, Tree.children, hu]) he
      · obtain rfl := Except.error.inj he
        exact ⟨_, rfl, hids path a (by simp [Tree.get?, ht, Tree.value])⟩

/-- A target that is not resolved is reported as an unknown one. -/
theorem resolve_eq_error (h : ReadFrom config draft) (hp : (draft.at? p).isSome) {s : String}
    (he : draft.resolve p s = .error e) : ∃ f, e = .definition f ∧ f.hasText = true := by
  have hfrom : ∀ {b : Path} {cs : List Char}, (draft.at? b).isSome →
      draft.descendFrom s b cs = .error e → ∃ f, e = .definition f ∧ f.hasText = true := by
    intro b cs hb he
    obtain ⟨t, ht⟩ := Option.isSome_iff_exists.mp hb
    simp only [Tree.descendFrom, ht] at he
    exact descend_eq_error ht (fun _ _ => h.ids_have_text) he
  rw [Tree.resolve, parent_getD] at he
  split at he
  · split at he
    · rename_i b hb
      obtain ⟨⟨v, b'⟩, hfind, rfl⟩ := Option.map_eq_some_iff.mp hb
      obtain ⟨⟨q, a⟩, hmem, heq⟩ := List.mem_map.mp (List.mem_of_find?_eq_some hfind)
      obtain ⟨rfl, rfl⟩ := Prod.mk.inj heq
      exact hfrom (Tree.known_of_get ((Tree.mem_nodes h.wellFormed).mp hmem)) he
    · obtain rfl := Except.error.inj he
      exact ⟨_, rfl, rfl⟩
  · exact hfrom hp he
  · exact hfrom (Tree.at_isSome_above hp p.dropLast_prefix) he

/-! ## The second pass -/

/-- The fields of a candidate. -/
def candidateFields : Value → Table
  | .text s => [(.text "target", .text s)]
  | v => fieldsOf v

theorem targets_of_fields (item : Value) :
    items (field (candidateFields item) "target") = targetsOf item := by
  cases item with
  | text s => simp [candidateFields, field, Value.get_text_cons, Value.text?, items, targetsOf]
  | _ => rfl

theorem guard_of_fields (item : Value) : field (candidateFields item) "cond" = guardOf item := by
  cases item with
  | text s =>
      simp [candidateFields, guardOf, fieldsOf, Value.entries?, field, Table.getText?, Table.get?]
  | _ => rfl

/-- A candidate, as one of those of an entry. -/
def readCandidate (item : Value) : Except Error Table :=
  if isCandidate item then .ok (candidateFields item)
  else .error (.definition (.invalidTransition item))

theorem candidates_eq (spec : Value) : candidates spec = (listed spec).mapM readCandidate := by
  cases spec with
  | list m xs =>
      show xs.mapM _ = xs.mapM readCandidate
      congr 1
      funext item
      cases item <;> rfl
  | dict m es => rfl
  | text s => rfl
  | _ => simp [candidates, listed, readCandidate, isCandidate]

/-- The targets of a candidate are read when each of them names a node, and its guard when it can be
called. -/
theorem read_transition_eq_ok {id : Value} {es : Table} {tr : Transition}
    (h : readTransition draft p id es = .ok tr) :
    (field es "cond" ≠ .null → (field es "cond").isCallable = true) ∧
      ∀ s, .text s ∈ items (field es "target") → ∃ q, draft.resolve p s = .ok q := by
  obtain ⟨internal, -, h⟩ := bind_eq_ok.mp h
  obtain ⟨guard, hguard, h⟩ := bind_eq_ok.mp h
  obtain ⟨paths, hpaths, -⟩ := bind_eq_ok.mp h
  constructor
  · intro hsome
    unfold readGuard at hguard
    split at hguard
    · rename_i hnull
      exact absurd hnull hsome
    · split at hguard
      · assumption
      · cases hguard
  · intro s hs
    obtain ⟨q, -, hq⟩ := exists_of_map_m_eq_ok hpaths _ hs
    exact ⟨q, hq⟩

/-- Reading a candidate whose targets are texts fails for its guard or for one of its targets. -/
theorem read_transition_eq_error (hread : ReadFrom config draft) (hp : (draft.at? p).isSome)
    {id : String} {es : Table} (htexts : ∀ v ∈ items (field es "target"), ∃ s, v = .text s)
    (h : readTransition draft p (.text id) es = .error e) :
    (∃ f, e = .definition f ∧ f.hasText = true) ∧
      ((field es "cond" ≠ .null ∧ (field es "cond").isCallable = false) ∨
        ∃ s, .text s ∈ items (field es "target") ∧ ∀ q, draft.resolve p s ≠ .ok q) := by
  have hrelative : ∀ {vs : List Value}, (∀ v ∈ vs, ∃ s, v = .text s) →
      allRelative vs ≠ .error e := by
    intro vs hvs
    induction vs with
    | nil => simp [allRelative]
    | cons v vs ih =>
        obtain ⟨s, rfl⟩ := hvs v (by simp)
        rw [allRelative]
        split
        · exact ih fun v hv => hvs v (List.mem_cons_of_mem _ hv)
        · simp
  rcases bind_eq_error.mp h with h | ⟨internal, -, h⟩
  · unfold isInternal at h
    split at h
    · split at h
      · cases h
      · exact absurd h (hrelative htexts)
    · cases h
  · rcases bind_eq_error.mp h with h | ⟨guard, -, h⟩
    · unfold readGuard at h
      split at h
      · cases h
      · rename_i hsome
        split at h
        · cases h
        · rename_i hnot
          obtain rfl := Except.error.inj h
          exact ⟨⟨_, rfl, rfl⟩, Or.inl ⟨hsome, Bool.eq_false_iff.mpr hnot⟩⟩
    · rcases bind_eq_error.mp h with h | ⟨paths, -, h⟩
      · obtain ⟨v, hv, h⟩ := mem_of_map_m_eq_error h
        obtain ⟨s, rfl⟩ := htexts v hv
        have hresolve : draft.resolve p s = .error e := h
        exact ⟨resolve_eq_error hread hp h, Or.inr ⟨s, hv, fun q hq => by simp [hresolve] at hq⟩⟩
      · cases h

theorem mem_offers {item : Value} : item ∈ offers cfg ↔
    ∃ entry ∈ fieldsOf (field (fieldsOf cfg) "on"), item ∈ listed entry.2 :=
  List.mem_flatMap

/-- Reading the handlers of a documented node reads its candidates. -/
theorem read_handlers_eq (hcfg : DocumentedNode cfg) (root : Draft) (p : Path) :
    readHandlers root p (nodeOf name p cfg) =
      (fieldsOf (field (fieldsOf cfg) "on")).mapM fun e => do
        let candidates ← (listed e.2).mapM readCandidate
        return (e.1, ← candidates.mapM
          (readTransition root p (.text (identity name p cfg)))) := by
  cases hcfg with
  | node _ _ on _ _ _ _ =>
      have hon : (nodeOf name p cfg).on = field (fieldsOf cfg) "on" := rfl
      unfold readHandlers
      rw [hon]
      generalize field (fieldsOf cfg) "on" = v at on
      cases hentries : v.entries? with
      | some es =>
          simp only [fieldsOf, hentries, Option.getD_some, candidates_eq]
          rfl
      | none =>
          have hfalse := on.resolve_right (by simp [Value.isMapping, hentries])
          simp [fieldsOf, hentries, hfalse]

/-- The handlers of a node are read when its candidates are valid. -/
theorem read_handlers_eq_ok (h : ReadFrom config draft) (hcfg : DocumentedNode cfg)
    (hp : declared config p = some cfg) {on : Handlers}
    (hon : readHandlers draft p (nodeOf name p cfg) = .ok on) {item : Value}
    (hitem : item ∈ offers cfg) : isCandidate item = true ∧
      (guardOf item ≠ .null → (guardOf item).isCallable = true) ∧
      ∀ target, .text target ∈ targetsOf item → ∃ q, Names config p target q := by
  rw [read_handlers_eq hcfg] at hon
  obtain ⟨entry, hentry, hitem⟩ := mem_offers.mp hitem
  obtain ⟨handler, -, hread⟩ := exists_of_map_m_eq_ok hon _ hentry
  obtain ⟨cs, hcs, hread⟩ := bind_eq_ok.mp hread
  obtain ⟨ts, hts, -⟩ := bind_eq_ok.mp hread
  obtain ⟨c, hc, hread⟩ := exists_of_map_m_eq_ok hcs _ hitem
  unfold readCandidate at hread
  split at hread
  · rename_i hvalid
    obtain rfl := Except.ok.inj hread
    obtain ⟨tr, -, htr⟩ := exists_of_map_m_eq_ok hts _ hc
    obtain ⟨hguard, htargets⟩ := read_transition_eq_ok htr
    rw [guard_of_fields] at hguard
    rw [targets_of_fields] at htargets
    refine ⟨hvalid, hguard, fun target htarget => ?_⟩
    obtain ⟨q, hq⟩ := htargets target htarget
    exact ⟨q, (resolve_eq_ok_iff h (by simp [hp])).mp hq⟩
  · cases hread

/-- A failure to read the handlers of a node comes from a fault. -/
theorem explained_of_read_handlers (h : ReadFrom config draft) (hcfg : DocumentedNode cfg)
    (hp : declared config p = some cfg)
    (he : readHandlers draft p (nodeOf name p cfg) = .error e) : Explained config e := by
  rw [read_handlers_eq hcfg] at he
  have hknown : (declared config p).isSome := by simp [hp]
  obtain ⟨entry, hentry, he⟩ := mem_of_map_m_eq_error he
  rcases bind_eq_error.mp he with he | ⟨cs, hcs, he⟩
  · obtain ⟨item, hitem, he⟩ := mem_of_map_m_eq_error he
    unfold readCandidate at he
    split at he
    · cases he
    · rename_i hinvalid
      obtain rfl := Except.error.inj he
      have hoffered := mem_offers.mpr ⟨entry, hentry, hitem⟩
      have hnot : isCandidate item = false := Bool.eq_false_iff.mpr hinvalid
      exact ⟨.invalidCandidate hp hoffered hnot, Or.inl ⟨_, rfl, fun hnone =>
        ⟨p, cfg, hp, Or.inr ⟨item, hoffered, hnot, hnone⟩⟩⟩⟩
  · rcases bind_eq_error.mp he with he | ⟨ts, -, he⟩
    · obtain ⟨c, hc, he⟩ := mem_of_map_m_eq_error he
      obtain ⟨item, hitem, hread⟩ := mem_of_map_m_eq_ok hcs c hc
      unfold readCandidate at hread
      split at hread
      · obtain rfl := Except.ok.inj hread
        have hoffered := mem_offers.mpr ⟨entry, hentry, hitem⟩
        have htexts : ∀ v ∈ targetsOf item, ∃ s, v = .text s := by
          cases hcfg with
          | node _ _ _ targets _ _ _ => exact targets item hoffered
        rw [← targets_of_fields] at htexts
        obtain ⟨⟨f, rfl, hf⟩, hfault⟩ :=
          read_transition_eq_error h (h.known_iff.mpr hknown) htexts he
        rw [guard_of_fields, targets_of_fields] at hfault
        refine Faulty.explains ?_ hf
        rcases hfault with ⟨hsome, hnot⟩ | ⟨target, htarget, hunknown⟩
        · exact .guardNotCallable hp hoffered hsome hnot
        · exact .unknownTarget hp hoffered htarget fun q hq =>
            hunknown q ((resolve_eq_ok_iff h hknown).mpr hq)
      · cases hread
    · cases he

/-- A failure to read the transitions of a chart comes from a node. -/
theorem exists_of_read_transitions_eq_error {root t : Draft} (hwf : t.WellFormed) {path : Path}
    (h : readTransitions root path t = .error e) :
    ∃ p a, t.get? p = some a ∧ readHandlers root (path ++ p) a = .error e := by
  induction t using Tree.node_induction generalizing path with
  | node a cs ih =>
      have hbelow : ∀ {ds : List (String × Draft)}, ds ⊆ cs →
          readTransitionsBelow root path ds = .error e →
          ∃ p b, (Tree.node a cs).get? p = some b ∧ readHandlers root (path ++ p) b = .error e := by
        intro ds hds h
        induction ds with
        | nil => cases h
        | cons d ds ihds =>
            rcases d with ⟨k, s⟩
            have hmem : (k, s) ∈ cs := hds (by simp)
            have hlookup := hwf.lookup.mpr hmem
            rw [readTransitionsBelow] at h
            rcases bind_eq_error.mp h with h | ⟨c, -, h⟩
            · obtain ⟨p, b, hp, he⟩ := ih _ hmem (hwf.child hlookup) h
              refine ⟨k :: p, b, ?_, by simpa using he⟩
              simpa [Tree.get?, Tree.at_cons, hlookup] using hp
            · rcases bind_eq_error.mp h with h | ⟨c', -, h⟩
              · exact ihds (fun d hd => hds (List.mem_cons_of_mem _ hd)) h
              · cases h
      rw [readTransitions] at h
      rcases bind_eq_error.mp h with h | ⟨on, -, h⟩
      · exact ⟨[], a, by simp [Tree.get?, Tree.value], by simpa using h⟩
      · rcases bind_eq_error.mp h with h | ⟨ds, -, h⟩
        · exact hbelow (List.Subset.refl _) h
        · cases h

/-- Reading the transitions of a chart reads the handlers of each node. -/
theorem exists_of_read_transitions_eq_ok {root t : Draft} {path : Path} {c : Chart}
    (h : readTransitions root path t = .ok c) {a : Node Value} (hp : t.get? p = some a) :
    ∃ on, readHandlers root (path ++ p) a = .ok on := by
  obtain ⟨s, hs, rfl⟩ := Option.map_eq_some_iff.mp hp
  have hrel := at_read_transitions h p
  rw [hs] at hrel
  generalize c.at? p = o at hrel
  cases hrel with
  | some hread =>
      rcases s with ⟨a, cs⟩
      rw [readTransitions] at hread
      obtain ⟨on, hon, -⟩ := bind_eq_ok.mp hread
      exact ⟨on, hon⟩

end

end Machine

end Statechart
