import Mathlib.Data.List.Basic
import Mathlib.Data.List.TakeWhile
import Statechart.Text.Wrap

/-!
# What wrapping keeps

Wrapping moves blanks and takes them away, and nothing else: the lines of a text hold its other
characters, all of them and in order, as long as none of them changes the width of its neighbours:
`wrap_ink`. `Filling.Good` is what the lines that are being filled keep from word to word: they hold
the text so far, and only blanks of theirs may not fit.
-/

namespace Statechart.Text

/-- The characters of a text that are not blank. -/
def ink (cs : List Char) : List Char :=
  cs.filter fun c => !isBlank c

/-- No character of a text hides or widens a neighbour. -/
def Steady (cs : List Char) : Prop :=
  ∀ c ∈ cs, c ≠ joiner ∧ c ≠ emojiSelector

instance (cs : List Char) : Decidable (Steady cs) :=
  List.decidableBAll _ cs

/-- There are only blanks in a text. -/
def Blank (cs : List Char) : Prop :=
  ∀ c ∈ cs, isBlank c = true

variable {limit : Nat} {cs ds : List Char}

@[simp]
theorem ink_append (cs ds : List Char) : ink (cs ++ ds) = ink cs ++ ink ds :=
  List.filter_append cs ds

theorem ink_blank (h : Blank cs) : ink cs = [] :=
  List.filter_eq_nil_iff.mpr fun c hc => by simp [h c hc]

theorem ink_cons_blank {c : Char} (h : isBlank c = true) (cs : List Char) :
    ink (c :: cs) = ink cs := by
  simp [ink, h]

theorem ink_flatten (ls : List (List Char)) : ls.flatMap ink = ink ls.flatten := by
  induction ls with
  | nil => rfl
  | cons l ls ih => rw [List.flatMap_cons, List.flatten_cons, ink_append, ih]

theorem steady_append : Steady (cs ++ ds) ↔ Steady cs ∧ Steady ds :=
  List.forall_mem_append

/-! ## Widths -/

theorem char_width_le_two (c : Char) : charWidth c ≤ 2 := by
  simp only [charWidth]
  split_ifs <;> omega

theorem add_steady {m : Measured} {c : Char} (hm : m.joined = false)
    (hc : c ≠ joiner ∧ c ≠ emojiSelector) :
    (m.add c).columns = m.columns + charWidth c ∧ (m.add c).joined = false := by
  rw [Measured.add, if_neg (by simp [hm]), if_neg hc.1, if_neg hc.2]
  split
  next hw => exact ⟨by rw [hw, Nat.add_zero], hm⟩
  next => exact ⟨rfl, rfl⟩

/-- A lead in columns lasts through a steady text. -/
theorem foldl_add_steady {m n : Measured} {lead : Nat} (hcs : Steady cs) (hm : m.joined = false)
    (hn : n.joined = false) (h : m.columns = n.columns + lead) :
    (cs.foldl Measured.add m).columns = (cs.foldl Measured.add n).columns + lead := by
  induction cs generalizing m n with
  | nil => exact h
  | cons c cs ih =>
      obtain ⟨hc, hcs⟩ := List.forall_mem_cons.mp hcs
      obtain ⟨hcolumns, hjoined⟩ := add_steady hm hc
      obtain ⟨hcolumns', hjoined'⟩ := add_steady hn hc
      exact ih hcs hjoined hjoined' (by omega)

/-- Each character of a steady text adds its own columns. -/
theorem width_cons {c : Char} (h : Steady (c :: cs)) :
    width (c :: cs) = charWidth c + width cs := by
  obtain ⟨hc, hcs⟩ := List.forall_mem_cons.mp h
  have hstart : (⟨0, none, false⟩ : Measured).joined = false := rfl
  obtain ⟨hcolumns, hjoined⟩ := add_steady hstart hc
  rw [Nat.add_comm]
  refine foldl_add_steady hcs hjoined hstart ?_
  rw [hcolumns]

theorem width_append (h : Steady (cs ++ ds)) : width (cs ++ ds) = width cs + width ds := by
  induction cs with
  | nil => exact (Nat.zero_add _).symm
  | cons c cs ih =>
      have hcs : Steady (c :: cs) := (steady_append.mp h).1
      rw [List.cons_append] at h ⊢
      rw [width_cons h, width_cons hcs, ih (List.forall_mem_cons.mp h).2, Nat.add_assoc]

theorem width_eq_zero (h : Steady cs) (hcs : ∀ c ∈ cs, charWidth c = 0) : width cs = 0 := by
  induction cs with
  | nil => rfl
  | cons c cs ih =>
      obtain ⟨hc, hcs⟩ := List.forall_mem_cons.mp hcs
      rw [width_cons h, hc, ih (List.forall_mem_cons.mp h).2 hcs]

/-! ## Clusters -/

/-- A cluster is a character, with others behind it that take no column. -/
def Cluster.Formed (k : Cluster) : Prop :=
  ∃ c zs, k.chars = c :: zs ∧ k.columns = charWidth c ∧ ∀ z ∈ zs, charWidth z = 0

/-- Clusters make up a text, and only the first may take no column. -/
structure Clustered (ks : List Cluster) (cs : List Char) : Prop where
  chars : ks.flatMap Cluster.chars = cs
  formed : ∀ k ∈ ks, k.Formed
  columns : ∀ k ∈ ks.tail, 0 < k.columns

theorem formed_singleton (c : Char) : Cluster.Formed ⟨[c], charWidth c⟩ :=
  ⟨c, [], rfl, rfl, List.forall_mem_nil _⟩

theorem Cluster.Formed.join {k : Cluster} (hk : k.Formed) {c : Char} (hc : charWidth c = 0) :
    (k.join c 0).Formed := by
  obtain ⟨d, zs, hchars, hcolumns, hzs⟩ := hk
  exact ⟨d, zs ++ [c], by simp [Cluster.join, hchars], hcolumns,
    List.forall_mem_append.mpr ⟨hzs, List.forall_mem_singleton.mpr hc⟩⟩

theorem Cluster.Formed.width_eq {k : Cluster} (hk : k.Formed) (h : Steady k.chars) :
    width k.chars = k.columns := by
  obtain ⟨c, zs, hchars, hcolumns, hzs⟩ := hk
  rw [hchars] at h ⊢
  rw [width_cons h, hcolumns, width_eq_zero (List.forall_mem_cons.mp h).2 hzs, Nat.add_zero]

theorem exists_wide_cluster {ks : List Cluster} (hks : Clustered ks cs) (hsteady : Steady cs)
    (hwidth : 0 < width cs) : ∃ k ∈ ks, 0 < k.columns := by
  by_contra hnone
  refine absurd (width_eq_zero hsteady fun c hc => ?_) (Nat.ne_of_gt hwidth)
  rw [← hks.chars] at hc
  obtain ⟨k, hk, hc⟩ := List.mem_flatMap.mp hc
  have hzero : k.columns = 0 := Nat.eq_zero_of_not_pos fun hpos => hnone ⟨k, hk, hpos⟩
  obtain ⟨d, zs, hchars, hcolumns, hzs⟩ := hks.formed k hk
  rw [hchars] at hc
  rcases List.mem_cons.mp hc with rfl | hc
  · rw [← hcolumns, hzero]
  · exact hzs c hc

theorem clusters_from_steady {k : Cluster} (hk : k.Formed) (h : Steady cs) (base : Option Char) :
    ∃ k' ks, clustersFrom k base false cs = k' :: ks ∧ k'.columns = k.columns ∧
      Clustered (k' :: ks) (k.chars ++ cs) := by
  induction cs generalizing k base with
  | nil =>
      exact ⟨k, [], rfl, rfl, ⟨rfl, List.forall_mem_singleton.mpr hk, List.forall_mem_nil _⟩⟩
  | cons c cs ih =>
      obtain ⟨hc, hcs⟩ := List.forall_mem_cons.mp h
      rw [clustersFrom, if_neg hc.1, if_neg hc.2]
      split
      next hw =>
        obtain ⟨k', ks, heq, hcolumns, hks⟩ := ih (hk.join hw) hcs base
        refine ⟨k', ks, heq, hcolumns, ?_⟩
        rwa [Cluster.join, List.append_assoc] at hks
      next hw =>
        obtain ⟨k', ks, heq, hcolumns, hks⟩ := ih (formed_singleton c) hcs (some c)
        refine ⟨k, k' :: ks, by rw [heq], rfl, ⟨?_, ?_, ?_⟩⟩
        · rw [List.flatMap_cons, hks.chars]
          rfl
        · exact List.forall_mem_cons.mpr ⟨hk, hks.formed⟩
        · exact List.forall_mem_cons.mpr ⟨hcolumns ▸ Nat.pos_of_ne_zero hw, hks.columns⟩

theorem clusters_steady (h : Steady cs) : Clustered (clusters cs) cs := by
  cases cs with
  | nil => exact ⟨rfl, List.forall_mem_nil _, List.forall_mem_nil _⟩
  | cons c cs =>
      obtain ⟨hc, hcs⟩ := List.forall_mem_cons.mp h
      have hw : (if c = joiner ∨ c = emojiSelector then 0 else charWidth c) = charWidth c :=
        if_neg (not_or.mpr hc)
      obtain ⟨k', ks, heq, -, hks⟩ := clusters_from_steady (formed_singleton c) hcs
        (if charWidth c = 0 then none else some c)
      rw [clusters, hw, heq]
      exact hks

/-! ## Lines that fit -/

/-- At most blanks at the end of a line go beyond the limit. -/
def Fits (limit : Nat) (l : List Char) : Prop :=
  ∃ front back, l = front ++ back ∧ Blank back ∧ width front ≤ limit

theorem fits_of_width (h : width cs ≤ limit) : Fits limit cs :=
  ⟨cs, [], (List.append_nil cs).symm, List.forall_mem_nil _, h⟩

theorem fits_of_blank (h : Blank cs) : Fits limit cs :=
  ⟨[], cs, rfl, h, Nat.zero_le limit⟩

/-- The blanks at the end of a text are those that come behind its trimmed form. -/
theorem exists_trim_end (cs : List Char) : ∃ back, cs = trimEnd cs ++ back ∧ Blank back ∧
    back.length = (cs.reverse.takeWhile isBlank).length := by
  refine ⟨(cs.reverse.takeWhile isBlank).reverse, ?_, fun c hc => ?_, List.length_reverse⟩
  · rw [trimEnd, ← List.reverse_append, List.takeWhile_append_dropWhile, List.reverse_reverse]
  · exact List.mem_takeWhile_imp (List.mem_reverse.mp hc)

theorem Clustered.tail {k : Cluster} {ks : List Cluster} (h : Clustered (k :: ks) cs) :
    Clustered ks (ks.flatMap Cluster.chars) :=
  ⟨rfl, (List.forall_mem_cons.mp h.formed).2, fun k hk => h.columns k (List.mem_of_mem_tail hk)⟩

/-- What begins a cluster is as wide as the cluster. -/
theorem Cluster.Formed.columns_le {k : Cluster} (hk : k.Formed) {front back : List Char}
    (hsteady : Steady front) (hne : front ≠ []) (hchars : k.chars = front ++ back) :
    k.columns ≤ width front := by
  obtain ⟨c, zs, hzs, hcolumns, -⟩ := hk
  obtain ⟨d, front, rfl⟩ := List.exists_cons_of_ne_nil hne
  rw [hzs, List.cons_append] at hchars
  rw [width_cons hsteady, hcolumns, (List.cons.inj hchars).1]
  exact Nat.le_add_right _ _

/-- The clusters that do not fit hold blanks only. -/
theorem ink_fit_front {front back : List Char} {ks : List Cluster}
    (hsteady : Steady (front ++ back)) (hks : Clustered ks (front ++ back)) (hback : Blank back)
    (hfront : width front ≤ limit) (hlimit : 0 < limit ∨ ∀ k ∈ ks, 0 < k.columns) :
    ink (fitFront limit ks) = ink front := by
  induction ks generalizing limit front back with
  | nil =>
      obtain ⟨rfl, -⟩ := List.append_eq_nil_iff.mp hks.chars.symm
      cases limit <;> rfl
  | cons k ks ih =>
      have hk : k.Formed := hks.formed k List.mem_cons_self
      have hchars : k.chars ++ ks.flatMap Cluster.chars = front ++ back := hks.chars
      have hpos : ∀ limit, 0 < limit ∨ ∀ k ∈ ks, 0 < k.columns := fun _ => Or.inr hks.columns
      rcases List.append_eq_append_iff.mp hchars with ⟨as, rfl, hrest⟩ | ⟨bs, hfirst, rfl⟩
      · -- The cluster belongs to what fits.
        have hparts := (steady_append.mp hsteady).1
        have hwidth : width (k.chars ++ as) = k.columns + width as := by
          rw [width_append hparts, hk.width_eq (steady_append.mp hparts).1]
        rw [List.append_assoc] at hsteady
        have hmore := ih (steady_append.mp hsteady).2 (hrest ▸ hks.tail) hback
          (show width as ≤ limit - k.columns by omega) (hpos _)
        cases limit with
        | zero =>
            have := hlimit.resolve_left (Nat.lt_irrefl 0) k List.mem_cons_self
            omega
        | succ limit => rw [fitFront, if_pos (by omega), ink_append, ink_append, hmore]
      · -- The rest of the cluster is blank, and so are those behind it.
        have hempty : limit < k.columns → front = [] := by
          intro hover
          by_contra hne
          have := hk.columns_le (steady_append.mp hsteady).1 hne hfirst
          omega
        have hbs := (List.forall_mem_append.mp hback).1
        have hmore := ih (steady_append.mp (steady_append.mp hsteady).2).2 hks.tail
          (List.forall_mem_append.mp hback).2 
          (show width [] ≤ limit - k.columns from Nat.zero_le _) (hpos _)
        cases limit with
        | zero =>
            have := hlimit.resolve_left (Nat.lt_irrefl 0) k List.mem_cons_self
            rw [hempty this]
            rfl
        | succ limit =>
            rw [fitFront]
            split
            next => rw [hfirst, ink_append, ink_append, ink_blank hbs, hmore]; simp [ink]
            next hover =>
              rw [hempty (Nat.lt_of_not_le hover)]
              rfl

/-- Of a line that fits, cutting takes blanks only. -/
theorem ink_crop (hlimit : 0 < limit) (hcs : Steady cs) (h : Fits limit cs) :
    ink (crop true limit cs) = ink cs := by
  obtain ⟨front, back, rfl, hback, hfront⟩ := h
  rw [crop]
  split
  next => rfl
  next =>
    rw [if_pos rfl, ink_fit_front hcs (clusters_steady hcs) hback hfront (Or.inl hlimit),
      ink_append, ink_blank hback, List.append_nil]

theorem Fits.of_prefix {back : List Char} (hsteady : Steady (cs ++ back))
    (h : Fits limit (cs ++ back)) : Fits limit cs := by
  obtain ⟨front, blanks, heq, hblanks, hfront⟩ := h
  rcases List.append_eq_append_iff.mp heq with ⟨as, rfl, -⟩ | ⟨bs, rfl, rfl⟩
  · rw [heq] at hsteady
    have hwidth := width_append (steady_append.mp hsteady).1
    exact fits_of_width (by omega)
  · exact ⟨front, bs, rfl, (List.forall_mem_append.mp hblanks).1, hfront⟩

/-- Trimming a line takes blanks at its end only. -/
theorem exists_trim_beyond (limit : Nat) (cs : List Char) :
    ∃ back, cs = trimBeyond limit cs ++ back ∧ Blank back := by
  obtain ⟨back, hback, hblank, hlength⟩ := exists_trim_end cs
  refine ⟨_, (List.take_append_drop _ cs).symm, fun c hc => hblank c ?_⟩
  have htotal := congrArg List.length hback
  rw [List.length_append] at htotal
  have hfront : (trimEnd cs).drop (cs.length - min (cs.reverse.takeWhile isBlank).length
      (cs.length - limit)) = [] := List.drop_eq_nil_of_le (by omega)
  generalize cs.length - min _ _ = n at hc hfront
  rw [hback, List.drop_append, hfront] at hc
  exact List.mem_of_mem_drop hc

/-- What is shown of a line that fits are its characters, but for blanks. -/
theorem ink_crop_trim_beyond (hlimit : 0 < limit) (hcs : Steady cs) (h : Fits limit cs) :
    ink (crop true limit (trimBeyond limit cs)) = ink cs := by
  obtain ⟨back, hback, hblank⟩ := exists_trim_beyond limit cs
  have hsteady : Steady (trimBeyond limit cs ++ back) := hback ▸ hcs
  have hfits : Fits limit (trimBeyond limit cs) := Fits.of_prefix hsteady (hback ▸ h)
  calc ink (crop true limit (trimBeyond limit cs))
      _ = ink (trimBeyond limit cs) := ink_crop hlimit (steady_append.mp hsteady).1 hfits
      _ = ink (trimBeyond limit cs ++ back) := by
        rw [ink_append, ink_blank hblank, List.append_nil]
      _ = ink cs := by rw [← hback]

/-! ## Words -/

variable {fuel : Nat}

theorem spaced_words_blank (h : Blank cs) : spacedWords fuel cs = [] := by
  cases fuel with
  | zero => rfl
  | succ fuel => simp [spacedWords, List.dropWhile_eq_nil_iff.mpr h]

/-- The first word of a text takes all blanks around it along. -/
theorem exists_first_word (h : ¬ Blank cs) (fuel : Nat) : ∃ word rest,
    spacedWords (fuel + 1) cs = word :: spacedWords fuel rest ∧ cs = word ++ rest ∧ word ≠ [] ∧
      (Blank rest → rest = []) := by
  obtain ⟨c, rest, hrest⟩ := List.exists_cons_of_ne_nil fun hnil =>
    h (List.dropWhile_eq_nil_iff.mp hnil)
  have hc : isBlank c = false := by
    have hhead := List.head?_dropWhile_not isBlank cs
    rw [hrest] at hhead
    simpa using hhead
  let front := cs.takeWhile isBlank
  let core := (c :: rest).takeWhile fun c => !isBlank c
  let behind := (c :: rest).drop core.length
  let back := behind.takeWhile isBlank
  have hcore : core = c :: rest.takeWhile fun c => !isBlank c :=
    List.takeWhile_cons_of_pos (by simp [hc])
  have hback : behind = back ++ behind.drop back.length :=
    (List.prefix_iff_eq_append.mp (List.takeWhile_prefix _)).symm
  refine ⟨front ++ core ++ back, behind.drop back.length, ?_, ?_, ?_, ?_⟩
  · simp only [spacedWords, hrest]
    rw [if_neg (by simp [hc])]
  · have hsplit : cs = front ++ (c :: rest) := by
      rw [← hrest, List.takeWhile_append_dropWhile]
    have hword : c :: rest = core ++ behind :=
      (List.prefix_iff_eq_append.mp (List.takeWhile_prefix _)).symm
    calc cs
      _ = front ++ (core ++ (back ++ behind.drop back.length)) := by rw [← hback, ← hword, hsplit]
      _ = front ++ core ++ back ++ behind.drop back.length := by simp only [List.append_assoc]
  · simp [hcore]
  · intro hblank
    have hall : Blank behind := by
      rw [hback]
      exact List.forall_mem_append.mpr ⟨fun c hc => List.mem_takeWhile_imp hc, hblank⟩
    have hself : back = behind := List.takeWhile_eq_self_iff.mpr hall
    rw [hself, List.drop_length]

theorem flatten_spaced_words {fuel : Nat} (h : cs.length < fuel) (hcs : ¬ Blank cs) :
    (spacedWords fuel cs).flatten = cs := by
  induction fuel generalizing cs with
  | zero => exact absurd h (Nat.not_lt_zero _)
  | succ fuel ih =>
      obtain ⟨word, rest, hwords, rfl, hne, hrest⟩ := exists_first_word hcs fuel
      rw [hwords, List.flatten_cons]
      by_cases hblank : Blank rest
      · rw [spaced_words_blank hblank, hrest hblank]
        rfl
      · have hlength := List.length_pos_iff.mpr hne
        rw [List.length_append] at h
        rw [ih (by omega) hblank]

theorem ne_nil_of_mem_spaced_words {word : List Char} (h : word ∈ spacedWords fuel cs) :
    word ≠ [] := by
  induction fuel generalizing cs with
  | zero => cases h
  | succ fuel ih =>
      by_cases hblank : Blank cs
      · rw [spaced_words_blank hblank] at h
        cases h
      · obtain ⟨first, rest, hwords, -, hne, -⟩ := exists_first_word hblank fuel
        rw [hwords] at h
        rcases List.mem_cons.mp h with rfl | h
        · exact hne
        · exact ih h

/-! ## Filling lines -/

theorem ne_nil_of_width_pos (h : 0 < width cs) : cs ≠ [] := by
  rintro rfl
  exact absurd h (Nat.lt_irrefl 0)

/-- Cutting a word into chunks keeps its characters, and no chunk is wider than a line. -/
theorem flatten_chop {held : List Char} {ks : List Cluster}
    (hsteady : Steady (held ++ ks.flatMap Cluster.chars))
    (hks : ∀ k ∈ ks, k.Formed ∧ k.columns ≤ limit) (hheld : width held ≤ limit)
    (hpos : 0 < width held ∨ ∃ k ∈ ks, 0 < k.columns) :
    (chop limit held (width held) ks).flatten = held ++ ks.flatMap Cluster.chars ∧
      ∀ chunk ∈ chop limit held (width held) ks, chunk ≠ [] ∧ width chunk ≤ limit := by
  induction ks generalizing held with
  | nil =>
      have htaken : 0 < width held := hpos.resolve_right (by simp)
      rw [chop, if_neg (by omega)]
      exact ⟨by simp, List.forall_mem_singleton.mpr ⟨ne_nil_of_width_pos htaken, hheld⟩⟩
  | cons k ks ih =>
      obtain ⟨⟨hk, hcolumns⟩, hks⟩ := List.forall_mem_cons.mp hks
      rw [List.flatMap_cons, ← List.append_assoc] at hsteady ⊢
      have hboth := (steady_append.mp hsteady).1
      have hwidth := hk.width_eq (steady_append.mp hboth).2
      rw [chop, ← hwidth]
      split
      next hover =>
        rw [List.append_assoc] at hsteady
        obtain ⟨htext, hchunks⟩ := ih (steady_append.mp hsteady).2 hks (by omega)
          (Or.inl (by omega))
        refine ⟨by rw [List.flatten_cons, htext, List.append_assoc], List.forall_mem_cons.mpr ?_⟩
        exact ⟨⟨ne_nil_of_width_pos (by omega), hheld⟩, hchunks⟩
      next hfit =>
        have hadd := width_append hboth
        rw [← hadd] at hfit ⊢
        refine ih hsteady hks (by omega) ?_
        rcases hpos with hpos | ⟨l, hl, hpos⟩
        · exact Or.inl (by omega)
        · rcases List.mem_cons.mp hl with rfl | hl
          · exact Or.inl (by omega)
          · exact Or.inr ⟨l, hl, hpos⟩

/-- What the lines that are being filled keep: they hold the text so far, and fit. -/
structure Filling.Good (limit : Nat) (f : Filling) (cs : List Char) : Prop where
  text : f.done.flatten ++ f.line = cs
  taken : f.taken = width f.line
  fits : ∀ l ∈ f.done, Fits limit l
  line_fits : Fits limit f.line
  line_ne : cs ≠ [] → f.line ≠ []

variable {f : Filling} {word : List Char}

/-- A line that is broken is done, unless it is empty. -/
theorem Filling.Good.break (h : f.Good limit cs) :
    f.break.flatten = cs ∧ ∀ l ∈ f.break, Fits limit l := by
  rw [Filling.break]
  split
  next hempty => exact ⟨by simpa [List.isEmpty_iff.mp hempty] using h.text, h.fits⟩
  next =>
    refine ⟨by simpa using h.text, List.forall_mem_append.mpr ⟨h.fits, ?_⟩⟩
    exact List.forall_mem_singleton.mpr h.line_fits

/-- What comes next gets a line of its own. -/
theorem Filling.Good.next (h : f.Good limit cs) (hword : word ≠ []) (hfits : Fits limit word) :
    Filling.Good limit ⟨f.break, word, width word⟩ (cs ++ word) :=
  ⟨by rw [h.break.1], rfl, h.break.2, hfits, fun _ => hword⟩

theorem Filling.Good.chunks (h : f.Good limit cs) {chunks : List (List Char)}
    (hchunks : ∀ chunk ∈ chunks, chunk ≠ [] ∧ width chunk ≤ limit) :
    Filling.Good limit (chunks.foldl (fun f chunk => ⟨f.break, chunk, width chunk⟩) f)
      (cs ++ chunks.flatten) := by
  induction chunks generalizing f cs with
  | nil => simpa using h
  | cons chunk chunks ih =>
      obtain ⟨⟨hne, hwidth⟩, hchunks⟩ := List.forall_mem_cons.mp hchunks
      rw [List.foldl_cons, List.flatten_cons, ← List.append_assoc]
      exact ih (h.next hne (fits_of_width hwidth)) hchunks

/-- A word is put on the line if it fits, and otherwise on lines of its own. -/
theorem Filling.Good.add (hlimit : 2 ≤ limit) (h : f.Good limit cs) (hword : word ≠ [])
    (hsteady : Steady (cs ++ word)) : (f.add true limit word).Good limit (cs ++ word) := by
  obtain ⟨hcs, hsteadyWord⟩ := steady_append.mp hsteady
  have hline : Steady (f.line ++ word) := by
    rw [← h.text, List.append_assoc] at hsteady
    exact (steady_append.mp hsteady).2
  obtain ⟨back, hback, hblank, -⟩ := exists_trim_end word
  rw [Filling.add]
  split
  next hfit =>
    refine ⟨by rw [← List.append_assoc, h.text], ?_, h.fits, ?_, fun _ => by simp [hword]⟩
    · rw [width_append hline, h.taken]
    · refine ⟨f.line ++ trimEnd word, back, by rw [List.append_assoc, ← hback], hblank, ?_⟩
      have hfront : Steady (f.line ++ trimEnd word) := by
        rw [hback, ← List.append_assoc] at hline
        exact (steady_append.mp hline).1
      rw [width_append hfront, ← h.taken]
      exact hfit
  next =>
    split
    next hover =>
      have hclusters := clusters_steady hsteadyWord
      have hchars : Steady ([] ++ (clusters word).flatMap Cluster.chars) := by
        rwa [List.nil_append, hclusters.chars]
      have hwide : 0 < width word := by
        rw [hback] at hsteadyWord ⊢
        rw [width_append hsteadyWord]
        omega
      have hpos := exists_wide_cluster hclusters hsteadyWord hwide
      have hformed : ∀ k ∈ clusters word, k.Formed ∧ k.columns ≤ limit := by
        intro k hk
        obtain ⟨c, -, -, hcolumns, -⟩ := hclusters.formed k hk
        exact ⟨hclusters.formed k hk, hcolumns ▸ (char_width_le_two c).trans hlimit⟩
      obtain ⟨htext, hchunks⟩ := flatten_chop hchars hformed (Nat.zero_le limit) (Or.inr hpos)
      have hadd := h.chunks hchunks
      rw [htext, hclusters.chars] at hadd
      exact hadd
    next hsize => exact h.next hword ⟨trimEnd word, back, hback, hblank, Nat.le_of_not_lt hsize⟩

/-- Filling lines with all words keeps the text. -/
theorem Filling.Good.add_all (hlimit : 2 ≤ limit) {words : List (List Char)} (h : f.Good limit cs)
    (hwords : ∀ word ∈ words, word ≠ []) (hsteady : Steady (cs ++ words.flatten)) :
    (words.foldl (Filling.add true limit) f).Good limit (cs ++ words.flatten) := by
  induction words generalizing f cs with
  | nil => simpa using h
  | cons word words ih =>
      obtain ⟨hword, hwords⟩ := List.forall_mem_cons.mp hwords
      rw [List.flatten_cons, ← List.append_assoc] at hsteady ⊢
      exact ih (h.add hlimit hword (steady_append.mp hsteady).1) hwords hsteady

/-! ## Whole texts -/

theorem ink_join_with {sep : Char} (hsep : isBlank sep = true) (ps : List (List Char)) :
    ink (joinWith sep ps) = ps.flatMap ink := by
  induction ps with
  | nil => rfl
  | cons p ps ih =>
      cases ps with
      | nil => simp [joinWith]
      | cons q ps =>
          rw [joinWith, ink_append, ink_cons_blank hsep, ih]
          rfl

theorem steady_join_with {sep : Char} {ps : List (List Char)} (h : Steady (joinWith sep ps)) :
    ∀ p ∈ ps, Steady p := by
  induction ps with
  | nil => exact List.forall_mem_nil _
  | cons p ps ih =>
      cases ps with
      | nil => exact List.forall_mem_singleton.mpr h
      | cons q ps =>
          obtain ⟨hp, hps⟩ := steady_append.mp h
          exact List.forall_mem_cons.mpr ⟨hp, ih (List.forall_mem_cons.mp hps).2⟩

theorem blank_replicate (n : Nat) : Blank (List.replicate n ' ') := by
  intro c hc
  rw [List.eq_of_mem_replicate hc]
  rfl

/-- Blanks in place of tabs are blanks still. -/
theorem ink_spread_tabs (taken : Nat) (ps : List (List Char)) :
    ink (spreadTabs taken ps) = ps.flatMap ink := by
  induction ps generalizing taken with
  | nil => rfl
  | cons p ps ih =>
      cases ps with
      | nil => simp [spreadTabs]
      | cons q ps =>
          have hspace : ink [' '] = [] := rfl
          rw [spreadTabs, ink_append, ink_append, ink_append, hspace, ink_blank (blank_replicate _),
            ih, List.append_nil, List.append_nil]
          rfl

theorem steady_spread_tabs {ps : List (List Char)} (h : ∀ p ∈ ps, Steady p) (taken : Nat) :
    Steady (spreadTabs taken ps) := by
  have hspace : ' ' ≠ joiner ∧ ' ' ≠ emojiSelector := by decide
  induction ps generalizing taken with
  | nil => exact List.forall_mem_nil _
  | cons p ps ih =>
      obtain ⟨hp, hps⟩ := List.forall_mem_cons.mp h
      cases ps with
      | nil => exact hp
      | cons q ps =>
          refine steady_append.mpr ⟨steady_append.mpr ⟨steady_append.mpr ⟨hp, ?_⟩, ?_⟩, ih hps _⟩
          · exact List.forall_mem_singleton.mpr hspace
          · exact fun c hc => List.eq_of_mem_replicate hc ▸ hspace

theorem ink_expand_tabs (cs : List Char) : ink (expandTabs cs) = ink cs := by
  have htab : isBlank '\t' = true := rfl
  rw [expandTabs, ink_spread_tabs, ← ink_join_with htab, joinWith_splitOn]

theorem steady_expand_tabs (h : Steady cs) : Steady (expandTabs cs) := by
  rw [← joinWith_splitOn '\t' cs] at h
  exact steady_spread_tabs (steady_join_with h) 0

/-- The lines that a line is broken into hold all of its characters but blanks. -/
theorem ink_wrap_line (hlimit : 2 ≤ limit) (h : Steady cs) :
    (wrapLine true limit cs).flatMap ink = ink cs := by
  rw [← ink_expand_tabs cs]
  have hsteady := steady_expand_tabs h
  generalize hexpanded : expandTabs cs = ds at hsteady
  simp only [wrapLine, hexpanded]
  generalize hwords : spacedWords (ds.length + 1) ds = words
  have hcrop : ∀ ls : List (List Char), (∀ l ∈ ls, Steady l ∧ Fits limit l) →
      (ls.map fun l => crop true limit (trimBeyond limit l)).flatMap ink = ink ls.flatten := by
    intro ls hls
    rw [List.flatMap_map, ← ink_flatten]
    exact List.flatMap_congr fun l hl => ink_crop_trim_beyond (by omega) (hls l hl).1 (hls l hl).2
  by_cases hblank : Blank ds
  · rw [spaced_words_blank hblank] at hwords
    subst hwords
    have hone := hcrop [ds] (List.forall_mem_singleton.mpr ⟨hsteady, fits_of_blank hblank⟩)
    simpa using hone
  · have hflat := flatten_spaced_words (Nat.lt_succ_self ds.length) hblank
    rw [hwords] at hflat
    have hstart : Filling.Good limit ⟨[], [], 0⟩ [] :=
      ⟨rfl, rfl, List.forall_mem_nil _, fits_of_blank (List.forall_mem_nil _), fun hne => hne⟩
    have hne : ∀ word ∈ words, word ≠ [] := by
      rw [← hwords]
      exact fun word hword => ne_nil_of_mem_spaced_words hword
    have hgood := hstart.add_all hlimit hne (by rwa [List.nil_append, hflat])
    rw [List.nil_append, hflat] at hgood
    generalize words.foldl (Filling.add true limit) ⟨[], [], 0⟩ = f at hgood ⊢
    have hline := hgood.line_ne fun hnil => hblank (hnil ▸ List.forall_mem_nil _)
    rw [if_neg (by simpa using hline)]
    have htext : (f.done ++ [f.line]).flatten = ds := by simpa using hgood.text
    have hfits : ∀ l ∈ f.done ++ [f.line], Fits limit l :=
      List.forall_mem_append.mpr ⟨hgood.fits, List.forall_mem_singleton.mpr hgood.line_fits⟩
    rw [hcrop, htext]
    intro l hl
    refine ⟨fun c hc => hsteady c ?_, hfits l hl⟩
    rw [← htext]
    exact List.mem_flatten_of_mem hl hc

/-- The lines of a text hold all of its characters but blanks, in order. -/
theorem wrap_ink (hlimit : 2 ≤ limit) (h : Steady cs) :
    (wrap true limit cs).flatMap ink = ink cs := by
  have hend : isBlank '\n' = true := rfl
  have hlines : ∀ l ∈ splitOn '\n' cs, Steady l := by
    rw [← joinWith_splitOn '\n' cs] at h
    exact steady_join_with h
  rw [wrap, List.flatMap_assoc, List.flatMap_congr fun l hl => ink_wrap_line hlimit (hlines l hl),
    ← ink_join_with hend, joinWith_splitOn]

end Statechart.Text
