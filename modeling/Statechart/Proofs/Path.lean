import Statechart.Path
import Mathlib.Data.List.Infix
import Mathlib.Data.List.Nodup

/-!
# Laws of paths

A path lies below its proper prefixes, which are its ancestors: `is_below_iff` and `mem_ancestors`
give both in one form. `keys_of_dotted` says that the dotted form of a path other than the root
determines the path when no key holds a dot; with the root, which has the empty dotted form, there
is one exception, the path of a single empty key, and `of_dotted_dotted_iff` says that there is no
other.
-/

namespace Statechart

namespace Text

/-- A text without the separator is one piece. -/
theorem split_on_of_not_mem {sep : Char} {piece : List Char} (h : sep ∉ piece) :
    splitOn sep piece = [piece] := by
  induction piece with
  | nil => rfl
  | cons c piece ih =>
      obtain ⟨hc, hpiece⟩ : ¬ sep = c ∧ sep ∉ piece := by simpa using h
      simp [splitOn, Ne.symm hc, ih hpiece]

/-- The pieces on both sides of a separator are those of the text on either side. -/
theorem split_on_append (sep : Char) (as bs : List Char) :
    splitOn sep (as ++ sep :: bs) = splitOn sep as ++ splitOn sep bs := by
  induction as with
  | nil => simp [splitOn]
  | cons a as ih =>
      by_cases ha : a = sep
      · simp [splitOn, ha, ih]
      · cases hs : splitOn sep as with
        | nil => exact absurd hs (splitOn_ne_nil sep as)
        | cons p ps => simp [splitOn, ha, ih, hs]

/-- Splitting what was joined from pieces without the separator gives the pieces back. -/
theorem split_on_join_with (sep : Char) {pieces : List (List Char)} (hne : pieces ≠ [])
    (hsep : ∀ piece ∈ pieces, sep ∉ piece) : splitOn sep (joinWith sep pieces) = pieces := by
  induction pieces with
  | nil => exact absurd rfl hne
  | cons piece pieces ih =>
      have hfirst := split_on_of_not_mem (hsep piece (by simp))
      cases pieces with
      | nil => exact hfirst
      | cons next pieces =>
          rw [joinWith, split_on_append, hfirst,
            ih (by simp) fun p hp => hsep p (List.mem_cons_of_mem _ hp), List.singleton_append]

end Text

namespace Path

/-- The keys of a path hold no dot. -/
def DotFree (p : Path) : Prop :=
  ∀ k ∈ p, '.' ∉ k.toList

/-- The dotted form of a path below the root determines the path. -/
theorem keys_of_dotted {p : Path} (hne : p ≠ []) (hdots : p.DotFree) :
    keysOf p.dotted = p := by
  have hsplit : Text.splitOn '.' (Text.joinWith '.' (p.map String.toList)) =
      p.map String.toList :=
    Text.split_on_join_with '.' (by simpa using hne) (by simpa [DotFree] using hdots)
  simp [keysOf, dotted, String.toList_ofList, hsplit, Function.comp_def]

/-- The keys on both sides of a dot. -/
theorem keys_of_append (s t : String) : keysOf (s ++ "." ++ t) = keysOf s ++ keysOf t := by
  have hsplit := Text.split_on_append '.' s.toList t.toList
  simp [keysOf, String.toList_append, hsplit]

/-- The dotted form of a path behind a text and a dot is read as the keys of the text and the
path. -/
theorem of_dotted_append {p : Path} (hne : p ≠ []) (hdots : p.DotFree) (s : String) :
    ofDotted (s ++ "." ++ p.dotted) = keysOf s ++ p := by
  have hsome : (s ++ "." ++ p.dotted).isEmpty = false := by simp
  rw [ofDotted, hsome, keys_of_append, keys_of_dotted hne hdots]
  rfl

theorem dotted_singleton (k : String) : dotted [k] = k := by
  simp [dotted, Text.joinWith]

/-- The dotted form of a path of several keys starts with the first key and a dot. -/
theorem dotted_cons (k : String) {p : Path} (hne : p ≠ []) :
    dotted (k :: p) = k ++ "." ++ p.dotted := by
  cases p with
  | nil => exact absurd rfl hne
  | cons l p => exact String.ext (by simp [dotted, Text.joinWith, String.toList_append])

/-- A path that is followed by another has the dotted forms of both, joined by a dot. -/
theorem dotted_append {p q : Path} (hp : p ≠ []) (hq : q ≠ []) :
    dotted (p ++ q) = p.dotted ++ "." ++ q.dotted := by
  induction p with
  | nil => exact absurd rfl hp
  | cons k p ih =>
      by_cases hnil : p = []
      · simp [hnil, dotted_singleton, dotted_cons k hq]
      · rw [List.cons_append, dotted_cons k (by simp [hq]), dotted_cons k hnil, ih hnil]
        simp only [String.append_assoc]

/-- Two paths below the root with one dotted form are the same. -/
theorem dotted_inj {p q : Path} (hp : p ≠ []) (hq : q ≠ []) (hpdots : p.DotFree)
    (hqdots : q.DotFree) : p.dotted = q.dotted ↔ p = q := by
  refine ⟨fun h => ?_, fun h => h ▸ rfl⟩
  rw [← keys_of_dotted hp hpdots, h, keys_of_dotted hq hqdots]

/-- The empty text is the dotted form of the root, and of its child under the empty key. -/
theorem dotted_eq_empty_iff {p : Path} (hdots : p.DotFree) : p.dotted = "" ↔ p = [] ∨ p = [""] := by
  constructor
  · intro h
    by_cases hne : p = []
    · exact Or.inl hne
    · have hkeys : keysOf "" = p := h ▸ keys_of_dotted hne hdots
      exact Or.inr (hkeys ▸ rfl)
  · intro h
    rcases h with rfl | rfl <;> rfl

/-- The dotted form of a path leads back to it, unless it is that of the child of the root under the
empty key, which leads to the root. -/
theorem of_dotted_dotted_iff {p : Path} (hdots : p.DotFree) :
    ofDotted p.dotted = p ↔ p ≠ [""] := by
  by_cases hempty : p.dotted = ""
  · rcases (dotted_eq_empty_iff hdots).mp hempty with rfl | rfl <;> decide
  · have hne : p ≠ [] := fun h => hempty ((dotted_eq_empty_iff hdots).mpr (Or.inl h))
    have hne' : p ≠ [""] := fun h => hempty ((dotted_eq_empty_iff hdots).mpr (Or.inr h))
    have hback : ofDotted p.dotted = p := by
      simp [ofDotted, hempty, keys_of_dotted hne hdots]
    exact iff_of_true hback hne'

/-- Paths with one dotted form are the same, unless they are the root and its child under the empty
key. -/
theorem dotted_eq_dotted_iff {p q : Path} (hp : p.DotFree) (hq : q.DotFree) :
    p.dotted = q.dotted ↔ p = q ∨ (p = [] ∧ q = [""]) ∨ (p = [""] ∧ q = []) := by
  by_cases hempty : q.dotted = ""
  · rw [hempty, dotted_eq_empty_iff hp]
    rcases (dotted_eq_empty_iff hq).mp hempty with rfl | rfl <;> simp [or_comm]
  · have hpq : p.dotted = q.dotted ↔ p = q := by
      refine ⟨fun h => ?_, fun h => h ▸ rfl⟩
      have hne : ∀ r : Path, r.DotFree → r.dotted ≠ "" → r ≠ [] := fun r hr h heq =>
        h ((dotted_eq_empty_iff hr).mpr (Or.inl heq))
      exact (dotted_inj (hne p hp (h ▸ hempty)) (hne q hq hempty) hp hq).mp h
    have hnil : q ≠ [] := fun h => hempty ((dotted_eq_empty_iff hq).mpr (Or.inl h))
    have hkey : q ≠ [""] := fun h => hempty ((dotted_eq_empty_iff hq).mpr (Or.inr h))
    simp [hpq, hnil, hkey]

/-- A path lies below another when it extends it by at least one key. -/
theorem is_below_iff {p q : Path} : p.isBelow q = true ↔ ∃ k ks, p = q ++ k :: ks := by
  simp only [isBelow, Bool.and_eq_true, List.isPrefixOf_iff_prefix, decide_eq_true_eq]
  constructor
  · intro h
    obtain ⟨⟨rest, rfl⟩, hlen⟩ := h
    cases rest with
    | nil => simp at hlen
    | cons k ks => exact ⟨k, ks, rfl⟩
  · intro h
    obtain ⟨k, ks, rfl⟩ := h
    exact ⟨List.prefix_append _ _, by simp⟩

/-- A path lies below another when the other is one of its proper prefixes. -/
theorem is_below_iff_ne {p q : Path} : p.isBelow q = true ↔ q <+: p ∧ q ≠ p := by
  rw [is_below_iff]
  constructor
  · intro h
    obtain ⟨k, ks, rfl⟩ := h
    exact ⟨List.prefix_append _ _, by simp⟩
  · intro h
    obtain ⟨⟨rest, rfl⟩, hne⟩ := h
    cases rest with
    | nil => simp at hne
    | cons k ks => exact ⟨k, ks, rfl⟩

/-- Nothing lies below itself. -/
@[simp] theorem is_below_self (p : Path) : p.isBelow p = false := by
  simp [isBelow]

/-- Everything but the root lies below the root. -/
@[simp] theorem is_below_nil {p : Path} : p.isBelow [] = true ↔ p ≠ [] := by
  simp [is_below_iff_ne, Ne, @eq_comm _ [] p]

/-- What lies below a path lies below its prefixes. -/
theorem is_below_trans {p q r : Path} (hp : p.isBelow q = true) (hr : r <+: q) :
    p.isBelow r = true := by
  obtain ⟨k, ks, rfl⟩ := is_below_iff.mp hp
  obtain ⟨rest, rfl⟩ := hr
  rw [is_below_iff_ne]
  exact ⟨⟨rest ++ k :: ks, by simp⟩, fun h => by simpa using congrArg List.length h⟩

/-- What lies at or below something below a path lies below the path. -/
theorem is_below_mono {p q r : Path} (hq : q.isBelow r = true) (hp : q <+: p) :
    p.isBelow r = true := by
  obtain ⟨k, ks, rfl⟩ := is_below_iff.mp hq
  obtain ⟨rest, rfl⟩ := hp
  exact is_below_iff.mpr ⟨k, ks ++ rest, by simp⟩

/-- A child of a node lies below a path exactly when the node is there or below. -/
theorem is_below_concat {p q : Path} {k : String} : (p ++ [k]).isBelow q = true ↔ q <+: p := by
  rw [is_below_iff_ne, List.prefix_concat_iff]
  constructor
  · intro hp
    rcases hp with ⟨h | h, hne⟩
    · exact absurd h hne
    · exact h
  · intro h
    refine ⟨Or.inr h, fun heq => ?_⟩
    have hle : q.length ≤ p.length := h.length_le
    rw [heq, List.length_append, List.length_singleton] at hle
    omega

/-- Below a first key in common, one path lies below another as the rests of them do. -/
theorem cons_is_below_cons {k l : String} {p q : Path} :
    isBelow (k :: p) (l :: q) = true ↔ k = l ∧ p.isBelow q = true := by
  simp only [is_below_iff_ne, List.cons_prefix_cons, ne_eq, List.cons.injEq]
  constructor
  · intro hp
    obtain ⟨⟨rfl, hpre⟩, hne⟩ := hp
    exact ⟨rfl, hpre, fun h => hne ⟨rfl, h⟩⟩
  · intro hp
    obtain ⟨rfl, hpre, hne⟩ := hp
    exact ⟨⟨rfl, hpre⟩, fun h => hne h.2⟩

/-- A path lies below another when it is a prefix of it and not the same. -/
theorem is_below_of_ne {p q : Path} (h : q <+: p) (hne : q ≠ p) : p.isBelow q = true :=
  is_below_iff_ne.mpr ⟨h, hne⟩

/-- What lies at or below a child lies below its parent. -/
theorem is_below_of_step {p q : Path} {k : String} (h : q ++ [k] <+: p) : p.isBelow q = true := by
  obtain ⟨rest, rfl⟩ := h
  exact is_below_iff.mpr ⟨k, rest, by simp⟩

/-- On the way from a node to another, everything below the node is at or below the same child. -/
theorem first_step {d p q : Path} {k : String} (hq : d ++ [k] <+: q) (hp : p <+: q)
    (hd : p.isBelow d = true) : d ++ [k] <+: p := by
  rcases List.prefix_or_prefix_of_prefix hq hp with h | h
  · exact h
  · rcases List.prefix_concat_iff.mp h with h | h
    · exact h ▸ List.prefix_refl _
    · -- `p` lies below `d`, so it is no prefix of it.
      obtain ⟨hdp, hne⟩ := is_below_iff_ne.mp hd
      exact absurd (hdp.eq_of_length_le h.length_le) hne

/-- Above a child are its parent and what is above that. -/
theorem above_concat (p : Path) (k : String) : (p ++ [k]).above = p.above ++ [p] := by
  induction p with
  | nil => rfl
  | cons l p ih => simp [above, ih]

/-- The nearest ancestor of a child is its parent. -/
theorem ancestors_concat (p : Path) (k : String) : (p ++ [k]).ancestors = p :: p.ancestors := by
  simp [ancestors, above_concat]

/-- The ancestors of a path are its proper prefixes, the longest first. -/
theorem ancestors_eq_inits (p : Path) : p.ancestors = p.inits.dropLast.reverse := by
  have habove : p.above = p.inits.dropLast := by
    induction p with
    | nil => rfl
    | cons k p ih =>
        have hne : p.inits.map (k :: ·) ≠ [] := by cases p <;> simp
        rw [above, ih, List.inits_cons, List.dropLast_cons_of_ne_nil hne, List.map_dropLast]
  rw [ancestors, habove]

/-- The paths above a node are those that it lies below. -/
theorem mem_above {p q : Path} : q ∈ p.above ↔ p.isBelow q = true := by
  induction p generalizing q with
  | nil => simp [above, is_below_iff]
  | cons k p ih =>
      cases q with
      | nil => simp [above]
      | cons l q =>
          simp only [above, List.mem_cons, reduceCtorEq, false_or, List.mem_map, ih,
            List.cons.injEq, cons_is_below_cons]
          constructor
          · intro h
            obtain ⟨_, hbelow, rfl, rfl⟩ := h
            exact ⟨rfl, hbelow⟩
          · intro h
            obtain ⟨rfl, hbelow⟩ := h
            exact ⟨q, hbelow, rfl, rfl⟩

/-- The ancestors of a node are the paths that it lies below. -/
theorem mem_ancestors {p q : Path} : q ∈ p.ancestors ↔ p.isBelow q = true := by
  simp [ancestors, mem_above]

/-- The paths on the way from a node to the root are its prefixes. -/
theorem mem_self_or_ancestors {p q : Path} : q ∈ p :: p.ancestors ↔ q <+: p := by
  rw [List.mem_cons, mem_ancestors]
  constructor
  · intro hq
    rcases hq with rfl | hq
    · exact List.prefix_refl _
    · exact (is_below_iff_ne.mp hq).1
  · intro hq
    by_cases heq : q = p
    · exact Or.inl heq
    · exact Or.inr (is_below_of_ne hq heq)

/-- Among the paths above a node each lies above those that follow. -/
theorem pairwise_above (p : Path) : p.above.Pairwise fun q r => r.isBelow q = true := by
  induction p with
  | nil => simp [above]
  | cons k p ih =>
      rw [above, List.pairwise_cons]
      refine ⟨by simp, List.pairwise_map.mpr (ih.imp fun h => ?_)⟩
      exact cons_is_below_cons.mpr ⟨rfl, h⟩

/-- On the way from a node to the root each path lies below those that follow. -/
theorem pairwise_self_ancestors (p : Path) :
    (p :: p.ancestors).Pairwise fun q r => q.isBelow r = true :=
  List.pairwise_cons.mpr
    ⟨fun _ hq => mem_ancestors.mp hq, List.pairwise_reverse.mpr (pairwise_above p)⟩

/-- No path is listed twice among the ancestors of another. -/
theorem nodup_ancestors (p : Path) : p.ancestors.Nodup := by
  refine (pairwise_self_ancestors p).of_cons.imp fun hbelow heq => ?_
  simp [heq] at hbelow

/-- The first ancestor that passes a test lies at or below all ancestors that pass it. -/
theorem prefix_of_find_ancestors {p q r : Path} {test : Path → Bool}
    (hfind : p.ancestors.find? test = some q) (hr : p.isBelow r = true) (htest : test r = true) :
    r <+: q := by
  obtain ⟨-, nearer, farther, hsplit, hnearer⟩ := List.find?_eq_some_iff_append.mp hfind
  have hordered := hsplit ▸ (pairwise_self_ancestors p).of_cons
  have hmem : r ∈ nearer ++ q :: farther := hsplit ▸ mem_ancestors.mpr hr
  rcases List.mem_append.mp hmem with hmem | hmem
  · -- What is nearer than `q` fails the test.
    have hfails := hnearer r hmem
    simp [htest] at hfails
  · rcases List.mem_cons.mp hmem with rfl | hmem
    · exact List.prefix_refl r
    · have hbelow : q.isBelow r = true :=
        List.rel_of_pairwise_cons (List.pairwise_append.mp hordered).2.1 hmem
      exact (is_below_iff_ne.mp hbelow).1

end Path

end Statechart
