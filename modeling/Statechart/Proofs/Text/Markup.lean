import Statechart.Proofs.Outcome
import Statechart.Text.Markup

/-!
# Text that markup shows as it is

`isVerbatim` says of a text that nothing in it has a meaning as markup: it holds no tag, no escaped
bracket, no code of a picture, and no character that moves the cursor. Behind a heading in a style
of its own such a text is shown as it is: `render_headed`.
-/

namespace Statechart.Text.Markup

/-- Whether a text holds neither a tag nor a bracket behind a backslash; `slashed` says whether
there is a backslash in front of it. -/
def isUntagged : (slashed : Bool) → List Char → Bool
  | _, [] => true
  | slashed, c :: cs =>
      (c ≠ '[' || (!slashed && (tag? cs).isNone)) && isUntagged (c == '\\') cs

/-- Whether a text is shown as it is. -/
def isVerbatim (cs : List Char) : Bool :=
  isUntagged false cs && Emoji.replace cs == cs && cs.all isShown

/-- Whether there is neither a bracket nor a backslash in a text. -/
def isPlain (cs : List Char) : Bool :=
  cs.all fun c => c ≠ '[' ∧ c ≠ '\\'

variable {fuel : Nat} {slashed : Bool} {held cs rest body : List Char} {c : Char}

/-! ## Pieces -/

theorem is_untagged_cons (h : isUntagged slashed (c :: cs) = true) :
    (c = '[' → slashed = false ∧ tag? cs = none) ∧ isUntagged (c == '\\') cs = true := by
  simp only [isUntagged, Bool.and_eq_true, Bool.or_eq_true, decide_eq_true_eq] at h
  refine ⟨fun hc => ?_, h.2⟩
  simpa [hc] using h.1

theorem is_untagged_drop (h : isUntagged slashed cs = true) (n : Nat) :
    ∃ slashed, isUntagged slashed (cs.drop n) = true := by
  induction n generalizing slashed cs with
  | zero => exact ⟨slashed, h⟩
  | succ n ih =>
      cases cs with
      | nil => exact ⟨slashed, h⟩
      | cons c cs => exact ih (is_untagged_cons h).2

/-- Text without tags is one piece, however often the fuel lets it be looked at. -/
theorem cut_untagged (h : isUntagged slashed cs = true) :
    cut fuel held cs = plainPiece (held.reverse ++ cs) := by
  induction fuel generalizing slashed held cs with
  | zero => rfl
  | succ fuel ih =>
      cases cs with
      | nil => simp [cut]
      | cons c cs =>
          generalize hslashes : (c :: cs).takeWhile (· = '\\') = slashes
          generalize hrest : (c :: cs).drop slashes.length = rest
          have hsplit : c :: cs = slashes ++ rest := by
            rw [← hrest, ← hslashes, List.prefix_iff_eq_append.mp (List.takeWhile_prefix _)]
          have hreverse : slashes.reverse = slashes := by
            have hall : ∀ d ∈ slashes, d = '\\' := by
              have hfilter := List.all_takeWhile (p := (· = '\\')) (l := c :: cs)
              simpa [hslashes] using hfilter
            rw [List.eq_replicate_of_mem hall, List.reverse_replicate]
          obtain ⟨behind, hbehind⟩ := is_untagged_drop h slashes.length
          rw [hrest] at hbehind
          simp only [cut, hslashes, hrest]
          -- What comes after the backslashes: a bracket, another character, or nothing.
          split
          next rest =>
            obtain ⟨hbracket, hcs⟩ := is_untagged_cons hbehind
            rw [(hbracket rfl).2, ih hcs, hsplit]
            simp [hreverse]
          next d rest _ =>
            rw [ih (is_untagged_cons hbehind).2, hsplit]
            simp [hreverse]
          next => rw [hsplit, List.reverse_append, hreverse, List.append_nil]

/-- What is neither a bracket nor a backslash is held back. -/
theorem cut_plain {front : List Char} (hfront : isPlain front = true) :
    cut (fuel + front.length) held (front ++ cs) = cut fuel (front.reverse ++ held) cs := by
  induction front generalizing held with
  | nil => rfl
  | cons c front ih =>
      obtain ⟨⟨hbracket, hslash⟩, hfront⟩ : (c ≠ '[' ∧ c ≠ '\\') ∧ isPlain front = true := by
        simpa [isPlain] using hfront
      have hslashes : (c :: (front ++ cs)).takeWhile (· = '\\') = [] := by simp [hslash]
      rw [List.length_cons, ← Nat.add_assoc, List.cons_append, cut]
      simp only [hslashes, List.length_nil, List.drop_zero]
      rw [List.singleton_append, ih hfront, List.reverse_cons, List.append_assoc]
      rfl

/-- A tag ends the plain text in front of it. -/
theorem cut_tag (h : tag? cs = some (body, rest)) :
    cut (fuel + 1) held ('[' :: cs) =
      plainPiece held.reverse ++ pieceOf body :: cut fuel [] rest := by
  simp [cut, h, plainPiece]

/-! ## Text that is shown as it is -/

/-- Without brackets behind backslashes there is nothing to take away. -/
theorem unescape_untagged (h : isUntagged slashed cs = true) : unescape cs = cs := by
  induction cs generalizing slashed with
  | nil => rfl
  | cons c cs ih =>
      have hcs := ih (is_untagged_cons h).2
      unfold unescape
      split
      next rest heq =>
        obtain ⟨rfl, rfl⟩ := List.cons.inj heq
        exact absurd ((is_untagged_cons (is_untagged_cons h).2).1 rfl).1 (by simp)
      next heq =>
        obtain ⟨rfl, rfl⟩ := List.cons.inj heq
        rw [hcs]
      next heq => cases heq

theorem is_verbatim_iff : isVerbatim cs = true ↔
    isUntagged false cs = true ∧ Emoji.replace cs = cs ∧ ∀ c ∈ cs, isShown c = true := by
  simp [isVerbatim, and_assoc]

theorem plain_text_verbatim (h : isVerbatim cs = true) : plainText (unescape cs) = cs := by
  obtain ⟨huntagged, hcodes, hshown⟩ := is_verbatim_iff.mp h
  rw [unescape_untagged huntagged, plainText, hcodes, List.filter_eq_self.mpr hshown]

/-- A blank in front makes no difference. -/
theorem is_verbatim_space (h : isVerbatim cs = true) : isVerbatim (' ' :: cs) = true := by
  obtain ⟨huntagged, hcodes, hshown⟩ := is_verbatim_iff.mp h
  refine is_verbatim_iff.mpr ⟨?_, ?_, List.forall_mem_cons.mpr ⟨rfl, hshown⟩⟩
  · simpa [isUntagged] using huntagged
  · exact congrArg (List.cons ' ') hcodes

/-! ## Headings -/

/-- The tag of headings. -/
def red : List Char :=
  ['r', 'e', 'd']

/-- The style of headings is a colour, if anything. -/
theorem read_red : Style.read red =
    (Style.checkColour red).map fun _ => ⟨[], some "red", none, none⟩ := by
  have hlower : lower red = red := rfl
  have hcolour : Style.readColour red = (Style.checkColour red).map fun _ => "red" := by
    rw [Style.readColour, hlower]
    cases Style.checkColour red <;> rfl
  have hword : ∀ s : Style, s.readWord red =
      (Style.checkColour red).map fun _ => { s with colour := some "red" } := by
    intro s
    have hattribute : s.setAttribute true (lower red) = .error .unknown := rfl
    simp only [Style.readWord, hattribute, hcolour]
    cases Style.checkColour red <;> rfl
  have hwords : wordsOf red = [red] := rfl
  rw [Style.read, if_neg (by decide), hwords, Style.readWords, if_neg (by decide), hword]

/-- The tag of headings is compared under its own name, whether or not it names a colour. -/
theorem normal_red : normal red = .ok red := by
  have hcheck : Style.checkColour red = .ok () ∨ Style.checkColour red = .error .unknown := by
    unfold Style.checkColour
    split
    · exact Or.inl rfl
    · exact Or.inr rfl
  rw [normal, Style.normal, read_red]
  rcases hcheck with h | h
  · rw [h]
    rfl
  · rw [h]
    rfl

/-- A heading in its own style, and what follows it. -/
def headed (heading rest : List Char) : List Char :=
  '[' :: (red ++ ']' :: (heading ++ '[' :: '/' :: (red ++ ']' :: ' ' :: rest)))

variable {heading : List Char}

/-- A heading is three pieces, and those of what follows it come behind them. -/
theorem pieces_headed (hne : heading ≠ []) (hplain : isPlain heading = true)
    (cs : List Char) : pieces (headed heading cs) =
      .opening ⟨red, none⟩ :: .plain heading :: .closing red ::
        cut (cs.length + 11) [] (' ' :: cs) := by
  have hopen : tag? (red ++ ']' :: (heading ++ '[' :: '/' :: (red ++ ']' :: ' ' :: cs))) =
      some (red, heading ++ '[' :: '/' :: (red ++ ']' :: ' ' :: cs)) := rfl
  have hclose : tag? ('/' :: (red ++ ']' :: ' ' :: cs)) = some ('/' :: red, ' ' :: cs) := rfl
  have hlength : (headed heading cs).length + 1 = (cs.length + 12) + heading.length + 1 := by
    simp [headed, red]
    omega
  rw [pieces, hlength, headed, cut_tag hopen, cut_plain hplain, cut_tag hclose]
  simp [plainPiece, hne, pieceOf, red]

/-- After a heading no tag is open, and the heading is shown as it is. -/
theorem render_heading (hne : heading ≠ []) (hplain : isPlain heading = true)
    (hheading : isVerbatim heading = true) (cs : List Char) : render (headed heading cs) = (do
      let r ← (cut (cs.length + 11) [] (' ' :: cs)).foldlM Reading.add
        ⟨[], [⟨red, none⟩], [heading]⟩
      (r.tags ++ r.stack).forM Tag.check
      return r.shown.reverse.flatten) := by
  have hbracket : (headed heading cs).contains '[' = true := rfl
  have hopened : Reading.add ⟨[], [], []⟩ (.opening ⟨red, none⟩) = .ok ⟨[⟨red, none⟩], [], []⟩ := by
    rw [Reading.add, normal_red]
    rfl
  have hclosed : Reading.add ⟨[⟨red, none⟩], [], [heading]⟩ (.closing red) =
      .ok ⟨[], [⟨red, none⟩], [heading]⟩ := by
    rw [Reading.add, show strip red = red from rfl, normal_red]
    rfl
  rw [render, if_pos hbracket, pieces_headed hne hplain, List.foldlM_cons, hopened, ok_bind,
    List.foldlM_cons, Reading.add, plain_text_verbatim hheading, ok_bind, List.foldlM_cons, hclosed,
    ok_bind]

/-- Behind a heading, text without a meaning as markup is shown as it is. -/
theorem render_headed (hne : heading ≠ []) (hplain : isPlain heading = true)
    (hheading : isVerbatim heading = true) (hcs : isVerbatim cs = true) :
    render (headed heading cs) = .ok (heading ++ ' ' :: cs) := by
  have hspace := is_verbatim_space hcs
  rw [render_heading hne hplain hheading, cut_untagged (is_verbatim_iff.mp hspace).1]
  simp [plainPiece, Reading.add, plain_text_verbatim hspace, Tag.check, pure, Except.pure]

/-- Behind a heading, a closing tag cannot be the first one. -/
theorem render_unopened (hne : heading ≠ []) (hplain : isPlain heading = true)
    (hheading : isVerbatim heading = true) {front name : List Char}
    (hfront : isPlain front = true) (htag : tag? cs = some ('/' :: name, rest))
    (hname : ∃ n, normal (strip (name.takeWhile (· ≠ '='))) = .ok n) :
    render (headed heading (front ++ '[' :: cs)) = .error .malformed := by
  have hspace : isPlain (' ' :: front) = true := by simpa [isPlain] using hfront
  have hlength : (front ++ '[' :: cs).length + 11 = cs.length + 10 + 1 + (' ' :: front).length := by
    simp
    omega
  have hpieces : cut ((front ++ '[' :: cs).length + 11) [] (' ' :: (front ++ '[' :: cs)) =
      .plain (' ' :: front) :: pieceOf ('/' :: name) :: cut (cs.length + 10) [] rest := by
    rw [hlength, ← List.cons_append, cut_plain hspace, cut_tag htag]
    simp [plainPiece]
  have hpiece : pieceOf ('/' :: name) = .closing (name.takeWhile (· ≠ '=')) := by
    simp [pieceOf]
  obtain ⟨n, hn⟩ := hname
  have hclosing : ∀ r : Reading, r.stack = [] →
      r.add (.closing (name.takeWhile (· ≠ '='))) = .error .malformed := by
    intro r hr
    simp only [Reading.add, hr, hn]
    split <;> rfl
  rw [render_heading hne hplain hheading, hpieces, hpiece, List.foldlM_cons, Reading.add, ok_bind,
    List.foldlM_cons, hclosing _ rfl]
  rfl

end Statechart.Text.Markup
