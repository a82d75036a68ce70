import Mathlib.Data.List.Infix
import Mathlib.Data.List.SplitBy

/-!
# Taking apart what was put together

Texts are put together of pieces with something between them: a separator after a name, a line end
after a line, an empty line between two sections. Whoever reads such a text has to find the pieces
again, and two texts that are equal have to be made of the same pieces. Each lemma here says so of
one way to put pieces together, and names what the pieces must not hold.

* A separator is looked for from the front (`eq_of_append_separator`). The first one that is found is
  the right one if none begins earlier, be it inside the piece or partly in the separator itself.
* Lines are found by their ends (`eq_of_endLines`), and lines with something between them by cutting
  at it. Cutting once more, at the empty lines, finds the sections (`Sectioned.splitOn_splitOn`).
* Blocks without anything between them are found by how they open (`splitBy_flatten_blocks`).
-/

namespace ApiGate.Text

variable {α : Type}

/-! ## Cutting at the first separator -/

section Separator

variable {sep front before before' after after' : List α}

/-- If there are two ways to cut, a separator begins in what the second leaves before it. -/
theorem eq_nil_of_append_separator (h : sep ++ after = between ++ (sep ++ after'))
    (hfirst : ¬sep <:+: front ++ between ++ sep.dropLast) : between = [] := by
  by_contra hne
  have hlength : sep.length ≤ (between ++ sep.dropLast).length := by
    have := List.length_pos_iff.2 hne
    rw [List.length_append, List.length_dropLast]
    omega
  have hsep : sep <+: between ++ (sep ++ after') := h ▸ List.prefix_append sep after
  have hcut : between ++ sep.dropLast <+: between ++ (sep ++ after') :=
    (List.prefix_append_right_inj between).2 (sep.dropLast_prefix.trans (List.prefix_append sep _))
  have hinside := (List.prefix_of_prefix_length_le hsep hcut hlength).isInfix
  rw [List.append_assoc] at hfirst
  exact hfirst (hinside.trans (List.suffix_append front _).isInfix)

/-- **The first separator is found again.** -/
theorem eq_of_append_separator (hbefore : ¬sep <:+: before ++ sep.dropLast)
    (hbefore' : ¬sep <:+: before' ++ sep.dropLast)
    (h : before ++ sep ++ after = before' ++ sep ++ after') :
    before = before' ∧ after = after' := by
  rw [List.append_assoc, List.append_assoc] at h
  rcases List.append_eq_append_iff.1 h with ⟨between, rfl, hrest⟩ | ⟨between, rfl, hrest⟩
  · obtain rfl := eq_nil_of_append_separator hrest hbefore'
    exact ⟨(List.append_nil before).symm, List.append_cancel_left hrest⟩
  · obtain rfl := eq_nil_of_append_separator hrest hbefore
    exact ⟨List.append_nil before', (List.append_cancel_left hrest).symm⟩

/-- A separator of one character begins nowhere but where it stands. -/
theorem eq_of_append_cons {c : α} (hbefore : c ∉ before) (hbefore' : c ∉ before')
    (h : before ++ c :: after = before' ++ c :: after') : before = before' ∧ after = after' := by
  have hnone : ∀ {cs : List α}, c ∉ cs → ¬[c] <:+: cs ++ [c].dropLast := by
    intro cs hcs hin
    rw [List.dropLast_singleton, List.append_nil] at hin
    exact hcs (hin.subset List.mem_cons_self)
  refine eq_of_append_separator (hnone hbefore) (hnone hbefore') ?_
  simpa using h

end Separator

/-! ## Lines -/

/-- **Lines are found again by their ends.** -/
theorem eq_of_endLines {c : α} {ls ls' : List (List α)} (hls : ∀ l ∈ ls, c ∉ l)
    (hls' : ∀ l ∈ ls', c ∉ l) (h : ls.flatMap (· ++ [c]) = ls'.flatMap (· ++ [c])) : ls = ls' := by
  induction ls generalizing ls' with
  | nil =>
    cases ls' with
    | nil => rfl
    | cons l' ls' => simp at h
  | cons l ls ih =>
    cases ls' with
    | nil => simp at h
    | cons l' ls' =>
      rw [List.forall_mem_cons] at hls hls'
      simp only [List.flatMap_cons, List.append_assoc, List.singleton_append] at h
      obtain ⟨rfl, hrest⟩ := eq_of_append_cons hls.1 hls'.1 h
      rw [ih hls.2 hls'.2 hrest]

/-- Lists whose members are told from each other by `f` are told from each other by their images. -/
theorem eq_of_map_eq {β : Type} {f : α → β} {l l' : List α}
    (hf : ∀ a ∈ l, ∀ a' ∈ l', f a = f a' → a = a') (h : l.map f = l'.map f) : l = l' := by
  induction l generalizing l' with
  | nil => exact (List.map_eq_nil_iff.1 h.symm).symm
  | cons a l ih =>
    obtain ⟨a', rest, rfl, ha, hrest⟩ := List.map_eq_cons_iff.1 h.symm
    have htail : ∀ b ∈ l, ∀ b' ∈ rest, f b = f b' → b = b' := fun b hb b' hb' =>
      hf b (List.mem_cons_of_mem a hb) b' (List.mem_cons_of_mem a' hb')
    rw [hf a List.mem_cons_self a' List.mem_cons_self ha.symm, ih htail hrest.symm]

section Between

variable {sep : List α}

theorem intercalate_cons (l : List α) (ls : List (List α)) :
    sep.intercalate (l :: ls) = l ++ ls.flatMap (sep ++ ·) := by
  induction ls generalizing l with
  | nil => simp
  | cons m ls ih =>
    rw [List.intercalate_cons_cons, ih, List.flatMap_cons, List.append_assoc, List.append_assoc]

theorem intercalate_append {ls ls' : List (List α)} (h : ls ≠ []) (h' : ls' ≠ []) :
    sep.intercalate (ls ++ ls') = sep.intercalate ls ++ sep ++ sep.intercalate ls' := by
  induction ls with
  | nil => exact absurd rfl h
  | cons l ls ih =>
    cases ls with
    | nil =>
      obtain ⟨l', rest, rfl⟩ := List.exists_cons_of_ne_nil h'
      rw [List.singleton_append, List.intercalate_cons_cons, List.intercalate_singleton]
    | cons m ls =>
      rw [List.cons_append, List.cons_append, List.intercalate_cons_cons, ← List.cons_append,
        ih (List.cons_ne_nil m ls), List.intercalate_cons_cons]
      simp only [List.append_assoc]

/-- Lines of which some are put together already, and then all. -/
theorem intercalate_flatten {blocks : List (List (List α))} (h : ∀ block ∈ blocks, block ≠ []) :
    sep.intercalate (blocks.map sep.intercalate) = sep.intercalate blocks.flatten := by
  induction blocks with
  | nil => rfl
  | cons block blocks ih =>
    rw [List.forall_mem_cons] at h
    cases blocks with
    | nil => simp
    | cons block' blocks =>
      have hne : (block' :: blocks).flatten ≠ [] := by
        rw [List.flatten_ne_nil_iff]
        exact ⟨block', List.mem_cons_self, h.2 block' List.mem_cons_self⟩
      rw [List.map_cons, List.flatten_cons, intercalate_append h.1 hne, ← ih h.2, List.map_cons,
        List.intercalate_cons_cons]

theorem intercalate_sections_ne_nil {sections : List (List (List α))} (hne : sections ≠ [])
    (h : ∀ lines ∈ sections, lines ≠ []) : [[]].intercalate sections ≠ [] := by
  obtain ⟨lines, rest, rfl⟩ := List.exists_cons_of_ne_nil hne
  obtain ⟨l, more, rfl⟩ := List.exists_cons_of_ne_nil (h lines List.mem_cons_self)
  cases rest with
  | nil => simp
  | cons _ _ => simp [List.intercalate_cons_cons]

theorem mem_intercalate_sections {sections : List (List (List α))} {l : List α}
    (h : l ∈ [[]].intercalate sections) : l = [] ∨ ∃ lines ∈ sections, l ∈ lines := by
  induction sections with
  | nil => exact absurd h List.not_mem_nil
  | cons lines sections ih =>
    cases sections with
    | nil =>
      rw [List.intercalate_singleton] at h
      exact Or.inr ⟨lines, List.mem_cons_self, h⟩
    | cons lines' sections =>
      rw [List.intercalate_cons_cons, List.mem_append, List.mem_append, List.mem_singleton] at h
      rcases h with (h | rfl) | h
      · exact Or.inr ⟨lines, List.mem_cons_self, h⟩
      · exact Or.inl rfl
      · refine (ih h).imp_right fun ⟨other, hother, hl⟩ => ?_
        exact ⟨other, List.mem_cons_of_mem lines hother, hl⟩

/-- An empty line between two sections is two line ends. -/
theorem intercalate_sections {sections : List (List (List α))} (h : ∀ lines ∈ sections, lines ≠ []) :
    (sep ++ sep).intercalate (sections.map sep.intercalate) =
      sep.intercalate ([[]].intercalate sections) := by
  induction sections with
  | nil => rfl
  | cons lines sections ih =>
    rw [List.forall_mem_cons] at h
    cases sections with
    | nil => simp
    | cons lines' sections =>
      have hempty : sep.intercalate ([] :: [[]].intercalate (lines' :: sections)) =
          sep ++ sep.intercalate ([[]].intercalate (lines' :: sections)) := by
        rw [← List.singleton_append, intercalate_append (List.cons_ne_nil _ _)
          (intercalate_sections_ne_nil (List.cons_ne_nil _ _) h.2), List.intercalate_singleton,
          List.nil_append]
      rw [List.intercalate_cons_cons, List.append_assoc, List.singleton_append,
        intercalate_append h.1 (List.cons_ne_nil _ _), hempty, ← ih h.2, List.map_cons,
        List.map_cons, List.intercalate_cons_cons]
      simp only [List.append_assoc]

end Between

section Sections

variable {c : α} {sections : List (List (List α))}

/-- Sections of lines that no line end stands in. No line is empty, so an empty line says that a
section has come to its end. -/
structure Sectioned (c : α) (sections : List (List (List α))) : Prop where
  nonempty : sections ≠ []
  lined (lines : List (List α)) : lines ∈ sections → lines ≠ []
  line (lines : List (List α)) (l : List α) : lines ∈ sections → l ∈ lines → l ≠ [] ∧ c ∉ l

/-- **Sections are found again by cutting twice**: at the line ends and at the empty lines. -/
theorem Sectioned.splitOn_splitOn [DecidableEq α] (h : Sectioned c sections) :
    (([c, c].intercalate (sections.map [c].intercalate)).splitOn c).splitOn [] = sections := by
  have hwhole : [c, c].intercalate (sections.map [c].intercalate) =
      [c].intercalate ([[]].intercalate sections) :=
    @intercalate_sections α [c] sections h.lined
  -- there are the lines of the sections, and the empty ones between these
  have hlines : ∀ l ∈ [[]].intercalate sections, c ∉ l := by
    intro l hl
    rcases mem_intercalate_sections hl with rfl | ⟨lines, hlines, hl⟩
    · exact List.not_mem_nil
    · exact (h.line lines l hlines hl).2
  rw [hwhole, List.splitOn_intercalate c hlines (intercalate_sections_ne_nil h.nonempty h.lined),
    List.splitOn_intercalate [] (fun lines hlines hnil => (h.line lines [] hlines hnil).1 rfl) h.nonempty]

end Sections

/-! ## Blocks -/

section Blocks

variable {opens : α → Bool} {blocks : List (List α)}

/-- Its first element opens the block, and no other would. -/
def Block (opens : α → Bool) (block : List α) : Prop :=
  ∃ first rest, block = first :: rest ∧ opens first = true ∧ ∀ a ∈ rest, opens a = false

/-- **Blocks are found again by cutting before whatever opens one.** -/
theorem splitBy_flatten_blocks (h : ∀ block ∈ blocks, Block opens block) :
    blocks.flatten.splitBy (fun _ a => !opens a) = blocks := by
  have hne : ∀ block ∈ blocks, block ≠ [] := by
    intro block hblock hnil
    obtain ⟨_, _, rfl, _⟩ := h block hblock
    cases hnil
  refine List.splitBy_flatten (fun hnil => hne [] hnil rfl) ?_ ?_
  · intro block hblock
    obtain ⟨first, rest, rfl, _, hrest⟩ := h block hblock
    refine (List.pairwise_cons.2 ⟨?_, List.pairwise_of_forall_mem_list ?_⟩).isChain
    · exact fun a ha => by rw [hrest a ha, Bool.not_false]
    · exact fun _ _ a ha => by rw [hrest a ha, Bool.not_false]
  · refine (List.pairwise_of_forall_mem_list fun before hbefore block hblock => ?_).isChain
    obtain ⟨first, rest, rfl, hfirst, _⟩ := h block hblock
    refine ⟨hne before hbefore, List.cons_ne_nil first rest, ?_⟩
    rw [List.head_cons, hfirst, Bool.not_true]

end Blocks

end ApiGate.Text
