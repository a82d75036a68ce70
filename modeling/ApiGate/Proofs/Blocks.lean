import ApiGate.Proofs.Loading
import ApiGate.Proofs.Spacing

/-!
# Blocks of arrow rules

Arrow rules are given as a list, one to an entry, or as a block, one to a line. A line of a block is
not simply what stands between two line feeds: it loses a carriage return at its end if a line feed
follows, and what stands after the last line feed is a line only if it is not empty. Reading a rule
sees none of this, because it begins by trimming.

* Trimmed, and without the empty ones, the lines of a text are its pieces between line feeds
  (`trimmed_lines`). So a block loads as the list of its pieces does, and if it does not load, the
  same thing is wrong at the same place (`load_block_eq_load_pieces`).
* The place of a line is its number among the lines that are not blank (`numbered_iff`).
-/

namespace ApiGate

open Chars

namespace Text

theorem isBlankText_eq_true_iff {text : String} :
    isBlankText text = true ↔ trim text.toList = [] := by
  rw [trim_eq_nil_iff]
  exact List.all_eq_true

theorem trim_dropReturn (line : List Char) : trim (dropReturn line) = trim line := by
  unfold dropReturn
  split
  · rename_i hlast
    obtain ⟨front, rfl⟩ := List.getLast?_eq_some_iff.1 hlast
    have hreturn : Blanks ['\r'] := fun c hc => by
      rw [List.mem_singleton.1 hc]
      decide
    rw [List.dropLast_concat, trim_append_blanks hreturn]
  · rfl

/-- **Lines and pieces.** What a line loses at its end are blanks, and a last piece that is no line
is empty. -/
theorem trimmed_lines (cs : List Char) :
    ((lines cs).map trim).filter (· ≠ []) = ((cs.splitOn '\n').map trim).filter (· ≠ []) := by
  obtain ⟨front, last, hsplit⟩ : ∃ front last, cs.splitOn '\n' = front ++ [last] :=
    ⟨_, _, (List.dropLast_concat_getLast (List.splitOn_ne_nil '\n' cs)).symm⟩
  have hlines : lines cs = front.map dropReturn ++ [last].filter (· ≠ []) := by
    simp only [lines, hsplit, List.dropLast_concat, List.getLast?_concat, Option.toList_some]
  have hfront : (front.map dropReturn).map trim = front.map trim := by
    rw [List.map_map]
    exact List.map_congr_left fun line _ => trim_dropReturn line
  have hlast : (([last].filter (· ≠ [])).map trim).filter (· ≠ []) =
      ([last].map trim).filter (· ≠ []) := by
    by_cases h : last = []
    · subst h
      rfl
    · simp [h]
  rw [hlines, hsplit, List.map_append, List.filter_append, hfront, hlast, List.map_append,
    List.filter_append]

/-- Leaving out the blank texts and then trimming leaves out what is empty when trimmed. -/
theorem trimmed_filter (css : List (List Char)) :
    ((css.map String.ofList).filter fun t => !isBlankText t).map (fun t => trim t.toList) =
      (css.map trim).filter (· ≠ []) := by
  have hblank : ∀ cs : List Char, (!isBlankText (String.ofList cs)) = decide (trim cs ≠ []) := by
    intro cs
    rw [Bool.eq_iff_iff, Bool.not_eq_true', ← Bool.not_eq_true, isBlankText_eq_true_iff,
      String.toList_ofList, decide_eq_true_eq]
  induction css with
  | nil => rfl
  | cons cs css ih =>
    simp only [List.map_cons, List.filter_cons, hblank]
    split
    · rw [List.map_cons, ih, String.toList_ofList]
    · exact ih

end Text

open Text

/-! ## A block and the list of its pieces -/

/-- What stands between the line feeds of a block, unless it holds blanks only. -/
def ArrowRules.pieces (block : String) : List String :=
  ((block.toList.splitOn '\n').map String.ofList).filter fun piece =>
    piece.toList.any fun c => !isBlank c

theorem ArrowRules.trimmed_pieces (block : String) :
    (pieces block).map (fun t => trim t.toList) =
      (lines (.block block)).map (fun t => trim t.toList) := by
  have hany : (fun piece : String => piece.toList.any fun c => !isBlank c) =
      fun piece => !isBlankText piece := by
    funext piece
    rw [isBlankText, List.not_all_eq_any_not]
  rw [pieces, hany, lines, trimmed_filter, trimmed_filter, trimmed_lines]

/-- Reading an arrow rule sees of a text only what trimming leaves of it. This holds of errors as
well: what they quote is trimmed, or a piece of the trimmed text. -/
theorem Rule.parseArrow_congr {text text' : String} (h : trim text.toList = trim text'.toList) :
    parseArrow text = parseArrow text' := by
  unfold parseArrow
  rw [h]

namespace Config

theorem loadArrows_congr {index : Nat} {lines lines' : List String}
    (h : lines.map (fun t => trim t.toList) = lines'.map (fun t => trim t.toList)) :
    loadArrows index lines = loadArrows index lines' := by
  induction lines generalizing index lines' with
  | nil =>
    rw [List.map_nil, eq_comm, List.map_eq_nil_iff] at h
    rw [h]
  | cons line lines ih =>
    obtain ⟨line', rest', rfl, hline, hrest⟩ := List.map_eq_cons_iff.1 h.symm
    rw [loadArrows, loadArrows, Rule.parseArrow_congr hline.symm, ih hrest.symm]

/-- **A block of arrow rules loads as the list of its pieces does.** Either both load, and then to
one rule set, or neither does, and then with one error, at the same place. -/
theorem load_block_eq_load_pieces (default : Option String) (entries : List RuleEntry)
    (block : String) :
    load ⟨default, entries, .block block⟩ =
      load ⟨default, entries, .list (ArrowRules.pieces block)⟩ := by
  refine load_congr rfl rfl (loadArrows_congr ?_)
  exact (ArrowRules.trimmed_pieces block).symm

/-- Only directly before a line feed does a carriage return belong to the end of a line. -/
example : ArrowRules.lines (.block "a\r\n\r\n \nb\rc\r") = ["a", "b\rc\r"] := by decide +kernel

end Config

/-! ## The numbers of lines -/

/-- What is left of a list at a place stood in the list after as many members that are left. -/
theorem getElem?_filter_eq_some_iff {α : Type} {p : α → Bool} {l : List α} {j : Nat} {a : α} :
    (l.filter p)[j]? = some a ↔
      p a = true ∧ ∃ before after, l = before ++ a :: after ∧ before.countP p = j := by
  refine ⟨fun h => ?_, fun h => ?_⟩
  · obtain ⟨hj, ha⟩ := List.getElem?_eq_some_iff.1 h
    have hsplit : l.filter p = (l.filter p).take j ++ a :: (l.filter p).drop (j + 1) := by
      rw [← ha, ← List.drop_eq_getElem_cons hj, List.take_append_drop]
    obtain ⟨left, right, rfl, hleft, hright⟩ := List.filter_eq_append_iff.1 hsplit
    obtain ⟨passed, after, rfl, hpassed, hpa, _⟩ := List.filter_eq_cons_iff.1 hright
    refine ⟨hpa, left ++ passed, after, (List.append_assoc ..).symm, ?_⟩
    have hnone : passed.countP p = 0 := List.countP_eq_zero.2 hpassed
    rw [List.countP_append, hnone, List.countP_eq_length_filter, hleft, List.length_take]
    omega
  · obtain ⟨hpa, before, after, rfl, rfl⟩ := h
    rw [List.filter_append, List.filter_cons_of_pos hpa, List.countP_eq_length_filter,
      List.getElem?_append_right (Nat.le_refl _), Nat.sub_self, List.getElem?_cons_zero]

/-- The number of an arrow rule. In a list all entries count. In a block only the lines count that
are not blank, and blank lines have no number. -/
def ArrowRules.Numbered : ArrowRules → Nat → String → Prop
  | .list entries, j, line => entries[j]? = some line
  | .block text, j, line => isBlankText line = false ∧ ∃ before after,
      (Text.lines text.toList).map String.ofList = before ++ line :: after ∧
        before.countP (fun l => !isBlankText l) = j

theorem ArrowRules.numbered_iff {rules : ArrowRules} {j : Nat} {line : String} :
    rules.Numbered j line ↔ rules.lines[j]? = some line := by
  cases rules with
  | list entries => rfl
  | block text => rw [Numbered, lines, getElem?_filter_eq_some_iff, Bool.not_eq_true']

end ApiGate
