import ApiGate.Proofs.ArrowGrammar

/-!
# Two notations for a rule

A rule is written field by field or as an arrow. Written either way it is the same rule, and if it
is none, the same thing is wrong with it (`notations_agree`). This holds of names that are none as
well: such a text may hold colons, parentheses, blanks and, after the arrow, further arrows. Reading
recovers the two texts all the same, because the arrow between them is the first and the colon after
them the last, and because no comma and no parenthesis is where it would count.

The one place where a text moves is the front. If the dependent is empty, the blank before the arrow
opens the whole and is trimmed off, and the piece before the arrow is empty instead of blank.
-/

namespace ApiGate

open Chars Text

namespace Rule

/-- What trimming leaves before the arrow: the dependent and a blank, or nothing if it is empty. -/
theorem exists_trim_line {d rest : List Char} (hd : Tight d)
    (hlast : ∀ c, (d ++ ' ' :: '-' :: '>' :: rest).getLast? = some c → isBlank c = false) :
    ∃ piece, trim (d ++ ' ' :: '-' :: '>' :: rest) = piece ++ '-' :: '>' :: rest ∧
      trim piece = d ∧ (piece = [] ∨ piece = d ++ [' ']) := by
  rw [trim_eq_trimStart hlast]
  cases d with
  | nil =>
    have hstart : trimStart ([' '] ++ '-' :: '>' :: rest) = '-' :: '>' :: rest := by
      rw [trimStart_append .space]
      refine trimStart_eq_self fun c hc => ?_
      cases hc
      decide
    exact ⟨[], hstart, rfl, Or.inl rfl⟩
  | cons c d =>
    refine ⟨c :: d ++ [' '], ?_, ?_, Or.inr rfl⟩
    · rw [List.append_assoc, List.singleton_append]
      exact trimStart_eq_self fun e he => hd.first e he
    · exact trim_eq_iff.2 ⟨hd, [], [' '], .nil, .space, rfl⟩

/-- A blank after a text makes no arrow. -/
theorem not_infix_append_space {d : List Char} (h : ¬['-', '>'] <:+: d) :
    ¬['-', '>'] <:+: d ++ [' '] := by
  intro hin
  rcases List.infix_concat_iff.1 hin with hsuffix | hin
  · have hlast := hsuffix.getLast (by simp)
    simp at hlast
  · exact h hin

/-- A word for a severity, with a blank before it, is the last piece: no colon is in it. -/
theorem colon_not_mem_of_sameLetters {s : Severity} {w : List Char}
    (h : Severity.sameLetters s.name.toList w = true) : ':' ∉ ' ' :: w := by
  intro hmem
  rcases List.mem_cons.1 hmem with hspace | hmem
  · cases hspace
  · have halpha := Severity.isAlpha_of_sameLetters h ':' hmem
    revert halpha
    decide

section Line

variable {d x w : String} {s : Severity}

/-- The three pieces of a line, up to blanks around them. -/
theorem cutPieces_line (hd : Tight d.toList) (hopen : d.toList.head? ≠ some '(')
    (harrow : ¬['-', '>'] <:+: d.toList)
    (hw : Severity.sameLetters s.name.toList w.toList = true) :
    ∃ piece, trim piece = d.toList ∧
      cutPieces (trim (d ++ " -> " ++ x ++ ": " ++ w).toList) =
        .ok (piece, ' ' :: x.toList, ' ' :: w.toList) := by
  have htext : (d ++ " -> " ++ x ++ ": " ++ w).toList =
      d.toList ++ ' ' :: '-' :: '>' :: (' ' :: x.toList ++ ':' :: ' ' :: w.toList) := by
    simp [String.toList_append]
  have hlast : ∀ c, (d.toList ++ ' ' :: '-' :: '>' ::
      (' ' :: x.toList ++ ':' :: ' ' :: w.toList)).getLast? = some c → isBlank c = false := by
    intro c hc
    refine (Severity.tight_of_sameLetters hw).last c ?_
    rw [← hc]
    have hne := Severity.ne_nil_of_sameLetters hw
    have hsplit : d.toList ++ ' ' :: '-' :: '>' :: (' ' :: x.toList ++ ':' :: ' ' :: w.toList) =
        (d.toList ++ ' ' :: '-' :: '>' :: (' ' :: x.toList ++ [':', ' '])) ++ w.toList := by simp
    rw [hsplit, List.getLast?_append, List.getLast?_eq_some_getLast hne, Option.some_or]
  obtain ⟨piece, htrim, hpiece, hcases⟩ := exists_trim_line hd hlast
  have hfirst : (piece ++ '-' :: '>' ::
      (' ' :: x.toList ++ ':' :: ' ' :: w.toList)).head? ≠ some '(' := by
    rcases hcases with rfl | rfl
    · simp
    · cases hcs : d.toList with
      | nil => simp
      | cons c cs =>
        rw [hcs] at hopen
        simpa using hopen
  have hnone : ¬['-', '>'] <:+: piece := by
    rcases hcases with rfl | rfl
    · simp
    · exact not_infix_append_space harrow
  refine ⟨piece, hpiece, ?_⟩
  rw [htext, htrim]
  exact cutPieces_eq_ok_iff.2 ⟨_, _, stripParens_eq_ok_iff.2 (Or.inr ⟨hfirst, rfl⟩),
    cutArrow_append_of_not_infix hnone _, cutLast_append (colon_not_mem_of_sameLetters hw) _⟩

/-- Reading a line comes down to making the one rule that it writes. -/
theorem parseArrow_line (hd : Tight d.toList) (hx : Tight x.toList)
    (hopen : d.toList.head? ≠ some '(') (harrow : ¬['-', '>'] <:+: d.toList)
    (hcomma : ',' ∉ x.toList) (hw : Severity.sameLetters s.name.toList w.toList = true) :
    parseArrow (d ++ " -> " ++ x ++ ": " ++ w) = (ofTexts d x s).map fun r => [r] := by
  have hafter : ∀ {cs : List Char}, Tight cs → trim (' ' :: cs) = cs := fun hcs =>
    (trim_blanks_append .space _).trans hcs.trim_eq
  obtain ⟨piece, hpiece, hcut⟩ := cutPieces_line (x := x) hd hopen harrow hw
  have hseverity : Severity.ofChars? (' ' :: w.toList) = some s := by
    rw [Severity.ofChars?_eq_some_iff, hafter (Severity.tight_of_sameLetters hw)]
    exact hw
  have hsingle : (' ' :: x.toList).splitOn ',' = [' ' :: x.toList] := by
    refine List.splitOn_eq_singleton fun hmem => ?_
    rcases List.mem_cons.1 hmem with hmem | hmem
    · cases hmem
    · exact hcomma hmem
  rw [parseArrow_of_cutPieces hcut hseverity, hsingle, List.mapM_cons, List.mapM_nil, hpiece,
    hafter hx, String.ofList_toList, String.ofList_toList]
  cases ofTexts d x s with
  | error e => rfl
  | ok r => rfl

/-- **Both notations write the same rule, and where there is none they are refused alike.** An arrow
rule with one dependency is read exactly if its dependent, dependency and severity make a rule, be
they given as texts or as texts that may be absent. Otherwise all three fail with one error. -/
theorem notations_agree (hd : Tight d.toList) (hx : Tight x.toList)
    (hopen : d.toList.head? ≠ some '(') (harrow : ¬['-', '>'] <:+: d.toList)
    (hcomma : ',' ∉ x.toList) (hw : Severity.sameLetters s.name.toList w.toList = true) :
    (∀ r, parseArrow (d ++ " -> " ++ x ++ ": " ++ w) = .ok [r] ↔
      ofTexts d x s = .ok r ∧ ofOptional (some d) (some x) s = .ok r) ∧
    ((¬∃ r, parseArrow (d ++ " -> " ++ x ++ ": " ++ w) = .ok [r]) →
      ∃ e, parseArrow (d ++ " -> " ++ x ++ ": " ++ w) = .error e ∧
        ofTexts d x s = .error e ∧ ofOptional (some d) (some x) s = .error e) := by
  have hoptional : ofOptional (some d) (some x) s = ofTexts d x s := rfl
  rw [hoptional, parseArrow_line hd hx hopen harrow hcomma hw]
  cases ofTexts d x s with
  | error e => exact ⟨fun r => by simp [Except.map], fun _ => ⟨e, rfl, rfl, rfl⟩⟩
  | ok r => exact ⟨fun r' => by simp [Except.map], fun h => absurd ⟨r, rfl⟩ h⟩

end Line

/-- A dependency with an arrow, a colon and a parenthesis in it is refused for its first character
that may not stand in a name. -/
theorem notations_agree_delimiters :
    parseArrow ("edu.app" ++ " -> " ++ "sun->misc:)" ++ ": " ++ "wArN") =
      .error (.badName
        ⟨"(edu.app -> sun->misc:): WARN)", .dependency, "sun->misc:)", .badPart '-'⟩) := by
  have hmade : ofTexts "edu.app" "sun->misc:)" .warn = .error (.badName
      ⟨"(edu.app -> sun->misc:): WARN)", .dependency, "sun->misc:)", .badPart '-'⟩) := by rfl
  have hlaw := notations_agree (d := "edu.app") (x := "sun->misc:)") (w := "wArN") (s := .warn)
    (by decide +kernel) (by decide +kernel) (by decide +kernel) (by decide +kernel)
    (by decide +kernel) (by decide +kernel)
  have hnone : ¬∃ r, parseArrow ("edu.app" ++ " -> " ++ "sun->misc:)" ++ ": " ++ "wArN") =
      .ok [r] := by
    intro h
    obtain ⟨r, hr⟩ := h
    cases hmade.symm.trans ((hlaw.1 r).1 hr).1
  obtain ⟨e, hread, hrefused, _⟩ := hlaw.2 hnone
  cases hmade.symm.trans hrefused
  exact hread

end Rule

end ApiGate
