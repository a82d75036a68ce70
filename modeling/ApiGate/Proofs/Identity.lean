import ApiGate.Judge
import ApiGate.Proofs.Canonical
import ApiGate.Proofs.Separators

/-!
# Canonical texts identify rules

Messages quote rules by their canonical texts, and whoever looks for a rule in a configuration has
nothing else to go by. So no two rules may have one text. A reader of arrow rules is no help here: it
takes the next-line control that closes a name for a blank, and gives one rule for the texts of two.
What keeps the pieces apart are the delimiters between them. No name holds one, and nor does the name
of a severity, so each delimiter is the first of its kind.

The closing parenthesis ends a text in the same way. A message about a conflict quotes two rules one
after the other, and both are found in it.
-/

namespace ApiGate

open Chars Text

theorem Severity.name_inj {s t : Severity} (h : s.name = t.name) : s = t := by
  revert h
  cases s <;> cases t <;> decide

/-- The name of a severity is made of letters. -/
theorem Severity.isAlpha_of_mem_name {s : Severity} {c : Char} (h : c ∈ s.name.toList) :
    c.isAlpha = true :=
  isAlpha_of_sameLetters (beq_self_eq_true _) c h

theorem Severity.not_mem_name_of_isBlank {s : Severity} {c : Char} (h : isBlank c = true) :
    c ∉ s.name.toList := by
  intro hmem
  have halpha := isAlpha_of_mem_name hmem
  rw [isAlpha_of_isBlank h] at halpha
  cases halpha

namespace Rule

theorem ext_chars {r s : Rule} (hdependent : r.dependent.text.toList = s.dependent.text.toList)
    (hdependency : r.dependency.text.toList = s.dependency.text.toList)
    (hseverity : r.severity.name.toList = s.severity.name.toList) : r = s := by
  obtain ⟨dependent, dependency, severity⟩ := r
  obtain ⟨dependent', dependency', severity'⟩ := s
  have hd : dependent = dependent' := Name.ext_chars hdependent
  have hx : dependency = dependency' := Name.ext_chars hdependency
  have hs : severity = severity' := Severity.name_inj (String.toList_inj.1 hseverity)
  rw [hd, hx, hs]

/-- **No two rules have one text.** -/
theorem text_inj {r s : Rule} (h : r.text = s.text) : r = s := by
  have hdash : ∀ n : Name, '-' ∉ '(' :: (n.text.toList ++ [' ']) := by
    intro n hmem
    rw [List.mem_cons, List.mem_append, List.mem_singleton] at hmem
    rcases hmem with hmem | hmem | hmem
    · cases hmem
    · exact Name.not_mem_text (by decide) hmem
    · cases hmem
  have hcolon : ∀ n : Name, ':' ∉ '>' :: ' ' :: n.text.toList := by
    intro n hmem
    rw [List.mem_cons, List.mem_cons] at hmem
    rcases hmem with hmem | hmem | hmem
    · cases hmem
    · cases hmem
    · exact Name.not_mem_text (by decide) hmem
  -- first the arrow ends the dependent, then the colon the dependency
  have hwhole : ('(' :: (r.dependent.text.toList ++ [' '])) ++ '-' ::
        (('>' :: ' ' :: r.dependency.text.toList) ++ ':' :: (' ' :: r.severity.name.toList ++ [')'])) =
      ('(' :: (s.dependent.text.toList ++ [' '])) ++ '-' ::
        (('>' :: ' ' :: s.dependency.text.toList) ++ ':' ::
          (' ' :: s.severity.name.toList ++ [')'])) := by
    rw [← String.toList_inj, toList_text, toList_text] at h
    simpa using h
  obtain ⟨hdependent, hrest⟩ := eq_of_append_cons (hdash _) (hdash _) hwhole
  obtain ⟨hdependency, hseverity⟩ := eq_of_append_cons (hcolon _) (hcolon _) hrest
  simp only [List.cons.injEq, List.append_cancel_right_eq, true_and] at hdependent hdependency
  simp only [List.cons_append, List.cons.injEq, List.append_cancel_right_eq, true_and] at hseverity
  exact ext_chars hdependent hdependency hseverity

/-- A text ends at the first closing parenthesis. -/
theorem exists_text_eq_concat (r : Rule) :
    ∃ body, r.text.toList = body ++ [')'] ∧ ')' ∉ body := by
  refine ⟨_, by rw [toList_text, ← List.cons_append], ?_⟩
  simp only [List.mem_cons, List.mem_append, List.not_mem_nil, or_false, not_or]
  refine ⟨by decide, ⟨Name.not_mem_text (by decide), by decide⟩, by decide, by decide,
    ⟨by decide, Name.not_mem_text (by decide)⟩, by decide, by decide, fun hmem => ?_⟩
  exact absurd (Severity.isAlpha_of_mem_name hmem) (by decide)

/-- So a text is found at the start of whatever goes on after it. -/
theorem eq_of_text_append {r s : Rule} {rest rest' : List Char}
    (h : r.text.toList ++ rest = s.text.toList ++ rest') : r = s ∧ rest = rest' := by
  obtain ⟨body, hr, hbody⟩ := r.exists_text_eq_concat
  obtain ⟨body', hs, hbody'⟩ := s.exists_text_eq_concat
  rw [hr, hs, List.append_assoc, List.append_assoc] at h
  obtain ⟨hbodies, hrest⟩ := eq_of_append_cons hbody hbody' h
  refine ⟨text_inj ?_, hrest⟩
  rw [← String.toList_inj, hr, hs, hbodies]

end Rule

namespace Conflict

variable {c d : Conflict}

theorem ext_texts (hexisting : c.existing.text = d.existing.text)
    (hconflicting : c.conflicting.text = d.conflicting.text) : c = d := by
  obtain ⟨existing, conflicting⟩ := c
  obtain ⟨existing', conflicting'⟩ := d
  have he : existing = existing' := Rule.text_inj hexisting
  have hc : conflicting = conflicting' := Rule.text_inj hconflicting
  rw [he, hc]

/-- **A message about a conflict tells which two rules clash.** -/
theorem message_inj (h : c.message = d.message) : c = d := by
  unfold message at h
  simp only [← String.toList_inj, String.toList_append, List.append_assoc,
    List.append_cancel_left_eq] at h
  obtain ⟨hexisting, hrest⟩ := Rule.eq_of_text_append h
  obtain ⟨hconflicting, _⟩ := Rule.eq_of_text_append (List.append_cancel_left hrest)
  exact ext_texts (congrArg Rule.text hexisting) (congrArg Rule.text hconflicting)

end Conflict

namespace Rule

/--
**A canonical text identifies its rule.**

Two rules that have been made have one text only if they were made of the same dependent, dependency
and severity. So the two texts in a message about a conflict determine the rules that clash, and the
message as a whole determines them as well.
-/
theorem text_identifies {d x d' x' : String} {s s' : Severity} {r r' : Rule}
    (h : ofTexts d x s = .ok r) (h' : ofTexts d' x' s' = .ok r') :
    (r.text = r'.text ↔ d = d' ∧ x = x' ∧ s = s') ∧
      ∀ c c' : Conflict,
        (c.existing.text = c'.existing.text ∧ c.conflicting.text = c'.conflicting.text ↔ c = c') ∧
          (c.message = c'.message ↔ c = c') := by
  obtain ⟨rfl, rfl, rfl⟩ := ofTexts_eq_ok_iff.1 h
  obtain ⟨rfl, rfl, rfl⟩ := ofTexts_eq_ok_iff.1 h'
  refine ⟨⟨fun htext => ?_, fun hsame => ?_⟩, fun c c' => ⟨⟨fun htexts => ?_, fun hsame => ?_⟩,
    ⟨Conflict.message_inj, fun hsame => ?_⟩⟩⟩
  · rw [text_inj htext]
    exact ⟨rfl, rfl, rfl⟩
  · obtain ⟨hd, hx, hs⟩ := hsame
    rw [text, text, hd, hx, hs]
  · exact Conflict.ext_texts htexts.1 htexts.2
  · rw [hsame]
    exact ⟨rfl, rfl⟩
  · rw [hsame]

/-- The text of a rule for a package whose name the next-line control closes is not that of the rule
for the package without it, although both read as the latter rule. -/
theorem text_identifies_control :
    ofTexts "org.foo\u0085" "sun.misc.Unsafe" .warn = .ok controlRule ∧
      ofTexts "org.foo" "sun.misc.Unsafe" .warn = .ok plainRule ∧
      parseArrow controlRule.text = parseArrow plainRule.text ∧
      controlRule.text ≠ plainRule.text := by
  have hcontrol : ofTexts "org.foo\u0085" "sun.misc.Unsafe" .warn = .ok controlRule :=
    ofTexts_eq_ok_iff.2 ⟨rfl, rfl, rfl⟩
  have hplain : ofTexts "org.foo" "sun.misc.Unsafe" .warn = .ok plainRule :=
    ofTexts_eq_ok_iff.2 ⟨rfl, rfl, rfl⟩
  have hbare : controlRule.bare = plainRule.bare := by decide +kernel
  refine ⟨hcontrol, hplain, by rw [parseArrow_text, parseArrow_text, hbare], fun htext => ?_⟩
  obtain ⟨hdependent, _, _⟩ := (text_identifies hcontrol hplain).1.1 htext
  exact absurd hdependent (by decide)

end Rule

end ApiGate
