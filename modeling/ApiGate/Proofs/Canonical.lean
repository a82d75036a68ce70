import ApiGate.Proofs.ArrowGrammar

/-!
# Reading canonical texts

The canonical text of a rule is an arrow rule in parentheses. If the next-line control closes a
name, it stands directly before the tokens that follow the name, where a blank may stand, and
reading takes it for one. So what comes back is the rule with bare names (`text_reads_bare`). This
is the rule itself if the control closes neither name, which holds of all rules that come out of an
arrow rule (`parseArrow_text_of_mem`).
-/

namespace ApiGate.Rule

open Chars Text

/-- The rule with bare names. -/
def bare (r : Rule) : Rule := ⟨r.dependent.bare, r.dependency.bare, r.severity⟩

theorem bare_eq_self_iff {r : Rule} : r.bare = r ↔ r.dependent.Bare ∧ r.dependency.Bare := by
  rw [← Name.bare_eq_self_iff, ← Name.bare_eq_self_iff]
  constructor
  · intro h
    exact ⟨congrArg Rule.dependent h, congrArg Rule.dependency h⟩
  · intro h
    rw [bare, h.1, h.2]

/-- The tokens of a canonical text. -/
def canonicalReading (r : Rule) : Reading where
  enclosed := true
  dependent := r.dependent.bare
  dependencies := [r.dependency.bare]
  severity := r.severity
  word := r.severity.name.toList
  listed := List.cons_ne_nil _ _
  bare n hn := by
    rcases List.mem_cons.1 hn with rfl | hn
    · exact r.dependent.bare_bare
    · rw [List.mem_singleton.1 hn]
      exact r.dependency.bare_bare
  spelled := beq_self_eq_true _

/-- The text between the parentheses. -/
theorem toList_text (r : Rule) :
    r.text.toList =
      '(' :: ((r.dependent.text.toList ++ [' ']) ++ '-' :: '>' ::
        (' ' :: r.dependency.text.toList ++ ':' :: ' ' :: r.severity.name.toList) ++ [')']) := by
  simp [text, describe]

theorem spaced_text (r : Rule) : Spaced r.canonicalReading.tokens r.text.toList := by
  have hfits : r.canonicalReading.Fits (r.dependent.text.toList ++ [' '])
      (' ' :: r.dependency.text.toList) (' ' :: r.severity.name.toList) := by
    refine ⟨?_, ?_, ?_⟩
    · -- the blanks that close the name and the one after it go together
      obtain ⟨before, after, hbefore, hafter, hname⟩ := exists_trim r.dependent.text.toList
      rw [Name.trim_text] at hname
      refine trim_eq_iff.2 ⟨r.dependent.bare_bare.tight, before, after ++ [' '], hbefore,
        hafter.append .space, ?_⟩
      conv => lhs; rw [hname]
      simp only [canonicalReading, List.append_assoc]
    · have hcomma : ',' ∉ ' ' :: r.dependency.text.toList := by
        rw [List.mem_cons, not_or]
        exact ⟨by decide, Name.not_mem_text (by decide)⟩
      rw [List.splitOn_eq_singleton hcomma, List.map_singleton]
      have htrim : trim (' ' :: r.dependency.text.toList) = r.dependency.bare.text.toList :=
        (trim_blanks_append .space _).trans r.dependency.trim_text
      rw [htrim]
      rfl
    · have hword := Severity.tight_of_sameLetters (s := r.severity) (beq_self_eq_true _)
      exact (trim_blanks_append .space _).trans hword.trim_eq
  have htokens : r.canonicalReading.tokens = ['('] :: (r.canonicalReading.inner ++ [[')']]) := rfl
  rw [htokens, Reading.spaced_parens_iff]
  refine ⟨_, Reading.spaced_inner_iff.2 ⟨_, _, _, hfits, rfl⟩, ?_⟩
  rw [toList_text]
  exact (Reading.tight_parens _).trim_eq

theorem parseArrow_text (r : Rule) : parseArrow r.text = .ok [r.bare] :=
  Reading.parseArrow_of_spaced r.spaced_text

/-- The names that come out of an arrow rule are bare, so each of its rules reads back as it is. -/
theorem parseArrow_text_of_mem {text : String} {rules : List Rule}
    (h : parseArrow text = .ok rules) {r : Rule} (hr : r ∈ rules) :
    parseArrow r.text = .ok [r] := by
  obtain ⟨reading, _, rfl⟩ := Reading.exists_spaced_of_parseArrow h
  obtain ⟨x, hx, rfl⟩ := List.mem_map.1 hr
  rw [parseArrow_text, bare_eq_self_iff.2 ⟨reading.dependent_bare, Reading.dependency_bare hx⟩]

/-- **A canonical text reads back to the rule with bare names.** Both ways of reading accept it,
and give the rule itself exactly if the next-line control closes neither of its names. -/
theorem text_reads_bare (r : Rule) :
    parseArrow r.text = .ok [r.bare] ∧ parse r.text = .ok r.bare ∧
      (r.bare = r ↔ r.dependent.text.toList.getLast? ≠ some nextLine ∧
        r.dependency.text.toList.getLast? ≠ some nextLine) := by
  refine ⟨r.parseArrow_text, ?_, ?_⟩
  · unfold parse
    rw [parseArrow_text]
    rfl
  · rw [bare_eq_self_iff, Name.bare_iff, Name.bare_iff]

/-- A rule for a package whose name the next-line control closes. -/
def controlRule : Rule :=
  ⟨⟨"org.foo\u0085", by decide +kernel⟩, ⟨"sun.misc.Unsafe", by decide +kernel⟩, .warn⟩

/-- The rule for the package without the control. -/
def plainRule : Rule :=
  ⟨⟨"org.foo", by decide +kernel⟩, ⟨"sun.misc.Unsafe", by decide +kernel⟩, .warn⟩

/-- The first of the two rules is not what its text reads back to: the other one is. -/
theorem text_not_read_back :
    parseArrow controlRule.text = .ok [plainRule] ∧ parse controlRule.text = .ok plainRule ∧
      plainRule ≠ controlRule := by
  exact ⟨by rfl, by rfl, by decide +kernel⟩

end ApiGate.Rule
