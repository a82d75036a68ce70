import ApiGate.Proofs.Making
import ApiGate.Proofs.Spelling

/-!
# Which defect is reported

A text may have several defects: in any of its parts, and of three kinds. The one that is reported
is the leftmost in the text as it is read, although the check cuts the text into parts first and
searches each of them.

Reading goes by *viable* beginnings, those that can be extended to a dotted name. A character
*spoils* a text if it is the first with which its beginning is no longer viable. That character is
reported, as one that may not open a part or as one that may not stand in one, according to what
stands before it; a dot that spoils a text leaves an empty part. If nothing spoils a text, only its
end can be wrong: a part is still to open there (`ofText_leftmost`).

Viable beginnings are those that `read` gets through (`viable_iff`), so the argument is about one
step of reading.
-/

namespace ApiGate

open Chars

namespace Name

/-! ## Dotted names -/

/-- A start character and part characters after it. -/
def IsPart : List Char → Prop
  | [] => False
  | c :: cs => isStart c = true ∧ ∀ d ∈ cs, isPart d = true

/-- One or more parts, joined by dots. -/
def Dotted (cs : List Char) : Prop :=
  ∃ parts, parts ≠ [] ∧ (∀ part ∈ parts, IsPart part) ∧ cs = ['.'].intercalate parts

theorem isPart_iff {cs : List Char} : IsPart cs ↔ Defect.ofPart? cs = none := by
  cases cs with
  | nil => simp [IsPart, Defect.ofPart?]
  | cons c cs => exact Defect.ofPart?_cons_eq_none_iff.symm

theorem IsPart.dot_not_mem {cs : List Char} (h : IsPart cs) : '.' ∉ cs := by
  have hdot : isPart '.' = false := by decide
  intro hmem
  have hpart : isPart '.' = true := by
    cases cs with
    | nil => cases hmem
    | cons c cs =>
      rcases List.mem_cons.1 hmem with rfl | hmem
      · exact isPart_of_isStart h.1
      · exact h.2 '.' hmem
  rw [hdot] at hpart
  cases hpart

/-- The parts of a dotted name are the pieces between its dots. -/
theorem dotted_iff_splitOn {cs : List Char} :
    Dotted cs ↔ ∀ part ∈ cs.splitOn '.', IsPart part := by
  constructor
  · intro h
    obtain ⟨parts, hne, hparts, rfl⟩ := h
    rw [List.splitOn_intercalate '.' (fun part hpart => (hparts part hpart).dot_not_mem) hne]
    exact hparts
  · intro h
    exact ⟨cs.splitOn '.', List.splitOn_ne_nil '.' cs, h, (List.intercalate_splitOn '.').symm⟩

/-! ## Viable beginnings -/

theorem defectOfRead_eq_none {result : Except Defect Bool} :
    defectOfRead result = none ↔ result = .ok false := by
  cases result with
  | error d => simp [defectOfRead]
  | ok opening => cases opening <;> simp [defectOfRead]

/-- A dotted name is read to its end, and no part is left to open there. -/
theorem dotted_iff {cs : List Char} : Dotted cs ↔ read true cs = .ok false := by
  obtain ⟨first, others, hsplit, hopening, _⟩ := read_spec cs
  rw [dotted_iff_splitOn, ← defectOfRead_eq_none, hopening, hsplit]
  simp [isPart_iff]

/-- A text that can be extended to a dotted name. -/
def Viable (cs : List Char) : Prop := ∃ rest, Dotted (cs ++ rest)

theorem read_append (opening : Bool) (cs rest : List Char) :
    read opening (cs ++ rest) = read opening cs >>= fun next => read next rest :=
  List.foldlM_append

theorem viable_iff {cs : List Char} : Viable cs ↔ ∃ opening, read true cs = .ok opening := by
  unfold Viable
  simp only [dotted_iff, read_append, bind_eq_ok]
  constructor
  · intro h
    obtain ⟨rest, opening, hread, _⟩ := h
    exact ⟨opening, hread⟩
  · intro h
    obtain ⟨opening, hread⟩ := h
    cases opening with
    | true => exact ⟨['a'], true, hread, by rfl⟩
    | false => exact ⟨[], false, hread, rfl⟩

/-! ## One step of reading -/

/-- After a character has been read, a part is to open exactly if it was a dot. -/
theorem readChar_eq_ok {opening next : Bool} {c : Char} (h : readChar opening c = .ok next) :
    next = true ↔ c = '.' := by
  have hdot : isStart '.' = false := by decide
  unfold readChar at h
  split at h
  · split at h
    · rename_i hstart
      cases h
      have hc : c ≠ '.' := by
        rintro rfl
        rw [hdot] at hstart
        cases hstart
      simp [hc]
    · cases h
  · split at h
    · rename_i hc
      cases h
      simp [hc]
    · rename_i hc
      split at h
      · cases h
        simp [hc]
      · cases h

/-- What is wrong with a character that cannot be read. -/
theorem readChar_eq_error_iff {opening : Bool} {c : Char} {d : Defect} :
    readChar opening c = .error d ↔ (∀ next, readChar opening c ≠ .ok next) ∧
      ((c = '.' ∧ d = .emptyPart) ∨ (c ≠ '.' ∧ opening = true ∧ d = .badStart c) ∨
        (c ≠ '.' ∧ opening = false ∧ d = .badPart c)) := by
  unfold readChar
  cases opening with
  | true =>
    by_cases hstart : isStart c = true
    · simp [hstart]
    · by_cases hc : c = '.'
      · subst hc
        simpa [hstart] using eq_comm
      · simpa [hstart, hc] using eq_comm
  | false =>
    by_cases hc : c = '.'
    · simp [hc]
    · by_cases hpart : isPart c = true
      · simp [hc, hpart]
      · simpa [hc, hpart] using eq_comm

/-- A part is to open after these characters: they are none, or the last of them is a dot. -/
def AtOpening (cs : List Char) : Prop := cs = [] ∨ cs.getLast? = some '.'

theorem read_concat_eq_ok_iff {cs : List Char} {c : Char} {next : Bool} :
    read true (cs ++ [c]) = .ok next ↔
      ∃ opening, read true cs = .ok opening ∧ readChar opening c = .ok next := by
  rw [read_append, bind_eq_ok]
  have hone : ∀ opening, read opening [c] = readChar opening c := by
    intro opening
    cases h : readChar opening c with
    | error d => exact read_cons_of_error h []
    | ok next => exact read_cons_of_ok h []
  simp only [hone]

/-- What reading has to know at a place is what stands directly before it. -/
theorem atOpening_iff {cs : List Char} {opening : Bool} (h : read true cs = .ok opening) :
    opening = true ↔ AtOpening cs := by
  rcases List.eq_nil_or_concat cs with rfl | ⟨front, c, rfl⟩
  · cases h
    simp [AtOpening]
  · rw [List.concat_eq_append] at h ⊢
    obtain ⟨before, _, hstep⟩ := read_concat_eq_ok_iff.1 h
    rw [readChar_eq_ok hstep, AtOpening, List.getLast?_concat]
    simp

/-- Reading fails at the first character that cannot be read. -/
theorem read_eq_error_iff {opening : Bool} {cs : List Char} {d : Defect} :
    read opening cs = .error d ↔ ∃ before c after state, cs = before ++ c :: after ∧
      read opening before = .ok state ∧ readChar state c = .error d := by
  induction cs generalizing opening with
  | nil => simp [read, pure, Except.pure]
  | cons c cs ih =>
    cases hstep : readChar opening c with
    | error e =>
      rw [read_cons_of_error hstep]
      constructor
      · intro h
        exact ⟨[], c, cs, opening, rfl, rfl, hstep.trans h⟩
      · intro h
        obtain ⟨before, c', after, state, hcs, hread, herror⟩ := h
        cases before with
        | nil =>
          cases hcs
          cases hread
          exact hstep.symm.trans herror
        | cons b before =>
          cases hcs
          rw [read_cons_of_error hstep] at hread
          cases hread
    | ok next =>
      rw [read_cons_of_ok hstep, ih]
      constructor
      · intro h
        obtain ⟨before, c', after, state, rfl, hread, herror⟩ := h
        have hread' := (read_cons_of_ok hstep before).trans hread
        exact ⟨c :: before, c', after, state, rfl, hread', herror⟩
      · intro h
        obtain ⟨before, c', after, state, hcs, hread, herror⟩ := h
        cases before with
        | nil =>
          cases hcs
          cases hread
          cases hstep.symm.trans herror
        | cons b before =>
          cases hcs
          exact ⟨before, c', after, state, rfl, (read_cons_of_ok hstep before).symm.trans hread,
            herror⟩

/-! ## The leftmost defect -/

/-- With `c` after `before`, the beginning of a text is no longer viable, as it was before. -/
structure Spoils (c : Char) (before cs : List Char) : Prop where
  begins : before ++ [c] <+: cs
  viable : Viable before
  spoiled : ¬Viable (before ++ [c])

/-- A defect is the leftmost of a text. -/
def Leftmost (text : String) : Defect → Prop
  | .missing => text = ""
  | .emptyPart => text ≠ wildcard ∧ ((∃ before, Spoils '.' before text.toList) ∨
      Viable text.toList ∧ text.toList.getLast? = some '.')
  | .badStart c => text ≠ wildcard ∧ c ≠ '.' ∧
      ∃ before, Spoils c before text.toList ∧ AtOpening before
  | .badPart c => text ≠ wildcard ∧ c ≠ '.' ∧
      ∃ before, Spoils c before text.toList ∧ ¬AtOpening before

theorem spoils_iff {c : Char} {before cs : List Char} :
    Spoils c before cs ↔ before ++ [c] <+: cs ∧ ∃ opening, read true before = .ok opening ∧
      ∀ next, readChar opening c ≠ .ok next := by
  constructor
  · intro h
    obtain ⟨opening, hread⟩ := viable_iff.1 h.viable
    refine ⟨h.begins, opening, hread, fun next hstep => h.spoiled ?_⟩
    exact viable_iff.2 ⟨next, read_concat_eq_ok_iff.2 ⟨opening, hread, hstep⟩⟩
  · intro h
    obtain ⟨hbegins, opening, hread, hstuck⟩ := h
    refine ⟨hbegins, viable_iff.2 ⟨opening, hread⟩, fun hviable => ?_⟩
    obtain ⟨next, hnext⟩ := viable_iff.1 hviable
    obtain ⟨opening', hread', hstep⟩ := read_concat_eq_ok_iff.1 hnext
    cases hread.symm.trans hread'
    exact hstuck next hstep

/-- Reading fails exactly if a character spoils the text, and says what is wrong with it. -/
theorem read_eq_error_iff_spoils {cs : List Char} {d : Defect} :
    read true cs = .error d ↔ ∃ c before, Spoils c before cs ∧
      ((c = '.' ∧ d = .emptyPart) ∨ (c ≠ '.' ∧ AtOpening before ∧ d = .badStart c) ∨
        (c ≠ '.' ∧ ¬AtOpening before ∧ d = .badPart c)) := by
  rw [read_eq_error_iff]
  constructor
  · intro h
    obtain ⟨before, c, after, opening, rfl, hread, herror⟩ := h
    obtain ⟨hstuck, hd⟩ := readChar_eq_error_iff.1 herror
    refine ⟨c, before, spoils_iff.2 ⟨⟨after, by simp⟩, opening, hread, hstuck⟩, ?_⟩
    rw [← atOpening_iff hread, Bool.not_eq_true]
    exact hd
  · intro h
    obtain ⟨c, before, hspoils, hd⟩ := h
    obtain ⟨⟨after, hcs⟩, opening, hread, hstuck⟩ := spoils_iff.1 hspoils
    rw [← atOpening_iff hread, Bool.not_eq_true] at hd
    refine ⟨before, c, after, opening, ?_, hread, readChar_eq_error_iff.2 ⟨hstuck, hd⟩⟩
    rw [← hcs, List.append_assoc, List.singleton_append]

/-- Reading comes to an end with a part left to open exactly if the text is viable up to a dot at
its end. -/
theorem read_eq_ok_true_iff {cs : List Char} (hne : cs ≠ []) :
    read true cs = .ok true ↔ Viable cs ∧ cs.getLast? = some '.' := by
  have hopening : AtOpening cs ↔ cs.getLast? = some '.' := by simp [AtOpening, hne]
  rw [← hopening, viable_iff]
  constructor
  · intro h
    exact ⟨⟨true, h⟩, (atOpening_iff h).1 rfl⟩
  · intro h
    obtain ⟨⟨opening, hread⟩, hat⟩ := h
    rw [hread, (atOpening_iff hread).2 hat]

theorem defectOfRead_eq_some_iff {result : Except Defect Bool} {d : Defect} :
    defectOfRead result = some d ↔ result = .error d ∨ result = .ok true ∧ d = .emptyPart := by
  cases result with
  | error e => simp [defectOfRead]
  | ok opening =>
    cases opening with
    | true => simpa [defectOfRead] using eq_comm
    | false => simp [defectOfRead]

/-- The character that is reported is the one that spoils the text. -/
theorem exists_spoils_iff {cs : List Char} {c : Char} {P : List Char → Prop} :
    (∃ d before, Spoils d before cs ∧ d ≠ '.' ∧ P before ∧ c = d) ↔
      c ≠ '.' ∧ ∃ before, Spoils c before cs ∧ P before := by
  constructor
  · rintro ⟨d, before, hspoils, hd, hbefore, rfl⟩
    exact ⟨hd, before, hspoils, hbefore⟩
  · rintro ⟨hc, before, hspoils, hbefore⟩
    exact ⟨c, before, hspoils, hc, hbefore, rfl⟩

/-- **The defect that is found is the leftmost one.** -/
theorem defect?_eq_some_iff {text : String} {d : Defect} :
    defect? text = some d ↔ Leftmost text d := by
  rw [defect?_eq_read]
  by_cases hempty : text = ""
  · -- nothing spoils an empty text
    subst hempty
    have hnone : ∀ c before, ¬Spoils c before [] := fun c before h => by simpa using h.begins
    cases d <;> simp [Leftmost, hnone, wildcard]
  · have hne : text.toList ≠ [] := fun hnil => hempty (String.toList_eq_nil_iff.1 hnil)
    rw [if_neg hempty]
    by_cases hwild : text = wildcard
    · cases d <;> simp [Leftmost, hwild, wildcard]
    · rw [if_neg hwild, defectOfRead_eq_some_iff, read_eq_ok_true_iff hne, read_eq_error_iff_spoils]
      cases d with
      | missing => simp [Leftmost, hempty]
      | emptyPart => simp [Leftmost, hwild]
      | badStart c =>
        simp only [Leftmost, ne_eq, hwild, not_false_eq_true, true_and, reduceCtorEq, and_false,
          Defect.badStart.injEq, or_false, false_or]
        exact exists_spoils_iff
      | badPart c =>
        simp only [Leftmost, ne_eq, hwild, not_false_eq_true, true_and, reduceCtorEq, and_false,
          Defect.badPart.injEq, or_false, false_or]
        exact exists_spoils_iff

theorem defect?_eq_none_iff_dotted {text : String} :
    defect? text = none ↔ text = wildcard ∨ Dotted text.toList := by
  rw [defect?_eq_none_iff, ← defectOfRead_eq_none_iff, defectOfRead_eq_none, dotted_iff]

/-- **A text is a name or is refused for its leftmost defect.** It is a name if it is the wildcard or
dotted, and an absent text counts as an empty one, in which there is nothing to be a name. The error
quotes the rule, the role and the whole text as they were given. -/
theorem ofText_leftmost (rule : String) (role : Role) (text : Option String) :
    ((∃ n, ofText rule role (text.getD "") = .ok n) ↔
      ∃ given, text = some given ∧ (given = wildcard ∨ Dotted given.toList)) ∧
    ((∃ e, ofText rule role (text.getD "") = .error e ∧ e.defect = .missing) ↔
      text = none ∨ text = some "") ∧
    ∀ e, ofText rule role (text.getD "") = .error e ↔
      e.rule = rule ∧ e.role = role ∧ e.name = text.getD "" ∧ Leftmost (text.getD "") e.defect := by
  have herror : ∀ e, ofText rule role (text.getD "") = .error e ↔
      e.rule = rule ∧ e.role = role ∧ e.name = text.getD "" ∧
        Leftmost (text.getD "") e.defect := by
    intro e
    rw [ofText_eq_error_iff]
    simp only [defect?_eq_some_iff]
    constructor
    · rintro ⟨d, hd, rfl⟩
      exact ⟨rfl, rfl, rfl, hd⟩
    · rintro ⟨rfl, rfl, hname, hd⟩
      exact ⟨e.defect, hd, by rw [← hname]⟩
  refine ⟨?_, ?_, herror⟩
  · have hsound : (∃ n, ofText rule role (text.getD "") = .ok n) ↔
        defect? (text.getD "") = none := by
      simp only [ofText_eq_ok_iff]
      constructor
      · rintro ⟨n, hn⟩
        exact hn ▸ n.sound
      · exact fun h => ⟨⟨_, h⟩, rfl⟩
    rw [hsound]
    cases text with
    | none => simp [defect?]
    | some given => simp [defect?_eq_none_iff_dotted]
  · have hmissing : (∃ e, ofText rule role (text.getD "") = .error e ∧ e.defect = .missing) ↔
        text.getD "" = "" := by
      constructor
      · rintro ⟨e, he, hd⟩
        have hleft := ((herror e).1 he).2.2.2
        rw [hd] at hleft
        exact hleft
      · intro hempty
        exact ⟨⟨rule, role, text.getD "", .missing⟩, (herror _).2 ⟨rfl, rfl, rfl, hempty⟩, rfl⟩
    rw [hmissing]
    cases text with
    | none => simp
    | some given => simp

/-- In `a..-` the doubled dot comes before the hyphen. -/
example : defect? "a..-" = some .emptyPart := by rfl

end Name

end ApiGate
