import ApiGate.Name
import ApiGate.Proofs.Spacing

/-!
# How names are spelled

A name is checked part by part. It can as well be read from left to right: `read` looks at one
character after another and only has to know whether a part is still to open. The two meet the same
defect (`defect?_eq_read`), and `goesOn` says that they meet none; what may stand in a name, and
where, is read off that.

* A character of a name is the wildcard, a dot or a part character. So no delimiter of a rule, not
  even half of an arrow, stands in a name (`not_mem_text`).
* A name does not open with a blank. The one blank that may stand further on is the next-line
  control U+0085, which identifiers ignore; it may also close a name.
* What is left of a name without the blanks that close it is a name again, its `bare` form. A name
  is *bare* if it has nothing to lose.
-/

namespace ApiGate

namespace Chars

/-! ## Blanks among the characters of names -/

/-- No two ranges, one of each table, have a number in common. -/
def apart (l m : List (Nat × Nat)) : Bool :=
  l.all fun r => m.all fun s => decide (r.2 < s.1 ∨ s.2 < r.1)

theorem not_exists_of_apart {l m : List (Nat × Nat)} (h : apart l m = true) {n : Nat}
    (hl : ∃ r ∈ l, r.1 ≤ n ∧ n ≤ r.2) : ¬∃ s ∈ m, s.1 ≤ n ∧ n ≤ s.2 := by
  intro hm
  obtain ⟨r, hr, hrn⟩ := hl
  obtain ⟨s, hs, hsn⟩ := hm
  have hrs := List.all_eq_true.1 (List.all_eq_true.1 h r hr) s hs
  rw [decide_eq_true_eq] at hrs
  omega

theorem isStart_of_isBlank {c : Char} (h : isBlank c = true) : isStart c = false := by
  have hapart : apart blankRanges (startRangesLow ++ startRangesHigh) = true := by decide +kernel
  rw [Bool.eq_false_iff, ne_eq, isStart_iff]
  exact not_exists_of_apart hapart (isBlank_iff.1 h)

theorem isInner_of_isBlank {c : Char} (h : isBlank c = true) : isInner c = false := by
  have hapart : apart blankRanges (innerRangesLow ++ innerRangesHigh) = true := by decide +kernel
  rw [Bool.eq_false_iff, ne_eq, isInner_iff]
  exact not_exists_of_apart hapart (isBlank_iff.1 h)

/-- The next-line control. -/
def nextLine : Char := Char.ofNat 0x85

/-- **The next-line control is the one blank that may stand in a name.** -/
theorem eq_nextLine_of_isBlank {c : Char} (h : isBlank c = true) (hpart : isPart c = true) :
    c = nextLine := by
  have hign : isIgnorable c = true := by
    simpa [isPart, isStart_of_isBlank h, isInner_of_isBlank h] using hpart
  obtain ⟨r, hr, hrc⟩ := isBlank_iff.1 h
  obtain ⟨s, hs, hsc⟩ := (inRanges_iff (by decide : increasing 0 _ = true)).1 hign
  -- of the pairs of a blank range and an ignorable one, a single pair meets, in a single number
  have hmeet : ∀ r ∈ blankRanges, ∀ s ∈ [(0x0, 0x8), (0xE, 0x1B), (0x7F, 0x9F)],
      r.2 < s.1 ∨ s.2 < r.1 ∨ (r.1 = 0x85 ∧ r.2 = 0x85) := by decide
  have hnat : c.toNat = 0x85 := by
    rcases hmeet r hr s hs with hrs | hrs | hrs <;> omega
  rw [← Char.ofNat_toNat c, hnat]
  rfl

theorem isBlank_nextLine : isBlank nextLine = true := by decide

end Chars

open Chars Text

/-! ## Reading a name from left to right -/

theorem Defect.ofPart?_cons_eq_none_iff {c : Char} {cs : List Char} :
    Defect.ofPart? (c :: cs) = none ↔ isStart c = true ∧ ∀ d ∈ cs, isPart d = true := by
  by_cases hc : isStart c = true
  · simp [Defect.ofPart?, hc]
  · simp [Defect.ofPart?, hc]

namespace Name

/-- Reads one character; `opening` says that a part is still to open there. The result says whether
one is to open after it, and the error is what is wrong with the character. -/
def readChar (opening : Bool) (c : Char) : Except Defect Bool :=
  if opening then
    if isStart c then .ok false
    else .error (if c = '.' then .emptyPart else .badStart c)
  else if c = '.' then .ok true
  else if isPart c then .ok false
  else .error (.badPart c)

/-- Reads on from where reading has come. -/
def read (opening : Bool) (cs : List Char) : Except Defect Bool := cs.foldlM readChar opening

/-- What is wrong with a text that has been read. At its end no part may be left to open. -/
def defectOfRead : Except Defect Bool → Option Defect
  | .error d => some d
  | .ok true => some .emptyPart
  | .ok false => none

section Cons

variable {opening next : Bool} {c : Char} {d : Defect}

theorem read_cons_of_ok (h : readChar opening c = .ok next) (cs : List Char) :
    read opening (c :: cs) = read next cs := by
  rw [read, List.foldlM_cons, h]
  rfl

theorem read_cons_of_error (h : readChar opening c = .error d) (cs : List Char) :
    read opening (c :: cs) = .error d := by
  rw [read, List.foldlM_cons, h]
  rfl

end Cons

/-- Reading compared with cutting at the dots. In the middle of a part, the first piece is the rest
of the part. -/
theorem read_spec (cs : List Char) :
    ∃ first others, cs.splitOn '.' = first :: others ∧
      defectOfRead (read true cs) =
        (Defect.ofPart? first).or (others.findSome? Defect.ofPart?) ∧
      defectOfRead (read false cs) =
        ((first.find? fun d => !isPart d).map .badPart).or (others.findSome? Defect.ofPart?) := by
  induction cs with
  | nil => exact ⟨[], [], List.splitOn_nil '.', rfl, rfl⟩
  | cons c cs ih =>
    obtain ⟨first, others, hsplit, hopening, hinside⟩ := ih
    rw [List.splitOn_cons_eq_if_modifyHead, hsplit]
    by_cases hc : c = '.'
    · -- a dot closes a part and does not open one
      subst hc
      have hopens : readChar true '.' = .error .emptyPart := by rfl
      have hcloses : readChar false '.' = .ok true := rfl
      refine ⟨[], first :: others, by rw [if_pos (beq_self_eq_true _)], ?_, ?_⟩
      · rw [read_cons_of_error hopens]
        rfl
      · rw [read_cons_of_ok hcloses, hopening, List.findSome?_cons]
        cases Defect.ofPart? first <;> rfl
    · refine ⟨c :: first, others, by simp [hc], ?_, ?_⟩
      · by_cases hstart : isStart c = true
        · have hstep : readChar true c = .ok false := by simp [readChar, hstart]
          rw [read_cons_of_ok hstep, hinside, Defect.ofPart?, if_pos hstart]
        · have hstep : readChar true c = .error (.badStart c) := by simp [readChar, hstart, hc]
          rw [read_cons_of_error hstep, Defect.ofPart?, if_neg hstart]
          rfl
      · by_cases hpart : isPart c = true
        · have hstep : readChar false c = .ok false := by simp [readChar, hc, hpart]
          rw [read_cons_of_ok hstep, hinside, List.find?_cons_of_neg (by simp [hpart])]
        · have hstep : readChar false c = .error (.badPart c) := by simp [readChar, hc, hpart]
          rw [read_cons_of_error hstep, List.find?_cons_of_pos (by simp [hpart])]
          rfl

/-- **The first defect is the one that reading meets.** -/
theorem defect?_eq_read (text : String) :
    defect? text = if text = "" then some .missing
      else if text = wildcard then none
      else defectOfRead (read true text.toList) := by
  obtain ⟨first, others, hsplit, hopening, _⟩ := read_spec text.toList
  have hparts : (text.toList.splitOn '.').findSome? Defect.ofPart? =
      defectOfRead (read true text.toList) := by
    rw [hopening, hsplit, List.findSome?_cons]
    cases Defect.ofPart? first <;> rfl
  unfold defect?
  rw [hparts]

/-- Whether a text goes on with a name from where reading has come; `opening` says that a part is
still to open there. -/
def goesOn : (opening : Bool) → List Char → Bool
  | opening, [] => !opening
  | true, c :: cs => isStart c && goesOn false cs
  | false, c :: cs => if c = '.' then goesOn true cs else isPart c && goesOn false cs

theorem defectOfRead_eq_none_iff {opening : Bool} {cs : List Char} :
    defectOfRead (read opening cs) = none ↔ goesOn opening cs = true := by
  induction cs generalizing opening with
  | nil => cases opening <;> decide
  | cons c cs ih =>
    cases opening with
    | true =>
      rw [goesOn, Bool.and_eq_true, ← ih]
      by_cases hstart : isStart c = true
      · have hstep : readChar true c = .ok false := by simp [readChar, hstart]
        simp [read_cons_of_ok hstep, hstart]
      · obtain ⟨d, hstep⟩ : ∃ d, readChar true c = .error d := by simp [readChar, hstart]
        simp [read_cons_of_error hstep, hstart, defectOfRead]
    | false =>
      rw [goesOn]
      split
      · rename_i hdot
        have hstep : readChar false c = .ok true := by simp [readChar, hdot]
        rw [read_cons_of_ok hstep, ih]
      · rename_i hdot
        rw [Bool.and_eq_true, ← ih]
        by_cases hpart : isPart c = true
        · have hstep : readChar false c = .ok false := by simp [readChar, hdot, hpart]
          simp [read_cons_of_ok hstep, hpart]
        · have hstep : readChar false c = .error (.badPart c) := by simp [readChar, hdot, hpart]
          simp [read_cons_of_error hstep, hpart, defectOfRead]

/-- **A text is a name if it is the wildcard or can be read as one.** -/
theorem defect?_eq_none_iff {text : String} :
    defect? text = none ↔ text = wildcard ∨ goesOn true text.toList = true := by
  rw [defect?_eq_read]
  split
  · rename_i hempty
    subst hempty
    simp [goesOn, wildcard]
  · split
    · rename_i hwild
      simp [hwild]
    · rename_i hwild
      rw [defectOfRead_eq_none_iff]
      simp [hwild]

theorem chars_of_goesOn {opening : Bool} {cs : List Char} (h : goesOn opening cs = true) :
    ∀ c ∈ cs, c = '.' ∨ isPart c = true := by
  induction cs generalizing opening with
  | nil => exact fun c hc => absurd hc List.not_mem_nil
  | cons d cs ih =>
    intro c hc
    cases opening with
    | true =>
      rw [goesOn, Bool.and_eq_true] at h
      rcases List.mem_cons.1 hc with rfl | hc
      · exact Or.inr (isPart_of_isStart h.1)
      · exact ih h.2 c hc
    | false =>
      rw [goesOn] at h
      split at h
      · rename_i hdot
        rcases List.mem_cons.1 hc with rfl | hc
        · exact Or.inl hdot
        · exact ih h c hc
      · rw [Bool.and_eq_true] at h
        rcases List.mem_cons.1 hc with rfl | hc
        · exact Or.inr h.1
        · exact ih h.2 c hc

/-- Blanks that close a text may go: none of them opens a part. -/
theorem goesOn_of_append_blanks {opening : Bool} {cs after : List Char} (hafter : Blanks after)
    (h : goesOn opening (cs ++ after) = true) : goesOn opening cs = true := by
  induction cs generalizing opening with
  | nil =>
    cases opening with
    | false => rfl
    | true =>
      cases after with
      | nil => exact h
      | cons b after =>
        rw [List.nil_append, goesOn, isStart_of_isBlank (hafter b List.mem_cons_self)] at h
        cases h
  | cons c cs ih =>
    cases opening with
    | true =>
      rw [List.cons_append, goesOn, Bool.and_eq_true] at h
      rw [goesOn, Bool.and_eq_true]
      exact ⟨h.1, ih h.2⟩
    | false =>
      rw [List.cons_append, goesOn] at h
      rw [goesOn]
      split
      · rename_i hdot
        rw [if_pos hdot] at h
        exact ih h
      · rename_i hdot
        rw [if_neg hdot, Bool.and_eq_true] at h
        rw [Bool.and_eq_true]
        exact ⟨h.1, ih h.2⟩

/-! ## The characters of a name -/

theorem ext_chars {n m : Name} (h : n.text.toList = m.text.toList) : n = m :=
  ext_text (String.toList_inj.1 h)

theorem mem_text {n : Name} {c : Char} (h : c ∈ n.text.toList) :
    c = '*' ∨ c = '.' ∨ isPart c = true := by
  rcases defect?_eq_none_iff.1 n.sound with hwild | hreads
  · rw [hwild] at h
    exact Or.inl (List.mem_singleton.1 h)
  · exact Or.inr (chars_of_goesOn hreads c h)

/-- Any blank that does stand in a name is that control. -/
theorem eq_nextLine_of_mem_text {n : Name} {c : Char} (h : c ∈ n.text.toList)
    (hblank : isBlank c = true) : c = nextLine := by
  rcases mem_text h with rfl | rfl | hpart
  · exact absurd hblank (by decide)
  · exact absurd hblank (by decide)
  · exact eq_nextLine_of_isBlank hblank hpart

/-- So no name is spread over several words or lines. -/
theorem not_mem_text_of_isBlank {n : Name} {c : Char} (hblank : isBlank c = true)
    (hne : c ≠ nextLine) : c ∉ n.text.toList :=
  fun h => hne (eq_nextLine_of_mem_text h hblank)

/-- The characters with a meaning in an arrow rule. -/
def delimiters : List Char := ['(', '-', '>', ',', ':', ')']

theorem not_blank_of_mem_delimiters {c : Char} (hc : c ∈ delimiters) : isBlank c = false := by
  have hall : (delimiters.all fun c => !isBlank c) = true := by decide
  simpa using List.all_eq_true.1 hall c hc

/-- **No delimiter stands in a name.** -/
theorem not_mem_text {n : Name} {c : Char} (hc : c ∈ delimiters) : c ∉ n.text.toList := by
  have hall : (delimiters.all fun c => c != '*' && c != '.' && !isPart c) = true := by
    decide +kernel
  have hno := List.all_eq_true.1 hall c hc
  simp only [Bool.and_eq_true, bne_iff_ne, Bool.not_eq_true'] at hno
  obtain ⟨⟨hwild, hdot⟩, hpart⟩ := hno
  intro h
  rcases mem_text h with h | h | h
  · exact hwild h
  · exact hdot h
  · rw [hpart] at h
    cases h

/-- A name opens with the wildcard or with a start character. -/
theorem exists_first (n : Name) :
    ∃ c cs, n.text.toList = c :: cs ∧ (c = '*' ∨ isStart c = true) := by
  rcases defect?_eq_none_iff.1 n.sound with hwild | hreads
  · exact ⟨'*', [], by rw [hwild]; rfl, Or.inl rfl⟩
  · cases hcs : n.text.toList with
    | nil =>
      rw [hcs] at hreads
      cases hreads
    | cons c cs =>
      rw [hcs, goesOn, Bool.and_eq_true] at hreads
      exact ⟨c, cs, rfl, Or.inr hreads.1⟩

theorem first_not_blank {n : Name} {c : Char} (h : n.text.toList.head? = some c) :
    isBlank c = false := by
  obtain ⟨d, cs, hcs, hd⟩ := n.exists_first
  rw [hcs, List.head?_cons, Option.some.injEq] at h
  subst h
  rcases hd with rfl | hd
  · decide
  · rw [Bool.eq_false_iff]
    intro hblank
    rw [isStart_of_isBlank hblank] at hd
    cases hd

/-! ## Bare names -/

/-- No blank closes the name. -/
def Bare (n : Name) : Prop := ∀ c, n.text.toList.getLast? = some c → isBlank c = false

/-- **A name is bare unless the next-line control closes it.** -/
theorem bare_iff {n : Name} : n.Bare ↔ n.text.toList.getLast? ≠ some nextLine := by
  constructor
  · intro h hlast
    have hno := h nextLine hlast
    rw [isBlank_nextLine] at hno
    cases hno
  · intro h c hc
    rw [Bool.eq_false_iff]
    intro hblank
    refine h ?_
    rw [hc, eq_nextLine_of_mem_text (List.mem_of_getLast? hc) hblank]

theorem Bare.tight {n : Name} (h : n.Bare) : Tight n.text.toList :=
  ⟨fun _ hc => first_not_blank hc, h⟩

/-- A name that is a trimmed text is bare. -/
theorem bare_of_eq_trim {n : Name} {cs : List Char} (h : n.text.toList = trim cs) : n.Bare := by
  intro c hc
  rw [h] at hc
  exact (tight_trim cs).last c hc

theorem sound_trimEnd (n : Name) : defect? (String.ofList (trimEnd n.text.toList)) = none := by
  rw [defect?_eq_none_iff, String.toList_ofList]
  rcases defect?_eq_none_iff.1 n.sound with hwild | hreads
  · exact Or.inl (by rw [hwild]; rfl)
  · obtain ⟨after, hafter, hcs, _⟩ := exists_trimEnd n.text.toList
    rw [hcs] at hreads
    exact Or.inr (goesOn_of_append_blanks hafter hreads)

/-- The name without the blanks that close it. -/
def bare (n : Name) : Name := ⟨String.ofList (trimEnd n.text.toList), n.sound_trimEnd⟩

theorem bare_text (n : Name) : n.bare.text.toList = trimEnd n.text.toList :=
  String.toList_ofList

theorem bare_bare (n : Name) : n.bare.Bare := by
  obtain ⟨_, _, _, hlast⟩ := exists_trimEnd n.text.toList
  intro c hc
  rw [bare_text] at hc
  exact hlast c hc

theorem bare_eq_self_iff {n : Name} : n.bare = n ↔ n.Bare := by
  constructor
  · intro h
    rw [← h]
    exact n.bare_bare
  · intro h
    refine ext_chars ?_
    rw [bare_text]
    exact trimEnd_eq_self h

/-- Trimming a name gives its bare form: only its end has anything to lose. -/
theorem trim_text (n : Name) : trim n.text.toList = n.bare.text.toList := by
  rw [bare_text, trim, trimStart_eq_self fun _ hc => first_not_blank hc]

end Name

end ApiGate
