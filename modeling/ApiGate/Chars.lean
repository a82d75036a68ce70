import ApiGate.Chars.Start
import ApiGate.Chars.Inner

/-!
# Character classes

A name is made of *parts*, and two classes of characters say what a part is: `isStart` for its
first character, `isPart` for the others. Both go by general category, and `isPart` also admits
the control characters that identifiers ignore.

`isBlank` is the property `White_Space`. It is a third class of its own: the next-line control
U+0085 is blank and may still stand inside a name, while U+200B and U+FEFF are not blank.
-/

namespace ApiGate.Chars

/-- Whether `n` lies in one of the closed ranges; they increase, so the search stops at the first
range above `n`. -/
def inRanges : List (Nat × Nat) → Nat → Bool
  | [], _ => false
  | (lo, hi) :: rest, n => if n < lo then false else n ≤ hi || inRanges rest n

/-- Characters that may open a part: letters, letter numbers, currency signs and connectors. -/
def isStart (c : Char) : Bool :=
  if c.toNat < 0x10000 then inRanges startRangesLow c.toNat else inRanges startRangesHigh c.toNat

/-- Characters that may follow but not open: digits, combining marks and format characters. -/
def isInner (c : Char) : Bool :=
  if c.toNat < 0x10000 then inRanges innerRangesLow c.toNat else inRanges innerRangesHigh c.toNat

/-- The control characters that identifiers ignore. -/
def isIgnorable (c : Char) : Bool :=
  inRanges [(0x0, 0x8), (0xE, 0x1B), (0x7F, 0x9F)] c.toNat

/-- Characters that may follow the first one of a part. -/
def isPart (c : Char) : Bool :=
  isStart c || isInner c || isIgnorable c

/-- The ranges of `White_Space`. -/
def blankRanges : List (Nat × Nat) :=
  [(0x9, 0xD), (0x20, 0x20), (0x85, 0x85), (0xA0, 0xA0), (0x1680, 0x1680), (0x2000, 0x200A),
   (0x2028, 0x2029), (0x202F, 0x202F), (0x205F, 0x205F), (0x3000, 0x3000)]

/-- Characters of the property `White_Space`. -/
def isBlank (c : Char) : Bool :=
  inRanges blankRanges c.toNat

/-- Whether each range holds at least one number, none starts below `low`, and there is a gap
between any two. -/
def increasing : (low : Nat) → List (Nat × Nat) → Bool
  | _, [] => true
  | low, (lo, hi) :: rest => low ≤ lo && lo ≤ hi && increasing (hi + 2) rest

theorem le_of_increasing {low : Nat} {l : List (Nat × Nat)} (h : increasing low l = true)
    {r : Nat × Nat} (hr : r ∈ l) : low ≤ r.1 := by
  induction l generalizing low with
  | nil => cases hr
  | cons s rest ih =>
    simp only [increasing, Bool.and_eq_true, decide_eq_true_eq] at h
    obtain ⟨⟨hlow, hlo⟩, hrest⟩ := h
    rcases List.mem_cons.1 hr with rfl | hr
    · exact hlow
    · have := ih hrest hr
      omega

/-- Stopping early misses nothing, as long as the ranges increase. -/
theorem inRanges_iff {low : Nat} {l : List (Nat × Nat)} (h : increasing low l = true) {n : Nat} :
    inRanges l n = true ↔ ∃ r ∈ l, r.1 ≤ n ∧ n ≤ r.2 := by
  induction l generalizing low with
  | nil => simp [inRanges]
  | cons s rest ih =>
    obtain ⟨lo, hi⟩ := s
    have hrest : increasing (hi + 2) rest = true := by
      simp only [increasing, Bool.and_eq_true] at h
      exact h.2
    have hlo : lo ≤ hi := by
      simp only [increasing, Bool.and_eq_true, decide_eq_true_eq] at h
      exact h.1.2
    simp only [inRanges, List.mem_cons, exists_eq_or_imp]
    split
    · rename_i hn
      simp only [Bool.false_eq_true, false_iff]
      intro h
      rcases h with ⟨hlon, _⟩ | ⟨r, hr, hrn, _⟩
      · omega
      · have := le_of_increasing hrest hr
        omega
    · rename_i hn
      rw [Bool.or_eq_true, decide_eq_true_eq, ih hrest]
      constructor
      · intro h
        rcases h with hhi | hr
        · exact Or.inl ⟨Nat.le_of_not_lt hn, hhi⟩
        · exact Or.inr hr
      · intro h
        rcases h with ⟨_, hhi⟩ | hr
        · exact Or.inl hhi
        · exact Or.inr hr

theorem increasing_startRangesLow : increasing 0 startRangesLow = true := by decide +kernel

theorem increasing_startRangesHigh : increasing 0x10000 startRangesHigh = true := by
  decide +kernel

theorem increasing_innerRangesLow : increasing 0 innerRangesLow = true := by decide +kernel

theorem increasing_innerRangesHigh : increasing 0x10000 innerRangesHigh = true := by
  decide +kernel

theorem increasing_blankRanges : increasing 0 blankRanges = true := by decide

/-- Looking into the table of its plane alone, one misses no range that a number lies in. -/
theorem inPlane_iff {low high : List (Nat × Nat)} (hlow : increasing 0 low = true)
    (hends : ∀ r ∈ low, r.2 < 0x10000) (hhigh : increasing 0x10000 high = true) {n : Nat} :
    (if n < 0x10000 then inRanges low n else inRanges high n) = true ↔
      ∃ r ∈ low ++ high, r.1 ≤ n ∧ n ≤ r.2 := by
  simp only [List.mem_append, or_and_right, exists_or]
  split
  · rename_i hn
    rw [inRanges_iff hlow, or_iff_left]
    intro h
    obtain ⟨r, hr, hrn, _⟩ := h
    have := le_of_increasing hhigh hr
    omega
  · rename_i hn
    rw [inRanges_iff hhigh, or_iff_right]
    intro h
    obtain ⟨r, hr, _, hrn⟩ := h
    have := hends r hr
    omega

theorem isStart_iff {c : Char} :
    isStart c = true ↔ ∃ r ∈ startRangesLow ++ startRangesHigh, r.1 ≤ c.toNat ∧ c.toNat ≤ r.2 :=
  inPlane_iff increasing_startRangesLow (by decide +kernel) increasing_startRangesHigh

theorem isInner_iff {c : Char} :
    isInner c = true ↔ ∃ r ∈ innerRangesLow ++ innerRangesHigh, r.1 ≤ c.toNat ∧ c.toNat ≤ r.2 :=
  inPlane_iff increasing_innerRangesLow (by decide +kernel) increasing_innerRangesHigh

theorem isBlank_iff {c : Char} :
    isBlank c = true ↔ ∃ r ∈ blankRanges, r.1 ≤ c.toNat ∧ c.toNat ≤ r.2 :=
  inRanges_iff increasing_blankRanges

theorem isPart_of_isStart {c : Char} (h : isStart c = true) : isPart c = true := by
  simp [isPart, h]

end ApiGate.Chars
