import ApiGate.Proofs.Identity
import ApiGate.Proofs.Regrouping
import ApiGate.Proofs.Views

/-!
# What a rendered report tells

A rendered report is read from the outside in.

* Cut at the line ends, and then at the empty lines, it falls into sections. No line of a section is
  empty, and no name has a line end in it.
* The heading of a section tells the severity and the number of dependencies. The text of a clean
  report is no heading, since it has letters where a heading has digits.
* Below the heading, a line that does not open with a tab begins a violation. No name opens with one.
* A violation with one dependency has it on the line of the type. A space follows the type there, and
  so that line is no type. With several dependencies, the type has its line to itself.

So a report tells the violations it lists, and of those it does not list how many dependencies they
have. That is all it tells (`Report.render_eq_iff`).
-/

namespace ApiGate

open Chars Text

/-- A text that is a name is on one line. -/
theorem Name.not_mem_of_sound {text : String} (h : defect? text = none) {c : Char}
    (hblank : isBlank c = true) (hne : c ≠ nextLine) : c ∉ text.toList :=
  @not_mem_text_of_isBlank ⟨text, h⟩ c hblank hne

theorem Name.ne_nil_of_sound {text : String} (h : defect? text = none) : text.toList ≠ [] := by
  obtain ⟨c, cs, hcs, _⟩ := exists_first ⟨text, h⟩
  exact hcs ▸ List.cons_ne_nil c cs

/-! ## Violations -/

namespace Violation

/-- A dependency, with the arrow before it. -/
def pointer (d : String) : List Char := '-' :: '>' :: ' ' :: d.toList

theorem pointer_inj {d d' : String} (h : pointer d = pointer d') : d = d' := by
  unfold pointer at h
  simp only [List.cons.injEq, true_and] at h
  exact String.toList_inj.1 h

/-- The lines on which a violation is listed. -/
def lines (v : Violation) : List (List Char) :=
  match v.dependencies.toList with
  | [d] => [v.typeName.toList ++ ' ' :: pointer d]
  | ds => v.typeName.toList :: ds.map fun d => '\t' :: pointer d

theorem lines_of_single {v : Violation} {d : String} (h : v.dependencies.toList = [d]) :
    v.lines = [v.typeName.toList ++ ' ' :: pointer d] := by
  unfold lines
  rw [h]

theorem lines_of_several {v : Violation} (h : ∀ d, v.dependencies.toList ≠ [d]) :
    v.lines = v.typeName.toList :: v.dependencies.toList.map fun d => '\t' :: pointer d := by
  unfold lines
  split
  · exact absurd ‹_› (h _)
  · rfl

theorem lines_ne_nil (v : Violation) : v.lines ≠ [] := by
  unfold lines
  split <;> exact List.cons_ne_nil _ _

theorem toList_listing (v : Violation) : v.listing.toList = ['\n'].intercalate v.lines := by
  unfold listing
  split
  · rename_i d hd
    simp [lines_of_single hd, pointer]
  · rename_i hne
    rw [lines_of_several hne, intercalate_cons, List.flatMap_map, String.toList_append,
      String.toList_join, List.flatMap_map]
    simp [pointer]

/-- The violation is one of those that a report lists under the severity `s`. -/
structure Listed (s : Severity) (v : Violation) : Prop where
  severity : v.severity = s
  type : Name.defect? v.typeName = none
  dependency (d : String) : d ∈ v.dependencies → Name.defect? d = none

variable {s : Severity} {v w : Violation}

theorem Listed.line (h : Listed s v) {l : List Char} (hl : l ∈ v.lines) : l ≠ [] ∧ '\n' ∉ l := by
  have htype : '\n' ∉ v.typeName.toList :=
    Name.not_mem_of_sound h.type (by decide) (by decide)
  have hpointer : ∀ d ∈ v.dependencies.toList, '\n' ∉ pointer d := by
    intro d hd
    have hname : '\n' ∉ d.toList :=
      Name.not_mem_of_sound (h.dependency d hd) (by decide) (by decide)
    simpa [pointer] using hname
  by_cases hsingle : ∃ d, v.dependencies.toList = [d]
  · obtain ⟨d, hd⟩ := hsingle
    have hlast := hpointer d (hd ▸ List.mem_singleton_self d)
    rw [lines_of_single hd, List.mem_singleton] at hl
    rw [hl]
    exact ⟨by simp, by simp [htype, hlast]⟩
  · rw [lines_of_several (not_exists.1 hsingle)] at hl
    rcases List.mem_cons.1 hl with rfl | hl
    · exact ⟨Name.ne_nil_of_sound h.type, htype⟩
    · obtain ⟨d, hd, rfl⟩ := List.mem_map.1 hl
      exact ⟨List.cons_ne_nil _ _, by simp [hpointer d hd]⟩

/-- Whether a violation begins with a line. -/
def opens (l : List Char) : Bool := l.head? != some '\t'

theorem Listed.block (h : Listed s v) : Block opens v.lines := by
  have htab : '\t' ∉ v.typeName.toList := Name.not_mem_of_sound h.type (by decide) (by decide)
  have hopens : ∀ rest, opens (v.typeName.toList ++ rest) = true := by
    intro rest
    obtain ⟨c, cs, hcs⟩ := List.exists_cons_of_ne_nil (Name.ne_nil_of_sound h.type)
    rw [hcs, List.mem_cons, not_or] at htab
    rw [hcs, opens, List.cons_append, List.head?_cons, bne_iff_ne, ne_eq, Option.some.injEq]
    exact Ne.symm htab.1
  by_cases hsingle : ∃ d, v.dependencies.toList = [d]
  · obtain ⟨d, hd⟩ := hsingle
    exact ⟨_, [], lines_of_single hd, hopens _, fun _ hnil => absurd hnil List.not_mem_nil⟩
  · refine ⟨_, _, lines_of_several (not_exists.1 hsingle), ?_, fun l hl => ?_⟩
    · rw [← List.append_nil v.typeName.toList]
      exact hopens []
    · obtain ⟨d, _, rfl⟩ := List.mem_map.1 hl
      rfl

theorem ext_listed (hv : Listed s v) (hw : Listed s w) (htype : v.typeName = w.typeName)
    (hdependencies : v.dependencies.toList = w.dependencies.toList) : v = w :=
  Violation.ext htype (TextSet.toList_inj.1 hdependencies) (hv.severity.trans hw.severity.symm)

/-- A type does not go on with a space, so one that does is followed by its dependency. -/
theorem Listed.single_iff (h : Listed s v) :
    (∃ d, v.dependencies.toList = [d]) ↔ ∃ l, v.lines.head? = some l ∧ ' ' ∈ l := by
  refine ⟨fun hsingle => ?_, fun hspace => ?_⟩
  · obtain ⟨d, hd⟩ := hsingle
    exact ⟨_, by rw [lines_of_single hd, List.head?_cons], by simp⟩
  · by_contra hsingle
    obtain ⟨l, hl, hspace⟩ := hspace
    rw [lines_of_several (not_exists.1 hsingle), List.head?_cons, Option.some.injEq] at hl
    exact Name.not_mem_of_sound h.type (by decide) (by decide) (hl ▸ hspace)

/-- **A violation is known by its lines.** -/
theorem Listed.eq_of_lines (hv : Listed s v) (hw : Listed s w) (h : v.lines = w.lines) : v = w := by
  have hsame : (∃ d, v.dependencies.toList = [d]) ↔ ∃ d, w.dependencies.toList = [d] := by
    rw [hv.single_iff, h, hw.single_iff]
  have hspace : ∀ {u : Violation}, Listed s u → ' ' ∉ u.typeName.toList := fun hu =>
    Name.not_mem_of_sound hu.type (by decide) (by decide)
  by_cases hsingle : ∃ d, v.dependencies.toList = [d]
  · obtain ⟨d', hd'⟩ := hsame.1 hsingle
    obtain ⟨d, hd⟩ := hsingle
    rw [lines_of_single hd, lines_of_single hd', List.singleton_inj] at h
    obtain ⟨htype, hpointer⟩ := eq_of_append_cons (hspace hv) (hspace hw) h
    refine ext_listed hv hw (String.toList_inj.1 htype) ?_
    rw [hd, hd', pointer_inj hpointer]
  · rw [lines_of_several (not_exists.1 hsingle),
      lines_of_several (not_exists.1 (mt hsame.2 hsingle)), List.cons.injEq] at h
    refine ext_listed hv hw (String.toList_inj.1 h.1) (eq_of_map_eq (fun d _ d' _ hdd => ?_) h.2)
    exact pointer_inj (List.cons.inj hdd).2

theorem eq_of_flatMap_lines {vs ws : List Violation} (hvs : ∀ v ∈ vs, Listed s v)
    (hws : ∀ w ∈ ws, Listed s w) (h : vs.flatMap lines = ws.flatMap lines) : vs = ws := by
  have hblocks : ∀ {us : List Violation}, (∀ u ∈ us, Listed s u) →
      (us.flatMap lines).splitBy (fun _ l => !opens l) = us.map lines := by
    intro us hus
    rw [List.flatMap_def]
    refine splitBy_flatten_blocks fun block hblock => ?_
    obtain ⟨u, hu, rfl⟩ := List.mem_map.1 hblock
    exact (hus u hu).block
  refine eq_of_map_eq (fun v hv w hw => (hvs v hv).eq_of_lines (hws w hw)) ?_
  rw [← hblocks hvs, h, hblocks hws]

end Violation

/-! ## Sections -/

namespace Section

/-- How a heading ends, which is by the severity alone. -/
def closing : Severity → String
  | .ignore => "be ignored."
  | .inform => "be logged:"
  | .warn => "be warned about:"
  | .fail => "fail the build:"

theorem closing_inj {s t : Severity} (h : closing s = closing t) : s = t := by
  revert h
  cases s <;> cases t <;> decide

theorem toList_heading (s : Severity) (n : Nat) :
    (heading s n).toList = "JDeps reported ".toList ++ (Nat.toDigits 10 n ++
      ' ' :: ("dependencies on JDK-internal APIs that are configured to ".toList
        ++ (closing s).toList)) := by
  have hclosing : heading s n = "JDeps reported " ++ toString n
      ++ " dependencies on JDK-internal APIs that are configured to " ++ closing s := by
    cases s <;> rfl
  rw [hclosing, Nat.toString_eq_ofList_toDigits]
  simp

theorem not_mem_toDigits {c : Char} (h : c.isDigit = false) (n : Nat) : c ∉ Nat.toDigits 10 n := by
  intro hmem
  rw [Nat.isDigit_of_mem_toDigits (by decide) (by decide) hmem] at h
  cases h

/-- **A heading tells a severity and a number.** -/
theorem heading_inj {s t : Severity} {m n : Nat} (h : heading s m = heading t n) :
    s = t ∧ m = n := by
  rw [← String.toList_inj, toList_heading, toList_heading, List.append_cancel_left_eq] at h
  obtain ⟨hdigits, hclosing⟩ := eq_of_append_cons (not_mem_toDigits (by decide) m)
    (not_mem_toDigits (by decide) n) h
  rw [List.append_cancel_left_eq, String.toList_inj] at hclosing
  refine ⟨closing_inj hclosing, ?_⟩
  rw [← Nat.ofDigitChars_ten_toDigits (n := m), hdigits, Nat.ofDigitChars_ten_toDigits]

/-- Where a heading has a number, the text of a clean report has a word. -/
theorem heading_ne_cleanText (s : Severity) (n : Nat) : heading s n ≠ Report.cleanText := by
  intro h
  have hclean : Report.cleanText.toList = "JDeps reported ".toList ++ ("no".toList ++
      ' ' :: "dependencies on JDK-internal APIs.".toList) := by decide
  rw [← String.toList_inj, toList_heading, hclean, List.append_cancel_left_eq] at h
  obtain ⟨hdigits, _⟩ := eq_of_append_cons (not_mem_toDigits (by decide) n) (by decide) h
  exact not_mem_toDigits (by decide : 'n'.isDigit = false) n (hdigits ▸ by decide)

theorem heading_lined (s : Severity) (n : Nat) :
    (heading s n).toList ≠ [] ∧ '\n' ∉ (heading s n).toList := by
  have hclosing : '\n' ∉ (closing s).toList := by cases s <;> decide
  have hdigits := not_mem_toDigits (by decide : '\n'.isDigit = false) n
  rw [toList_heading]
  refine ⟨by simp, ?_⟩
  simp only [List.mem_append, List.mem_cons, not_or]
  exact ⟨by decide, hdigits, by decide, by decide, hclosing⟩

end Section

namespace Findings

/-- The lines of the section on a severity. -/
def sectionLines (f : Findings) (s : Severity) : List (List Char) :=
  (Section.heading s (f.count s)).toList ::
    if s = .ignore then [] else (f.violations s).flatMap Violation.lines

/-- The lines of a report, section by section. -/
def reportLines (f : Findings) : List (List (List Char)) :=
  if f.total = 0 then [[Report.cleanText.toList]]
  else Severity.all.filterMap fun s => if f.count s = 0 then none else some (f.sectionLines s)

variable {f g : Findings} {s : Severity}

/-- Below its heading, a section has the lines of its violations. -/
theorem toList_listings (heading : String) {violations : List Violation} (hne : violations ≠ []) :
    (heading ++ ("\n" ++ "\n".intercalate (violations.map Violation.listing))).toList =
      ['\n'].intercalate (heading.toList :: violations.flatMap Violation.lines) := by
  have hlisted : (violations.map Violation.listing).map String.toList =
      (violations.map Violation.lines).map ['\n'].intercalate := by
    rw [List.map_map, List.map_map]
    exact List.map_congr_left fun v _ => v.toList_listing
  have hblocks : ∀ block ∈ violations.map Violation.lines, block ≠ [] := by
    intro block hblock
    obtain ⟨v, _, rfl⟩ := List.mem_map.1 hblock
    exact v.lines_ne_nil
  have hlines : violations.flatMap Violation.lines ≠ [] := by
    obtain ⟨v, rest, rfl⟩ := List.exists_cons_of_ne_nil hne
    rw [List.flatMap_cons]
    exact List.append_ne_nil_of_left_ne_nil v.lines_ne_nil _
  have hjoined := @intercalate_append Char ['\n'] [heading.toList] _ (List.cons_ne_nil _ _) hlines
  rw [List.singleton_append] at hjoined
  rw [hjoined, List.intercalate_singleton, List.flatMap_def, ← intercalate_flatten hblocks,
    ← hlisted, String.toList_append, String.toList_append, String.toList_intercalate,
    List.append_assoc]
  rfl

theorem exists_section_eq (h : f.count s ≠ 0) :
    ∃ sec, Section.ofViolations? s (f.violations s) = some sec ∧
      sec.message.toList = ['\n'].intercalate (f.sectionLines s) := by
  have hne : f.violations s ≠ [] := by
    intro hnil
    rw [count, hnil] at h
    exact h rfl
  unfold Section.ofViolations?
  refine ⟨_, if_neg h, ?_⟩
  unfold sectionLines
  cases s with
  | ignore => simp [count]
  | inform => exact toList_listings _ hne
  | warn => exact toList_listings _ hne
  | fail => exact toList_listings _ hne

/-- **A rendered report is its lines, section by section.** -/
theorem toList_render (f : Findings) : (Report.ofFindings f).render.toList =
    ['\n', '\n'].intercalate (f.reportLines.map ['\n'].intercalate) := by
  have hsections : (Report.ofFindings f).sections.map (·.message.toList) =
      (Severity.all.filterMap fun s =>
        if f.count s = 0 then none else some (f.sectionLines s)).map ['\n'].intercalate := by
    unfold Report.ofFindings
    rw [List.map_filterMap, List.map_filterMap]
    refine congrArg (List.filterMap · Severity.all) (funext fun s => ?_)
    by_cases h : f.count s = 0
    · rw [Section.ofViolations?_eq_none_iff.2 h, if_pos h]
      rfl
    · obtain ⟨sec, hsome, hmessage⟩ := exists_section_eq h
      rw [hsome, if_neg h, Option.map_some, Option.map_some, hmessage]
  unfold Report.render reportLines
  by_cases h : f.total = 0
  · rw [if_pos (Report.isClean_iff.2 h), if_pos h]
    simp
  · rw [if_neg (mt Report.isClean_iff.1 h), if_neg h, ← hsections, String.toList_intercalate,
      List.map_map]
    rfl

theorem mem_reportLines {block : List (List Char)} (h : block ∈ f.reportLines) :
    block = [Report.cleanText.toList] ∨ ∃ s, block = f.sectionLines s := by
  unfold reportLines at h
  split at h
  · exact Or.inl (List.mem_singleton.1 h)
  · obtain ⟨s, _, hs⟩ := List.mem_filterMap.1 h
    split at hs
    · cases hs
    · exact Or.inr ⟨s, (Option.some.inj hs).symm⟩

theorem sectionLines_mem_reportLines (h : f.count s ≠ 0) : f.sectionLines s ∈ f.reportLines := by
  have htotal : f.total ≠ 0 := fun hzero => h (total_eq_zero_iff.1 hzero s)
  unfold reportLines
  rw [if_neg htotal]
  exact List.mem_filterMap.2 ⟨s, Severity.mem_all s, if_neg h⟩

/-- Each violation is one to be listed under its severity. -/
def Listed (f : Findings) : Prop := ∀ s, ∀ v ∈ f.violations s, v.Listed s

theorem Listed.sectioned (h : f.Listed) : Sectioned '\n' f.reportLines where
  nonempty := by
    unfold reportLines
    by_cases htotal : f.total = 0
    · rw [if_pos htotal]
      exact List.cons_ne_nil _ _
    · rw [total_eq_zero_iff, not_forall] at htotal
      obtain ⟨s, hs⟩ := htotal
      exact List.ne_nil_of_mem (sectionLines_mem_reportLines hs)
  lined := by
    intro block hblock
    rcases mem_reportLines hblock with rfl | ⟨s, rfl⟩
    · exact List.cons_ne_nil _ _
    · exact List.cons_ne_nil _ _
  line := by
    intro block l hblock hl
    rcases mem_reportLines hblock with rfl | ⟨s, rfl⟩
    · rw [List.mem_singleton.1 hl]
      decide
    · rcases List.mem_cons.1 hl with rfl | hl
      · exact Section.heading_lined s _
      · split at hl
        · exact absurd hl List.not_mem_nil
        · obtain ⟨v, hv, hl⟩ := List.mem_flatMap.1 hl
          exact (h s v hv).line hl

/-- **Equal reports have the same sections.** -/
theorem Listed.sectionLines_eq (hf : f.Listed) (hg : g.Listed)
    (h : (Report.ofFindings f).render = (Report.ofFindings g).render) (hs : f.count s ≠ 0) :
    f.sectionLines s = g.sectionLines s := by
  have hlines : f.reportLines = g.reportLines := by
    rw [← String.toList_inj, toList_render, toList_render] at h
    rw [← hf.sectioned.splitOn_splitOn, h, hg.sectioned.splitOn_splitOn]
  rcases mem_reportLines (hlines ▸ sectionLines_mem_reportLines hs) with hclean | ⟨t, ht⟩
  · have hheading := (List.cons.inj hclean).1
    exact absurd (String.toList_inj.1 hheading) (Section.heading_ne_cleanText s _)
  · -- the heading tells which of the sections it is
    have hheading := (List.cons.inj ht).1
    rw [ht, (Section.heading_inj (String.toList_inj.1 hheading)).1]

theorem count_eq_of_sectionLines (h : f.sectionLines s = g.sectionLines s) :
    f.count s = g.count s :=
  (Section.heading_inj (String.toList_inj.1 (List.cons.inj h).1)).2

theorem Listed.count_eq (hf : f.Listed) (hg : g.Listed)
    (h : (Report.ofFindings f).render = (Report.ofFindings g).render) (s : Severity) :
    f.count s = g.count s := by
  by_cases hs : f.count s = 0
  · by_cases hs' : g.count s = 0
    · rw [hs, hs']
    · exact (count_eq_of_sectionLines (hg.sectionLines_eq hf h.symm hs')).symm
  · exact count_eq_of_sectionLines (hf.sectionLines_eq hg h hs)

/-- The violations to ignore are counted and not listed. -/
theorem render_congr (hlisted : ∀ s, s ≠ .ignore → f.violations s = g.violations s)
    (hignored : f.count .ignore = g.count .ignore) :
    (Report.ofFindings f).render = (Report.ofFindings g).render := by
  have hcount : ∀ s, f.count s = g.count s := by
    intro s
    by_cases hs : s = .ignore
    · rw [hs, hignored]
    · rw [count, count, hlisted s hs]
  have hsections : f.sectionLines = g.sectionLines := by
    funext s
    unfold sectionLines
    rw [hcount s]
    by_cases hs : s = .ignore
    · rw [if_pos hs, if_pos hs]
    · rw [if_neg hs, if_neg hs, hlisted s hs]
  have htotal : f.total = g.total := by simp only [total, hcount]
  rw [← String.toList_inj, toList_render, toList_render, reportLines, reportLines, htotal,
    hsections]
  simp only [hcount]

end Findings

/-- What depends on something has a name, and so has what it depends on. A type that depends on
nothing may be called anything. -/
def Usage.Named (usages : List Usage) : Prop :=
  ∀ p ∈ pairs usages, Name.defect? p.1 = none ∧ Name.defect? p.2 = none

theorem Findings.listed_ofUsages {usages : List Usage} (h : Usage.Named usages) (judge : Judge)
    (default : Severity) : (ofUsages judge default usages).Listed := by
  intro s v hv
  obtain ⟨hs, ⟨d, hd⟩, hds⟩ := mem_violations_ofUsages.1 hv
  exact ⟨hs, (h _ ((hds d).1 hd).1).1, fun d' hd' => (h _ ((hds d').1 hd').1).2⟩

namespace Report

open Findings

/--
**A rendered report tells what it lists.**

Of two analyses of names, whatever the rules and the defaults are, the reports are rendered alike
exactly if the violations to inform about, to warn of and to fail over are the same, in the same
order, and there are as many dependencies to ignore.
-/
theorem render_eq_iff {judge judge' : Judge} {default default' : Severity}
    {usages usages' : List Usage} (h : Usage.Named usages) (h' : Usage.Named usages') :
    (ofFindings (ofUsages judge default usages)).render =
        (ofFindings (ofUsages judge' default' usages')).render ↔
      (∀ s, s ≠ .ignore → (ofUsages judge default usages).violations s =
          (ofUsages judge' default' usages').violations s) ∧
        (ofUsages judge default usages).count .ignore =
          (ofUsages judge' default' usages').count .ignore := by
  have hlisted := listed_ofUsages h judge default
  have hlisted' := listed_ofUsages h' judge' default'
  refine ⟨fun hrender => ⟨fun s hs => ?_, hlisted.count_eq hlisted' hrender .ignore⟩,
    fun hsame => render_congr hsame.1 hsame.2⟩
  by_cases hzero : (ofUsages judge default usages).count s = 0
  · have hzero' := (hlisted.count_eq hlisted' hrender s).symm.trans hzero
    rw [(violations_ofUsages_eq_nil_iff judge default usages s).2 hzero,
      (violations_ofUsages_eq_nil_iff judge' default' usages' s).2 hzero']
  · have hlines := (List.cons.inj (hlisted.sectionLines_eq hlisted' hrender hzero)).2
    rw [if_neg hs, if_neg hs] at hlines
    exact Violation.eq_of_flatMap_lines (hlisted s) (hlisted' s) hlines

/-- A judge that accepts one dependency. -/
def acceptZ : Judge := fun _ d => if d = "z.Z" then some .ignore else none

/-- A type that depends on two, and another with the one that is accepted. -/
def acceptedUsages (other : String) : List Usage :=
  [.ofList "a.A\u0085" ["x.X", "y.Y"], .ofList other ["z.Z"]]

/-- Which type the accepted dependency belongs to is found, but not reported. -/
theorem render_eq_iff_accepted :
    Usage.Named (acceptedUsages "b.B") ∧ Usage.Named (acceptedUsages "c.C") ∧
      ofUsages acceptZ .fail (acceptedUsages "b.B") ≠
        ofUsages acceptZ .fail (acceptedUsages "c.C") ∧
      (ofFindings (ofUsages acceptZ .fail (acceptedUsages "b.B"))).render =
        (ofFindings (ofUsages acceptZ .fail (acceptedUsages "c.C"))).render := by
  have hnamed : Usage.Named (acceptedUsages "b.B") := by
    unfold Usage.Named
    decide +kernel
  have hnamed' : Usage.Named (acceptedUsages "c.C") := by
    unfold Usage.Named
    decide +kernel
  have hlisted : ∀ s, s ≠ .ignore →
      (ofUsages acceptZ .fail (acceptedUsages "b.B")).violations s =
        (ofUsages acceptZ .fail (acceptedUsages "c.C")).violations s := by
    intro s
    cases s <;> decide +kernel
  refine ⟨hnamed, hnamed', by decide +kernel, (render_eq_iff hnamed hnamed').2 ⟨hlisted, ?_⟩⟩
  decide +kernel

end Report

end ApiGate
