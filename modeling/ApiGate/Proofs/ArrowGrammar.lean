import ApiGate.Rule.Arrow
import ApiGate.Proofs.Making
import ApiGate.Proofs.Spelling

/-!
# The grammar of arrow rules

An arrow rule consists of tokens with any number of blanks between them and around them: a
dependent, an arrow, dependencies with commas between them, a colon and a word for the severity, and
possibly an opening and a closing parenthesis around all that. A `Reading` is such a list of tokens.
The names in it are bare: where a name could end in a blank, the blank is read as one between
tokens.

Reading a text knows nothing of tokens. It trims, cuts at the first arrow and the last colon, cuts
at the commas, and trims the pieces. `spaced_iff_cut` says that this comes to the same, for every
text: it is spaced from the tokens of a reading exactly if it is cut into pieces that trim to them.
The argument is that of `not_mem_text`: no token has a character at which reading cuts, so it cuts
nowhere but between the tokens.

From this follows that reading accepts the grammar and nothing else, and that no text has two
readings, since it is cut in one way (`parseArrow_iff_spaced`).
-/

namespace ApiGate

open Chars Text

/-! ## Words for severities -/

namespace Severity

theorem eq_of_sameLetters {s t : Severity} {cs : List Char}
    (hs : sameLetters s.name.toList cs = true) (ht : sameLetters t.name.toList cs = true) :
    s = t := by
  have hlower : s.name.toList.map Char.toLower = t.name.toList.map Char.toLower :=
    (beq_iff_eq.1 hs).trans (beq_iff_eq.1 ht).symm
  revert hlower
  cases s <;> cases t <;> decide

theorem ofChars?_eq_some_iff {cs : List Char} {s : Severity} :
    ofChars? cs = some s ↔ sameLetters s.name.toList (trim cs) = true := by
  have hfound : ∀ {t : Severity}, ofChars? cs = some t →
      sameLetters t.name.toList (trim cs) = true := by
    intro t h
    unfold ofChars? at h
    simpa using List.find?_some h
  constructor
  · exact hfound
  · intro hs
    cases hf : ofChars? cs with
    | none => exact absurd hs (List.find?_eq_none.1 hf s (mem_all s))
    | some t => rw [eq_of_sameLetters (hfound hf) hs]

/-- A word for a severity is made of letters. -/
theorem isAlpha_of_sameLetters {s : Severity} {cs : List Char}
    (h : sameLetters s.name.toList cs = true) : ∀ c ∈ cs, c.isAlpha = true := by
  have hlower : (s.name.toList.map Char.toLower).all Char.isLower = true := by
    cases s <;> decide
  intro c hc
  have hmem : c.toLower ∈ s.name.toList.map Char.toLower := by
    rw [beq_iff_eq.1 h]
    exact List.mem_map_of_mem hc
  have hc' : c.toLower.isLower = true := List.all_eq_true.1 hlower _ hmem
  by_cases hupper : c.isUpper = true
  · exact Bool.or_eq_true_iff.2 (Or.inl hupper)
  · have hsame : c.toLower = c := dif_neg fun hrange => hupper (decide_eq_true hrange)
    rw [hsame] at hc'
    exact Bool.or_eq_true_iff.2 (Or.inr hc')

theorem isAlpha_of_isBlank {c : Char} (h : isBlank c = true) : c.isAlpha = false := by
  obtain ⟨r, hr, hrc⟩ := isBlank_iff.1 h
  have haway : ∀ r ∈ blankRanges, r.2 < 65 ∨ 122 < r.1 := by decide
  have hc := haway r hr
  rw [Bool.eq_false_iff]
  intro halpha
  have hletter : (65 ≤ c.toNat ∧ c.toNat ≤ 90) ∨ (97 ≤ c.toNat ∧ c.toNat ≤ 122) := by
    rcases Bool.or_eq_true_iff.1 halpha with hupper | hlower
    · exact Or.inl (of_decide_eq_true hupper)
    · obtain ⟨hfrom, hto⟩ := Bool.and_eq_true_iff.1 hlower
      exact Or.inr ⟨of_decide_eq_true hfrom, of_decide_eq_true hto⟩
  omega

theorem tight_of_sameLetters {s : Severity} {cs : List Char}
    (h : sameLetters s.name.toList cs = true) : Tight cs := by
  have hno : ∀ c ∈ cs, isBlank c = false := by
    intro c hc
    rw [Bool.eq_false_iff]
    intro hblank
    have halpha := isAlpha_of_sameLetters h c hc
    rw [isAlpha_of_isBlank hblank] at halpha
    cases halpha
  exact ⟨fun c hc => hno c (List.mem_of_head? hc), fun c hc => hno c (List.mem_of_getLast? hc)⟩

theorem ne_nil_of_sameLetters {s : Severity} {cs : List Char}
    (h : sameLetters s.name.toList cs = true) : cs ≠ [] := by
  intro hnil
  rw [hnil] at h
  cases s <;> cases h

end Severity

namespace Rule

/-! ## The grammar -/

/-- A list of tokens that is an arrow rule, blanks aside. -/
structure Reading where
  /-- Whether parentheses stand around it. -/
  enclosed : Bool
  dependent : Name
  dependencies : List Name
  severity : Severity
  /-- The severity as it is written. -/
  word : List Char
  /-- There is at least one dependency. -/
  listed : dependencies ≠ []
  /-- Blanks after a name are no part of it. -/
  bare : ∀ n ∈ dependent :: dependencies, n.Bare
  /-- The word names the severity, in letters of either case. -/
  spelled : Severity.sameLetters severity.name.toList word = true

namespace Reading

/-- The tokens, apart from parentheses. -/
def inner (r : Reading) : List (List Char) :=
  r.dependent.text.toList :: ['-', '>'] ::
    ((r.dependencies.map (·.text.toList)).intersperse [','] ++ [[':'], r.word])

def tokens (r : Reading) : List (List Char) :=
  if r.enclosed then ['('] :: (r.inner ++ [[')']]) else r.inner

/-- The rules that are read: one for each dependency. -/
def rules (r : Reading) : List Rule :=
  r.dependencies.map fun x => ⟨r.dependent, x, r.severity⟩

/-- The pieces of a text trim to the tokens of the reading. -/
structure Fits (r : Reading) (d xs w : List Char) : Prop where
  dependent : trim d = r.dependent.text.toList
  dependencies : (xs.splitOn ',').map trim = r.dependencies.map (·.text.toList)
  word : trim w = r.word

theorem dependent_bare (r : Reading) : r.dependent.Bare := r.bare _ List.mem_cons_self

theorem dependency_bare {r : Reading} {x : Name} (hx : x ∈ r.dependencies) : x.Bare :=
  r.bare x (List.mem_cons_of_mem _ hx)

theorem ext_data {r s : Reading} (henclosed : r.enclosed = s.enclosed)
    (hdependent : r.dependent = s.dependent) (hdependencies : r.dependencies = s.dependencies)
    (hword : r.word = s.word) : r = s := by
  have hseverity : r.severity = s.severity :=
    Severity.eq_of_sameLetters r.spelled (hword ▸ s.spelled)
  cases r
  cases s
  simp_all

/-! ## Tokens and pieces -/

/-- Apart from parentheses, a text is spaced from the tokens if an arrow and a colon cut it into
pieces that trim to them. -/
theorem spaced_inner_iff {r : Reading} {cs : List Char} :
    Spaced r.inner cs ↔
      ∃ d xs w, r.Fits d xs w ∧ cs = d ++ '-' :: '>' :: (xs ++ ':' :: w) := by
  have hcolon : ∀ {w : List Char}, Spaced [r.word] w ↔ trim w = r.word :=
    spaced_singleton_iff (Severity.tight_of_sameLetters r.spelled)
  have hdependent : ∀ {d : List Char},
      Spaced [r.dependent.text.toList] d ↔ trim d = r.dependent.text.toList :=
    spaced_singleton_iff r.dependent_bare.tight
  have hlist : ∀ {xs : List Char},
      Spaced ((r.dependencies.map (·.text.toList)).intersperse [',']) xs ↔
        (xs.splitOn ',').map trim = r.dependencies.map (·.text.toList) := by
    intro xs
    refine spaced_list_iff (by decide) (fun hnil => r.listed (List.map_eq_nil_iff.1 hnil)) ?_
    intro t ht
    obtain ⟨x, hx, rfl⟩ := List.mem_map.1 ht
    exact ⟨(dependency_bare hx).tight, Name.not_mem_text (by decide)⟩
  have hinner : r.inner = [r.dependent.text.toList] ++ ['-', '>'] ::
      ((r.dependencies.map (·.text.toList)).intersperse [','] ++ [':'] :: [r.word]) := rfl
  rw [hinner, spaced_append_cons_iff]
  constructor
  · intro h
    obtain ⟨d, rest, hd, hrest, rfl⟩ := h
    obtain ⟨xs, w, hxs, hw, rfl⟩ := spaced_append_cons_iff.1 hrest
    refine ⟨d, xs, w, ⟨hdependent.1 hd, hlist.1 hxs, hcolon.1 hw⟩, ?_⟩
    simp only [List.append_assoc, List.cons_append, List.nil_append]
  · intro h
    obtain ⟨d, xs, w, hfits, rfl⟩ := h
    refine ⟨d, xs ++ ':' :: w, hdependent.2 hfits.dependent, ?_, ?_⟩
    · refine spaced_append_cons_iff.2 ⟨xs, w, hlist.2 hfits.dependencies, hcolon.2 hfits.word, ?_⟩
      simp only [List.append_assoc, List.cons_append, List.nil_append]
    · simp only [List.append_assoc, List.cons_append, List.nil_append]

theorem tight_parens (body : List Char) : Tight ('(' :: (body ++ [')'])) := by
  refine ⟨fun c hc => ?_, fun c hc => ?_⟩
  · rw [List.head?_cons, Option.some.injEq] at hc
    rw [← hc]
    decide
  · rw [← List.cons_append, List.getLast?_concat, Option.some.injEq] at hc
    rw [← hc]
    decide

theorem spaced_parens_iff {ts : List (List Char)} {cs : List Char} :
    Spaced (['('] :: (ts ++ [[')']])) cs ↔
      ∃ body, Spaced ts body ∧ trim cs = '(' :: (body ++ [')']) := by
  rw [spaced_cons_iff]
  constructor
  · intro h
    obtain ⟨before, rest, hbefore, hrest, rfl⟩ := h
    obtain ⟨body, after, hbody, hafter, rfl⟩ := spaced_append_cons_iff.1 hrest
    refine ⟨body, hbody, trim_eq_iff.2
      ⟨tight_parens body, before, after, hbefore, spaced_nil_iff.1 hafter, ?_⟩⟩
    simp only [List.append_assoc, List.cons_append, List.nil_append]
  · intro h
    obtain ⟨body, hbody, htrim⟩ := h
    obtain ⟨_, before, after, hbefore, hafter, hcs⟩ := trim_eq_iff.1 htrim
    refine ⟨before, body ++ [')'] ++ after, hbefore,
      spaced_append_cons_iff.2 ⟨body, after, hbody, .done hafter, rfl⟩, ?_⟩
    rw [hcs]
    simp only [List.append_assoc, List.cons_append, List.nil_append]

/-- Blanks around the tokens are no matter. -/
theorem spaced_inner_trim_iff {r : Reading} {cs : List Char} :
    Spaced r.inner (trim cs) ↔ Spaced r.inner cs := by
  have hinner : r.inner = r.dependent.text.toList ::
      (['-', '>'] :: (r.dependencies.map (·.text.toList)).intersperse [','] ++ [[':']] ++
        [r.word]) := by
    simp [inner]
  obtain ⟨c, cs', hfirst, _⟩ := r.dependent.exists_first
  rw [hinner]
  exact spaced_trim_iff r.dependent_bare.tight (Severity.tight_of_sameLetters r.spelled)
    (by rw [hfirst]; exact List.cons_ne_nil c cs') (Severity.ne_nil_of_sameLetters r.spelled)

end Reading

/-! ## What reading cuts -/

theorem stripParens_eq_ok_iff {cs body : List Char} :
    stripParens cs = .ok body ↔
      cs = '(' :: (body ++ [')']) ∨ (cs.head? ≠ some '(' ∧ body = cs) := by
  unfold stripParens
  split
  · rename_i inner
    split
    · rename_i hlast
      obtain ⟨front, rfl⟩ := List.getLast?_eq_some_iff.1 hlast
      simp [eq_comm]
    · rename_i hlast
      constructor
      · intro h
        cases h
      · intro h
        rcases h with h | ⟨hfirst, _⟩
        · rw [List.cons.injEq] at h
          rw [h.2, List.getLast?_concat] at hlast
          exact absurd rfl hlast
        · exact absurd rfl hfirst
  · rename_i hopen
    have hfirst : cs.head? ≠ some '(' := by
      intro hfirst
      obtain ⟨rest, hrest⟩ := List.head?_eq_some_iff.1 hfirst
      exact hopen rest hrest
    constructor
    · intro h
      cases h
      exact Or.inr ⟨hfirst, rfl⟩
    · intro h
      rcases h with h | ⟨_, rfl⟩
      · rw [h] at hfirst
        exact absurd rfl hfirst
      · rfl

theorem cutPieces_eq_ok_iff {cs d xs w : List Char} :
    cutPieces cs = .ok (d, xs, w) ↔
      ∃ body rest, stripParens cs = .ok body ∧ cutArrow body = some (d, rest) ∧
        cutLast ':' rest = some (xs, w) := by
  unfold cutPieces
  rw [bind_eq_ok]
  constructor
  · intro h
    obtain ⟨body, hbody, h⟩ := h
    split at h
    · cases h
    · rename_i d' rest hd
      split at h
      · cases h
      · rename_i xs' w' hw
        cases h
        exact ⟨body, rest, hbody, hd, hw⟩
  · intro h
    obtain ⟨body, rest, hbody, hd, hw⟩ := h
    exact ⟨body, hbody, by simp only [hd, hw]⟩

/-- Once a text is cut and its severity is known, only the names are left to be looked at. -/
theorem parseArrow_of_cutPieces {text : String} {d xs w : List Char} {s : Severity}
    (hcut : cutPieces (trim text.toList) = .ok (d, xs, w)) (hs : Severity.ofChars? w = some s) :
    parseArrow text = (xs.splitOn ',').mapM fun x =>
      ofTexts (String.ofList (trim d)) (String.ofList (trim x)) s := by
  have hpieces : (cutPieces (trim text.toList)).mapError
      (RuleError.malformed (String.ofList (trim text.toList))) = .ok (d, xs, w) :=
    mapError_eq_ok.2 hcut
  unfold parseArrow
  simp only [hpieces, bind, Except.bind, hs]

/-- What is accepted, in terms of the pieces. -/
theorem parseArrow_eq_ok_iff {text : String} {rules : List Rule} :
    parseArrow text = .ok rules ↔
      ∃ d xs w s, cutPieces (trim text.toList) = .ok (d, xs, w) ∧ Severity.ofChars? w = some s ∧
        rules.map (·.dependency.text.toList) = (xs.splitOn ',').map trim ∧
        ∀ r ∈ rules, r.dependent.text.toList = trim d ∧ r.severity = s := by
  have hmapM : ∀ (d xs : List Char) (s : Severity),
      ((xs.splitOn ',').mapM fun x =>
          ofTexts (String.ofList (trim d)) (String.ofList (trim x)) s) = .ok rules ↔
        rules.map (·.dependency.text.toList) = (xs.splitOn ',').map trim ∧
          ∀ r ∈ rules, r.dependent.text.toList = trim d ∧ r.severity = s := by
    intro d xs s
    rw [← mapM_ofTexts_eq_ok_iff, List.mapM_map]
    rfl
  constructor
  · intro h
    unfold parseArrow at h
    simp only [bind_eq_ok, mapError_eq_ok] at h
    obtain ⟨⟨d, xs, w⟩, hcut, h⟩ := h
    simp only at h
    split at h
    · cases h
    · rename_i s hs
      exact ⟨d, xs, w, s, hcut, hs, (hmapM d xs s).1 h⟩
  · intro h
    obtain ⟨d, xs, w, s, hcut, hs, hrules⟩ := h
    rw [parseArrow_of_cutPieces hcut hs]
    exact (hmapM d xs s).2 hrules

/-! ## Reading and the grammar -/

namespace Reading

namespace Fits

variable {r : Reading} {d xs w : List Char}

/-- The dependent holds no delimiter, so neither does a piece that trims to it. -/
theorem not_mem_dependent (h : r.Fits d xs w) {c : Char} (hc : c ∈ Name.delimiters) : c ∉ d := by
  intro hmem
  have htrim : c ∈ trim d := mem_trim_of_mem hmem (Name.not_blank_of_mem_delimiters hc)
  rw [h.dependent] at htrim
  exact Name.not_mem_text hc htrim

theorem colon_not_mem (h : r.Fits d xs w) : ':' ∉ w := by
  intro hmem
  have htrim : ':' ∈ trim w := mem_trim_of_mem hmem (by decide)
  rw [h.word] at htrim
  have halpha := Severity.isAlpha_of_sameLetters r.spelled ':' htrim
  revert halpha
  decide

/-- What is put together of the pieces is cut into them again. -/
theorem cutPieces_eq (h : r.Fits d xs w) {cs : List Char}
    (hcs : stripParens cs = .ok (d ++ '-' :: '>' :: (xs ++ ':' :: w))) :
    cutPieces cs = .ok (d, xs, w) := by
  have hdash : '-' ∉ d := h.not_mem_dependent (by decide)
  exact cutPieces_eq_ok_iff.2
    ⟨_, _, hcs, cutArrow_append hdash (xs ++ ':' :: w), cutLast_append h.colon_not_mem xs⟩

/-- No parenthesis opens it: the first character belongs to the dependent, which is not empty. -/
theorem head?_ne (h : r.Fits d xs w) (rest : List Char) : (d ++ rest).head? ≠ some '(' := by
  intro hfirst
  cases d with
  | nil =>
    obtain ⟨c, cs, hname, _⟩ := r.dependent.exists_first
    have hnil := h.dependent
    rw [hname] at hnil
    cases hnil
  | cons c d =>
    rw [List.cons_append, List.head?_cons, Option.some.injEq] at hfirst
    subst hfirst
    exact h.not_mem_dependent (by decide : '(' ∈ Name.delimiters) List.mem_cons_self

end Fits

/-- **Cutting and spacing.** A text is spaced from the tokens of a reading exactly if it is cut into
pieces that trim to them, and opens with a parenthesis exactly if the reading has parentheses. -/
theorem spaced_iff_cut {r : Reading} {cs : List Char} :
    Spaced r.tokens cs ↔
      ∃ d xs w, cutPieces (trim cs) = .ok (d, xs, w) ∧ r.Fits d xs w ∧
        (r.enclosed = true ↔ (trim cs).head? = some '(') := by
  cases henclosed : r.enclosed with
  | true =>
    have htokens : r.tokens = ['('] :: (r.inner ++ [[')']]) := by simp [tokens, henclosed]
    rw [htokens, spaced_parens_iff]
    constructor
    · intro h
      obtain ⟨body, hbody, htrim⟩ := h
      obtain ⟨d, xs, w, hfits, rfl⟩ := spaced_inner_iff.1 hbody
      refine ⟨d, xs, w, hfits.cutPieces_eq (stripParens_eq_ok_iff.2 (Or.inl htrim)), hfits, ?_⟩
      simp [htrim]
    · intro h
      obtain ⟨d, xs, w, hpieces, hfits, hopen⟩ := h
      obtain ⟨body, rest, hbody, hd, hw⟩ := cutPieces_eq_ok_iff.1 hpieces
      rcases stripParens_eq_ok_iff.1 hbody with htrim | ⟨hfirst, _⟩
      · refine ⟨body, spaced_inner_iff.2 ⟨d, xs, w, hfits, ?_⟩, htrim⟩
        rw [eq_of_cutArrow hd, eq_of_cutLast hw]
      · exact absurd (hopen.1 rfl) hfirst
  | false =>
    have htokens : r.tokens = r.inner := by simp [tokens, henclosed]
    rw [htokens, ← spaced_inner_trim_iff, spaced_inner_iff]
    constructor
    · intro h
      obtain ⟨d, xs, w, hfits, htrim⟩ := h
      have hfirst : (trim cs).head? ≠ some '(' := htrim ▸ hfits.head?_ne _
      have hbody := stripParens_eq_ok_iff.2 (Or.inr ⟨hfirst, htrim.symm⟩)
      refine ⟨d, xs, w, hfits.cutPieces_eq hbody, hfits, ?_⟩
      simp [hfirst]
    · intro h
      obtain ⟨d, xs, w, hpieces, hfits, hopen⟩ := h
      obtain ⟨body, rest, hbody, hd, hw⟩ := cutPieces_eq_ok_iff.1 hpieces
      rcases stripParens_eq_ok_iff.1 hbody with htrim | ⟨_, rfl⟩
      · have hfirst : (trim cs).head? = some '(' := by rw [htrim, List.head?_cons]
        cases hopen.2 hfirst
      · exact ⟨d, xs, w, hfits, by rw [eq_of_cutArrow hd, eq_of_cutLast hw]⟩

/-- A text is cut in one way, so it has one reading at most. -/
theorem unique {r s : Reading} {cs : List Char} (hr : Spaced r.tokens cs)
    (hs : Spaced s.tokens cs) : r = s := by
  obtain ⟨d, xs, w, hcut, hfits, hopen⟩ := spaced_iff_cut.1 hr
  obtain ⟨d', xs', w', hcut', hfits', hopen'⟩ := spaced_iff_cut.1 hs
  rw [hcut] at hcut'
  cases hcut'
  refine ext_data ?_ ?_ ?_ ?_
  · rw [Bool.eq_iff_iff, hopen, hopen']
  · exact Name.ext_chars (hfits.dependent.symm.trans hfits'.dependent)
  · exact (List.map_inj_right fun _ _ => Name.ext_chars).1
      (hfits.dependencies.symm.trans hfits'.dependencies)
  · exact hfits.word.symm.trans hfits'.word

theorem parseArrow_of_spaced {r : Reading} {text : String} (h : Spaced r.tokens text.toList) :
    parseArrow text = .ok r.rules := by
  obtain ⟨d, xs, w, hcut, hfits, _⟩ := spaced_iff_cut.1 h
  refine parseArrow_eq_ok_iff.2 ⟨d, xs, w, r.severity, hcut, ?_, ?_, ?_⟩
  · rw [Severity.ofChars?_eq_some_iff, hfits.word]
    exact r.spelled
  · rw [hfits.dependencies, rules, List.map_map]
    rfl
  · intro rule hrule
    obtain ⟨x, _, rfl⟩ := List.mem_map.1 hrule
    exact ⟨hfits.dependent.symm, rfl⟩

/-- What is accepted has a reading: the trimmed pieces are its tokens. -/
theorem exists_spaced_of_parseArrow {text : String} {rules : List Rule}
    (h : parseArrow text = .ok rules) :
    ∃ r : Reading, Spaced r.tokens text.toList ∧ r.rules = rules := by
  obtain ⟨d, xs, w, s, hcut, hs, hmap, hall⟩ := parseArrow_eq_ok_iff.1 h
  -- there is a piece between commas, so there is a rule to take the dependent from
  obtain ⟨rule, others, rfl⟩ : ∃ rule others, rules = rule :: others := by
    cases rules with
    | nil => exact absurd (List.map_eq_nil_iff.1 hmap.symm) (List.splitOn_ne_nil ',' xs)
    | cons rule others => exact ⟨rule, others, rfl⟩
  obtain ⟨hdependent, hseverity⟩ := hall rule List.mem_cons_self
  have hnames : ∀ n ∈ rule.dependent :: (rule :: others).map (·.dependency), n.Bare := by
    refine List.forall_mem_cons.2 ⟨Name.bare_of_eq_trim hdependent, ?_⟩
    intro n hn
    obtain ⟨t, ht, rfl⟩ := List.mem_map.1 hn
    have hmem : t.dependency.text.toList ∈ (xs.splitOn ',').map trim := by
      rw [← hmap]
      exact List.mem_map_of_mem ht
    obtain ⟨piece, _, hpiece⟩ := List.mem_map.1 hmem
    exact Name.bare_of_eq_trim hpiece.symm
  have hspelled : Severity.sameLetters rule.severity.name.toList (trim w) = true := by
    rw [hseverity]
    exact Severity.ofChars?_eq_some_iff.1 hs
  let reading : Reading :=
    { enclosed := decide ((trim text.toList).head? = some '(')
      dependent := rule.dependent
      dependencies := (rule :: others).map (·.dependency)
      severity := rule.severity
      word := trim w
      listed := List.cons_ne_nil _ _
      bare := hnames
      spelled := hspelled }
  have hfits : reading.Fits d xs w := by
    refine ⟨hdependent.symm, ?_, rfl⟩
    rw [← hmap, List.map_map]
    rfl
  refine ⟨reading, spaced_iff_cut.2 ⟨d, xs, w, hcut, hfits, decide_eq_true_iff⟩, ?_⟩
  -- all rules have the dependent and the severity of the first
  have hsame : ∀ t ∈ rule :: others, Rule.mk rule.dependent t.dependency rule.severity = t := by
    intro t ht
    obtain ⟨htd, hts⟩ := hall t ht
    have hd : rule.dependent = t.dependent := Name.ext_chars (hdependent.trans htd.symm)
    rw [hd, hseverity, ← hts]
  rw [Reading.rules, List.map_map]
  exact (List.map_congr_left hsame).trans (List.map_id _)

end Reading

/-- **Reading accepts the grammar of arrow rules and nothing else.** A text is accepted exactly if
it is spaced from the tokens of a reading, and stands for the rules of that; there is never another
reading of it. -/
theorem parseArrow_iff_spaced (text : String) :
    (∀ rules, parseArrow text = .ok rules ↔
      ∃ r : Reading, Spaced r.tokens text.toList ∧ r.rules = rules) ∧
    ∀ r s : Reading, Spaced r.tokens text.toList → Spaced s.tokens text.toList → r = s := by
  refine ⟨fun rules => ⟨Reading.exists_spaced_of_parseArrow, ?_⟩, fun r s => Reading.unique⟩
  intro h
  obtain ⟨r, hr, rfl⟩ := h
  exact Reading.parseArrow_of_spaced hr

end Rule

end ApiGate
