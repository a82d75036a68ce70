import ApiGate.Text

/-!
# Blanks around and between

Trimming takes the blanks off both ends of a text. All of it is one law, `trim_eq_iff`: the text is
the trimmed one with blanks around it, and that is *tight*, which is to say that a blank neither
opens nor closes it.

A text is *spaced* from tokens if they stand in it in their order, with any number of blanks, or
none, before, between and after them. Nothing has to stand between two tokens, so a text can be
spaced from tokens in one way only if something else keeps these apart. What does so here is a
delimiter: a token that is found again by a character the others do not have.
`spaced_append_cons_iff` cuts at a delimiter, and `spaced_list_iff` at all of a list, as
`List.splitOn` does.
-/

namespace ApiGate.Text

open Chars

/-- Nothing but blanks. -/
def Blanks (cs : List Char) : Prop := ∀ c ∈ cs, isBlank c = true

/-- No blank opens or closes it. -/
structure Tight (cs : List Char) : Prop where
  first : ∀ c, cs.head? = some c → isBlank c = false
  last : ∀ c, cs.getLast? = some c → isBlank c = false

theorem tight_iff {cs : List Char} :
    Tight cs ↔ (cs.head?.all fun c => !isBlank c) = true ∧
      (cs.getLast?.all fun c => !isBlank c) = true := by
  simp only [Option.all_eq_true, Bool.not_eq_true']
  exact ⟨fun h => ⟨h.first, h.last⟩, fun h => ⟨h.1, h.2⟩⟩

instance (cs : List Char) : Decidable (Tight cs) :=
  decidable_of_iff _ tight_iff.symm

namespace Blanks

variable {as bs : List Char}

theorem nil : Blanks [] := fun _ h => absurd h List.not_mem_nil

theorem space : Blanks [' '] := fun c hc => by
  rw [List.mem_singleton.1 hc]
  decide

theorem append (ha : Blanks as) (hb : Blanks bs) : Blanks (as ++ bs) :=
  List.forall_mem_append.2 ⟨ha, hb⟩

theorem reverse (h : Blanks as) : Blanks as.reverse := fun c hc => h c (List.mem_reverse.1 hc)

end Blanks

/-! ## Trimming -/

theorem trimStart_append {before : List Char} (h : Blanks before) (cs : List Char) :
    trimStart (before ++ cs) = trimStart cs := by
  induction before with
  | nil => rfl
  | cons c before ih =>
    have hc : isBlank c = true := h c List.mem_cons_self
    have hrest : Blanks before := fun d hd => h d (List.mem_cons_of_mem c hd)
    rw [trimStart, List.cons_append, List.dropWhile_cons_of_pos hc]
    exact ih hrest

theorem trimStart_eq_self {cs : List Char} (h : ∀ c, cs.head? = some c → isBlank c = false) :
    trimStart cs = cs := by
  cases cs with
  | nil => rfl
  | cons c cs =>
    have hc : ¬isBlank c = true := by simp [h c rfl]
    exact List.dropWhile_cons_of_neg hc

theorem exists_trimStart (cs : List Char) :
    ∃ before, Blanks before ∧ cs = before ++ trimStart cs ∧
      ∀ c, (trimStart cs).head? = some c → isBlank c = false := by
  induction cs with
  | nil => exact ⟨[], .nil, rfl, fun c h => by cases h⟩
  | cons d cs ih =>
    by_cases hd : isBlank d = true
    · obtain ⟨before, hbefore, hcs, hfirst⟩ := ih
      have htrim : trimStart (d :: cs) = trimStart cs := List.dropWhile_cons_of_pos hd
      have hd' : Blanks [d] := fun c hc => by rw [List.mem_singleton.1 hc, hd]
      refine ⟨d :: before, hd'.append hbefore, ?_, ?_⟩
      · rw [htrim, List.cons_append, ← hcs]
      · rw [htrim]
        exact hfirst
    · have htrim : trimStart (d :: cs) = d :: cs := List.dropWhile_cons_of_neg hd
      refine ⟨[], .nil, htrim.symm, ?_⟩
      intro c hc
      rw [htrim, List.head?_cons, Option.some.injEq] at hc
      rw [← hc]
      exact Bool.eq_false_iff.2 hd

/-! What trimming does at the end is what it does at the start of the text read backwards. -/

theorem trimEnd_eq_reverse (cs : List Char) : trimEnd cs = (trimStart cs.reverse).reverse := rfl

theorem trimEnd_append {after : List Char} (h : Blanks after) (cs : List Char) :
    trimEnd (cs ++ after) = trimEnd cs := by
  rw [trimEnd_eq_reverse, List.reverse_append, trimStart_append h.reverse, ← trimEnd_eq_reverse]

theorem trimEnd_eq_self {cs : List Char} (h : ∀ c, cs.getLast? = some c → isBlank c = false) :
    trimEnd cs = cs := by
  have hstart : trimStart cs.reverse = cs.reverse := by
    refine trimStart_eq_self fun c hc => h c ?_
    rw [← List.head?_reverse, hc]
  rw [trimEnd_eq_reverse, hstart, List.reverse_reverse]

theorem exists_trimEnd (cs : List Char) :
    ∃ after, Blanks after ∧ cs = trimEnd cs ++ after ∧
      ∀ c, (trimEnd cs).getLast? = some c → isBlank c = false := by
  obtain ⟨before, hbefore, hcs, hfirst⟩ := exists_trimStart cs.reverse
  refine ⟨before.reverse, hbefore.reverse, ?_, ?_⟩
  · rw [trimEnd_eq_reverse, ← List.reverse_append, ← hcs, List.reverse_reverse]
  · intro c hc
    rw [trimEnd_eq_reverse, List.getLast?_reverse] at hc
    exact hfirst c hc

/-- Trimming a text that no blank closes is trimming its start. -/
theorem trim_eq_trimStart {cs : List Char} (h : ∀ c, cs.getLast? = some c → isBlank c = false) :
    trim cs = trimStart cs := by
  obtain ⟨before, _, hcs, _⟩ := exists_trimStart cs
  refine trimEnd_eq_self fun c hc => h c ?_
  rw [hcs, List.getLast?_append, hc, Option.some_or]

/-- A tight text is what trimming leaves of it with blanks around it. -/
theorem trim_blanks_append {before : List Char} (h : Blanks before) (cs : List Char) :
    trim (before ++ cs) = trim cs :=
  congrArg trimEnd (trimStart_append h cs)

theorem trim_append {core before after : List Char} (hcore : Tight core) (hbefore : Blanks before)
    (hafter : Blanks after) : trim (before ++ core ++ after) = core := by
  rw [trim, List.append_assoc, trimStart_append hbefore]
  cases core with
  | nil =>
    -- there are only blanks, and nothing is left at the start already
    have hnil : trimStart after = [] := by
      have happ := trimStart_append hafter []
      rw [List.append_nil] at happ
      exact happ
    rw [List.nil_append, hnil]
    rfl
  | cons c cs =>
    have hstart : trimStart (c :: cs ++ after) = c :: cs ++ after :=
      trimStart_eq_self fun d hd => hcore.first d hd
    rw [hstart, trimEnd_append hafter, trimEnd_eq_self hcore.last]

/-- **What trimming does.** -/
theorem trim_eq_iff {cs core : List Char} :
    trim cs = core ↔
      Tight core ∧ ∃ before after, Blanks before ∧ Blanks after ∧ cs = before ++ core ++ after := by
  constructor
  · intro h
    obtain ⟨before, hbefore, hcs, hfirst⟩ := exists_trimStart cs
    obtain ⟨after, hafter, htrim, hlast⟩ := exists_trimEnd (trimStart cs)
    subst h
    refine ⟨⟨fun c hc => hfirst c ?_, hlast⟩, before, after, hbefore, hafter, ?_⟩
    · -- what opens the trimmed text opens the text without the blanks before it
      change (trimEnd (trimStart cs)).head? = some c at hc
      rw [htrim, List.head?_append, hc]
      rfl
    · rw [List.append_assoc]
      change cs = before ++ (trimEnd (trimStart cs) ++ after)
      rw [← htrim, ← hcs]
  · intro h
    obtain ⟨hcore, before, after, hbefore, hafter, rfl⟩ := h
    exact trim_append hcore hbefore hafter

theorem tight_trim (cs : List Char) : Tight (trim cs) := (trim_eq_iff.1 rfl).1

theorem Tight.trim_eq {cs : List Char} (h : Tight cs) : trim cs = cs :=
  trim_eq_iff.2 ⟨h, [], [], .nil, .nil, (List.append_nil cs).symm⟩

theorem exists_trim (cs : List Char) :
    ∃ before after, Blanks before ∧ Blanks after ∧ cs = before ++ trim cs ++ after :=
  (trim_eq_iff.1 rfl).2

theorem trim_append_blanks {after : List Char} (h : Blanks after) (cs : List Char) :
    trim (cs ++ after) = trim cs := by
  obtain ⟨before, blanks, hbefore, hblanks, hcs⟩ := exists_trim cs
  refine trim_eq_iff.2 ⟨tight_trim cs, before, blanks ++ after, hbefore, hblanks.append h, ?_⟩
  conv => lhs; rw [hcs]
  simp only [List.append_assoc]

/-- Nothing is left of a text exactly if it holds nothing but blanks. -/
theorem trim_eq_nil_iff {cs : List Char} : trim cs = [] ↔ Blanks cs := by
  refine ⟨fun h => ?_, fun h => trim_append_blanks h []⟩
  obtain ⟨_, before, after, hbefore, hafter, hcs⟩ := trim_eq_iff.1 h
  rw [hcs, List.append_nil]
  exact hbefore.append hafter

/-- Trimming takes off blanks only. -/
theorem mem_trim_of_mem {c : Char} {cs : List Char} (h : c ∈ cs) (hc : isBlank c = false) :
    c ∈ trim cs := by
  obtain ⟨before, after, hbefore, hafter, hcs⟩ := exists_trim cs
  rw [hcs] at h
  rcases List.mem_append.1 h with h | h
  · rcases List.mem_append.1 h with h | h
    · rw [hbefore c h] at hc
      cases hc
    · exact h
  · rw [hafter c h] at hc
    cases hc

/-! ## Cutting -/

theorem not_mem_of_mem_splitOn {c : Char} {cs piece : List Char} (h : piece ∈ cs.splitOn c) :
    c ∉ piece := by
  induction cs generalizing piece with
  | nil =>
    rw [List.splitOn_nil, List.mem_singleton] at h
    rw [h]
    exact List.not_mem_nil
  | cons d cs ih =>
    rw [List.splitOn_cons_eq_if_modifyHead] at h
    split at h
    · -- a separator opens an empty piece
      rcases List.mem_cons.1 h with rfl | h
      · exact List.not_mem_nil
      · exact ih h
    · -- any other character goes in front of the first piece
      rename_i hd
      cases hsplit : cs.splitOn c with
      | nil => exact absurd hsplit (List.splitOn_ne_nil c cs)
      | cons first others =>
        rw [hsplit, List.modifyHead_cons] at h
        rcases List.mem_cons.1 h with rfl | h
        · have hfirst : c ∉ first := ih (hsplit ▸ List.mem_cons_self)
          have hne : c ≠ d := fun hcd => hd (beq_iff_eq.2 hcd.symm)
          exact fun hmem => (List.mem_cons.1 hmem).elim hne hfirst
        · exact ih (hsplit ▸ List.mem_cons_of_mem first h)

/-- If there are two pieces or more, the first ends at a separator and the others are those of what
stands after it. -/
theorem splitOn_eq_cons_cons {sep : Char} {cs first second : List Char}
    {others : List (List Char)} (h : cs.splitOn sep = first :: second :: others) :
    ∃ rest, cs = first ++ sep :: rest ∧ rest.splitOn sep = second :: others := by
  refine ⟨[sep].intercalate (second :: others), ?_, ?_⟩
  · calc cs = [sep].intercalate (cs.splitOn sep) := (List.intercalate_splitOn sep).symm
      _ = first ++ [sep] ++ [sep].intercalate (second :: others) := by
        rw [h, List.intercalate_cons_cons]
      _ = first ++ sep :: [sep].intercalate (second :: others) := by
        rw [List.append_assoc, List.singleton_append]
  · refine List.splitOn_intercalate sep ?_ (List.cons_ne_nil second others)
    intro piece hpiece
    exact not_mem_of_mem_splitOn (h ▸ List.mem_cons_of_mem first hpiece)

theorem eq_of_cutArrow {cs before after : List Char} (h : cutArrow cs = some (before, after)) :
    cs = before ++ '-' :: '>' :: after := by
  fun_induction cutArrow cs generalizing before after with
  | case1 => cases h
  | case2 rest =>
    cases h
    rfl
  | case3 c rest _ ih =>
    obtain ⟨⟨before', after'⟩, hrest, hpair⟩ := Option.map_eq_some_iff.1 h
    cases hpair
    rw [ih hrest]
    rfl

/-- An arrow is found where none stands before it: the one that is cut at overlaps with no other. -/
theorem cutArrow_append_of_not_infix {before : List Char} (h : ¬['-', '>'] <:+: before)
    (after : List Char) : cutArrow (before ++ '-' :: '>' :: after) = some (before, after) := by
  induction before with
  | nil => rfl
  | cons c before ih =>
    have hrest : ¬['-', '>'] <:+: before := fun hin => h (List.infix_cons hin)
    rw [List.cons_append, cutArrow, ih hrest]
    · rfl
    · -- no arrow starts at `c`
      rintro rest rfl hcut
      cases before with
      | nil => cases hcut
      | cons d before =>
        cases hcut
        exact h (List.prefix_append ['-', '>'] before).isInfix

theorem cutArrow_append {before : List Char} (h : '-' ∉ before) (after : List Char) :
    cutArrow (before ++ '-' :: '>' :: after) = some (before, after) :=
  cutArrow_append_of_not_infix (fun hin => h (hin.subset List.mem_cons_self)) after

theorem eq_of_cutLast {sep : Char} {cs before after : List Char}
    (h : cutLast sep cs = some (before, after)) : cs = before ++ sep :: after := by
  induction cs generalizing before after with
  | nil => cases h
  | cons c cs ih =>
    rw [cutLast] at h
    split at h
    · rename_i before' after' hrest
      cases h
      rw [ih hrest]
      rfl
    · split at h
      · rename_i hc
        cases h
        rw [hc]
        rfl
      · cases h

theorem cutLast_eq_none {sep : Char} {cs : List Char} (h : sep ∉ cs) : cutLast sep cs = none := by
  cases hcut : cutLast sep cs with
  | none => rfl
  | some pair =>
    obtain ⟨before, after⟩ := pair
    rw [eq_of_cutLast hcut] at h
    exact absurd (List.mem_append_right before List.mem_cons_self) h

theorem cutLast_append {sep : Char} {after : List Char} (h : sep ∉ after) (before : List Char) :
    cutLast sep (before ++ sep :: after) = some (before, after) := by
  induction before with
  | nil => rw [List.nil_append, cutLast, cutLast_eq_none h, if_pos rfl]
  | cons c before ih => rw [List.cons_append, cutLast, ih]

/-! ## Spaced tokens -/

/-- A text is made of tokens and of blanks before, between and after them. -/
inductive Spaced : List (List Char) → List Char → Prop where
  | done {blanks : List Char} (h : Blanks blanks) : Spaced [] blanks
  | token {blanks t rest : List Char} {ts : List (List Char)} (h : Blanks blanks)
      (hrest : Spaced ts rest) : Spaced (t :: ts) (blanks ++ t ++ rest)

variable {ts us : List (List Char)} {t cs : List Char}

theorem spaced_nil_iff : Spaced [] cs ↔ Blanks cs := by
  constructor
  · intro h
    cases h with
    | done hcs => exact hcs
  · exact Spaced.done

theorem spaced_cons_iff :
    Spaced (t :: ts) cs ↔
      ∃ blanks rest, Blanks blanks ∧ Spaced ts rest ∧ cs = blanks ++ t ++ rest := by
  constructor
  · intro h
    cases h with
    | token hblanks hrest => exact ⟨_, _, hblanks, hrest, rfl⟩
  · intro h
    obtain ⟨blanks, rest, hblanks, hrest, rfl⟩ := h
    exact .token hblanks hrest

/-- **Cutting at one token.** -/
theorem spaced_append_cons_iff :
    Spaced (ts ++ t :: us) cs ↔
      ∃ before after, Spaced ts before ∧ Spaced us after ∧ cs = before ++ t ++ after := by
  induction ts generalizing cs with
  | nil =>
    rw [List.nil_append, spaced_cons_iff]
    simp only [spaced_nil_iff]
  | cons s ts ih =>
    rw [List.cons_append, spaced_cons_iff]
    constructor
    · intro h
      obtain ⟨blanks, rest, hblanks, hrest, rfl⟩ := h
      obtain ⟨before, after, hbefore, hafter, rfl⟩ := ih.1 hrest
      refine ⟨blanks ++ s ++ before, after, .token hblanks hbefore, hafter, ?_⟩
      simp only [List.append_assoc]
    · intro h
      obtain ⟨before, after, hbefore, hafter, rfl⟩ := h
      obtain ⟨blanks, rest, hblanks, hrest, rfl⟩ := spaced_cons_iff.1 hbefore
      refine ⟨blanks, rest ++ t ++ after, hblanks, ih.2 ⟨rest, after, hrest, hafter, rfl⟩, ?_⟩
      simp only [List.append_assoc]

theorem Spaced.append_blanks {after : List Char} (h : Spaced ts cs) (hafter : Blanks after) :
    Spaced ts (cs ++ after) := by
  induction h with
  | done hblanks => exact .done (hblanks.append hafter)
  | token hblanks _ ih =>
    rw [List.append_assoc]
    exact .token hblanks ih

theorem Spaced.blanks_append {before : List Char} (h : Spaced ts cs) (hbefore : Blanks before) :
    Spaced ts (before ++ cs) := by
  cases h with
  | done hblanks => exact .done (hbefore.append hblanks)
  | token hblanks hrest =>
    rw [← List.append_assoc, ← List.append_assoc]
    exact .token (hbefore.append hblanks) hrest

/-- Blanks that trimming took off may stand there again. -/
theorem Spaced.of_trim (h : Spaced ts (trim cs)) : Spaced ts cs := by
  obtain ⟨before, after, hbefore, hafter, hcs⟩ := exists_trim cs
  rw [hcs]
  exact (h.blanks_append hbefore).append_blanks hafter

theorem spaced_singleton_iff (ht : Tight t) : Spaced [t] cs ↔ trim cs = t := by
  rw [spaced_cons_iff, trim_eq_iff]
  simp only [spaced_nil_iff]
  constructor
  · intro h
    obtain ⟨before, after, hbefore, hafter, hcs⟩ := h
    exact ⟨ht, before, after, hbefore, hafter, hcs⟩
  · intro h
    obtain ⟨_, before, after, hbefore, hafter, hcs⟩ := h
    exact ⟨before, after, hbefore, hafter, hcs⟩

/-- Trimming stops at the first and at the last token, if these are tight. -/
theorem spaced_trim_iff {u : List Char} (ht : Tight t) (hu : Tight u) (ht' : t ≠ [])
    (hu' : u ≠ []) :
    Spaced (t :: (ts ++ [u])) (trim cs) ↔ Spaced (t :: (ts ++ [u])) cs := by
  constructor
  · exact Spaced.of_trim
  · intro h
    obtain ⟨before, rest, hbefore, hrest, hcs⟩ := spaced_cons_iff.1 h
    obtain ⟨middle, after, hmiddle, hafter, rfl⟩ := spaced_append_cons_iff.1 hrest
    have htight : Tight (t ++ middle ++ u) := by
      refine ⟨fun c hc => ht.first c ?_, fun c hc => hu.last c ?_⟩
      · obtain ⟨d, t', rfl⟩ := List.exists_cons_of_ne_nil ht'
        exact hc
      · rw [List.getLast?_append, List.getLast?_eq_some_getLast hu', Option.some_or] at hc
        rw [List.getLast?_eq_some_getLast hu', hc]
    have htrim : trim cs = t ++ middle ++ u := by
      refine trim_eq_iff.2 ⟨htight, before, after, hbefore, spaced_nil_iff.1 hafter, ?_⟩
      rw [hcs]
      simp only [List.append_assoc]
    rw [htrim, List.append_assoc, spaced_cons_iff]
    have htail : Spaced (ts ++ [u]) (middle ++ u) := by
      refine spaced_append_cons_iff.2 ⟨middle, [], hmiddle, .done .nil, ?_⟩
      rw [List.append_nil]
    exact ⟨[], middle ++ u, .nil, htail, rfl⟩

/-- **Cutting at all separators of a list.** -/
theorem spaced_list_iff {sep : Char} (hsep : isBlank sep = false) (hne : ts ≠ [])
    (hts : ∀ t ∈ ts, Tight t ∧ sep ∉ t) :
    Spaced (ts.intersperse [sep]) cs ↔ (cs.splitOn sep).map trim = ts := by
  -- a text that trims to a token has no separator
  have hwhole : ∀ {t cs : List Char}, sep ∉ t → trim cs = t → cs.splitOn sep = [cs] := by
    intro t cs hst htrim
    refine List.splitOn_eq_singleton fun hmem => hst ?_
    rw [← htrim]
    exact mem_trim_of_mem hmem hsep
  induction ts generalizing cs with
  | nil => exact absurd rfl hne
  | cons t ts ih =>
    obtain ⟨ht, hst⟩ := hts t List.mem_cons_self
    cases ts with
    | nil =>
      rw [List.intersperse_singleton, spaced_singleton_iff ht]
      constructor
      · intro htrim
        rw [hwhole hst htrim, List.map_singleton, htrim]
      · intro hmap
        obtain ⟨piece, hpiece, htrim⟩ := List.map_eq_singleton_iff.1 hmap
        have hjoin : [sep].intercalate (cs.splitOn sep) = cs := List.intercalate_splitOn sep
        rw [hpiece, List.intercalate_singleton] at hjoin
        rw [← hjoin, htrim]
    | cons t' ts =>
      have ihrest : ∀ {rest : List Char}, Spaced ((t' :: ts).intersperse [sep]) rest ↔
          (rest.splitOn sep).map trim = t' :: ts :=
        ih (List.cons_ne_nil t' ts) fun s hs => hts s (List.mem_cons_of_mem t hs)
      have hcut : (t :: t' :: ts).intersperse [sep] =
          [t] ++ [sep] :: (t' :: ts).intersperse [sep] := List.intersperse_cons_cons
      rw [hcut, spaced_append_cons_iff]
      constructor
      · intro h
        obtain ⟨before, after, hbefore, hafter, rfl⟩ := h
        have htrim : trim before = t := (spaced_singleton_iff ht).1 hbefore
        rw [List.append_assoc, List.singleton_append, List.splitOn_append_cons_self,
          List.map_append, hwhole hst htrim, List.map_singleton, htrim, ihrest.1 hafter]
        rfl
      · intro hmap
        obtain ⟨first, others, hsplit, htrim, hothers⟩ := List.map_eq_cons_iff.1 hmap
        obtain ⟨second, more, rfl, _, _⟩ := List.map_eq_cons_iff.1 hothers
        obtain ⟨rest, hcs, hrest⟩ := splitOn_eq_cons_cons hsplit
        refine ⟨first, rest, (spaced_singleton_iff ht).2 htrim, ihrest.2 ?_, ?_⟩
        · rw [hrest, hothers]
        · rw [hcs, List.append_assoc, List.singleton_append]

end ApiGate.Text
