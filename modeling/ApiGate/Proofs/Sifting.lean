import ApiGate.Proofs.Regrouping
import ApiGate.Proofs.Verdict
import Mathlib.Data.List.Forall2
import Mathlib.Data.List.Induction
import Mathlib.Data.List.Nodup

/-!
# What is sifted out of facts

What a facts file says is not all judged: a type with a blank name is left out, so are blank
dependencies, and then types that depend on nothing more. A pair that were left out otherwise would
pass a check without any trace. `Facts.Sifted` says what is to be left and what is to be told, with
no regard to how it comes about.

* Of a type that is written several times, the last list counts (`mem_latest_iff`).
* The pairs that are left are those that are listed and have no blank name. As usages they have one
  arrangement only, in the order of the types (`Usage.eq_of_samePairs`).
* What is told of a type depends on the type and its list alone (`told_iff`).

So nothing is left open: the usages and events of a file are sifted, and no others are
(`decode_sifted`).
-/

namespace ApiGate

/-! ## Usages in order -/

namespace Usage

variable {usages usages' : List Usage}

/-- In increasing order, no type has two usages. -/
theorem eq_of_typeName_eq (hsorted : usages.Pairwise (·.typeName < ·.typeName)) {u v : Usage}
    (hu : u ∈ usages) (hv : v ∈ usages) (h : u.typeName = v.typeName) : u = v := by
  have hnodup : (usages.map Usage.typeName).Nodup :=
    List.pairwise_map.2 (hsorted.imp fun hlt => String.ne_of_lt hlt)
  exact List.inj_on_of_nodup_map hnodup hu hv h

theorem mem_dependencies_iff (hsorted : usages.Pairwise (·.typeName < ·.typeName)) {u : Usage}
    (hu : u ∈ usages) {d : String} :
    d ∈ u.dependencies ↔ (u.typeName, d) ∈ pairs usages := by
  rw [mem_pairs]
  refine ⟨fun h => ⟨u, hu, rfl, h⟩, fun h => ?_⟩
  obtain ⟨v, hv, htype, hd⟩ := h
  rw [← eq_of_typeName_eq hsorted hv hu htype]
  exact hd

theorem mem_of_samePairs (hsorted : usages.Pairwise (·.typeName < ·.typeName))
    (hsorted' : usages'.Pairwise (·.typeName < ·.typeName)) (h : SamePairs usages usages')
    {u : Usage} (hu : u ∈ usages) (hd : ∃ d, d ∈ u.dependencies) : u ∈ usages' := by
  -- a dependency of the type leads to its usage on the other side
  obtain ⟨d, hd⟩ := hd
  obtain ⟨v, hv, htype, _⟩ := mem_pairs.1 ((h _ _).1 ((mem_dependencies_iff hsorted hu).1 hd))
  have hdependencies : v.dependencies = u.dependencies := by
    ext x
    rw [mem_dependencies_iff hsorted' hv, mem_dependencies_iff hsorted hu, htype]
    exact (h _ _).symm
  have heq : v = u := Usage.ext htype hdependencies
  exact heq ▸ hv

/-- **One arrangement.** Usages in increasing order, each with a dependency, are known by their
pairs. -/
theorem eq_of_samePairs (hsorted : usages.Pairwise (·.typeName < ·.typeName))
    (hsorted' : usages'.Pairwise (·.typeName < ·.typeName))
    (hsome : ∀ u ∈ usages, ∃ d, d ∈ u.dependencies)
    (hsome' : ∀ u ∈ usages', ∃ d, d ∈ u.dependencies) (h : SamePairs usages usages') :
    usages = usages' := by
  refine eq_of_increasing hsorted hsorted' fun u => ⟨fun hu => ?_, fun hu => ?_⟩
  · exact mem_of_samePairs hsorted hsorted' h hu (hsome u hu)
  · exact mem_of_samePairs hsorted' hsorted (fun t d => (h t d).symm) hu (hsome' u hu)

end Usage

namespace Facts

/-! ## Repeated types -/

/-- The types and lists in a facts file as they are written, repeated types as well. -/
def written? (text : String) : Option (List (String × List String)) :=
  (Token.ofChars? .between text.toList).bind readObject

theorem decode?_eq (text : String) : decode? text = (written? text).map latest := rfl

/-- Of the lists that are written for a type, this is the last one. -/
def Latest (pairs : List (String × List String)) (t : String) (list : List String) : Prop :=
  ∃ before after, pairs = before ++ (t, list) :: after ∧ ∀ pair ∈ after, pair.1 ≠ t

theorem latest_concat_iff {pairs : List (String × List String)} {last : String × List String}
    {t : String} {list : List String} :
    Latest (pairs ++ [last]) t list ↔ last = (t, list) ∨ last.1 ≠ t ∧ Latest pairs t list := by
  refine ⟨fun h => ?_, fun h => ?_⟩
  · obtain ⟨before, after, hsplit, hafter⟩ := h
    rcases List.eq_nil_or_concat' after with rfl | ⟨between, other, rfl⟩
    · exact Or.inl (List.singleton_inj.1 (List.append_inj_right' hsplit rfl))
    · rw [← List.cons_append, ← List.append_assoc] at hsplit
      obtain ⟨rfl, hother⟩ := List.append_inj' hsplit rfl
      cases hother
      refine Or.inr ⟨hafter _ (List.mem_append_right _ List.mem_cons_self), before, between, rfl,
        fun pair hpair => ?_⟩
      exact hafter pair (List.mem_append_left _ hpair)
  · rcases h with rfl | ⟨hne, before, after, rfl, hafter⟩
    · exact ⟨pairs, [], rfl, fun pair hpair => absurd hpair List.not_mem_nil⟩
    · refine ⟨before, after ++ [last], List.append_assoc .., fun pair hpair => ?_⟩
      rcases List.mem_append.1 hpair with hpair | hpair
      · exact hafter pair hpair
      · rw [List.mem_singleton.1 hpair]
        exact hne

/-- **The last list counts.** -/
theorem mem_latest_iff {pairs : List (String × List String)} {t : String} {list : List String} :
    (t, list) ∈ latest pairs ↔ Latest pairs t list := by
  rw [latest, Table.mem_entries]
  induction pairs using List.reverseRecOn with
  | nil => simp [Latest]
  | append_singleton pairs last ih =>
    rw [List.foldl_concat, latest_concat_iff, ← ih]
    by_cases h : t = last.1
    · simp [h, Prod.ext_iff]
    · simp [h, Ne.symm h, Prod.ext_iff]

/-- Facts are what the pairs say: for each type the last list, in increasing order of the types. -/
structure Holds (pairs facts : List (String × List String)) : Prop where
  sorted : facts.Pairwise (·.1 < ·.1)
  latest (t : String) (list : List String) : (t, list) ∈ facts ↔ Latest pairs t list

theorem holds_latest (pairs : List (String × List String)) : Holds pairs (latest pairs) :=
  ⟨Table.sorted _, fun _ _ => mem_latest_iff⟩

/-! ## What is left -/

theorem sorted_usages {facts : List (String × List String)} (h : facts.Pairwise (·.1 < ·.1)) :
    (usages facts).Pairwise (·.typeName < ·.typeName) := by
  refine List.pairwise_filterMap.2 (h.imp fun {p q} hlt u hu v hv => ?_)
  -- a usage has the name of its list
  obtain ⟨_, _, rfl⟩ := usage?_eq_some_iff.1 hu
  obtain ⟨_, _, rfl⟩ := usage?_eq_some_iff.1 hv
  exact hlt

theorem named_of_mem_usages {facts : List (String × List String)} {u : Usage}
    (h : u ∈ usages facts) : Text.isBlankText u.typeName = false ∧ ∃ d, d ∈ u.dependencies := by
  obtain ⟨⟨t, list⟩, _, hu⟩ := List.mem_filterMap.1 h
  obtain ⟨htype, hne, rfl⟩ := usage?_eq_some_iff.1 hu
  obtain ⟨d, hd⟩ := List.exists_mem_of_ne_nil _ hne
  exact ⟨htype, d, by simpa using hd⟩

/-! ## What is told -/

/-- What is told of a type with its list. -/
inductive Told (t : String) (list : List String) : List Event → Prop where
  /-- A type with a blank name is left out, with all that its list holds. -/
  | blank (type : Text.isBlankText t = true) : Told t list [.blankType list.length]
  /-- Each blank dependency is told of, as often as it is listed. -/
  | kept (type : Text.isBlankText t = false) (some : ∃ d ∈ list, Text.isBlankText d = false) :
      Told t list (List.replicate (list.countP Text.isBlankText) (.blankDependency t))
  /-- If there is no other, the type is left out as well. -/
  | dropped (type : Text.isBlankText t = false) (none : ∀ d ∈ list, Text.isBlankText d = true) :
      Told t list (List.replicate list.length (.blankDependency t) ++ [.noDependencies t])

theorem named_eq_nil_iff {list : List String} :
    named list = [] ↔ ∀ d ∈ list, Text.isBlankText d = true := by
  simp [named, List.filter_eq_nil_iff]

/-- Before it is seen whether the type is left out, its blank dependencies are told of. -/
theorem eventsOf_eq {t : String} (ht : Text.isBlankText t = false) (list : List String) :
    eventsOf t list = List.replicate (list.countP Text.isBlankText) (.blankDependency t) ++
      if named list = [] then [.noDependencies t] else [] := by
  have htype : ¬Text.isBlankText t = true := by rw [ht]; exact Bool.false_ne_true
  rw [eventsOf, if_neg htype, List.map_const', List.countP_eq_length_filter]

theorem told_iff {t : String} {list : List String} {events : List Event} :
    Told t list events ↔ eventsOf t list = events := by
  refine ⟨fun h => ?_, fun h => ?_⟩
  · cases h with
    | blank htype => exact if_pos htype
    | kept htype hsome =>
      obtain ⟨d, hd, hdblank⟩ := hsome
      have hne : named list ≠ [] := List.ne_nil_of_mem (mem_named.2 ⟨hd, hdblank⟩)
      rw [eventsOf_eq htype, if_neg hne, List.append_nil]
    | dropped htype hnone =>
      rw [eventsOf_eq htype, if_pos (named_eq_nil_iff.2 hnone), List.countP_eq_length.2 hnone]
  · subst h
    cases htype : Text.isBlankText t with
    | true =>
      rw [eventsOf, if_pos htype]
      exact .blank htype
    | false =>
      rw [eventsOf_eq htype]
      by_cases h : named list = []
      · have hnone := named_eq_nil_iff.1 h
        rw [if_pos h, List.countP_eq_length.2 hnone]
        exact .dropped htype hnone
      · obtain ⟨d, hd⟩ := List.exists_mem_of_ne_nil _ h
        rw [if_neg h, List.append_nil]
        exact .kept htype ⟨d, mem_named.1 hd⟩

theorem Told.level {t : String} {list : List String} {events : List Event}
    (h : Told t list events) {e : Event} (he : e ∈ events) : e.level = .warn := by
  cases h with
  | blank =>
    rw [List.mem_singleton.1 he]
    rfl
  | kept =>
    rw [List.eq_of_mem_replicate he]
    rfl
  | dropped =>
    rcases List.mem_append.1 he with he | he
    · rw [List.eq_of_mem_replicate he]
      rfl
    · rw [List.mem_singleton.1 he]
      rfl

/-! ## Sifting -/

/-- What is to come of facts: usages, and the events that tell what is left out. -/
structure Sifted (facts : List (String × List String)) (usages : List Usage) (events : List Event) :
    Prop where
  /-- No type is out of place or repeated. -/
  sorted : usages.Pairwise (·.typeName < ·.typeName)
  /-- The pairs are those that are listed and have no blank name. -/
  pairs (t d : String) : (t, d) ∈ Usage.pairs usages ↔ Lists facts t d
  /-- No type has a blank name, and none is without dependencies. -/
  named (u : Usage) : u ∈ usages →
    Text.isBlankText u.typeName = false ∧ ∃ d, d ∈ u.dependencies
  /-- Type by type it is told what is left out, and at the end how many types are left. -/
  told : ∃ told, List.Forall₂ (fun pair events => Told pair.1 pair.2 events) facts told ∧
    events = told.flatten ++ [.usagesLoaded usages.length]
  /-- All that is told before the end is a warning. -/
  levels : ∃ n, events.map Event.level = List.replicate n .warn ++ [.debug]

theorem forall₂_told_iff {facts : List (String × List String)} {told : List (List Event)} :
    List.Forall₂ (fun pair events => Told pair.1 pair.2 events) facts told ↔
      (facts.map fun pair => eventsOf pair.1 pair.2) = told := by
  simp only [told_iff]
  rw [← List.forall₂_map_left_iff, List.forall₂_eq_eq_eq]

/-- The events of a list of types are those of each, and at the end how many are left. -/
theorem events_eq (facts : List (String × List String)) :
    events facts = (facts.map fun pair => eventsOf pair.1 pair.2).flatten ++
      [.usagesLoaded (usages facts).length] := by
  rw [← List.flatMap_def]
  rfl

theorem levels_events (facts : List (String × List String)) :
    ∃ n, (events facts).map Event.level = List.replicate n .warn ++ [.debug] := by
  have hwarn : ∀ e ∈ (facts.map fun pair => eventsOf pair.1 pair.2).flatten, e.level = .warn := by
    intro e he
    obtain ⟨told, htold, he⟩ := List.mem_flatten.1 he
    obtain ⟨pair, _, rfl⟩ := List.mem_map.1 htold
    exact (told_iff.2 rfl).level he
  rw [events_eq, List.map_append, List.map_eq_replicate_iff.2 hwarn]
  exact ⟨_, rfl⟩

theorem sifted_usages {facts : List (String × List String)} (h : facts.Pairwise (·.1 < ·.1)) :
    Sifted facts (usages facts) (events facts) where
  sorted := sorted_usages h
  pairs _ _ := mem_pairs_usages
  named _ := named_of_mem_usages
  told := ⟨_, forall₂_told_iff.2 rfl, events_eq facts⟩
  levels := levels_events facts

theorem Sifted.unique {facts : List (String × List String)} {us us' : List Usage}
    {es es' : List Event} (h : Sifted facts us es) (h' : Sifted facts us' es') :
    us = us' ∧ es = es' := by
  have hus : us = us' := by
    refine Usage.eq_of_samePairs h.sorted h'.sorted (fun u hu => (h.named u hu).2)
      (fun u hu => (h'.named u hu).2) fun t d => ?_
    rw [h.pairs, h'.pairs]
  obtain ⟨told, htold, rfl⟩ := h.told
  obtain ⟨told', htold', rfl⟩ := h'.told
  rw [← forall₂_told_iff.1 htold, ← forall₂_told_iff.1 htold', hus]
  exact ⟨rfl, rfl⟩

/-- **Nothing is left out silently.** Facts that can be read are what their file says last of each
type. What comes of them as usages and events is what is to come of them, and nothing else would
do. -/
theorem decode_sifted {text : String} {facts : List (String × List String)}
    (h : decode? text = some facts) :
    (∃ pairs, written? text = some pairs ∧ Holds pairs facts) ∧
      ∃ usages, parse? text = some usages ∧ Sifted facts usages (events facts) ∧
        ∀ usages' events', Sifted facts usages' events' →
          usages' = usages ∧ events' = events facts := by
  obtain ⟨pairs, hwritten, rfl⟩ := Option.map_eq_some_iff.1 (decode?_eq text ▸ h)
  have hholds := holds_latest pairs
  have hsifted := sifted_usages hholds.sorted
  refine ⟨⟨pairs, hwritten, hholds⟩, usages (latest pairs), ?_, hsifted, ?_⟩
  · rw [parse?, h, Option.map_some]
  · exact fun usages' events' h' => h'.unique hsifted

/-- A facts file with a repeated type, a blank one and one with a blank dependency only. -/
def untidyText : String :=
  "\x7b\"b\": [\"x\"], \" \": [\"y\", \"z\"], \"b\": [\"\", \"x \", \"\\t\"], "
    ++ "\"c\": [\" \"], \"a\": [\"y\", \"y\"]\x7d"

/-- What it says, in the order of the types. -/
def untidyFacts : List (String × List String) :=
  [(" ", ["y", "z"]), ("a", ["y", "y"]), ("b", ["", "x ", "\t"]), ("c", [" "])]

theorem decode_sifted_untidy :
    decode? untidyText = some untidyFacts ∧
      parse? untidyText = some [.ofList "a" ["y"], .ofList "b" ["x "]] ∧
      Sifted untidyFacts [.ofList "a" ["y"], .ofList "b" ["x "]]
        [.blankType 2, .blankDependency "b", .blankDependency "b", .blankDependency "c",
          .noDependencies "c", .usagesLoaded 2] := by
  have hdecode : decode? untidyText = some untidyFacts := by decide +kernel
  have hparse : parse? untidyText = some [.ofList "a" ["y"], .ofList "b" ["x "]] := by
    decide +kernel
  obtain ⟨_, usages, hparse', hsifted, _⟩ := decode_sifted hdecode
  cases hparse.symm.trans hparse'
  exact ⟨hdecode, hparse, hsifted⟩

end Facts

end ApiGate
