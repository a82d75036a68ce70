import ApiGate.Name
import ApiGate.Proofs.Spacing

/-!
# What a name covers

A rule for a name is meant for the name itself and for all that is below it. Said of texts, a name
*covers* a text that is the name or starts with the name and a dot. Said of parts, the parts of the
name are the first parts of the text. Judges work on parts; everyone who writes a rule thinks of
texts. The two agree for all texts, also for such as are no names, because cutting at the dots loses
nothing: the parts, joined by dots, are the text again.

The names that cover one text form a chain. The longer of two has more parts, and two of one length
are the same name.
-/

namespace ApiGate

/-- Whether a text is `d`, or is below `d`. -/
def Covers (d q : String) : Prop := q = d ∨ ∃ below, q = d ++ "." ++ below

namespace Name

theorem parts_ne_nil (text : String) : parts text ≠ [] := by
  unfold parts
  rw [ne_eq, List.map_eq_nil_iff]
  exact List.splitOn_ne_nil '.' text.toList

theorem join_parts (text : String) : ".".intercalate (parts text) = text := by
  have hparts : (parts text).map String.toList = text.toList.splitOn '.' := by
    unfold parts
    rw [List.map_map]
    have hid : String.toList ∘ String.ofList = id := funext fun cs => String.toList_ofList
    rw [hid, List.map_id]
  have hlist : (".".intercalate (parts text)).toList = text.toList := by
    rw [String.toList_intercalate, hparts]
    exact List.intercalate_splitOn '.'
  exact String.toList_inj.1 hlist

theorem eq_of_parts_eq {s t : String} (h : parts s = parts t) : s = t := by
  rw [← join_parts s, h, join_parts]

theorem parts_join {path : List String} (hne : path ≠ []) (h : ∀ p ∈ path, '.' ∉ p.toList) :
    parts (".".intercalate path) = path := by
  have hlist : (".".intercalate path).toList.splitOn '.' = path.map String.toList := by
    rw [String.toList_intercalate]
    refine List.splitOn_intercalate '.' ?_ ?_
    · intro piece hpiece
      obtain ⟨p, hp, rfl⟩ := List.mem_map.1 hpiece
      exact h p hp
    · rw [ne_eq, List.map_eq_nil_iff]
      exact hne
  unfold parts
  rw [hlist, List.map_map]
  have hid : String.ofList ∘ String.toList = id := funext fun p => String.ofList_toList
  rw [hid, List.map_id]

/-- What begins the parts of a text is the parts of a text. -/
theorem exists_parts_eq_of_begins {path : List String} {q : String} (h : path <+: parts q)
    (hne : path ≠ []) : ∃ d, parts d = path := by
  refine ⟨".".intercalate path, parts_join hne ?_⟩
  intro p hp
  obtain ⟨piece, hpiece, rfl⟩ := List.mem_map.1 (h.subset hp)
  rw [String.toList_ofList]
  exact Text.not_mem_of_mem_splitOn hpiece

theorem parts_append_dot (d below : String) :
    parts (d ++ "." ++ below) = parts d ++ parts below := by
  have hlist : (d ++ "." ++ below).toList = d.toList ++ '.' :: below.toList := by
    simp
  unfold parts
  rw [hlist, List.splitOn_append_cons_self, List.map_append]

/-- **Covering, by parts.** -/
theorem parts_prefix_iff {d q : String} : parts d <+: parts q ↔ Covers d q := by
  constructor
  · intro h
    obtain ⟨rest, hrest⟩ := h
    by_cases hnil : rest = []
    · -- nothing is left over, so the texts have the same parts
      rw [hnil, List.append_nil] at hrest
      exact Or.inl (eq_of_parts_eq hrest.symm)
    · -- what is left over, joined, is what stands below
      refine Or.inr ⟨".".intercalate rest, ?_⟩
      calc q = ".".intercalate (parts q) := (join_parts q).symm
        _ = ".".intercalate (parts d ++ rest) := by rw [hrest]
        _ = ".".intercalate (parts d) ++ "." ++ ".".intercalate rest :=
          String.intercalate_append_of_ne_nil (parts_ne_nil d) hnil
        _ = d ++ "." ++ ".".intercalate rest := by rw [join_parts]
  · intro h
    rcases h with rfl | ⟨below, rfl⟩
    · exact List.prefix_refl _
    · rw [parts_append_dot]
      exact List.prefix_append _ _

end Name

instance (d q : String) : Decidable (Covers d q) :=
  decidable_of_iff _ Name.parts_prefix_iff

namespace Covers

theorem refl (d : String) : Covers d d := Or.inl rfl

theorem length_le {d q : String} (h : Covers d q) : d.length ≤ q.length := by
  rcases h with rfl | ⟨below, rfl⟩
  · exact Nat.le_refl _
  · rw [String.length_append, String.length_append]
    omega

theorem eq_of_length_le {d q : String} (h : Covers d q) (hlen : q.length ≤ d.length) : q = d := by
  rcases h with rfl | ⟨below, rfl⟩
  · rfl
  · -- the dot alone makes `q` the longer one
    rw [String.length_append, String.length_append] at hlen
    have hdot : ".".length = 1 := rfl
    omega

/-- A text of one character is covered by nothing shorter than itself. -/
theorem eq_wildcard {d : String} (h : Covers d Name.wildcard) : d = Name.wildcard := by
  rcases h with h | ⟨below, h⟩
  · exact h.symm
  · have hlen := congrArg String.length h
    rw [String.length_append, String.length_append] at hlen
    have hdot : ".".length = 1 := rfl
    have hone : Name.wildcard.length = 1 := rfl
    have hd : d = "" := String.length_eq_zero_iff.1 (by omega)
    have hbelow : below = "" := String.length_eq_zero_iff.1 (by omega)
    rw [hd, hbelow] at h
    exact absurd h (by decide)

/-- Of two names that cover one text, the one with at most as many parts covers the other. -/
theorem of_parts_length_le {d e q : String} (hd : Covers d q) (he : Covers e q)
    (h : (Name.parts d).length ≤ (Name.parts e).length) : Covers d e :=
  Name.parts_prefix_iff.1 <|
    List.prefix_of_prefix_length_le (Name.parts_prefix_iff.2 hd) (Name.parts_prefix_iff.2 he) h

/-- **Among the names that cover one text, the longer is the one with more parts.** -/
theorem parts_length_le_iff {d e q : String} (hd : Covers d q) (he : Covers e q) :
    (Name.parts d).length ≤ (Name.parts e).length ↔ d.length ≤ e.length := by
  constructor
  · intro h
    exact (of_parts_length_le hd he h).length_le
  · intro h
    rcases Nat.le_total (Name.parts d).length (Name.parts e).length with hle | hle
    · exact hle
    · -- `e` covers `d` and is no shorter, so it is `d`
      have hed : d = e := (of_parts_length_le he hd hle).eq_of_length_le h
      exact Nat.le_of_eq (by rw [hed])

theorem eq_of_length_eq {d e q : String} (hd : Covers d q) (he : Covers e q)
    (h : d.length = e.length) : d = e := by
  have hle : (Name.parts d).length ≤ (Name.parts e).length :=
    (parts_length_le_iff hd he).2 (Nat.le_of_eq h)
  exact ((of_parts_length_le hd he hle).eq_of_length_le (Nat.le_of_eq h.symm)).symm

end Covers

end ApiGate
