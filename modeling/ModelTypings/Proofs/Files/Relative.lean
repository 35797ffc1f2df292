import ModelTypings.Proofs.Files.Path

/-!
# Paths below a directory, seen from elsewhere

* **`Path.relativeTo?_below`**: what leads from a directory to a path below it;
* `Path.join_names`: the same names below another directory;
* `Path.withExtension_child`, `Path.splitName_eq`: another extension of the last name.
-/

namespace ModelTypings.Files.Path

open Text

/-! ## Paths of entries seen from elsewhere -/

theorem trimmed_child (p : Path) {n : Name} (hn : IsName n) :
    (p.child n).trimmed = p.child n := by
  rw [child_eq]
  cases p.base with
  | nil =>
    have ha : isAbsolute ⟨[n]⟩ = false := by simp [isAbsolute]
    rw [List.nil_append, trimmed, ha]
    rfl
  | cons first rest =>
    have hd : dropTrailingFillers (rest ++ [n]) = rest ++ [n] := by
      rw [dropTrailingFillers, List.reverse_append, List.reverse_singleton, List.singleton_append,
        List.dropWhile_cons_of_neg hn.not_filler, List.reverse_cons, List.reverse_reverse]
    rw [List.cons_append, trimmed, hd, ofParts]
    simp

theorem dropSteps_append {names : List Name} (hne : names ≠ [])
    (hn : ∀ n ∈ names, IsName n) : ∀ segments : List Name,
      dropSteps (steps segments).length (segments ++ names) = names
  | [] => by
    obtain ⟨n, names, rfl⟩ := List.exists_cons_of_ne_nil hne
    exact List.dropWhile_cons_of_neg (hn n List.mem_cons_self).not_filler
  | s :: segments => by
    have ih := dropSteps_append hne hn segments
    by_cases hf : isFiller s = true
    · have hs : steps (s :: segments) = steps segments := by
        rw [steps, List.filter_cons, if_neg (by simp [hf])]
        rfl
      have hd : ∀ k (xs : List Name), dropSteps k (s :: xs) = dropSteps k xs := by
        intro k xs
        cases k <;> rw [dropSteps, dropSteps, List.dropWhile_cons_of_pos hf]
      rw [hs, List.cons_append, hd, ih]
    · have hs : steps (s :: segments) = componentOf s :: steps segments := by
        rw [steps, List.filter_cons, if_pos (by simpa using hf)]
        rfl
      rw [hs, List.length_cons, List.cons_append, dropSteps, List.dropWhile_cons_of_neg hf]
      exact ih

theorem length_firstComponent {first : Name} {rest : List Name}
    (h : first ≠ .empty ∨ rest ≠ []) : (firstComponent first rest).length = 1 := by
  unfold firstComponent
  split
  · next e => rw [if_neg (by simpa [e] using h)]; rfl
  · split <;> rfl

theorem length_components_of_base {first : Name} {rest : List Name} {p : Path}
    (hb : p.base = first :: rest) : p.components.length = (steps rest).length + 1 := by
  obtain ⟨segments⟩ := p
  unfold base at hb
  split at hb
  · next h =>
    obtain ⟨init, rfl⟩ := List.getLast?_eq_some_iff.mp h
    rw [List.dropLast_concat] at hb
    have hs : steps [.empty] = [] := rfl
    rw [hb, List.cons_append, components_cons, List.length_append, steps_append, hs,
      List.append_nil, length_firstComponent (Or.inr (by simp)), Nat.add_comm]
  · next h =>
    dsimp only at hb
    subst hb
    have hf : first ≠ .empty ∨ rest ≠ [] := by
      by_cases hr : rest = []
      · subst hr
        exact Or.inl fun e => h (by rw [e]; rfl)
      · exact Or.inr hr
    rw [components_cons, List.length_append, length_firstComponent hf, Nat.add_comm]

/-- **The names to an entry** are what remains of its path below the directory. -/
theorem relativeTo?_below {p : Path} (hp : ¬p.isEmpty = true) {names : List Name}
    (hne : names ≠ []) (hn : ∀ n ∈ names, IsName n) :
    (p.below names).relativeTo? p = some ⟨names⟩ := by
  have hpre : p.components.isPrefixOf (p.below names).components = true := by
    rw [components_below p hn, List.isPrefixOf_iff_prefix]
    exact List.prefix_append _ _
  obtain ⟨first, rest, hb⟩ := List.exists_cons_of_ne_nil (base_ne_nil hp)
  have ht : (p.below names).trimmed = ⟨first :: (rest ++ names)⟩ := by
    rw [← List.cons_append, ← hb, ← below_eq p hne fun n h => (hn n h).ne_empty]
    obtain ⟨init, n, rfl⟩ := (List.eq_nil_or_concat names).resolve_left hne
    rw [List.concat_eq_append] at hn ⊢
    rw [below_concat, trimmed_child _ (hn n (by simp))]
  rw [relativeTo?, if_pos hpre, length_components_of_base hb]
  unfold drop
  rw [ht]
  dsimp only
  rw [dropSteps_append hne hn]
  obtain ⟨n, names, rfl⟩ := List.exists_cons_of_ne_nil hne
  rfl

theorem join_names (p : Path) {names : List Name} (hne : names ≠ [])
    (hn : ∀ n ∈ names, n ≠ .empty) : p.join ⟨names⟩ = p.below names := by
  obtain ⟨n, names, rfl⟩ := List.exists_cons_of_ne_nil hne
  have ha : ¬isAbsolute ⟨n :: names⟩ = true := by
    simp [isAbsolute, hn n List.mem_cons_self]
  rw [below_eq p hne hn, join, if_neg ha, base]
  split <;> rfl

theorem withExtension_child (p : Path) {n : Name} (hn : IsName n) (extension : Name) :
    (p.child n).withExtension extension = p.child ((splitName n).1 ++ "." ++ extension) := by
  rw [withExtension, fileName?_child p hn, trimmed_child p hn, child_eq, child_eq]
  dsimp only
  rw [List.dropLast_concat]

/-! ## Names with an extension -/

theorem splitName_eq {n stem extension : Name} (h : splitName n = (stem, some extension)) :
    n = stem ++ "." ++ extension := by
  unfold splitName at h
  dsimp only at h
  have htake : n.bytes.reverse.takeWhile (· != dot) ++ n.bytes.reverse.dropWhile (· != dot) =
    n.bytes.reverse := List.takeWhile_append_dropWhile
  split at h
  · next d c before hd =>
    obtain ⟨rfl, he⟩ := Prod.mk.inj h
    obtain rfl := Option.some.inj he
    have hdot : d = dot := by
      have hm := List.head?_dropWhile_not (· != dot) n.bytes.reverse
      rw [hd] at hm
      simpa using hm
    rw [hd, hdot] at htake
    generalize n.bytes.reverse.takeWhile (· != dot) = behind at htake ⊢
    apply Name.ext
    rw [Name.bytes_append_dot, ← List.reverse_reverse n.bytes, ← htake]
    simp
  · exact nomatch (Prod.mk.inj h).2

end ModelTypings.Files.Path
