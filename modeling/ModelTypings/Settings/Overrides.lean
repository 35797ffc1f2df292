/-!
# Overrides

A finite map from names to types, kept as a list in the order of the names, so that two maps with
the same entries are equal.

* `Overrides`: the map;
* `Overrides.empty`, `Overrides.insert`, `Overrides.ofList`, `Overrides.get?`: its operations.
-/

namespace ModelTypings.Settings

/-- The entry of a key, put in its place in a list ordered by keys. -/
def insertEntry (key value : String) : List (String × String) → List (String × String)
  | [] => [(key, value)]
  | (k, v) :: rest =>
    if key < k then (key, value) :: (k, v) :: rest
    else if key = k then (key, value) :: rest
    else (k, v) :: insertEntry key value rest

theorem mem_insertEntry {key value : String} {p : String × String} :
    ∀ {xs : List (String × String)}, p ∈ insertEntry key value xs → p = (key, value) ∨ p ∈ xs
  | [], h => by simpa [insertEntry] using h
  | (k, v) :: rest, h => by
    unfold insertEntry at h
    split at h
    · simpa using h
    · split at h
      · rcases List.mem_cons.mp h with h | h
        · exact Or.inl h
        · exact Or.inr (List.mem_cons_of_mem _ h)
      · rcases List.mem_cons.mp h with h | h
        · exact Or.inr (h ▸ List.mem_cons_self)
        · exact (mem_insertEntry h).imp id (List.mem_cons_of_mem _)

theorem lt_of_not_lt_of_ne {a b : String} (h : ¬ a < b) (hne : a ≠ b) : b < a :=
  Decidable.byContradiction fun h' =>
    hne (String.le_antisymm (String.not_lt.mp h') (String.not_lt.mp h))

theorem sorted_insertEntry {key value : String} :
    ∀ {xs : List (String × String)}, xs.Pairwise (fun a b => a.1 < b.1) →
      (insertEntry key value xs).Pairwise (fun a b => a.1 < b.1)
  | [], _ => by simp [insertEntry]
  | (k, v) :: rest, h => by
    have hk := (List.pairwise_cons.mp h).1
    have hr := (List.pairwise_cons.mp h).2
    unfold insertEntry
    split
    · next lt =>
      refine List.pairwise_cons.mpr ⟨fun p hp => ?_, h⟩
      rcases List.mem_cons.mp hp with rfl | hp
      · exact lt
      · exact String.lt_trans lt (hk p hp)
    · next nlt =>
      split
      · next e =>
        exact List.pairwise_cons.mpr ⟨fun p hp => e ▸ hk p hp, hr⟩
      · next ne =>
        refine List.pairwise_cons.mpr ⟨fun p hp => ?_, sorted_insertEntry hr⟩
        rcases mem_insertEntry hp with rfl | hp
        · exact lt_of_not_lt_of_ne nlt ne
        · exact hk p hp

/-- A map from names to types. -/
structure Overrides where
  entries : List (String × String)
  sorted : entries.Pairwise fun a b => a.1 < b.1
  deriving DecidableEq

namespace Overrides

/-- The map without entries. -/
def empty : Overrides := ⟨[], List.Pairwise.nil⟩

/-- The map with one more entry, in place of an earlier one of its key. -/
def insert (o : Overrides) (key value : String) : Overrides :=
  ⟨insertEntry key value o.entries, sorted_insertEntry o.sorted⟩

/-- The map of some entries, the last one of each key. -/
def ofList (entries : List (String × String)) : Overrides :=
  entries.foldl (fun o p => o.insert p.1 p.2) empty

/-- The value of a key. -/
def get? (o : Overrides) (key : String) : Option String := o.entries.lookup key

end Overrides

end ModelTypings.Settings
