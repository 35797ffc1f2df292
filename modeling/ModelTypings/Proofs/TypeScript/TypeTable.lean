import Mathlib.Data.List.Basic
import Mathlib.Data.Set.Card
import ModelTypings.TypeScript.TypeTable

/-!
# The table of types in layers

The table is filled entry by entry. What it holds in the end are the known constructors under the
overrides of the settings.

* `lookup_knownEntries`: the entries that the table starts with are the known constructors;
* `lookup_setEntry`, `lookup_foldl_setEntry`: look-up after an entry, or some entries, have been set;
* **`get?_ofSettings`**: an override counts before the known type of its constructor;
* `isKnown_ofSettings`: a constructor is in the table if it is known or overridden;
* `keys_setEntry`, `size_ofSettings`: no constructor is in the table twice;
* **`ofSettings_layers`**: the table as a whole.
-/

namespace ModelTypings.TypeScript

open Settings

/-! ## The known constructors -/

theorem lookup_map_constructors (type x : String) (cs : List String) :
    (cs.map fun c => (c, type)).lookup x = if cs.contains x then some type else none := by
  induction cs with
  | nil => rfl
  | cons c cs ih =>
    rw [List.map_cons, List.lookup_cons, ih, List.contains_cons]
    by_cases hx : x = c
    · simp [hx]
    · simp [beq_false_of_ne hx]

/-- **The entries that the table starts with** are the known constructors. -/
theorem lookup_knownEntries (x : String) : knownEntries.lookup x = knownType? x := by
  rw [knownEntries, knownType?]
  induction groups with
  | nil => rfl
  | cons g gs ih =>
    rw [List.flatMap_cons, List.lookup_append, lookup_map_constructors, ih, List.find?_cons]
    by_cases hx : g.constructors.contains x = true
    · rw [if_pos hx, hx]
      rfl
    · rw [if_neg hx, Bool.not_eq_true] at *
      rw [hx]
      rfl

/-! ## The overrides -/

namespace TypeTable

theorem lookup_setEntry (key value x : String) (es : List (String × String)) :
    (setEntry key value es).lookup x = if x = key then some value else es.lookup x := by
  induction es with
  | nil =>
    rw [setEntry, List.lookup_cons, List.lookup_nil]
    by_cases hx : x = key
    · simp [hx]
    · simp [hx, beq_false_of_ne hx]
  | cons e es ih =>
    obtain ⟨k, v⟩ := e
    unfold setEntry
    by_cases hk : k = key
    · subst hk
      rw [if_pos rfl, List.lookup_cons, List.lookup_cons]
      by_cases hx : x = k
      · simp [hx]
      · simp [hx, beq_false_of_ne hx]
    · rw [if_neg hk, List.lookup_cons, List.lookup_cons, ih]
      by_cases hx : x = k
      · subst hx
        simp [hk]
      · simp [beq_false_of_ne hx]

/-- Entries with different keys that are set one after another count before those set earlier. -/
theorem lookup_foldl_setEntry (x : String) {os : List (String × String)}
    (hos : os.Pairwise fun a b => a.1 ≠ b.1) (es : List (String × String)) :
    (os.foldl (fun es p => setEntry p.1 p.2 es) es).lookup x = (os.lookup x).or (es.lookup x) := by
  induction os generalizing es with
  | nil => rfl
  | cons o os ih =>
    obtain ⟨k, v⟩ := o
    obtain ⟨hk, hos⟩ := List.pairwise_cons.mp hos
    rw [List.foldl_cons, ih hos, lookup_setEntry, List.lookup_cons]
    by_cases hx : x = k
    · subst hx
      have hnone : os.lookup x = none :=
        List.lookup_eq_none_iff.mpr fun p hp => bne_iff_ne.mpr (hk p hp)
      simp [hnone]
    · simp [hx, beq_false_of_ne hx]

/-- **The table in layers**: an override counts before the known type of its constructor. -/
theorem get?_ofSettings (s : Types) (x : String) :
    (ofSettings s).get? x = (s.overrides.get? x).or (knownType? x) := by
  have hkeys : s.overrides.entries.Pairwise fun a b => a.1 ≠ b.1 :=
    s.overrides.sorted.imp fun {a b} hlt hkey => by
      rw [hkey] at hlt
      exact String.lt_irrefl _ hlt
  rw [get?, ofSettings, lookup_foldl_setEntry x hkeys, lookup_knownEntries, Overrides.get?]

theorem isKnown_ofSettings (s : Types) (x : String) :
    (ofSettings s).isKnown x = ((s.overrides.get? x).isSome || (knownType? x).isSome) := by
  rw [isKnown, get?_ofSettings, Option.isSome_or]

theorem resolve_ofSettings (s : Types) (x : String) :
    (ofSettings s).resolve x = ((s.overrides.get? x).or (knownType? x)).getD s.fallback := by
  rw [resolve, get?_ofSettings]
  rfl

/-! ## The number of entries -/

theorem keys_setEntry (key value : String) (es : List (String × String)) :
    (setEntry key value es).map Prod.fst =
      if key ∈ es.map Prod.fst then es.map Prod.fst else es.map Prod.fst ++ [key] := by
  induction es with
  | nil => rfl
  | cons e es ih =>
    obtain ⟨k, v⟩ := e
    unfold setEntry
    by_cases hk : k = key
    · subst hk
      simp
    · rw [if_neg hk, List.map_cons, ih, List.map_cons]
      by_cases hkey : key ∈ es.map Prod.fst
      · rw [if_pos hkey, if_pos (List.mem_cons_of_mem k hkey)]
      · have hcons : key ∉ k :: es.map Prod.fst := by
          rw [List.mem_cons, not_or]
          exact ⟨Ne.symm hk, hkey⟩
        rw [if_neg hkey, if_neg hcons, List.cons_append]

theorem nodup_setEntry (key value : String) {es : List (String × String)}
    (h : (es.map Prod.fst).Nodup) : ((setEntry key value es).map Prod.fst).Nodup := by
  rw [keys_setEntry]
  split
  · exact h
  · next hkey => exact List.nodup_append_comm.mp (List.nodup_cons.mpr ⟨hkey, h⟩)

theorem nodup_foldl_setEntry (os : List (String × String)) {es : List (String × String)}
    (h : (es.map Prod.fst).Nodup) :
    ((os.foldl (fun es p => setEntry p.1 p.2 es) es).map Prod.fst).Nodup := by
  induction os generalizing es with
  | nil => exact h
  | cons o os ih => exact ih (nodup_setEntry o.1 o.2 h)

theorem mem_keys_iff {x : String} {es : List (String × String)} :
    x ∈ es.map Prod.fst ↔ (es.lookup x).isSome = true := by
  rw [List.lookup_isSome_iff, List.mem_map]
  constructor
  · rintro ⟨p, hp, rfl⟩
    exact ⟨p, hp, BEq.rfl⟩
  · rintro ⟨p, hp, hx⟩
    exact ⟨p, hp, (eq_of_beq hx).symm⟩

/-- Entries without a repeated key are as many as the keys that are found. -/
theorem length_eq_ncard {es : List (String × String)} (h : (es.map Prod.fst).Nodup) :
    es.length = Set.ncard {x | (es.lookup x).isSome = true} := by
  have hkeys : {x | (es.lookup x).isSome = true} = ((es.map Prod.fst).toFinset : Set String) := by
    ext x
    rw [Set.mem_ofPred_eq, Finset.mem_coe, List.mem_toFinset, mem_keys_iff]
  rw [hkeys, Set.ncard_coe_finset, List.toFinset_card_of_nodup h, List.length_map]

/-- **Each constructor counts once.** -/
theorem size_ofSettings (s : Types) : (ofSettings s).size =
    Set.ncard {x | (s.overrides.get? x).isSome = true ∨ (knownType? x).isSome = true} := by
  have hknown : (knownEntries.map Prod.fst).Nodup := by decide +kernel
  have hkeys : ∀ x, ((ofSettings s).entries.lookup x).isSome = true ↔
      (s.overrides.get? x).isSome = true ∨ (knownType? x).isSome = true := by
    intro x
    rw [← Bool.or_eq_true, ← isKnown_ofSettings]
    rfl
  calc (ofSettings s).size
      = Set.ncard {x | ((ofSettings s).entries.lookup x).isSome = true} :=
        length_eq_ncard (nodup_foldl_setEntry s.overrides.entries hknown)
    _ = _ := by simp only [hkeys]

/-! ## The whole table -/

/-- The entry of a known constructor. -/
def knownEntry? (c : String) : Option (String × String) :=
  (knownType? c).map fun type => (c, type)

/-- **The table of types is one of layers.** A constructor has the type of its override, or else the
known one; what is not in the table has the fallback; and the table counts each constructor that is
overridden or known once. Without overrides it is filled entry by entry from the groups, and agrees
with them. -/
theorem ofSettings_layers (s : Types) :
    (∀ x, (ofSettings s).get? x = (s.overrides.get? x).or (knownType? x)) ∧
      (∀ x, (ofSettings s).isKnown x = true ↔ ∃ type, (ofSettings s).get? x = some type) ∧
      (∀ x, (ofSettings s).resolve x = ((ofSettings s).get? x).getD s.fallback) ∧
      (ofSettings s).size =
        Set.ncard {x | (s.overrides.get? x).isSome = true ∨ (knownType? x).isSome = true} ∧
      (ofSettings {}).entries = ((groups.flatMap Group.constructors).filterMap knownEntry?).foldl
        (fun es p => setEntry p.1 p.2 es) [] ∧
      ∀ x, (ofSettings {}).get? x = knownType? x := by
  refine ⟨get?_ofSettings s, fun x => ?_, fun x => rfl, size_ofSettings s, ?_, fun x => ?_⟩
  · rw [isKnown, Option.isSome_iff_exists]
  · decide +kernel
  · rw [get?_ofSettings]
    rfl

end TypeTable

end ModelTypings.TypeScript
