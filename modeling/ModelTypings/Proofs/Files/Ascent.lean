import ModelTypings.Proofs.Files.Relative

/-!
# The paths above a path

* `Path.above`, `Path.no_slash_above`: the paths above, and how they are spelled;
* `Path.Continues`: a path with one more step, which does not lead up;
* **`Path.isAscent_ancestors`**: without a step up, each ancestor continues the next one.
-/

namespace ModelTypings

namespace Text

theorem not_mem_of_mem_splitAt {α : Type} [DecidableEq α] {sep : α} :
    ∀ {s piece : List α}, piece ∈ splitAt sep s → sep ∉ piece
  | [], piece, h => by
    obtain rfl := List.mem_singleton.mp h
    exact List.not_mem_nil
  | c :: cs, piece, h => by
    have ih : ∀ p ∈ splitAt sep cs, sep ∉ p := fun p hp => not_mem_of_mem_splitAt hp
    rw [splitAt] at h
    split at h
    · rcases List.mem_cons.mp h with rfl | h
      · exact List.not_mem_nil
      · exact ih piece h
    · next hc =>
      obtain ⟨p, ps, e⟩ := List.exists_cons_of_ne_nil (splitAt_ne_nil sep cs)
      rw [e] at h ih
      rcases List.mem_cons.mp h with rfl | h
      · exact List.not_mem_cons_of_ne_of_not_mem (Ne.symm hc) (ih p List.mem_cons_self)
      · exact ih piece (List.mem_cons_of_mem p h)

end Text

namespace Files.Path

open Text

/-! ## How paths are spelled -/

theorem IsSpelled.no_slash {p : Path} (h : p.IsSpelled) : ∀ s ∈ p.segments, slash ∉ s.bytes := by
  obtain ⟨bs, rfl⟩ := h
  intro s hs
  obtain ⟨piece, hp, rfl⟩ := List.mem_map.mp hs
  exact not_mem_of_mem_splitAt hp

theorem mem_segments_take {p : Path} {k : Nat} {s : Name} (h : s ∈ (p.take k).segments) :
    s ∈ p.segments ∨ s = .empty := by
  obtain ⟨segments⟩ := p
  match k, segments with
  | 0, _ => exact Or.inr (List.mem_singleton.mp h)
  | _ + 1, [] => exact Or.inr (List.mem_singleton.mp h)
  | k + 1, first :: rest =>
    rw [take, ofParts] at h
    split at h
    · exact Or.inr (by simpa using h)
    · rcases List.mem_cons.mp h with rfl | h
      · exact Or.inl List.mem_cons_self
      · exact Or.inl (List.mem_cons_of_mem _ ((takeSteps_isPrefix k rest).subset h))

/-- The paths above a path, nearest first. -/
def above (p : Path) : List Path := (p.parent?.map ancestors).getD []

theorem mem_ancestors {p q : Path} (h : q ∈ p.ancestors) : q = p ∨ ∃ k, q = p.take k := by
  rcases List.mem_cons.mp h with rfl | h
  · exact Or.inl rfl
  · have hm : q ∈ (List.range p.components.length).reverse.map p.take := by
      split at h
      · exact (List.dropLast_subset _) ((List.dropLast_subset _) h)
      · exact (List.dropLast_subset _) h
    obtain ⟨k, _, e⟩ := List.mem_map.mp hm
    exact Or.inr ⟨k, e.symm⟩

theorem parent?_eq_some {p q : Path} (h : p.parent? = some q) :
    q = p.take (p.components.length - 1) := by
  unfold parent? at h
  split at h
  · exact nomatch h
  · exact nomatch h
  · exact (Option.some.inj h).symm

theorem no_slash_above {p q : Path} (hp : ∀ s ∈ p.segments, slash ∉ s.bytes) (hq : q ∈ p.above) :
    ∀ s ∈ q.segments, slash ∉ s.bytes := by
  have htake : ∀ {p : Path} {k : Nat}, (∀ s ∈ p.segments, slash ∉ s.bytes) →
      ∀ s ∈ (p.take k).segments, slash ∉ s.bytes := by
    intro p k hp s hs
    rcases mem_segments_take hs with h | rfl
    · exact hp s h
    · exact List.not_mem_nil
  unfold above at hq
  cases hparent : p.parent? with
  | none =>
    rw [hparent] at hq
    exact nomatch hq
  | some r =>
    rw [hparent] at hq
    obtain rfl := parent?_eq_some hparent
    rcases mem_ancestors hq with rfl | ⟨k, rfl⟩
    · exact htake hp
    · exact htake (htake hp)

/-! ## One step after another -/

/-- The path starts with `q` and the step `s`, which is a name. Fillers may stand between them. -/
structure Continues (p q : Path) (s : Name) : Prop where
  not_empty : ¬q.isEmpty = true
  not_filler : ¬isFiller s = true
  not_up : s ≠ .up
  segments : ∃ fs rest, p.segments = q.segments ++ (fs ++ s :: rest) ∧ ∀ f ∈ fs, isFiller f = true

theorem Continues.isAbsolute {p q : Path} {s : Name} (h : p.Continues q s) :
    p.isAbsolute = q.isAbsolute := by
  obtain ⟨fs, rest, hp, -⟩ := h.segments
  have hq := h.not_empty
  obtain ⟨segments⟩ := q
  rw [Path.isAbsolute, Path.isAbsolute, hp]
  rcases segments with _ | ⟨first, _ | ⟨second, segments⟩⟩
  · exact absurd rfl hq
  · have hf : first ≠ .empty := by
      rintro rfl
      exact hq rfl
    simp [hf]
  · simp

/-- Each of some paths, the nearest first, continues the one after it. -/
inductive IsAscent : Path → List Path → Prop
  | top {p} : IsAscent p []
  | step {p q s above} (hp : p.Continues q s) (h : IsAscent q above) : IsAscent p (q :: above)

theorem takeSteps_zero (segments : List Name) : takeSteps 0 segments = [] := by
  rw [takeSteps]

/-- One more step is taken by the segments up to the next that is no filler. -/
theorem exists_takeSteps : ∀ (k : Nat) (segments : List Name), k < (steps segments).length →
    ∃ fs s rest, segments = takeSteps k segments ++ (fs ++ s :: rest) ∧
      takeSteps (k + 1) segments = takeSteps k segments ++ (fs ++ [s]) ∧
      (∀ f ∈ fs, isFiller f = true) ∧ ¬isFiller s = true
  | _, [], h => absurd h (Nat.not_lt_zero _)
  | k, s :: segments, h => by
    by_cases hf : isFiller s = true
    · have hsteps : steps (s :: segments) = steps segments := by
        rw [steps, List.filter_cons, if_neg (by simp [hf])]
        rfl
      rw [hsteps] at h
      obtain ⟨fs, s', rest, hseg, htake, hfs, hs'⟩ := exists_takeSteps k segments h
      rw [takeSteps, if_pos hf, htake]
      cases k with
      | zero =>
        rw [takeSteps_zero] at hseg ⊢
        refine ⟨s :: fs, s', rest, congrArg (s :: ·) hseg, ?_,
          List.forall_mem_cons.mpr ⟨hf, hfs⟩, hs'⟩
        rw [takeSteps_zero]
        rfl
      | succ k =>
        rw [takeSteps, if_pos hf]
        exact ⟨fs, s', rest, congrArg (s :: ·) hseg, rfl, hfs, hs'⟩
    · have hsteps : (steps (s :: segments)).length = (steps segments).length + 1 := by
        rw [steps, List.filter_cons, if_pos (by simpa using hf)]
        rfl
      rw [hsteps] at h
      rw [takeSteps, if_neg hf]
      cases k with
      | zero =>
        rw [takeSteps_zero, takeSteps_zero]
        exact ⟨[], s, segments, rfl, rfl, List.forall_mem_nil _, hf⟩
      | succ k =>
        obtain ⟨fs, s', rest, hseg, htake, hfs, hs'⟩ :=
          exists_takeSteps k segments (Nat.lt_of_succ_lt_succ h)
        rw [takeSteps, if_neg hf, htake]
        exact ⟨fs, s', rest, congrArg (s :: ·) hseg, rfl, hfs, hs'⟩

/-- The fewest steps that lead from where a path starts to an entry. The root is no such entry. -/
def fewestSteps (p : Path) : Nat := if p.isAbsolute then 2 else 1

theorem segments_take {first : Name} {rest : List Name} (hr : first ≠ .empty ∨ rest ≠ []) {k : Nat}
    (hk : fewestSteps ⟨first :: rest⟩ ≤ k + 1) :
    (take (k + 1) ⟨first :: rest⟩).segments = first :: takeSteps k rest ∧
      ¬(take (k + 1) ⟨first :: rest⟩).isEmpty = true := by
  rw [take, ofParts]
  by_cases hf : first = .empty
  · subst hf
    obtain ⟨s, rest, rfl⟩ := List.exists_cons_of_ne_nil (hr.resolve_left (not_not.mpr rfl))
    have ha : isAbsolute ⟨.empty :: s :: rest⟩ = true := by simp [isAbsolute]
    rw [fewestSteps, if_pos ha] at hk
    obtain ⟨k, rfl⟩ := Nat.exists_eq_add_of_le' (Nat.le_of_succ_le_succ hk)
    obtain ⟨s', rest', e⟩ : ∃ s' rest', takeSteps (k + 1) (s :: rest) = s' :: rest' := by
      rw [takeSteps]
      split <;> exact ⟨_, _, rfl⟩
    rw [e, List.isEmpty_cons, Bool.and_false, if_neg Bool.false_ne_true]
    exact ⟨rfl, by simp [isEmpty]⟩
  · have ha : isAbsolute ⟨first :: rest⟩ = false := by simp [isAbsolute, hf]
    rw [ha, Bool.false_and, if_neg Bool.false_ne_true]
    exact ⟨rfl, by simp [isEmpty, hf]⟩

/-- **One more step continues a path**, unless it leads up. -/
theorem continues_take {p : Path} (hup : .up ∉ p.components) {k : Nat} (hk : p.fewestSteps ≤ k)
    (hlt : k < p.components.length) :
    ∃ s, (p.take (k + 1)).Continues (p.take k) s ∧ p.Continues (p.take k) s := by
  obtain ⟨segments⟩ := p
  cases segments with
  | nil => exact absurd hlt (Nat.not_lt_zero _)
  | cons first rest =>
    have hpos : 1 ≤ fewestSteps ⟨first :: rest⟩ := by
      unfold fewestSteps
      split <;> decide
    have hr : first ≠ .empty ∨ rest ≠ [] := by
      rw [or_iff_not_imp_left, not_not]
      rintro rfl rfl
      exact absurd hlt (Nat.not_lt_zero _)
    rw [components_cons, List.length_append, length_firstComponent hr] at hlt
    rw [components_cons, List.mem_append, not_or] at hup
    obtain ⟨k, rfl⟩ := Nat.exists_eq_add_of_le' (Nat.le_trans hpos hk)
    obtain ⟨fs, s, after, hseg, htake, hfs, hs⟩ := exists_takeSteps k rest (by omega)
    obtain ⟨hq, hne⟩ := segments_take hr hk
    have hmem : .up ≠ componentOf s := by
      intro e
      refine hup.2 (e ▸ List.mem_map.mpr ⟨s, List.mem_filter.mpr ⟨?_, by simpa using hs⟩, rfl⟩)
      rw [hseg]
      simp
    have hnot : s ≠ .up := by
      rintro rfl
      exact hmem rfl
    refine ⟨s, ⟨hne, hs, hnot, fs, [], ?_, hfs⟩, ⟨hne, hs, hnot, fs, after, ?_, hfs⟩⟩
    · rw [(segments_take hr (Nat.le_trans hk (Nat.le_succ _))).1, hq, htake]
      rfl
    · rw [hq]
      exact congrArg (first :: ·) hseg

theorem dropLast_reverse_range (f : Nat → Path) : ∀ n,
    ((List.range n).reverse.map f).dropLast = (List.range (n - 1)).reverse.map fun k => f (k + 1)
  | 0 => rfl
  | n + 1 => by
    rw [List.range_succ_eq_map, List.reverse_cons, List.map_append, List.map_singleton,
      List.dropLast_concat, Nat.add_sub_cancel, ← List.map_reverse, List.map_map]
    rfl

theorem ancestors_eq (p : Path) : p.ancestors = p ::
    (List.range (p.components.length - p.fewestSteps)).reverse.map fun k =>
      p.take (k + p.fewestSteps) := by
  unfold ancestors fewestSteps
  dsimp only
  split
  · rw [dropLast_reverse_range, dropLast_reverse_range]
    rfl
  · rw [dropLast_reverse_range]

/-- **Each ancestor continues the next one**, if the path has no step up. -/
theorem isAscent_ancestors {p : Path} (hup : .up ∉ p.components) :
    ∃ above, p.ancestors = p :: above ∧ IsAscent p above := by
  have htake : ∀ n, n + p.fewestSteps ≤ p.components.length →
      IsAscent (p.take (n + p.fewestSteps))
        ((List.range n).reverse.map fun k => p.take (k + p.fewestSteps)) := by
    intro n
    induction n with
    | zero => exact fun _ => .top
    | succ n ih =>
      intro hn
      rw [Nat.succ_add] at hn ⊢
      obtain ⟨s, hs, -⟩ := continues_take hup (Nat.le_add_left p.fewestSteps n) hn
      rw [List.range_succ, List.reverse_append, List.reverse_singleton, List.singleton_append,
        List.map_cons]
      exact .step hs (ih (Nat.le_of_succ_le hn))
  refine ⟨_, ancestors_eq p, ?_⟩
  cases hn : p.components.length - p.fewestSteps with
  | zero => exact .top
  | succ n =>
    obtain ⟨s, -, hs⟩ := continues_take hup (Nat.le_add_left p.fewestSteps n) (by omega)
    rw [List.range_succ, List.reverse_append, List.reverse_singleton, List.singleton_append,
      List.map_cons]
    exact .step hs (htake n (by omega))

theorem parent?_of_le {p q : Path} (hq : p.parent? = some q)
    (hk : p.components.length ≤ p.fewestSteps) : q.isEmpty = true ∨ q = ⟨[.empty, .empty]⟩ := by
  obtain rfl := parent?_eq_some hq
  unfold fewestSteps at hk
  split at hk
  · next ha =>
    obtain ⟨segments⟩ := p
    cases segments with
    | nil => exact Or.inl rfl
    | cons first rest =>
      rcases Nat.le_one_iff_eq_zero_or_eq_one.mp (Nat.sub_le_sub_right hk 1) with e | e
      · exact Or.inl (by rw [e]; rfl)
      · rw [e, take, ofParts, ha, takeSteps_zero]
        exact Or.inr rfl
  · rw [Nat.sub_eq_zero_of_le hk]
    exact Or.inl rfl

/-- **A path continues its parent** if it has no step up, unless that is the root. -/
theorem continues_parent {p q : Path} (hup : .up ∉ p.components) (hq : p.parent? = some q)
    (hne : ¬q.isEmpty = true) (hroot : q ≠ ⟨[.empty, .empty]⟩) : ∃ s, p.Continues q s := by
  have hk : p.fewestSteps < p.components.length := by
    by_contra hk
    exact (parent?_of_le hq (Nat.le_of_not_lt hk)).elim hne hroot
  obtain rfl := parent?_eq_some hq
  obtain ⟨s, -, hs⟩ := continues_take hup (k := p.components.length - 1) (by omega) (by omega)
  exact ⟨s, hs⟩

end Files.Path

end ModelTypings
