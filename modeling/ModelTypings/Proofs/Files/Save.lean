import ModelTypings.Files.Save
import ModelTypings.Proofs.Files.Plain

/-!
# What saving a text changes

Relative paths of names, in trees without links.

* `Tree.MakesDirectories`, `Tree.makeChain_makes`: the missing directories above a path;
* `Tree.SavesText`, **`Tree.save_changes`**: the entries after a text has been saved.
-/

namespace ModelTypings.Files

open Files.Path

namespace Tree

/-! ## The directories above -/

theorem makeDirectory_plain {t t' : Tree} (ht : t.IsPlain) {p : Path} {ns : List Name}
    (hp : p.Spells ns) (h : t.makeDirectory p = .ok t') :
    t.home ++ ns ≠ [] ∧ t' = t.set (t.home ++ ns) .directory ∧ t.entry? (t.home ++ ns) = none ∧
      t.StandsFree (t.home ++ ns) := by
  unfold makeDirectory at h
  split at h
  · exact nomatch h
  next d n hl =>
  obtain ⟨e, hfree⟩ := lastPlace_plain ht hp hl
  rw [e] at h
  split at h
  · exact nomatch h
  next hnone =>
  exact ⟨e ▸ by simp, (Except.ok.inj h).symm, hnone, hfree⟩

/-- The second tree has the missing directories down to `l`. -/
structure MakesDirectories (t t' : Tree) (l : Location) : Prop where
  home : t'.home = t.home
  entries : ∀ d, t'.entry? d =
    if d <+: l ∧ t.entry? d = none then some .directory else t.entry? d

namespace MakesDirectories

variable {t t' : Tree} {l : Location}

theorem refl (h : ∀ d, d <+: l → t.entry? d ≠ none) : MakesDirectories t t l :=
  ⟨rfl, fun d => (if_neg fun hd => h d hd.1 hd.2).symm⟩

theorem isPlain (h : MakesDirectories t t' l) (ht : t.IsPlain) : t'.IsPlain where
  not_link d target := by
    rw [h.entries]
    split
    · exact fun e => nomatch e
    · exact ht.not_link d target
  home d hd := by
    rw [h.home] at hd
    rw [h.entries, ht.home d hd]
    exact if_neg fun h => nomatch h.2

theorem set (hl : l ≠ []) (hnone : t.entry? l = none) (hfree : t.StandsFree l) :
    MakesDirectories t (t.set l .directory) l := by
  refine ⟨rfl, fun d => ?_⟩
  rw [entry?_set t hl]
  by_cases e : d = l
  · subst e
    rw [if_pos rfl, if_pos ⟨List.prefix_rfl, hnone⟩]
  · rw [if_neg e, if_neg]
    rintro ⟨hd, h⟩
    exact nomatch (hfree d hd e).symm.trans h

theorem entry?_concat (h : MakesDirectories t t' l) (n : Name) :
    t'.entry? (l ++ [n]) = t.entry? (l ++ [n]) := by
  rw [h.entries]
  refine if_neg fun hd => ?_
  have hlen := hd.1.length_le
  rw [List.length_append, List.length_singleton] at hlen
  omega

theorem entry?_of_ne (h : MakesDirectories t t' l) {d : Location} {n : Name} (hd : d ≠ l ++ [n]) :
    t'.entry? d =
      if d <+: l ++ [n] ∧ t.entry? d = none then some .directory else t.entry? d := by
  rw [h.entries]
  simp only [List.prefix_concat_iff, hd, false_or]

theorem concat_set (h : MakesDirectories t t' l) {n : Name}
    (hnone : t'.entry? (l ++ [n]) = none) :
    MakesDirectories t (t'.set (l ++ [n]) .directory) (l ++ [n]) := by
  refine ⟨h.home, fun d => ?_⟩
  rw [entry?_set t' (by simp)]
  by_cases e : d = l ++ [n]
  · subst e
    rw [h.entry?_concat] at hnone
    rw [if_pos rfl, if_pos ⟨List.prefix_rfl, hnone⟩]
  · rw [if_neg e, h.entry?_of_ne e]

theorem concat (h : MakesDirectories t t' l) {n : Name}
    (hd : t'.entry? (l ++ [n]) = some .directory) : MakesDirectories t t' (l ++ [n]) := by
  refine ⟨h.home, fun d => ?_⟩
  by_cases e : d = l ++ [n]
  · subst e
    rw [hd]
    rw [h.entry?_concat] at hd
    rw [hd]
    exact (if_neg fun h => nomatch h.2).symm
  · exact h.entry?_of_ne e

end MakesDirectories

/-- The paths above a path of names, each above the one before it. -/
inductive IsChain : List Path → List Name → Prop
  | nil {ns} : IsChain [] ns
  | cons {p above ns n} (hp : p.Spells ns) (h : IsChain above ns) : IsChain (p :: above) (ns ++ [n])

theorem makesDirectories_of_makeDirectory {t t' : Tree} (ht : t.IsPlain) {p : Path}
    {ns : List Name} (hp : p.Spells ns) (h : t.makeDirectory p = .ok t') :
    MakesDirectories t t' (t.home ++ ns) := by
  obtain ⟨hl, rfl, hnone, hfree⟩ := makeDirectory_plain ht hp h
  exact .set hl hnone hfree

theorem makesDirectories_of_isDirectory {t : Tree} (ht : t.IsPlain) {p : Path} {ns : List Name}
    (hp : p.Spells ns) (h : t.isDirectory p = true) : MakesDirectories t t (t.home ++ ns) := by
  obtain ⟨hl, hfree⟩ := entry?_of_isDirectory ht hp h
  exact .refl (entry?_ne_none hl hfree)

/-- **The missing directories of a path are made**, down to the path itself. -/
theorem makeChain_makes {above : List Path} {ns : List Name} (hc : IsChain above ns) :
    ∀ {t t' : Tree} {p : Path}, t.IsPlain → p.Spells ns →
      t.makeChain (p :: above) = (t', none) → MakesDirectories t t' (t.home ++ ns) := by
  induction hc with
  | nil =>
    intro t t' p ht hp h
    rw [makeChain] at h
    split at h
    · next hm =>
      obtain rfl := (Prod.mk.inj h).1
      exact makesDirectories_of_makeDirectory ht hp hm
    · exact nomatch (Prod.mk.inj h).2
    · split at h
      · next hd =>
        obtain rfl := (Prod.mk.inj h).1
        exact makesDirectories_of_isDirectory ht hp hd
      · exact nomatch (Prod.mk.inj h).2
  | @cons q above ns n hq _ ih =>
    intro t t' p ht hp h
    rw [makeChain] at h
    split at h
    · next hm =>
      obtain rfl := (Prod.mk.inj h).1
      exact makesDirectories_of_makeDirectory ht hp hm
    · split at h
      · exact nomatch (Prod.mk.inj h).2
      next t₁ habove =>
      -- the directories above have been made, the path itself is still missing or was there
      have h₁ := ih ht hq habove
      have ht₁ := h₁.isPlain ht
      rw [← List.append_assoc]
      split at h
      · next hm =>
        obtain rfl := (Prod.mk.inj h).1
        obtain ⟨_, rfl, hnone, _⟩ := makeDirectory_plain ht₁ hp hm
        rw [h₁.home, ← List.append_assoc] at hnone ⊢
        exact h₁.concat_set hnone
      · split at h
        · next hd =>
          obtain rfl := (Prod.mk.inj h).1
          obtain ⟨hl, _⟩ := entry?_of_isDirectory ht₁ hp hd
          rw [h₁.home, ← List.append_assoc] at hl
          exact h₁.concat hl
        · exact nomatch (Prod.mk.inj h).2
    · split at h
      · next hd =>
        obtain rfl := (Prod.mk.inj h).1
        exact makesDirectories_of_isDirectory ht hp hd
      · exact nomatch (Prod.mk.inj h).2

theorem spells_take {p : Path} {ns : List Name} (hp : p.components = ns.map .name) (k : Nat) :
    (p.take k).Spells (ns.take k) :=
  spells_of_components (by rw [components_take, hp, List.map_take])

theorem isChain_take {p : Path} {ns : List Name} (hp : p.components = ns.map .name) :
    ∀ k, k ≤ ns.length → IsChain ((List.range k).reverse.map p.take).dropLast (ns.take k)
  | 0, _ => .nil
  | 1, _ => .nil
  | k + 2, hk => by
    have ih := isChain_take hp (k + 1) (by omega)
    have hcons : ((List.range (k + 2)).reverse.map p.take).dropLast =
        p.take (k + 1) :: ((List.range (k + 1)).reverse.map p.take).dropLast := by
      rw [List.range_succ, List.reverse_append, List.reverse_singleton, List.singleton_append,
        List.map_cons, List.dropLast_cons_of_ne_nil (by simp)]
    rw [hcons, List.take_succ_eq_append_getElem (by omega)]
    exact .cons (spells_take hp (k + 1)) ih

theorem exists_ancestors {p : Path} {ns : List Name} (hp : p.components = ns.map .name) :
    ∃ above, p.ancestors = p :: above ∧ IsChain above ns := by
  have hc := isChain_take hp ns.length (Nat.le_refl _)
  rw [List.take_length] at hc
  refine ⟨_, ?_, hc⟩
  rw [ancestors, (spells_of_components hp).relative, hp, List.length_map]
  rfl

theorem parent?_plain {p : Path} {ns : List Name} {n : Name}
    (hp : p.components = (ns ++ [n]).map .name) :
    p.parent? = some (p.take ns.length) ∧ (p.take ns.length).components = ns.map .name := by
  constructor
  · rw [parent?, hp, List.map_append, List.map_singleton, List.getLast?_concat, List.length_append,
      List.length_map]
    rfl
  · rw [components_take, hp, ← List.map_take, List.take_left]

/-- **Preparing a path** makes the missing directories above it, or finds nothing to do. -/
theorem prepare_plain {t t' : Tree} (ht : t.IsPlain) {p : Path} {ns : List Name} {n : Name}
    (hp : p.components = (ns ++ [n]).map .name) (h : t.prepare p = (t', none)) :
    t' = t ∨ MakesDirectories t t' (t.home ++ ns) := by
  obtain ⟨hparent, hc⟩ := parent?_plain hp
  obtain ⟨above, ha, hchain⟩ := exists_ancestors hc
  unfold prepare at h
  cases hm : t.missingParent? p with
  | none =>
    rw [hm] at h
    exact Or.inl (Prod.mk.inj h).1.symm
  | some q =>
    rw [hm] at h
    rw [missingParent?, hparent] at hm
    obtain rfl := Option.some.inj (Option.filter_eq_some_iff.mp hm).1
    obtain ⟨h1, h2⟩ := Prod.mk.inj h
    have hmade : t.makeDirectories (p.take ns.length) = (t', none) :=
      Prod.ext h1 (Option.map_eq_none_iff.mp h2)
    unfold makeDirectories at hmade
    split at hmade
    · exact Or.inl (Prod.mk.inj hmade).1.symm
    · rw [ha] at hmade
      exact Or.inr (makeChain_makes hchain ht (spells_of_components hc) hmade)

/-! ## Saving -/

/-- The second tree has a text at `l`, and the missing directories above it. -/
structure SavesText (t t' : Tree) (l : Location) (s : String) : Prop where
  home : t'.home = t.home
  entries : ∀ d, t'.entry? d = if d = l then some (.file (.text s))
    else if d <+: l ∧ t.entry? d = none then some .directory else t.entry? d
  above : t'.StandsFree l
  not_directory : t.entry? l ≠ some .directory

/-- A text that is written after the directories above it have been made. -/
theorem MakesDirectories.savesText {t t' : Tree} {l : Location} (h : MakesDirectories t t' l)
    {n : Name} {s : String} (hfree : t'.StandsFree (l ++ [n]))
    (hd : t'.entry? (l ++ [n]) ≠ some .directory) :
    SavesText t (t'.set (l ++ [n]) (.file (.text s))) (l ++ [n]) s := by
  have hl : l ++ [n] ≠ [] := by simp
  refine ⟨h.home, fun d => ?_, fun d hpre hne => ?_, h.entry?_concat n ▸ hd⟩
  · rw [entry?_set t' hl]
    by_cases e : d = l ++ [n]
    · rw [if_pos e, if_pos e]
    · rw [if_neg e, if_neg e, h.entry?_of_ne e]
  · rw [entry?_set t' hl, if_neg hne]
    exact hfree d hpre hne

theorem writeText_plain {t t' : Tree} (ht : t.IsPlain) {p : Path} {ns : List Name} {s : String}
    (hp : p.Spells ns) (h : t.writeText p s = .ok t') :
    t' = t.set (t.home ++ ns) (.file (.text s)) ∧ t.StandsFree (t.home ++ ns) ∧
      t.entry? (t.home ++ ns) ≠ some .directory := by
  unfold writeText at h
  split at h
  · exact nomatch h
  · next d n hr =>
    obtain ⟨hl, hfree⟩ := resolve_plain ht hp hr
    have hl : d ++ [n] = t.home ++ ns := hl
    have hnone := (resolve_eq_ok.mp hr).2.entry?_vacant
    rw [hl] at h hnone
    exact ⟨(Except.ok.inj h).symm, hfree, by rw [hnone]; exact fun e => nomatch e⟩
  · next l hr =>
    obtain ⟨hl, hfree⟩ := resolve_plain ht hp hr
    have hl : l = t.home ++ ns := hl
    subst hl
    split at h
    · exact nomatch h
    · next hd => exact ⟨(Except.ok.inj h).symm, hfree, hd⟩

/-- **The entries after a text has been saved** under a relative path of names. -/
theorem save_changes {t t' : Tree} (ht : t.IsPlain) {p : Path} {ns : List Name} {s : String}
    (hp : p.components = ns.map .name) (hne : ns ≠ []) (h : t.save p s = (t', none)) :
    SavesText t t' (t.home ++ ns) s := by
  obtain ⟨init, n, rfl⟩ := (List.eq_nil_or_concat ns).resolve_left hne
  rw [List.concat_eq_append] at hp ⊢
  have hspells := spells_of_components hp
  unfold save at h
  split at h
  · exact nomatch (Prod.mk.inj h).2
  next t₁ hprepare =>
  split at h
  · next hw =>
    obtain rfl := (Prod.mk.inj h).1
    rcases prepare_plain ht hp hprepare with rfl | hm
    · obtain ⟨rfl, hfree, hd⟩ := writeText_plain ht hspells hw
      rw [← List.append_assoc] at hfree hd ⊢
      -- nothing was missing, since the text could be written
      have hm : MakesDirectories t₁ t₁ (t₁.home ++ init) := .refl fun d hpre hnone =>
        nomatch (hfree d (hpre.trans (List.prefix_append _ [n]))
          (fun e => absurd (e ▸ hpre.length_le) (by simp))).symm.trans hnone
      exact hm.savesText hfree hd
    · obtain ⟨rfl, hfree, hd⟩ := writeText_plain (hm.isPlain ht) hspells hw
      rw [hm.home, ← List.append_assoc] at hfree hd ⊢
      exact hm.savesText hfree hd
  · exact nomatch (Prod.mk.inj h).2

end Tree

end ModelTypings.Files
