import ModelTypings.Proofs.Files.Ascent
import ModelTypings.Proofs.Files.Save

/-!
# What saving keeps

* `Tree.Sound.set`, **`Tree.Sound.save`**: a tree that a disk can hold stays one;
* `Tree.makeChain_induct`, `Tree.prepare_keeps`: what making one directory keeps, making all of
  them keeps, whether they succeed or not;
* `Tree.AddsDirectories`, **`Tree.save_fault`**: a text that cannot be saved leaves nothing but
  directories above its path;
* **`Tree.save_again`**: a text that is there already is saved without a change.
-/

namespace ModelTypings.Files

open Files.Path

namespace Tree

/-! ## Changing one entry -/

theorem keys_set (t : Tree) (l : Location) (e : Entry) : (t.set l e).entries.map Prod.fst =
    if l ∈ t.entries.map Prod.fst then t.entries.map Prod.fst
    else t.entries.map Prod.fst ++ [l] := by
  have hany : (t.entries.any fun p => p.1 == l) = true ↔ l ∈ t.entries.map Prod.fst := by simp
  unfold set
  dsimp only
  by_cases h : l ∈ t.entries.map Prod.fst
  · rw [if_pos (hany.mpr h), if_pos h, List.map_map]
    refine List.map_congr_left fun p _ => ?_
    by_cases hp : p.1 = l <;> simp [hp]
  · rw [if_neg (hany.not.mpr h), if_neg h, List.map_append]
    rfl

/-- **A sound tree stays sound** when an entry in a directory changes and no directory is lost. -/
theorem Sound.set {t : Tree} (hs : t.Sound) {l : Location} {e : Entry} (hl : l ≠ [])
    (hn : ∀ n ∈ l, IsName n) (hp : t.entry? l.dropLast = some .directory)
    (hd : t.entry? l = some .directory → e = .directory) : (t.set l e).Sound := by
  have hkept : ∀ d, t.entry? d = some .directory → entry? (t.set l e) d = some .directory := by
    intro d h
    rw [entry?_set t hl]
    split
    · next hdl => rw [hd (hdl ▸ h)]
    · exact h
  have hkeys : ∀ p ∈ (t.set l e).entries, (∃ q ∈ t.entries, q.1 = p.1) ∨ p.1 = l := by
    intro p h
    have hm := List.mem_map_of_mem (f := Prod.fst) h
    rw [keys_set] at hm
    split at hm
    · exact Or.inl (List.mem_map.mp hm)
    · rcases List.mem_append.mp hm with hm | hm
      · exact Or.inl (List.mem_map.mp hm)
      · exact Or.inr (List.mem_singleton.mp hm)
  refine ⟨?_, fun p h => ?_, fun p h => ?_, hkept _ hs.home⟩
  · rw [keys_set]
    split
    · exact hs.nodup
    · next hnew =>
      refine List.nodup_append.mpr ⟨hs.nodup, List.nodup_singleton l, fun k hk k' hk' e => ?_⟩
      obtain rfl := List.mem_singleton.mp hk'
      exact hnew (e ▸ hk)
  · rcases hkeys p h with ⟨q, hq, e⟩ | e
    · exact e ▸ hs.names q hq
    · exact e ▸ ⟨hl, hn⟩
  · rcases hkeys p h with ⟨q, hq, e⟩ | e
    · exact hkept _ (e ▸ hs.parent q hq)
    · exact hkept _ (e ▸ hp)

theorem Sound.set_eq {t : Tree} (hs : t.Sound) {l : Location} {e : Entry} (hl : l ≠ [])
    (h : t.entry? l = some e) : t.set l e = t := by
  have hm := mem_entries_of_eq_some hl h
  have hany : (t.entries.any fun p => p.1 == l) = true :=
    List.any_eq_true.mpr ⟨_, hm, beq_self_eq_true l⟩
  have hmap : (t.entries.map fun p => if p.1 == l then (l, e) else p) = t.entries := by
    refine (List.map_congr_left fun p hp => ?_).trans (List.map_id _)
    by_cases hpl : p.1 = l
    · rw [if_pos (by simpa using hpl)]
      exact List.inj_on_of_nodup_map hs.nodup hm hp hpl.symm
    · rw [if_neg (by simpa using hpl)]
      rfl
  unfold Tree.set
  rw [if_pos hany, hmap]

theorem Sound.isName_of_entry {t : Tree} (hs : t.Sound) {l : Location} {e : Entry}
    (h : t.entry? l = some e) : ∀ n ∈ l, IsName n := by
  by_cases hl : l = []
  · simp [hl]
  · exact (hs.names _ (mem_entries_of_eq_some hl h)).2

theorem Sound.set_concat {t : Tree} (hs : t.Sound) {l : Location} {n : Name} {e : Entry}
    (hp : t.entry? l = some .directory) (hn : IsName n)
    (hd : t.entry? (l ++ [n]) = some .directory → e = .directory) : (t.set (l ++ [n]) e).Sound := by
  refine hs.set (by simp) (fun m hm => ?_) (by rw [List.dropLast_concat, hp]) hd
  rcases List.mem_append.mp hm with hm | hm
  · exact hs.isName_of_entry hp m hm
  · exact List.mem_singleton.mp hm ▸ hn

theorem Sound.set_plain {t : Tree} (hs : t.Sound) {ns : List Name} (hn : ∀ n ∈ ns, IsName n)
    (hl : t.home ++ ns ≠ []) (hfree : t.StandsFree (t.home ++ ns)) {e : Entry}
    (hd : t.entry? (t.home ++ ns) = some .directory → e = .directory) :
    (t.set (t.home ++ ns) e).Sound := by
  refine hs.set hl ?_ (hfree _ (List.dropLast_prefix _) fun h => ?_) hd
  · intro n hm
    rcases List.mem_append.mp hm with hm | hm
    · exact hs.isName_of_entry hs.home n hm
    · exact hn n hm
  · have := congrArg List.length h
    have := List.length_pos_iff.mpr hl
    rw [List.length_dropLast] at *
    omega

theorem Sound.makeDirectory {t t' : Tree} (hs : t.Sound) (ht : t.IsPlain) {p : Path}
    {ns : List Name} (hp : p.Spells ns) (hn : ∀ n ∈ ns, IsName n)
    (h : t.makeDirectory p = .ok t') : t'.Sound := by
  obtain ⟨hl, rfl, hnone, hfree⟩ := makeDirectory_plain ht hp h
  exact hs.set_plain hn hl hfree fun _ => rfl

/-! ## Making some directories -/

/-- **What making one directory keeps, making a chain of them keeps**, as far as it goes. -/
theorem makeChain_induct {P : Tree → Prop} {paths : List Path}
    (hstep : ∀ p ∈ paths, ∀ t t' : Tree, P t → t.makeDirectory p = .ok t' → P t') :
    ∀ {t : Tree}, P t → P (t.makeChain paths).1 := by
  induction paths with
  | nil => exact fun h => h
  | cons p above ih =>
    intro t h
    obtain ⟨hp, habove⟩ := List.forall_mem_cons.mp hstep
    have hchain := ih habove h
    rw [makeChain]
    split
    · next t' hm => exact hp t t' h hm
    · split
      · next t' f hc => exact hc ▸ hchain
      · next t' hc =>
        rw [hc] at hchain
        split
        · next t'' hm => exact hp t' t'' hchain hm
        · split <;> exact hchain
    · split <;> exact h

theorem IsChain.exists_spells {above : List Path} {ns : List Name} (hc : IsChain above ns) :
    ∀ p ∈ above, ∃ ms, ms <+: ns ∧ p.Spells ms := by
  induction hc with
  | nil => exact fun p hp => nomatch hp
  | @cons q above ns n hq _ ih =>
    intro p hp
    rcases List.mem_cons.mp hp with rfl | hp
    · exact ⟨ns, List.prefix_append .., hq⟩
    · obtain ⟨ms, hms, h⟩ := ih p hp
      exact ⟨ms, hms.trans (List.prefix_append ..), h⟩

/-- **What making one directory above a path keeps, preparing the path keeps.** -/
theorem prepare_keeps {P : Tree → Prop} {p : Path}
    (hstep : ∀ q ∈ p.above, ∀ t t' : Tree, P t → t.makeDirectory q = .ok t' → P t') {t : Tree}
    (h : P t) : P (t.prepare p).1 := by
  unfold prepare
  cases hm : t.missingParent? p with
  | none => exact h
  | some q =>
    have hq : p.parent? = some q := (Option.filter_eq_some_iff.mp hm).1
    show P (t.makeDirectories q).1
    unfold makeDirectories
    split
    · exact h
    · refine makeChain_induct (fun r hr => hstep r ?_) h
      rw [above, hq]
      exact hr

theorem prepare_induct {P : Tree → Prop} {p : Path} {ns : List Name} {n : Name}
    (hp : p.components = (ns ++ [n]).map .name)
    (hstep : ∀ q ms, ms <+: ns → q.Spells ms → ∀ t t' : Tree, P t → t.makeDirectory q = .ok t' →
      P t') {t : Tree} (h : P t) : P (t.prepare p).1 := by
  obtain ⟨hparent, hc⟩ := parent?_plain hp
  obtain ⟨above, ha, hchain⟩ := exists_ancestors hc
  refine prepare_keeps (fun q hq => ?_) h
  rw [Path.above, hparent, Option.map_some, Option.getD_some, ha] at hq
  rcases List.mem_cons.mp hq with rfl | hq
  · exact hstep _ ns List.prefix_rfl (spells_of_components hc)
  · obtain ⟨ms, hms, hspells⟩ := hchain.exists_spells q hq
    exact hstep q ms hms hspells

/-- **A sound tree stays sound** when a text is saved. -/
theorem Sound.save {t t' : Tree} (hs : t.Sound) (ht : t.IsPlain) {p : Path} {ns : List Name}
    {s : String} (hp : p.components = ns.map .name) (hne : ns ≠ []) (hn : ∀ n ∈ ns, IsName n)
    (h : t.save p s = (t', none)) : t'.Sound := by
  obtain ⟨init, n, rfl⟩ := (List.eq_nil_or_concat ns).resolve_left hne
  rw [List.concat_eq_append] at hp hn
  have hprepare : (t.prepare p).1.IsPlain ∧ (t.prepare p).1.Sound := by
    refine prepare_induct (P := fun t => t.IsPlain ∧ t.Sound) hp ?_ ⟨ht, hs⟩
    rintro q ms hms hq t t' ⟨ht, hs⟩ hm
    refine ⟨(makesDirectories_of_makeDirectory ht hq hm).isPlain ht, hs.makeDirectory ht hq ?_ hm⟩
    exact fun m hm => hn m (List.mem_append_left _ (hms.subset hm))
  unfold Tree.save at h
  split at h
  · exact nomatch (Prod.mk.inj h).2
  next t₁ hprep =>
  rw [hprep] at hprepare
  split at h
  · next hw =>
    obtain rfl := (Prod.mk.inj h).1
    obtain ⟨rfl, hfree, hd⟩ := writeText_plain hprepare.1 (spells_of_components hp) hw
    exact hprepare.2.set_plain hn (by simp) hfree fun h => absurd h hd
  · exact nomatch (Prod.mk.inj h).2

/-! ## A text that cannot be saved -/

/-- The second tree has nothing new but directories on the way down to `l`. -/
structure AddsDirectories (t t' : Tree) (l : Location) : Prop where
  home : t'.home = t.home
  entries : ∀ d, t'.entry? d = t.entry? d ∨
    d <+: l ∧ t.entry? d = none ∧ t'.entry? d = some .directory

theorem addsDirectories_refl (t : Tree) (l : Location) : AddsDirectories t t l :=
  ⟨rfl, fun _ => Or.inl rfl⟩

theorem AddsDirectories.entry?_of_not {t t' : Tree} {l d : Location} (h : AddsDirectories t t' l)
    (hd : ¬d <+: l) : t'.entry? d = t.entry? d :=
  (h.entries d).resolve_right fun h => hd h.1

theorem AddsDirectories.set {t t' : Tree} {l d : Location} (h : AddsDirectories t t' l)
    (hd : d <+: l) (hne : d ≠ []) (hnone : t'.entry? d = none) :
    AddsDirectories t (t'.set d .directory) l := by
  refine ⟨h.home, fun d' => ?_⟩
  rw [entry?_set t' hne]
  split
  · next e =>
    subst e
    rcases h.entries d' with he | ⟨_, _, he⟩
    · exact Or.inr ⟨hd, he ▸ hnone, rfl⟩
    · exact nomatch he.symm.trans hnone
  · exact h.entries d'

theorem prepare_adds {t : Tree} (ht : t.IsPlain) {p : Path} {ns : List Name} {n : Name}
    (hp : p.components = (ns ++ [n]).map .name) :
    AddsDirectories t (t.prepare p).1 (t.home ++ ns) := by
  refine (prepare_induct (P := fun t' => t'.IsPlain ∧ AddsDirectories t t' (t.home ++ ns)) hp ?_
    ⟨ht, addsDirectories_refl ..⟩).2
  rintro q ms hms hq t₁ t₂ ⟨ht₁, hadds⟩ hm
  refine ⟨(makesDirectories_of_makeDirectory ht₁ hq hm).isPlain ht₁, ?_⟩
  obtain ⟨hl, rfl, hnone, -⟩ := makeDirectory_plain ht₁ hq hm
  rw [hadds.home] at hl hnone ⊢
  exact hadds.set ((List.prefix_append_right_inj _).mpr hms) hl hnone

/-- **A text that cannot be saved** leaves nothing but directories above its path. Either one of
them could not be made, or the file could not be written. -/
theorem save_fault {t t' : Tree} (ht : t.IsPlain) {p : Path} {ns : List Name} {n : Name} {s : String}
    {f : SaveFault} (hp : p.components = (ns ++ [n]).map .name) (h : t.save p s = (t', some f)) :
    AddsDirectories t t' (t.home ++ ns) ∧
      (f = .file p ∨ ∃ parent, p.parent? = some parent ∧ f = .directory parent) := by
  have hadds := prepare_adds ht hp
  unfold save at h
  split at h
  · next t₁ f' hprep =>
    obtain ⟨rfl, hf⟩ := Prod.mk.inj h
    obtain rfl := Option.some.inj hf
    rw [hprep] at hadds
    refine ⟨hadds, Or.inr ?_⟩
    unfold prepare at hprep
    split at hprep
    · exact nomatch (Prod.mk.inj hprep).2
    · next parent hm =>
      obtain ⟨f, -, rfl⟩ := Option.map_eq_some_iff.mp (Prod.mk.inj hprep).2
      exact ⟨parent, (Option.filter_eq_some_iff.mp hm).1, rfl⟩
  · next t₁ hprep =>
    rw [hprep] at hadds
    split at h
    · exact nomatch (Prod.mk.inj h).2
    · obtain ⟨rfl, hf⟩ := Prod.mk.inj h
      exact ⟨hadds, Or.inl (Option.some.inj hf).symm⟩

/-! ## A text that is there already -/

theorem exists_of_readText {t : Tree} {p : Path} {s : String} (h : t.readText p = .ok s) :
    ∃ l, t.locate p = .ok l ∧ t.entry? l = some (.file (.text s)) := by
  unfold readText at h
  split at h
  · cases h
  next l hl =>
  refine ⟨l, hl, ?_⟩
  split at h
  · next s' he =>
    cases h
    exact he
  · cases h
  · cases h
  · cases h

/-- **A text that is there already is saved without a change.** -/
theorem save_again {t : Tree} (hs : t.Sound) {p : Path} {ns : List Name} {s : String}
    (hp : p.components = ns.map .name) (hne : ns ≠ []) (h : t.readText p = .ok s) :
    t.save p s = (t, none) := by
  obtain ⟨init, n, rfl⟩ := (List.eq_nil_or_concat ns).resolve_left hne
  rw [List.concat_eq_append] at hp
  obtain ⟨l, hl, he⟩ := exists_of_readText h
  have hne : l ≠ [] := ne_nil_of_ne_directory (t := t) (by simp [he])
  have hparent : t.missingParent? p = none := by
    rw [missingParent?, Option.filter_eq_none_iff]
    intro q hq hmissing
    rw [(parent?_plain hp).1] at hq
    obtain rfl := Option.some.inj hq
    simp only [Bool.and_eq_true, Bool.not_eq_true'] at hmissing
    have hr := (spells_of_components hp).relative
    have hq : ¬(p.take init.length).isEmpty = true := by simp [hmissing.1]
    have hexists := pathExists_of_isPrefix hr hq (segments_take_isPrefix hr hq) hl
    rw [hmissing.2] at hexists
    exact Bool.false_ne_true hexists
  have hwrite : t.writeText p s = .ok t := by
    unfold writeText
    rw [resolve_eq_ok.mpr (locate_eq_ok.mp hl)]
    dsimp only
    rw [he, if_neg (by simp), hs.set_eq hne he]
  rw [save, prepare, hparent]
  dsimp only
  rw [hwrite]

end Tree

end ModelTypings.Files
