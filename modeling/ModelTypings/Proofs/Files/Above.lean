import ModelTypings.Proofs.Files.Kept

/-!
# Saving under any path

Paths of any kind in sound trees, with links or without.

* `Tree.makeDirectory_spec`: what making one directory changes;
* `Tree.AddsAbove`, `Tree.prepare_adds_above`: preparing a path makes nothing but directories
  that paths above it lead to;
* **`Tree.save_spec`**: saving a text changes nothing else but the file at the path;
* `Tree.LeadsToNew`, `Tree.makeChain_new`: directories made without a step up;
* **`Tree.up_of_prepare`**, `Tree.save_new`: when the file is new.
-/

namespace ModelTypings.Files

open Files.Path

namespace Tree

/-! ## One directory -/

theorem reaches_fillers {t : Tree} {links : Nat} {l : Location} (hd : t.entry? l = some .directory) :
    ∀ {fs : List Name}, (∀ f ∈ fs, isFiller f = true) → t.Reaches links l fs (.occupied l)
  | [], _ => .done
  | f :: _, hf => .filler hd (hf f List.mem_cons_self)
      (reaches_fillers hd fun g hg => hf g (List.mem_cons_of_mem f hg))

/-- **Making a directory** puts it at a free name of a directory. Its path leads there afterwards. -/
theorem makeDirectory_spec {t t' : Tree} (hh : t.entry? t.home = some .directory) {p : Path}
    (h : t.makeDirectory p = .ok t') : ∃ d n, t' = t.set (d ++ [n]) .directory ∧
      t.entry? (d ++ [n]) = none ∧ t.entry? d = some .directory ∧ n ∈ p.segments ∧ IsStep n ∧
      t'.locate p = .ok (d ++ [n]) := by
  unfold makeDirectory at h
  split at h
  · cases h
  next d n hl =>
  split at h
  · cases h
  next hnone =>
  obtain rfl := Except.ok.inj h
  obtain ⟨hu, hn, hd, init, tail, hseg, htail, hr⟩ := lastPlace_spec hh hl
  refine ⟨d, n, rfl, hnone, hd, by simp [hseg], hn, locate_eq_ok.mpr ⟨hu, ?_⟩⟩
  have hg := grows_set_new hnone .directory
  have hnew : entry? (t.set (d ++ [n]) .directory) (d ++ [n]) = some .directory := by
    rw [entry?_set t (by simp), if_pos rfl]
  have hfillers : ∀ f ∈ tail, isFiller f = true := fun f hf => by simp [htail f hf, isFiller]
  obtain ⟨k, hk⟩ := follow_append (hr.grows hg)
  rw [hseg, ← follow_eq_ok]
  refine (hk _).trans (follow_eq_ok.mpr ?_)
  exact .name (hg.directory hd) hn hnew (fun _ e => by cases e) (reaches_fillers hnew hfillers)

theorem Sound.makeDirectory_of_no_slash {t t' : Tree} (hs : t.Sound) {p : Path}
    (hp : ∀ s ∈ p.segments, slash ∉ s.bytes) (h : t.makeDirectory p = .ok t') : t'.Sound := by
  obtain ⟨d, n, rfl, hnone, hd, hmem, hn, -⟩ := makeDirectory_spec hs.home h
  exact hs.set_concat hd ⟨hn.not_filler, hn.not_up, hp n hmem⟩ fun _ => rfl

/-! ## The directories above -/

/-- The second tree has nothing new but directories that paths above `p` lead to. -/
structure AddsAbove (t t' : Tree) (p : Path) : Prop where
  home : t'.home = t.home
  entries : ∀ l, t'.entry? l = t.entry? l ∨
    t.entry? l = none ∧ t'.entry? l = some .directory ∧ ∃ q ∈ p.above, t'.locate q = .ok l

namespace AddsAbove

variable {t t' t'' : Tree} {p : Path}

theorem refl (t : Tree) (p : Path) : AddsAbove t t p := ⟨rfl, fun _ => Or.inl rfl⟩

theorem entry? (h : AddsAbove t t' p) {l : Location} {e : Entry} (he : t.entry? l = some e) :
    t'.entry? l = some e := by
  rcases h.entries l with hl | ⟨hl, -⟩
  · exact hl.trans he
  · exact nomatch hl.symm.trans he

theorem makeDirectory (h : AddsAbove t t' p) (hh : t.entry? t.home = some .directory) {q : Path}
    (hq : q ∈ p.above) (hm : t'.makeDirectory q = .ok t'') : AddsAbove t t'' p := by
  obtain ⟨d, n, rfl, hnone, -, -, -, hl⟩ := makeDirectory_spec (h.home ▸ h.entry? hh) hm
  have hg := grows_set_new hnone .directory
  refine ⟨h.home, fun l => ?_⟩
  rw [entry?_set t' (by simp)]
  split
  · next e =>
    subst e
    refine Or.inr ⟨?_, rfl, q, hq, hl⟩
    rcases h.entries (d ++ [n]) with he | ⟨he, -⟩
    · exact he ▸ hnone
    · exact he
  · rcases h.entries l with he | ⟨he, hdir, r, hr, hlocate⟩
    · exact Or.inl he
    · exact Or.inr ⟨he, hdir, r, hr, locate_grows hg hlocate⟩

end AddsAbove

/-- **Preparing a path** makes directories above it, whether it succeeds or not. -/
theorem prepare_adds_above {t : Tree} (hs : t.Sound) {p : Path}
    (hp : ∀ s ∈ p.segments, slash ∉ s.bytes) :
    AddsAbove t (t.prepare p).1 p ∧ (t.prepare p).1.Sound := by
  refine prepare_keeps (P := fun t' => AddsAbove t t' p ∧ t'.Sound) ?_ ⟨.refl t p, hs⟩
  rintro q hq t₁ t₂ ⟨hadds, hs₁⟩ hm
  exact ⟨hadds.makeDirectory hs.home hq hm, hs₁.makeDirectory_of_no_slash (no_slash_above hp hq) hm⟩

/-! ## Saving -/

theorem save_eq_none {t t' : Tree} {p : Path} {s : String} (h : t.save p s = (t', none)) :
    ∃ t₁, t.prepare p = (t₁, none) ∧ t₁.writeText p s = .ok t' := by
  unfold save at h
  split at h
  · exact nomatch (Prod.mk.inj h).2
  next t₁ hprepare =>
  split at h
  · next hw =>
    obtain rfl := (Prod.mk.inj h).1
    exact ⟨t₁, hprepare, hw⟩
  · exact nomatch (Prod.mk.inj h).2

theorem save_eq_some {t t' : Tree} {p : Path} {s : String} {f : SaveFault}
    (h : t.save p s = (t', some f)) : t' = (t.prepare p).1 := by
  unfold save at h
  split at h
  · next hprepare => rw [hprepare, (Prod.mk.inj h).1]
  next hprepare =>
  split at h
  · exact nomatch (Prod.mk.inj h).2
  · rw [hprepare, (Prod.mk.inj h).1]

/-- The second tree has a file with the text at `l`, where the path leads, and otherwise nothing new
but directories that paths above it lead to. -/
structure WritesAt (t t' : Tree) (p : Path) (l : Location) (s : String) : Prop where
  locate : t'.locate p = .ok l
  file : t'.entry? l = some (.file (.text s))
  not_directory : t.entry? l ≠ some .directory
  others : ∀ d, d ≠ l → t'.entry? d = t.entry? d ∨
    t.entry? d = none ∧ t'.entry? d = some .directory ∧ ∃ q ∈ p.above, t'.locate q = .ok d

/-- **Saving a text** changes nothing else but the file at the path. -/
theorem save_spec {t t' : Tree} (hs : t.Sound) {p : Path} (hp : ∀ s ∈ p.segments, slash ∉ s.bytes)
    {s : String} (h : t.save p s = (t', none)) : ∃ l, WritesAt t t' p l s := by
  obtain ⟨t₁, hprepare, hw⟩ := save_eq_none h
  obtain ⟨hadds, hs₁⟩ := prepare_adds_above hs hp
  rw [hprepare] at hadds hs₁
  obtain ⟨l, rfl, hd, hl, hplace⟩ := writeText_spec hw
  have hne : l ≠ [] := ne_nil_of_ne_directory hd
  have hg : t₁.Grows (t₁.set l (.file (.text s))) := by
    refine grows_set hne _ fun e he => ?_
    rcases hplace with hr | ⟨d, n, rfl, hr⟩
    · have hlocate := locate_eq_ok.mpr (resolve_eq_ok.mp hr)
      obtain ⟨c, hc⟩ := (hs₁.entry?_of_locate hlocate).resolve_left hd
      exact ⟨c, Option.some.inj (he.symm.trans hc)⟩
    · exact nomatch (resolve_eq_ok.mp hr).2.entry?_vacant.symm.trans he
  refine ⟨l, hl, by rw [entry?_set t₁ hne, if_pos rfl], fun h => hd (hadds.entry? h), ?_⟩
  intro d hdl
  rw [entry?_set t₁ hne, if_neg hdl]
  rcases hadds.entries d with he | ⟨he, hdir, q, hq, hlocate⟩
  · exact Or.inl he
  · exact Or.inr ⟨he, hdir, q, hq, locate_grows hg hlocate⟩

/-! ## One step from a location -/

theorem Reaches.of_fillers {t : Tree} {links : Nat} {here : Location} {rest : List Name}
    {place : Place} : ∀ {fs : List Name}, (∀ f ∈ fs, isFiller f = true) →
      t.Reaches links here (fs ++ rest) place → t.Reaches links here rest place
  | [], _, h => h
  | f :: fs, hf, h => by
    obtain ⟨hfirst, hf⟩ := List.forall_mem_cons.mp hf
    rw [List.cons_append] at h
    generalize hx : fs ++ rest = xs at h
    cases h with
    | filler _ _ h => exact of_fillers hf (hx ▸ h)
    | up => exact absurd hfirst (by decide)
    | free _ hs | link _ hs | name _ hs => exact absurd hfirst hs.not_filler

variable {t t' : Tree} {p q : Path} {s : Name} {here : Location}

/-- A path that continues one to a location, where nothing has the next name, leads to no entry. -/
theorem not_locate_of_continues (h : p.Continues q s) (hq : t.locate q = .ok here)
    (hnone : t.entry? (here ++ [s]) = none) (l : Location) : t.locate p ≠ .ok l := by
  intro hp
  obtain ⟨-, hr⟩ := locate_eq_ok.mp hq
  obtain ⟨-, hr'⟩ := locate_eq_ok.mp hp
  obtain ⟨fs, rest, hseg, hfs⟩ := h.segments
  obtain ⟨k, hk⟩ := follow_append hr
  rw [start, h.isAbsolute, ← start, hseg, ← follow_eq_ok, hk, follow_eq_ok] at hr'
  cases hr'.of_fillers hfs with
  | filler _ hs => exact h.not_filler hs
  | up => exact h.not_up rfl
  | link _ _ he => exact absurd (he.symm.trans hnone) (Option.some_ne_none _)
  | name _ _ he => exact absurd (he.symm.trans hnone) (Option.some_ne_none _)

/-! ## Without a step up -/

/-- The path leads to a directory that was not there, and nothing else is new but directories on the
way down to it. -/
structure LeadsToNew (t t' : Tree) (p : Path) (l : Location) : Prop where
  locate : t'.locate p = .ok l
  was_free : t.entry? l = none
  adds : AddsDirectories t t' l

theorem LeadsToNew.entry?_concat (hs : t.Sound) (h : LeadsToNew t t' p here) (s : Name) :
    t'.entry? (here ++ [s]) = none := by
  have hbelow : ¬here ++ [s] <+: here := fun h => by
    have hlen := h.length_le
    rw [List.length_append, List.length_singleton] at hlen
    omega
  rw [h.adds.entry?_of_not hbelow]
  refine Option.eq_none_iff_forall_ne_some.mpr fun e he => ?_
  have hparent := hs.entry?_dropLast he
  rw [List.dropLast_concat] at hparent
  exact nomatch h.was_free.symm.trans hparent

theorem leadsToNew_of_makeDirectory (hs : t.Sound) (h : t.makeDirectory p = .ok t') :
    ∃ l, LeadsToNew t t' p l := by
  obtain ⟨d, n, rfl, hnone, -, -, -, hl⟩ := makeDirectory_spec hs.home h
  exact ⟨d ++ [n], hl, hnone, (addsDirectories_refl t _).set List.prefix_rfl (by simp) hnone⟩

theorem LeadsToNew.makeDirectory (hs : t.Sound) (h : LeadsToNew t t' q here)
    (hp : p.Continues q s) {t'' : Tree} (hm : t'.makeDirectory p = .ok t'') :
    LeadsToNew t t'' p (here ++ [s]) := by
  have hh : t'.entry? t'.home = some .directory := by
    rcases h.adds.entries t.home with he | ⟨-, he, -⟩
    · rw [h.adds.home, he, hs.home]
    · exact nomatch he.symm.trans hs.home
  obtain ⟨d, n, rfl, hnone, -, -, -, hl⟩ := makeDirectory_spec hh hm
  have hg := grows_set_new hnone .directory
  have hfree := h.entry?_concat hs s
  have hnext : d ++ [n] = here ++ [s] := by
    by_contra hne
    refine not_locate_of_continues hp (locate_grows hg h.locate) ?_ _ hl
    rw [entry?_set t' (by simp), if_neg (Ne.symm hne), hfree]
  rw [hnext] at hl hg ⊢
  have hwas : t.entry? (here ++ [s]) = none := by
    rcases h.adds.entries (here ++ [s]) with he | ⟨-, he, -⟩
    · exact he ▸ hfree
    · exact he
  have hadds : AddsDirectories t t' (here ++ [s]) :=
    ⟨h.adds.home, fun d => (h.adds.entries d).imp_right fun ⟨hd, he⟩ =>
      ⟨hd.trans (List.prefix_append ..), he⟩⟩
  exact ⟨hl, hwas, hadds.set List.prefix_rfl (by simp) hfree⟩

/-- **Making a chain of directories** without a step up leads to a new one, or changes nothing. -/
theorem makeChain_new (hs : t.Sound) {above : List Path} (ha : IsAscent p above) :
    ∀ {t' : Tree}, t.makeChain (p :: above) = (t', none) → t' = t ∨ ∃ l, LeadsToNew t t' p l := by
  induction ha with
  | top =>
    intro t' h
    rw [makeChain] at h
    split at h
    · next hm =>
      obtain rfl := (Prod.mk.inj h).1
      exact Or.inr (leadsToNew_of_makeDirectory hs hm)
    · exact absurd (Prod.mk.inj h).2 (Option.some_ne_none _)
    · split at h
      · exact Or.inl (Prod.mk.inj h).1.symm
      · exact absurd (Prod.mk.inj h).2 (Option.some_ne_none _)
  | @step p q s above hp _ ih =>
    intro t' h
    rw [makeChain] at h
    split at h
    · next hm =>
      obtain rfl := (Prod.mk.inj h).1
      exact Or.inr (leadsToNew_of_makeDirectory hs hm)
    · split at h
      · exact absurd (Prod.mk.inj h).2 (Option.some_ne_none _)
      next t₁ habove =>
      rcases ih habove with rfl | ⟨here, hnew⟩
      · split at h
        · next hm =>
          obtain rfl := (Prod.mk.inj h).1
          exact Or.inr (leadsToNew_of_makeDirectory hs hm)
        · split at h
          · exact Or.inl (Prod.mk.inj h).1.symm
          · exact absurd (Prod.mk.inj h).2 (Option.some_ne_none _)
      · split at h
        · next hm =>
          obtain rfl := (Prod.mk.inj h).1
          exact Or.inr ⟨_, hnew.makeDirectory hs hp hm⟩
        · split at h
          · next hd =>
            -- the directory above has no entries
            obtain ⟨l, hl, -⟩ := isDirectory_iff.mp hd
            exact absurd hl (not_locate_of_continues hp hnew.locate (hnew.entry?_concat hs s) l)
          · exact absurd (Prod.mk.inj h).2 (Option.some_ne_none _)
    · split at h
      · exact Or.inl (Prod.mk.inj h).1.symm
      · exact absurd (Prod.mk.inj h).2 (Option.some_ne_none _)

theorem pathExists_root (t : Tree) : t.pathExists ⟨[.empty, .empty]⟩ = true := by
  have hl : t.locate ⟨[.empty, .empty]⟩ = .ok [] :=
    locate_eq_ok.mpr ⟨⟨by decide, by decide, by decide⟩, .filler rfl rfl (.filler rfl rfl .done)⟩
  rw [pathExists, hl]

/-- **Preparing a path does not make it exist**, unless it leads up from a missing directory. -/
theorem up_of_prepare (hs : t.Sound) (hp : t.pathExists p = false)
    (h : t.prepare p = (t', none)) (hexists : t'.pathExists p = true) :
    .up ∈ p.components ∧ t.missingParent? p ≠ none := by
  unfold prepare at h
  cases hm : t.missingParent? p with
  | none =>
    rw [hm] at h
    obtain rfl := (Prod.mk.inj h).1
    exact nomatch hp.symm.trans hexists
  | some q =>
    rw [hm] at h
    refine ⟨?_, Option.some_ne_none q⟩
    by_contra hup
    obtain ⟨hq, hmissing⟩ := Option.filter_eq_some_iff.mp hm
    rw [Bool.and_eq_true, Bool.not_eq_true', Bool.not_eq_true'] at hmissing
    have hne : ¬q.isEmpty = true := by simp [hmissing.1]
    have hroot : q ≠ ⟨[.empty, .empty]⟩ := by
      rintro rfl
      exact nomatch t.pathExists_root.symm.trans hmissing.2
    have hupq : .up ∉ q.components := by
      rw [parent?_eq_some hq, components_take]
      exact fun h => hup (List.mem_of_mem_take h)
    obtain ⟨s, hs'⟩ := continues_parent hup hq hne hroot
    obtain ⟨above, ha, hascent⟩ := isAscent_ancestors hupq
    obtain ⟨h1, h2⟩ := Prod.mk.inj h
    have hmade : t.makeDirectories q = (t', none) := Prod.ext h1 (Option.map_eq_none_iff.mp h2)
    rw [makeDirectories, if_neg hne, ha] at hmade
    rcases makeChain_new hs hascent hmade with rfl | ⟨here, hnew⟩
    · exact nomatch hp.symm.trans hexists
    · unfold pathExists at hexists
      split at hexists
      · next l hl => exact not_locate_of_continues hs' hnew.locate (hnew.entry?_concat hs s) l hl
      · exact nomatch hexists

/-- **A text is saved to a new file** if its path leads to nothing once it is prepared. -/
theorem save_new (hs : t.Sound) (hslash : ∀ s ∈ p.segments, slash ∉ s.bytes)
    (hp : (t.prepare p).1.pathExists p = false) {text : String} (h : t.save p text = (t', none))
    {l : Location} (hl : t'.locate p = .ok l) : t.entry? l = none := by
  obtain ⟨t₁, hprepare, hw⟩ := save_eq_none h
  have hadds := (prepare_adds_above hs hslash).1
  rw [hprepare] at hp hadds
  obtain ⟨l', rfl, -, hl', hplace⟩ := writeText_spec hw
  obtain rfl := Except.ok.inj (hl.symm.trans hl')
  rcases hplace with hr | ⟨d, n, rfl, hr⟩
  · rw [pathExists, locate_eq_ok.mpr (resolve_eq_ok.mp hr)] at hp
    exact Bool.noConfusion hp
  · have hfree := (resolve_eq_ok.mp hr).2.entry?_vacant
    exact Option.eq_none_iff_forall_ne_some.mpr fun e he =>
      absurd ((hadds.entry? he).symm.trans hfree) (Option.some_ne_none _)

end Tree

end ModelTypings.Files
