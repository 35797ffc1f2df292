import Mathlib.Data.List.Basic
import ModelTypings.Files.Save

/-!
# Entries and paths in a changing tree

* `Tree.entry?_set`: the entries after a change;
* `Tree.Reaches`, `Tree.follow_eq_ok`: following segments as a relation;
* `Tree.Grows`, `Tree.Reaches.grows`: as long as directories, files and links stay, paths lead to
  the same locations;
* **`Tree.readText_of_save`**: a text that is saved is read back.
-/

namespace ModelTypings.Files

namespace Tree

/-! ## Entries -/

theorem lookup_replace_of_ne {l l' : Location} (h : l' ≠ l) (e : Entry) :
    ∀ xs : List (Location × Entry),
      (xs.map fun p => if p.1 == l then (l, e) else p).lookup l' = xs.lookup l'
  | [] => rfl
  | (k, v) :: xs => by
    have ih := lookup_replace_of_ne h e xs
    rw [List.map_cons]
    by_cases hk : k = l
    · subst hk
      rw [if_pos (beq_self_eq_true _), List.lookup_cons, List.lookup_cons, beq_false_of_ne h, ih]
    · rw [if_neg (by simpa using hk), List.lookup_cons, List.lookup_cons, ih]

theorem lookup_replace_self {l : Location} (e : Entry) : ∀ {xs : List (Location × Entry)},
    (xs.any fun p => p.1 == l) = true →
      (xs.map fun p => if p.1 == l then (l, e) else p).lookup l = some e
  | (k, v) :: xs, h => by
    rw [List.map_cons]
    by_cases hk : k = l
    · subst hk
      rw [if_pos (beq_self_eq_true _), List.lookup_cons_self]
    · rw [List.any_cons, beq_false_of_ne hk, Bool.false_or] at h
      rw [if_neg (by simpa using hk), List.lookup_cons, beq_false_of_ne (Ne.symm hk)]
      exact lookup_replace_self e h

theorem entries_lookup_set (t : Tree) (l : Location) (e : Entry) (l' : Location) :
    (t.set l e).entries.lookup l' = if l' = l then some e else t.entries.lookup l' := by
  unfold set
  dsimp only
  by_cases h : l' = l
  · subst h
    rw [if_pos rfl]
    split
    · next ha => exact lookup_replace_self e ha
    · next ha =>
      have hn : t.entries.lookup l' = none := by
        refine List.lookup_eq_none_iff.mpr fun p hp => ?_
        have hne := List.any_eq_false.mp (Bool.eq_false_iff.mpr ha) p hp
        exact bne_iff_ne.mpr fun h => hne (beq_iff_eq.mpr h.symm)
      rw [List.lookup_append, hn, List.lookup_cons_self]
      rfl
  · rw [if_neg h]
    split
    · exact lookup_replace_of_ne h e _
    · rw [List.lookup_append, List.lookup_cons, beq_false_of_ne h]
      exact Option.or_none

/-- **The entries after a change** at a location other than the root. -/
theorem entry?_set (t : Tree) {l : Location} (hl : l ≠ []) (e : Entry) (l' : Location) :
    entry? (t.set l e) l' = if l' = l then some e else t.entry? l' := by
  unfold entry?
  by_cases hr : l' = []
  · subst hr
    rw [if_neg hl.symm]
    rfl
  · have hr' : ¬l'.isEmpty = true := fun h => hr (List.isEmpty_iff.mp h)
    rw [if_neg hr', if_neg hr', entries_lookup_set]

theorem ne_nil_of_ne_directory {t : Tree} {l : Location} (h : t.entry? l ≠ some .directory) :
    l ≠ [] := by
  rintro rfl
  exact h rfl

/-! ## Following paths -/

/-- The segment names an entry that a directory may have. -/
structure IsStep (s : Name) : Prop where
  not_filler : ¬Path.isFiller s = true
  not_up : s ≠ .up
  short : s.bytes.length ≤ nameLimit

/-- Segments lead from a location to a place, through at most `links` links. -/
inductive Reaches (t : Tree) : Nat → Location → List Name → Place → Prop
  | done {links here} : Reaches t links here [] (.occupied here)
  | filler {links here s rest place} (hd : t.entry? here = some .directory)
      (hs : Path.isFiller s = true) (h : Reaches t links here rest place) :
      Reaches t links here (s :: rest) place
  | up {links here rest place} (hd : t.entry? here = some .directory)
      (h : Reaches t links here.dropLast rest place) : Reaches t links here (.up :: rest) place
  | free {links here s} (hd : t.entry? here = some .directory) (hs : IsStep s)
      (he : t.entry? (here ++ [s]) = none) : Reaches t links here [s] (.vacant here s)
  | link {links here s rest place target} (hd : t.entry? here = some .directory) (hs : IsStep s)
      (he : t.entry? (here ++ [s]) = some (.link target))
      (h : Reaches t links (if target.isAbsolute then [] else here) (target.segments ++ rest) place) :
      Reaches t (links + 1) here (s :: rest) place
  | name {links here s rest place e} (hd : t.entry? here = some .directory) (hs : IsStep s)
      (he : t.entry? (here ++ [s]) = some e) (hl : ∀ target, e ≠ .link target)
      (h : Reaches t links (here ++ [s]) rest place) : Reaches t links here (s :: rest) place

theorem follow_nil (t : Tree) (links : Nat) (here : Location) :
    t.follow links here [] = .ok (.occupied here) := by
  cases links <;> rfl

theorem follow_cons (t : Tree) (links : Nat) (here : Location) (s : Name) (rest : List Name) :
    t.follow links here (s :: rest) =
      if t.entry? here ≠ some .directory then .error .notDirectory
      else if Path.isFiller s then t.follow links here rest
      else if s = .up then t.follow links here.dropLast rest
      else if nameLimit < s.bytes.length then .error .nameTooLong
      else
        match t.entry? (here ++ [s]), links with
        | none, _ => if rest.isEmpty then .ok (.vacant here s) else .error .notFound
        | some (.link _), 0 => .error .tooManyLinks
        | some (.link target), links + 1 =>
          t.follow links (if target.isAbsolute then [] else here) (target.segments ++ rest)
        | some _, _ => t.follow links (here ++ [s]) rest := by
  cases links with
  | zero =>
    rw [follow, followNames]
    cases t.entry? (here ++ [s]) with
    | none => rfl
    | some e => cases e <;> rfl
  | succ links =>
    rw [follow, followNames]
    cases t.entry? (here ++ [s]) with
    | none => rfl
    | some e => cases e <;> rfl

theorem reaches_of_follow {t : Tree} {place : Place} : ∀ (links : Nat) (here : Location)
    (segments : List Name), t.follow links here segments = .ok place →
      t.Reaches links here segments place
  | links, here, [], h => by
    rw [follow_nil] at h
    obtain rfl := Except.ok.inj h
    exact .done
  | links, here, s :: rest, h => by
    rw [follow_cons] at h
    split at h
    · exact nomatch h
    next hd =>
    have hd := not_not.mp hd
    split at h
    · next hs => exact .filler hd hs (reaches_of_follow links here rest h)
    next hf =>
    split at h
    · next hu => exact hu ▸ .up hd (reaches_of_follow links here.dropLast rest h)
    next hu =>
    split at h
    · exact nomatch h
    next hn =>
    have hs : IsStep s := ⟨hf, hu, Nat.not_lt.mp hn⟩
    split at h
    · next he =>
      split at h
      · next hr =>
        obtain rfl := Except.ok.inj h
        obtain rfl := List.isEmpty_iff.mp hr
        exact .free hd hs he
      · exact nomatch h
    · exact nomatch h
    · next he => exact .link hd hs he (reaches_of_follow _ _ _ h)
    · next e he hz hl =>
      refine .name hd hs he ?_ (reaches_of_follow _ (here ++ [s]) rest h)
      rintro target rfl
      rcases Nat.eq_zero_or_eq_succ_pred _ with h0 | h1
      · exact hz target h0 rfl
      · exact hl target _ h1 rfl
termination_by links _ segments => (links, segments.length)

/-- **Following segments succeeds where they lead.** -/
theorem follow_eq_ok {t : Tree} {links : Nat} {here : Location} {segments : List Name}
    {place : Place} : t.follow links here segments = .ok place ↔
      t.Reaches links here segments place := by
  refine ⟨reaches_of_follow links here segments, fun h => ?_⟩
  induction h with
  | done => exact follow_nil ..
  | filler hd hs _ ih => rw [follow_cons, if_neg (not_not.mpr hd), if_pos hs, ih]
  | up hd _ ih => rw [follow_cons, if_neg (not_not.mpr hd), if_neg (by decide), if_pos rfl, ih]
  | free hd hs he =>
    rw [follow_cons, if_neg (not_not.mpr hd), if_neg hs.not_filler, if_neg hs.not_up,
      if_neg (Nat.not_lt.mpr hs.short), he]
    rfl
  | link hd hs he _ ih =>
    rw [follow_cons, if_neg (not_not.mpr hd), if_neg hs.not_filler, if_neg hs.not_up,
      if_neg (Nat.not_lt.mpr hs.short), he]
    exact ih
  | @name _ _ _ _ _ e hd hs he hl _ ih =>
    rw [follow_cons, if_neg (not_not.mpr hd), if_neg hs.not_filler, if_neg hs.not_up,
      if_neg (Nat.not_lt.mpr hs.short), he]
    cases e with
    | link target => exact absurd rfl (hl target)
    | _ => exact ih

/-- The path can be handed to the system at all. -/
structure IsUsable (p : Path) : Prop where
  no_nul : 0 ∉ p.bytes
  not_empty : ¬p.isEmpty = true
  short : p.bytes.length ≤ pathLimit

/-- Where a path starts. -/
def start (t : Tree) (p : Path) : Location := if p.isAbsolute then [] else t.home

/-- **A usable path is resolved to the place its segments lead to.** -/
theorem resolve_eq_ok {t : Tree} {p : Path} {place : Place} : t.resolve p = .ok place ↔
    IsUsable p ∧ t.Reaches linkLimit (t.start p) p.segments place := by
  rw [← follow_eq_ok]
  unfold resolve
  constructor
  · intro h
    split at h
    · exact nomatch h
    next hn =>
    split at h
    · exact nomatch h
    next he =>
    split at h
    · exact nomatch h
    next hs => exact ⟨⟨by simpa using hn, he, Nat.not_lt.mp hs⟩, h⟩
  · rintro ⟨hu, h⟩
    rw [if_neg (by simpa using hu.no_nul), if_neg hu.not_empty, if_neg (Nat.not_lt.mpr hu.short)]
    exact h

theorem locate_eq_ok {t : Tree} {p : Path} {l : Location} : t.locate p = .ok l ↔
    IsUsable p ∧ t.Reaches linkLimit (t.start p) p.segments (.occupied l) := by
  rw [← resolve_eq_ok]
  unfold locate
  cases t.resolve p with
  | error f => exact ⟨fun h => (nomatch h), fun h => (nomatch h)⟩
  | ok place =>
    cases place with
    | vacant d n => exact ⟨fun h => (nomatch h), fun h => (nomatch h)⟩
    | occupied l' =>
      constructor
      · rintro ⟨⟩
        rfl
      · rintro ⟨⟩
        rfl

/-! ## Growing -/

/-- Directories, files and links stay what they are. -/
structure Grows (t t' : Tree) : Prop where
  home : t'.home = t.home
  directory : ∀ {l}, t.entry? l = some .directory → t'.entry? l = some .directory
  link : ∀ {l target}, t.entry? l = some (.link target) → t'.entry? l = some (.link target)
  file : ∀ {l c}, t.entry? l = some (.file c) → ∃ c, t'.entry? l = some (.file c)

theorem Grows.entry {t t' : Tree} (h : t.Grows t') {l : Location} {e : Entry}
    (he : t.entry? l = some e) (hl : ∀ target, e ≠ .link target) :
    ∃ e', t'.entry? l = some e' ∧ ∀ target, e' ≠ .link target := by
  cases e with
  | link target => exact absurd rfl (hl target)
  | directory => exact ⟨_, h.directory he, hl⟩
  | file c =>
    obtain ⟨c', hc⟩ := h.file he
    exact ⟨_, hc, fun _ e => nomatch e⟩

theorem Reaches.grows {t t' : Tree} (hg : t.Grows t') {links : Nat} {here l : Location}
    {segments : List Name} (h : t.Reaches links here segments (.occupied l)) :
    t'.Reaches links here segments (.occupied l) := by
  generalize hp : Place.occupied l = place at h
  induction h with
  | done =>
    cases hp
    exact .done
  | filler hd hs _ ih => exact .filler (hg.directory hd) hs (ih hp)
  | up hd _ ih => exact .up (hg.directory hd) (ih hp)
  | free => exact nomatch hp
  | link hd hs he _ ih => exact .link (hg.directory hd) hs (hg.link he) (ih hp)
  | name hd hs he hl _ ih =>
    obtain ⟨e', he', hl'⟩ := hg.entry he hl
    exact .name (hg.directory hd) hs he' hl' (ih hp)

theorem locate_grows {t t' : Tree} (hg : t.Grows t') {p : Path} {l : Location}
    (h : t.locate p = .ok l) : t'.locate p = .ok l := by
  obtain ⟨hu, hr⟩ := locate_eq_ok.mp h
  have hstart : t'.start p = t.start p := by rw [start, start, hg.home]
  exact locate_eq_ok.mpr ⟨hu, hstart ▸ hr.grows hg⟩

/-- A free name that segments lead to is reached once it stands for an entry. -/
theorem Reaches.grows_vacant {t t' : Tree} (hg : t.Grows t') {links : Nat} {here d : Location}
    {n : Name} {segments : List Name} (h : t.Reaches links here segments (.vacant d n))
    {e : Entry} (he : t'.entry? (d ++ [n]) = some e) (hl : ∀ target, e ≠ .link target) :
    t'.Reaches links here segments (.occupied (d ++ [n])) := by
  generalize hp : Place.vacant d n = place at h
  induction h with
  | done => exact nomatch hp
  | filler hd hs _ ih => exact .filler (hg.directory hd) hs (ih hp)
  | up hd _ ih => exact .up (hg.directory hd) (ih hp)
  | free hd hs _ =>
    cases hp
    exact .name (hg.directory hd) hs he hl .done
  | link hd hs he _ ih => exact .link (hg.directory hd) hs (hg.link he) (ih hp)
  | name hd hs he hl _ ih =>
    obtain ⟨e', he', hl'⟩ := hg.entry he hl
    exact .name (hg.directory hd) hs he' hl' (ih hp)

theorem Reaches.entry?_vacant {t : Tree} {links : Nat} {here d : Location} {n : Name}
    {segments : List Name} (h : t.Reaches links here segments (.vacant d n)) :
    t.entry? (d ++ [n]) = none := by
  generalize hp : Place.vacant d n = place at h
  induction h with
  | done => exact nomatch hp
  | filler _ _ _ ih | up _ _ ih | link _ _ _ _ ih | name _ _ _ _ _ ih => exact ih hp
  | free _ _ he =>
    cases hp
    exact he

theorem grows_set {t : Tree} {l : Location} (hl : l ≠ []) (c : Content)
    (h : ∀ e, t.entry? l = some e → ∃ c, e = .file c) : t.Grows (t.set l (.file c)) where
  home := rfl
  directory {l'} h' := by
    rw [entry?_set t hl, if_neg, h']
    rintro rfl
    obtain ⟨_, e⟩ := h _ h'
    exact nomatch e
  link {l' target} h' := by
    rw [entry?_set t hl, if_neg, h']
    rintro rfl
    obtain ⟨_, e⟩ := h _ h'
    exact nomatch e
  file {l' c'} h' := by
    rw [entry?_set t hl]
    split
    · exact ⟨c, rfl⟩
    · exact ⟨c', h'⟩

theorem grows_set_new {t : Tree} {l : Location} (hl : t.entry? l = none) (e : Entry) :
    t.Grows (t.set l e) := by
  have hne : l ≠ [] := ne_nil_of_ne_directory (t := t) (by simp [hl])
  have hkept : ∀ {l' e'}, t.entry? l' = some e' → entry? (t.set l e) l' = some e' := by
    intro l' e' h
    rw [entry?_set t hne, if_neg, h]
    rintro rfl
    exact nomatch hl.symm.trans h
  exact ⟨rfl, hkept, hkept, fun h => ⟨_, hkept h⟩⟩

/-! ## Links at the end -/

/-- From outside a link, segments lead to nothing at the link or below it. -/
theorem Reaches.not_below {t : Tree} {a : Location} {target : Path}
    (ha : t.entry? a = some (.link target)) {links : Nat} {here l : Location}
    {segments : List Name} (h : t.Reaches links here segments (.occupied l)) (hh : ¬a <+: here) :
    ¬a <+: l := by
  generalize hp : Place.occupied l = place at h
  induction h with
  | done =>
    cases hp
    exact hh
  | filler _ _ _ ih => exact ih hh hp
  | up _ _ ih => exact ih (fun h => hh (h.trans (List.dropLast_prefix _))) hp
  | free => exact nomatch hp
  | link _ _ _ _ ih =>
    refine ih ?_ hp
    split
    · intro h
      obtain rfl := List.prefix_nil.mp h
      exact nomatch ha
    · exact hh
  | @name _ here s _ _ _ _ _ he hl _ ih =>
    refine ih (fun h => ?_) hp
    rcases List.prefix_concat_iff.mp h with rfl | h
    · exact hl target (Option.some.inj (he.symm.trans ha))
    · exact hh h

theorem Reaches.set_link {t : Tree} {a : Location} {target : Path}
    (ha : t.entry? a = some (.link target)) (c : Content) {links : Nat} {here : Location}
    {segments : List Name} (h : t.Reaches links here segments (.occupied a)) :
    (t.set a (.file c)).Reaches links here segments (.occupied a) := by
  have hn : a ≠ [] := ne_nil_of_ne_directory (by rw [ha]; exact fun h => nomatch h)
  have hd : ∀ {l}, t.entry? l = some .directory →
      entry? (t.set a (.file c)) l = some .directory := by
    intro l hl
    rw [entry?_set t hn, if_neg, hl]
    rintro rfl
    exact nomatch ha.symm.trans hl
  generalize hp : Place.occupied a = place at h
  induction h with
  | done =>
    cases hp
    exact .done
  | filler h hs _ ih => exact .filler (hd h) hs (ih hp)
  | up h _ ih => exact .up (hd h) (ih hp)
  | free => exact nomatch hp
  | @link _ here s _ _ _ h hs he hr ih =>
    refine .link (hd h) hs ?_ (ih hp)
    rw [entry?_set t hn, if_neg, he]
    rintro rfl
    refine (hp ▸ hr).not_below ha ?_ List.prefix_rfl
    split
    · exact fun h => hn (List.prefix_nil.mp h)
    · intro h
      have hl := h.length_le
      rw [List.length_append, List.length_singleton] at hl
      exact Nat.not_succ_le_self _ hl
  | @name _ here s _ _ e h hs he hl _ ih =>
    refine .name (hd h) hs (e := e) ?_ hl (ih hp)
    rw [entry?_set t hn, if_neg, he]
    rintro rfl
    exact hl target (Option.some.inj (he.symm.trans ha))

/-! ## Texts -/

/-- **A text is written** at the place that its path leads to, which is no directory. The path leads
there afterwards. -/
theorem writeText_spec {t t' : Tree} {p : Path} {s : String} (h : t.writeText p s = .ok t') :
    ∃ l, t' = t.set l (.file (.text s)) ∧ t.entry? l ≠ some .directory ∧ t'.locate p = .ok l ∧
      (t.resolve p = .ok (.occupied l) ∨
        ∃ d n, l = d ++ [n] ∧ t.resolve p = .ok (.vacant d n)) := by
  unfold writeText at h
  split at h
  · exact nomatch h
  · next d n hr =>
    have hn : d ++ [n] ≠ [] := by simp
    obtain ⟨hu, hf⟩ := resolve_eq_ok.mp hr
    have hnone := hf.entry?_vacant
    refine ⟨d ++ [n], (Except.ok.inj h).symm, by simp [hnone], ?_, Or.inr ⟨d, n, rfl, hr⟩⟩
    obtain rfl := Except.ok.inj h
    refine locate_eq_ok.mpr ⟨hu, ?_⟩
    have hg := grows_set hn (.text s) fun e he => by
      rw [hnone] at he
      exact nomatch he
    have he : entry? (t.set (d ++ [n]) (.file (.text s))) (d ++ [n]) = some (.file (.text s)) := by
      rw [entry?_set t hn, if_pos rfl]
    exact hf.grows_vacant hg he fun _ e => nomatch e
  · next l hr =>
    split at h
    · exact nomatch h
    next hd =>
      refine ⟨l, (Except.ok.inj h).symm, hd, ?_, Or.inl hr⟩
      obtain rfl := Except.ok.inj h
      have hn : l ≠ [] := ne_nil_of_ne_directory hd
      obtain ⟨hu, hf⟩ := resolve_eq_ok.mp hr
      refine locate_eq_ok.mpr ⟨hu, ?_⟩
      by_cases hk : ∃ target, t.entry? l = some (.link target)
      · obtain ⟨_, he⟩ := hk
        exact hf.set_link he _
      · refine hf.grows (grows_set hn _ fun e he => ?_)
        cases e with
        | file c => exact ⟨c, rfl⟩
        | link target => exact absurd ⟨target, he⟩ hk
        | directory => exact absurd he hd

/-- **A text that is written is read back.** -/
theorem readText_of_writeText {t t' : Tree} {p : Path} {s : String}
    (h : t.writeText p s = .ok t') : t'.readText p = .ok s := by
  obtain ⟨l, rfl, hd, hl, _⟩ := writeText_spec h
  simp only [readText, hl, entry?_set t (ne_nil_of_ne_directory hd), if_pos]

/-- **A text that is saved is read back.** -/
theorem readText_of_save {t t' : Tree} {p : Path} {s : String} (h : t.save p s = (t', none)) :
    t'.readText p = .ok s := by
  unfold save at h
  split at h
  · exact nomatch h
  · next t'' _ =>
    split at h
    · next hw =>
      obtain rfl := (Prod.mk.inj h).1
      exact readText_of_writeText hw
    · exact nomatch h

end Tree

end ModelTypings.Files
