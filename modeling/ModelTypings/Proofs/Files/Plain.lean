import Mathlib.Data.List.Induction
import ModelTypings.Proofs.Files.Locate

/-!
# Paths of names in trees without links

* `Tree.IsPlain`, `Tree.StandsFree`: trees without links, and locations that stand in directories;
* **`Tree.reaches_plain`**, `Tree.resolve_plain`, `Tree.lastPlace_plain`: a path of names leads
  where its names say.
-/

namespace ModelTypings.Files

open Files.Path

/-- The location of a place. -/
def Place.location : Place → Location
  | .occupied l => l
  | .vacant d n => d ++ [n]

namespace Tree

/-- A tree without links whose home stands in directories. -/
structure IsPlain (t : Tree) : Prop where
  not_link : ∀ l target, t.entry? l ≠ some (.link target)
  home : ∀ l, l <+: t.home → t.entry? l = some .directory

/-- The locations above `l` hold directories. -/
def StandsFree (t : Tree) (l : Location) : Prop :=
  ∀ d, d <+: l → d ≠ l → t.entry? d = some .directory

theorem StandsFree.concat {t : Tree} {d : Location} (h : t.StandsFree d)
    (hd : t.entry? d = some .directory) (n : Name) : t.StandsFree (d ++ [n]) := by
  intro d' hd' hne
  rcases List.prefix_concat_iff.mp hd' with rfl | hd'
  · exact absurd rfl hne
  · by_cases e : d' = d
    · rw [e, hd]
    · exact h d' hd' e

theorem Sound.standsFree {t : Tree} (hs : t.Sound) {l : Location} {e : Entry}
    (h : t.entry? l = some e) : t.StandsFree l := by
  induction l using List.reverseRecOn generalizing e with
  | nil => exact fun d hd hne => absurd (List.prefix_nil.mp hd) hne
  | append_singleton l n ih =>
    have hd := hs.entry?_dropLast h
    rw [List.dropLast_concat] at hd
    exact (ih hd).concat hd n

theorem Sound.isPlain {t : Tree} (hs : t.Sound)
    (hl : ∀ l target, t.entry? l ≠ some (.link target)) : t.IsPlain where
  not_link := hl
  home l h := by
    by_cases e : l = t.home
    · exact e ▸ hs.home
    · exact hs.standsFree hs.home l h e

/-- **In a tree without links, names lead where they say.** -/
theorem reaches_plain {t : Tree} (ht : ∀ l target, t.entry? l ≠ some (.link target)) {links : Nat}
    {here : Location} {segments : List Name} {place : Place}
    (h : t.Reaches links here segments place) : ∀ {ns : List Name},
      steps segments = ns.map .name → place.location = here ++ ns ∧
        ∀ m, m <+: ns → m ≠ ns → t.entry? (here ++ m) = some .directory := by
  have hname : ∀ {s : Name}, IsStep s → ∀ rest, steps (s :: rest) = .name s :: steps rest := by
    intro s hs rest
    rw [steps, List.filter_cons, if_pos (by simpa using hs.not_filler), List.map_cons, componentOf,
      if_neg hs.not_up]
    rfl
  induction h with
  | done =>
    intro ns e
    obtain rfl := List.map_eq_nil_iff.mp e.symm
    exact ⟨(List.append_nil _).symm, fun m hm hne => absurd (List.prefix_nil.mp hm) hne⟩
  | filler _ hs _ ih =>
    intro ns e
    rw [steps, List.filter_cons, if_neg (by simpa using hs)] at e
    exact ih e
  | up =>
    intro ns e
    obtain ⟨n, _, _, en, _⟩ := List.map_eq_cons_iff.mp e.symm
    cases en
  | @free _ here s hd hs _ =>
    intro ns e
    rw [hname hs] at e
    obtain ⟨n, ns, rfl, en, ens⟩ := List.map_eq_cons_iff.mp e.symm
    obtain rfl := Component.name.inj en
    obtain rfl := List.map_eq_nil_iff.mp ens
    refine ⟨rfl, fun m hm hne => ?_⟩
    rcases List.prefix_cons_iff.mp hm with rfl | ⟨m', rfl, hm'⟩
    · rw [List.append_nil]
      exact hd
    · exact absurd (congrArg _ (List.prefix_nil.mp hm')) hne
  | link _ _ he => exact absurd he (ht _ _)
  | @name _ here s rest _ _ hd hs _ _ _ ih =>
    intro ns e
    rw [hname hs] at e
    obtain ⟨n, ns, rfl, en, ens⟩ := List.map_eq_cons_iff.mp e.symm
    obtain rfl := Component.name.inj en
    obtain ⟨hl, hp⟩ := ih ens.symm
    refine ⟨by rw [hl, List.append_assoc]; rfl, fun m hm hne => ?_⟩
    rcases List.prefix_cons_iff.mp hm with rfl | ⟨m', rfl, hm'⟩
    · rw [List.append_nil]
      exact hd
    · have h := hp m' hm' fun e => hne (congrArg _ e)
      rw [List.append_assoc] at h
      exact h

/-- Names lead from the home of a tree without links to a place that stands in directories. -/
theorem standsFree_of_reaches {t : Tree} (ht : t.IsPlain) {links : Nat} {segments ns : List Name}
    {place : Place} (h : t.Reaches links t.home segments place)
    (hs : steps segments = ns.map .name) :
    place.location = t.home ++ ns ∧ t.StandsFree (t.home ++ ns) := by
  obtain ⟨hl, hd⟩ := reaches_plain ht.not_link h hs
  refine ⟨hl, fun d hd' hne => ?_⟩
  rcases List.prefix_or_prefix_of_prefix hd' (List.prefix_append t.home ns) with h | ⟨m, rfl⟩
  · exact ht.home d h
  · have hm := (List.prefix_append_right_inj t.home).mp hd'
    exact hd m hm fun e => hne (congrArg _ e)

theorem resolve_plain {t : Tree} (ht : t.IsPlain) {p : Path} {ns : List Name} {place : Place}
    (hp : p.Spells ns) (h : t.resolve p = .ok place) :
    place.location = t.home ++ ns ∧ t.StandsFree (t.home ++ ns) := by
  obtain ⟨_, hr⟩ := resolve_eq_ok.mp h
  rw [start, hp.relative] at hr
  exact standsFree_of_reaches ht hr hp.steps

theorem locate_plain {t : Tree} (ht : t.IsPlain) {p : Path} {ns : List Name} {l : Location}
    (hp : p.Spells ns) (h : t.locate p = .ok l) :
    l = t.home ++ ns ∧ t.StandsFree (t.home ++ ns) :=
  resolve_plain ht hp (resolve_eq_ok.mpr (locate_eq_ok.mp h))

/-! ## The last name -/

/-- Segments without the empty ones at the end. -/
def withoutEnd (segments : List Name) : List Name :=
  (segments.reverse.dropWhile (· == .empty)).reverse

theorem withoutEnd_concat {segments init : List Name} {n : Name}
    (h : withoutEnd segments = init ++ [n]) :
    n ≠ .empty ∧ ∃ tail, segments = init ++ n :: tail ∧ ∀ s ∈ tail, s = .empty := by
  constructor
  · have hhead := List.head?_dropWhile_not (· == .empty) segments.reverse
    rw [← List.getLast?_reverse, ← withoutEnd, h, List.getLast?_concat] at hhead
    simpa using hhead
  · refine ⟨(segments.reverse.takeWhile (· == .empty)).reverse, ?_, fun s hs => ?_⟩
    · rw [List.append_cons, ← h, withoutEnd, ← List.reverse_append,
        List.takeWhile_append_dropWhile, List.reverse_reverse]
    · exact beq_iff_eq.mp (List.all_eq_true.mp List.all_takeWhile s (List.mem_reverse.mp hs))

theorem start_concat_empty {t : Tree} {p : Path} {init tail : List Name} {n : Name}
    (hp : p.segments = init ++ n :: tail) (hne : init ≠ []) :
    t.start ⟨init ++ [.empty]⟩ = t.start p := by
  obtain ⟨s, init, rfl⟩ := List.exists_cons_of_ne_nil hne
  have hlong : 0 < init.length + (tail.length + 1) := by omega
  rw [start, start, isAbsolute, isAbsolute, hp]
  simp [hlong]

/-- **The last place of a path** is its last segment, in the directory that those before it lead
to. -/
theorem lastPlace_spec {t : Tree} (hh : t.entry? t.home = some .directory) {p : Path}
    {d : Location} {n : Name} (h : t.lastPlace p = .ok (d, n)) :
    IsUsable p ∧ IsStep n ∧ t.entry? d = some .directory ∧ ∃ init tail,
      p.segments = init ++ n :: tail ∧ (∀ s ∈ tail, s = .empty) ∧
      t.Reaches linkLimit (t.start p) init (.occupied d) := by
  unfold lastPlace at h
  dsimp only at h
  rw [← withoutEnd] at h
  split at h
  · exact nomatch h
  next m hm =>
  obtain ⟨init, hseg⟩ := List.getLast?_eq_some_iff.mp hm
  obtain ⟨hempty, tail, hp, htail⟩ := withoutEnd_concat hseg
  rw [hseg, List.dropLast_concat] at h
  split at h
  · exact nomatch h
  · exact nomatch h
  next d' hparent =>
  split at h
  · exact nomatch h
  next hnul =>
  split at h
  · exact nomatch h
  next hshort =>
  split at h
  · exact nomatch h
  next hlimit =>
  split at h
  · exact nomatch h
  next hdots =>
  obtain ⟨rfl, rfl⟩ := Prod.mk.inj (Except.ok.inj h)
  obtain ⟨hdot, hup⟩ := not_or.mp hdots
  have husable : IsUsable p := by
    refine ⟨by simpa using hnul, fun he => ?_, Nat.not_lt.mp hshort⟩
    rw [isEmpty, hp] at he
    simp [hempty] at he
  refine ⟨husable, ⟨by simp [isFiller, hempty, hdot], hup, Nat.not_lt.mp hlimit⟩, ?_⟩
  suffices hd : t.entry? d' = some .directory ∧
      t.Reaches linkLimit (t.start p) init (.occupied d') from ⟨hd.1, init, tail, hp, htail, hd.2⟩
  split at hparent
  · next hone =>
    obtain rfl := Place.occupied.inj (Except.ok.inj hparent)
    have hnil : init = [] := List.length_eq_zero_iff.mp (by simpa using hone.1)
    rw [start, if_neg (by simpa using hone.2), hnil]
    exact ⟨hh, .done⟩
  · next hone =>
    have hne : init ≠ [] := by
      rintro rfl
      refine hone ⟨rfl, ?_⟩
      rw [isAbsolute, hp]
      simp [hempty]
    obtain ⟨_, hr⟩ := resolve_eq_ok.mp hparent
    rw [start_concat_empty hp hne] at hr
    exact ⟨hr.of_concat_empty.2, hr.of_concat_empty.1⟩

/-- **The last place of a path of names** is its last name, in the directory that those before it
lead to. -/
theorem lastPlace_plain {t : Tree} (ht : t.IsPlain) {p : Path} {ns : List Name} {d : Location}
    {n : Name} (hp : p.Spells ns) (h : t.lastPlace p = .ok (d, n)) :
    d ++ [n] = t.home ++ ns ∧ t.StandsFree (t.home ++ ns) := by
  obtain ⟨_, hn, hd, init, tail, hseg, htail, hr⟩ := lastPlace_spec (ht.home _ List.prefix_rfl) h
  have hlast : steps (n :: tail) = [.name n] := by
    rw [steps, List.filter_cons, if_pos (by simpa using hn.not_filler), List.filter_eq_nil_iff.mpr,
      List.map_singleton, componentOf, if_neg hn.not_up]
    intro s hs
    simp [htail s hs, isFiller]
  have hsteps := hp.steps
  rw [hseg, steps_append, hlast] at hsteps
  obtain ⟨ns', ms, rfl, hinit, hms⟩ := List.map_eq_append_iff.mp hsteps.symm
  obtain ⟨k, rfl, hk⟩ := List.map_eq_singleton_iff.mp hms
  obtain rfl := Component.name.inj hk
  rw [start, hp.relative] at hr
  obtain ⟨rfl, hfree⟩ := standsFree_of_reaches ht hr hinit.symm
  rw [← List.append_assoc]
  exact ⟨rfl, hfree.concat hd k⟩

theorem entry?_of_isDirectory {t : Tree} (ht : t.IsPlain) {p : Path} {ns : List Name}
    (hp : p.Spells ns) (h : t.isDirectory p = true) :
    t.entry? (t.home ++ ns) = some .directory ∧ t.StandsFree (t.home ++ ns) := by
  obtain ⟨l, hl, hd⟩ := isDirectory_iff.mp h
  obtain ⟨rfl, hfree⟩ := locate_plain ht hp hl
  exact ⟨hd, hfree⟩

theorem entry?_ne_none {t : Tree} {l : Location} (hl : t.entry? l = some .directory)
    (hfree : t.StandsFree l) : ∀ d, d <+: l → t.entry? d ≠ none := by
  intro d hd h
  by_cases e : d = l
  · exact nomatch (e ▸ hl).symm.trans h
  · exact nomatch (hfree d hd e).symm.trans h

end Tree

end ModelTypings.Files
