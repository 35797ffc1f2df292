import Mathlib.Data.List.Nodup
import ModelTypings.Files.Walk
import ModelTypings.Proofs.Files.Path
import ModelTypings.Proofs.Files.Tree

/-!
# Locations of entries below a path

* `Tree.Sound`: the trees that a disk can hold;
* `Tree.mem_names`, `Tree.names_sorted`: the names in a directory;
* `Tree.follow_append`: segments are followed one part after another;
* **`Tree.locate_child`**, `Tree.locate_of_child`: the entry of a name in a directory;
* `Tree.locate_below_back`: what names lead to in a tree that has grown.
-/

namespace ModelTypings.Files

open Files.Path

namespace Tree

/-! ## Sound trees -/

/-- **A tree that a disk can hold.** Every location is listed once, is made of names and stands in a
directory. The home directory is a directory. -/
structure Sound (t : Tree) : Prop where
  nodup : (t.entries.map Prod.fst).Nodup
  names : ∀ p ∈ t.entries, p.1 ≠ [] ∧ ∀ n ∈ p.1, IsName n
  parent : ∀ p ∈ t.entries, t.entry? p.1.dropLast = some .directory
  home : t.entry? t.home = some .directory

instance (n : Name) : Decidable (IsName n) :=
  decidable_of_iff (¬isFiller n = true ∧ n ≠ .up ∧ slash ∉ n.bytes)
    ⟨fun ⟨h, h', h''⟩ => ⟨h, h', h''⟩, fun h => ⟨h.not_filler, h.not_up, h.no_slash⟩⟩

instance (t : Tree) : Decidable t.Sound :=
  decidable_of_iff ((t.entries.map Prod.fst).Nodup ∧
      (∀ p ∈ t.entries, p.1 ≠ [] ∧ ∀ n ∈ p.1, IsName n) ∧
      (∀ p ∈ t.entries, t.entry? p.1.dropLast = some .directory) ∧
      t.entry? t.home = some .directory)
    ⟨fun ⟨h, h', h'', h'''⟩ => ⟨h, h', h'', h'''⟩, fun h => ⟨h.nodup, h.names, h.parent, h.home⟩⟩

theorem mem_entries_of_eq_some {t : Tree} {l : Location} {e : Entry} (hl : l ≠ [])
    (h : t.entry? l = some e) : (l, e) ∈ t.entries := by
  unfold entry? at h
  rw [if_neg fun h => hl (List.isEmpty_iff.mp h)] at h
  exact mem_of_lookup h

theorem not_link_of_entries {t : Tree} (h : ∀ p ∈ t.entries, ∀ target, p.2 ≠ .link target)
    (l : Location) (target : Path) : t.entry? l ≠ some (.link target) := by
  intro he
  have hl : l ≠ [] := ne_nil_of_ne_directory (t := t) (by simp [he])
  exact h _ (mem_entries_of_eq_some hl he) target rfl

theorem Sound.isName {t : Tree} (hs : t.Sound) {l : Location} {n : Name} {e : Entry}
    (h : t.entry? (l ++ [n]) = some e) : IsName n :=
  (hs.names _ (mem_entries_of_eq_some (by simp) h)).2 n (by simp)

theorem Sound.entry?_dropLast {t : Tree} (hs : t.Sound) {l : Location} {e : Entry}
    (h : t.entry? l = some e) : t.entry? l.dropLast = some .directory := by
  by_cases hl : l = []
  · rw [hl]
    rfl
  · exact hs.parent _ (mem_entries_of_eq_some hl h)

/-! ## The names in a directory -/

theorem mem_insertName {n m : Name} : ∀ {ms : List Name},
    m ∈ insertName n ms ↔ m = n ∨ m ∈ ms
  | [] => by rw [insertName, List.mem_singleton, List.mem_nil_iff, or_false]
  | k :: ms => by
    rw [insertName]
    split
    · rw [List.mem_cons, List.mem_cons, mem_insertName, or_left_comm]
    · rw [List.mem_cons]

theorem mem_foldr_insertName {m : Name} : ∀ {ns : List Name},
    m ∈ ns.foldr insertName [] ↔ m ∈ ns
  | [] => Iff.rfl
  | n :: ns => by rw [List.foldr_cons, mem_insertName, mem_foldr_insertName, List.mem_cons]

theorem insertName_sorted {n : Name} : ∀ {ms : List Name}, n ∉ ms → ms.Pairwise (· < ·) →
    (insertName n ms).Pairwise (· < ·)
  | [], _, _ => List.pairwise_singleton ..
  | k :: ms, hn, h => by
    obtain ⟨hk, hms⟩ := List.pairwise_cons.mp h
    rw [insertName]
    split
    · next lt =>
      refine List.pairwise_cons.mpr ⟨fun m hm => ?_,
        insertName_sorted (fun h => hn (List.mem_cons_of_mem _ h)) hms⟩
      rcases mem_insertName.mp hm with rfl | hm
      · exact lt
      · exact hk m hm
    · next nlt =>
      have hlt : n < k := Name.lt_of_not_lt nlt fun e => hn (e ▸ List.mem_cons_self)
      refine List.pairwise_cons.mpr ⟨fun m hm => ?_, h⟩
      rcases List.mem_cons.mp hm with rfl | hm
      · exact hlt
      · exact Name.lt_trans hlt (hk m hm)

theorem foldr_insertName_sorted : ∀ {ns : List Name}, ns.Nodup →
    (ns.foldr insertName []).Pairwise (· < ·)
  | [], _ => List.Pairwise.nil
  | n :: ns, h => by
    obtain ⟨hn, hns⟩ := List.nodup_cons.mp h
    exact insertName_sorted (fun h => hn (mem_foldr_insertName.mp h)) (foldr_insertName_sorted hns)

/-- The name that a location has in a directory. -/
def nameIn? (d l : Location) : Option Name :=
  match l.getLast? with
  | some n => if l.dropLast == d then some n else none
  | none => none

theorem nameIn?_eq_some {d l : Location} {n : Name} : nameIn? d l = some n ↔ l = d ++ [n] := by
  unfold nameIn?
  constructor
  · intro h
    split at h
    · next m hm =>
      split at h
      · next hd =>
        obtain ⟨init, rfl⟩ := List.getLast?_eq_some_iff.mp hm
        rw [List.dropLast_concat] at hd
        rw [beq_iff_eq.mp hd, Option.some.inj h]
      · exact nomatch h
    · exact nomatch h
  · rintro rfl
    rw [List.getLast?_concat, List.dropLast_concat]
    exact if_pos (beq_self_eq_true d)

theorem names_eq (t : Tree) (d : Location) :
    t.names d = ((t.entries.map Prod.fst).filterMap (nameIn? d)).foldr insertName [] := by
  rw [List.filterMap_map]
  rfl

theorem mem_names {t : Tree} {d : Location} {n : Name} :
    n ∈ t.names d ↔ ∃ e, t.entry? (d ++ [n]) = some e := by
  have hn : d ++ [n] ≠ [] := by simp
  rw [names_eq, mem_foldr_insertName, List.mem_filterMap]
  constructor
  · rintro ⟨l, hl, h⟩
    obtain rfl := nameIn?_eq_some.mp h
    obtain ⟨p, hp, e⟩ := List.mem_map.mp hl
    unfold entry?
    rw [if_neg fun h => hn (List.isEmpty_iff.mp h)]
    exact Option.ne_none_iff_exists'.mp fun h =>
      absurd (List.lookup_eq_none_iff.mp h p hp) (by simp [e])
  · rintro ⟨e, h⟩
    have hm := mem_entries_of_eq_some hn h
    exact ⟨d ++ [n], List.mem_map.mpr ⟨_, hm, rfl⟩, nameIn?_eq_some.mpr rfl⟩

/-- **The names in a directory are in order**, without repetition. -/
theorem Sound.names_sorted {t : Tree} (hs : t.Sound) (d : Location) :
    (t.names d).Pairwise (· < ·) := by
  rw [names_eq]
  refine foldr_insertName_sorted (List.Nodup.filterMap (fun l l' n h h' => ?_) hs.nodup)
  rw [nameIn?_eq_some.mp h, nameIn?_eq_some.mp h']

/-! ## Segments one after another -/

theorem follow_append {t : Tree} {links : Nat} {here l : Location} {xs : List Name}
    (h : t.Reaches links here xs (.occupied l)) :
    ∃ k, ∀ ys, t.follow links here (xs ++ ys) = t.follow k l ys := by
  generalize hp : Place.occupied l = place at h
  induction h with
  | @done links here =>
    cases hp
    exact ⟨links, fun _ => rfl⟩
  | filler hd hs _ ih =>
    obtain ⟨k, hk⟩ := ih hp
    refine ⟨k, fun ys => ?_⟩
    rw [List.cons_append, follow_cons, if_neg (not_not.mpr hd), if_pos hs, hk]
  | up hd _ ih =>
    obtain ⟨k, hk⟩ := ih hp
    refine ⟨k, fun ys => ?_⟩
    rw [List.cons_append, follow_cons, if_neg (not_not.mpr hd), if_neg (by decide), if_pos rfl, hk]
  | free => exact nomatch hp
  | link hd hs he _ ih =>
    obtain ⟨k, hk⟩ := ih hp
    refine ⟨k, fun ys => ?_⟩
    rw [List.cons_append, follow_cons, if_neg (not_not.mpr hd), if_neg hs.not_filler,
      if_neg hs.not_up, if_neg (Nat.not_lt.mpr hs.short), he, ← hk, List.append_assoc]
  | @name _ _ _ _ _ e hd hs he hl _ ih =>
    obtain ⟨k, hk⟩ := ih hp
    refine ⟨k, fun ys => ?_⟩
    rw [List.cons_append, follow_cons, if_neg (not_not.mpr hd), if_neg hs.not_filler,
      if_neg hs.not_up, if_neg (Nat.not_lt.mpr hs.short), he, ← hk]
    cases e with
    | link target => exact absurd rfl (hl target)
    | _ => rfl

theorem Reaches.of_append {t : Tree} {links : Nat} {here l : Location} {xs ys : List Name}
    (h : t.Reaches links here (xs ++ ys) (.occupied l)) :
    ∃ l', t.Reaches links here xs (.occupied l') := by
  generalize hp : Place.occupied l = place at h
  generalize hz : xs ++ ys = zs at h
  induction h generalizing xs with
  | done =>
    obtain ⟨rfl, rfl⟩ := List.append_eq_nil_iff.mp hz
    exact ⟨_, .done⟩
  | free => exact nomatch hp
  | filler hd hs _ ih =>
    cases xs with
    | nil => exact ⟨_, .done⟩
    | cons x xs =>
      obtain ⟨rfl, rfl⟩ := List.cons.inj hz
      obtain ⟨l', h'⟩ := ih hp rfl
      exact ⟨l', .filler hd hs h'⟩
  | up hd _ ih =>
    cases xs with
    | nil => exact ⟨_, .done⟩
    | cons x xs =>
      obtain ⟨rfl, rfl⟩ := List.cons.inj hz
      obtain ⟨l', h'⟩ := ih hp rfl
      exact ⟨l', .up hd h'⟩
  | link hd hs he _ ih =>
    cases xs with
    | nil => exact ⟨_, .done⟩
    | cons x xs =>
      obtain ⟨rfl, rfl⟩ := List.cons.inj hz
      obtain ⟨l', h'⟩ := ih hp (List.append_assoc ..)
      exact ⟨l', .link hd hs he h'⟩
  | name hd hs he hl _ ih =>
    cases xs with
    | nil => exact ⟨_, .done⟩
    | cons x xs =>
      obtain ⟨rfl, rfl⟩ := List.cons.inj hz
      obtain ⟨l', h'⟩ := ih hp rfl
      exact ⟨l', .name hd hs he hl h'⟩

/-! ## The entry of a name -/

theorem IsUsable.of_isPrefix {p q : Path} (h : IsUsable p) (hq : ¬q.isEmpty = true)
    (hb : q.bytes <+: p.bytes) : IsUsable q :=
  ⟨fun hc => h.no_nul (hb.subset hc), hq, hb.length_le.trans h.short⟩

theorem IsUsable.of_child {p : Path} {n : Name} (h : IsUsable (p.child n))
    (hp : ¬p.isEmpty = true) : IsUsable p :=
  h.of_isPrefix hp (p.bytes_prefix_child n)

theorem pathExists_of_isPrefix {t : Tree} {p q : Path} {l : Location} (hr : p.isAbsolute = false)
    (hq : ¬q.isEmpty = true) (hpre : q.segments <+: p.segments) (h : t.locate p = .ok l) :
    t.pathExists q = true := by
  obtain ⟨hu, hreach⟩ := locate_eq_ok.mp h
  have husable := hu.of_isPrefix hq (bytes_prefix_of_segments hpre)
  obtain ⟨rest, hpre⟩ := hpre
  have hq : q.isAbsolute = false := by
    rw [isAbsolute, ← hpre] at hr
    rw [isAbsolute]
    cases hseg : q.segments with
    | nil => rfl
    | cons first segments =>
      rw [hseg] at hr
      simp at hr ⊢
      intro hfirst
      exact (hr hfirst).1
  rw [start, hr, ← hpre] at hreach
  obtain ⟨l', hl'⟩ := hreach.of_append
  have hlocate : t.locate q = .ok l' := by
    refine locate_eq_ok.mpr ⟨husable, ?_⟩
    rw [start, hq]
    exact hl'
  rw [pathExists, hlocate]

theorem start_child (t : Tree) {p : Path} (hp : ¬p.isEmpty = true) (n : Name) :
    t.start (p.child n) = t.start p := by
  rw [start, start, isAbsolute_child hp]

theorem Reaches.of_concat_empty {t : Tree} {links : Nat} {here l : Location} {init : List Name}
    (h : t.Reaches links here (init ++ [.empty]) (.occupied l)) :
    t.Reaches links here init (.occupied l) ∧ t.entry? l = some .directory := by
  obtain ⟨l', h'⟩ := h.of_append
  obtain ⟨k, hk⟩ := follow_append h'
  have hf : isFiller .empty = true := rfl
  have he := follow_eq_ok.mpr h
  rw [hk, follow_cons, if_pos hf, follow_nil] at he
  split at he
  · exact nomatch he
  · next hd =>
    cases he
    exact ⟨h', not_not.mp hd⟩

theorem reaches_base {t : Tree} {links : Nat} {here l : Location} {p : Path}
    (h : t.Reaches links here p.segments (.occupied l)) :
    t.Reaches links here p.base (.occupied l) := by
  unfold base
  split
  · next hl =>
    obtain ⟨init, hi⟩ := List.getLast?_eq_some_iff.mp hl
    rw [hi] at h ⊢
    rw [List.dropLast_concat]
    exact h.of_concat_empty.1
  · exact h

theorem Reaches.segments_of_base {t : Tree} {links : Nat} {here l : Location} {p : Path}
    (h : t.Reaches links here p.base (.occupied l)) (hd : t.entry? l = some .directory) :
    t.Reaches links here p.segments (.occupied l) := by
  unfold base at h
  split at h
  · next hl =>
    obtain ⟨init, hi⟩ := List.getLast?_eq_some_iff.mp hl
    rw [hi] at h ⊢
    rw [List.dropLast_concat] at h
    obtain ⟨k, hk⟩ := follow_append h
    rw [← follow_eq_ok, hk, follow_eq_ok]
    exact .filler hd rfl .done
  · exact h

theorem reaches_name {t : Tree} {links : Nat} {here l : Location} {n : Name} (hn : IsName n)
    (h : t.Reaches links here [n] (.occupied l)) : t.entry? here = some .directory ∧
      ((∃ target, t.entry? (here ++ [n]) = some (.link target)) ∨
        l = here ++ [n] ∧ ∃ e, t.entry? l = some e) := by
  cases h with
  | filler _ hs => exact absurd hs hn.not_filler
  | up => exact absurd rfl hn.not_up
  | link hd _ he => exact ⟨hd, Or.inl ⟨_, he⟩⟩
  | name hd _ he _ h =>
    cases h
    exact ⟨hd, Or.inr ⟨rfl, _, he⟩⟩

/-- The entry of a directory stands in that directory, if the path of the directory is not empty. -/
theorem locate_of_child {t : Tree} {p : Path} {n : Name} {l : Location}
    (hp : ¬p.isEmpty = true) (hn : IsName n) (h : t.locate (p.child n) = .ok l) :
    ∃ here, t.locate p = .ok here ∧ t.entry? here = some .directory := by
  obtain ⟨hu, hr⟩ := locate_eq_ok.mp h
  rw [start_child t hp, child_eq] at hr
  obtain ⟨here, hb⟩ := hr.of_append
  obtain ⟨k, hk⟩ := follow_append hb
  have hf := follow_eq_ok.mpr hr
  rw [hk, follow_eq_ok] at hf
  have hd := (reaches_name hn hf).1
  exact ⟨here, locate_eq_ok.mpr ⟨hu.of_child hp, hb.segments_of_base hd⟩, hd⟩

/-- **The entry of a name in a directory** is at the location of that name, unless it is a link. -/
theorem locate_child {t : Tree} {p : Path} {n : Name} {here l : Location}
    (hp : t.locate p = .ok here) (hn : IsName n) (h : t.locate (p.child n) = .ok l) :
    (∃ target, t.entry? (here ++ [n]) = some (.link target)) ∨
      l = here ++ [n] ∧ ∃ e, t.entry? l = some e := by
  obtain ⟨hu, hr⟩ := locate_eq_ok.mp hp
  obtain ⟨hu', hr'⟩ := locate_eq_ok.mp h
  obtain ⟨k, hk⟩ := follow_append (reaches_base hr)
  rw [start_child t hu.not_empty, child_eq, ← follow_eq_ok, hk, follow_eq_ok] at hr'
  exact (reaches_name hn hr').2

theorem start_below (t : Tree) {p : Path} (hp : ¬p.isEmpty = true) {names : List Name}
    (hn : ∀ n ∈ names, IsName n) : t.start (p.below names) = t.start p := by
  induction names generalizing p with
  | nil => rfl
  | cons n names ih =>
    obtain ⟨hfirst, hrest⟩ := List.forall_mem_cons.mp hn
    rw [below_cons, ih (not_isEmpty_child p hfirst.ne_empty) hrest, start_child t hp]

/-! ## Back to an earlier tree -/

/-- Names that lead downwards without links do so wherever the entries on the way are the same. -/
theorem Reaches.names_back {t t' : Tree} (ht : ∀ l target, t'.entry? l ≠ some (.link target))
    {links : Nat} {here l : Location} {names : List Name}
    (h : t'.Reaches links here names (.occupied l)) (hn : ∀ n ∈ names, IsName n)
    (he : ∀ d, d <+: l → t.entry? d = t'.entry? d) :
    here <+: l ∧ ∀ k, t.Reaches k here names (.occupied l) := by
  generalize hp : Place.occupied l = place at h
  induction h with
  | done =>
    cases hp
    exact ⟨List.prefix_rfl, fun _ => .done⟩
  | filler _ hs => exact absurd hs (hn _ List.mem_cons_self).not_filler
  | up => exact absurd rfl (hn _ List.mem_cons_self).not_up
  | free => exact nomatch hp
  | link _ _ hlink => exact absurd hlink (ht _ _)
  | name hd hs hentry hl _ ih =>
    obtain ⟨hpre, hreach⟩ := ih (fun n hm => hn n (List.mem_cons_of_mem _ hm)) hp
    have hhere := (List.prefix_append ..).trans hpre
    exact ⟨hhere, fun k =>
      .name ((he _ hhere).trans hd) hs ((he _ hpre).trans hentry) hl (hreach k)⟩

/-- **What names lead to in a tree that has grown without links, they led to before**, if it was
there. -/
theorem locate_below_back {t t' : Tree} (ht : ∀ l target, t'.entry? l ≠ some (.link target))
    (hg : t.Grows t') {p : Path} {here l : Location} {names : List Name}
    (hp : t.locate p = .ok here) (hne : names ≠ []) (hn : ∀ n ∈ names, IsName n)
    (h : t'.locate (p.below names) = .ok l) (he : ∀ d, d <+: l → t.entry? d = t'.entry? d) :
    t.locate (p.below names) = .ok l := by
  obtain ⟨hu, hr⟩ := locate_eq_ok.mp h
  obtain ⟨hup, hrp⟩ := locate_eq_ok.mp hp
  have hrp' := (locate_eq_ok.mp (locate_grows hg hp)).2
  have hsegments := below_eq p hne fun n hm => (hn n hm).ne_empty
  rw [start_below t' hup.not_empty hn, hsegments] at hr
  obtain ⟨k', hk'⟩ := follow_append (reaches_base hrp')
  obtain ⟨k, hk⟩ := follow_append (reaches_base hrp)
  rw [← follow_eq_ok, hk', follow_eq_ok] at hr
  refine locate_eq_ok.mpr ⟨hu, ?_⟩
  rw [start_below t hup.not_empty hn, hsegments, ← follow_eq_ok, hk, follow_eq_ok]
  exact (hr.names_back ht hn he).2 k

/-! ## What paths reach -/

theorem isDirectory_iff {t : Tree} {p : Path} :
    t.isDirectory p = true ↔ ∃ l, t.locate p = .ok l ∧ t.entry? l = some .directory := by
  rw [isDirectory]
  cases t.locate p with
  | error f => exact ⟨fun h => (nomatch h), fun ⟨_, h, _⟩ => (nomatch h)⟩
  | ok l =>
    constructor
    · exact fun h => ⟨l, rfl, beq_iff_eq.mp h⟩
    · rintro ⟨l', h, he⟩
      obtain rfl := Except.ok.inj h
      exact beq_iff_eq.mpr he

theorem pathExists_of_isDirectory {t : Tree} {p : Path} (h : t.isDirectory p = true) :
    t.pathExists p = true := by
  obtain ⟨l, hl, -⟩ := isDirectory_iff.mp h
  rw [pathExists, hl]

theorem Sound.entry?_of_reaches {t : Tree} (hs : t.Sound) {links : Nat} {here l : Location}
    {segments : List Name} (h : t.Reaches links here segments (.occupied l))
    (hh : ∃ e, t.entry? here = some e ∧ ∀ target, e ≠ .link target) :
    ∃ e, t.entry? l = some e ∧ ∀ target, e ≠ .link target := by
  have hdir : ∀ {d}, t.entry? d = some .directory →
      ∃ e, t.entry? d = some e ∧ ∀ target, e ≠ .link target :=
    fun h => ⟨_, h, fun _ e => nomatch e⟩
  generalize hp : Place.occupied l = place at h
  induction h with
  | done =>
    cases hp
    exact hh
  | filler _ _ _ ih => exact ih hh hp
  | up hd _ ih => exact ih (hdir (hs.entry?_dropLast hd)) hp
  | free => exact nomatch hp
  | link hd _ _ _ ih =>
    refine ih (hdir ?_) hp
    split
    · rfl
    · exact hd
  | name _ _ he hl _ ih => exact ih ⟨_, he, hl⟩ hp

/-- **A path reaches a file or a directory.** -/
theorem Sound.entry?_of_locate {t : Tree} (hs : t.Sound) {p : Path} {l : Location}
    (h : t.locate p = .ok l) :
    t.entry? l = some .directory ∨ ∃ c, t.entry? l = some (.file c) := by
  have hstart : t.entry? (t.start p) = some .directory := by
    unfold start
    split
    · rfl
    · exact hs.home
  obtain ⟨e, he, hl⟩ := hs.entry?_of_reaches (locate_eq_ok.mp h).2 ⟨_, hstart, fun _ e => nomatch e⟩
  cases e with
  | link target => exact absurd rfl (hl target)
  | directory => exact Or.inl he
  | file c => exact Or.inr ⟨c, he⟩

end Tree

end ModelTypings.Files
