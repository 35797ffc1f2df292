import ModelTypings.Proofs.Files.Locate

/-!
# The files that a walk meets

* `Tree.IsFileOf`, `Tree.Enters`, `Tree.visits_meets`: what a walk does at a name;
* `Tree.Lists`, `Tree.lists_flatMap`: files in the order of the names that lead there;
* `Tree.Yields`, `Tree.walkBelow_files`: the files below a directory, by the names that lead there;
* `Tree.LinkOnWay`, `Tree.IsWalked`, `Tree.yields_iff`: the same without the walk;
* **`Tree.walk_files`**: a walk meets the files that the names lead to, in the order of the names.
-/

namespace ModelTypings.Files

open Files.Path

/-- The file that a visit meets. -/
def Visit.file? : Visit → Option Path
  | .file p => some p
  | _ => none

namespace Tree

variable {t : Tree} {exclude : List String} {recursive : Bool} {above : List (Location × Path)}
  {directory : Path} {here : Location} {n : Name}

/-! ## One name -/

/-- The name stands for a file that is not left out. -/
def IsFileOf (t : Tree) (exclude : List String) (directory : Path) (n : Name) : Prop :=
  n.text ∉ exclude ∧ ∃ l c, t.locate (directory.child n) = .ok l ∧ t.entry? l = some (.file c)

/-- The name stands for the directory at `l`, which a walk enters. -/
structure Enters (t : Tree) (exclude : List String) (recursive : Bool)
    (above : List (Location × Path)) (directory : Path) (here : Location) (n : Name)
    (l : Location) : Prop where
  included : n.text ∉ exclude
  deep : recursive = true
  located : t.locate (directory.child n) = .ok l
  isDirectory : t.entry? l = some .directory
  new : ∀ target, t.entry? (here ++ [n]) = some (.link target) → l ∉ above.map Prod.fst

/-- The visits at a name of a directory. -/
def visits (t : Tree) (exclude : List String) (recursive : Bool) (above : List (Location × Path))
    (directory : Path) (here : Location) (n : Name) : List Visit :=
  match t.entry? (here ++ [n]) with
  | some (.link _) =>
    match t.locate (directory.child n) with
    | .error f => [.fault (.unreadable (directory.child n) f)]
    | .ok l =>
      match t.entry? l with
      | some .directory =>
        match above.find? fun a => a.1 == l with
        | some a => [.fault (.loop (directory.child n) a.2)]
        | none =>
          if exclude.contains n.text then [.excluded (directory.child n)]
          else if recursive then
            t.walkBelow exclude recursive ((l, directory.child n) :: above) (directory.child n) l
          else []
      | _ =>
        if exclude.contains n.text then [.excluded (directory.child n)]
        else [.file (directory.child n)]
  | some .directory =>
    if exclude.contains n.text then [.excluded (directory.child n)]
    else if recursive then
      match t.locate (directory.child n) with
      | .error f => [.fault (.unreadable (directory.child n) f)]
      | .ok _ =>
        t.walkBelow exclude recursive ((here ++ [n], directory.child n) :: above)
          (directory.child n) (here ++ [n])
    else []
  | _ =>
    if exclude.contains n.text then [.excluded (directory.child n)]
    else if t.pathExists (directory.child n) then [.file (directory.child n)]
    else []

theorem walkBelow_eq (t : Tree) (exclude : List String) (recursive : Bool)
    (above : List (Location × Path)) (directory : Path) (here : Location) :
    t.walkBelow exclude recursive above directory here =
      (t.names here).flatMap (t.visits exclude recursive above directory here) := by
  rw [walkBelow]
  refine congrArg (fun f => (t.names here).flatMap f) (funext fun n => ?_)
  unfold visits
  dsimp only
  generalize t.entry? (here ++ [n]) = e?
  match e? with
  | none | some (.file _) | some .directory => rfl
  | some (.link _) =>
    dsimp only
    generalize t.locate (directory.child n) = l?
    match l? with
    | .error _ => rfl
    | .ok l =>
      dsimp only
      generalize t.entry? l = e?
      match e? with
      | none | some (.file _) | some (.link _) => rfl
      | some .directory =>
        dsimp only
        generalize above.find? (fun a => a.1 == l) = a?
        cases a? <;> rfl

theorem visits_of_mem (h : n.text ∈ exclude) :
    (t.visits exclude recursive above directory here n).filterMap Visit.file? = [] := by
  unfold visits
  rw [List.contains_iff_mem.mpr h]
  split
  · split
    · rfl
    · split
      · split <;> rfl
      · rfl
  · rfl
  · rfl

theorem find?_above {l : Location} :
    above.find? (fun a => a.1 == l) = none ↔ l ∉ above.map Prod.fst := by
  rw [List.find?_eq_none, List.mem_map]
  constructor
  · rintro h ⟨a, ha, rfl⟩
    exact h a ha (beq_self_eq_true _)
  · rintro h a ha he
    exact h ⟨a, ha, beq_iff_eq.mp he⟩

/-- What a walk does at a name. -/
inductive Meets (t : Tree) (exclude : List String) (recursive : Bool)
    (above : List (Location × Path)) (directory : Path) (here : Location) (n : Name)
    (seen : List Visit) : Prop
  /-- It meets a file. -/
  | file (h : t.IsFileOf exclude directory n)
      (hseen : seen.filterMap Visit.file? = [directory.child n])
  /-- It goes on in a directory. -/
  | enters (l : Location) (h : t.Enters exclude recursive above directory here n l)
      (hseen : seen =
        t.walkBelow exclude recursive ((l, directory.child n) :: above) (directory.child n) l)
  /-- It passes by. -/
  | passes (h : ¬t.IsFileOf exclude directory n)
      (hl : ∀ l, ¬t.Enters exclude recursive above directory here n l)
      (hseen : seen.filterMap Visit.file? = [])

theorem not_isFileOf_of_directory {l : Location} (hl : t.locate (directory.child n) = .ok l)
    (hd : t.entry? l = some .directory) : ¬t.IsFileOf exclude directory n := by
  rintro ⟨_, l', c, h, hc⟩
  obtain rfl := Except.ok.inj (h.symm.trans hl)
  exact nomatch hd.symm.trans hc

theorem meets_of_error {e : Entry} {f : Fault} (hx : n.text ∉ exclude)
    (he : t.entry? (here ++ [n]) = some e) (hl : t.locate (directory.child n) = .error f) :
    t.Meets exclude recursive above directory here n
      (t.visits exclude recursive above directory here n) := by
  have hx' : exclude.contains n.text = false := by simpa using hx
  have hp : t.pathExists (directory.child n) = false := by rw [pathExists, hl]
  unfold visits
  rw [he, hx', hl]
  refine .passes ?_ ?_ ?_
  · rintro ⟨_, l, c, h, _⟩
    cases h.symm.trans hl
  · rintro l h
    cases h.located.symm.trans hl
  · cases e with
    | file c =>
      rw [hp]
      rfl
    | link target => rfl
    | directory => cases recursive <;> rfl

/-- A link is what it leads to, unless that is a directory above. -/
theorem meets_link {target : Path} {l : Location} (hs : t.Sound) (hx : n.text ∉ exclude)
    (he : t.entry? (here ++ [n]) = some (.link target))
    (hl : t.locate (directory.child n) = .ok l) :
    t.Meets exclude recursive above directory here n
      (t.visits exclude recursive above directory here n) := by
  have hx' : exclude.contains n.text = false := by simpa using hx
  unfold visits
  rw [he, hx', hl]
  dsimp only
  rcases hs.entry?_of_locate hl with h | ⟨c, h⟩
  · have hf : ¬t.IsFileOf exclude directory n := not_isFileOf_of_directory hl h
    rw [h]
    dsimp only
    cases ha : above.find? fun a => a.1 == l with
    | some a =>
      refine .passes hf (fun l' h' => ?_) rfl
      obtain rfl := Except.ok.inj (h'.located.symm.trans hl)
      exact nomatch ha.symm.trans (find?_above.mpr (h'.new _ he))
    | none =>
      cases recursive with
      | false => exact .passes hf (fun _ h => nomatch h.deep) rfl
      | true => exact .enters l ⟨hx, rfl, hl, h, fun _ _ => find?_above.mp ha⟩ rfl
  · rw [h]
    exact .file ⟨hx, l, c, hl, h⟩ rfl

/-- **What a walk does at a name** of a directory. -/
theorem visits_meets (hs : t.Sound) (hd : t.locate directory = .ok here) (hn : n ∈ t.names here) :
    t.Meets exclude recursive above directory here n
      (t.visits exclude recursive above directory here n) := by
  by_cases hx : n.text ∈ exclude
  · exact .passes (fun h => h.1 hx) (fun l h => h.included hx) (visits_of_mem hx)
  obtain ⟨e, he⟩ := mem_names.mp hn
  cases hl : t.locate (directory.child n) with
  | error f => exact meets_of_error hx he hl
  | ok l =>
    rcases locate_child hd (hs.isName he) hl with ⟨target, hlink⟩ | ⟨rfl, _⟩
    · exact meets_link hs hx hlink hl
    have hx' : exclude.contains n.text = false := by simpa using hx
    cases e with
    | link target => exact meets_link hs hx he hl
    | file c =>
      have hp : t.pathExists (directory.child n) = true := by rw [pathExists, hl]
      unfold visits
      rw [he, hx', hp]
      exact .file ⟨hx, _, c, hl, he⟩ rfl
    | directory =>
      unfold visits
      rw [he, hx', hl]
      cases recursive with
      | false =>
        exact .passes (not_isFileOf_of_directory hl he) (fun _ h => Bool.false_ne_true h.deep) rfl
      | true => exact .enters _ ⟨hx, rfl, hl, he, fun _ h => absurd (he.symm.trans h) (by simp)⟩ rfl

/-! ## A directory -/

/-- The names lead to a file that a walk meets below a directory. -/
def Yields (t : Tree) (exclude : List String) (recursive : Bool) :
    List (Location × Path) → Path → Location → List Name → Prop
  | _, _, _, [] => False
  | _, directory, here, [n] => n ∈ t.names here ∧ t.IsFileOf exclude directory n
  | above, directory, here, n :: m :: names =>
    n ∈ t.names here ∧ ∃ l, t.Enters exclude recursive above directory here n l ∧
      t.Yields exclude recursive ((l, directory.child n) :: above) (directory.child n) l (m :: names)

theorem Enters.location_eq {l l' : Location}
    (h : t.Enters exclude recursive above directory here n l)
    (h' : t.Enters exclude recursive above directory here n l') : l = l' :=
  Except.ok.inj (h.located.symm.trans h'.located)

theorem Enters.not_isFileOf {l : Location}
    (h : t.Enters exclude recursive above directory here n l) :
    ¬t.IsFileOf exclude directory n := by
  rintro ⟨_, l', c, hl, hc⟩
  obtain rfl := Except.ok.inj (h.located.symm.trans hl)
  exact nomatch h.isDirectory.symm.trans hc

/-- The files are those that the names with a property lead to, in the order of the names. -/
def Lists (files : List Path) (p : Path) (Q : List Name → Prop) : Prop :=
  ∃ nss : List (List Name), files = nss.map p.below ∧ nss.Pairwise (· < ·) ∧ ∀ ns, ns ∈ nss ↔ Q ns

section Lists

variable {files : List Path} {p : Path} {Q Q' : List Name → Prop}

theorem Lists.congr (h : Lists files p Q) (hq : ∀ ns, Q ns ↔ Q' ns) : Lists files p Q' := by
  obtain ⟨nss, hf, hp, hm⟩ := h
  exact ⟨nss, hf, hp, fun ns => (hm ns).trans (hq ns)⟩

theorem lists_nil (hq : ∀ ns, ¬Q ns) : Lists [] p Q :=
  ⟨[], rfl, List.Pairwise.nil, fun ns => ⟨fun h => (nomatch h), fun h => absurd h (hq ns)⟩⟩

theorem lists_singleton (p : Path) (n : Name) : Lists [p.child n] p fun ns => ns = [n] :=
  ⟨[[n]], rfl, List.pairwise_singleton .., fun _ => List.mem_singleton⟩

theorem Lists.cons (h : Lists files (p.child n) Q) :
    Lists files p fun ns => ∃ ms, ns = n :: ms ∧ Q ms := by
  obtain ⟨nss, hf, hp, hm⟩ := h
  refine ⟨nss.map (n :: ·), ?_, ?_, fun ns => ?_⟩
  · rw [hf, List.map_map]
    rfl
  · exact List.pairwise_map.mpr (hp.imp fun h => List.cons_lt_cons_iff.mpr (Or.inr ⟨rfl, h⟩))
  · rw [List.mem_map]
    constructor
    · rintro ⟨ms, hms, rfl⟩
      exact ⟨ms, rfl, (hm ms).mp hms⟩
    · rintro ⟨ms, rfl, hq⟩
      exact ⟨ms, (hm ms).mpr hq, rfl⟩

theorem lists_flatMap {f : Name → List Path} : ∀ {ns : List Name}, ns.Pairwise (· < ·) →
    (∀ n ∈ ns, Lists (f n) p fun ms => (∃ ks, ms = n :: ks) ∧ Q ms) →
      Lists (ns.flatMap f) p fun ms => (∃ n ∈ ns, ∃ ks, ms = n :: ks) ∧ Q ms
  | [], _, _ => lists_nil fun _ ⟨⟨_, hn, _⟩, _⟩ => nomatch hn
  | n :: ns, hs, h => by
    obtain ⟨hn, hs⟩ := List.pairwise_cons.mp hs
    obtain ⟨hfirst, hrest⟩ := List.forall_mem_cons.mp h
    obtain ⟨nss, hf, hp, hm⟩ := hfirst
    obtain ⟨nss', hf', hp', hm'⟩ := lists_flatMap hs hrest
    refine ⟨nss ++ nss', ?_, ?_, fun ms => ?_⟩
    · rw [List.flatMap_cons, hf, hf', List.map_append]
    · refine List.pairwise_append.mpr ⟨hp, hp', fun ms hms ks hks => ?_⟩
      obtain ⟨⟨ms', rfl⟩, _⟩ := (hm ms).mp hms
      obtain ⟨⟨k, hk, ks', rfl⟩, _⟩ := (hm' ks).mp hks
      exact List.cons_lt_cons_iff.mpr (Or.inl (hn k hk))
    · rw [List.mem_append, hm, hm', ← or_and_right]
      simp only [List.exists_mem_cons_iff]

end Lists

theorem visits_files (hs : t.Sound) (hd : t.locate directory = .ok here) (hn : n ∈ t.names here)
    (ih : ∀ l, t.Enters exclude recursive above directory here n l →
      Lists ((t.walkBelow exclude recursive ((l, directory.child n) :: above) (directory.child n)
          l).filterMap Visit.file?) (directory.child n)
        (t.Yields exclude recursive ((l, directory.child n) :: above) (directory.child n) l)) :
    Lists ((t.visits exclude recursive above directory here n).filterMap Visit.file?) directory
      fun ns => (∃ ms, ns = n :: ms) ∧ t.Yields exclude recursive above directory here ns := by
  cases visits_meets hs hd hn with
  | file hf hv =>
    rw [hv]
    refine (lists_singleton directory n).congr fun ns => ⟨?_, ?_⟩
    · rintro rfl
      exact ⟨⟨[], rfl⟩, hn, hf⟩
    · rintro ⟨⟨ms, rfl⟩, hy⟩
      cases ms with
      | nil => rfl
      | cons m ms =>
        obtain ⟨_, l, hl, _⟩ := hy
        exact absurd hf hl.not_isFileOf
  | enters l hl hv =>
    rw [hv]
    refine (ih l hl).cons.congr fun ns => ⟨?_, ?_⟩
    · rintro ⟨ms, rfl, hy⟩
      cases ms with
      | nil => exact hy.elim
      | cons m ms => exact ⟨⟨_, rfl⟩, hn, l, hl, hy⟩
    · rintro ⟨⟨ms, rfl⟩, hy⟩
      cases ms with
      | nil => exact absurd hy.2 hl.not_isFileOf
      | cons m ms =>
        obtain ⟨_, l', hl', hy⟩ := hy
        obtain rfl := hl.location_eq hl'
        exact ⟨m :: ms, rfl, hy⟩
  | passes hf hl hv =>
    rw [hv]
    refine lists_nil ?_
    rintro _ ⟨⟨ms, rfl⟩, hy⟩
    cases ms with
    | nil => exact hf hy.2
    | cons m ms =>
      obtain ⟨_, l, h, _⟩ := hy
      exact hl l h

/-- **The files that a walk meets below a directory**, in the order of the names to them. -/
theorem walkBelow_files (hs : t.Sound) (above : List (Location × Path)) (directory : Path)
    (here : Location) (hd : t.locate directory = .ok here) :
    Lists ((t.walkBelow exclude recursive above directory here).filterMap Visit.file?) directory
      (t.Yields exclude recursive above directory here) := by
  induction above, directory, here using walkBelow.induct t with
  | case1 above directory here ihLink ihDirectory =>
    rw [walkBelow_eq, List.filterMap_flatMap]
    have hnames := lists_flatMap (hs.names_sorted here) fun n hn =>
      visits_files hs hd hn fun l h => by
        -- the directory that a name stands for, whether it is one itself or a link to one
        obtain ⟨e, he⟩ := mem_names.mp hn
        rcases locate_child hd (hs.isName he) h.located with ⟨target, ht⟩ | ⟨rfl, _⟩
        · exact ihLink n l h.isDirectory (find?_above.mpr (h.new target ht)) h.located
        · exact ihDirectory n h.isDirectory h.located
    refine hnames.congr fun ns => ⟨fun h => h.2, fun h => ⟨?_, h⟩⟩
    match ns, h with
    | [n], h => exact ⟨n, h.1, [], rfl⟩
    | n :: m :: ms, h => exact ⟨n, h.1, _, rfl⟩

/-! ## The files without the walk -/

/-- On the way along the names a link leads to `l`, after the names `before`. -/
def LinkOnWay (t : Tree) (p : Path) (names before : List Name) (l : Location) : Prop :=
  ∃ n after here target, names = before ++ n :: after ∧ after ≠ [] ∧
    t.locate (p.below before) = .ok here ∧ t.entry? (here ++ [n]) = some (.link target) ∧
    t.locate (p.below (before ++ [n])) = .ok l

/-- **The names lead from a directory to a file that a walk meets.** Links are followed, but none of
them leads back to a directory that has been met on the way. -/
structure IsWalked (t : Tree) (exclude : List String) (recursive : Bool) (p : Path)
    (names : List Name) : Prop where
  nonempty : names ≠ []
  named : ∀ n ∈ names, IsName n
  included : ∀ n ∈ names, n.text ∉ exclude
  deep : recursive = true ∨ names.length = 1
  file : ∃ l c, t.locate (p.below names) = .ok l ∧ t.entry? l = some (.file c)
  forward : ∀ before l, t.LinkOnWay p names before l → ∀ earlier, earlier <+: before →
    t.locate (p.below earlier) ≠ .ok l

theorem not_linkOnWay_singleton {p : Path} {before : List Name} {l : Location} :
    ¬t.LinkOnWay p [n] before l := by
  rintro ⟨m, after, _, _, h, ha, _⟩
  have hl := congrArg List.length h
  have hp := List.length_pos_iff.mpr ha
  simp only [List.length_append, List.length_cons, List.length_nil] at hl
  omega

theorem linkOnWay_cons {p : Path} {m : Name} {names before : List Name} {l : Location} :
    t.LinkOnWay p (n :: m :: names) before l ↔
      (before = [] ∧ ∃ here target, t.locate p = .ok here ∧
        t.entry? (here ++ [n]) = some (.link target) ∧ t.locate (p.child n) = .ok l) ∨
      ∃ rest, before = n :: rest ∧ t.LinkOnWay (p.child n) (m :: names) rest l := by
  constructor
  · rintro ⟨k, after, here, target, e, ha, hh, he, hl⟩
    cases before with
    | nil =>
      obtain ⟨rfl, rfl⟩ := List.cons.inj e
      exact Or.inl ⟨rfl, here, target, hh, he, hl⟩
    | cons b rest =>
      obtain ⟨rfl, e'⟩ := List.cons.inj e
      exact Or.inr ⟨rest, rfl, k, after, here, target, e', ha, hh, he, hl⟩
  · rintro (⟨rfl, here, target, hh, he, hl⟩ | ⟨rest, rfl, k, after, here, target, e, h⟩)
    · exact ⟨n, m :: names, here, target, rfl, List.cons_ne_nil _ _, hh, he, hl⟩
    · exact ⟨k, after, here, target, congrArg (n :: ·) e, h⟩

theorem locate_of_below {l : Location} {names : List Name} (hne : names ≠ [])
    (hn : ∀ n ∈ names, IsName n) : ∀ {p : Path}, ¬p.isEmpty = true →
      t.locate (p.below names) = .ok l →
        ∃ here, t.locate p = .ok here ∧ t.entry? here = some .directory := by
  induction names with
  | nil => exact absurd rfl hne
  | cons n names ih =>
    intro p hp h
    obtain ⟨hfirst, hrest⟩ := List.forall_mem_cons.mp hn
    rw [below_cons] at h
    by_cases he : names = []
    · subst he
      exact locate_of_child hp hfirst h
    · obtain ⟨_, hh, _⟩ := ih he hrest (not_isEmpty_child p hfirst.ne_empty) h
      exact locate_of_child hp hfirst hh

theorem mem_names_of_locate {l : Location} (hd : t.locate directory = .ok here) (hn : IsName n)
    (h : t.locate (directory.child n) = .ok l) : n ∈ t.names here := by
  rcases locate_child hd hn h with ⟨_, h⟩ | ⟨rfl, h⟩
  · exact mem_names.mpr ⟨_, h⟩
  · exact mem_names.mpr h

/-- The names lead to a file that a walk meets, and no link on the way leads to a directory
among `above`. -/
structure IsWalkedPast (t : Tree) (exclude : List String) (recursive : Bool)
    (above : List (Location × Path)) (p : Path) (names : List Name) : Prop where
  walked : t.IsWalked exclude recursive p names
  beyond : ∀ before l, t.LinkOnWay p names before l → l ∉ above.map Prod.fst

theorem isWalkedPast_singleton (hs : t.Sound) (hd : t.locate directory = .ok here) :
    t.IsWalkedPast exclude recursive above directory [n] ↔
      n ∈ t.names here ∧ t.IsFileOf exclude directory n := by
  constructor
  · rintro ⟨h, _⟩
    obtain ⟨l, c, hl, hc⟩ := h.file
    exact ⟨mem_names_of_locate hd (h.named n List.mem_cons_self) hl,
      h.included n List.mem_cons_self, l, c, hl, hc⟩
  · rintro ⟨hn, hx, hf⟩
    obtain ⟨e, he⟩ := mem_names.mp hn
    refine ⟨⟨List.cons_ne_nil _ _, ?_, ?_, Or.inr rfl, hf, ?_⟩, ?_⟩
    · exact fun k hk => List.mem_singleton.mp hk ▸ hs.isName he
    · exact fun k hk => List.mem_singleton.mp hk ▸ hx
    · exact fun _ _ h => absurd h not_linkOnWay_singleton
    · exact fun _ _ h => absurd h not_linkOnWay_singleton

/-- The way to a file leads into the first directory, and on from there. -/
theorem IsWalkedPast.enters {m : Name} {names : List Name}
    (hd : t.locate directory = .ok here)
    (h : t.IsWalkedPast exclude recursive above directory (n :: m :: names)) :
    n ∈ t.names here ∧ ∃ l, t.Enters exclude recursive above directory here n l ∧
      t.IsWalkedPast exclude recursive ((l, directory.child n) :: above) (directory.child n)
        (m :: names) := by
  obtain ⟨hw, hb⟩ := h
  obtain ⟨hn, hnames⟩ := List.forall_mem_cons.mp hw.named
  obtain ⟨hx, hincluded⟩ := List.forall_mem_cons.mp hw.included
  obtain ⟨_, _, hfile, _⟩ := hw.file
  have hc := not_isEmpty_child directory hn.ne_empty
  rw [below_cons] at hfile
  obtain ⟨l, hl, hdir⟩ := locate_of_below (List.cons_ne_nil m names) hnames hc hfile
  have hdeep : recursive = true := by
    rcases hw.deep with h | h
    · exact h
    · simp at h
  have hnew : ∀ target, t.entry? (here ++ [n]) = some (.link target) →
      l ∉ above.map Prod.fst := fun target ht =>
    hb [] l (linkOnWay_cons.mpr (Or.inl ⟨rfl, here, target, hd, ht, hl⟩))
  refine ⟨mem_names_of_locate hd hn hl, l, ⟨hx, hdeep, hl, hdir, hnew⟩,
    ⟨List.cons_ne_nil _ _, hnames, hincluded, Or.inl hdeep, hw.file, ?_⟩, ?_⟩
  · intro before l' hlink earlier hp
    exact hw.forward (n :: before) l' (linkOnWay_cons.mpr (Or.inr ⟨before, rfl, hlink⟩))
      (n :: earlier) (List.prefix_cons_inj n |>.mpr hp)
  · intro before l' hlink hm
    have hlink := linkOnWay_cons.mpr (Or.inr ⟨before, rfl, hlink⟩)
    rcases List.mem_cons.mp hm with rfl | hm
    · exact hw.forward (n :: before) l' hlink [n] ⟨before, rfl⟩ hl
    · exact hb (n :: before) l' hlink hm

/-- A way that goes on from a directory that is entered is a way from the directory above. -/
theorem Enters.isWalkedPast {l : Location} {m : Name} {names : List Name}
    (hl : t.Enters exclude recursive above directory here n l)
    (hd : t.locate directory = .ok here) (ha : here ∈ above.map Prod.fst) (hn : IsName n)
    (h : t.IsWalkedPast exclude recursive ((l, directory.child n) :: above) (directory.child n)
      (m :: names)) : t.IsWalkedPast exclude recursive above directory (n :: m :: names) := by
  obtain ⟨hw, hb⟩ := h
  have hfirst : ∀ {l'}, (∃ here target, t.locate directory = .ok here ∧
      t.entry? (here ++ [n]) = some (.link target) ∧
      t.locate (directory.child n) = .ok l') → l' ∉ above.map Prod.fst := by
    rintro l' ⟨here', target, hh, ht, hl'⟩
    obtain rfl := Except.ok.inj (hh.symm.trans hd)
    obtain rfl := Except.ok.inj (hl'.symm.trans hl.located)
    exact hl.new target ht
  refine ⟨⟨List.cons_ne_nil _ _, ?_, ?_, Or.inl hl.deep, hw.file, ?_⟩, ?_⟩
  · exact List.forall_mem_cons.mpr ⟨hn, hw.named⟩
  · exact List.forall_mem_cons.mpr ⟨hl.included, hw.included⟩
  · intro before l' h earlier hp e
    rcases linkOnWay_cons.mp h with ⟨rfl, h'⟩ | ⟨rest, rfl, h'⟩
    · obtain rfl := List.prefix_nil.mp hp
      obtain rfl := Except.ok.inj (e.symm.trans hd)
      exact hfirst h' ha
    · rcases List.prefix_cons_iff.mp hp with rfl | ⟨earlier', rfl, hp'⟩
      · obtain rfl := Except.ok.inj (e.symm.trans hd)
        exact hb rest _ h' (List.mem_cons_of_mem _ ha)
      · exact hw.forward rest l' h' earlier' hp' e
  · intro before l' h
    rcases linkOnWay_cons.mp h with ⟨_, h⟩ | ⟨rest, _, h⟩
    · exact hfirst h
    · exact fun hm => hb rest l' h (List.mem_cons_of_mem _ hm)

/-- **What a walk yields** below a directory can be told without the walk. -/
theorem yields_iff (hs : t.Sound) : ∀ {names : List Name} {above : List (Location × Path)}
    {directory : Path} {here : Location}, t.locate directory = .ok here →
      here ∈ above.map Prod.fst →
      (t.Yields exclude recursive above directory here names ↔
        t.IsWalkedPast exclude recursive above directory names)
  | [], _, _, _, _, _ => ⟨fun h => h.elim, fun h => h.walked.nonempty rfl⟩
  | [n], above, directory, here, hd, _ => (isWalkedPast_singleton hs hd).symm
  | n :: m :: names, above, directory, here, hd, ha => by
    constructor
    · rintro ⟨hn, l, hl, hy⟩
      obtain ⟨e, he⟩ := mem_names.mp hn
      have hw := (yields_iff hs hl.located List.mem_cons_self).mp hy
      exact hl.isWalkedPast hd ha (hs.isName he) hw
    · intro h
      obtain ⟨hn, l, hl, hw⟩ := h.enters hd
      exact ⟨hn, l, hl, (yields_iff hs hl.located List.mem_cons_self).mpr hw⟩

/-! ## The whole walk -/

/-- **A walk meets the files that the names lead to**, in the order of the names. -/
theorem walk_files (hs : t.Sound) {p : Path} (hd : t.isDirectory p = true) :
    ∃ seen : List Visit, t.walk exclude recursive p = .ok seen ∧
      Lists (seen.filterMap Visit.file?) p (t.IsWalked exclude recursive p) := by
  obtain ⟨l, hl, he⟩ := isDirectory_iff.mp hd
  have hw : t.walk exclude recursive p = .ok (t.walkBelow exclude recursive [(l, p)] p l) := by
    rw [walk, hl]
    exact if_pos he
  refine ⟨_, hw, (walkBelow_files hs [(l, p)] p l hl).congr fun names => ?_⟩
  refine (yields_iff hs hl List.mem_cons_self).trans ⟨fun h => h.walked, fun h => ⟨h, ?_⟩⟩
  intro before l' hlink hm
  obtain rfl := List.mem_singleton.mp hm
  exact h.forward before l' hlink [] List.nil_prefix hl

end Tree

end ModelTypings.Files
