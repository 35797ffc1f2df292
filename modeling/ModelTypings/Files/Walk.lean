import ModelTypings.Files.Tree

/-!
# Walking a directory

A walk visits the entries below a directory name by name, the content of a directory where its name
stands. Links are followed, unless they lead back to a directory on the way.

* `WalkFault`: an entry that cannot be visited;
* `Visit`: what a walk meets;
* `Tree.walk`: the visits below a directory, in order.
-/

namespace ModelTypings.Files

/-- Why an entry cannot be visited. -/
inductive WalkFault
  | unreadable (path : Path) (fault : Fault)
  /-- A link leads back to a directory on the way. -/
  | loop (path ancestor : Path)
  deriving DecidableEq, Repr

/-- The wording of a fault. -/
def WalkFault.message : WalkFault → String
  | unreadable p f => "IO error for operation on " ++ p.text ++ ": " ++ f.message
  | loop p a => "File system loop found: " ++ p.text ++ " points to an ancestor " ++ a.text

/-- What a walk meets. Directories that are entered leave no trace of their own. -/
inductive Visit
  | file (path : Path)
  | excluded (path : Path)
  | fault (f : WalkFault)
  deriving DecidableEq, Repr

namespace Tree

theorem mem_of_lookup {α β : Type} [BEq α] [LawfulBEq α] {k : α} {v : β} {xs : List (α × β)}
    (h : xs.lookup k = some v) : (k, v) ∈ xs := by
  obtain ⟨before, after, rfl, _⟩ := List.lookup_eq_some_iff.mp h
  exact List.mem_append_right before List.mem_cons_self

theorem mem_directories {t : Tree} {l : Location} (h : t.entry? l = some .directory) :
    l ∈ t.directories := by
  unfold entry? at h
  unfold directories
  split at h
  · next e => simp [List.isEmpty_iff.mp e]
  · refine List.mem_cons_of_mem _ (List.mem_filterMap.mpr ⟨(l, .directory), ?_, by simp⟩)
    exact mem_of_lookup h

/-- The directories that are not among `above`. -/
def directoriesBeyond (t : Tree) (above : List (Location × Path)) : List Location :=
  t.directories.filter fun d => !above.any fun a => a.1 == d

theorem length_directoriesBeyond_le (t : Tree) (above : List (Location × Path)) (l : Location)
    (p : Path) :
    (t.directoriesBeyond ((l, p) :: above)).length ≤ (t.directoriesBeyond above).length := by
  unfold directoriesBeyond
  rw [← List.countP_eq_length_filter, ← List.countP_eq_length_filter]
  refine List.countP_mono_left fun d _ h => ?_
  simp only [List.any_cons, Bool.not_or, Bool.and_eq_true] at h
  exact h.2

/-- A directory that was not among `above` leaves fewer beyond. -/
theorem length_directoriesBeyond_lt {t : Tree} {above : List (Location × Path)} {l : Location}
    (p : Path) (h : l ∈ t.directories) (hl : above.find? (fun a => a.1 == l) = none) :
    (t.directoriesBeyond ((l, p) :: above)).length < (t.directoriesBeyond above).length := by
  unfold directoriesBeyond
  have e : (t.directories.filter fun d => !((l, p) :: above).any fun a => a.1 == d) =
      (t.directories.filter fun d => !above.any fun a => a.1 == d).filter fun d => !(l == d) := by
    rw [List.filter_filter]
    congr 1
    funext d
    simp
  rw [e]
  refine List.length_filter_lt_length_iff_exists.mpr ⟨l, ?_, by simp⟩
  refine List.mem_filter.mpr ⟨h, ?_⟩
  simpa [List.find?_eq_none] using hl

/-- The length of the longest location of a directory. -/
def depth (t : Tree) : Nat := (t.directories.map List.length).foldr max 0

theorem le_foldr_max {n : Nat} : ∀ {ns : List Nat}, n ∈ ns → n ≤ ns.foldr max 0
  | m :: ms, h => by
    rcases List.mem_cons.mp h with rfl | h
    · exact Nat.le_max_left ..
    · exact Nat.le_trans (le_foldr_max h) (Nat.le_max_right ..)

theorem length_le_depth {t : Tree} {l : Location} (h : t.entry? l = some .directory) :
    l.length ≤ t.depth :=
  le_foldr_max (List.mem_map_of_mem (mem_directories h))

/-- The visits below a directory at a location. Its path and those of the directories above it
stand in `above`, nearest first. Only a link can lead back to one of them. What is left out is told
by the texts of names. -/
def walkBelow (t : Tree) (exclude : List String) (recursive : Bool)
    (above : List (Location × Path)) (directory : Path) (here : Location) : List Visit :=
  (t.names here).flatMap fun n =>
    let p := directory.child n
    let l := here ++ [n]
    match _entry : t.entry? l with
    | some (.link _) =>
      match t.locate p with
      | .error f => [.fault (.unreadable p f)]
      | .ok l =>
        match _target : t.entry? l with
        | some .directory =>
          match _new : above.find? fun a => a.1 == l with
          | some a => [.fault (.loop p a.2)]
          | none =>
            if exclude.contains n.text then [.excluded p]
            else if recursive then t.walkBelow exclude recursive ((l, p) :: above) p l
            else []
        | _ => if exclude.contains n.text then [.excluded p] else [.file p]
    | some .directory =>
      if exclude.contains n.text then [.excluded p]
      else if recursive then
        match t.locate p with
        | .error f => [.fault (.unreadable p f)]
        | .ok _ => t.walkBelow exclude recursive ((l, p) :: above) p l
      else []
    | _ =>
      if exclude.contains n.text then [.excluded p]
      else if t.pathExists p then [.file p]
      else []
termination_by (t.directoriesBeyond above).length * (t.depth + 1) + (t.depth - here.length)
decreasing_by
  · have hb := length_directoriesBeyond_lt (directory.child n) (mem_directories _target) _new
    have h := Nat.mul_le_mul_right (t.depth + 1) (Nat.succ_le_of_lt hb)
    rw [Nat.succ_mul] at h
    omega
  · have hb := t.length_directoriesBeyond_le above (here ++ [n]) (directory.child n)
    have h := Nat.mul_le_mul_right (t.depth + 1) hb
    have hl := length_le_depth _entry
    rw [List.length_append, List.length_singleton] at hl ⊢
    omega

/-- The visits from a path on: the file it reaches, or what lies below the directory it reaches. -/
def walk (t : Tree) (exclude : List String) (recursive : Bool) (start : Path) :
    Except Fault (List Visit) :=
  match t.locate start with
  | .error f => .error f
  | .ok l =>
    if t.entry? l = some .directory then
      .ok (t.walkBelow exclude recursive [(l, start)] start l)
    else .ok [.file start]

end Tree

end ModelTypings.Files
