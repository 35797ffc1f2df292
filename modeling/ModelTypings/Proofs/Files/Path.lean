import ModelTypings.Files.Path
import ModelTypings.Proofs.Files.Name

/-!
# Paths, their texts and their steps

* `Text.joinWith_splitAt`, `Path.IsSpelled`, `Path.IsText`: a path by its bytes or its text;
* `Path.IsName`, `Path.below`: names, and the paths that they lead to from a directory;
* `Path.steps`, **`Path.components_below`**, `Path.components_take`: the steps of such a path;
* `Path.fileName?_child`, `Path.extension?_child`, `Path.parent?_child`: its last name;
* `Path.names_eq`, `Path.Spells`: relative paths of names.
-/

namespace ModelTypings

namespace Text

variable {α : Type} [DecidableEq α]

theorem splitAt_ne_nil (sep : α) : ∀ s : List α, splitAt sep s ≠ []
  | [] => List.cons_ne_nil _ _
  | c :: cs => by
    rw [splitAt]
    split
    · exact List.cons_ne_nil _ _
    · cases splitAt sep cs <;> exact List.cons_ne_nil _ _

omit [DecidableEq α] in
theorem joinWith_consFirst (sep c : α) : ∀ {ps : List (List α)}, ps ≠ [] →
    joinWith sep (consFirst c ps) = c :: joinWith sep ps
  | [_], _ => rfl
  | _ :: _ :: _, _ => rfl

theorem joinWith_splitAt (sep : α) : ∀ s : List α, joinWith sep (splitAt sep s) = s
  | [] => rfl
  | c :: cs => by
    have ih := joinWith_splitAt sep cs
    obtain ⟨p, ps, e⟩ := List.exists_cons_of_ne_nil (splitAt_ne_nil sep cs)
    rw [splitAt]
    split
    · next h =>
      rw [e] at ih ⊢
      rw [joinWith, List.nil_append, ih, h]
    · rw [joinWith_consFirst sep c (splitAt_ne_nil sep cs), ih]

end Text

namespace Files.Path

open Text

/-! ## Bytes and texts -/

/-- The path is the path of some bytes. -/
def IsSpelled (p : Path) : Prop := ∃ bs, p = ofBytes bs

/-- The path is the path of a text. -/
def IsText (p : Path) : Prop := ∃ s, p = ofText s

theorem bytes_ofBytes (bs : List UInt8) : (ofBytes bs).bytes = bs := by
  rw [bytes, ofBytes, List.map_map]
  exact (congrArg (joinWith slash) (List.map_id _)).trans (joinWith_splitAt slash bs)

theorem text_ofText (s : String) : (ofText s).text = s := by
  rw [text, ofText, bytes_ofBytes, decode_encode]

theorem IsText.ofText_text {p : Path} (h : p.IsText) : ofText p.text = p := by
  obtain ⟨s, rfl⟩ := h
  rw [text_ofText]

theorem IsSpelled.isText_iff {p : Path} (h : p.IsSpelled) : p.isText = true ↔ p.IsText := by
  rw [isText, beq_iff_eq]
  constructor
  · obtain ⟨bs, rfl⟩ := h
    intro he
    rw [bytes_ofBytes] at he
    exact ⟨_, congrArg ofBytes he.symm⟩
  · rintro ⟨s, rfl⟩
    rw [text_ofText, ofText, bytes_ofBytes]

/-! ## Names -/

/-- The name can be that of an entry of a directory. -/
structure IsName (n : Name) : Prop where
  not_filler : ¬isFiller n = true
  not_up : n ≠ .up
  no_slash : slash ∉ n.bytes

theorem IsName.ne_empty {n : Name} (h : IsName n) : n ≠ .empty := by
  rintro rfl
  exact h.not_filler rfl

theorem IsName.componentOf {n : Name} (h : IsName n) : componentOf n = .name n :=
  if_neg h.not_up

theorem IsName.firstComponent {n : Name} (h : IsName n) (rest : List Name) :
    firstComponent n rest = [.name n] := by
  have hd : n ≠ .here := by
    rintro rfl
    exact h.not_filler rfl
  rw [Path.firstComponent, if_neg h.ne_empty, if_neg hd, h.componentOf]

/-- The path that names lead to from a path. -/
def below (p : Path) (names : List Name) : Path := names.foldl child p

theorem below_cons (p : Path) (n : Name) (names : List Name) :
    p.below (n :: names) = (p.child n).below names := rfl

theorem below_concat (p : Path) (names : List Name) (n : Name) :
    p.below (names ++ [n]) = (p.below names).child n := by
  rw [below, List.foldl_append]
  rfl

/-- The segments before those of an entry: one empty segment at the end does not count. -/
def base (p : Path) : List Name :=
  if p.segments.getLast? = some .empty then p.segments.dropLast else p.segments

theorem child_eq (p : Path) (n : Name) : p.child n = ⟨p.base ++ [n]⟩ := by
  have h : ¬isAbsolute ⟨[n]⟩ = true := by simp [isAbsolute]
  rw [child, join, if_neg h, base]
  split <;> rfl

theorem base_child {p : Path} {n : Name} (hn : n ≠ .empty) : (p.child n).base = p.base ++ [n] := by
  rw [child_eq, base, List.getLast?_concat, if_neg fun h => hn (Option.some.inj h)]

theorem below_eq (p : Path) : ∀ {names : List Name}, names ≠ [] → (∀ n ∈ names, n ≠ .empty) →
    p.below names = ⟨p.base ++ names⟩
  | [n], _, _ => p.child_eq n
  | n :: m :: names, _, h => by
    have hm : ∀ k ∈ m :: names, k ≠ .empty := fun k hk => h k (List.mem_cons_of_mem _ hk)
    have ih := below_eq (p.child n) (List.cons_ne_nil m names) hm
    rw [base_child (h n List.mem_cons_self), List.append_assoc] at ih
    exact ih

theorem base_ne_nil {p : Path} (hp : ¬p.isEmpty = true) : p.base ≠ [] := by
  obtain ⟨segments⟩ := p
  unfold base
  split
  · next h =>
    intro e
    obtain ⟨init, rfl⟩ := List.getLast?_eq_some_iff.mp h
    rw [List.dropLast_concat] at e
    exact hp (by rw [e]; rfl)
  · rintro rfl
    exact hp rfl

theorem not_isEmpty_child (p : Path) {n : Name} (hn : n ≠ .empty) : ¬(p.child n).isEmpty = true := by
  rw [child_eq, isEmpty]
  simp [hn]

theorem not_isEmpty_below {p : Path} (hp : ¬p.isEmpty = true) {names : List Name}
    (hn : ∀ n ∈ names, IsName n) : ¬(p.below names).isEmpty = true := by
  rcases List.eq_nil_or_concat names with rfl | ⟨init, n, rfl⟩
  · exact hp
  · rw [List.concat_eq_append] at hn ⊢
    rw [below_concat]
    exact not_isEmpty_child _ (hn n (by simp)).ne_empty

theorem isAbsolute_child {p : Path} (hp : ¬p.isEmpty = true) (n : Name) :
    (p.child n).isAbsolute = p.isAbsolute := by
  rw [child_eq]
  have hb := base_ne_nil hp
  obtain ⟨segments⟩ := p
  unfold base at hb ⊢
  split
  · next h =>
    rw [if_pos h] at hb
    obtain ⟨init, rfl⟩ := List.getLast?_eq_some_iff.mp h
    dsimp only at hb ⊢
    rw [List.dropLast_concat] at hb ⊢
    obtain ⟨s, init, rfl⟩ := List.exists_cons_of_ne_nil hb
    simp [isAbsolute]
  · next h =>
    rw [if_neg h] at hb
    dsimp only at hb ⊢
    match segments, hb, h with
    | [s], _, h =>
      have hs : s ≠ .empty := fun e => h (by rw [e]; rfl)
      simp [isAbsolute, hs]
    | s :: s' :: segments, _, _ => simp [isAbsolute]

/-! ## Components -/

/-- The steps of segments after the first. -/
def steps (segments : List Name) : List Component :=
  (segments.filter fun s => !isFiller s).map componentOf

theorem components_cons (s : Name) (segments : List Name) :
    components ⟨s :: segments⟩ = firstComponent s segments ++ steps segments := rfl

theorem steps_append (xs ys : List Name) : steps (xs ++ ys) = steps xs ++ steps ys := by
  rw [steps, List.filter_append, List.map_append]
  rfl

theorem steps_name {n : Name} (hn : IsName n) : steps [n] = [.name n] := by
  have hf : (!isFiller n) = true := by
    simpa using hn.not_filler
  rw [steps, List.filter_cons, if_pos hf, List.filter_nil, List.map_singleton, hn.componentOf]

/-- **The steps of an entry** are those of its directory and its name. -/
theorem components_child (p : Path) {n : Name} (hn : IsName n) :
    (p.child n).components = p.components ++ [.name n] := by
  have hnil : components ⟨[n]⟩ = [.name n] := by
    rw [components_cons, hn.firstComponent]
    rfl
  rw [child_eq]
  obtain ⟨segments⟩ := p
  unfold base
  split
  · next h =>
    obtain ⟨init, rfl⟩ := List.getLast?_eq_some_iff.mp h
    dsimp only
    rw [List.dropLast_concat]
    cases init with
    | nil => exact hnil
    | cons s init =>
      have hs : steps [.empty] = [] := rfl
      have hfirst : firstComponent s (init ++ [n]) = firstComponent s (init ++ [.empty]) := by
        simp [firstComponent]
      rw [List.cons_append, List.cons_append, components_cons, components_cons, steps_append,
        steps_append, steps_name hn, hs, List.append_nil, hfirst, List.append_assoc]
  · next h =>
    cases segments with
    | nil => exact hnil
    | cons s rest =>
      have hfirst : firstComponent s (rest ++ [n]) = firstComponent s rest := by
        unfold firstComponent
        split
        · next e =>
          have hr : rest ≠ [] := by
            rintro rfl
            exact h (by rw [e]; rfl)
          simp [hr]
        · rfl
      dsimp only
      rw [List.cons_append, components_cons, components_cons, steps_append, steps_name hn, hfirst,
        List.append_assoc]

theorem components_below (p : Path) : ∀ {names : List Name}, (∀ n ∈ names, IsName n) →
    (p.below names).components = p.components ++ names.map .name
  | [], _ => (List.append_nil _).symm
  | n :: names, h => by
    have ih := components_below (p.child n) fun m hm => h m (List.mem_cons_of_mem _ hm)
    rw [components_child p (h n List.mem_cons_self), List.append_assoc] at ih
    exact ih

theorem steps_takeSteps : ∀ (n : Nat) (segments : List Name),
    steps (takeSteps n segments) = (steps segments).take n
  | 0, segments => by
    rw [takeSteps, List.take_zero]
    rfl
  | n + 1, [] => rfl
  | n + 1, s :: rest => by
    have hs : ∀ xs, steps (s :: xs) = if isFiller s then steps xs else componentOf s :: steps xs := by
      intro xs
      rw [steps, List.filter_cons]
      by_cases hf : isFiller s = true
      · rw [if_neg (by simp [hf]), if_pos hf]
        rfl
      · rw [if_pos (by simpa using hf), if_neg hf]
        rfl
    rw [takeSteps]
    split
    · next hf => rw [hs, hs, if_pos hf, if_pos hf, steps_takeSteps (n + 1) rest]
    · next hf => rw [hs, hs, if_neg hf, if_neg hf, steps_takeSteps n rest, List.take_succ_cons]

theorem takeSteps_isPrefix : ∀ (n : Nat) (segments : List Name), takeSteps n segments <+: segments
  | 0, segments => by
    rw [takeSteps]
    exact List.nil_prefix
  | _ + 1, [] => List.nil_prefix
  | n + 1, s :: rest => by
    rw [takeSteps]
    split
    · exact (List.prefix_cons_inj s).mpr (takeSteps_isPrefix (n + 1) rest)
    · exact (List.prefix_cons_inj s).mpr (takeSteps_isPrefix n rest)

/-- The path of the first steps of a relative path is spelled as the path is, as far as it goes. -/
theorem segments_take_isPrefix {p : Path} (hr : p.isAbsolute = false) {n : Nat}
    (hne : ¬(p.take n).isEmpty = true) : (p.take n).segments <+: p.segments := by
  obtain ⟨segments⟩ := p
  match n, segments with
  | 0, _ => exact absurd rfl hne
  | _ + 1, [] => exact absurd rfl hne
  | n + 1, first :: rest =>
    rw [take, ofParts, hr]
    exact (List.prefix_cons_inj first).mpr (takeSteps_isPrefix n rest)

/-- **The first steps of a path** are the steps of the path of its first steps. -/
theorem components_take (p : Path) : ∀ n : Nat, (p.take n).components = p.components.take n
  | 0 => by
    rw [take, List.take_zero]
    rfl
  | n + 1 => by
    obtain ⟨segments⟩ := p
    cases segments with
    | nil => rfl
    | cons first rest =>
      have hr := steps_takeSteps n rest
      rw [take, ofParts, components_cons]
      by_cases hf : first = .empty
      · subst hf
        cases rest with
        | nil =>
          cases n <;> rfl
        | cons s rest =>
          have ha : isAbsolute ⟨.empty :: s :: rest⟩ = true := by simp [isAbsolute]
          rw [ha]
          cases ht : takeSteps n (s :: rest) with
          | nil =>
            rw [ht] at hr
            exact congrArg (Component.root :: ·) hr
          | cons s' rest' =>
            rw [ht] at hr
            exact congrArg (Component.root :: ·) hr
      · have ha : isAbsolute ⟨first :: rest⟩ = false := by simp [isAbsolute, hf]
        have hc : ∀ xs, ∃ c, firstComponent first rest = [c] ∧ firstComponent first xs = [c] := by
          intro xs
          rw [firstComponent, firstComponent, if_neg hf, if_neg hf]
          split <;> exact ⟨_, rfl, rfl⟩
        obtain ⟨c, hc, hc'⟩ := hc (takeSteps n rest)
        rw [ha, Bool.false_and, if_neg Bool.false_ne_true, components_cons, hc, hc', hr]
        rfl

/-! ## The last name -/

theorem fileName?_child (p : Path) {n : Name} (hn : IsName n) :
    (p.child n).fileName? = some n := by
  rw [fileName?, components_child p hn, List.getLast?_concat]

theorem extension?_child (p : Path) {n : Name} (hn : IsName n) :
    (p.child n).extension? = (splitName n).2 := by
  rw [extension?, fileName?_child p hn]
  rfl

theorem parent?_child (p : Path) {n : Name} (hn : IsName n) :
    ∃ q, (p.child n).parent? = some q ∧ q.components = p.components := by
  refine ⟨(p.child n).take ((p.child n).components.length - 1), ?_, ?_⟩
  · rw [parent?, components_child p hn, List.getLast?_concat]
  · rw [components_take, components_child p hn, List.length_append, List.length_singleton,
      Nat.add_sub_cancel, List.take_left]

theorem fileName?_congr {p q : Path} (h : p.components = q.components) :
    p.fileName? = q.fileName? := by
  rw [fileName?, fileName?, h]

/-! ## Bytes of entries -/

theorem joinWith_prefix_concat {α : Type} (sep : α) (y : List α) : ∀ xs : List (List α),
    joinWith sep xs <+: joinWith sep (xs ++ [y]) ∧
      joinWith sep (xs ++ [[]]) <+: joinWith sep (xs ++ [y])
  | [] => ⟨List.nil_prefix, List.nil_prefix⟩
  | [x] => by
    constructor
    · exact List.prefix_append x (sep :: y)
    · exact ⟨y, List.append_assoc x [sep] y⟩
  | x :: x' :: xs => by
    obtain ⟨h, h'⟩ := joinWith_prefix_concat sep y (x' :: xs)
    constructor
    · exact (List.prefix_append_right_inj x).mpr ((List.prefix_cons_inj sep).mpr h)
    · exact (List.prefix_append_right_inj x).mpr ((List.prefix_cons_inj sep).mpr h')

theorem joinWith_prefix_append {α : Type} (sep : α) (xs ys : List (List α)) :
    joinWith sep xs <+: joinWith sep (xs ++ ys) := by
  induction ys generalizing xs with
  | nil => simp
  | cons y ys ih =>
    have h := ih (xs ++ [y])
    rw [List.append_assoc] at h
    exact (joinWith_prefix_concat sep y xs).1.trans h

theorem bytes_prefix_of_segments {p q : Path} (h : q.segments <+: p.segments) :
    q.bytes <+: p.bytes := by
  obtain ⟨rest, h⟩ := h
  rw [bytes, bytes, ← h, List.map_append]
  exact joinWith_prefix_append ..

theorem bytes_prefix_child (p : Path) (n : Name) : p.bytes <+: (p.child n).bytes := by
  rw [child_eq, bytes, bytes]
  obtain ⟨segments⟩ := p
  unfold base
  split
  · next h =>
    obtain ⟨init, rfl⟩ := List.getLast?_eq_some_iff.mp h
    dsimp only
    rw [List.dropLast_concat, List.map_append, List.map_append]
    exact (joinWith_prefix_concat slash n.bytes (init.map Name.bytes)).2
  · rw [List.map_append]
    exact (joinWith_prefix_concat slash n.bytes _).1

/-! ## Relative paths of names -/

theorem names_eq {p : Path} {ns : List Name} (h : p.components = ns.map .name) :
    p.names = ns := by
  rw [names, h, List.filterMap_map]
  exact List.filterMap_some ..

theorem components_eq {p : Path} (h : ∀ c ∈ p.components, ∃ n, c = .name n) :
    p.components = p.names.map .name := by
  have hc : ∀ cs : List Component, (∀ c ∈ cs, ∃ n, c = .name n) →
      cs = (cs.filterMap Component.name?).map .name := by
    intro cs
    induction cs with
    | nil => exact fun _ => rfl
    | cons c cs ih =>
      intro h
      obtain ⟨n, rfl⟩ := h c List.mem_cons_self
      exact congrArg _ (ih fun d hd => h d (List.mem_cons_of_mem _ hd))
  exact hc _ h

theorem mem_names {p : Path} {n : Name} : n ∈ p.names ↔ .name n ∈ p.components := by
  rw [names, List.mem_filterMap]
  constructor
  · rintro ⟨c, hc, h⟩
    cases c with
    | name m =>
      obtain rfl := Option.some.inj h
      exact hc
    | root | here | up => exact nomatch h
  · exact fun h => ⟨_, h, rfl⟩

/-- The path is relative, and its segments other than fillers are names. -/
structure Spells (p : Path) (ns : List Name) : Prop where
  steps : steps p.segments = ns.map .name
  relative : p.isAbsolute = false

theorem spells_of_components {p : Path} {ns : List Name}
    (h : p.components = ns.map .name) : p.Spells ns := by
  obtain ⟨segments⟩ := p
  cases segments with
  | nil => exact ⟨h, rfl⟩
  | cons first rest =>
    rw [components_cons] at h
    have hnot : ∀ c cs, c :: cs = ns.map Component.name → ∃ n, c = .name n := by
      intro c cs e
      cases ns with
      | nil => exact nomatch e
      | cons n ns => exact ⟨n, (List.cons.inj e).1⟩
    unfold firstComponent at h
    split at h
    · next e =>
      split at h
      · next hr =>
        obtain rfl := List.isEmpty_iff.mp hr
        subst e
        exact ⟨h, rfl⟩
      · obtain ⟨_, e⟩ := hnot _ _ h
        exact nomatch e
    · next e =>
      split at h
      · obtain ⟨_, e⟩ := hnot _ _ h
        exact nomatch e
      · next hd =>
        have hf : (!isFiller first) = true := by simp [isFiller, e, hd]
        refine ⟨?_, by simp [isAbsolute, e]⟩
        rw [steps, List.filter_cons, if_pos hf]
        exact h

end Files.Path

end ModelTypings
