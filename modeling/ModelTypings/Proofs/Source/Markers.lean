import Mathlib.Data.List.Sort
import ModelTypings.Proofs.Source.Order

/-!
# Markers only select

Which classes a file has does not depend on the markers. A class is a model by two lists of markers
put together if it is one by either of them.

* `model?_append`: the model that a class is by two lists of markers;
* `lastOfNames`, `mem_lastOfNames`: the last model of each name;
* `unionByLine`, `mem_unionByLine`: two lists of models together, in the order of the lines;
* `lastOfNames_union`: dropping earlier models of a name commutes with putting lists together;
* **`readModels_markers_append`**: the models by two lists of markers are those by each of them.
-/

namespace ModelTypings.Source

open Files

/-! ## The model that a class is -/

theorem isModelBase_append (M₁ M₂ : List String) (base : String) :
    isModelBase (M₁ ++ M₂) base = (isModelBase M₁ base || isModelBase M₂ base) :=
  List.any_append

theorem isModel_append (h : ClassHeader) (M₁ M₂ : List String) :
    h.isModel (M₁ ++ M₂) = (h.isModel M₁ || h.isModel M₂) := by
  rw [Bool.eq_iff_iff]
  simp only [ClassHeader.isModel, Bool.or_eq_true, List.any_eq_true, isModelBase_append]
  constructor
  · rintro ⟨base, hb, h₁ | h₂⟩
    · exact Or.inl ⟨base, hb, h₁⟩
    · exact Or.inr ⟨base, hb, h₂⟩
  · rintro (⟨base, hb, h₁⟩ | ⟨base, hb, h₂⟩)
    · exact ⟨base, hb, Or.inl h₁⟩
    · exact ⟨base, hb, Or.inr h₂⟩

/-- **A class is a model by two lists of markers** if it is one by either of them, and the same
one. -/
theorem model?_append (file : Path) (M₁ M₂ : List String) (b : Body) (x : Model) :
    b.model? file (M₁ ++ M₂) = some x ↔ b.model? file M₁ = some x ∨ b.model? file M₂ = some x := by
  unfold Body.model?
  cases b.header with
  | none => simp
  | some h =>
    dsimp only
    rw [isModel_append]
    cases h.isModel M₁ <;> cases h.isModel M₂ <;> simp

/-! ## The last of each name -/

/-- The last model of each name. -/
def lastOfNames : List Model → List Model
  | [] => []
  | x :: xs => if xs.any fun y => y.name == x.name then lastOfNames xs else x :: lastOfNames xs

theorem lastOfNames_eq (xs : List Model) : lastOfNames xs = xs.pwFilter Differs := by
  induction xs with
  | nil => rfl
  | cons x xs ih =>
    rw [lastOfNames, ih]
    have hany : (xs.any fun y => y.name == x.name) = true ↔ ¬ ∀ y ∈ xs, Differs x y := by
      simp [Differs, eq_comm (a := x.name)]
    by_cases h : ∀ y ∈ xs, Differs x y
    · rw [pwFilter_differs_of_forall h, if_neg fun hx => hany.mp hx h]
    · rw [pwFilter_differs_of_not h, if_pos (hany.mpr h)]

/-- Each model stands on a line below those before it. -/
abbrev SortedByLine (xs : List Model) : Prop := xs.Pairwise fun x y => x.line < y.line

theorem SortedByLine.eq_of_line {xs : List Model} (hxs : SortedByLine xs) {x y : Model}
    (hx : x ∈ xs) (hy : y ∈ xs) (h : x.line = y.line) : x = y :=
  List.inj_on_of_nodup_map (List.pairwise_map.mpr (hxs.imp fun h => h.ne)) hx hy h

section LastOfNames

variable {xs ys : List Model} {x y : Model}

theorem lastOfNames_sublist (xs : List Model) : (lastOfNames xs).Sublist xs := by
  rw [lastOfNames_eq]
  exact List.pwFilter_sublist xs

theorem mem_lastOfNames (hxs : SortedByLine xs) :
    x ∈ lastOfNames xs ↔ x ∈ xs ∧ ∀ y ∈ xs, y.name = x.name → y.line ≤ x.line := by
  rw [lastOfNames_eq, mem_pwFilter_differs]
  constructor
  · rintro ⟨above, below, rfl, hlast⟩
    refine ⟨by simp, fun y hy hname => ?_⟩
    rcases List.mem_append.mp hy with hy | hy
    · exact ((List.pairwise_append.mp hxs).2.2 y hy x (by simp)).le
    · rcases List.mem_cons.mp hy with rfl | hy
      · exact le_rfl
      · exact absurd hname.symm (hlast y hy)
  · rintro ⟨hx, hlast⟩
    obtain ⟨above, below, rfl⟩ := List.append_of_mem hx
    refine ⟨above, below, rfl, fun y hy hname => ?_⟩
    have hbelow := (List.pairwise_cons.mp (List.pairwise_append.mp hxs).2.1).1 y hy
    have := hlast y (by simp [hy]) hname.symm
    omega

theorem exists_mem_lastOfNames (hxs : SortedByLine xs) (hy : y ∈ xs) :
    ∃ x ∈ lastOfNames xs, x.name = y.name ∧ y.line ≤ x.line := by
  induction xs generalizing y with
  | nil => exact nomatch hy
  | cons z zs ih =>
    obtain ⟨hz, hzs⟩ := List.pairwise_cons.mp hxs
    rw [lastOfNames]
    split
    · next hany =>
      rcases List.mem_cons.mp hy with rfl | hy
      · obtain ⟨w, hw, hname⟩ := List.any_eq_true.mp hany
        obtain ⟨x, hx, hxw, hline⟩ := ih hzs hw
        have := hz w hw
        exact ⟨x, hx, hxw.trans (beq_iff_eq.mp hname), by omega⟩
      · exact ih hzs hy
    · rcases List.mem_cons.mp hy with rfl | hy
      · exact ⟨y, List.mem_cons_self, rfl, le_rfl⟩
      · obtain ⟨x, hx, h⟩ := ih hzs hy
        exact ⟨x, List.mem_cons_of_mem _ hx, h⟩

end LastOfNames

/-! ## Lists of models put together -/

/-- Two lists of models together, each line once, in the order of the lines. -/
def unionByLine (xs ys : List Model) : List Model :=
  (xs ++ ys.filter fun y => !xs.any fun x => x.line == y.line).mergeSort fun x y =>
    decide (x.line ≤ y.line)

/-- Models on one line are the same model. -/
def AgreeOnLines (xs ys : List Model) : Prop := ∀ x ∈ xs, ∀ y ∈ ys, x.line = y.line → x = y

section Union

variable {xs ys : List Model} {x : Model}

theorem mem_unionByLine (h : AgreeOnLines xs ys) : x ∈ unionByLine xs ys ↔ x ∈ xs ∨ x ∈ ys := by
  rw [unionByLine, List.mem_mergeSort, List.mem_append, List.mem_filter]
  constructor
  · rintro (hx | ⟨hx, -⟩)
    · exact Or.inl hx
    · exact Or.inr hx
  · rintro (hx | hx)
    · exact Or.inl hx
    · by_cases hany : xs.any fun y => y.line == x.line
      · obtain ⟨y, hy, hline⟩ := List.any_eq_true.mp hany
        exact Or.inl (h y hy x hx (beq_iff_eq.mp hline) ▸ hy)
      · exact Or.inr ⟨hx, by simpa using hany⟩

theorem sortedByLine_unionByLine (hxs : SortedByLine xs) (hys : SortedByLine ys) :
    SortedByLine (unionByLine xs ys) := by
  have hle : (unionByLine xs ys).Pairwise fun x y => decide (x.line ≤ y.line) = true :=
    List.pairwise_mergeSort (by intro x y z; simp; omega) (by intro x y; simp; omega) _
  -- no line stands twice before the sorting, so none does after it
  have hne : (unionByLine xs ys).Pairwise fun x y => x.line ≠ y.line := by
    refine ((List.mergeSort_perm _ _).pairwise_iff fun {x y} h => h.symm).mpr ?_
    refine List.pairwise_append.mpr ⟨hxs.imp fun h => h.ne, (hys.filter _).imp fun h => h.ne, ?_⟩
    intro x hx y hy hline
    have hnot := (List.mem_filter.mp hy).2
    rw [List.any_eq_true.mpr ⟨x, hx, by simpa using hline⟩] at hnot
    exact nomatch hnot
  refine hle.imp₂ (fun x y h hxy => ?_) hne
  have := of_decide_eq_true h
  omega

theorem mem_of_mem_lastOfNames {zs : List Model} (hmem : ∀ x, x ∈ zs ↔ x ∈ xs ∨ x ∈ ys)
    (hx : x ∈ lastOfNames xs ∨ x ∈ lastOfNames ys) : x ∈ zs := by
  rcases hx with hx | hx
  · exact (hmem x).mpr (Or.inl ((lastOfNames_sublist xs).subset hx))
  · exact (hmem x).mpr (Or.inr ((lastOfNames_sublist ys).subset hx))

theorem agreeOnLines_lastOfNames {zs : List Model} (hzs : SortedByLine zs)
    (hmem : ∀ x, x ∈ zs ↔ x ∈ xs ∨ x ∈ ys) : AgreeOnLines (lastOfNames xs) (lastOfNames ys) :=
  fun _ hx _ hy => hzs.eq_of_line (mem_of_mem_lastOfNames hmem (Or.inl hx))
    (mem_of_mem_lastOfNames hmem (Or.inr hy))

/-- **Dropping earlier models of a name commutes with putting lists together.** -/
theorem lastOfNames_union {zs : List Model} (hzs : SortedByLine zs) (hxs : SortedByLine xs)
    (hys : SortedByLine ys) (hmem : ∀ x, x ∈ zs ↔ x ∈ xs ∨ x ∈ ys) :
    lastOfNames zs = lastOfNames (unionByLine (lastOfNames xs) (lastOfNames ys)) := by
  have hagree := agreeOnLines_lastOfNames hzs hmem
  have hunion := sortedByLine_unionByLine (hxs.sublist (lastOfNames_sublist xs))
    (hys.sublist (lastOfNames_sublist ys))
  -- what is dropped from one of the lists is dropped for a model of its name further below
  have hlater : ∀ y ∈ zs, ∃ x, (x ∈ lastOfNames xs ∨ x ∈ lastOfNames ys) ∧ x.name = y.name ∧
      y.line ≤ x.line := by
    intro y hy
    rcases (hmem y).mp hy with hy | hy
    · obtain ⟨x, hx, h⟩ := exists_mem_lastOfNames hxs hy
      exact ⟨x, Or.inl hx, h⟩
    · obtain ⟨x, hx, h⟩ := exists_mem_lastOfNames hys hy
      exact ⟨x, Or.inr hx, h⟩
  apply List.Pairwise.eq_of_mem_iff (hzs.sublist (lastOfNames_sublist zs))
    (hunion.sublist (lastOfNames_sublist _))
  intro x
  rw [mem_lastOfNames hzs, mem_lastOfNames hunion, mem_unionByLine hagree]
  constructor
  · rintro ⟨hx, hlast⟩
    refine ⟨?_, fun y hy =>
      hlast y (mem_of_mem_lastOfNames hmem ((mem_unionByLine hagree).mp hy))⟩
    rcases (hmem x).mp hx with hx | hx
    · exact Or.inl ((mem_lastOfNames hxs).mpr ⟨hx, fun y hy => hlast y ((hmem y).mpr (Or.inl hy))⟩)
    · exact Or.inr ((mem_lastOfNames hys).mpr ⟨hx, fun y hy => hlast y ((hmem y).mpr (Or.inr hy))⟩)
  · rintro ⟨hx, hlast⟩
    refine ⟨mem_of_mem_lastOfNames hmem hx, fun y hy hname => ?_⟩
    obtain ⟨z, hz, hzy, hline⟩ := hlater y hy
    have := hlast z ((mem_unionByLine hagree).mpr hz) (hzy.trans hname)
    omega

end Union

/-! ## The models of a file -/

section Reader

variable (file : Path) (markers : List String)

/-- The model classes of a file, with those that are declared again. -/
def modelClasses (content : String) : List Model :=
  (classesOf content).filterMap (Body.model? file markers)

theorem sortedByLine_modelClasses (content : String) :
    SortedByLine (modelClasses file markers content) := by
  refine List.Pairwise.filterMap _ (fun b c hbc x hx y hy => ?_) (classesOf_isOrdered content).2
  rw [(model?_eq_some hx).1, (model?_eq_some hy).1]
  exact hbc.1

theorem mem_modelClasses_append (M₁ M₂ : List String) (content : String) (x : Model) :
    x ∈ modelClasses file (M₁ ++ M₂) content ↔
      x ∈ modelClasses file M₁ content ∨ x ∈ modelClasses file M₂ content := by
  simp only [modelClasses, List.mem_filterMap, model?_append, and_or_left, exists_or]

theorem models_eq_lastOfNames {content : String} {m : Models}
    (h : (readModels file markers content).1 = .ok m) :
    m.models = lastOfNames (modelClasses file markers content) := by
  rw [eq_select_of_readModels h, models_select, lastOfNames_eq]
  rfl

/-- Whether a file can be read does not depend on the markers, nor does the fault. -/
theorem readModels_eq_error_iff (content : String) (f : Log.SourceFault) (M : List String) :
    (readModels file markers content).1 = .error f ↔ (readModels file M content).1 = .error f := by
  rw [readModels_eq_select, readModels_eq_select]
  cases (Phase.outside {}).after 0 (Text.lines content.toList) <;> simp

theorem exists_readModels_eq_ok {content : String} {m : Models}
    (h : (readModels file markers content).1 = .ok m) (M : List String) :
    ∃ m', (readModels file M content).1 = .ok m' := by
  cases hM : (readModels file M content).1 with
  | ok m' => exact ⟨m', rfl⟩
  | error f =>
    rw [(readModels_eq_error_iff file markers content f M).mpr hM] at h
    exact nomatch h

end Reader

/-- **Markers only select.** With the markers of two lists a file fails as it does with those of
each list. If it can be read, its models are those found with each list put together, a model being
told by its line, and of each name the last one. -/
theorem readModels_markers_append (file : Path) (M₁ M₂ : List String) (content : String) :
    (∀ f, (readModels file (M₁ ++ M₂) content).1 = .error f ↔
      (readModels file M₁ content).1 = .error f) ∧
    (∀ f, (readModels file (M₁ ++ M₂) content).1 = .error f ↔
      (readModels file M₂ content).1 = .error f) ∧
    ∀ m, (readModels file (M₁ ++ M₂) content).1 = .ok m →
      ∃ m₁ m₂, (readModels file M₁ content).1 = .ok m₁ ∧ (readModels file M₂ content).1 = .ok m₂ ∧
        AgreeOnLines m₁.models m₂.models ∧
        m.models = lastOfNames (unionByLine m₁.models m₂.models) := by
  refine ⟨fun f => readModels_eq_error_iff .., fun f => readModels_eq_error_iff .., fun m h => ?_⟩
  obtain ⟨m₁, h₁⟩ := exists_readModels_eq_ok file _ h M₁
  obtain ⟨m₂, h₂⟩ := exists_readModels_eq_ok file _ h M₂
  have hsorted := fun M => sortedByLine_modelClasses file M content
  have hmem := mem_modelClasses_append file M₁ M₂ content
  refine ⟨m₁, m₂, h₁, h₂, ?_, ?_⟩
  · rw [models_eq_lastOfNames file _ h₁, models_eq_lastOfNames file _ h₂]
    exact agreeOnLines_lastOfNames (hsorted (M₁ ++ M₂)) hmem
  · rw [models_eq_lastOfNames file _ h, models_eq_lastOfNames file _ h₁,
      models_eq_lastOfNames file _ h₂]
    exact lastOfNames_union (hsorted (M₁ ++ M₂)) (hsorted M₁) (hsorted M₂) hmem

/-- A class declared twice, each time a model by other markers. -/
theorem readModels_markers_append_redeclared :
    let content := "class A(Base):\n x = F()\nclass B(Model): pass\nclass A(Model): y = G()\n"
    ∃ m m₁ m₂, (readModels ⟨["m.py"]⟩ (["Base"] ++ ["Model"]) content).1 = .ok m ∧
      (readModels ⟨["m.py"]⟩ ["Base"] content).1 = .ok m₁ ∧
      (readModels ⟨["m.py"]⟩ ["Model"] content).1 = .ok m₂ ∧
      AgreeOnLines m₁.models m₂.models ∧
      m.models = lastOfNames (unionByLine m₁.models m₂.models) ∧
      m.models = [⟨"B", [], ⟨["m.py"]⟩, 3⟩, ⟨"A", [⟨"y", "G", true, 4⟩], ⟨["m.py"]⟩, 4⟩] := by
  intro content
  have h : (readModels ⟨["m.py"]⟩ (["Base"] ++ ["Model"]) content).1 =
      .ok ⟨[⟨"B", [], ⟨["m.py"]⟩, 3⟩, ⟨"A", [⟨"y", "G", true, 4⟩], ⟨["m.py"]⟩, 4⟩], 1⟩ := by
    decide +kernel
  obtain ⟨-, -, hall⟩ := readModels_markers_append ⟨["m.py"]⟩ ["Base"] ["Model"] content
  obtain ⟨m₁, m₂, h₁, h₂, hagree, hm⟩ := hall _ h
  exact ⟨_, m₁, m₂, h, h₁, h₂, hagree, hm, rfl⟩

end ModelTypings.Source
