import ModelTypings.Proofs.Files.Relative
import ModelTypings.Run.Target

/-!
# Where the interfaces of a file are written

* `outputNames`, **`outputPath?_below`**: the output of a file stands below the destination as the
  file does below the source directory;
* `outputNames_inj`, `outputNames_ne`: outputs of different files differ, and none of them is a
  source file;
* `not_outputNames_isPrefix`: an output is never above that of an earlier file;
* `outputPath?_names`: an output path is made of names.
-/

namespace ModelTypings.Run

open Files

/-- The names to a file with the extension of interfaces. -/
def outputNames (names : List Name) : List Name :=
  names.dropLast ++ names.getLast?.toList.map fun n => (Path.splitName n).1 ++ "." ++ "ts"

/-- The names lead to a source file. -/
structure IsSource (names : List Name) : Prop where
  named : ∀ n ∈ names, Path.IsName n
  python : ∃ (init : List Name) (stem : Name), names = init ++ [stem ++ "." ++ "py"] ∧
    Path.splitName (stem ++ "." ++ "py") = (stem, some (.ofText "py"))

theorem IsSource.ne_nil {names : List Name} (hn : IsSource names) : names ≠ [] := by
  obtain ⟨_, init, stem, rfl, _⟩ := hn
  simp

theorem isName_ts {stem : Name} (h : Path.IsName (stem ++ "." ++ "py")) :
    Path.IsName (stem ++ "." ++ "ts") := by
  have hlong : ∀ {n : Name}, n.bytes.length < 3 → stem ++ "." ++ "ts" ≠ n := by
    intro n hn e
    have hl := congrArg (fun m => m.bytes.length) e
    have hts : (Name.ofText "ts").bytes.length = 2 := by decide
    rw [Name.bytes_append_dot, List.length_append, List.length_cons, hts] at hl
    omega
  refine ⟨?_, hlong (by decide), ?_⟩
  · rw [Path.isFiller, Bool.or_eq_true, beq_iff_eq, beq_iff_eq]
    rintro (e | e)
    · exact hlong (by decide) e
    · exact hlong (by decide) e
  · have hs := h.no_slash
    rw [Name.bytes_append_dot, List.mem_append] at hs ⊢
    rintro (h | h)
    · exact hs (Or.inl h)
    · exact absurd h (by decide)

theorem outputNames_eq {init : List Name} {stem extension : Name}
    (h : Path.splitName (stem ++ "." ++ extension) = (stem, some extension)) :
    outputNames (init ++ [stem ++ "." ++ extension]) = init ++ [stem ++ "." ++ "ts"] := by
  rw [outputNames, List.dropLast_concat, List.getLast?_concat, Option.toList_some,
    List.map_singleton, h]

/-- **The interfaces of a file stand below the destination** as the file does below the source. -/
theorem outputPath?_below {dir : Path} (hdir : ¬dir.isEmpty = true) (dest : Path)
    {names : List Name} (hn : IsSource names) :
    outputPath? (dir.below names) dir dest = some (dest.below (outputNames names)) := by
  obtain ⟨hnamed, init, stem, rfl, hs⟩ := hn
  have hne : ∀ n ∈ init ++ [stem ++ "." ++ "py"], n ≠ "" := fun n hn => (hnamed n hn).ne_empty
  rw [outputPath?, Path.relativeTo?_below hdir (by simp) hnamed, Option.map_some,
    Path.join_names dest (by simp) hne, Path.below_concat,
    Path.withExtension_child _ (hnamed _ (by simp)), hs, outputNames_eq hs, Path.below_concat]

theorem isName_outputNames {names : List Name} (hn : IsSource names) :
    ∀ n ∈ outputNames names, Path.IsName n := by
  obtain ⟨hnamed, init, stem, rfl, hs⟩ := hn
  rw [outputNames_eq hs]
  intro n hn
  rcases List.mem_append.mp hn with hn | hn
  · exact hnamed n (List.mem_append_left _ hn)
  · exact List.mem_singleton.mp hn ▸ isName_ts (hnamed _ (by simp))

theorem outputNames_inj {names names' : List Name} (hn : IsSource names)
    (hn' : IsSource names') (h : outputNames names = outputNames names') : names = names' := by
  obtain ⟨_, init, stem, rfl, hs⟩ := hn
  obtain ⟨_, init', stem', rfl, hs'⟩ := hn'
  rw [outputNames_eq hs, outputNames_eq hs'] at h
  obtain ⟨rfl, hlast⟩ := List.append_inj' h rfl
  have he : stem = stem' := by
    have hb := congrArg Name.bytes (List.cons.inj hlast).1
    rw [Name.bytes_append_dot, Name.bytes_append_dot] at hb
    exact Name.ext (List.append_cancel_right hb)
  rw [he]

theorem outputNames_ne {names : List Name} (hn : IsSource names) (a b : List Name)
    (stem : Name) : a ++ [stem ++ "." ++ "py"] ≠ b ++ outputNames names := by
  obtain ⟨_, init', stem', rfl, hs⟩ := hn
  rw [outputNames_eq hs]
  intro h
  have hl := congrArg List.getLast? h
  rw [← List.append_assoc, List.getLast?_concat, List.getLast?_concat] at hl
  have hb := congrArg Name.bytes (Option.some.inj hl)
  rw [Name.bytes_append_dot, Name.bytes_append_dot] at hb
  exact absurd (List.append_inj_right' hb rfl) (by decide)

theorem outputPath?_names {dir dest : Path} (hdir : ¬dir.isEmpty = true)
    (hd : ∀ c ∈ dest.components, ∃ n, c = .name n) {names : List Name} (hn : IsSource names) :
    ∃ output, outputPath? (dir.below names) dir dest = some output ∧
      output.components = (dest.names ++ outputNames names).map .name := by
  refine ⟨_, outputPath?_below hdir dest hn, ?_⟩
  rw [Path.components_below _ (isName_outputNames hn), Path.components_eq hd, List.map_append]

/-- The output of a file is never above that of an earlier file. -/
theorem not_outputNames_isPrefix {names names' : List Name} (hn : IsSource names)
    (hn' : IsSource names') (hlt : names < names') :
    ¬outputNames names' <+: outputNames names := by
  intro h
  obtain ⟨_, init, stem, rfl, hs⟩ := id hn
  obtain ⟨_, init', stem', rfl, hs'⟩ := id hn'
  rw [outputNames_eq hs, outputNames_eq hs', List.prefix_concat_iff] at h
  rcases h with h | ⟨rest, rfl⟩
  · rw [← outputNames_eq hs, ← outputNames_eq hs'] at h
    rw [outputNames_inj hn' hn h] at hlt
    exact List.lt_irrefl _ hlt
  · -- a directory on the way has the name of the output, which comes after that of its source
    have hts : stem' ++ "." ++ "py" < stem' ++ "." ++ "ts" :=
      List.append_left_lt (by decide : (Name.ofText "py").bytes < (Name.ofText "ts").bytes)
    refine List.lt_asymm hlt ?_
    rw [List.append_assoc, List.append_assoc]
    apply List.append_left_lt
    exact List.cons_lt_cons_iff.mpr (Or.inl hts)

theorem outputNames_ne_nil {names : List Name} (hn : IsSource names) : outputNames names ≠ [] := by
  obtain ⟨_, init, stem, rfl, hs⟩ := hn
  rw [outputNames_eq hs]
  simp

end ModelTypings.Run
