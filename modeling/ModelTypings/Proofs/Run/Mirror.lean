import ModelTypings.Proofs.Run.Effect

/-!
# Outputs and labels of the files that a scan finds

* `label_below`, `splitOn_labelOf`, `texts_eq_of_labelOf`: a label is made of the texts of the names
  to a file, and tells them;
* `IsMirrored`, `isMirrored_below`: the output and the label of a file by the names to it;
* **`scan_mirrored`**: the files that a scan finds have outputs of their own, and labels of their own
  as far as the texts of their names differ;
* **`not_labels_differ`**: names that are no texts can share a label.
-/

namespace ModelTypings.Run

open Files Settings

/-! ## Labels -/

theorem components_names {names : List Name} (hne : names ≠ [])
    (hn : ∀ n ∈ names, Path.IsName n) : Path.components ⟨names⟩ = names.map .name := by
  have h := Path.below_eq Path.empty hne fun n hm => (hn n hm).ne_empty
  have hbase : Path.empty.base = [] := rfl
  rw [hbase, List.nil_append] at h
  rw [← h, Path.components_below _ hn]
  rfl

theorem namesBelow_below {dir : Path} (hdir : ¬dir.isEmpty = true) {names : List Name}
    (hne : names ≠ []) (hn : ∀ n ∈ names, Path.IsName n) :
    namesBelow (dir.below names) dir = names := by
  rw [namesBelow, Path.relativeTo?_below hdir hne hn]
  exact Path.names_eq (components_names hne hn)

/-- **The label of a file** is made of the texts of the names that lead to it. -/
theorem label_below {dir : Path} (hdir : ¬dir.isEmpty = true) {names : List Name}
    (hne : names ≠ []) (hn : ∀ n ∈ names, Path.IsName n) :
    label (dir.below names) dir = labelOf names := by
  rw [label, namesBelow_below hdir hne hn]

theorem splitOn_labelOf {names : List Name} (hne : names ≠ []) (hn : ∀ n ∈ names, Path.IsName n) :
    (labelOf names).toList.splitOn '/' = names.map fun n => n.text.toList := by
  rw [labelOf, String.toList_intercalate, List.map_map]
  refine List.splitOn_intercalate '/' (fun l hl => ?_) (by simpa using hne)
  obtain ⟨n, hm, rfl⟩ := List.mem_map.mp hl
  exact Name.slash_notMem_text (hn n hm).no_slash

/-- A label tells the texts that it is made of. -/
theorem texts_eq_of_labelOf {names names' : List Name} (hne : names ≠ []) (hne' : names' ≠ [])
    (hn : ∀ n ∈ names, Path.IsName n) (hn' : ∀ n ∈ names', Path.IsName n)
    (h : labelOf names = labelOf names') : names.map Name.text = names'.map Name.text := by
  apply List.map_injective_iff.mpr fun a b => String.toList_inj.mp
  rw [List.map_map, List.map_map]
  exact (splitOn_labelOf hne hn).symm.trans (h ▸ splitOn_labelOf hne' hn')

theorem names_inj_of_isText : ∀ {names names' : List Name},
    (∀ n ∈ names ++ names', n.IsText) → names.map Name.text = names'.map Name.text →
      names = names'
  | [], [], _, _ => rfl
  | n :: names, n' :: names', ht, h => by
    obtain ⟨hhead, htail⟩ := List.cons.inj h
    have hn := Name.text_injective (ht n (by simp)) (ht n' (by simp)) hhead
    rw [hn, names_inj_of_isText (fun m hm => ht m ?_) htail]
    simp only [List.mem_append, List.mem_cons] at hm ⊢
    exact hm.imp Or.inr Or.inr

/-! ## Outputs -/

/-- **The output and the label of a file** are made of the names that lead to it from the source
directory, the output with another extension of the last name, the label of their texts. -/
structure IsMirrored (s : Settings) (file : Path) (init : List Name) (stem : Name)
    (output : Path) : Prop where
  source : file.components =
    s.input.sourceDir.components ++ (init ++ [stem ++ "." ++ "py"]).map .name
  leads : outputPath? file s.input.sourceDir s.output.destDir = some output
  output : output.components =
    s.output.destDir.components ++ (init ++ [stem ++ "." ++ "ts"]).map .name
  names : namesBelow file s.input.sourceDir = init ++ [stem ++ "." ++ "py"]
  label : label file s.input.sourceDir =
    "/".intercalate ((init ++ [stem ++ "." ++ "py"]).map Name.text)

theorem isMirrored_below {s : Settings} (hdir : ¬s.input.sourceDir.isEmpty = true)
    {names : List Name} (hn : IsSource names) :
    ∃ init stem output, IsMirrored s (s.input.sourceDir.below names) init stem output := by
  obtain ⟨hnamed, init, stem, rfl, hs⟩ := id hn
  have hleads := outputPath?_below hdir s.output.destDir hn
  have hout := Path.components_below s.output.destDir (isName_outputNames hn)
  rw [outputNames_eq hs] at hleads hout
  exact ⟨init, stem, _, Path.components_below _ hnamed, hleads, hout,
    namesBelow_below hdir hn.ne_nil hnamed, label_below hdir hn.ne_nil hnamed⟩

theorem outputs_differ {s : Settings} (hdir : ¬s.input.sourceDir.isEmpty = true)
    {names names' : List Name} (hn : IsSource names) (hn' : IsSource names')
    (hne : names ≠ names') {output output' : Path}
    (ho : outputPath? (s.input.sourceDir.below names) s.input.sourceDir s.output.destDir =
      some output)
    (ho' : outputPath? (s.input.sourceDir.below names') s.input.sourceDir s.output.destDir =
      some output') : output.components ≠ output'.components := by
  rw [outputPath?_below hdir _ hn] at ho
  rw [outputPath?_below hdir _ hn'] at ho'
  rw [← Option.some.inj ho, ← Option.some.inj ho', Path.components_below _ (isName_outputNames hn),
    Path.components_below _ (isName_outputNames hn')]
  intro h
  have hnames := List.map_injective_iff.mpr (fun a b => Component.name.inj)
    (List.append_cancel_left h)
  exact hne (outputNames_inj hn hn' hnames)

theorem label_eq_iff {dir : Path} (hdir : ¬dir.isEmpty = true) {names names' : List Name}
    (hn : IsSource names) (hn' : IsSource names') :
    label (dir.below names) dir = label (dir.below names') dir ↔
      names.map Name.text = names'.map Name.text := by
  rw [label_below hdir hn.ne_nil hn.named, label_below hdir hn'.ne_nil hn'.named]
  exact ⟨texts_eq_of_labelOf hn.ne_nil hn'.ne_nil hn.named hn'.named,
    fun h => congrArg ("/".intercalate ·) h⟩

/-- **Outputs mirror the source directory without collision**, however the source directory and the
destination are spelled. Every file that a scan finds has an output and a label made of the names
that lead to it. No two files share an output. They share a label only if the texts of their names
are the same, which takes a name that is no text. -/
theorem scan_mirrored {s : Settings} {t : Tree} (hs : t.Sound)
    (hd : t.isDirectory s.input.sourceDir = true) :
    ∃ files events, scan s.input t = .ok (files, events) ∧
      (∀ file ∈ files, ∃ init stem output, IsMirrored s file init stem output) ∧
      ∀ file ∈ files, ∀ file' ∈ files, file ≠ file' →
        (∀ output output', outputPath? file s.input.sourceDir s.output.destDir = some output →
          outputPath? file' s.input.sourceDir s.output.destDir = some output' →
            output.components ≠ output'.components) ∧
        (label file s.input.sourceDir = label file' s.input.sourceDir ↔
          (namesBelow file s.input.sourceDir).map Name.text =
            (namesBelow file' s.input.sourceDir).map Name.text) ∧
        ((∀ n ∈ namesBelow file s.input.sourceDir ++ namesBelow file' s.input.sourceDir,
          n.IsText) → label file s.input.sourceDir ≠ label file' s.input.sourceDir) := by
  obtain ⟨hne, nss, events, hscan, -, hinput⟩ := scan_inputs hs hd
  have hsource : ∀ names ∈ nss, IsSource names := fun names hm => (hinput names hm).source
  refine ⟨_, events, hscan, ?_, ?_⟩
  · intro file hf
    obtain ⟨names, hm, rfl⟩ := List.mem_map.mp hf
    exact isMirrored_below hne (hsource names hm)
  · intro file hf file' hf' hdiffer
    obtain ⟨names, hm, rfl⟩ := List.mem_map.mp hf
    obtain ⟨names', hm', rfl⟩ := List.mem_map.mp hf'
    have hn := hsource names hm
    have hn' := hsource names' hm'
    have hnames : names ≠ names' := fun e => hdiffer (e ▸ rfl)
    have hlabel := label_eq_iff hne hn hn'
    rw [namesBelow_below hne hn.ne_nil hn.named, namesBelow_below hne hn'.ne_nil hn'.named]
    refine ⟨fun output output' ho ho' => outputs_differ hne hn hn' hnames ho ho', hlabel, ?_⟩
    exact fun htext h => hnames (names_inj_of_isText htext (hlabel.mp h))

/-- The source directory is reached by way of itself, the destination is absolute. One file stands
behind a link, the names of others start with a dot or hold several, and one name is no text. -/
theorem scan_mirrored_spellings :
    let s : Settings := {
      input := { sourceDir := .ofText ".//app/../app/" }
      output := { destDir := .ofText "/out/./../types//" } }
    let t : Tree := ⟨[(["app"], .directory), (["app", "a"], .link (.ofText "../b")),
      (["b"], .directory), (["b", "models.py"], .file (.text "")),
      (["app", "models"], .directory), (["app", "models", "..c.py"], .file (.text "")),
      (["app", "models", ".py"], .file (.text "")),
      (["app", "models", "v1.2.py"], .file (.text "")),
      (["app", "models", "v1.py"], .file (.text "")),
      (["app", "models", ⟨[0xC3]⟩ ++ ".py"], .file (.text ""))], []⟩
    (scan s.input t).map (fun found => found.1.map fun file => label file s.input.sourceDir) =
      .ok ["a/models.py", "models/..c.py", "models/v1.2.py", "models/v1.py",
        "models/\uFFFD.py"] ∧
    ∃ files events, scan s.input t = .ok (files, events) ∧
      (∀ file ∈ files, ∃ init stem output, IsMirrored s file init stem output) ∧
      ∀ file ∈ files, ∀ file' ∈ files, file ≠ file' →
        (∀ output output', outputPath? file s.input.sourceDir s.output.destDir = some output →
          outputPath? file' s.input.sourceDir s.output.destDir = some output' →
            output.components ≠ output'.components) ∧
        (label file s.input.sourceDir = label file' s.input.sourceDir ↔
          (namesBelow file s.input.sourceDir).map Name.text =
            (namesBelow file' s.input.sourceDir).map Name.text) ∧
        ((∀ n ∈ namesBelow file s.input.sourceDir ++ namesBelow file' s.input.sourceDir,
          n.IsText) → label file s.input.sourceDir ≠ label file' s.input.sourceDir) := by
  intro s t
  have hs : t.Sound := by decide +kernel
  have hd : t.isDirectory s.input.sourceDir = true := by decide +kernel
  exact ⟨by decide +kernel, scan_mirrored hs hd⟩

/-- **Two files share a label**: their directories have different names, neither of which is a
text. -/
theorem not_labels_differ : ∃ (s : Settings) (t : Tree) (file file' : Path),
    t.Sound ∧ s.validate t = .ok () ∧ (scan s.input t).map Prod.fst = .ok [file, file'] ∧
      file ≠ file' ∧ label file s.input.sourceDir = label file' s.input.sourceDir := by
  let s : Settings := {
    input := { sourceDir := .ofText "src" }
    output := { destDir := .ofText "out" } }
  let t : Tree := ⟨[(["src"], .directory),
    (["src", ⟨[0xFE]⟩], .directory), (["src", ⟨[0xFE]⟩, "models.py"], .file (.text "")),
    (["src", ⟨[0xFF]⟩], .directory), (["src", ⟨[0xFF]⟩, "models.py"], .file (.text ""))], []⟩
  exact ⟨s, t, ⟨["src", ⟨[0xFE]⟩, "models.py"]⟩, ⟨["src", ⟨[0xFF]⟩, "models.py"]⟩,
    by decide +kernel, by decide +kernel, by decide +kernel, by decide, by decide +kernel⟩

end ModelTypings.Run
