import ModelTypings.Proofs.Files.Save
import ModelTypings.Proofs.Run.Scan
import ModelTypings.Proofs.Run.Target
import ModelTypings.Proofs.Settings.Usable
import ModelTypings.Run.Basic

/-!
# What a run changes

* `text?`, `Progress.visit_of_text`, `Progress.visit_of_none`: what one more file does;
* `Holds`, `Holds.snoc`: a tree after some writes;
* `Holds.outcome_eq`: writes leave the source files as they were;
* `write?`, `Progress.visitAll_holds`: the tree after some files;
* **`run_leaves`**: a run leaves the interfaces of each file with models, the directories above
  them, and everything else as it was.
-/

namespace ModelTypings.Run

open Files Settings TypeScript

/-! ## One file -/

/-- The text that a run writes for a file. There is none for a file that cannot be read or holds no
models. -/
def text? (s : Settings) (t : Tree) (file : Path) : Option String :=
  match t.readText file with
  | .error _ => none
  | .ok content =>
    match (Source.readModels file s.input.modelBases content).1 with
    | .error _ => none
    | .ok found =>
      if found.models.isEmpty then none
      else some ((Style.ofSettings s).fileText found.models (label file s.input.sourceDir))

theorem text?_eq (s : Settings) (t : Tree) (file : Path) : text? s t file =
    match (outcome s t file).1 with
    | .models found =>
      some ((Style.ofSettings s).fileText found.models (label file s.input.sourceDir))
    | _ => none := by
  rw [text?, outcome]
  cases t.readText file with
  | error f => rfl
  | ok content =>
    dsimp only
    match Source.readModels file s.input.modelBases content with
    | (.error f, events) => rfl
    | (.ok found, events) =>
      dsimp only
      cases found.models.isEmpty <;> rfl

namespace Progress

variable {p p' : Progress} {s : Settings} {verbose : Bool} {file output : Path}

/-- **Interfaces are saved** where the output path leads, and counted if nothing fails. -/
theorem write_of_output (verbose : Bool) (found : Source.Models)
    (ho : outputPath? file s.input.sourceDir s.output.destDir = some output) :
    let saved := p.tree.save output
      ((Style.ofSettings s).fileText found.models (label file s.input.sourceDir))
    (p.write s verbose file found).1.tree = saved.1 ∧
      (p.write s verbose file found).2 = saved.2.map .save ∧
      (saved.2 = none → (p.write s verbose file found).1.summary = { p.summary with
        written := p.summary.written + 1
        interfaces := p.summary.interfaces + found.models.length
        unknownFields := p.summary.unknownFields +
          unknownFields (Style.ofSettings s) found.models }) := by
  unfold write
  dsimp only
  rw [ho]
  -- the event of other statements leaves the tree and the counts alone
  generalize hq : (if 0 < found.skipped then
    p.log (label file s.input.sourceDir) [.otherStatements found.skipped] else p) = q
  have hsame : q.tree = p.tree ∧ q.summary = p.summary := by
    rw [← hq]
    split <;> exact ⟨rfl, rfl⟩
  rw [← hsame.1, ← hsame.2]
  dsimp only [log]
  cases q.tree.save output
    ((Style.ofSettings s).fileText found.models (label file s.input.sourceDir)) with
  | mk tree fault =>
    cases fault with
    | none => exact ⟨rfl, rfl, fun _ => rfl⟩
    | some f => exact ⟨rfl, rfl, fun h => nomatch h⟩

theorem visit_of_none (verbose : Bool) (h : text? s p.tree file = none) :
    (p.visit s verbose file).1.tree = p.tree ∧ (p.visit s verbose file).2 = none := by
  rw [text?_eq] at h
  unfold visit
  cases ho : outcome s p.tree file with
  | mk o events =>
    rw [ho] at h
    cases o with
    | skipped f => exact ⟨rfl, rfl⟩
    | withoutModels => exact ⟨rfl, rfl⟩
    | models found => exact nomatch h

theorem visit_of_text (verbose : Bool) {text : String} (h : text? s p.tree file = some text)
    (ho : outputPath? file s.input.sourceDir s.output.destDir = some output) :
    (p.visit s verbose file).1.tree = (p.tree.save output text).1 ∧
      (p.visit s verbose file).2 = (p.tree.save output text).2.map .save := by
  rw [text?_eq] at h
  unfold visit
  cases hout : outcome s p.tree file with
  | mk o events =>
    rw [hout] at h
    cases o with
    | skipped f => exact nomatch h
    | withoutModels => exact nomatch h
    | models found =>
      obtain rfl := Option.some.inj h
      obtain ⟨htree, hfault, -⟩ := write_of_output verbose found ho
      exact ⟨htree, hfault⟩

theorem save_of_visit {text : String} (h : text? s p.tree file = some text)
    (ho : outputPath? file s.input.sourceDir s.output.destDir = some output)
    (hv : p.visit s verbose file = (p', none)) : p.tree.save output text = (p'.tree, none) := by
  obtain ⟨htree, hfault⟩ := visit_of_text verbose h ho
  rw [hv] at htree hfault
  exact Prod.ext htree.symm (Option.map_eq_none_iff.mp hfault.symm)

end Progress

/-! ## A tree after some writes -/

/-- **The second tree is the first one after some writes.** Each text stands at its location in a
directory. Every other entry stays, and what is new besides is a directory above a text. -/
structure Holds (t : Tree) (writes : List (Location × String)) (t' : Tree) : Prop where
  home : t'.home = t.home
  written : ∀ w ∈ writes, t'.entry? w.1 = some (.file (.text w.2))
  above : ∀ w ∈ writes, t'.StandsFree w.1
  kept : ∀ l e, t.entry? l = some e → (∀ w ∈ writes, w.1 ≠ l) → t'.entry? l = some e
  new : ∀ l, t.entry? l = none → (∀ w ∈ writes, w.1 ≠ l) →
    t'.entry? l = if ∃ w ∈ writes, l <+: w.1 then some .directory else none
  not_directory : ∀ w ∈ writes, t.entry? w.1 ≠ some .directory

theorem holds_nil (t : Tree) : Holds t [] t where
  home := rfl
  written _ hw := nomatch hw
  above _ hw := nomatch hw
  kept _ _ he _ := he
  new _ he _ := he.trans (if_neg fun ⟨_, hw, _⟩ => nomatch hw).symm
  not_directory _ hw := nomatch hw

namespace Holds

variable {t t' t'' : Tree} {writes : List (Location × String)} {l : Location}

theorem directory (h : Holds t writes t') (hd : t.entry? l = some .directory) :
    t'.entry? l = some .directory :=
  h.kept l _ hd fun w hw e => h.not_directory w hw (e ▸ hd)

theorem isPlain (h : Holds t writes t') (ht : t.IsPlain) : t'.IsPlain where
  not_link l target hl := by
    by_cases hw : ∃ w ∈ writes, w.1 = l
    · obtain ⟨w, hw, rfl⟩ := hw
      exact nomatch (h.written w hw).symm.trans hl
    · have hw : ∀ w ∈ writes, w.1 ≠ l := fun w hm e => hw ⟨w, hm, e⟩
      cases he : t.entry? l with
      | some e =>
        obtain rfl := Option.some.inj ((h.kept l e he hw).symm.trans hl)
        exact ht.not_link l target he
      | none =>
        rw [h.new l he hw] at hl
        split at hl
        · exact nomatch hl
        · exact nomatch hl
  home l hl := by
    rw [h.home] at hl
    exact h.directory (ht.home l hl)

theorem grows (h : Holds t writes t') (ht : t.IsPlain) : t.Grows t' where
  home := h.home
  directory := h.directory
  link hl := absurd hl (ht.not_link _ _)
  file {l c} hc := by
    by_cases hw : ∃ w ∈ writes, w.1 = l
    · obtain ⟨w, hw, rfl⟩ := hw
      exact ⟨_, h.written w hw⟩
    · exact ⟨c, h.kept l _ hc fun w hm e => hw ⟨w, hm, e⟩⟩

/-- **One more write**, at a location that has not been written to. -/
theorem snoc (h : Holds t writes t') {text : String} (hs : t'.SavesText t'' l text)
    (hl : ∀ w ∈ writes, w.1 ≠ l) : Holds t (writes ++ [(l, text)]) t'' where
  home := hs.home.trans h.home
  written w hw := by
    rcases List.mem_append.mp hw with hw | hw
    · rw [hs.entries, if_neg (hl w hw), h.written w hw]
      exact if_neg fun h => nomatch h.2
    · obtain rfl := List.mem_singleton.mp hw
      exact (hs.entries l).trans (if_pos rfl)
  above w hw := by
    rcases List.mem_append.mp hw with hw | hw
    · intro d hd hne
      have hdir := h.above w hw d hd hne
      have hdl : d ≠ l := fun e => hs.not_directory (e ▸ hdir)
      rw [hs.entries, if_neg hdl, hdir]
      exact if_neg fun h => nomatch h.2
    · obtain rfl := List.mem_singleton.mp hw
      exact hs.above
  kept d e he hd := by
    obtain ⟨hd, hdl⟩ := List.forall_mem_append.mp hd
    rw [hs.entries, if_neg (Ne.symm (hdl _ List.mem_cons_self)), h.kept d e he hd]
    exact if_neg fun h => nomatch h.2
  new d he hd := by
    obtain ⟨hd, hdl⟩ := List.forall_mem_append.mp hd
    have hmore : (∃ w ∈ writes ++ [(l, text)], d <+: w.1) ↔
        (∃ w ∈ writes, d <+: w.1) ∨ d <+: l := by
      simp [or_and_right, exists_or]
    rw [hs.entries, if_neg (Ne.symm (hdl _ List.mem_cons_self)), h.new d he hd]
    simp only [hmore]
    by_cases hw : ∃ w ∈ writes, d <+: w.1
    · rw [if_pos hw, if_pos (Or.inl hw)]
      exact if_neg fun h => nomatch h.2
    · rw [if_neg hw]
      by_cases hdl : d <+: l
      · rw [if_pos ⟨hdl, rfl⟩, if_pos (Or.inr hdl)]
      · rw [if_neg fun h : _ ∧ _ => hdl h.1, if_neg fun h : _ ∨ _ => h.elim hw hdl]
  not_directory w hw := by
    rcases List.mem_append.mp hw with hw | hw
    · exact h.not_directory w hw
    · obtain rfl := List.mem_singleton.mp hw
      exact fun hd => hs.not_directory (h.directory hd)

end Holds

/-! ## Reading from a tree after some writes -/

/-- The names lead from the source directory to a file. -/
structure IsInput (s : Settings) (t : Tree) (names : List Name) : Prop where
  source : IsSource names
  located : ∃ l c, t.locate (s.input.sourceDir.below names) = .ok l ∧ t.entry? l = some (.file c)

theorem IsInput.location {s : Settings} {t : Tree} {names : List Name} (hn : IsInput s t names)
    (ht : t.IsPlain) (hdir : ¬s.input.sourceDir.isEmpty = true) :
    ∃ (here : Location) (stem : Name) (c : Content),
      t.locate (s.input.sourceDir.below names) = .ok (here ++ [stem ++ "." ++ "py"]) ∧
        t.entry? (here ++ [stem ++ "." ++ "py"]) = some (.file c) := by
  obtain ⟨⟨hnamed, init, stem, rfl, _⟩, l, c, hl, hc⟩ := hn
  have hp := Path.not_isEmpty_below hdir fun n hn => hnamed n (List.mem_append_left _ hn)
  have hlast := hnamed (stem ++ "." ++ "py") (by simp)
  rw [Path.below_concat] at hl ⊢
  obtain ⟨here, hh, _⟩ := Tree.locate_of_child hp hlast hl
  rcases Tree.locate_child hh hlast hl with ⟨target, h⟩ | ⟨rfl, _⟩
  · exact absurd h (ht.not_link _ _)
  · exact ⟨here, stem, c, hl, hc⟩

/-- **Writing interfaces leaves the source files as they were.** -/
theorem Holds.outcome_eq {s : Settings} {t t' : Tree} {writes : List (Location × String)}
    {names : List Name} (h : Holds t writes t') (ht : t.IsPlain)
    (hdir : ¬s.input.sourceDir.isEmpty = true) (hn : IsInput s t names)
    (hw : ∀ w ∈ writes, ∃ dest names', IsSource names' ∧ w.1 = dest ++ outputNames names') :
    outcome s t' (s.input.sourceDir.below names) = outcome s t (s.input.sourceDir.below names) := by
  obtain ⟨here, stem, c, hl, hc⟩ := hn.location ht hdir
  have hc' : t'.entry? (here ++ [stem ++ "." ++ "py"]) = some (.file c) := by
    refine h.kept _ _ hc fun w hm e => ?_
    obtain ⟨dest, names', hn', hd⟩ := hw w hm
    exact outputNames_ne hn' here dest stem (e.symm.trans hd)
  have hl' := Tree.locate_grows (h.grows ht) hl
  have hread : t'.readText (s.input.sourceDir.below names) =
      t.readText (s.input.sourceDir.below names) := by
    rw [Tree.readText, Tree.readText, hl, hl']
    dsimp only
    rw [hc, hc']
  rw [outcome, outcome, hread]

/-! ## File after file -/

/-- The destination is made of names that entries can have. -/
def HasNamedDestination (s : Settings) : Prop :=
  ∀ c ∈ s.output.destDir.components, ∃ n, Path.IsName n ∧ c = .name n

/-- What a run writes for a file: a text if it holds models, where its output path leads. -/
def write? (s : Settings) (t : Tree) (file : Path) : Option (Location × String) :=
  (outputPath? file s.input.sourceDir s.output.destDir).bind fun output =>
    (text? s t file).map fun text => (t.home ++ output.names, text)

section

variable {s : Settings} {t : Tree} {verbose : Bool}

theorem HasNamedDestination.names (hd : HasNamedDestination s) :
    ∀ c ∈ s.output.destDir.components, ∃ n, c = .name n := by
  intro c hc
  obtain ⟨n, -, e⟩ := hd c hc
  exact ⟨n, e⟩

theorem HasNamedDestination.isName (hd : HasNamedDestination s) {names : List Name}
    (hn : IsSource names) :
    ∀ m ∈ s.output.destDir.names ++ outputNames names, Path.IsName m := by
  intro m hm
  rcases List.mem_append.mp hm with hm | hm
  · obtain ⟨n, hn, e⟩ := hd _ (Path.mem_names.mp hm)
    exact Component.name.inj e ▸ hn
  · exact isName_outputNames hn m hm

theorem write?_below (hdir : ¬s.input.sourceDir.isEmpty = true)
    (hd : ∀ c ∈ s.output.destDir.components, ∃ n, c = .name n) {names : List Name}
    (hn : IsSource names) : write? s t (s.input.sourceDir.below names) =
      (text? s t (s.input.sourceDir.below names)).map fun text =>
        (t.home ++ (s.output.destDir.names ++ outputNames names), text) := by
  obtain ⟨output, ho, hc⟩ := outputPath?_names hdir hd hn
  rw [write?, ho, Option.bind_some, Path.names_eq hc]

theorem exists_of_mem_writes (hdir : ¬s.input.sourceDir.isEmpty = true)
    (hd : ∀ c ∈ s.output.destDir.components, ∃ n, c = .name n) {nss : List (List Name)}
    (hn : ∀ names ∈ nss, IsSource names) {w : Location × String}
    (hw : w ∈ (nss.map s.input.sourceDir.below).filterMap (write? s t)) :
    ∃ names ∈ nss, w.1 = t.home ++ (s.output.destDir.names ++ outputNames names) := by
  obtain ⟨file, hf, hw⟩ := List.mem_filterMap.mp hw
  obtain ⟨names, hm, rfl⟩ := List.mem_map.mp hf
  rw [write?_below hdir hd (hn names hm), Option.map_eq_some_iff] at hw
  obtain ⟨text, _, rfl⟩ := hw
  exact ⟨names, hm, rfl⟩

/-- No write is to a source file. -/
theorem writes_source (hdir : ¬s.input.sourceDir.isEmpty = true)
    (hd : ∀ c ∈ s.output.destDir.components, ∃ n, c = .name n) {nss : List (List Name)}
    (hn : ∀ names ∈ nss, IsSource names) :
    ∀ w ∈ (nss.map s.input.sourceDir.below).filterMap (write? s t),
      ∃ dest names, IsSource names ∧ w.1 = dest ++ outputNames names := by
  intro w hw
  obtain ⟨names, hm, e⟩ := exists_of_mem_writes hdir hd hn hw
  exact ⟨_, names, hn names hm, e.trans (List.append_assoc ..).symm⟩

theorem Progress.visit_holds (ht : t.IsPlain) (hdir : ¬s.input.sourceDir.isEmpty = true)
    (hd : ∀ c ∈ s.output.destDir.components, ∃ n, c = .name n) {done : List (List Name)}
    {names : List Name} (hdone : ∀ m ∈ done, IsSource m) (hn : IsInput s t names)
    (hnew : names ∉ done) {p p' : Progress}
    (h : Holds t ((done.map s.input.sourceDir.below).filterMap (write? s t)) p.tree)
    (hv : p.visit s verbose (s.input.sourceDir.below names) = (p', none)) :
    Holds t (((done ++ [names]).map s.input.sourceDir.below).filterMap (write? s t)) p'.tree := by
  have htext : text? s p.tree (s.input.sourceDir.below names) =
      text? s t (s.input.sourceDir.below names) := by
    rw [text?_eq, text?_eq, h.outcome_eq ht hdir hn (writes_source hdir hd hdone)]
  have hwrite := write?_below (t := t) hdir hd hn.source
  rw [← htext] at hwrite
  rw [List.map_append, List.map_singleton, List.filterMap_append]
  obtain ⟨output, ho, hc⟩ := outputPath?_names hdir hd hn.source
  cases he : text? s p.tree (s.input.sourceDir.below names) with
  | some text =>
    have hne : s.output.destDir.names ++ outputNames names ≠ [] := by
      obtain ⟨_, init, stem, rfl, hs⟩ := hn.source
      rw [outputNames_eq hs]
      simp
    have hsaves := Tree.save_changes (h.isPlain ht) hc hne (Progress.save_of_visit he ho hv)
    rw [h.home] at hsaves
    rw [he, Option.map_some] at hwrite
    rw [List.filterMap_cons_some hwrite, List.filterMap_nil]
    refine h.snoc hsaves fun w hw e => ?_
    obtain ⟨names', hm, e'⟩ := exists_of_mem_writes hdir hd hdone hw
    have hsame := List.append_cancel_left (List.append_cancel_left (e.symm.trans e'))
    exact hnew (outputNames_inj hn.source (hdone names' hm) hsame ▸ hm)
  | none =>
    have hsame := (Progress.visit_of_none verbose he).1
    rw [hv] at hsame
    rw [he, Option.map_none] at hwrite
    rw [List.filterMap_cons_none hwrite, List.filterMap_nil, List.append_nil, hsame]
    exact h

/-- **What one more file keeps, some more files keep.** -/
theorem Progress.visitAll_induct {P : List (List Name) → Progress → Prop}
    {done rest : List (List Name)} {p p' : Progress}
    (hstep : ∀ before names after q q', done ++ rest = before ++ names :: after → P before q →
      q.visit s verbose (s.input.sourceDir.below names) = (q', none) → P (before ++ [names]) q')
    (h : P done p)
    (hv : p.visitAll s verbose (rest.map s.input.sourceDir.below) = (p', none)) :
    P (done ++ rest) p' := by
  induction rest generalizing done p with
  | nil =>
    obtain rfl := (Prod.mk.inj hv).1
    rwa [List.append_nil]
  | cons names rest ih =>
    rw [List.map_cons, visitAll] at hv
    split at hv
    · exact nomatch (Prod.mk.inj hv).2
    next p₁ hvisit =>
    have hfirst := hstep done names rest p p₁ rfl h hvisit
    rw [List.append_cons] at hstep ⊢
    exact ih hstep hfirst hv

theorem Progress.visitAll_holds (ht : t.IsPlain) (hdir : ¬s.input.sourceDir.isEmpty = true)
    (hd : ∀ c ∈ s.output.destDir.components, ∃ n, c = .name n) {done rest : List (List Name)}
    {p p' : Progress} (hn : ∀ names ∈ done ++ rest, IsInput s t names)
    (hnodup : (done ++ rest).Nodup)
    (h : Holds t ((done.map s.input.sourceDir.below).filterMap (write? s t)) p.tree)
    (hv : p.visitAll s verbose (rest.map s.input.sourceDir.below) = (p', none)) :
    Holds t (((done ++ rest).map s.input.sourceDir.below).filterMap (write? s t)) p'.tree := by
  refine visitAll_induct (P := fun done p =>
    Holds t ((done.map s.input.sourceDir.below).filterMap (write? s t)) p.tree) ?_ h hv
  intro before names after q q' e h hvisit
  rw [e] at hn hnodup
  have hnew : names ∉ before := fun hm =>
    (List.nodup_cons.mp (List.nodup_middle.mp hnodup)).1 (List.mem_append_left _ hm)
  have hsource : ∀ m ∈ before, IsSource m := fun m hm => (hn m (by simp [hm])).source
  exact visit_holds ht hdir hd hsource (hn names (by simp)) hnew h hvisit

end

/-! ## The whole run -/

theorem isDirectory_of_validate {s : Settings} {t : Tree} (h : s.validate t = .ok ()) :
    t.isDirectory s.input.sourceDir = true := (validate_eq_ok_iff.mp h).1

theorem isInput_of_found {s : Settings} {t : Tree} {names : List Name}
    (hw : t.IsWalked s.input.exclude s.input.recursive s.input.sourceDir names)
    (hf : isModelFile s.input (s.input.sourceDir.below names) = true) : IsInput s t names := by
  obtain ⟨n, hlast, hpy, _⟩ := (isModelFile_below s.input hw.nonempty hw.named).mp hf
  obtain ⟨init, rfl⟩ := List.getLast?_eq_some_iff.mp hlast
  have hs : Path.splitName n = ((Path.splitName n).1, some (.ofText "py")) := Prod.ext rfl hpy
  have hn := Path.splitName_eq hs
  refine ⟨⟨hw.named, init, (Path.splitName n).1, ?_, ?_⟩, hw.file⟩
  · rw [← hn]
  · rw [← hn]
    exact hs

/-- **A scan finds source files**, in the order of the names that lead there. -/
theorem scan_inputs {s : Settings} {t : Tree} (hs : t.Sound)
    (hdir : t.isDirectory s.input.sourceDir = true) :
    ¬s.input.sourceDir.isEmpty = true ∧ ∃ (nss : List (List Name)) (events : List Log.Event),
      scan s.input t = .ok (nss.map s.input.sourceDir.below, events) ∧ nss.Pairwise (· < ·) ∧
      ∀ names ∈ nss, IsInput s t names := by
  obtain ⟨here, hlocated, -⟩ := Tree.isDirectory_iff.mp hdir
  obtain ⟨nss, events, hscan, hsorted, hfound⟩ := scan_eq hs hdir
  refine ⟨(Tree.locate_eq_ok.mp hlocated).1.not_empty, nss, events, hscan, hsorted, ?_⟩
  intro names hm
  obtain ⟨hwalked, hmodel⟩ := (hfound names).mp hm
  exact isInput_of_found hwalked hmodel

/-- A run over usable settings visits the files of the scan, up to the first failure. -/
theorem run_eq_visitAll {s : Settings} {t : Tree} {files : List Path} {events : List Log.Event}
    (verbose : Bool) (hv : s.validate t = .ok ()) (hscan : scan s.input t = .ok (files, events)) :
    let done := ({ tree := t } : Progress).visitAll s verbose files
    (run s verbose t).tree = done.1.tree ∧
      (run s verbose t).result =
        match done.2 with
        | none => .ok done.1.summary
        | some f => .error f := by
  unfold run
  rw [hv]
  dsimp only
  rw [hscan]
  dsimp only [generate]
  cases ({ tree := t } : Progress).visitAll s verbose files with
  | mk p fault => cases fault <;> exact ⟨rfl, rfl⟩

/-- A run that succeeds visits the files of the scan, each without a failure. -/
theorem visitAll_of_run {s : Settings} {t : Tree} {verbose : Bool} {summary : Summary}
    (h : (run s verbose t).result = .ok summary) : s.validate t = .ok () ∧
      ∃ files events p, scan s.input t = .ok (files, events) ∧
        ({ tree := t } : Progress).visitAll s verbose files = (p, none) ∧
        (run s verbose t).tree = p.tree ∧ p.summary = summary := by
  cases hv : s.validate t with
  | error f =>
    unfold run at h
    rw [hv] at h
    exact nomatch h
  | ok u =>
    cases hscan : scan s.input t with
    | error f =>
      unfold run at h
      rw [hv] at h
      dsimp only at h
      rw [hscan] at h
      exact nomatch h
    | ok found =>
      obtain ⟨htree, hresult⟩ := run_eq_visitAll verbose hv hscan
      rw [h] at hresult
      refine ⟨rfl, found.1, found.2, _, rfl, ?_, htree, ?_⟩
      · split at hresult
        · next hnone => exact Prod.ext rfl hnone
        · exact nomatch hresult
      · split at hresult
        · exact (Except.ok.inj hresult).symm
        · exact nomatch hresult

/-- **What a run leaves.** In a tree without links, a run that succeeds leaves a text for each file
with models that the scan finds, where the output path of the file leads. Every other entry stays as
it was, and the directories above the texts are there. -/
theorem run_leaves {s : Settings} {t : Tree} {verbose : Bool} {summary : Summary} (ht : t.Sound)
    (hl : ∀ l target, t.entry? l ≠ some (.link target))
    (hd : ∀ c ∈ s.output.destDir.components, ∃ n, c = .name n)
    (hr : (run s verbose t).result = .ok summary) :
    ∃ files events, scan s.input t = .ok (files, events) ∧
      (∀ file ∈ files, ∃ output,
        outputPath? file s.input.sourceDir s.output.destDir = some output ∧
          ∀ c ∈ output.components, ∃ n, c = .name n) ∧
      Holds t (files.filterMap (write? s t)) (run s verbose t).tree := by
  obtain ⟨hv, files, events, p, hscan, hall, htree, -⟩ := visitAll_of_run hr
  have hdir := isDirectory_of_validate hv
  obtain ⟨l, hlocated, _⟩ := Tree.isDirectory_iff.mp hdir
  have hne := (Tree.locate_eq_ok.mp hlocated).1.not_empty
  obtain ⟨nss, events', hscan', hp, hm⟩ := scan_eq ht hdir
  obtain ⟨rfl, rfl⟩ := Prod.mk.inj (Except.ok.inj (hscan'.symm.trans hscan))
  have hinput : ∀ names ∈ nss, IsInput s t names := fun names h =>
    isInput_of_found ((hm names).mp h).1 ((hm names).mp h).2
  refine ⟨_, _, hscan, fun file hf => ?_, ?_⟩
  · obtain ⟨names, hn, rfl⟩ := List.mem_map.mp hf
    obtain ⟨output, ho, hc⟩ := outputPath?_names hne hd (hinput names hn).source
    refine ⟨output, ho, fun c h => ?_⟩
    rw [hc] at h
    obtain ⟨n, _, rfl⟩ := List.mem_map.mp h
    exact ⟨n, rfl⟩
  · have hnodup : nss.Nodup := hp.imp fun h => by
      rintro rfl
      exact List.lt_irrefl _ h
    rw [htree]
    exact @Progress.visitAll_holds s t verbose (ht.isPlain hl) hne hd [] nss { tree := t } p hinput
      hnodup (holds_nil t) hall

/-- The destination is the source directory. The interfaces of a file that no longer holds models
stay. -/
theorem run_leaves_beside_sources :
    let s : Settings :=
      { input := { sourceDir := .ofText "app" }, output := { destDir := .ofText "app" } }
    let t : Tree := ⟨[(["app"], .directory),
      (["app", "models.py"], .file (.text "class A(Model):\n    b = C()\n")),
      (["app", "blog"], .directory), (["app", "blog", "models.py"], .file (.text "")),
      (["app", "blog", "models.ts"], .file (.text "old"))], []⟩
    ∃ files events, scan s.input t = .ok (files, events) ∧
      (∀ file ∈ files, ∃ output,
        outputPath? file s.input.sourceDir s.output.destDir = some output ∧
          ∀ c ∈ output.components, ∃ n, c = .name n) ∧
      Holds t (files.filterMap (write? s t)) (run s false t).tree := by
  intro s t
  have hdest : s.output.destDir.components = [.name "app"] := by decide +kernel
  refine @run_leaves s t false ⟨2, 1, 0, 1, 1, 1⟩ (by decide +kernel) (fun l target h => ?_)
    (fun c h => ⟨_, List.mem_singleton.mp (hdest ▸ h)⟩) (by decide +kernel)
  have hne : t.entry? l ≠ some .directory := by
    rw [h]
    exact fun e => nomatch e
  have hm := Tree.mem_entries_of_eq_some (Tree.ne_nil_of_ne_directory hne) h
  simp [t] at hm

end ModelTypings.Run
