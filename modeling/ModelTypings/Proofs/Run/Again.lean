import Mathlib.Data.List.Sort
import ModelTypings.Proofs.Files.Kept
import ModelTypings.Proofs.Run.Effect

/-!
# A second run

A run reads source files and writes interfaces. A second run therefore finds the files that the
first one found, reads what it read and writes what is there already.

* `Summary.add`, `Progress.visit_summary`: the counts after one more file;
* `Progress.Follows`, `Progress.visitAll_follows`: the account of a run by the tree before it;
* `Progress.visitAll_again`: files whose interfaces are there already are visited without a change;
* `Holds.found_iff`, `scan_again`: a run adds nothing that a scan would find;
* **`run_again`**: a second run gives the result of the first one and changes nothing.
-/

namespace ModelTypings.Run

open Files Settings TypeScript

/-! ## The counts -/

/-- The counts with one more file that is visited without a failure. -/
def Summary.add (s : Settings) (m : Summary) : Outcome → Summary
  | .skipped _ => { m with scanned := m.scanned + 1, skipped := m.skipped + 1 }
  | .withoutModels => { m with scanned := m.scanned + 1, withoutModels := m.withoutModels + 1 }
  | .models found => {
      m with
      scanned := m.scanned + 1
      written := m.written + 1
      interfaces := m.interfaces + found.models.length
      unknownFields := m.unknownFields + Run.unknownFields (Style.ofSettings s) found.models }

/-- The counts with some more files, by what they yield in a tree. -/
def Summary.addAll (s : Settings) (t : Tree) (m : Summary) (files : List Path) : Summary :=
  files.foldl (fun m file => m.add s (outcome s t file).1) m

namespace Progress

variable {p p' : Progress} {s : Settings} {file output : Path}

theorem visit_summary (verbose : Bool)
    (ho : outputPath? file s.input.sourceDir s.output.destDir = some output)
    (h : (p.visit s verbose file).2 = none) :
    (p.visit s verbose file).1.summary = p.summary.add s (outcome s p.tree file).1 := by
  unfold visit at h ⊢
  cases hout : outcome s p.tree file with
  | mk o events =>
    rw [hout] at h
    cases o with
    | skipped f => rfl
    | withoutModels => rfl
    | models found =>
      obtain ⟨-, hfault, hsummary⟩ := write_of_output verbose found ho
      exact hsummary (Option.map_eq_none_iff.mp (hfault.symm.trans h))

/-- **One more file** keeps the tree sound and lets it grow. Its output path leads to the text. -/
theorem visit_kept {verbose : Bool} (hs : p.tree.Sound) (ht : p.tree.IsPlain) {ns : List Name}
    (ho : outputPath? file s.input.sourceDir s.output.destDir = some output)
    (hc : output.components = ns.map .name) (hne : ns ≠ []) (hn : ∀ n ∈ ns, Path.IsName n)
    (hv : p.visit s verbose file = (p', none)) :
    p'.tree.Sound ∧ p.tree.Grows p'.tree ∧ ∀ text, text? s p.tree file = some text →
      p'.tree.locate output = .ok (p'.tree.home ++ output.names) := by
  cases he : text? s p.tree file with
  | none =>
    have hsame := (visit_of_none verbose he).1
    rw [hv] at hsame
    rw [hsame]
    exact ⟨hs, ⟨rfl, id, id, fun h => ⟨_, h⟩⟩, fun _ h => nomatch h⟩
  | some text =>
    have hsave := save_of_visit he ho hv
    have hholds := (holds_nil p.tree).snoc (Tree.save_changes ht hc hne hsave) (by simp)
    refine ⟨hs.save ht hc hne hn hsave, hholds.grows ht, fun _ _ => ?_⟩
    obtain ⟨l, hl, -⟩ := Tree.exists_of_readText (Tree.readText_of_save hsave)
    rw [hl, (Tree.locate_plain (hholds.isPlain ht) (Path.spells_of_components hc) hl).1,
      Path.names_eq hc]

end Progress

/-! ## The account of a run -/

/-- The account of a run that started on a tree and visited the files that some names lead to. -/
structure Progress.Follows (s : Settings) (t : Tree) (done : List (List Name)) (p : Progress) :
    Prop where
  sound : p.tree.Sound
  holds : Holds t ((done.map s.input.sourceDir.below).filterMap (write? s t)) p.tree
  summary : p.summary = Summary.addAll s t {} (done.map s.input.sourceDir.below)
  located : ∀ names ∈ done, ∀ text output, text? s t (s.input.sourceDir.below names) = some text →
    outputPath? (s.input.sourceDir.below names) s.input.sourceDir s.output.destDir = some output →
      p.tree.locate output = .ok (t.home ++ output.names)

section

variable {s : Settings} {t : Tree} {verbose : Bool}

theorem Progress.Follows.visit (ht : t.IsPlain) (hdir : ¬s.input.sourceDir.isEmpty = true)
    (hd : HasNamedDestination s) {done : List (List Name)} {names : List Name}
    (hdone : ∀ m ∈ done, IsSource m) (hn : IsInput s t names) (hnew : names ∉ done)
    {p p' : Progress} (h : p.Follows s t done)
    (hv : p.visit s verbose (s.input.sourceDir.below names) = (p', none)) :
    p'.Follows s t (done ++ [names]) := by
  obtain ⟨output, ho, hc⟩ := outputPath?_names hdir hd.names hn.source
  have hne : s.output.destDir.names ++ outputNames names ≠ [] := by
    simp [outputNames_ne_nil hn.source]
  have hout := h.holds.outcome_eq ht hdir hn (writes_source hdir hd.names hdone)
  have htext : text? s p.tree (s.input.sourceDir.below names) =
      text? s t (s.input.sourceDir.below names) := by
    rw [text?_eq, text?_eq, hout]
  have hholds := visit_holds ht hdir hd.names hdone hn hnew h.holds hv
  obtain ⟨hsound, hgrows, hlocated⟩ := visit_kept h.sound (h.holds.isPlain ht) ho hc hne
    (hd.isName hn.source) hv
  refine ⟨hsound, hholds, ?_, fun m hm text output' htext' ho' => ?_⟩
  · have hsummary := visit_summary verbose ho (by rw [hv])
    rw [hv] at hsummary
    rw [hsummary, h.summary, hout, List.map_append, Summary.addAll, Summary.addAll,
      List.foldl_append]
    rfl
  · rcases List.mem_append.mp hm with hm | hm
    · exact Tree.locate_grows hgrows (h.located m hm text output' htext' ho')
    · obtain rfl := List.mem_singleton.mp hm
      obtain rfl := Option.some.inj (ho.symm.trans ho')
      rw [hlocated text (htext.trans htext'), hholds.home]

theorem Progress.visitAll_follows (hs : t.Sound) (ht : t.IsPlain)
    (hdir : ¬s.input.sourceDir.isEmpty = true) (hd : HasNamedDestination s)
    {nss : List (List Name)} {p : Progress} (hn : ∀ names ∈ nss, IsInput s t names)
    (hnodup : nss.Nodup) (hv : ({ tree := t } : Progress).visitAll s verbose
      (nss.map s.input.sourceDir.below) = (p, none)) : p.Follows s t nss := by
  have hstart : ({ tree := t } : Progress).Follows s t [] :=
    ⟨hs, holds_nil t, rfl, fun _ hm => nomatch hm⟩
  refine visitAll_induct (P := fun done p => p.Follows s t done) ?_ hstart hv
  intro before names after q q' e h hvisit
  rw [List.nil_append] at e
  rw [e] at hn hnodup
  have hnew : names ∉ before := fun hm =>
    (List.nodup_cons.mp (List.nodup_middle.mp hnodup)).1 (List.mem_append_left _ hm)
  have hsource : ∀ m ∈ before, IsSource m := fun m hm => (hn m (by simp [hm])).source
  exact h.visit ht hdir hd hsource (hn names (by simp)) hnew hvisit

end

/-! ## Visiting again -/

theorem Progress.visit_again {s : Settings} {p : Progress} (verbose : Bool) {file output : Path}
    {ns : List Name} (hs : p.tree.Sound)
    (ho : outputPath? file s.input.sourceDir s.output.destDir = some output)
    (hc : output.components = ns.map .name) (hne : ns ≠ [])
    (hread : ∀ text, text? s p.tree file = some text → p.tree.readText output = .ok text) :
    ∃ p', p.visit s verbose file = (p', none) ∧ p'.tree = p.tree ∧
      p'.summary = p.summary.add s (outcome s p.tree file).1 := by
  have hvisit : (p.visit s verbose file).1.tree = p.tree ∧ (p.visit s verbose file).2 = none := by
    cases he : text? s p.tree file with
    | none => exact visit_of_none verbose he
    | some text =>
      obtain ⟨htree, hfault⟩ := visit_of_text verbose he ho
      rw [Tree.save_again hs hc hne (hread text he)] at htree hfault
      exact ⟨htree, hfault⟩
  exact ⟨_, Prod.ext rfl hvisit.2, hvisit.1, visit_summary verbose ho hvisit.2⟩

/-- **Files whose interfaces are there already are visited without a change.** -/
theorem Progress.visitAll_again {s : Settings} (verbose : Bool) {t : Tree} (hs : t.Sound)
    {files : List Path} (hfiles : ∀ file ∈ files, ∃ output ns,
      outputPath? file s.input.sourceDir s.output.destDir = some output ∧
      output.components = ns.map .name ∧ ns ≠ [] ∧
      ∀ text, text? s t file = some text → t.readText output = .ok text)
    {p : Progress} (hp : p.tree = t) :
    ∃ p', p.visitAll s verbose files = (p', none) ∧ p'.tree = t ∧
      p'.summary = p.summary.addAll s t files := by
  induction files generalizing p with
  | nil => exact ⟨p, rfl, hp, rfl⟩
  | cons file files ih =>
    obtain ⟨⟨output, ns, ho, hc, hne, hread⟩, hrest⟩ := List.forall_mem_cons.mp hfiles
    subst hp
    obtain ⟨p₁, hvisit, htree, hsummary⟩ := visit_again verbose hs ho hc hne hread
    obtain ⟨p₂, hall, htree₂, hsummary₂⟩ := ih hrest htree
    refine ⟨p₂, ?_, htree₂, ?_⟩
    · rw [visitAll, hvisit]
      exact hall
    · rw [hsummary₂, hsummary, Summary.addAll, Summary.addAll, List.foldl_cons]

/-! ## Scanning again -/

theorem Holds.isInput_back {s : Settings} {t t' : Tree} {writes : List (Location × String)}
    {names : List Name} (h : Holds t writes t') (hs : t.Sound) (ht : t.IsPlain)
    (hdir : t.isDirectory s.input.sourceDir = true)
    (hw : ∀ w ∈ writes, ∃ dest names', IsSource names' ∧ w.1 = dest ++ outputNames names')
    (hn : IsInput s t' names) : IsInput s t names := by
  obtain ⟨here, hlocated, -⟩ := Tree.isDirectory_iff.mp hdir
  have hplain := h.isPlain ht
  obtain ⟨d, stem, c, hl, hc⟩ := hn.location hplain (Tree.locate_eq_ok.mp hlocated).1.not_empty
  have hnot : ∀ w ∈ writes, w.1 ≠ d ++ [stem ++ "." ++ "py"] := by
    intro w hm e
    obtain ⟨dest, names', hn', hd⟩ := hw w hm
    exact outputNames_ne hn' d dest stem (e.symm.trans hd)
  have he : t.entry? (d ++ [stem ++ "." ++ "py"]) = some (.file c) := by
    cases he : t.entry? (d ++ [stem ++ "." ++ "py"]) with
    | some e => rw [← h.kept _ e he hnot, hc]
    | none =>
      rw [h.new _ he hnot] at hc
      split at hc <;> exact nomatch hc
  have hnames : names ≠ [] := by
    obtain ⟨-, init, stem, rfl, -⟩ := hn.source
    simp
  refine ⟨hn.source, _, c, ?_, he⟩
  refine Tree.locate_below_back hplain.not_link (h.grows ht) hlocated hnames hn.source.named hl ?_
  -- the entries on the way are the file and the directories above it
  intro d' hd'
  by_cases e : d' = d ++ [stem ++ "." ++ "py"]
  · rw [e, he, hc]
  · have hdirectory := hs.standsFree he d' hd' e
    rw [hdirectory, h.directory hdirectory]

/-- In a tree without links, a walk meets every file below a directory that is not left out. -/
theorem isWalked_iff {t : Tree} {exclude : List String} {recursive : Bool} (ht : t.IsPlain)
    {p : Path} {names : List Name} : t.IsWalked exclude recursive p names ↔
      names ≠ [] ∧ (∀ n ∈ names, Path.IsName n ∧ n.text ∉ exclude) ∧
        (recursive = true ∨ names.length = 1) ∧
        ∃ l c, t.locate (p.below names) = .ok l ∧ t.entry? l = some (.file c) := by
  constructor
  · intro h
    exact ⟨h.nonempty, fun n hn => ⟨h.named n hn, h.included n hn⟩, h.deep, h.file⟩
  · rintro ⟨hne, hn, hdeep, hfile⟩
    refine ⟨hne, fun n hm => (hn n hm).1, fun n hm => (hn n hm).2, hdeep, hfile, ?_⟩
    rintro before l ⟨_, _, _, target, _, _, _, he, _⟩
    exact absurd he (ht.not_link _ target)

/-- **A run adds nothing that a scan would find**, and hides nothing. -/
theorem Holds.found_iff {s : Settings} {t t' : Tree} {writes : List (Location × String)}
    {names : List Name} (h : Holds t writes t') (hs : t.Sound) (ht : t.IsPlain)
    (hdir : t.isDirectory s.input.sourceDir = true)
    (hw : ∀ w ∈ writes, ∃ dest names', IsSource names' ∧ w.1 = dest ++ outputNames names') :
    t'.IsWalked s.input.exclude s.input.recursive s.input.sourceDir names ∧
        isModelFile s.input (s.input.sourceDir.below names) = true ↔
      t.IsWalked s.input.exclude s.input.recursive s.input.sourceDir names ∧
        isModelFile s.input (s.input.sourceDir.below names) = true := by
  constructor
  · rintro ⟨hwalked, hmodel⟩
    have hn := h.isInput_back hs ht hdir hw (isInput_of_found hwalked hmodel)
    obtain ⟨hne, hnames, hdeep, -⟩ := (isWalked_iff (h.isPlain ht)).mp hwalked
    exact ⟨(isWalked_iff ht).mpr ⟨hne, hnames, hdeep, hn.located⟩, hmodel⟩
  · rintro ⟨hwalked, hmodel⟩
    obtain ⟨hne, hnames, hdeep, l, c, hl, hc⟩ := (isWalked_iff ht).mp hwalked
    obtain ⟨c', hc'⟩ := (h.grows ht).file hc
    exact ⟨(isWalked_iff (h.isPlain ht)).mpr
      ⟨hne, hnames, hdeep, l, c', Tree.locate_grows (h.grows ht) hl, hc'⟩, hmodel⟩

theorem isDirectory_grows {t t' : Tree} (h : t.Grows t') {p : Path}
    (hp : t.isDirectory p = true) : t'.isDirectory p = true := by
  obtain ⟨l, hl, he⟩ := Tree.isDirectory_iff.mp hp
  exact Tree.isDirectory_iff.mpr ⟨l, Tree.locate_grows h hl, h.directory he⟩

theorem validate_grows {s : Settings} {t t' : Tree} (h : t.Grows t')
    (hv : s.validate t = .ok ()) : s.validate t' = .ok () := by
  obtain ⟨hdir, hrest⟩ := validate_eq_ok_iff.mp hv
  exact validate_eq_ok_iff.mpr ⟨isDirectory_grows h hdir, hrest⟩

/-! ## The whole run again -/

section

variable {s : Settings} {t : Tree} {nss : List (List Name)} {p : Progress}

theorem Progress.Follows.readText (h : p.Follows s t nss) {names : List Name} (hm : names ∈ nss)
    {text : String} {output : Path} (ht : text? s t (s.input.sourceDir.below names) = some text)
    (ho : outputPath? (s.input.sourceDir.below names) s.input.sourceDir s.output.destDir =
      some output) : p.tree.readText output = .ok text := by
  have hw : (t.home ++ output.names, text) ∈
      (nss.map s.input.sourceDir.below).filterMap (write? s t) := by
    refine List.mem_filterMap.mpr ⟨_, List.mem_map_of_mem hm, ?_⟩
    rw [write?, ho, Option.bind_some, ht]
    rfl
  rw [Tree.readText, h.located names hm text output ht ho]
  dsimp only
  rw [h.holds.written _ hw]

/-- **A second scan** finds the same files. -/
theorem Progress.Follows.scan_again (h : p.Follows s t nss) (hs : t.Sound) (ht : t.IsPlain)
    (hdir : t.isDirectory s.input.sourceDir = true) (hd : HasNamedDestination s)
    (hsorted : nss.Pairwise (· < ·))
    (hfound : ∀ names, names ∈ nss ↔
      t.IsWalked s.input.exclude s.input.recursive s.input.sourceDir names ∧
        isModelFile s.input (s.input.sourceDir.below names) = true) :
    ∃ events, scan s.input p.tree = .ok (nss.map s.input.sourceDir.below, events) := by
  obtain ⟨here, hlocated, -⟩ := Tree.isDirectory_iff.mp hdir
  have hwrites := writes_source (t := t) (Tree.locate_eq_ok.mp hlocated).1.not_empty hd.names
    fun names hn => (isInput_of_found ((hfound names).mp hn).1 ((hfound names).mp hn).2).source
  obtain ⟨nss', events, hscan, hsorted', hfound'⟩ :=
    scan_eq h.sound (isDirectory_grows (h.holds.grows ht) hdir)
  have hsame : nss' = nss := by
    apply List.Pairwise.eq_of_mem_iff hsorted' hsorted
    intro names
    rw [hfound', hfound, h.holds.found_iff hs ht hdir hwrites]
  exact ⟨events, hsame ▸ hscan⟩

/-- **A second visit of all files** changes nothing and counts the same. -/
theorem Progress.Follows.visitAll_again (h : p.Follows s t nss) (ht : t.IsPlain)
    (hdir : ¬s.input.sourceDir.isEmpty = true) (hd : HasNamedDestination s)
    (hn : ∀ names ∈ nss, IsInput s t names) (verbose : Bool) :
    ∃ p', ({ tree := p.tree } : Progress).visitAll s verbose (nss.map s.input.sourceDir.below) =
      (p', none) ∧ p'.tree = p.tree ∧ p'.summary = p.summary := by
  have hwrites := writes_source (t := t) hdir hd.names fun names hm => (hn names hm).source
  have hout : ∀ file ∈ nss.map s.input.sourceDir.below,
      outcome s p.tree file = outcome s t file := by
    intro file hf
    obtain ⟨names, hm, rfl⟩ := List.mem_map.mp hf
    exact h.holds.outcome_eq ht hdir (hn names hm) hwrites
  have hfiles : ∀ file ∈ nss.map s.input.sourceDir.below, ∃ output ns,
      outputPath? file s.input.sourceDir s.output.destDir = some output ∧
      output.components = ns.map .name ∧ ns ≠ [] ∧
      ∀ text, text? s p.tree file = some text → p.tree.readText output = .ok text := by
    intro file hf
    have hfile := hout file hf
    obtain ⟨names, hm, rfl⟩ := List.mem_map.mp hf
    obtain ⟨output, ho, hc⟩ := outputPath?_names hdir hd.names (hn names hm).source
    refine ⟨output, _, ho, hc, by simp [outputNames_ne_nil (hn names hm).source], ?_⟩
    intro text he
    rw [text?_eq, hfile, ← text?_eq] at he
    exact h.readText hm he ho
  obtain ⟨p', hall, htree, hsummary⟩ :=
    Progress.visitAll_again verbose h.sound hfiles (p := { tree := p.tree }) rfl
  refine ⟨p', hall, htree, ?_⟩
  rw [hsummary, h.summary]
  exact List.foldl_ext _ _ _ fun m file hf => by rw [hout file hf]

end

/-- **A second run gives the result of the first one and changes nothing.** In a tree without links,
after a run that succeeds a scan finds the same files, and a run gives the same counts and leaves
the tree as it is. -/
theorem run_again {s : Settings} {t : Tree} {verbose : Bool} {summary : Summary} (hs : t.Sound)
    (hl : ∀ l target, t.entry? l ≠ some (.link target)) (hd : HasNamedDestination s)
    (hr : (run s verbose t).result = .ok summary) :
    let t' := (run s verbose t).tree
    (∃ files events events', scan s.input t = .ok (files, events) ∧
      scan s.input t' = .ok (files, events')) ∧
    (run s verbose t').result = .ok summary ∧ (run s verbose t').tree = t' := by
  intro t'
  have ht := hs.isPlain hl
  obtain ⟨hv, files, events, p, hscan, hall, htree, hsummary⟩ := visitAll_of_run hr
  have ht' : t' = p.tree := htree
  have hdir := isDirectory_of_validate hv
  obtain ⟨here, hlocated, -⟩ := Tree.isDirectory_iff.mp hdir
  have hne := (Tree.locate_eq_ok.mp hlocated).1.not_empty
  obtain ⟨nss, events₁, hscan₁, hsorted, hfound⟩ := scan_eq hs hdir
  obtain ⟨rfl, rfl⟩ := Prod.mk.inj (Except.ok.inj (hscan₁.symm.trans hscan))
  have hinput : ∀ names ∈ nss, IsInput s t names := fun names h =>
    isInput_of_found ((hfound names).mp h).1 ((hfound names).mp h).2
  have hfollows := Progress.visitAll_follows hs ht hne hd hinput hsorted.nodup hall
  obtain ⟨events', hscan'⟩ := hfollows.scan_again hs ht hdir hd hsorted hfound
  obtain ⟨p', hall', htree', hsummary'⟩ := hfollows.visitAll_again ht hne hd hinput verbose
  have hv' := validate_grows (hfollows.holds.grows ht) hv
  obtain ⟨hrtree, hresult⟩ := run_eq_visitAll verbose hv' hscan'
  rw [hall'] at hrtree hresult
  rw [ht']
  refine ⟨⟨_, events₁, events', hscan, hscan'⟩, ?_, hrtree.trans htree'⟩
  rw [hresult, hsummary', hsummary]

/-- The destination is a package of models below the source directory. One of the sources cannot be
read to its end. -/
theorem run_again_inside_package :
    let s : Settings :=
      { input := { sourceDir := .ofText "app" }, output := { destDir := .ofText "app/models" } }
    let t : Tree := ⟨[(["app"], .directory), (["app", "models"], .directory),
      (["app", "models", "a.py"], .file (.text "class A(Model):\n    b = C()\n")),
      (["app", "models", "b.py"], .file (.text "class B("))], []⟩
    let t' := (run s false t).tree
    (run s false t).result = .ok ⟨2, 1, 1, 0, 1, 1⟩ ∧ t'.changesSince t ≠ [] ∧
    (∃ files events events', scan s.input t = .ok (files, events) ∧
      scan s.input t' = .ok (files, events')) ∧
    (run s false t').result = .ok ⟨2, 1, 1, 0, 1, 1⟩ ∧ (run s false t').tree = t' := by
  intro s t t'
  have hdest : s.output.destDir.components = [.name "app", .name "models"] := by decide +kernel
  have hd : HasNamedDestination s := by
    intro c hc
    rw [hdest] at hc
    rcases List.mem_cons.mp hc with rfl | hc
    · exact ⟨"app", by decide, rfl⟩
    · exact ⟨"models", by decide, List.mem_singleton.mp hc⟩
  have hr : (run s false t).result = .ok ⟨2, 1, 1, 0, 1, 1⟩ := by decide +kernel
  have hl : ∀ l target, t.entry? l ≠ some (.link target) := by
    apply Tree.not_link_of_entries
    simp [t]
  exact ⟨hr, by decide +kernel, run_again (by decide +kernel) hl hd hr⟩

end ModelTypings.Run
