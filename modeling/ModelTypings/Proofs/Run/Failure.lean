import ModelTypings.Proofs.Files.Kept
import ModelTypings.Proofs.Run.Effect

/-!
# A run that fails

Nothing but writing can end a run over usable settings. The files before the one that cannot be
written have had their effect then, and the files after it have had none.

* `Progress.visitAll_eq_some`, `Progress.visit_eq_some`: the file at which a run ends, and why;
* `Holds.entry_of_later`: writes for earlier files leave the output of a later one as it was;
* `StopsAt`, `Progress.visitAll_stops`: a tree in which a run ended at a file;
* **`run_stops`**: what a run that fails leaves.
-/

namespace ModelTypings.Run

open Files Settings TypeScript

/-! ## The file at which a run ends -/

namespace Progress

variable {p p' : Progress} {s : Settings} {verbose : Bool} {file output : Path}

/-- **A failure is that of one file**, and the files before it are visited without one. -/
theorem visitAll_eq_some {files : List Path} {f : Fault}
    (h : p.visitAll s verbose files = (p', some f)) :
    ∃ before file after q, files = before ++ file :: after ∧
      p.visitAll s verbose before = (q, none) ∧ q.visit s verbose file = (p', some f) := by
  induction files generalizing p with
  | nil => exact nomatch (Prod.mk.inj h).2
  | cons file files ih =>
    rw [visitAll] at h
    split at h
    · next p₁ f₁ hvisit => exact ⟨[], file, files, p, rfl, rfl, hvisit.trans h⟩
    · next p₁ hvisit =>
      obtain ⟨before, file', after, q, rfl, hbefore, hfile⟩ := ih h
      refine ⟨file :: before, file', after, q, rfl, ?_, hfile⟩
      rw [visitAll, hvisit]
      exact hbefore

/-- **A file fails** only if its text cannot be saved. Nothing is new then but directories above its
output. -/
theorem visit_eq_some {f : Fault} (ht : p.tree.IsPlain) {ns : List Name}
    (ho : outputPath? file s.input.sourceDir s.output.destDir = some output)
    (hc : output.components = ns.map .name) (hne : ns ≠ [])
    (hv : p.visit s verbose file = (p', some f)) :
    (∃ text, text? s p.tree file = some text) ∧
      p.tree.AddsDirectories p'.tree (p.tree.home ++ ns.dropLast) ∧
      ∃ f', f = .save f' ∧
        (f' = .file output ∨ ∃ parent, output.parent? = some parent ∧ f' = .directory parent) := by
  obtain ⟨init, n, rfl⟩ := (List.eq_nil_or_concat ns).resolve_left hne
  rw [List.concat_eq_append] at hc ⊢
  rw [List.dropLast_concat]
  cases he : text? s p.tree file with
  | none =>
    have hnone := (visit_of_none verbose he).2
    rw [hv] at hnone
    exact nomatch hnone
  | some text =>
    obtain ⟨htree, hfault⟩ := visit_of_text verbose he ho
    rw [hv] at htree hfault
    obtain ⟨f', hf', rfl⟩ := Option.map_eq_some_iff.mp hfault.symm
    obtain ⟨hadds, hwhy⟩ := Tree.save_fault ht hc (Prod.ext htree.symm hf')
    exact ⟨⟨text, rfl⟩, hadds, f', rfl, hwhy⟩

end Progress

/-! ## Outputs of later files -/

/-- **The output of a later file** is as it was after the writes of earlier files. -/
theorem Holds.entry_of_later {s : Settings} {t t' : Tree} {nss : List (List Name)}
    (h : Holds t ((nss.map s.input.sourceDir.below).filterMap (write? s t)) t')
    (hdir : ¬s.input.sourceDir.isEmpty = true)
    (hd : ∀ c ∈ s.output.destDir.components, ∃ n, c = .name n) {names : List Name}
    (hnss : ∀ m ∈ nss, IsSource m) (hn : IsSource names) (hlater : ∀ m ∈ nss, m < names) :
    t'.entry? (t.home ++ (s.output.destDir.names ++ outputNames names)) =
      t.entry? (t.home ++ (s.output.destDir.names ++ outputNames names)) := by
  -- no write is there or below
  have hbelow : ∀ w ∈ (nss.map s.input.sourceDir.below).filterMap (write? s t),
      ¬t.home ++ (s.output.destDir.names ++ outputNames names) <+: w.1 := by
    intro w hw
    obtain ⟨m, hm, e⟩ := exists_of_mem_writes hdir hd hnss hw
    rw [e, List.prefix_append_right_inj, List.prefix_append_right_inj]
    exact not_outputNames_isPrefix (hnss m hm) hn (hlater m hm)
  have hne : ∀ w ∈ (nss.map s.input.sourceDir.below).filterMap (write? s t),
      w.1 ≠ t.home ++ (s.output.destDir.names ++ outputNames names) :=
    fun w hw e => hbelow w hw (e ▸ List.prefix_rfl)
  cases he : t.entry? (t.home ++ (s.output.destDir.names ++ outputNames names)) with
  | some e => exact h.kept _ e he hne
  | none =>
    rw [h.new _ he hne, if_neg]
    rintro ⟨w, hw, hpre⟩
    exact hbelow w hw hpre

theorem not_isPrefix_dropLast_outputNames {names names' : List Name} (hn : IsSource names)
    (hn' : IsSource names') (h : names = names' ∨ names < names') (dest : List Name) :
    ¬dest ++ outputNames names' <+: (dest ++ outputNames names).dropLast := by
  rw [List.dropLast_append_of_ne_nil (outputNames_ne_nil hn), List.prefix_append_right_inj]
  intro hp
  rcases h with rfl | hlt
  · have hlength := hp.length_le
    have hpos := List.length_pos_iff.mpr (outputNames_ne_nil hn)
    rw [List.length_dropLast] at hlength
    omega
  · exact not_outputNames_isPrefix hn hn' hlt (hp.trans (List.dropLast_prefix _))

/-! ## The whole run -/

/-- **The second tree is the first one after a run that ended at a file.** Either the output of the
file or the directory above could not be written. The files before it have had the effect that they
have in a run that succeeds, and nothing is new besides but directories above the output. What
stands at the outputs of the file and of later ones is what stood there before. -/
structure StopsAt (s : Settings) (t : Tree) (before : List Path) (file : Path) (after : List Path)
    (output : Path) (f : SaveFault) (t' : Tree) : Prop where
  leads : outputPath? file s.input.sourceDir s.output.destDir = some output
  hasText : ∃ text, text? s t file = some text
  fault : f = .file output ∨ ∃ parent, output.parent? = some parent ∧ f = .directory parent
  reached : ∃ r, Holds t (before.filterMap (write? s t)) r ∧
    r.AddsDirectories t' (t.home ++ output.names.dropLast)
  untouched : ∀ g ∈ file :: after, ∀ output,
    outputPath? g s.input.sourceDir s.output.destDir = some output →
      t'.entry? (t.home ++ output.names) = t.entry? (t.home ++ output.names)

section

variable {s : Settings} {t : Tree} {verbose : Bool}

theorem Progress.visit_stops (ht : t.IsPlain) (hdir : ¬s.input.sourceDir.isEmpty = true)
    (hd : ∀ c ∈ s.output.destDir.components, ∃ n, c = .name n) {done rest : List (List Name)}
    {names : List Name} (hn : IsInput s t names)
    (hsource : ∀ m ∈ done ++ names :: rest, IsSource m)
    (hsorted : (done ++ names :: rest).Pairwise (· < ·)) {p p' : Progress} {f : Fault}
    (h : Holds t ((done.map s.input.sourceDir.below).filterMap (write? s t)) p.tree)
    (hv : p.visit s verbose (s.input.sourceDir.below names) = (p', some f)) :
    ∃ output f', f = .save f' ∧ StopsAt s t (done.map s.input.sourceDir.below)
      (s.input.sourceDir.below names) (rest.map s.input.sourceDir.below) output f' p'.tree := by
  obtain ⟨-, hrest, hlt⟩ := List.pairwise_append.mp hsorted
  obtain ⟨hdone, hlater⟩ := List.forall_mem_append.mp hsource
  obtain ⟨output, ho, hc⟩ := outputPath?_names hdir hd hn.source
  have hne : s.output.destDir.names ++ outputNames names ≠ [] := by
    simp [outputNames_ne_nil hn.source]
  obtain ⟨htext, hadds, f', rfl, hwhy⟩ := visit_eq_some (h.isPlain ht) ho hc hne hv
  rw [text?_eq, h.outcome_eq ht hdir hn (writes_source hdir hd hdone), ← text?_eq] at htext
  rw [h.home] at hadds
  refine ⟨output, f', rfl, ho, htext, hwhy, ⟨p.tree, h, ?_⟩, fun g hg output' ho' => ?_⟩
  · rw [Path.names_eq hc]
    exact hadds
  · rw [← List.map_cons] at hg
    obtain ⟨names', hm, rfl⟩ := List.mem_map.mp hg
    have hsource' := hlater names' hm
    obtain ⟨o, ho'', hc'⟩ := outputPath?_names hdir hd hsource'
    obtain rfl := Option.some.inj (ho''.symm.trans ho')
    have horder : names = names' ∨ names < names' := by
      rcases List.mem_cons.mp hm with rfl | hm
      · exact Or.inl rfl
      · exact Or.inr (List.rel_of_pairwise_cons hrest hm)
    rw [Path.names_eq hc', hadds.entry?_of_not]
    · exact h.entry_of_later hdir hd hdone hsource' fun m hm' => hlt m hm' names' hm
    · rw [List.prefix_append_right_inj]
      exact not_isPrefix_dropLast_outputNames hn.source hsource' horder _

theorem Progress.visitAll_stops (ht : t.IsPlain) (hdir : ¬s.input.sourceDir.isEmpty = true)
    (hd : ∀ c ∈ s.output.destDir.components, ∃ n, c = .name n) {nss : List (List Name)}
    (hn : ∀ names ∈ nss, IsInput s t names) (hsorted : nss.Pairwise (· < ·)) {p : Progress}
    {f : Fault} (hv : ({ tree := t } : Progress).visitAll s verbose
      (nss.map s.input.sourceDir.below) = (p, some f)) :
    ∃ before file after output f', nss.map s.input.sourceDir.below = before ++ file :: after ∧
      f = .save f' ∧ StopsAt s t before file after output f' p.tree := by
  obtain ⟨before, file, after, q, e, hbefore, hfile⟩ := visitAll_eq_some hv
  obtain ⟨done, rest, rfl, rfl, hrest⟩ := List.map_eq_append_iff.mp e
  obtain ⟨names, rest, rfl, rfl, rfl⟩ := List.map_eq_cons_iff.mp hrest
  have hdone : ∀ m ∈ done, IsInput s t m := fun m hm => hn m (List.mem_append_left _ hm)
  have hnodup : done.Nodup := (List.pairwise_append.mp hsorted).1.nodup
  have hreached := @visitAll_holds s t verbose ht hdir hd [] done { tree := t } q hdone hnodup
    (holds_nil t) hbefore
  obtain ⟨output, f', hf, hstops⟩ := visit_stops ht hdir hd (hn names (by simp))
    (fun m hm => (hn m hm).source) hsorted hreached hfile
  exact ⟨_, _, _, output, f', e, hf, hstops⟩

end

/-- **What a run that fails leaves.** Settings that cannot be used end a run at once. Otherwise, in a
tree without links, nothing but a failure to write the interfaces of a file ends it. -/
theorem run_stops {s : Settings} {t : Tree} {verbose : Bool} (hs : t.Sound)
    (hl : ∀ l target, t.entry? l ≠ some (.link target))
    (hd : ∀ c ∈ s.output.destDir.components, ∃ n, c = .name n) :
    (∀ f, s.validate t = .error f →
      (run s verbose t).result = .error (.settings f) ∧ (run s verbose t).tree = t) ∧
    (s.validate t = .ok () → ∀ f, (run s verbose t).result = .error f →
      ∃ events before file after output f',
        scan s.input t = .ok (before ++ file :: after, events) ∧ f = .save f' ∧
        StopsAt s t before file after output f' (run s verbose t).tree) := by
  constructor
  · intro f hv
    unfold run
    rw [hv]
    exact ⟨rfl, rfl⟩
  · intro hv f hr
    obtain ⟨hne, nss, events, hscan, hsorted, hinput⟩ := scan_inputs hs (isDirectory_of_validate hv)
    obtain ⟨htree, hresult⟩ := run_eq_visitAll verbose hv hscan
    rw [hr] at hresult
    split at hresult
    · exact nomatch hresult
    next f₁ hfail =>
    obtain rfl := Except.error.inj hresult
    obtain ⟨before, file, after, output, f', e, hf, hstops⟩ :=
      Progress.visitAll_stops (hs.isPlain hl) hne hd hinput hsorted (Prod.ext rfl hfail)
    rw [e] at hscan
    rw [htree]
    exact ⟨events, before, file, after, output, f', hscan, hf, hstops⟩

/-- A file stands where a directory above the second output should be. Other settings have no source
directory. -/
theorem run_stops_at_obstacle :
    let s : Settings :=
      { input := { sourceDir := .ofText "app" }, output := { destDir := .ofText "out" } }
    let missing : Settings := { s with input.sourceDir := .ofText "lib" }
    let t : Tree := ⟨[(["app"], .directory), (["app", "a"], .directory),
      (["app", "a", "models.py"], .file (.text "class A(Model):\n    b = C()\n")),
      (["app", "b"], .directory), (["app", "b", "c"], .directory),
      (["app", "b", "c", "models.py"], .file (.text "class B(Model):\n    c = D()\n")),
      (["app", "models.py"], .file (.text "class C(Model):\n    d = E()\n")),
      (["out"], .directory), (["out", "b"], .file (.text ""))], []⟩
    ((run missing false t).result = .error (.settings (.sourceMissing (.ofText "lib"))) ∧
      (run missing false t).tree = t) ∧
    (run s false t).result = .error (.save (.directory (.ofText "out/b/c"))) ∧
    ∃ events before file after output f',
      scan s.input t = .ok (before ++ file :: after, events) ∧
      Fault.save (.directory (.ofText "out/b/c")) = .save f' ∧
      StopsAt s t before file after output f' (run s false t).tree := by
  intro s missing t
  have hs : t.Sound := by decide +kernel
  have hl : ∀ l target, t.entry? l ≠ some (.link target) := by
    apply Tree.not_link_of_entries
    simp [t]
  have hdest : s.output.destDir.components = [.name "out"] := by decide +kernel
  have hd : ∀ c ∈ s.output.destDir.components, ∃ n, c = .name n := by
    intro c hc
    exact ⟨"out", List.mem_singleton.mp (hdest ▸ hc)⟩
  have hr : (run s false t).result = .error (.save (.directory (.ofText "out/b/c"))) := by
    decide +kernel
  refine ⟨?_, hr, ?_⟩
  · exact (@run_stops missing t false hs hl hd).1 _ (by decide +kernel)
  · exact (@run_stops s t false hs hl hd).2 (by decide +kernel) _ hr

end ModelTypings.Run
