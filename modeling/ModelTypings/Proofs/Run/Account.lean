import ModelTypings.Proofs.Run.Again
import ModelTypings.Proofs.Run.Mirror
import ModelTypings.Proofs.Source.Events
import ModelTypings.Proofs.TypeScript.TypeTable

/-!
# The counts of a run

The counts that a run gives in the end are told by its events, and by what its files yield.

* `isSkip`, `isUnknownType`, `output?`: the events that are counted;
* `reportOf`, `Progress.visit_records`: the events of one more file;
* `Progress.yields`, `writtenFiles`: what files yield, and the files that are written;
* `Accounts`, `Accounts.visit`, `Accounts.visitAll`: the counts of some files, one by one;
* **`run_accounts`**: the counts of a run.
-/

namespace ModelTypings.Run

open Files Log Settings Source TypeScript

/-! ## The events that are counted -/

/-- The event warns that a file, or an entry below the source directory, is skipped. -/
def isSkip : Event → Bool
  | .skippedFile .. | .skippedEntry _ => true
  | _ => false

/-- The event warns of a field whose constructor is unknown. -/
def isUnknownType : Event → Bool
  | .unknownType .. => true
  | _ => false

/-- The output that the event says is written. -/
def output? : Event → Option Path
  | .wrote output _ => some output
  | _ => none

/-- Some events skip nothing, warn of no type and write nothing. -/
def CountsNothing (es : List Event) : Prop :=
  ∀ e ∈ es, isSkip e = false ∧ isUnknownType e = false ∧ output? e = none

namespace CountsNothing

variable {es : List Event}

theorem of_isOfReading (h : ∀ e ∈ es, isOfReading e = true) : CountsNothing es := by
  intro e he
  have hread := h e he
  cases e with
  | malformedHeader | notModel | redefined | notField => exact ⟨rfl, rfl, rfl⟩
  | _ => exact nomatch hread

theorem skips (h : CountsNothing es) : es.countP isSkip = 0 :=
  List.countP_eq_zero.mpr fun e he => by simp [(h e he).1]

theorem unknown (h : CountsNothing es) : es.countP isUnknownType = 0 :=
  List.countP_eq_zero.mpr fun e he => by simp [(h e he).2.1]

theorem outputs (h : CountsNothing es) : es.filterMap output? = [] :=
  List.filterMap_eq_nil_iff.mpr fun e he => (h e he).2.2

end CountsNothing

/-! ## What a file yields -/

namespace Outcome

/-- The models that are written for a file. -/
def models? : Outcome → Option (List Model)
  | .models found => some found.models
  | _ => none

/-- The number of files skipped. -/
def skips : Outcome → Nat
  | .skipped _ => 1
  | _ => 0

end Outcome

section Add

variable (s : Settings) (m : Summary) (o : Outcome)

theorem Summary.add_scanned : (m.add s o).scanned = m.scanned + 1 := by cases o <;> rfl

theorem Summary.add_skipped : (m.add s o).skipped = m.skipped + o.skips := by cases o <;> rfl

theorem Summary.add_written : (m.add s o).written = m.written + o.models?.toList.length := by
  cases o <;> rfl

theorem Summary.add_interfaces :
    (m.add s o).interfaces = m.interfaces + (o.models?.getD []).length := by
  cases o <;> rfl

theorem Summary.add_unknownFields : (m.add s o).unknownFields =
    m.unknownFields + Run.unknownFields (Style.ofSettings s) (o.models?.getD []) := by
  cases o <;> rfl

theorem Summary.add_parts : (m.add s o).written + (m.add s o).skipped + (m.add s o).withoutModels =
    m.written + m.skipped + m.withoutModels + 1 := by
  cases o <;> simp only [Summary.add] <;> omega

end Add

/-! ## The events of one more file -/

/-- The events of a file once it has been read. -/
def reportOf (s : Settings) (verbose : Bool) (name : String) (output : Path) : Outcome → List Event
  | .skipped f => [.skippedFile name f]
  | .withoutModels => [.noModels name]
  | .models found =>
    (if 0 < found.skipped then [.otherStatements found.skipped] else []) ++
      (Style.ofSettings s).unknownTypes found.models ++ writtenEvents verbose found.models output

theorem length_unknownTypes (style : Style) (models : List Model) :
    (style.unknownTypes models).length = unknownFields style models := by
  rw [Style.unknownTypes, ← List.filterMap_flatMap, List.length_filterMap_eq_countP, unknownFields]
  congr 1
  funext f
  unfold Style.unknownType?
  cases style.types.isKnown f.fieldType <;> rfl

theorem counts_unknownTypes (style : Style) (models : List Model) :
    (style.unknownTypes models).countP isSkip = 0 ∧
      (style.unknownTypes models).countP isUnknownType = unknownFields style models ∧
      (style.unknownTypes models).filterMap output? = [] := by
  have hall : ∀ e ∈ style.unknownTypes models,
      isSkip e = false ∧ isUnknownType e = true ∧ output? e = none := by
    intro e he
    obtain ⟨m, -, he⟩ := List.mem_flatMap.mp he
    obtain ⟨f, -, he⟩ := List.mem_filterMap.mp he
    unfold Style.unknownType? at he
    split at he
    · exact nomatch he
    · exact Option.some.inj he ▸ ⟨rfl, rfl, rfl⟩
  refine ⟨?_, ?_, ?_⟩
  · exact List.countP_eq_zero.mpr fun e he => by simp [(hall e he).1]
  · rw [← length_unknownTypes]
    exact List.countP_eq_length.mpr fun e he => (hall e he).2.1
  · exact List.filterMap_eq_nil_iff.mpr fun e he => (hall e he).2.2

/-- **What the events of a file count**: the file if it is skipped, its output if it is written, and
each of its unknown fields. -/
theorem counts_reportOf (s : Settings) (verbose : Bool) (name : String) (output : Path)
    (o : Outcome) :
    (reportOf s verbose name output o).countP isSkip = o.skips ∧
      (reportOf s verbose name output o).countP isUnknownType =
        unknownFields (Style.ofSettings s) (o.models?.getD []) ∧
      (reportOf s verbose name output o).filterMap output? =
        o.models?.toList.map fun _ => output := by
  cases o with
  | skipped f => exact ⟨rfl, rfl, rfl⟩
  | withoutModels => exact ⟨rfl, rfl, rfl⟩
  | models found =>
    have hother : CountsNothing
        (if 0 < found.skipped then [.otherStatements found.skipped] else []) := by
      intro e he
      split at he
      · exact List.mem_singleton.mp he ▸ ⟨rfl, rfl, rfl⟩
      · exact nomatch he
    have hlisted : CountsNothing
        (if verbose then found.models.map fun m => .interface m.name m.fields.length output
          else []) := by
      intro e he
      split at he
      · obtain ⟨m, -, rfl⟩ := List.mem_map.mp he
        exact ⟨rfl, rfl, rfl⟩
      · exact nomatch he
    obtain ⟨hskip, hunknown, hout⟩ := counts_unknownTypes (Style.ofSettings s) found.models
    simp only [reportOf, writtenEvents, List.countP_append, List.filterMap_append, hother.skips,
      hother.unknown, hother.outputs, hlisted.skips, hlisted.unknown, hlisted.outputs, hskip,
      hunknown, hout]
    simp [isSkip, isUnknownType, output?, Outcome.skips, Outcome.models?]

/-- The records of the events of a file. -/
def recordsOf (name : String) (es : List Event) : List Record := es.map fun e => ⟨some name, e⟩

section Records

variable (name : String) (es : List Event)

theorem countP_isSkip_recordsOf :
    (recordsOf name es).countP (fun r => r.file.isSome && isSkip r.event) = es.countP isSkip :=
  List.countP_map

theorem countP_isUnknownType_recordsOf :
    (recordsOf name es).countP (fun r => isUnknownType r.event) = es.countP isUnknownType :=
  List.countP_map

theorem filterMap_output?_recordsOf :
    (recordsOf name es).filterMap (fun r => output? r.event) = es.filterMap output? :=
  List.filterMap_map

end Records

namespace Progress

variable {p p' : Progress} {s : Settings} {verbose : Bool} {file output : Path}

theorem write_records {found : Models}
    (ho : outputPath? file s.input.sourceDir s.output.destDir = some output)
    (hw : p.write s verbose file found = (p', none)) :
    p'.records = p.records ++ recordsOf (label file s.input.sourceDir)
      (reportOf s verbose (label file s.input.sourceDir) output (.models found)) := by
  unfold write at hw
  dsimp only at hw
  rw [ho] at hw
  dsimp only [log] at hw
  split at hw
  · exact nomatch (Prod.mk.inj hw).2
  · rw [← (Prod.mk.inj hw).1, recordsOf, reportOf]
    by_cases h : 0 < found.skipped
    · simp [h]
    · simp [h]

/-- **The events of one more file** that is visited without a failure. -/
theorem visit_records (ho : outputPath? file s.input.sourceDir s.output.destDir = some output)
    (hv : p.visit s verbose file = (p', none)) :
    p'.records = p.records ++ recordsOf (label file s.input.sourceDir) ((outcome s p.tree file).2 ++
      reportOf s verbose (label file s.input.sourceDir) output (outcome s p.tree file).1) := by
  unfold visit at hv
  cases hout : outcome s p.tree file with
  | mk o events =>
    rw [hout] at hv
    cases o with
    | skipped f =>
      rw [← (Prod.mk.inj hv).1]
      simp [log, recordsOf, reportOf]
    | withoutModels =>
      rw [← (Prod.mk.inj hv).1]
      simp [log, recordsOf, reportOf]
    | models found =>
      rw [write_records ho hv]
      simp [log, recordsOf]

end Progress

/-! ## The counts of some files -/

/-- What files yield one after another, each read from the tree that the files before it leave. -/
def Progress.yields (p : Progress) (s : Settings) (verbose : Bool) :
    List Path → List (Path × Outcome)
  | [] => []
  | file :: files =>
    (file, (outcome s p.tree file).1) :: (p.visit s verbose file).1.yields s verbose files

theorem Progress.yields_files (p : Progress) (s : Settings) (verbose : Bool) (files : List Path) :
    (p.yields s verbose files).map Prod.fst = files := by
  induction files generalizing p with
  | nil => rfl
  | cons file files ih => rw [yields, List.map_cons, ih]

/-- The files that are written, each with its models. -/
def writtenFiles (ys : List (Path × Outcome)) : List (Path × List Model) :=
  ys.filterMap fun y => y.2.models?.map (y.1, ·)

/-- The constructor of the field is neither known from the start nor overridden. -/
def isUnknownField (s : Settings) (f : Field) : Bool :=
  (knownType? f.fieldType).isNone && (s.types.overrides.get? f.fieldType).isNone

theorem unknownFields_eq (s : Settings) (models : List Model) :
    unknownFields (Style.ofSettings s) models =
      (models.flatMap Model.fields).countP (isUnknownField s) := by
  rw [unknownFields]
  congr 1
  funext f
  have hknown : (Style.ofSettings s).types = .ofSettings s.types := rfl
  rw [hknown, TypeTable.isKnown_ofSettings, isUnknownField]
  cases s.types.overrides.get? f.fieldType <;> cases knownType? f.fieldType <;> rfl

/-- **The counts agree** with what some files yield, and with the records of their events. -/
structure Accounts (s : Settings) (ys : List (Path × Outcome)) (records : List Record)
    (m : Summary) : Prop where
  scanned : m.scanned = ys.length
  parts : m.scanned = m.written + m.skipped + m.withoutModels
  skipped : m.skipped = records.countP fun r => r.file.isSome && isSkip r.event
  outputs : (records.filterMap fun r => output? r.event).map some =
    (writtenFiles ys).map fun w => outputPath? w.1 s.input.sourceDir s.output.destDir
  written : m.written = (records.filterMap fun r => output? r.event).length
  interfaces : m.interfaces = ((writtenFiles ys).flatMap Prod.snd).length
  warned : m.unknownFields = records.countP fun r => isUnknownType r.event
  unknown : m.unknownFields =
    (((writtenFiles ys).flatMap Prod.snd).flatMap Model.fields).countP (isUnknownField s)

theorem isOfReading_of_mem_outcome (s : Settings) (t : Tree) (file : Path) :
    ∀ e ∈ (outcome s t file).2, isOfReading e = true := by
  unfold outcome
  split
  · exact fun e he => nomatch he
  next content _ =>
  have hread := isOfReading_of_mem_readModels file s.input.modelBases content
  split
  · next heq => rwa [heq] at hread
  · next heq => rwa [heq] at hread

section Counts

variable {s : Settings} {ys : List (Path × Outcome)} {records : List Record} {m : Summary}

/-- **The counts with one more file**, by the events of reading it and of what it yields. -/
theorem Accounts.concat (h : Accounts s ys records m) (verbose : Bool) (name : String)
    {file output : Path} (ho : outputPath? file s.input.sourceDir s.output.destDir = some output)
    {es : List Event} (hes : CountsNothing es) (o : Outcome) :
    Accounts s (ys ++ [(file, o)])
      (records ++ recordsOf name (es ++ reportOf s verbose name output o)) (m.add s o) := by
  obtain ⟨hskip, hunknown, hout⟩ := counts_reportOf s verbose name output o
  have houts : (records ++ recordsOf name (es ++ reportOf s verbose name output o)).filterMap
      (fun r => output? r.event) =
        records.filterMap (fun r => output? r.event) ++ o.models?.toList.map fun _ => output := by
    rw [List.filterMap_append, filterMap_output?_recordsOf, List.filterMap_append, hes.outputs, hout,
      List.nil_append]
  have hfiles : writtenFiles (ys ++ [(file, o)]) =
      writtenFiles ys ++ o.models?.toList.map (file, ·) := by
    rw [writtenFiles, List.filterMap_append]
    exact congrArg _ (by cases o <;> rfl)
  have hmodels : (writtenFiles (ys ++ [(file, o)])).flatMap Prod.snd =
      (writtenFiles ys).flatMap Prod.snd ++ o.models?.getD [] := by
    rw [hfiles, List.flatMap_append]
    cases o.models? <;> simp
  exact {
    scanned := by rw [Summary.add_scanned, h.scanned, List.length_append]; rfl
    parts := by rw [Summary.add_scanned, Summary.add_parts, h.parts]
    skipped := by
      rw [Summary.add_skipped, h.skipped, List.countP_append, countP_isSkip_recordsOf,
        List.countP_append, hes.skips, hskip, Nat.zero_add]
    outputs := by
      rw [houts, hfiles, List.map_append, List.map_append, h.outputs, List.map_map, List.map_map]
      exact congrArg _ (List.map_congr_left fun _ _ => ho.symm)
    written := by
      rw [Summary.add_written, h.written, houts, List.length_append, List.length_map]
    interfaces := by rw [Summary.add_interfaces, h.interfaces, hmodels, List.length_append]
    warned := by
      rw [Summary.add_unknownFields, h.warned, List.countP_append, countP_isUnknownType_recordsOf,
        List.countP_append, hes.unknown, hunknown, Nat.zero_add]
    unknown := by
      rw [Summary.add_unknownFields, h.unknown, hmodels, List.flatMap_append, List.countP_append,
        unknownFields_eq] }

theorem Accounts.visit {p p' : Progress} (h : Accounts s ys p.records p.summary) {verbose : Bool}
    {file output : Path} (ho : outputPath? file s.input.sourceDir s.output.destDir = some output)
    (hv : p.visit s verbose file = (p', none)) :
    Accounts s (ys ++ [(file, (outcome s p.tree file).1)]) p'.records p'.summary := by
  have hsummary := Progress.visit_summary verbose ho (by rw [hv])
  rw [hv] at hsummary
  rw [hsummary, Progress.visit_records ho hv]
  exact h.concat verbose _ ho (.of_isOfReading (isOfReading_of_mem_outcome s p.tree file)) _

/-- **The counts of some more files**, each visited without a failure. -/
theorem Accounts.visitAll {verbose : Bool} {files : List Path} {p p' : Progress}
    (h : Accounts s ys p.records p.summary)
    (ho : ∀ file ∈ files, ∃ output,
      outputPath? file s.input.sourceDir s.output.destDir = some output)
    (hv : p.visitAll s verbose files = (p', none)) :
    Accounts s (ys ++ p.yields s verbose files) p'.records p'.summary := by
  induction files generalizing p ys with
  | nil =>
    obtain rfl := (Prod.mk.inj hv).1
    rwa [Progress.yields, List.append_nil]
  | cons file files ih =>
    obtain ⟨output, hout⟩ := ho file List.mem_cons_self
    rw [Progress.visitAll] at hv
    split at hv
    · exact absurd (Prod.mk.inj hv).2 (Option.some_ne_none _)
    next p₁ hvisit =>
    rw [Progress.yields, List.append_cons, hvisit]
    exact ih (h.visit hout hvisit) (fun f hf => ho f (List.mem_cons_of_mem _ hf)) hv

theorem Accounts.general (h : Accounts s ys records m) {before after : List Event}
    (hb : ∀ e ∈ before, isUnknownType e = false ∧ output? e = none)
    (ha : ∀ e ∈ after, isUnknownType e = false ∧ output? e = none) :
    Accounts s ys (Run.general before ++ (records ++ Run.general after)) m := by
  have hskip : ∀ es : List Event,
      (Run.general es).countP (fun r => r.file.isSome && isSkip r.event) = 0 := by
    intro es
    simp [Run.general]
  have hunknown : ∀ {es : List Event}, (∀ e ∈ es, isUnknownType e = false ∧ output? e = none) →
      (Run.general es).countP (fun r => isUnknownType r.event) = 0 := by
    intro es hes
    rw [Run.general, List.countP_map]
    exact List.countP_eq_zero.mpr fun e he => by simp [(hes e he).1]
  have houts : ∀ {es : List Event}, (∀ e ∈ es, isUnknownType e = false ∧ output? e = none) →
      (Run.general es).filterMap (fun r => output? r.event) = [] := by
    intro es hes
    rw [Run.general, List.filterMap_map]
    exact List.filterMap_eq_nil_iff.mpr fun e he => (hes e he).2
  obtain ⟨hscanned, hparts, hskipped, houtputs, hwritten, hinterfaces, hwarned, hfields⟩ := h
  refine ⟨hscanned, hparts, ?_, ?_, ?_, hinterfaces, ?_, hfields⟩
  · simpa only [List.countP_append, hskip, Nat.zero_add, Nat.add_zero] using hskipped
  · simpa only [List.filterMap_append, houts hb, houts ha, List.nil_append, List.append_nil]
      using houtputs
  · simpa only [List.filterMap_append, houts hb, houts ha, List.nil_append, List.append_nil]
      using hwritten
  · simpa only [List.countP_append, hunknown hb, hunknown ha, Nat.zero_add, Nat.add_zero]
      using hwarned

end Counts

/-! ## The whole run -/

theorem counts_of_scan {s : Input} {t : Tree} {files : List Path} {events : List Event}
    (h : scan s t = .ok (files, events)) :
    ∀ e ∈ events, isUnknownType e = false ∧ output? e = none := by
  intro e he
  rw [scan] at h
  cases hw : t.walk s.exclude s.recursive s.sourceDir with
  | error f =>
    rw [hw] at h
    cases h
  | ok visits =>
    rw [hw] at h
    obtain ⟨-, rfl⟩ := Prod.mk.inj (Except.ok.inj h)
    obtain ⟨v, -, hv⟩ := List.mem_filterMap.mp he
    cases v with
    | file p =>
      rw [visitEvent?] at hv
      split at hv
      · exact absurd hv.symm (Option.some_ne_none _)
      · exact Option.some.inj hv ▸ ⟨rfl, rfl⟩
    | excluded p => exact Option.some.inj hv ▸ ⟨rfl, rfl⟩
    | fault f => exact Option.some.inj hv ▸ ⟨rfl, rfl⟩

/-- The records of a run that succeeds. -/
theorem records_of_run {s : Settings} {t : Tree} {verbose : Bool} {files : List Path}
    {events : List Event} {p : Progress} (hv : s.validate t = .ok ())
    (hscan : scan s.input t = .ok (files, events))
    (hall : ({ tree := t } : Progress).visitAll s verbose files = (p, none)) :
    (run s verbose t).records =
      general ([.scanning s.input.sourceDir] ++ events ++
        [.found files.length, .typeTable (TypeTable.ofSettings s.types).size
          (TypeTable.ofSettings s.types).fallback]) ++
      (p.records ++ general [.done p.summary.interfaces p.summary.written p.summary.skipped]) := by
  unfold run
  rw [hv]
  dsimp only
  rw [hscan]
  dsimp only [generate]
  rw [hall]

theorem writtenFiles_sublist (ys : List (Path × Outcome)) :
    ((writtenFiles ys).map Prod.fst).Sublist (ys.map Prod.fst) := by
  induction ys with
  | nil => exact .slnil
  | cons y ys ih =>
    rw [writtenFiles, List.map_cons]
    cases hy : y.2.models? with
    | none =>
      rw [List.filterMap_cons_none (by rw [hy]; rfl)]
      exact ih.cons _
    | some found =>
      rw [List.filterMap_cons_some (by rw [hy]; rfl), List.map_cons]
      exact ih.cons_cons _

/-- No output is written twice, if the files are different source files. -/
theorem Accounts.outputs_pairwise {s : Settings} (hdir : ¬s.input.sourceDir.isEmpty = true)
    {nss : List (List Name)} (hsorted : nss.Pairwise (· < ·))
    (hsource : ∀ names ∈ nss, IsSource names) {ys : List (Path × Outcome)}
    (hys : ys.map Prod.fst = nss.map s.input.sourceDir.below) {records : List Record} {m : Summary}
    (h : Accounts s ys records m) : (records.filterMap fun r => output? r.event).Pairwise
      fun a b => a.components ≠ b.components := by
  obtain ⟨nss', hsub, hnss'⟩ := List.sublist_map_iff.mp (hys ▸ writtenFiles_sublist ys)
  have houtputs : (records.filterMap fun r => output? r.event).map some =
      nss'.map fun names => outputPath? (s.input.sourceDir.below names) s.input.sourceDir
        s.output.destDir := by
    have hmap := congrArg (List.map fun file =>
      outputPath? file s.input.sourceDir s.output.destDir) hnss'
    rw [List.map_map, List.map_map] at hmap
    exact h.outputs.trans hmap
  have hpairs : (nss'.map fun names => outputPath? (s.input.sourceDir.below names)
      s.input.sourceDir s.output.destDir).Pairwise fun x y =>
        ∀ a b, x = some a → y = some b → a.components ≠ b.components := by
    refine List.pairwise_map.mpr ((hsorted.sublist hsub).imp_of_mem ?_)
    intro names names' hm hm' hlt a b ha hb
    have hne : names ≠ names' := by
      rintro rfl
      exact List.lt_irrefl _ hlt
    exact outputs_differ hdir (hsource _ (hsub.subset hm)) (hsource _ (hsub.subset hm')) hne ha hb
  rw [← houtputs] at hpairs
  exact (List.pairwise_map.mp hpairs).imp fun h => h _ _ rfl rfl

/-- **The counts of a run.** Every file that the scan finds is written, skipped or without models.
The skipped files, the outputs and the unknown fields are counted by their events. The interfaces are
the models of the written files, the unknown fields those of their fields whose constructor is
neither known from the start nor overridden. No output is written twice. -/
theorem run_accounts {s : Settings} {t : Tree} {verbose : Bool} {summary : Summary} (ht : t.Sound)
    (hr : (run s verbose t).result = .ok summary) :
    ∃ files events, scan s.input t = .ok (files, events) ∧ summary.scanned = files.length ∧
      Accounts s (({ tree := t } : Progress).yields s verbose files) (run s verbose t).records
        summary ∧
      ((run s verbose t).records.filterMap fun r => output? r.event).Pairwise
        fun a b => a.components ≠ b.components := by
  obtain ⟨hv, files, events, p, hscan, hall, -, rfl⟩ := visitAll_of_run hr
  obtain ⟨hdir, nss, events', hscan', hsorted, hinput⟩ := scan_inputs ht (isDirectory_of_validate hv)
  obtain ⟨rfl, rfl⟩ := Prod.mk.inj (Except.ok.inj (hscan'.symm.trans hscan))
  have hsource : ∀ names ∈ nss, IsSource names := fun names hm => (hinput names hm).source
  have hstart : Accounts s [] [] {} := ⟨rfl, rfl, rfl, rfl, rfl, rfl, rfl, rfl⟩
  have hfiles : Accounts s ([] ++ ({ tree := t } : Progress).yields s verbose
      (nss.map s.input.sourceDir.below)) p.records p.summary := by
    refine Accounts.visitAll (p := { tree := t }) hstart (fun file hf => ?_) hall
    obtain ⟨names, hm, rfl⟩ := List.mem_map.mp hf
    exact ⟨_, outputPath?_below hdir s.output.destDir (hsource names hm)⟩
  rw [List.nil_append] at hfiles
  have hrun : Accounts s (({ tree := t } : Progress).yields s verbose
      (nss.map s.input.sourceDir.below)) (run s verbose t).records p.summary := by
    rw [records_of_run hv hscan hall]
    refine hfiles.general (fun e he => ?_) (List.forall_mem_singleton.mpr ⟨rfl, rfl⟩)
    simp only [List.mem_append, List.mem_cons, List.not_mem_nil, or_false] at he
    rcases he with (rfl | he) | rfl | rfl
    · exact ⟨rfl, rfl⟩
    · exact counts_of_scan hscan e he
    · exact ⟨rfl, rfl⟩
    · exact ⟨rfl, rfl⟩
  have hyields := Progress.yields_files { tree := t } s verbose (nss.map s.input.sourceDir.below)
  refine ⟨_, _, hscan, ?_, hrun, hrun.outputs_pairwise hdir hsorted hsource hyields⟩
  rw [hrun.scanned, ← List.length_map Prod.fst, hyields]

/-- Files of each kind, one of them behind a link. One unknown constructor is overridden. -/
theorem run_accounts_of_each_kind :
    let s : Settings := {
      input := { sourceDir := .ofText "app" }, output := { destDir := .ofText "out" }
      types := { fallback := "any", overrides := .ofList [("Money", "string")] } }
    let t : Tree := ⟨[(["app"], .directory), (["app", "models"], .directory),
      (["app", "models", "a.py"], .file (.text "class A(Model):\n b = C(); d = Money()\n")),
      (["app", "models", "b.py"], .file (.text "class B(")),
      (["app", "models", "c.py"], .file (.text "class C: pass\n")),
      (["app", "models", "d.py"], .link (.ofText "a.py"))], []⟩
    t.Sound ∧ (run s true t).result = .ok ⟨4, 2, 1, 1, 2, 2⟩ ∧
    ∃ files events, scan s.input t = .ok (files, events) ∧ 4 = files.length ∧
      Accounts s (({ tree := t } : Progress).yields s true files) (run s true t).records
        ⟨4, 2, 1, 1, 2, 2⟩ ∧
      ((run s true t).records.filterMap fun r => output? r.event).Pairwise
        fun a b => a.components ≠ b.components := by
  intro s t
  have ht : t.Sound := by decide +kernel
  have hr : (run s true t).result = .ok ⟨4, 2, 1, 1, 2, 2⟩ := by decide +kernel
  exact ⟨ht, hr, run_accounts ht hr⟩

end ModelTypings.Run
