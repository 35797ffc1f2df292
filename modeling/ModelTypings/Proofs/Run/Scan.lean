import Mathlib.Control.Monad.Basic
import ModelTypings.Proofs.Files.Walk
import ModelTypings.Run.Scan

/-!
# The files that a scan finds

* `holderName?`, `isModelFile_below`: a model file by the names that lead to it;
* `scan_eq`: a scan keeps the model files of a walk;
* `IsFound`, **`scan_finds`**: a scan finds the files that the names lead to, in the order of the
  names.
-/

namespace ModelTypings.Run

open Files Settings

/-- The name of the directory that holds what names lead to. -/
def holderName? (dir : Path) (names : List Name) : Option Name :=
  names.dropLast.getLast?.or dir.fileName?

theorem fileName?_below (dir : Path) {names : List Name} (hn : ∀ n ∈ names, Path.IsName n) :
    (dir.below names).fileName? = names.getLast?.or dir.fileName? := by
  rcases List.eq_nil_or_concat names with rfl | ⟨init, n, rfl⟩
  · rfl
  · rw [List.concat_eq_append] at hn ⊢
    rw [Path.below_concat, Path.fileName?_child _ (hn n (by simp)), List.getLast?_concat]
    rfl

/-- **A file holds models** by its name, or by that of the directory that holds it. -/
theorem isModelFile_below (s : Input) {names : List Name} (hne : names ≠ [])
    (hn : ∀ n ∈ names, Path.IsName n) :
    isModelFile s (s.sourceDir.below names) = true ↔
      ∃ n, names.getLast? = some n ∧ (Path.splitName n).2 = some (.ofText "py") ∧
        (n ∈ s.fileNames.map Name.ofText ∨
          ∃ holder ∈ holderName? s.sourceDir names, holder ∈ s.modelPackages.map Name.ofText) := by
  obtain ⟨init, n, rfl⟩ := (List.eq_nil_or_concat names).resolve_left hne
  rw [List.concat_eq_append] at hn ⊢
  have hinit : ∀ m ∈ init, Path.IsName m := fun m hm => hn m (List.mem_append_left _ hm)
  have hlast : Path.IsName n := hn n (by simp)
  obtain ⟨q, hq, hc⟩ := Path.parent?_child (s.sourceDir.below init) hlast
  have hholder : q.fileName? = holderName? s.sourceDir (init ++ [n]) := by
    rw [Path.fileName?_congr hc, fileName?_below _ hinit, holderName?, List.dropLast_concat]
  rw [isModelFile, Path.below_concat, Path.extension?_child _ hlast, Path.fileName?_child _ hlast,
    hq, Option.bind_some, hholder]
  simp [Option.any_eq_true]

theorem filterMap_modelFile? (s : Input) (visits : List Visit) :
    visits.filterMap (modelFile? s) = (visits.filterMap Visit.file?).filter (isModelFile s) := by
  rw [List.filter_filterMap]
  refine congrArg (fun f => visits.filterMap f) (funext fun v => ?_)
  cases v with
  | file p =>
    rw [modelFile?, Visit.file?, Option.filter_some]
  | excluded | fault => rfl

theorem scan_eq {s : Input} {t : Tree} (hs : t.Sound) (hd : t.isDirectory s.sourceDir = true) :
    ∃ (nss : List (List Name)) (events : List Log.Event),
      scan s t = .ok (nss.map s.sourceDir.below, events) ∧ nss.Pairwise (· < ·) ∧
      ∀ names, names ∈ nss ↔ t.IsWalked s.exclude s.recursive s.sourceDir names ∧
        isModelFile s (s.sourceDir.below names) = true := by
  obtain ⟨seen, hw, nss, hf, hp, hm⟩ := @Tree.walk_files t s.exclude s.recursive hs s.sourceDir hd
  refine ⟨nss.filter (isModelFile s ∘ s.sourceDir.below), seen.filterMap (visitEvent? s), ?_,
    hp.filter _, fun names => ?_⟩
  · rw [scan, hw, Except.map, filterMap_modelFile?, hf, List.filter_map]
  · rw [List.mem_filter, hm]
    rfl

/-- **The names lead to a model file of the source directory.** -/
structure IsFound (s : Input) (t : Tree) (names : List Name) : Prop where
  walked : t.IsWalked s.exclude s.recursive s.sourceDir names
  model : ∃ n, names.getLast? = some n ∧ (Path.splitName n).2 = some (.ofText "py") ∧
    (n ∈ s.fileNames.map Name.ofText ∨
      ∃ holder ∈ holderName? s.sourceDir names, holder ∈ s.modelPackages.map Name.ofText)

/-- **A scan finds the model files that names lead to**, in the order of the names. -/
theorem scan_finds {s : Input} {t : Tree} (hs : t.Sound)
    (hd : t.isDirectory s.sourceDir = true) :
    ∃ (nss : List (List Name)) (events : List Log.Event),
      scan s t = .ok (nss.map s.sourceDir.below, events) ∧ nss.Pairwise (· < ·) ∧
      ∀ names, names ∈ nss ↔ IsFound s t names := by
  obtain ⟨nss, events, hscan, hp, hm⟩ := scan_eq hs hd
  refine ⟨nss, events, hscan, hp, fun names => (hm names).trans ⟨?_, ?_⟩⟩
  · rintro ⟨hw, hf⟩
    exact ⟨hw, (isModelFile_below s hw.nonempty hw.named).mp hf⟩
  · rintro ⟨hw, hf⟩
    exact ⟨hw, (isModelFile_below s hw.nonempty hw.named).mpr hf⟩

/-- A file is found behind a link that leads out of the source directory. -/
theorem scan_finds_behind_link :
    let s : Input := { sourceDir := .ofText "src" }
    let t : Tree := ⟨[(["src"], .directory), (["src", "a"], .link (.ofText "../b")),
      (["b"], .directory), (["b", "models.py"], .file (.text ""))], []⟩
    ∃ (nss : List (List Name)) (events : List Log.Event),
      scan s t = .ok (nss.map s.sourceDir.below, events) ∧ nss.Pairwise (· < ·) ∧
      ∀ names, names ∈ nss ↔ IsFound s t names :=
  scan_finds (by decide +kernel) (by decide +kernel)

/-- Only links are kept from leading back: here a link leads above the source directory, and the
source directory is entered again by its name. -/
theorem scan_enters_again :
    let s : Input := { sourceDir := .ofText "src" }
    let t : Tree := ⟨[(["src"], .directory), (["src", "models.py"], .file (.text "")),
      (["src", "up"], .link (.ofText ".."))], []⟩
    t.Sound ∧ t.isDirectory s.sourceDir = true ∧
      (scan s t).map Prod.fst = .ok [s.sourceDir.below ["models.py"],
        s.sourceDir.below ["up", "src", "models.py"]] ∧
      t.locate (s.sourceDir.below ["up", "src"]) = t.locate s.sourceDir := by
  decide +kernel

end ModelTypings.Run
