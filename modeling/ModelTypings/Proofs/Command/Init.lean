import ModelTypings.Command.Answer
import ModelTypings.Proofs.Files.Above
import ModelTypings.Proofs.Settings.RoundTrip

/-!
# What writing the standard settings changes

* `Settings.load_standard`: the standard settings in a file, loaded again;
* **`init_keeps`**: a file is written or nothing but directories are made, and an entry that stood
  before stays, unless the path leads up from a directory that was missing;
* **`not_init_keeps`**: there a file is overwritten, although that was not asked for.
-/

namespace ModelTypings

open Files

namespace Settings

theorem load_of_readText {s : Settings} {t : Tree} {p : Path} (h : t.readText p = .ok s.text)
    (hs : s.input.sourceDir.IsText) (hd : s.output.destDir.IsText) :
    load t p = match s.validate t with
      | .error f => .error (.unusable f)
      | .ok () => .ok s := by
  rw [load, h]
  cases hvalid : s.validate t <;> simp only [ofText?_text hs hd, hvalid]

theorem validate_standard (t : Tree) : standard.validate t =
    if t.isDirectory (.ofText "backend") then .ok ()
    else .error (if t.pathExists (.ofText "backend") then .sourceNotDirectory (.ofText "backend")
      else .sourceMissing (.ofText "backend")) := by
  have hblank : (Text.trim standard.types.fallback.toList).isEmpty = false := by decide
  have hdir : standard.input.sourceDir = .ofText "backend" := rfl
  rw [validate, hblank, hdir]
  cases he : t.pathExists (.ofText "backend") with
  | false =>
    have hd : t.isDirectory (.ofText "backend") = false := by
      refine Bool.eq_false_iff.mpr fun hd => ?_
      exact nomatch (Tree.pathExists_of_isDirectory hd).symm.trans he
    rw [hd]
    rfl
  | true =>
    cases hd : t.isDirectory (.ofText "backend") <;> rfl

theorem load_standard {t : Tree} {p : Path} (h : t.readText p = .ok standard.text) :
    load t p = if t.isDirectory (.ofText "backend") then .ok standard
      else .error (.unusable (if t.pathExists (.ofText "backend")
        then .sourceNotDirectory (.ofText "backend") else .sourceMissing (.ofText "backend"))) := by
  rw [load_of_readText h ⟨_, rfl⟩ ⟨_, rfl⟩, validate_standard]
  cases t.isDirectory (.ofText "backend") <;> rfl

theorem save_standard (t : Tree) (p : Path) : standard.save t p =
    ((t.save p standard.text).1, (t.save p standard.text).2.map .file) :=
  if_pos (by decide +kernel)

end Settings

namespace Command

open Files.Path

variable {t : Tree} {output : Path}

theorem init_of_exists (h : t.pathExists output = true) :
    init output false t = failure [] (existsFailure output) t := by
  rw [init, h]
  rfl

/-- What the command does if nothing is in the way. -/
theorem init_cases {force : Bool} (h : ¬(t.pathExists output && !force) = true) :
    (∃ f, t.save output Settings.standard.text = ((init output force t).tree, some f) ∧
      (init output force t).status = 1) ∨
    t.save output Settings.standard.text = ((init output force t).tree, none) ∧
      (init output force t).status = 0 := by
  rw [init, if_neg h, Settings.save_standard]
  cases hs : t.save output Settings.standard.text with
  | mk t' fault =>
    cases fault with
    | none => exact Or.inr ⟨rfl, rfl⟩
    | some f => exact Or.inl ⟨f, rfl, rfl⟩

/-- **Writing the standard settings.** If the path leads to an entry, nothing is changed unless that
is asked for. On a failure there is nothing new but directories above the path. On success the file
at the path is the only file that is new or different, and it holds the standard settings. Unless it
is asked for, an entry that stood before is lost only at the end of a path that led nowhere and leads
there once the missing directories above it are made, which takes a step up. -/
theorem init_keeps (ht : t.Sound) (ho : output.IsSpelled) (force : Bool) :
    let answer := init output force t
    (t.pathExists output = true → force = false →
      answer = failure [] (existsFailure output) t) ∧
    (answer.status ≠ 0 → t.AddsAbove answer.tree output) ∧
    (answer.status = 0 → (∃ l, t.WritesAt answer.tree output l Settings.standard.text) ∧
      Settings.load answer.tree output =
        if answer.tree.isDirectory (.ofText "backend") then .ok Settings.standard
        else .error (.unusable (if answer.tree.pathExists (.ofText "backend")
          then .sourceNotDirectory (.ofText "backend")
          else .sourceMissing (.ofText "backend")))) ∧
    (force = false → ∀ l e, t.entry? l = some e → answer.tree.entry? l ≠ some e →
      answer.tree.locate output = .ok l ∧ t.pathExists output = false ∧
      (t.prepare output).1.pathExists output = true ∧
      .up ∈ output.components ∧ t.missingParent? output ≠ none) := by
  intro answer
  by_cases hc : (t.pathExists output && !force) = true
  · obtain ⟨hexists, hforce⟩ := Bool.and_eq_true_iff.mp hc
    obtain rfl : force = false := by simpa using hforce
    have hanswer : answer = failure [] (existsFailure output) t := init_of_exists hexists
    rw [hanswer]
    exact ⟨fun _ _ => rfl, fun _ => .refl t output, fun h => absurd h Nat.one_ne_zero,
      fun _ _ _ he hlost => absurd he hlost⟩
  refine ⟨fun h hforce => absurd (by rw [h, hforce]; rfl) hc, ?_⟩
  rcases init_cases hc with ⟨f, hsave, hstatus⟩ | ⟨hsave, hstatus⟩
  · have hadds : t.AddsAbove answer.tree output := by
      rw [Tree.save_eq_some hsave]
      exact (Tree.prepare_adds_above ht ho.no_slash).1
    exact ⟨fun _ => hadds, fun h => (nomatch hstatus.symm.trans h),
      fun _ l e he hlost => absurd (hadds.entry? he) hlost⟩
  · obtain ⟨l, hw⟩ := Tree.save_spec ht ho.no_slash hsave
    refine ⟨fun h => absurd hstatus h,
      fun _ => ⟨⟨l, hw⟩, Settings.load_standard (Tree.readText_of_save hsave)⟩, ?_⟩
    rintro rfl d e he hlost
    have hnone : t.pathExists output = false := by simpa using hc
    -- only the file at the path can be lost, and it is no new one
    obtain rfl : d = l := by
      by_contra hne
      rcases hw.others d hne with hd | ⟨hd, -⟩
      · exact hlost (hd.trans he)
      · exact nomatch hd.symm.trans he
    have hprepared : (t.prepare output).1.pathExists output = true := by
      by_contra hnew
      have hfree := Tree.save_new ht ho.no_slash (Bool.eq_false_iff.mpr hnew) hsave hw.locate
      exact nomatch hfree.symm.trans he
    obtain ⟨t₁, hprepare, -⟩ := Tree.save_eq_none hsave
    rw [hprepare] at hprepared
    obtain ⟨hup, hmissing⟩ := Tree.up_of_prepare ht hnone hprepare hprepared
    exact ⟨hw.locate, hnone, hprepare ▸ hprepared, hup, hmissing⟩

/-- A directory is made behind a link, and the file in it. -/
theorem init_keeps_behind_link :
    let t : Tree := ⟨[(["backend"], .directory), (["conf"], .link (.ofText "etc")),
      (["etc"], .directory), (["etc", "old.toml"], .file (.text "# old"))], []⟩
    let output : Path := .ofText "conf/types/new.toml"
    let answer := init output false t
    t.Sound ∧ answer.status = 0 ∧
      (∃ l, t.WritesAt answer.tree output l Settings.standard.text) ∧
      Settings.load answer.tree output = .ok Settings.standard ∧
      answer.tree.entry? ["etc", "old.toml"] = some (.file (.text "# old")) := by
  intro t output answer
  have ht : t.Sound := by decide +kernel
  have ho : output.IsSpelled := ⟨_, rfl⟩
  have hstatus : answer.status = 0 := by decide +kernel
  have hdir : answer.tree.isDirectory (.ofText "backend") = true := by decide +kernel
  have hup : .up ∉ output.components := by decide +kernel
  obtain ⟨-, -, hdone, hlost⟩ := init_keeps ht ho false
  obtain ⟨hw, hload⟩ := hdone hstatus
  refine ⟨ht, hstatus, hw, hload.trans (if_pos hdir), ?_⟩
  by_contra h
  exact hup (hlost rfl ["etc", "old.toml"] _ rfl h).2.2.2.1

/-- **A file is overwritten** although that was not asked for: `new/../old.toml` leads nowhere as
long as `new` is missing, and to the file once that directory is made. -/
theorem not_init_keeps : ¬∀ (t : Tree) (output : Path), t.Sound → output.IsText →
    ∀ l e, t.entry? l = some e → (init output false t).tree.entry? l = some e := by
  intro h
  let t : Tree := ⟨[(["old.toml"], .file (.text "# old"))], []⟩
  have hkept := h t (.ofText "new/../old.toml") (by decide +kernel) ⟨_, rfl⟩ ["old.toml"] _ rfl
  exact absurd hkept (by decide +kernel)

end Command

end ModelTypings
