import ModelTypings.Proofs.Run.Mirror

/-!
# Banners of the files that a scan finds

A banner shows the label of a source file in a comment, which ends with its line.

* `isLineEnd`, `IsComment`: the characters that end a line, and the lines without code;
* `lines_bannerText`: the lines of a banner;
* `exists_last_line`: the last line of a text;
* `not_isComment_of_label`: in a label no line but the first is a comment;
* **`scan_banners`**: a banner is a comment as long as no name ends a line;
* **`not_scan_banners`**: a name that does is code from there on.
-/

namespace ModelTypings.TypeScript

/-- The characters that end a line, and with it a comment. -/
def isLineEnd (c : Char) : Bool := ['\n', '\r', '\u2028', '\u2029'].contains c

/-- A line is empty or a comment. -/
def IsComment (l : List Char) : Prop := l = [] ∨ ['/', '/'] <+: l

/-- The text above the first interface. -/
def bannerText (label : String) : String := Style.banner ++ "\n// Source: " ++ label ++ "\n\n"

/-- The words before a label. -/
def labelWords : List Char := "// Source: ".toList

theorem Style.fileText_of_header {s : Style} (h : s.header = true) (models : List Source.Model)
    (label : String) : s.fileText models label =
      bannerText label ++ "\n".intercalate (models.map s.interfaceText) := by
  rw [fileText, if_pos h, bannerText]

section Lines

variable {ends : Char → Bool} (hbreak : ends '\n' = true)
  (hends : ∀ c, ends c = true → isLineEnd c = true)

include hends in
theorem eq_false_of_not_isLineEnd {s : List Char} (h : s.all (fun c => !isLineEnd c) = true) :
    ∀ c ∈ s, ends c = false := by
  intro c hc
  by_contra hend
  have hline := List.all_eq_true.mp h c hc
  rw [hends c (Bool.not_eq_false _ ▸ hend)] at hline
  exact Bool.noConfusion hline

include hbreak hends in
theorem lines_bannerText (label : String) : (bannerText label).toList.splitOnP ends =
    Style.banner.toList :: ((labelWords ++ label.toList).splitOnP ends ++ [[], []]) := by
  have hwords : "\n// Source: ".toList = '\n' :: labelWords := by decide +kernel
  have hbreaks : "\n\n".toList = ['\n', '\n'] := by simp
  have htext : (bannerText label).toList =
      Style.banner.toList ++ '\n' :: ((labelWords ++ label.toList) ++ '\n' :: ([] ++ ['\n'])) := by
    simp only [bannerText, String.toList_append, hwords, hbreaks, List.append_assoc,
      List.cons_append, List.nil_append]
  have hbanner := eq_false_of_not_isLineEnd hends (s := Style.banner.toList) (by decide +kernel)
  rw [htext, List.splitOnP_append_cons_of_forall_mem hbanner _ hbreak,
    List.splitOnP_append_cons _ _ hbreak, List.splitOnP_append_cons _ _ hbreak, List.splitOnP_nil]
  rfl

include hbreak hends in
theorem isComment_bannerText_iff (label : String) :
    (∀ l ∈ (bannerText label).toList.splitOnP ends, IsComment l) ↔
      ∀ l ∈ (labelWords ++ label.toList).splitOnP ends, IsComment l := by
  have hbanner : IsComment Style.banner.toList := Or.inr (by decide +kernel)
  have hempty : ∀ l ∈ [[], []], IsComment l := by simp [IsComment]
  rw [lines_bannerText hbreak hends, List.forall_mem_cons, List.forall_mem_append]
  exact ⟨fun h => h.2.1, fun h => ⟨hbanner, h, hempty⟩⟩

end Lines

theorem exists_last_line {ends : Char → Bool} {s : List Char} (h : ∃ c ∈ s, ends c = true) :
    ∃ before c l, s = before ++ c :: l ∧ ends c = true ∧ ∀ d ∈ l, ends d = false := by
  have hfound : (s.reverse.find? ends).isSome = true := by simpa [List.find?_isSome] using h
  obtain ⟨c, hc⟩ := Option.isSome_iff_exists.mp hfound
  obtain ⟨hend, l, before, hs, hl⟩ := List.find?_eq_some_iff_append.mp hc
  refine ⟨before.reverse, c, l.reverse, ?_, hend, fun d hd => ?_⟩
  · rw [← List.reverse_reverse s, hs]
    simp
  · simpa using hl d (List.mem_reverse.mp hd)

end ModelTypings.TypeScript

namespace ModelTypings.Run

open Files Settings TypeScript

/-! ## Labels -/

theorem not_slashes_label {names : List Name} (hne : names ≠ [])
    (hn : ∀ n ∈ names, Path.IsName n) (before after : List Char) :
    (labelOf names).toList ≠ before ++ '/' :: '/' :: after := by
  intro h
  have hsplit := splitOn_labelOf hne hn
  rw [h, List.splitOn_append_cons_self, ← List.nil_append ('/' :: after),
    List.splitOn_append_cons_self] at hsplit
  have hempty : [] ∈ names.map fun n => n.text.toList := by
    rw [← hsplit]
    simp
  obtain ⟨n, hm, hnil⟩ := List.mem_map.mp hempty
  exact Name.text_ne_empty (hn n hm).ne_empty (String.toList_eq_nil_iff.mp hnil)

theorem exists_labelOf_eq_append (init : List Name) (n : Name) :
    ∃ before, (labelOf (init ++ [n])).toList = before ++ n.text.toList := by
  rw [labelOf, List.map_append, List.map_singleton]
  by_cases hinit : init = []
  · exact ⟨[], by rw [hinit]; simp⟩
  · rw [String.intercalate_append_of_ne_nil (by simpa using hinit) (by simp),
      String.toList_append, String.intercalate_singleton]
    exact ⟨_, rfl⟩

/-- **Behind the end of a line in a label** stands no comment. -/
theorem not_isComment_of_label {names : List Name} (hn : IsSource names)
    {before l : List Char} {c : Char} (h : (labelOf names).toList = before ++ c :: l)
    (hc : isLineEnd c = true) : ¬IsComment l := by
  rintro (rfl | ⟨after, rfl⟩)
  -- the last line is not empty, since the label ends with its extension
  · obtain ⟨-, init, stem, rfl, -⟩ := hn
    obtain ⟨start, hlabel⟩ := exists_labelOf_eq_append init (stem ++ "." ++ "py")
    have hlast := congrArg List.getLast? (hlabel.symm.trans h)
    have hpy : (Name.ofText "py").text.toList = ['p', 'y'] := by
      rw [Name.text_ofText]
      simp
    rw [Name.text_append_dot, hpy] at hlast
    simp at hlast
    subst hlast
    exact absurd hc (by decide)
  -- nor does it start with slashes, since the line before it ends within a name
  · refine not_slashes_label hn.ne_nil hn.named (before ++ [c]) after ?_
    rw [h]
    simp

/-- A label in its line is a comment if it does not end the line. -/
theorem isComment_label_iff {ends : Char → Bool} (hends : ∀ c, ends c = true → isLineEnd c = true)
    {names : List Name} (hn : IsSource names) :
    (∀ l ∈ (labelWords ++ (labelOf names).toList).splitOnP ends, IsComment l) ↔
      ∀ c ∈ (labelOf names).toList, ends c = false := by
  constructor
  · intro h
    by_contra hend
    -- the last line of the label, since only that one is known to end with an extension
    have hline : ∃ c ∈ (labelOf names).toList, ends c = true := by simpa using hend
    obtain ⟨before, c, l, hlabel, hc, hl⟩ := exists_last_line hline
    refine not_isComment_of_label hn hlabel (hends c hc) (h l ?_)
    rw [hlabel, ← List.append_assoc, List.splitOnP_append_cons _ _ hc,
      List.splitOnP_eq_singleton hl]
    simp
  · intro h l hl
    have hwords := eq_false_of_not_isLineEnd hends (s := labelWords) (by decide +kernel)
    rw [List.splitOnP_eq_singleton (List.forall_mem_append.mpr ⟨hwords, h⟩)] at hl
    obtain rfl := List.mem_singleton.mp hl
    have hslashes : ['/', '/'] <+: labelWords := by decide +kernel
    exact Or.inr (hslashes.trans (List.prefix_append _ _))

/-! ## Banners -/

/-- **A banner is a comment** as long as no name on the way to the source file ends a line,
whichever characters beside the line feed are taken to end one. -/
theorem scan_banners {s : Settings} {t : Tree} (hs : t.Sound)
    (hd : t.isDirectory s.input.sourceDir = true) (hheader : s.output.header = true)
    {ends : Char → Bool} (hbreak : ends '\n' = true)
    (hends : ∀ c, ends c = true → isLineEnd c = true) :
    ∃ files events, scan s.input t = .ok (files, events) ∧
      ∀ file ∈ files, ∀ models : List Source.Model, ∃ banner,
        (Style.ofSettings s).fileText models (label file s.input.sourceDir) =
          banner ++ "\n".intercalate (models.map (Style.ofSettings s).interfaceText) ∧
        ((∀ l ∈ banner.toList.splitOnP ends, IsComment l) ↔
          ∀ c ∈ (label file s.input.sourceDir).toList, ends c = false) := by
  obtain ⟨hne, nss, events, hscan, -, hinput⟩ := scan_inputs hs hd
  refine ⟨_, events, hscan, fun file hf models => ?_⟩
  obtain ⟨names, hm, rfl⟩ := List.mem_map.mp hf
  have hsource := (hinput names hm).source
  refine ⟨_, Style.fileText_of_header hheader models _, ?_⟩
  rw [isComment_bannerText_iff hbreak hends, label_below hne hsource.ne_nil hsource.named,
    isComment_label_iff hends hsource]

/-- Every end of a line counts: one file stands below a name with a carriage return. -/
theorem scan_banners_return :
    let s : Settings := {
      input := { sourceDir := .ofText "./src/" }
      output := { destDir := .ofText "out" } }
    let t : Tree := ⟨[(["src"], .directory), (["src", "a\rb"], .directory),
      (["src", "a\rb", "models.py"], .file (.text "")),
      (["src", "models.py"], .file (.text ""))], []⟩
    (t.Sound ∧ t.isDirectory s.input.sourceDir = true ∧ s.output.header = true ∧
      isLineEnd '\n' = true) ∧
      ∃ files events, scan s.input t = .ok (files, events) ∧
        ∀ file ∈ files, ∀ models : List Source.Model, ∃ banner,
          (Style.ofSettings s).fileText models (label file s.input.sourceDir) =
            banner ++ "\n".intercalate (models.map (Style.ofSettings s).interfaceText) ∧
          ((∀ l ∈ banner.toList.splitOnP isLineEnd, IsComment l) ↔
            ∀ c ∈ (label file s.input.sourceDir).toList, isLineEnd c = false) := by
  intro s t
  have hs : t.Sound := by decide +kernel
  have hd : t.isDirectory s.input.sourceDir = true := by decide +kernel
  have hbreak : isLineEnd '\n' = true := by decide
  exact ⟨⟨hs, hd, rfl, hbreak⟩, scan_banners hs hd rfl hbreak fun _ h => h⟩

/-- **A name with a line feed leaves the comment**: what follows in the label is code. -/
theorem not_scan_banners : ∃ (s : Settings) (t : Tree) (file : Path),
    t.Sound ∧ s.validate t = .ok () ∧ s.output.header = true ∧
      (scan s.input t).map Prod.fst = .ok [file] ∧
      ∀ models : List Source.Model, ∃ banner,
        (Style.ofSettings s).fileText models (label file s.input.sourceDir) =
          banner ++ "\n".intercalate (models.map (Style.ofSettings s).interfaceText) ∧
        ∃ l ∈ banner.toList.splitOnP (· == '\n'),
          l = "export const b = 1/models.py".toList ∧ ¬IsComment l := by
  let s : Settings := {
    input := { sourceDir := .ofText "src" }
    output := { destDir := .ofText "out" } }
  let dir : String := "a\nexport const b = 1"
  let t : Tree := ⟨[(["src"], .directory), (["src", dir], .directory),
    (["src", dir, "models.py"], .file (.text ""))], []⟩
  let file : Path := ⟨["src", dir, "models.py"]⟩
  have hlabel : label file s.input.sourceDir = dir ++ "/models.py" := by decide +kernel
  refine ⟨s, t, file, by decide +kernel, by decide +kernel, rfl, by decide +kernel,
    fun models => ⟨_, Style.fileText_of_header rfl models _, "export const b = 1/models.py".toList,
      ?_, rfl, ?_⟩⟩
  · rw [hlabel]
    decide +kernel
  · rintro (h | h)
    · exact absurd h (by decide +kernel)
    · exact absurd h (by decide +kernel)

end ModelTypings.Run
