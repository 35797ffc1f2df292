import ModelTypings.Proofs.Settings.RoundTrip

/-!
# Settings with entries left out

Settings may leave out the entries that are as they would be without them, and the tables on names
and types if all of their entries are.

* `Omissible`, `Omissible.IsStandard`: what may be left out, and what it means to leave it out;
* `without`, `Settings.textWithout`: the text of settings without some entries;
* `isStandard_of_isLeftOut`: what is left out is standard, alone or with its table;
* `readDocument_textWithout`: the table of the shorter text;
* **`load_textWithout`**: settings are loaded from it as they were.
-/

namespace ModelTypings.Settings

open Files Toml

/-! ## What may be left out -/

/-- An entry or a table that may be left out. -/
inductive Omissible
  | exclude
  | recursive
  | fileNames
  | modelPackages
  | modelBases
  | header
  | typePrefix
  | typeSuffix
  | fieldCase
  | fallback
  | overrides
  /-- The table on names. -/
  | naming
  /-- The table on types, with the overrides. -/
  | types
  deriving DecidableEq

namespace Omissible

/-- The keys that lead to it. -/
def path : Omissible → List String
  | exclude => ["input", "exclude"]
  | recursive => ["input", "recursive"]
  | fileNames => ["input", "file_names"]
  | modelPackages => ["input", "model_packages"]
  | modelBases => ["input", "model_bases"]
  | header => ["output", "header"]
  | typePrefix => ["naming", "type_prefix"]
  | typeSuffix => ["naming", "type_suffix"]
  | fieldCase => ["naming", "field_case"]
  | fallback => ["types", "fallback"]
  | overrides => ["types", "overrides"]
  | naming => ["naming"]
  | types => ["types"]

/-- What settings have there that leave it out. -/
def IsStandard (s : Settings) : Omissible → Prop
  | exclude => s.input.exclude = []
  | recursive => s.input.recursive = true
  | fileNames => s.input.fileNames = ["models.py"]
  | modelPackages => s.input.modelPackages = ["models"]
  | modelBases => s.input.modelBases = ["models.Model", "Model"]
  | header => s.output.header = true
  | typePrefix => s.naming.typePrefix = ""
  | typeSuffix => s.naming.typeSuffix = ""
  | fieldCase => s.naming.fieldCase = .preserve
  | fallback => s.types.fallback = "any"
  | overrides => s.types.overrides = .empty
  | naming =>
    s.naming.typePrefix = "" ∧ s.naming.typeSuffix = "" ∧ s.naming.fieldCase = .preserve
  | types => s.types.fallback = "any" ∧ s.types.overrides = .empty

/-- The table of an entry, if it may be left out as a whole. -/
def table? : Omissible → Option Omissible
  | typePrefix | typeSuffix | fieldCase => some naming
  | fallback | overrides => some types
  | _ => none

theorem isPrefixOf_path (o p : Omissible) :
    p.path.isPrefixOf o.path = true → p = o ∨ o.table? = some p := by
  cases o <;> cases p <;> decide

theorem not_isPrefixOf_path {path : List String} (h : path ∈ [["input"], ["output"],
    ["input", "source_dir"], ["output", "dest_dir"]]) (o : Omissible) :
    o.path.isPrefixOf path = false := by
  revert path
  cases o <;> decide

theorem IsStandard.of_table? {s : Settings} {o p : Omissible} (h : p.IsStandard s)
    (ho : o.table? = some p) : o.IsStandard s := by
  cases o with
  | typePrefix | typeSuffix | fieldCase =>
    obtain rfl := Option.some.inj ho
    obtain ⟨hfront, hback, hcase⟩ := h
    assumption
  | fallback | overrides =>
    obtain rfl := Option.some.inj ho
    obtain ⟨hfallback, hoverrides⟩ := h
    assumption
  | exclude | recursive | fileNames | modelPackages | modelBases | header | naming | types =>
    exact nomatch ho

end Omissible

/-! ## The shorter text -/

section Without

variable (omitted : List Omissible)

/-- A path is left out if it leads to something that is, or into it. -/
def isLeftOut (path : List String) : Bool := omitted.any fun o => o.path.isPrefixOf path

/-- The entries of the table at a path that are kept. -/
def keep {α : Type} (path : List String) (entries : List (String × α)) : List (String × α) :=
  entries.filter fun e => !isLeftOut omitted (path ++ [e.1])

/-- A document without the entries and tables that are left out. -/
def without (sections : List Section) : List Section :=
  (sections.filter fun x => !isLeftOut omitted x.path).map fun x =>
    { x with items := keep omitted x.path x.items }

/-- The text of the settings without what is left out. -/
def textWithout (s : Settings) : String := printDocument (without omitted s.sections)

end Without

section Omitted

variable {omitted : List Omissible}

/-- **What is left out is standard**, alone or with its table. -/
theorem isStandard_of_isLeftOut {s : Settings} (hstandard : ∀ o ∈ omitted, o.IsStandard s)
    {o : Omissible} (h : isLeftOut omitted o.path = true) : o.IsStandard s := by
  obtain ⟨p, hp, hpath⟩ := List.any_eq_true.mp h
  rcases o.isPrefixOf_path p hpath with rfl | htable
  · exact hstandard p hp
  · exact (hstandard p hp).of_table? htable

theorem isLeftOut_eq_false {path : List String} (h : path ∈ [["input"], ["output"],
    ["input", "source_dir"], ["output", "dest_dir"]]) : isLeftOut omitted path = false :=
  List.any_eq_false.mpr fun o _ => by simp [o.not_isPrefixOf_path h]

theorem isLeftOut_concat {path : List String} (h : isLeftOut omitted path = true) (key : String) :
    isLeftOut omitted (path ++ [key]) = true := by
  obtain ⟨o, ho, hpath⟩ := List.any_eq_true.mp h
  rw [List.isPrefixOf_iff_prefix] at hpath
  exact List.any_eq_true.mpr
    ⟨o, ho, List.isPrefixOf_iff_prefix.mpr (hpath.trans (List.prefix_append _ _))⟩

/-! ## The table of the shorter text -/

theorem lookup_keep {α : Type} (path : List String) (entries : List (String × α)) (key : String) :
    (keep omitted path entries).lookup key =
      if isLeftOut omitted (path ++ [key]) then none else entries.lookup key := by
  induction entries with
  | nil => simp [keep]
  | cons e es ih =>
    obtain ⟨k, v⟩ := e
    rw [keep] at ih ⊢
    rw [List.filter_cons, List.lookup_cons]
    by_cases hk : key = k
    · subst hk
      cases hout : isLeftOut omitted (path ++ [key]) with
      | true => simpa [hout] using ih
      | false => simp
    · rw [beq_false_of_ne hk]
      cases hout : isLeftOut omitted (path ++ [k]) with
      | true => simpa using ih
      | false => simpa [List.lookup_cons, beq_false_of_ne hk] using ih

theorem keep_concat {α : Type} (path : List String) (entries : List (String × α)) (e : String × α) :
    keep omitted path (entries ++ [e]) =
      keep omitted path entries ++ if isLeftOut omitted (path ++ [e.1]) then [] else [e] := by
  rw [keep, keep, List.filter_append, List.filter_singleton]
  cases isLeftOut omitted (path ++ [e.1]) <;> rfl

theorem nodup_keep {α : Type} (path : List String) {entries : List (String × α)}
    (h : (entries.map Prod.fst).Nodup) : ((keep omitted path entries).map Prod.fst).Nodup :=
  h.sublist (List.filter_sublist.map _)

theorem table_keep (path : List String) (items : List (String × Item)) :
    Section.table ⟨path, keep omitted path items⟩ =
      keep omitted path (Section.table ⟨path, items⟩) := by
  rw [Section.table, Section.table, keep, keep, List.filter_map]
  rfl

theorem keep_of_two {α : Type} {a b : String} (h : isLeftOut omitted [a, b] = false)
    (entries : List (String × α)) : keep omitted [a, b] entries = entries := by
  refine List.filter_eq_self.mpr fun e _ => ?_
  have hkey : ∀ o : Omissible, o.path.isPrefixOf [a, b, e.1] = o.path.isPrefixOf [a, b] := fun o => by
    cases o <;> simp [Omissible.path, List.isPrefixOf]
  rw [isLeftOut] at h ⊢
  simp only [List.cons_append, List.nil_append, hkey, h, Bool.not_false]

theorem foldlM_sections_append {xs ys : List Section} {b b' : Building}
    (h : (xs.flatMap Section.statements).foldlM Building.add b = some b') :
    ((xs ++ ys).flatMap Section.statements).foldlM Building.add b =
      (ys.flatMap Section.statements).foldlM Building.add b' := by
  rw [List.flatMap_append, List.foldlM_append, h]
  rfl

theorem foldlM_add_unless (out : Bool) (es : Entries) {key : String} (he : es.lookup key = none)
    {items : List (String × Item)} (hn : (items.map Prod.fst).Nodup) (current : List String) :
    ∃ current', ((if out then [] else [⟨[key], items⟩] : List Section).flatMap
        Section.statements).foldlM Building.add ⟨es, current⟩ =
      some ⟨es ++ if out then [] else [(key, .table .headed (Section.table ⟨[key], items⟩))],
        current'⟩ := by
  cases out with
  | true => exact ⟨current, by simp⟩
  | false => exact ⟨[key], foldlM_sections_cons (foldlM_add_flat he hn current)⟩

section Sections

variable {input output naming types overrides : List (String × Item)}

/-- The sections that are kept. Those with the directories are. -/
theorem without_cons :
    without omitted [⟨["input"], input⟩, ⟨["output"], output⟩, ⟨["naming"], naming⟩,
        ⟨["types"], types⟩, ⟨["types", "overrides"], overrides⟩] =
      ⟨["input"], keep omitted ["input"] input⟩ :: ⟨["output"], keep omitted ["output"] output⟩ ::
        ((if isLeftOut omitted ["naming"] then []
          else [⟨["naming"], keep omitted ["naming"] naming⟩]) ++
        ((if isLeftOut omitted ["types"] then []
          else [⟨["types"], keep omitted ["types"] types⟩]) ++
        if isLeftOut omitted ["types", "overrides"] then []
          else [⟨["types", "overrides"], overrides⟩])) := by
  have hinput : isLeftOut omitted ["input"] = false := isLeftOut_eq_false (by simp)
  have houtput : isLeftOut omitted ["output"] = false := isLeftOut_eq_false (by simp)
  rw [without, List.filter_cons_of_pos (by simp [hinput]),
    List.filter_cons_of_pos (by simp [houtput])]
  cases hnaming : isLeftOut omitted ["naming"] <;> cases htypes : isLeftOut omitted ["types"] <;>
    cases hoverrides : isLeftOut omitted ["types", "overrides"] <;>
    simp [hnaming, htypes, hoverrides, keep_of_two]

theorem foldlM_add_types {es : Entries} (he : es.lookup "types" = none)
    (htypes : (types.map Prod.fst).Nodup) (hkey : "overrides" ∉ types.map Prod.fst)
    (hoverrides : (overrides.map Prod.fst).Nodup) (current : List String) :
    ((((if isLeftOut omitted ["types"] then []
          else [⟨["types"], keep omitted ["types"] types⟩]) ++
        if isLeftOut omitted ["types", "overrides"] then []
          else [⟨["types", "overrides"], overrides⟩] : List Section).flatMap
        Section.statements).foldlM Building.add ⟨es, current⟩).map Building.root =
      some (es ++ if isLeftOut omitted ["types"] then []
        else [("types", .table .headed (keep omitted ["types"] (Section.table ⟨["types"], types⟩ ++
          [("overrides", .table .headed (Section.table ⟨["types", "overrides"], overrides⟩))])))]) := by
  cases ht : isLeftOut omitted ["types"] with
  | true =>
    have ho : isLeftOut omitted ["types", "overrides"] = true := isLeftOut_concat ht "overrides"
    simp [ho]
  | false =>
    have hsub : (Section.table ⟨["types"], keep omitted ["types"] types⟩).lookup "overrides" =
        none := by
      rw [table_keep, lookup_keep, List.lookup_eq_none_iff.mpr fun e he => ?_, ite_self]
      obtain ⟨item, hitem, rfl⟩ := List.mem_map.mp he
      exact bne_iff_ne.mpr fun h => hkey (List.mem_map.mpr ⟨item, hitem, h.symm⟩)
    rw [if_neg Bool.false_ne_true, if_neg Bool.false_ne_true, List.singleton_append,
      foldlM_sections_cons (foldlM_add_flat he (nodup_keep _ htypes) current)]
    cases ho : isLeftOut omitted ["types", "overrides"] with
    | true => simp [table_keep, keep_concat, ho]
    | false =>
      rw [if_neg Bool.false_ne_true, foldlM_sections_cons (foldlM_add_nested he hsub hoverrides _)]
      simp [table_keep, keep_concat, ho]

theorem tableOf_without (hinput : (input.map Prod.fst).Nodup) (houtput : (output.map Prod.fst).Nodup)
    (hnaming : (naming.map Prod.fst).Nodup) (htypes : (types.map Prod.fst).Nodup)
    (hkey : "overrides" ∉ types.map Prod.fst) (hoverrides : (overrides.map Prod.fst).Nodup) :
    tableOf ((without omitted [⟨["input"], input⟩, ⟨["output"], output⟩, ⟨["naming"], naming⟩,
        ⟨["types"], types⟩, ⟨["types", "overrides"], overrides⟩]).flatMap Section.statements) =
      some ([("input", .table .headed (keep omitted ["input"] (Section.table ⟨["input"], input⟩))),
          ("output", .table .headed (keep omitted ["output"] (Section.table ⟨["output"], output⟩)))] ++
        (if isLeftOut omitted ["naming"] then []
          else [("naming",
            .table .headed (keep omitted ["naming"] (Section.table ⟨["naming"], naming⟩)))]) ++
        if isLeftOut omitted ["types"] then []
          else [("types", .table .headed (keep omitted ["types"]
            (Section.table ⟨["types"], types⟩ ++ [("overrides", .table .headed
              (Section.table ⟨["types", "overrides"], overrides⟩))])))]) := by
  have hfirst : List.lookup "naming"
      [("input", Value.table .headed (Section.table ⟨["input"], keep omitted ["input"] input⟩)),
        ("output", .table .headed (Section.table ⟨["output"], keep omitted ["output"] output⟩))] =
      none := rfl
  obtain ⟨current, hn⟩ := foldlM_add_unless (isLeftOut omitted ["naming"]) _ hfirst
    (nodup_keep ["naming"] hnaming) ["output"]
  rw [tableOf, without_cons, foldlM_sections_cons (foldlM_add_flat rfl (nodup_keep _ hinput) []),
    foldlM_sections_cons (foldlM_add_flat rfl (nodup_keep _ houtput) _), List.nil_append,
    List.singleton_append, foldlM_sections_append hn, table_keep, table_keep, table_keep]
  generalize hes : _ ++ (if isLeftOut omitted ["naming"] = true then [] else _) = es
  have he : es.lookup "types" = none := by
    rw [← hes]
    split <;> simp [List.lookup_cons]
  rw [foldlM_add_types he htypes hkey hoverrides]

end Sections

variable (omitted) in
/-- A table without the entries that are left out. -/
def keepBelow (path : List String) : Value → Value
  | .table kind entries => .table kind (keep omitted path entries)
  | v => v

variable (omitted) in
/-- The tables that are read from the shorter text. -/
def tableWithout (s : Settings) : Entries :=
  keep omitted [] (s.table.map fun e => (e.1, keepBelow omitted [e.1] e.2))

/-- **The shorter text is read as the shorter table.** -/
theorem readDocument_textWithout (s : Settings) :
    readDocument (s.textWithout omitted) = some (s.tableWithout omitted) := by
  have hp : ∀ x ∈ without omitted s.sections, x.path ≠ [] := by
    intro x hx
    obtain ⟨y, hy, rfl⟩ := List.mem_map.mp hx
    have hsections : ∀ x ∈ s.sections, x.path ≠ [] := by simp [sections]
    exact hsections y (List.mem_filter.mp hy).1
  have hinput : isLeftOut omitted ["input"] = false := isLeftOut_eq_false (by simp)
  have houtput : isLeftOut omitted ["output"] = false := isLeftOut_eq_false (by simp)
  rw [textWithout, readDocument_printDocument hp, sections,
    tableOf_without (by simp) (by simp) (by simp) (by simp) (by simp)
      s.types.overrides.nodup_items]
  cases hn : isLeftOut omitted ["naming"] <;> cases ht : isLeftOut omitted ["types"] <;>
    simp [tableWithout, table, keepBelow, keep, Section.table, Item.value, hinput, houtput, hn, ht,
      Function.comp_def]

/-! ## The settings of the table -/

theorem readFlag?_boolean (b : Bool) : readFlag? (.boolean b) = some b := rfl

theorem readString?_string (text : String) : readString? (.string text) = some text := rfl

section Parts

variable {s : Settings} (hstandard : ∀ o ∈ omitted, o.IsStandard s) {es : Entries}
include hstandard

/-- A field that is left out where it is standard is read as it was. -/
theorem readOr_keep {α : Type} {standard x : α} {read : Value → Option α} {v : Value}
    {table key : String} (o : Omissible) (hpath : o.path = [table, key])
    (hlookup : es.lookup key = some v) (hread : read v = some x)
    (hx : o.IsStandard s → x = standard) :
    readOr standard read ((keep omitted [table] es).lookup key) = some x := by
  rw [lookup_keep, List.singleton_append, ← hpath]
  cases hout : isLeftOut omitted o.path with
  | true => rw [if_pos rfl, readOr, hx (isStandard_of_isLeftOut hstandard hout)]
  | false => rw [if_neg Bool.false_ne_true, hlookup, readOr, hread]

theorem readInput?_keep (hs : s.input.sourceDir.IsText)
    (hdir : es.lookup "source_dir" = some (.string s.input.sourceDir.text))
    (hexclude : es.lookup "exclude" = some (.array (s.input.exclude.map .string)))
    (hrecursive : es.lookup "recursive" = some (.boolean s.input.recursive))
    (hnames : es.lookup "file_names" = some (.array (s.input.fileNames.map .string)))
    (hpackages : es.lookup "model_packages" = some (.array (s.input.modelPackages.map .string)))
    (hbases : es.lookup "model_bases" = some (.array (s.input.modelBases.map .string))) :
    readInput? (.table .headed (keep omitted ["input"] es)) = some s.input := by
  have hkept : (keep omitted ["input"] es).lookup "source_dir" =
      some (.string s.input.sourceDir.text) := by
    rw [lookup_keep, isLeftOut_eq_false (by simp), hdir]
    rfl
  simp only [readInput?, fields?, entries?, Option.map_some, Option.bind_eq_bind, Option.bind_some,
    hkept, readPath?_text hs,
    readOr_keep hstandard .exclude rfl hexclude (readStrings?_map _) id,
    readOr_keep hstandard .recursive rfl hrecursive (readFlag?_boolean _) id,
    readOr_keep hstandard .fileNames rfl hnames (readStrings?_map _) id,
    readOr_keep hstandard .modelPackages rfl hpackages (readStrings?_map _) id,
    readOr_keep hstandard .modelBases rfl hbases (readStrings?_map _) id]
  rfl

theorem readOutput?_keep (hd : s.output.destDir.IsText)
    (hdir : es.lookup "dest_dir" = some (.string s.output.destDir.text))
    (hheader : es.lookup "header" = some (.boolean s.output.header)) :
    readOutput? (.table .headed (keep omitted ["output"] es)) = some s.output := by
  have hkept : (keep omitted ["output"] es).lookup "dest_dir" =
      some (.string s.output.destDir.text) := by
    rw [lookup_keep, isLeftOut_eq_false (by simp), hdir]
    rfl
  simp only [readOutput?, fields?, entries?, Option.map_some, Option.bind_eq_bind, Option.bind_some,
    hkept, readPath?_text hd,
    readOr_keep hstandard .header rfl hheader (readFlag?_boolean _) id]
  rfl

theorem readNaming?_keep (hfront : es.lookup "type_prefix" = some (.string s.naming.typePrefix))
    (hback : es.lookup "type_suffix" = some (.string s.naming.typeSuffix))
    (hcase : es.lookup "field_case" = some (.string s.naming.fieldCase.name)) :
    readNaming? (.table .headed (keep omitted ["naming"] es)) = some s.naming := by
  simp only [readNaming?, fields?, entries?, Option.map_some, Option.bind_eq_bind, Option.bind_some,
    readOr_keep hstandard .typePrefix rfl hfront (readString?_string _) id,
    readOr_keep hstandard .typeSuffix rfl hback (readString?_string _) id,
    readOr_keep hstandard .fieldCase rfl hcase (readFieldCase?_name _) id]
  rfl

theorem readTypes?_keep (hfallback : es.lookup "fallback" = some (.string s.types.fallback))
    (hoverrides : es.lookup "overrides" = some (.table .headed
      (s.types.overrides.entries.map fun (key, type) => (key, .string type)))) :
    readTypes? (.table .headed (keep omitted ["types"] es)) = some s.types := by
  simp only [readTypes?, fields?, entries?, Option.map_some, Option.bind_eq_bind, Option.bind_some,
    readOr_keep hstandard .fallback rfl hfallback (readString?_string _) id,
    readOr_keep hstandard .overrides rfl hoverrides (readOverrides?_map _) id]
  rfl

theorem readNaming_of_isLeftOut (h : isLeftOut omitted ["naming"] = true) : s.naming = {} := by
  obtain ⟨hfront, hback, hcase⟩ : Omissible.naming.IsStandard s :=
    isStandard_of_isLeftOut hstandard h
  calc s.naming = ⟨s.naming.typePrefix, s.naming.typeSuffix, s.naming.fieldCase⟩ := rfl
    _ = {} := by rw [hfront, hback, hcase]

theorem readTypes_of_isLeftOut (h : isLeftOut omitted ["types"] = true) : s.types = {} := by
  obtain ⟨hfallback, hoverrides⟩ : Omissible.types.IsStandard s :=
    isStandard_of_isLeftOut hstandard h
  calc s.types = ⟨s.types.fallback, s.types.overrides⟩ := rfl
    _ = {} := by rw [hfallback, hoverrides]

/-- **The settings are read back from the shorter table.** -/
theorem ofEntries?_tableWithout (hs : s.input.sourceDir.IsText)
    (hd : s.output.destDir.IsText) : ofEntries? (s.tableWithout omitted) = some s := by
  have hinput : ((s.tableWithout omitted).lookup "input").bind readInput? = some s.input := by
    rw [tableWithout, lookup_keep, List.nil_append, isLeftOut_eq_false (by simp)]
    exact readInput?_keep hstandard hs rfl rfl rfl rfl rfl rfl
  have houtput : ((s.tableWithout omitted).lookup "output").bind readOutput? = some s.output := by
    rw [tableWithout, lookup_keep, List.nil_append, isLeftOut_eq_false (by simp)]
    exact readOutput?_keep hstandard hd rfl rfl
  have hnaming : readOr {} readNaming? ((s.tableWithout omitted).lookup "naming") =
      some s.naming := by
    rw [tableWithout, lookup_keep, List.nil_append]
    cases hout : isLeftOut omitted ["naming"] with
    | true => rw [readNaming_of_isLeftOut hstandard hout]; rfl
    | false => exact readNaming?_keep hstandard rfl rfl rfl
  have htypes : readOr {} readTypes? ((s.tableWithout omitted).lookup "types") = some s.types := by
    rw [tableWithout, lookup_keep, List.nil_append]
    cases hout : isLeftOut omitted ["types"] with
    | true => rw [readTypes_of_isLeftOut hstandard hout]; rfl
    | false => exact readTypes?_keep hstandard rfl rfl
  simp only [ofEntries?, hinput, houtput, hnaming, htypes, Option.bind_eq_bind, Option.bind_some]
  rfl

end Parts

end Omitted

/-! ## The file -/

/-- **Settings are loaded as they were from a text that leaves out what is standard.** -/
theorem load_textWithout {s : Settings} {t : Tree} {p : Path} {omitted : List Omissible}
    (hs : s.input.sourceDir.IsText) (hd : s.output.destDir.IsText)
    (hstandard : ∀ o ∈ omitted, o.IsStandard s) (hread : t.readText p = .ok (s.textWithout omitted))
    (hvalid : s.validate t = .ok ()) : load t p = .ok s := by
  have hsettings : ofText? (s.textWithout omitted) = some s := by
    rw [ofText?, readDocument_textWithout, Option.bind_some,
      ofEntries?_tableWithout hstandard hs hd]
  simp only [load, hread, hsettings, hvalid]

/-- A table without entries, one that is not there, and overrides below one with nothing else. -/
theorem load_textWithout_tables :
    let s : Settings := {
      input := { sourceDir := .ofText "src", exclude := ["a", "b"], fileNames := [] }
      output := { destDir := .ofText "out", header := false }
      types := { overrides := Overrides.empty.insert "A" "b" } }
    let omitted : List Omissible :=
      [.recursive, .modelPackages, .modelBases, .typePrefix, .typeSuffix, .fieldCase, .fallback]
    let text := "[input]\nsource_dir = \"src\"\nexclude = [\n    \"a\",\n    \"b\",\n]\n" ++
      "file_names = []\n\n[output]\ndest_dir = \"out\"\nheader = false\n\n" ++
      "[naming]\n\n[types]\n\n[types.overrides]\nA = \"b\"\n"
    let t : Tree := ⟨[(["src"], .directory), (["types.toml"], .file (.text text))], []⟩
    (∀ o ∈ omitted, o.IsStandard s) ∧ s.textWithout omitted = text ∧
      s.validate t = .ok () ∧ load t (.ofText "types.toml") = .ok s := by
  intro s omitted text t
  have hstandard : ∀ o ∈ omitted, o.IsStandard s := by
    simp [omitted, Omissible.IsStandard, s]
  have htext : s.textWithout omitted = text := by decide +kernel
  have hread : t.readText (.ofText "types.toml") = .ok (s.textWithout omitted) := by
    rw [htext]
    rfl
  have hvalid : s.validate t = .ok () := by decide +kernel
  exact ⟨hstandard, htext, hvalid,
    load_textWithout ⟨_, rfl⟩ ⟨_, rfl⟩ hstandard hread hvalid⟩

end ModelTypings.Settings
