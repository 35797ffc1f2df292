import Mathlib.Data.List.Basic
import Mathlib.Data.List.TakeWhile
import ModelTypings.Proofs.Naming.Camel
import ModelTypings.Proofs.Text.Name
import ModelTypings.TypeScript.Interface

/-!
# Interfaces read back

The text of a file is read back line by line. It tells the interfaces in order, each with its name
and its properties.

* `Interface`, `Property`, `Style.interface`: what the text of a model says;
* `interfaceName?`, `property?`, `readInterfaces`: the reader;
* `Style.fileLines`, `toList_fileText`: the text of a file as lines;
* `IsReadable`: the names and types hold nothing that the reader stops at;
* **`readInterfaces_fileText`**: the text of a file read back.
-/

namespace ModelTypings.TypeScript

open Settings Source Text

/-! ## What a text says -/

/-- A property of an interface. -/
structure Property where
  name : String
  optional : Bool
  type : String
  deriving DecidableEq, Repr

/-- An interface. -/
structure Interface where
  name : String
  properties : List Property
  deriving DecidableEq, Repr

namespace Style

/-- The property that a field becomes. -/
def property (s : Style) (f : Field) : Property :=
  ⟨s.fieldName f.name, f.optional, s.types.resolve f.fieldType⟩

/-- The interface that a model becomes. -/
def interface (s : Style) (m : Model) : Interface :=
  ⟨s.typeName m.name, m.fields.map s.property⟩

end Style

/-! ## Reading -/

/-- The words before the name of an interface. -/
def interfaceWords : List Char := "export interface ".toList

/-- The name of the interface that a line opens. -/
def interfaceName? (line : List Char) : Option String :=
  if interfaceWords.isPrefixOf line then
    some (String.ofList ((line.drop interfaceWords.length).takeWhile (· != ' ')))
  else none

/-- The name of a property goes on with the character. -/
def isOfPropertyName (c : Char) : Bool := c != ':' && c != '?'

/-- The property on a line. -/
def property? : List Char → Option Property
  | ' ' :: ' ' :: cs =>
    let name := String.ofList (cs.takeWhile isOfPropertyName)
    match cs.dropWhile isOfPropertyName with
    | '?' :: ':' :: ' ' :: type => some ⟨name, true, String.ofList type.dropLast⟩
    | ':' :: ' ' :: type => some ⟨name, false, String.ofList type.dropLast⟩
    | _ => none
  | _ => none

/-- A line put before what has been read below it: the properties of an interface that no line has
opened yet, and the interfaces. -/
def addLine (line : List Char) (below : List Property × List Interface) :
    List Property × List Interface :=
  match interfaceName? line with
  | some name => ([], ⟨name, below.1⟩ :: below.2)
  | none =>
    match property? line with
    | some p => (p :: below.1, below.2)
    | none => below

/-- The interfaces of a text. -/
def readInterfaces (text : String) : List Interface :=
  ((splitAt '\n' text.toList).foldr addLine ([], [])).2

/-! ## The lines of a file -/

/-- Lines, each with the character that ends it. -/
def joinLines (ls : List (List Char)) : List Char := ls.flatMap (· ++ ['\n'])

theorem joinLines_append (ls ks : List (List Char)) :
    joinLines (ls ++ ks) = joinLines ls ++ joinLines ks := List.flatMap_append

theorem splitAt_append {sep : Char} {l : List Char} (h : sep ∉ l) (rest : List Char) :
    splitAt sep (l ++ sep :: rest) = l :: splitAt sep rest := by
  induction l with
  | nil => rw [List.nil_append, splitAt, if_pos rfl]
  | cons c cs ih =>
    obtain ⟨hc, hcs⟩ := not_or.mp (List.mem_cons.not.mp h)
    rw [List.cons_append, splitAt, if_neg (Ne.symm hc), ih hcs, consFirst]

/-- **Lines are told apart again.** -/
theorem splitAt_joinLines {ls : List (List Char)} (h : ∀ l ∈ ls, '\n' ∉ l) :
    splitAt '\n' (joinLines ls) = ls ++ [[]] := by
  induction ls with
  | nil => rfl
  | cons l ls ih =>
    obtain ⟨hl, hls⟩ := List.forall_mem_cons.mp h
    rw [joinLines, List.flatMap_cons, List.append_assoc, List.singleton_append]
    exact (splitAt_append hl _).trans (congrArg _ (ih hls))

namespace Style

variable (s : Style)

/-- The line of a field. -/
def fieldLine (f : Field) : List Char :=
  [' ', ' '] ++ (s.fieldName f.name).toList ++ (if f.optional then ['?'] else []) ++ [':', ' '] ++
    (s.types.resolve f.fieldType).toList ++ [';']

/-- The first line of a model. -/
def openingLine (m : Model) : List Char :=
  interfaceWords ++ (s.typeName m.name).toList ++ [' ', '\x7b']

/-- The lines of a model. -/
def modelLines (m : Model) : List (List Char) :=
  if m.fields.isEmpty then [s.openingLine m ++ ['\x7d']]
  else s.openingLine m :: m.fields.map s.fieldLine ++ [['\x7d']]

/-- The lines above the first model. -/
def bannerLines (label : String) : List (List Char) :=
  if s.header then [banner.toList, ("// Source: " ++ label).toList, []] else []

/-- The lines of a file. -/
def fileLines (models : List Model) (label : String) : List (List Char) :=
  s.bannerLines label ++ [[]].intercalate (models.map s.modelLines)

theorem toList_fieldText (f : Field) : (s.fieldText f).toList = s.fieldLine f ++ ['\n'] := by
  have hblanks : "  ".toList = [' ', ' '] := by simp
  have hcolon : ": ".toList = [':', ' '] := by simp
  have hend : ";\n".toList = [';', '\n'] := by simp
  have hmark : (if f.optional then "?" else "").toList = if f.optional then ['?'] else [] := by
    cases f.optional <;> simp
  simp only [fieldText, fieldLine, String.toList_append, hblanks, hcolon, hend, hmark,
    List.append_assoc, List.cons_append, List.nil_append]

theorem toList_interfaceText (m : Model) : (s.interfaceText m).toList = joinLines (s.modelLines m) := by
  have hwords : "export interface ".toList = interfaceWords := rfl
  have hopen : " \x7b".toList = [' ', '\x7b'] := by simp
  have hclose : "\x7d\n".toList = ['\x7d', '\n'] := by simp
  have hbreak : "\n".toList = ['\n'] := by simp
  unfold interfaceText modelLines
  dsimp only
  split
  · simp [joinLines, openingLine, hwords, hopen, hclose]
  · have hfields : (String.join (m.fields.map s.fieldText)).toList =
        joinLines (m.fields.map s.fieldLine) := by
      rw [String.toList_join, joinLines, List.flatMap_map, List.flatMap_map]
      exact congrArg (List.flatMap · _) (funext s.toList_fieldText)
    rw [List.cons_append, joinLines, List.flatMap_cons, List.flatMap_append, ← joinLines, ← hfields]
    simp [openingLine, hwords, hopen, hclose, hbreak]

/-- **The text of a file as lines.** -/
theorem toList_fileText (models : List Model) (label : String) :
    (s.fileText models label).toList = joinLines (s.fileLines models label) := by
  have hbreak : "\n".toList = ['\n'] := by simp
  have hbanner : (if s.header then banner ++ "\n// Source: " ++ label ++ "\n\n" else "").toList =
      joinLines (s.bannerLines label) := by
    unfold bannerLines
    split
    · simp [joinLines]
    · rfl
  have hmodels : ("\n".intercalate (models.map s.interfaceText)).toList =
      joinLines ([[]].intercalate (models.map s.modelLines)) := by
    rw [String.toList_intercalate, hbreak, List.map_map]
    induction models with
    | nil => rfl
    | cons m models ih =>
      cases models with
      | nil => simp [s.toList_interfaceText]
      | cons m' models =>
        simp only [List.map_cons, List.intercalate_cons_cons, joinLines_append] at ih ⊢
        rw [ih, Function.comp_apply, s.toList_interfaceText]
        rfl
  rw [fileText, String.toList_append, hbanner, hmodels, fileLines, joinLines_append]

end Style

/-! ## Names and types -/

/-- The names and types of a style and of some models hold nothing that the reader stops at: names
and what stands around them are made of word characters, types and label stand on one line. -/
structure IsReadable (s : Style) (models : List Model) (label : String) : Prop where
  typePrefix : ∀ c ∈ s.naming.typePrefix.toList, isWord c = true
  typeSuffix : ∀ c ∈ s.naming.typeSuffix.toList, isWord c = true
  types : ∀ e ∈ s.types.entries, '\n' ∉ e.2.toList
  fallback : '\n' ∉ s.types.fallback.toList
  label : '\n' ∉ label.toList
  typeNames : ∀ m ∈ models, ∀ c ∈ m.name.toList, isWord c = true
  fieldNames : ∀ m ∈ models, ∀ f ∈ m.fields, ∀ c ∈ f.name.toList, isWord c = true

theorem ne_of_isWord {c d : Char} (hd : isWord d = false) (hc : isWord c = true) : c ≠ d := by
  rintro rfl
  rw [hd] at hc
  exact Bool.noConfusion hc

namespace IsReadable

variable {s : Style} {models : List Model} {label : String} (h : IsReadable s models label)
include h

theorem isWord_typeName {m : Model} (hm : m ∈ models) :
    ∀ c ∈ (s.typeName m.name).toList, isWord c = true := by
  intro c hc
  simp only [Style.typeName, String.toList_append, List.mem_append] at hc
  rcases hc with (hc | hc) | hc
  · exact h.typePrefix c hc
  · exact h.typeNames m hm c hc
  · exact h.typeSuffix c hc

theorem not_mem_fieldName {m : Model} (hm : m ∈ models) {f : Field} (hf : f ∈ m.fields) {d : Char}
    (hd : isMark d = true) (hword : isWord d = false) : d ∉ (s.fieldName f.name).toList := by
  intro hmem
  have hname : d ∈ f.name.toList := by
    unfold Style.fieldName at hmem
    split at hmem
    · exact hmem
    · exact Naming.mem_of_mem_camelCase hd hmem
  exact ne_of_isWord hword (h.fieldNames m hm f hf d hname) rfl

theorem not_mem_resolve (x : String) : '\n' ∉ (s.types.resolve x).toList := by
  unfold TypeTable.resolve TypeTable.get?
  cases hx : s.types.entries.lookup x with
  | none => exact h.fallback
  | some type =>
    obtain ⟨l₁, l₂, hl, -⟩ := List.lookup_eq_some_iff.mp hx
    exact h.types (x, type) (by rw [hl]; simp)

end IsReadable

/-! ## Reading the lines -/

theorem interfaceName?_of_head {line : List Char} (h : ∀ c ∈ line.head?, c ≠ 'e') :
    interfaceName? line = none := by
  refine if_neg fun hstart => ?_
  obtain ⟨rest, rfl⟩ := List.isPrefixOf_iff_prefix.mp hstart
  have hwords : interfaceWords = 'e' :: interfaceWords.tail := by decide +kernel
  rw [hwords] at h
  exact h 'e' rfl rfl

theorem addLine_of_head {line : List Char} (h : ∀ c ∈ line.head?, c ≠ 'e' ∧ c ≠ ' ')
    (below : List Property × List Interface) : addLine line below = below := by
  have hproperty : property? line = none := by
    unfold property?
    split
    · exact absurd rfl (h ' ' rfl).2
    · rfl
  rw [addLine, interfaceName?_of_head fun c hc => (h c hc).1, hproperty]

theorem foldr_bannerLines (s : Style) (label : String) (below : List Property × List Interface) :
    (s.bannerLines label).foldr addLine below = below := by
  have hcomment : ∀ line : List Char, line.head? = some '/' → ∀ below, addLine line below = below :=
    fun line hline => addLine_of_head fun c hc => by
      obtain rfl := Option.some.inj (hline.symm.trans hc)
      decide
  have hbanner := hcomment Style.banner.toList (by decide +kernel)
  have hlabel := hcomment ("// Source: " ++ label).toList (by simp [String.toList_append])
  have hblank : ∀ below, addLine [] below = below := addLine_of_head (by simp)
  unfold Style.bannerLines
  split
  · rw [List.foldr_cons, List.foldr_cons, List.foldr_cons, List.foldr_nil, hblank, hlabel, hbanner]
  · rfl

section Read

variable {s : Style} {models : List Model} {label : String} (h : IsReadable s models label)
include h

/-- The line of a field gives its property. -/
theorem property?_fieldLine {m : Model} (hm : m ∈ models) {f : Field} (hf : f ∈ m.fields) :
    property? (s.fieldLine f) = some (s.property f) := by
  have hname : ∀ c ∈ (s.fieldName f.name).toList, isOfPropertyName c = true := by
    intro c hc
    have hcolon : c ≠ ':' := by
      rintro rfl
      exact h.not_mem_fieldName hm hf (by decide) (by decide +kernel) hc
    have hmark : c ≠ '?' := by
      rintro rfl
      exact h.not_mem_fieldName hm hf (by decide) (by decide +kernel) hc
    simp [isOfPropertyName, hcolon, hmark]
  have hcolon : isOfPropertyName ':' = false := rfl
  have hmark : isOfPropertyName '?' = false := rfl
  unfold Style.fieldLine Style.property
  cases f.optional with
  | true =>
    simp [property?, List.takeWhile_append_of_pos hname, List.dropWhile_append_of_pos hname, hmark]
  | false =>
    simp [property?, List.takeWhile_append_of_pos hname, List.dropWhile_append_of_pos hname, hcolon]

theorem addLine_fieldLine {m : Model} (hm : m ∈ models) {f : Field} (hf : f ∈ m.fields)
    (below : List Property × List Interface) :
    addLine (s.fieldLine f) below = (s.property f :: below.1, below.2) := by
  have hname : interfaceName? (s.fieldLine f) = none := interfaceName?_of_head fun c hc => by
    obtain rfl := Option.some.inj hc
    decide
  rw [addLine, hname, property?_fieldLine h hm hf]

theorem addLine_openingLine {m : Model} (hm : m ∈ models) (tail : List Char)
    (below : List Property × List Interface) :
    addLine (s.openingLine m ++ tail) below = ([], ⟨s.typeName m.name, below.1⟩ :: below.2) := by
  have hname : ∀ c ∈ (s.typeName m.name).toList, (c != ' ') = true := fun c hc =>
    bne_iff_ne.mpr (ne_of_isWord (by decide +kernel) (h.isWord_typeName hm c hc))
  have hline : s.openingLine m ++ tail =
      interfaceWords ++ ((s.typeName m.name).toList ++ ' ' :: '\x7b' :: tail) := by
    simp [Style.openingLine]
  have hread : interfaceName? (s.openingLine m ++ tail) = some (s.typeName m.name) := by
    rw [interfaceName?, hline, if_pos (List.isPrefixOf_iff_prefix.mpr ⟨_, rfl⟩),
      List.drop_left, List.takeWhile_append_of_pos hname]
    simp
  rw [addLine, hread]

/-- **The lines of a model** give its interface. -/
theorem foldr_modelLines {m : Model} (hm : m ∈ models) (is : List Interface) :
    (s.modelLines m).foldr addLine ([], is) = ([], s.interface m :: is) := by
  unfold Style.modelLines
  split
  · next hempty =>
    rw [List.foldr_cons, List.foldr_nil, addLine_openingLine h hm, Style.interface,
      List.isEmpty_iff.mp hempty]
    rfl
  · have hfields : ∀ fs : List Field, (∀ f ∈ fs, f ∈ m.fields) →
        (fs.map s.fieldLine).foldr addLine ([], is) = (fs.map s.property, is) := by
      intro fs hfs
      induction fs with
      | nil => rfl
      | cons f fs ih =>
        obtain ⟨hf, hfs⟩ := List.forall_mem_cons.mp hfs
        rw [List.map_cons, List.foldr_cons, ih hfs, addLine_fieldLine h hm hf, List.map_cons]
    have hclose : addLine ['\x7d'] ([], is) = ([], is) := addLine_of_head (by simp) _
    have hopening := addLine_openingLine h hm [] (m.fields.map s.property, is)
    rw [List.append_nil] at hopening
    rw [List.cons_append, List.foldr_cons, List.foldr_append, List.foldr_cons, List.foldr_nil, hclose,
      hfields _ fun _ => id, hopening, Style.interface]

theorem foldr_intercalate_modelLines {ms : List Model} (hms : ∀ m ∈ ms, m ∈ models) :
    ([[]].intercalate (ms.map s.modelLines)).foldr addLine ([], []) = ([], ms.map s.interface) := by
  induction ms with
  | nil => rfl
  | cons m ms ih =>
    obtain ⟨hm, hms⟩ := List.forall_mem_cons.mp hms
    cases ms with
    | nil => simpa using foldr_modelLines h hm []
    | cons m' ms =>
      have hblank : ∀ below, addLine [] below = below := addLine_of_head (by simp)
      rw [List.map_cons, List.map_cons, List.intercalate_cons_cons, ← List.map_cons,
        List.foldr_append, ih hms, List.foldr_append, List.foldr_cons, List.foldr_nil, hblank,
        foldr_modelLines h hm]
      rfl

end Read

/-! ## The whole text -/

theorem forall_mem_intercalate {P : List Char → Prop} {sep : List (List Char)}
    (hsep : ∀ l ∈ sep, P l) {lss : List (List (List Char))} (h : ∀ ls ∈ lss, ∀ l ∈ ls, P l) :
    ∀ l ∈ sep.intercalate lss, P l := by
  induction lss with
  | nil => exact fun l hl => nomatch hl
  | cons ls lss ih =>
    obtain ⟨hls, hlss⟩ := List.forall_mem_cons.mp h
    cases lss with
    | nil => simpa using hls
    | cons ls' lss =>
      rw [List.intercalate_cons_cons]
      exact List.forall_mem_append.mpr ⟨List.forall_mem_append.mpr ⟨hls, hsep⟩, ih hlss⟩

/-- **Every line of a file** is a line. -/
theorem IsReadable.not_mem_fileLines {s : Style} {models : List Model} {label : String}
    (h : IsReadable s models label) : ∀ l ∈ s.fileLines models label, '\n' ∉ l := by
  have hopening : ∀ m ∈ models, '\n' ∉ s.openingLine m := by
    intro m hm hmem
    have hwords : '\n' ∉ interfaceWords := by decide +kernel
    simp only [Style.openingLine, List.mem_append] at hmem
    rcases hmem with (hmem | hmem) | hmem
    · exact hwords hmem
    · exact ne_of_isWord (by decide +kernel) (h.isWord_typeName hm _ hmem) rfl
    · exact absurd hmem (by decide)
  have hfield : ∀ m ∈ models, ∀ f ∈ m.fields, '\n' ∉ s.fieldLine f := by
    intro m hm f hf hmem
    have hname := h.not_mem_fieldName hm hf (d := '\n') (by decide) (by decide +kernel)
    have htype := h.not_mem_resolve f.fieldType
    cases ho : f.optional <;> simp [Style.fieldLine, ho, hname, htype] at hmem
  have hmodel : ∀ m ∈ models, ∀ l ∈ s.modelLines m, '\n' ∉ l := by
    intro m hm l hl
    unfold Style.modelLines at hl
    split at hl
    · obtain rfl := List.mem_singleton.mp hl
      simp [hopening m hm]
    · simp only [List.cons_append, List.mem_cons, List.mem_append, List.mem_map, List.not_mem_nil,
        or_false] at hl
      rcases hl with rfl | ⟨f, hf, rfl⟩ | rfl
      · exact hopening m hm
      · exact hfield m hm f hf
      · decide
  refine List.forall_mem_append.mpr ⟨fun l hl => ?_, ?_⟩
  · unfold Style.bannerLines at hl
    split at hl
    · simp only [List.mem_cons, List.not_mem_nil, or_false] at hl
      rcases hl with rfl | rfl | rfl
      · decide +kernel
      · simp [h.label]
      · exact List.not_mem_nil
    · exact nomatch hl
  · refine forall_mem_intercalate (by simp) fun ls hls => ?_
    obtain ⟨m, hm, rfl⟩ := List.mem_map.mp hls
    exact hmodel m hm

/-- **The text of a file read back** gives its interfaces in order, each with its name and its
properties. Texts that say something else differ. -/
theorem readInterfaces_fileText {s : Style} {models : List Model} {label : String}
    (h : IsReadable s models label) :
    readInterfaces (s.fileText models label) = models.map s.interface ∧
      ∀ {s' : Style} {models' : List Model} {label' : String}, IsReadable s' models' label' →
        s'.fileText models' label' = s.fileText models label →
          models'.map s'.interface = models.map s.interface := by
  have hread : ∀ {s : Style} {models : List Model} {label : String}, IsReadable s models label →
      readInterfaces (s.fileText models label) = models.map s.interface := by
    intro s models label h
    have hend : addLine [] ([], []) = ([], []) := addLine_of_head (by simp) _
    rw [readInterfaces, s.toList_fileText, splitAt_joinLines h.not_mem_fileLines, Style.fileLines,
      List.foldr_append, List.foldr_append, List.foldr_cons, List.foldr_nil, hend,
      foldr_intercalate_modelLines h fun _ => id, foldr_bannerLines]
  refine ⟨hread h, fun h' htext => ?_⟩
  rw [← hread h', htext, hread h]

/-- A model without fields, a field that is declared twice, a type with every mark of a line. -/
theorem readInterfaces_fileText_nested :
    let s : Style := ⟨⟨"I", "", .camel⟩, ⟨[("JSONField", "\x7b a?: b; \x7d")], "any"⟩, true⟩
    let models : List Model := [⟨"Empty", [], .ofText "m.py", 1⟩,
      ⟨"Full", [⟨"is_on", "JSONField", true, 3⟩, ⟨"is_on", "Money", false, 4⟩], .ofText "m.py", 2⟩]
    IsReadable s models "m.py" ∧
      readInterfaces (s.fileText models "m.py") = [⟨"IEmpty", []⟩,
        ⟨"IFull", [⟨"isOn", true, "\x7b a?: b; \x7d"⟩, ⟨"isOn", false, "any"⟩]⟩] ∧
      ∀ {s' : Style} {models' : List Model} {label' : String}, IsReadable s' models' label' →
        s'.fileText models' label' = s.fileText models "m.py" →
          models'.map s'.interface = models.map s.interface := by
  intro s models
  have h : IsReadable s models "m.py" :=
    ⟨List.all_eq_true.mp (by decide +kernel), List.all_eq_true.mp rfl, by decide +kernel,
      by decide +kernel, by decide +kernel, by simp [models, isWord, inRanges],
      by simp [models, isWord, inRanges]⟩
  have hinterfaces : models.map s.interface = [⟨"IEmpty", []⟩,
      ⟨"IFull", [⟨"isOn", true, "\x7b a?: b; \x7d"⟩, ⟨"isOn", false, "any"⟩]⟩] := by decide +kernel
  obtain ⟨hread, hdiffer⟩ := readInterfaces_fileText h
  exact ⟨h, hread.trans hinterfaces, hdiffer⟩

end ModelTypings.TypeScript
