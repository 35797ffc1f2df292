import Mathlib.Data.List.Basic
import ModelTypings.Proofs.Toml.Quoted
import ModelTypings.Toml.Document

/-!
# TOML documents read back

A document that is written is read back statement by statement.

* `readKey_printKey`, `readKeys_printKeys`: keys;
* `Item.value`, `readValue_printItem`: values, with arrays on one line or on several;
* `Section.statements`, `readStatements_printSections`: the statements of a document;
* **`readDocument_printDocument`**: a document is read as the table of its statements;
* `LeadsTo`, `foldlM_add_flat`, `foldlM_add_nested`: that table grows section by section.
-/

namespace ModelTypings.Toml

open Text

/-! ## Blanks and line breaks -/

/-- `c` is no blank, no part of a line break and starts no comment. -/
def isSolid (c : Char) : Bool := c != ' ' && c != '\t' && c != '#' && !isLineBreak c

theorem skipBlanks_of_isSolid {c : Char} {cs : List Char} (h : isSolid c = true) :
    skipBlanks (c :: cs) = c :: cs := by
  refine List.dropWhile_cons_of_neg ?_
  simp only [isSolid, Bool.and_eq_true, bne_iff_ne] at h
  simp [h.1.1.1, h.1.1.2]

theorem skipLines_of_isSolid {c : Char} {cs : List Char} (h : isSolid c = true) :
    skipLines false (c :: cs) = some (c :: cs) := by
  simp only [isSolid, isLineBreak, Bool.and_eq_true, bne_iff_ne, Bool.not_eq_true',
    Bool.or_eq_false_iff, beq_eq_false_iff_ne] at h
  obtain ⟨⟨⟨hs, ht⟩, hc⟩, hn, hr⟩ := h
  rw [skipLines]
  · simp [hs, ht, hc, hn]
  · exact fun _ e => absurd e hr

theorem skipLines_newline (cs : List Char) : skipLines false ('\n' :: cs) = skipLines false cs := by
  rw [skipLines]
  · rfl
  · exact fun _ e => absurd e (by decide)

theorem skipLines_space (cs : List Char) : skipLines false (' ' :: cs) = skipLines false cs := by
  rw [skipLines]
  · rfl
  · exact fun _ e => absurd e (by decide)

/-! ## Keys -/

/-- No key goes on like this. -/
def NoKeyChar (rest : List Char) : Prop := ∀ c ∈ rest.head?, isKeyChar c = false

theorem printKey_eq_cons (s : List Char) : ∃ c cs, printKey s = c :: cs ∧
    (isKeyChar c = true ∨ c = '"' ∨ c = '\x27') := by
  unfold printKey
  split
  · next h =>
    obtain ⟨hs, hk⟩ := (Bool.and_eq_true ..).mp h
    obtain ⟨c, cs, rfl⟩ := List.exists_cons_of_ne_nil (l := s) (by simpa using hs)
    exact ⟨c, cs, rfl, Or.inl (List.all_eq_true.mp hk c List.mem_cons_self)⟩
  split
  · exact ⟨_, _, rfl, Or.inr (Or.inr rfl)⟩
  · exact ⟨_, _, rfl, Or.inr (Or.inl rfl)⟩

theorem ne_of_isKeyChar {c d : Char} (hd : isKeyChar d = false) (hc : isKeyChar c = true) :
    c ≠ d := by
  rintro rfl
  rw [hd] at hc
  exact Bool.noConfusion hc

theorem printKey_head_ne {s cs : List Char} {c d : Char} (h : printKey s = c :: cs)
    (hd : isKeyChar d = false) (hq : d ≠ '"') (hl : d ≠ '\x27') : c ≠ d := by
  obtain ⟨c', cs', e, hc⟩ := printKey_eq_cons s
  obtain rfl : c = c' := (List.cons.inj (h.symm.trans e)).1
  rcases hc with hc | rfl | rfl
  · exact ne_of_isKeyChar hd hc
  · exact hq.symm
  · exact hl.symm

theorem isSolid_printKey {s cs : List Char} {c : Char} (h : printKey s = c :: cs) :
    isSolid c = true := by
  have hs := printKey_head_ne h (d := ' ') (by decide) (by decide) (by decide)
  have ht := printKey_head_ne h (d := '\t') (by decide) (by decide) (by decide)
  have hc := printKey_head_ne h (d := '#') (by decide) (by decide) (by decide)
  have hn := printKey_head_ne h (d := '\n') (by decide) (by decide) (by decide)
  have hr := printKey_head_ne h (d := '\r') (by decide) (by decide) (by decide)
  simp [isSolid, isLineBreak, hs, ht, hc, hn, hr]

/-- **Every key is read back.** -/
theorem readKey_printKey {rest : List Char} (hr : NoKeyChar rest) (s : List Char) :
    readKey (printKey s ++ rest) = some (String.ofList s, rest) := by
  unfold printKey
  split
  · next h =>
    obtain ⟨hs, hk⟩ := (Bool.and_eq_true ..).mp h
    obtain ⟨c, cs, rfl⟩ := List.exists_cons_of_ne_nil (l := s) (by simpa using hs)
    have hall := List.all_eq_true.mp hk
    have hc := hall c List.mem_cons_self
    have hcs : ∀ d ∈ cs, isKeyChar d = true := fun d hd => hall d (List.mem_cons_of_mem _ hd)
    have hrest : rest.takeWhile isKeyChar = [] ∧ rest.dropWhile isKeyChar = rest := by
      cases rest with
      | nil => exact ⟨rfl, rfl⟩
      | cons d ds => exact ⟨by simp [hr d rfl], by simp [hr d rfl]⟩
    rw [List.cons_append, readKey, if_neg (ne_of_isKeyChar (by decide) hc),
      if_neg (ne_of_isKeyChar (by decide) hc), if_pos hc, List.takeWhile_append_of_pos hcs,
      List.dropWhile_append_of_pos hcs, hrest.1, hrest.2, List.append_nil]
  split
  · next h =>
    obtain ⟨ht, hq, _⟩ := plainForm_literal h
    rw [printForm, List.append_assoc, List.cons_append, List.singleton_append, readKey,
      if_neg (by decide), if_pos rfl, readLiteral_append rest ht hq]
    rfl
  · rw [printForm, List.append_assoc, List.cons_append, List.singleton_append, readKey, if_pos rfl,
      readBasic_escapeInLine]
    rfl

/-- The keys of a path, with dots between them. -/
def printKeys (path : List String) : List Char :=
  joinWith '.' (path.map fun key => printKey key.toList)

theorem printKeys_eq_cons {path : List String} (hp : path ≠ []) :
    ∃ s c cs ds, printKey s = c :: cs ∧ printKeys path = c :: ds := by
  obtain ⟨key, path, rfl⟩ := List.exists_cons_of_ne_nil hp
  obtain ⟨c, cs, e, _⟩ := printKey_eq_cons key.toList
  cases path with
  | nil => exact ⟨_, c, cs, cs, e, e⟩
  | cons key' path =>
    refine ⟨_, c, cs, cs ++ '.' :: printKeys (key' :: path), e, ?_⟩
    rw [printKeys, List.map_cons, List.map_cons, joinWith, e]
    rfl

/-- **A dotted key is read back.** -/
theorem readKeys_printKeys {rest : List Char} (hr : NoKeyChar rest)
    (hd : (skipBlanks rest).head? ≠ some '.') : ∀ {path : List String}, path ≠ [] →
      readKeys (printKeys path ++ rest) = some (path, skipBlanks rest)
  | [key], _ => by
    rw [printKeys, List.map_cons, List.map_nil, joinWith, readKeys, readKey_printKey hr,
      String.ofList_toList]
    dsimp only
    split
    · next e => exact absurd (by rw [e]; rfl) hd
    · rfl
  | key :: key' :: path, _ => by
    have hp : key' :: path ≠ [] := List.cons_ne_nil _ _
    have ih := readKeys_printKeys hr hd hp
    obtain ⟨_, c, cs, ds, e, e'⟩ := printKeys_eq_cons hp
    have hs : skipBlanks (printKeys (key' :: path) ++ rest) = printKeys (key' :: path) ++ rest := by
      rw [e', List.cons_append, skipBlanks_of_isSolid (isSolid_printKey e)]
    have hj : printKeys (key :: key' :: path) ++ rest =
        printKey key.toList ++ '.' :: (printKeys (key' :: path) ++ rest) := by
      simp [printKeys, joinWith]
    rw [hj, readKeys, readKey_printKey (fun c hc => by cases hc; decide), String.ofList_toList]
    dsimp only
    rw [skipBlanks_of_isSolid (c := '.') (by decide)]
    simp only [hs]
    rw [if_pos (by simp only [List.length_append, List.length_cons]; omega), ih]
    rfl

/-! ## Values -/

/-- The value of an item. -/
def Item.value : Item → Value
  | .text s => .string s
  | .flag b => .boolean b
  | .texts ss => .array (ss.map .string)

theorem printString_eq_cons (s : List Char) :
    ∃ c cs, printString s = c :: cs ∧ (c = '"' ∨ c = '\x27') := by
  unfold printString
  cases formOf s with
  | basic => exact ⟨_, _, rfl, Or.inl rfl⟩
  | literal => exact ⟨_, _, rfl, Or.inr rfl⟩
  | longBasic => exact ⟨_, _, rfl, Or.inl rfl⟩
  | longLiteral => exact ⟨_, _, rfl, Or.inr rfl⟩

theorem skipLines_printString (s rest : List Char) :
    skipLines false (printString s ++ rest) = some (printString s ++ rest) := by
  obtain ⟨c, cs, e, hc⟩ := printString_eq_cons s
  rw [e, List.cons_append]
  refine skipLines_of_isSolid ?_
  rcases hc with rfl | rfl <;> rfl

theorem readValue_quote {c : Char} {cs : List Char} (hc : c = '"' ∨ c = '\x27') (depth : Nat) :
    readValue depth (c :: cs) =
      (readString (c :: cs)).map fun (s, rest) => (.string (String.ofList s), rest) := by
  rw [readValue.eq_def]
  exact if_pos hc

theorem readValue_printString {rest : List Char} (hr : NoQuote rest) (depth : Nat) (s : String) :
    readValue depth (printString s.toList ++ rest) = some (.string s, rest) := by
  have h := readString_printString hr s.toList
  obtain ⟨c, cs, e, hc⟩ := printString_eq_cons s.toList
  rw [e, List.cons_append] at h ⊢
  rw [readValue_quote hc, h]
  simp only [Option.map_some, String.ofList_toList]

theorem noQuote_cons {c : Char} {cs : List Char} (hd : c ≠ '"') (hs : c ≠ '\x27') :
    NoQuote (c :: cs) :=
  ⟨fun e => hd (Option.some.inj e), fun e => hs (Option.some.inj e)⟩

theorem readItems_close (read : List Char → Option (Value × List Char)) (rest : List Char) :
    readItems read (']' :: rest) = some ([], rest) := by
  rw [readItems, skipLines_of_isSolid (by decide)]
  rfl

section Items

variable {read : List Char → Option (Value × List Char)} {s start rest : List Char} {v : Value}

theorem readItems_comma (hs : skipLines false s = some start) (hc : start.head? ≠ some ']')
    (hv : read start = some (v, ',' :: rest)) (hl : rest.length < s.length) :
    readItems read s = (readItems read rest).map fun (vs, rest) => (v :: vs, rest) := by
  rw [readItems, hs]
  split
  · next e => cases e
  · next e => exact absurd (by rw [Option.some.inj e]; rfl) hc
  · next start' _ e =>
    obtain rfl : start = start' := Option.some.inj e
    rw [hv]
    dsimp only
    rw [skipLines_of_isSolid (by decide)]
    exact if_pos hl

theorem readItems_last (hs : skipLines false s = some start) (hc : start.head? ≠ some ']')
    (hv : read start = some (v, ']' :: rest)) : readItems read s = some ([v], rest) := by
  rw [readItems, hs]
  split
  · next e => cases e
  · next e => exact absurd (by rw [Option.some.inj e]; rfl) hc
  · next start' _ e =>
    obtain rfl : start = start' := Option.some.inj e
    rw [hv]
    dsimp only
    rw [skipLines_of_isSolid (by decide)]
    rfl

end Items

theorem printString_head_ne (s rest : List Char) : (printString s ++ rest).head? ≠ some ']' := by
  obtain ⟨c, cs, e, hc⟩ := printString_eq_cons s
  rw [e]
  rcases hc with rfl | rfl <;> simp

/-- The items of an array, each on a line of its own, with a comma after it. -/
def printLines (ss : List String) : List Char :=
  ss.flatMap fun s => "    ".toList ++ printString s.toList ++ [',', '\n']

theorem readItems_printLines (depth : Nat) (rest : List Char) : ∀ ss : List String,
    readItems (readValue depth) ('\n' :: (printLines ss ++ ']' :: rest)) = some (ss.map .string, rest)
  | [] => by
    rw [printLines, List.flatMap_nil, List.nil_append, readItems, skipLines_newline,
      skipLines_of_isSolid (by decide)]
    rfl
  | s :: ss => by
    have hs : ('\n' :: (printLines (s :: ss) ++ ']' :: rest)) =
        '\n' :: ' ' :: ' ' :: ' ' :: ' ' ::
          (printString s.toList ++ ',' :: '\n' :: (printLines ss ++ ']' :: rest)) := by
      simp [printLines]
    have hq : NoQuote (',' :: '\n' :: (printLines ss ++ ']' :: rest)) :=
      noQuote_cons (by decide) (by decide)
    have hv := readValue_printString hq depth s
    rw [hs, readItems_comma _ (printString_head_ne s.toList _) hv, readItems_printLines depth rest ss]
    · rfl
    · simp only [List.length_cons, List.length_append]
      omega
    · rw [skipLines_newline, skipLines_space, skipLines_space, skipLines_space, skipLines_space,
        skipLines_printString]

theorem readValue_bracket (depth : Nat) (cs : List Char) :
    readValue (depth + 1) ('[' :: cs) =
      (readItems (readValue depth) cs).map fun (vs, rest) => (.array vs, rest) := rfl

/-- **Every value is read back.** -/
theorem readValue_printItem (depth : Nat) (rest : List Char) : ∀ v : Item,
    readValue (depth + 1) (printItem v ++ '\n' :: rest) = some (v.value, '\n' :: rest)
  | .text s => readValue_printString (noQuote_cons (by decide) (by decide)) _ s
  | .flag true => rfl
  | .flag false => rfl
  | .texts [] => by
    change readValue (depth + 1) ('[' :: ']' :: '\n' :: rest) = _
    rw [readValue_bracket, readItems_close]
    rfl
  | .texts [s] => by
    have e : printItem (.texts [s]) ++ '\n' :: rest =
        '[' :: (printString s.toList ++ ']' :: '\n' :: rest) := by
      simp [printItem]
    have hq : NoQuote (']' :: '\n' :: rest) := noQuote_cons (by decide) (by decide)
    have hv := readValue_printString hq depth s
    rw [e, readValue_bracket, readItems_last (skipLines_printString s.toList _)
      (printString_head_ne s.toList _) hv]
    rfl
  | .texts (s :: s' :: ss) => by
    have e : printItem (.texts (s :: s' :: ss)) ++ '\n' :: rest =
        '[' :: '\n' :: (printLines (s :: s' :: ss) ++ ']' :: '\n' :: rest) := by
      simp [printItem, printLines]
    rw [e, readValue_bracket, readItems_printLines]
    rfl

/-! ## Statements -/

/-- The statements of a section: its header and an assignment for each of its items. -/
def Section.statements (s : Section) : List Statement :=
  .header s.path :: s.items.map fun (key, v) => .assignment [key] v.value

theorem printItem_eq_cons (v : Item) : ∃ c cs, printItem v = c :: cs ∧ isSolid c = true := by
  match v with
  | .text s =>
    obtain ⟨c, cs, e, hc⟩ := printString_eq_cons s.toList
    exact ⟨c, cs, e, by rcases hc with rfl | rfl <;> rfl⟩
  | .flag true | .flag false => exact ⟨_, _, rfl, by decide⟩
  | .texts [] | .texts [_] | .texts (_ :: _ :: _) => exact ⟨_, _, rfl, by decide⟩

theorem skipBlanks_space (cs : List Char) : skipBlanks (' ' :: cs) = skipBlanks cs :=
  List.dropWhile_cons_of_pos rfl

theorem skipBlanks_newline (cs : List Char) : skipBlanks ('\n' :: cs) = '\n' :: cs :=
  List.dropWhile_cons_of_neg (by decide)

theorem readStatement_of_assignment {s rest : List Char} {keys : List String} {v : Value}
    (hs : s.head? ≠ some '[')
    (ha : readAssignment (readValue nestingLimit) s = some ((keys, v), '\n' :: rest)) :
    readStatement s = some (.assignment keys v, '\n' :: rest) := by
  unfold readStatement
  dsimp only
  split
  · next e =>
    split at e
    · exact absurd rfl hs
    · exact absurd rfl hs
    · rw [ha] at e
      exact nomatch e
  · next e =>
    split at e
    · exact absurd rfl hs
    · exact absurd rfl hs
    · rw [ha] at e
      obtain ⟨rfl, rfl⟩ := Prod.mk.inj (Option.some.inj e)
      rw [skipBlanks_newline]
      rfl

theorem readStatement_of_header {s rest : List Char} {keys : List String} (hs : s.head? ≠ some '[')
    (hk : readKeys (skipBlanks s) = some (keys, ']' :: '\n' :: rest)) :
    readStatement ('[' :: s) = some (.header keys, '\n' :: rest) := by
  unfold readStatement
  dsimp only
  split
  · next e =>
    split at e
    · next e' => exact absurd (by rw [(List.cons.inj e').2]; rfl) hs
    · next e' =>
      rw [← (List.cons.inj e').2, hk] at e
      exact nomatch e
    · next h => exact absurd rfl (h s)
  · next e =>
    split at e
    · next e' => exact absurd (by rw [(List.cons.inj e').2]; rfl) hs
    · next e' =>
      rw [← (List.cons.inj e').2, hk] at e
      obtain ⟨rfl, rfl⟩ := Prod.mk.inj (Option.some.inj e)
      rw [skipBlanks_newline]
      rfl
    · next h => exact absurd rfl (h s)

theorem readStatement_printAssignment (key : String) (v : Item) (rest : List Char) :
    readStatement (printAssignment key v ++ rest) =
      some (.assignment [key] v.value, '\n' :: rest) := by
  obtain ⟨c, cs, e, hc⟩ := printItem_eq_cons v
  obtain ⟨k, ks, ek, _⟩ := printKey_eq_cons key.toList
  have hk : k ≠ '[' := printKey_head_ne ek (by decide) (by decide) (by decide)
  have hv : skipBlanks (' ' :: (printItem v ++ '\n' :: rest)) = printItem v ++ '\n' :: rest := by
    rw [skipBlanks_space, e, List.cons_append, skipBlanks_of_isSolid hc]
  have hb : skipBlanks (' ' :: '=' :: ' ' :: (printItem v ++ '\n' :: rest)) =
      '=' :: ' ' :: (printItem v ++ '\n' :: rest) := by
    rw [skipBlanks_space, skipBlanks_of_isSolid (by decide)]
  have ep : printAssignment key v ++ rest =
      printKeys [key] ++ ' ' :: '=' :: ' ' :: (printItem v ++ '\n' :: rest) := by
    simp [printAssignment, printKeys, joinWith]
  refine readStatement_of_assignment ?_ ?_
  · rw [printAssignment, ek]
    exact fun h => hk (Option.some.inj h)
  · rw [ep, readAssignment, readKeys_printKeys (fun c hc => by cases hc; decide)
      (by rw [hb]; exact fun h => nomatch h) (List.cons_ne_nil _ _), hb]
    simp only [hv]
    exact congrArg (Option.map _) (readValue_printItem 79 rest v)

theorem readStatement_printHeader {path : List String} (hp : path ≠ []) (rest : List Char) :
    readStatement (printHeader path ++ rest) = some (.header path, '\n' :: rest) := by
  obtain ⟨s, c, cs, ds, e, e'⟩ := printKeys_eq_cons hp
  have hc : c ≠ '[' := printKey_head_ne e (by decide) (by decide) (by decide)
  have hb : skipBlanks (']' :: '\n' :: rest) = ']' :: '\n' :: rest :=
    skipBlanks_of_isSolid (by decide)
  have hh : printHeader path ++ rest = '[' :: (printKeys path ++ ']' :: '\n' :: rest) := by
    simp [printHeader, printKeys]
  rw [hh]
  refine readStatement_of_header ?_ ?_
  · rw [e']
    exact fun h => hc (Option.some.inj h)
  · rw [e', List.cons_append, skipBlanks_of_isSolid (isSolid_printKey e), ← List.cons_append, ← e',
      readKeys_printKeys (fun c hc => by cases hc; decide)
        (by rw [hb]; exact fun h => nomatch h) hp, hb]

/-! ## Documents -/

theorem skipLines_replicate (n : Nat) (cs : List Char) :
    skipLines false (List.replicate n '\n' ++ cs) = skipLines false cs := by
  induction n with
  | zero => rfl
  | succ n ih => rw [List.replicate_succ, List.cons_append, skipLines_newline, ih]

theorem readStatements_replicate (n : Nat) : readStatements (List.replicate n '\n') = some [] := by
  rw [readStatements, ← List.append_nil (List.replicate n '\n'), skipLines_replicate]
  rfl

theorem readStatements_line {c : Char} {cs rest : List Char} {statement : Statement} (n : Nat)
    (hc : isSolid c = true) (h : readStatement (c :: cs) = some (statement, '\n' :: rest))
    (hl : rest.length < cs.length) :
    readStatements (List.replicate n '\n' ++ c :: cs) =
      (readStatements ('\n' :: rest)).map (statement :: ·) := by
  rw [readStatements, skipLines_replicate, skipLines_of_isSolid hc]
  dsimp only
  rw [h]
  exact if_pos (by simp only [List.length_append, List.length_cons]; omega)

theorem readStatements_items (rest : List Char) : ∀ items : List (String × Item),
    readStatements ('\n' :: ((items.flatMap fun (key, v) => printAssignment key v) ++ rest)) =
      (readStatements ('\n' :: rest)).map
        ((items.map fun (key, v) => Statement.assignment [key] v.value) ++ ·)
  | [] => by simp
  | (key, v) :: items => by
    have ih := readStatements_items rest items
    have h := readStatement_printAssignment key v
      ((items.flatMap fun (key, v) => printAssignment key v) ++ rest)
    obtain ⟨c, cs, e, _⟩ := printKey_eq_cons key.toList
    have ha : ∃ ds, printAssignment key v = c :: ds ∧ 0 < ds.length :=
      ⟨cs ++ " = ".toList ++ printItem v ++ ['\n'], by simp [printAssignment, e],
        by simp only [List.length_append, List.length_cons]; omega⟩
    obtain ⟨ds, ed, hd⟩ := ha
    rw [ed, List.cons_append] at h
    have hl := readStatements_line 1 (isSolid_printKey e) h
      (by simp only [List.length_append] at hd ⊢; omega)
    rw [List.flatMap_cons]
    dsimp only
    rw [List.append_assoc, ed, List.cons_append]
    refine hl.trans ?_
    rw [ih, Option.map_map]
    rfl

theorem readStatements_section {s : Section} (hs : s.path ≠ []) (n : Nat) (rest : List Char) :
    readStatements (List.replicate n '\n' ++ (printSection s ++ rest)) =
      (readStatements ('\n' :: rest)).map (s.statements ++ ·) := by
  have h := readStatement_printHeader hs
    ((s.items.flatMap fun (key, v) => printAssignment key v) ++ rest)
  have e : printSection s ++ rest = '[' :: (printKeys s.path ++ ']' :: '\n' ::
      ((s.items.flatMap fun (key, v) => printAssignment key v) ++ rest)) := by
    simp [printSection, printHeader, printKeys]
  have e' : printHeader s.path ++ ((s.items.flatMap fun (key, v) => printAssignment key v) ++ rest) =
      '[' :: (printKeys s.path ++ ']' :: '\n' ::
        ((s.items.flatMap fun (key, v) => printAssignment key v) ++ rest)) := by
    simp [printHeader, printKeys]
  rw [e'] at h
  rw [e, readStatements_line n (by decide) h
    (by simp only [List.length_append, List.length_cons]; omega), readStatements_items,
    Option.map_map]
  rfl

/-- **The statements of a document are read back.** -/
theorem readStatements_printSections : ∀ {sections : List Section} (n : Nat),
    (∀ s ∈ sections, s.path ≠ []) →
      readStatements (List.replicate n '\n' ++ joinWith '\n' (sections.map printSection)) =
        some (sections.flatMap Section.statements)
  | [], n, _ => by
    rw [List.map_nil, joinWith, List.append_nil, readStatements_replicate]
    rfl
  | [s], n, hp => by
    have h := readStatements_section (hp s List.mem_cons_self) n []
    rw [List.append_nil] at h
    rw [List.map_cons, List.map_nil, joinWith, h, show ['\n'] = List.replicate 1 '\n' from rfl,
      readStatements_replicate]
    rfl
  | s :: s' :: sections, n, hp => by
    have ih := @readStatements_printSections (s' :: sections) 2
      fun x hx => hp x (List.mem_cons_of_mem _ hx)
    have h := readStatements_section (hp s List.mem_cons_self) n
      ('\n' :: joinWith '\n' ((s' :: sections).map printSection))
    rw [List.map_cons, List.map_cons, joinWith, ← List.map_cons, h]
    rw [show '\n' :: '\n' :: joinWith '\n' ((s' :: sections).map printSection) =
      List.replicate 2 '\n' ++ joinWith '\n' ((s' :: sections).map printSection) from rfl, ih]
    rfl

theorem dropMark_printSections {sections : List Section} :
    dropMark (joinWith '\n' (sections.map printSection)) =
      joinWith '\n' (sections.map printSection) := by
  match sections with
  | [] => rfl
  | [_] | _ :: _ :: _ => rfl

/-- **A document that is written is read as the table of its statements.** -/
theorem readDocument_printDocument {sections : List Section} (hp : ∀ s ∈ sections, s.path ≠ []) :
    readDocument (printDocument sections) = tableOf (sections.flatMap Section.statements) := by
  have h := readStatements_printSections 0 hp
  rw [List.replicate_zero, List.nil_append] at h
  rw [readDocument, printDocument, String.toList_ofList, dropMark_printSections, h]
  rfl

/-! ## Tables -/

/-- The table of a section. -/
def Section.table (s : Section) : Entries := s.items.map fun (key, v) => (key, v.value)

theorem under_append (making : TableKind) (change : TableKind → Entries → Option Entries)
    (q : List String) : ∀ (p : List String) (kind : TableKind) (es : Entries),
      under making change (p ++ q) kind es = under making (under making change q) p kind es
  | [], _, _ => rfl
  | key :: p, kind, es => by
    rw [List.cons_append, under, under]
    simp only [under_append making change q p]

theorem replaceEntry_append_singleton {key : String} {es : Entries} (v w : Value)
    (he : es.lookup key = none) : replaceEntry key w (es ++ [(key, v)]) = es ++ [(key, w)] := by
  have h : es.map (fun e => if e.1 = key then (key, w) else e) = es.map id := by
    refine List.map_congr_left fun e hm => if_neg ?_
    have hk := List.lookup_eq_none_iff.mp he e hm
    exact fun h => absurd h.symm (by simpa using hk)
  rw [replaceEntry, List.map_append, h, List.map_id]
  simp

/-- The path leads to the table with entries `es` where the table of the document is `root es`. -/
def LeadsTo (path : List String) (root : Entries → Entries) : Prop :=
  ∀ change es, under .implied change path .headed (root es) = (change .headed es).map root

theorem leadsTo_nil : LeadsTo [] id := fun change es => by
  rw [under, id, Option.map_id, id]

section Tables

variable {path : List String} {root : Entries → Entries} {es : Entries} {key : String}

theorem LeadsTo.snoc (h : LeadsTo path root) (he : es.lookup key = none) :
    LeadsTo (path ++ [key]) fun sub => root (es ++ [(key, .table .headed sub)]) := by
  intro change sub
  have hl : (es ++ [(key, Value.table .headed sub)]).lookup key = some (.table .headed sub) := by
    rw [List.lookup_append, he]
    simp
  have hu : under .implied change [key] .headed (es ++ [(key, .table .headed sub)]) =
      (change .headed sub).map fun sub => es ++ [(key, .table .headed sub)] := by
    rw [under, hl]
    change ((change .headed sub).map fun sub => replaceEntry key (.table .headed sub) _) = _
    simp only [replaceEntry_append_singleton _ _ he]
  rw [under_append, h, hu, Option.map_map]
  rfl

theorem add_header (h : LeadsTo path root) (he : es.lookup key = none) (current : List String) :
    Building.add ⟨root es, current⟩ (.header (path ++ [key])) =
      some ⟨root (es ++ [(key, .table .headed [])]), path ++ [key]⟩ := by
  rw [Building.add, List.getLast?_concat, Option.bind_some, List.dropLast_concat, openTable, h, he]
  rfl

theorem add_assignment (h : LeadsTo path root) (he : es.lookup key = none) (v : Value) :
    Building.add ⟨root es, path⟩ (.assignment [key] v) = some ⟨root (es ++ [(key, v)]), path⟩ := by
  have ha : assignKeys [key] v es = some (es ++ [(key, v)]) := by
    simp [assignKeys, assign, under, he]
  rw [Building.add, h, ha]
  rfl

theorem foldlM_add_items (h : LeadsTo path root) : ∀ {items : List (String × Item)} {es : Entries},
    (items.map Prod.fst).Nodup → (∀ item ∈ items, es.lookup item.1 = none) →
      (items.map fun (key, v) => Statement.assignment [key] v.value).foldlM Building.add
          ⟨root es, path⟩ =
        some ⟨root (es ++ items.map fun (key, v) => (key, v.value)), path⟩
  | [], es, _, _ => by simp
  | (key, v) :: items, es, hn, he => by
    obtain ⟨hk, hn⟩ := List.nodup_cons.mp hn
    have hi : ∀ item ∈ items, (es ++ [(key, v.value)]).lookup item.1 = none := by
      intro item hm
      have hne : item.1 ≠ key := fun e => hk (List.mem_map.mpr ⟨item, hm, e⟩)
      rw [List.lookup_append, he item (List.mem_cons_of_mem _ hm), List.lookup_cons,
        beq_false_of_ne hne]
      rfl
    rw [List.map_cons, List.foldlM_cons]
    dsimp only
    rw [add_assignment h (he _ List.mem_cons_self)]
    refine (foldlM_add_items h hn hi).trans ?_
    rw [List.append_assoc, List.map_cons]
    rfl

/-- **A section adds its table at the end of the one above it.** -/
theorem foldlM_add_section (h : LeadsTo path root) (he : es.lookup key = none)
    {items : List (String × Item)} (hn : (items.map Prod.fst).Nodup) (current : List String) :
    (Section.statements ⟨path ++ [key], items⟩).foldlM Building.add ⟨root es, current⟩ =
      some ⟨root (es ++ [(key, .table .headed (Section.table ⟨path ++ [key], items⟩))]),
        path ++ [key]⟩ := by
  rw [Section.statements, List.foldlM_cons, add_header h he]
  exact foldlM_add_items (h.snoc he) hn fun _ _ => rfl

theorem foldlM_sections_cons {s : Section} {sections : List Section} {b b' : Building}
    (h : s.statements.foldlM Building.add b = some b') :
    ((s :: sections).flatMap Section.statements).foldlM Building.add b =
      (sections.flatMap Section.statements).foldlM Building.add b' := by
  rw [List.flatMap_cons, List.foldlM_append, h]
  rfl

theorem foldlM_add_flat (he : es.lookup key = none) {items : List (String × Item)}
    (hn : (items.map Prod.fst).Nodup) (current : List String) :
    (Section.statements ⟨[key], items⟩).foldlM Building.add ⟨es, current⟩ =
      some ⟨es ++ [(key, .table .headed (Section.table ⟨[key], items⟩))], [key]⟩ :=
  foldlM_add_section leadsTo_nil he hn current

/-- A section under two keys, the first of which is the last one there is. -/
theorem foldlM_add_nested {sub : Entries} {key' : String} (he : es.lookup key = none)
    (hs : sub.lookup key' = none) {items : List (String × Item)}
    (hn : (items.map Prod.fst).Nodup) (current : List String) :
    (Section.statements ⟨[key, key'], items⟩).foldlM Building.add
        ⟨es ++ [(key, .table .headed sub)], current⟩ =
      some ⟨es ++ [(key, .table .headed
        (sub ++ [(key', .table .headed (Section.table ⟨[key, key'], items⟩))]))], [key, key']⟩ :=
  foldlM_add_section (leadsTo_nil.snoc he) hs hn current

end Tables

end ModelTypings.Toml
