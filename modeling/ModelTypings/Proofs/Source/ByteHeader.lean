import ModelTypings.Proofs.Source.ByteScan
import ModelTypings.Proofs.Source.FieldLine

/-!
# Headers read with guarded places and counters

A header is cut at places: its comments, the end of its name, the bracket that closes its arguments,
the subscripts of its bases. Each cut and each counter of brackets is guarded here as in the scanners
of a line.

* `HeaderText.add?`, **`HeaderText.add?_eq`**: one more line of a header;
* `matchingParen?`, `argumentsAt?`, `basesOf?`: the arguments of a class and its bases;
* `ClassHeader.read?`, **`ClassHeader.read?_eq`**: a header that is not too long is read as it is.
-/

namespace ModelTypings.Source

open Text
open String (utf8Len)

theorem natAbs_headerNesting_le (c : Char) : (headerNesting c).natAbs ≤ 1 := by
  unfold headerNesting
  split
  · decide
  · split <;> decide

/-! ## Joining the lines of a header -/

/-- The depth at the end of a text of a header. -/
def headerDepth? (d : Int) (s : List Char) : Option Int :=
  s.foldlM (fun d c => counter? (d + headerNesting c)) d

/-- One more line, without its comment, joined by a blank. -/
def HeaderText.add? (h : HeaderText) (line : List Char) : Option HeaderText := do
  let code ← cutBefore? '#' line
  let depth ← headerDepth? h.depth code
  some { text := (if h.text.isEmpty then [] else h.text ++ [' ']) ++ trim code, depth }

theorem natAbs_headerDepth_le (d : Int) (s : List Char) :
    (headerDepth d s).natAbs ≤ d.natAbs + utf8Len s := by
  induction s generalizing d with
  | nil => exact Nat.le_refl _
  | cons c s ih =>
    have hrest := ih (d + headerNesting c)
    have hsmall := natAbs_headerNesting_le c
    have hpos := Char.utf8Size_pos c
    rw [headerDepth_cons, String.utf8Len_cons]
    omega

theorem headerDepth?_eq {d : Int} {s : List Char} (h : d.natAbs + utf8Len s < 2147483648) :
    headerDepth? d s = some (headerDepth d s) := by
  induction s generalizing d with
  | nil => rfl
  | cons c s ih =>
    rw [String.utf8Len_cons] at h
    have hsmall := natAbs_headerNesting_le c
    have hpos := Char.utf8Size_pos c
    have hrest := ih (d := d + headerNesting c) (by omega)
    have hcounter : counter? (d + headerNesting c) = some (d + headerNesting c) :=
      counter?_eq (by omega)
    rw [headerDepth?, List.foldlM_cons, hcounter]
    exact hrest

theorem utf8Len_withoutComment_le (line : List Char) :
    utf8Len (withoutComment line) ≤ utf8Len line :=
  String.utf8Len_le_of_prefix (List.takeWhile_prefix _)

/-- **One more line of a header**, if neither it nor the depth before is too large. -/
theorem HeaderText.add?_eq {h : HeaderText} {line : List Char}
    (hd : h.depth.natAbs + utf8Len line < 2147483648) : h.add? line = some (h.add line) := by
  have hcode := utf8Len_withoutComment_le line
  have hdepth : headerDepth? h.depth (withoutComment line) =
      some (headerDepth h.depth (withoutComment line)) := headerDepth?_eq (by omega)
  rw [HeaderText.add?, cutBefore?_eq, Option.bind_eq_bind, Option.bind_some]
  exact congrArg (Option.bind · _) hdepth

/-! ## The arguments of a class -/

/-- The place of the bracket that closes one of those open. The text begins at a place. -/
def matchingParen? (depth : Int) (place : Nat) : List Char → Option (Option Nat)
  | [] => some none
  | c :: s =>
    if c = '(' then do matchingParen? (← counter? (depth + 1)) (place + c.utf8Size) s
    else if c = ')' then do
      let depth ← counter? (depth - 1)
      if depth = 0 then some (some place) else matchingParen? depth (place + c.utf8Size) s
    else matchingParen? depth (place + c.utf8Size) s

/-- The arguments in brackets after the class name, if there are any, and the text after them. -/
def argumentsAt? : List Char → Option (Option (List Char × List Char))
  | '(' :: inner => do
    match ← matchingParen? 1 0 inner with
    | some close =>
      let arguments ← sliceTo? inner close
      let after ← sliceFrom? inner (close + 1)
      some (some (arguments, after))
    | none => some none
  | rest => some (some ([], rest))

theorem matchingParen?_eq (opened place : Nat) (s : List Char)
    (h : opened + 1 + utf8Len s < 2147483648) : matchingParen? (opened + 1) place s =
      some ((cutAtClosing opened s).map fun parts => place + utf8Len parts.1) := by
  induction s generalizing opened place with
  | nil => rfl
  | cons c s ih =>
    have hpos := Char.utf8Size_pos c
    rw [String.utf8Len_cons] at h
    -- the place behind the character is that of the rest
    have hplace : ∀ cut : Option (List Char × List Char),
        cut.map (fun parts => place + c.utf8Size + utf8Len parts.1) =
          (cut.map fun parts => (c :: parts.1, parts.2)).map fun parts =>
            place + utf8Len parts.1 := by
      intro cut
      cases cut with
      | none => rfl
      | some parts => exact congrArg some (by simp only [String.utf8Len_cons]; omega)
    rw [matchingParen?]
    by_cases hopen : c = '('
    · subst hopen
      have hcounter : counter? ((opened : Int) + 1 + 1) = some (((opened + 1 : Nat) : Int) + 1) :=
        counter?_eq (by omega)
      rw [if_pos rfl, hcounter, cutAtClosing_cons (by simp), if_pos rfl, ← hplace,
        ← ih (opened + 1) (place + '('.utf8Size) (by omega)]
      rfl
    rw [if_neg hopen]
    by_cases hclose : c = ')'
    · subst hclose
      have hcounter : counter? ((opened : Int) + 1 - 1) = some (opened : Int) := by
        rw [Int.add_sub_cancel]
        exact counter?_eq (by omega)
      rw [if_pos rfl, hcounter, Option.bind_eq_bind, Option.bind_some]
      cases opened with
      | zero => rfl
      | succ opened =>
        rw [if_neg (by omega), Int.natCast_succ, ih opened _ (by omega),
          cutAtClosing_cons (by simp), if_neg hopen, if_pos rfl, hplace]
        rfl
    · rw [if_neg hclose, ih opened _ (by omega), cutAtClosing_cons fun e => hclose e.1,
        if_neg hopen, if_neg hclose, hplace]

/-- **The arguments of a class** are cut out between characters. -/
theorem argumentsAt?_eq {rest : List Char} (h : utf8Len rest < 2147483648) :
    argumentsAt? rest = some (argumentsOf rest) := by
  fun_cases argumentsOf rest with
  | case1 inner =>
    have hlen : utf8Len ('(' :: inner) = utf8Len inner + 1 := rfl
    have hparen := matchingParen?_eq 0 0 inner (by omega)
    rw [Int.ofNat_zero, Int.zero_add] at hparen
    rw [argumentsAt?, hparen]
    cases hcut : cutAtClosing 0 inner with
    | none => rfl
    | some parts =>
      obtain ⟨arguments, after⟩ := parts
      have happ := eq_append_of_cutAtClosing hcut
      have harguments : sliceTo? inner (utf8Len arguments) = some arguments := by
        rw [happ, sliceTo?_append]
      have hafter : sliceFrom? inner (utf8Len arguments + 1) = some after := by
        have hsize : utf8Len (arguments ++ [')']) = utf8Len arguments + 1 :=
          String.utf8Len_append _ _
        have hsplit : arguments ++ ')' :: after = (arguments ++ [')']) ++ after := by simp
        rw [happ, hsplit, ← hsize, sliceFrom?_append]
      simp only [Option.map_some, Nat.zero_add, Option.bind_eq_bind, Option.bind_some, harguments,
        hafter]
  | case2 =>
    rw [argumentsAt?]
    assumption

theorem utf8Len_arguments_le {rest arguments after : List Char}
    (h : argumentsOf rest = some (arguments, after)) : utf8Len arguments ≤ utf8Len rest := by
  unfold argumentsOf at h
  split at h
  · rw [eq_append_of_cutAtClosing h]
    exact String.utf8Len_le_of_infix ⟨['('], ')' :: after, rfl⟩
  · obtain ⟨rfl, -⟩ := Prod.mk.inj (Option.some.inj h)
    exact Nat.zero_le _

/-! ## The bases of a class -/

/-- An argument list cut at its outer commas. -/
def splitArguments? (depth : Int) : List Char → Option (List (List Char))
  | [] => some [[]]
  | c :: s =>
    if c = ',' ∧ depth = 0 then (splitArguments? depth s).map ([] :: ·)
    else do
      let depth ← counter? (depth + headerNesting c)
      (splitArguments? depth s).map (consFirst c)

/-- The base that an argument names. -/
def baseOfArgument? (argument : List Char) : Option (Option String) :=
  let base := argument.filter fun c => !isBlank c
  if base.isEmpty || base.contains '=' then some none
  else (cutBefore? '[' base).map fun base => some (String.ofList base)

/-- The bases that are named in an argument list. -/
def basesOf? (arguments : List Char) : Option (List String) := do
  let bases ← (← splitArguments? 0 arguments).mapM baseOfArgument?
  some (bases.filterMap id)

theorem splitArguments?_eq {d : Int} {s : List Char} (h : d.natAbs + utf8Len s < 2147483648) :
    splitArguments? d s = some (splitArguments d s) := by
  induction s generalizing d with
  | nil => rfl
  | cons c s ih =>
    rw [String.utf8Len_cons] at h
    have hsmall := natAbs_headerNesting_le c
    have hpos := Char.utf8Size_pos c
    rw [splitArguments?, splitArguments]
    split
    · rw [ih (by omega)]
      rfl
    · have hcounter : counter? (d + headerNesting c) = some (d + headerNesting c) :=
        counter?_eq (by omega)
      rw [hcounter, Option.bind_eq_bind, Option.bind_some, ih (by omega)]
      rfl

theorem baseOfArgument?_eq (argument : List Char) :
    baseOfArgument? argument = some (baseOfArgument argument) := by
  simp only [baseOfArgument?, baseOfArgument]
  split
  · rfl
  · rw [cutBefore?_eq]
    rfl

theorem basesOf?_eq {arguments : List Char} (h : utf8Len arguments < 2147483648) :
    basesOf? arguments = some ((splitArguments 0 arguments).filterMap baseOfArgument) := by
  have hsplit : splitArguments? 0 arguments = some (splitArguments 0 arguments) :=
    splitArguments?_eq (by simpa using h)
  have hbases : (splitArguments 0 arguments).mapM baseOfArgument? =
      some ((splitArguments 0 arguments).map baseOfArgument) := by
    rw [funext baseOfArgument?_eq]
    exact List.mapM_pure
  rw [basesOf?, hsplit, Option.bind_eq_bind, Option.bind_some, hbases, Option.bind_eq_bind,
    Option.bind_some, List.filterMap_map]
  rfl

/-! ## Reading a header -/

/-- The name in a header, and the beginning of the header up to the blanks behind the name. -/
def nameMatch (text : List Char) : Option (List Char × List Char) := do
  let afterKeyword ← afterClass text
  let afterBlanks ← if afterKeyword.head?.any isBlank then some (trimStart afterKeyword) else none
  let (name, afterName) ← takeName afterBlanks
  some (name, classWord ++ (afterKeyword.takeWhile isBlank ++ (name ++ afterName.takeWhile isBlank)))

/-- Reads a joined header. -/
def ClassHeader.read? (text : List Char) : Option (Option ClassHeader) :=
  match nameMatch text with
  | none => some none
  | some (name, matched) => do
    let rest ← sliceFrom? text (utf8Len matched)
    match ← argumentsAt? rest with
    | none => some none
    | some (arguments, after) =>
      match trimStart after with
      | ':' :: inline =>
        let bases ← basesOf? arguments
        some (some { name := String.ofList name, bases, inlineBody := trim inline })
      | _ => some none

/-- What is read behind the name. -/
def ClassHeader.ofRest? (name rest : List Char) : Option ClassHeader := do
  let (arguments, after) ← argumentsOf rest
  match trimStart after with
  | ':' :: inline =>
    some {
      name := String.ofList name
      bases := (splitArguments 0 arguments).filterMap baseOfArgument
      inlineBody := trim inline }
  | _ => none

theorem ClassHeader.ofText?_cases (text : List Char) :
    (nameMatch text = none ∧ ClassHeader.ofText? text = none) ∨
      ∃ name matched rest, nameMatch text = some (name, matched) ∧ text = matched ++ rest ∧
        ClassHeader.ofText? text = ClassHeader.ofRest? name rest := by
  unfold nameMatch ClassHeader.ofText?
  cases hclass : afterClass text with
  | none => exact Or.inl ⟨rfl, rfl⟩
  | some after =>
    by_cases hblank : after.head?.any isBlank = true
    · simp only [Option.bind_eq_bind, Option.bind_some, if_pos hblank]
      cases hname : takeName (trimStart after) with
      | none => exact Or.inl ⟨rfl, rfl⟩
      | some parts =>
        obtain ⟨name, rest⟩ := parts
        refine Or.inr ⟨name, _, trimStart rest, rfl, ?_, rfl⟩
        have hafter : after.takeWhile isBlank ++ trimStart after = after :=
          List.takeWhile_append_dropWhile
        have hrest : rest.takeWhile isBlank ++ trimStart rest = rest :=
          List.takeWhile_append_dropWhile
        rw [(takeName_eq_some_iff.mp hname).1] at hafter
        rw [List.append_assoc, List.append_assoc, List.append_assoc, hrest, hafter]
        exact eq_append_of_afterClass hclass
    · simp only [Option.bind_eq_bind, Option.bind_some, if_neg hblank]
      exact Or.inl ⟨rfl, rfl⟩

/-- **A header is read** without a place that is none or a counter that is too large. -/
theorem ClassHeader.read?_eq {text : List Char} (h : utf8Len text < 2147483648) :
    ClassHeader.read? text = some (ClassHeader.ofText? text) := by
  rw [ClassHeader.read?]
  rcases ClassHeader.ofText?_cases text with
    ⟨hnone, hread⟩ | ⟨name, matched, rest, hname, htext, hread⟩
  · rw [hnone, hread]
  · have hplace : sliceFrom? text (utf8Len matched) = some rest := by rw [htext, sliceFrom?_append]
    have hlen := congrArg utf8Len htext
    rw [String.utf8Len_append] at hlen
    have harguments : argumentsAt? rest = some (argumentsOf rest) := argumentsAt?_eq (by omega)
    simp only [hname, hread, hplace, harguments, Option.bind_eq_bind, Option.bind_some, ofRest?]
    cases hcut : argumentsOf rest with
    | none => rfl
    | some parts =>
      obtain ⟨arguments, after⟩ := parts
      have hshort := utf8Len_arguments_le hcut
      simp only [Option.bind_some]
      split
      · rw [basesOf?_eq (by omega)]
        rfl
      · rfl

end ModelTypings.Source
