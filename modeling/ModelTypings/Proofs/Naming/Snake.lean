import ModelTypings.Proofs.Naming.Letters

/-!
# Names in snake case

A name in snake case is a row of words with an underscore between two of them; a word is a row of
small letters of ASCII, and digits. Camel case makes each underscore and the letter behind it one
capital, from which both are found again.

* `singles`, `clusters_of_isPlain`: in printable ASCII each character is a cluster;
* `SnakeWord`, `snakeText`, `camelText`: words, and a name in either case;
* `wordsAfter_row`: letters, or digits, up to an underscore are one word;
* `words_snakeText`: the words that camel case sees in a name in snake case;
* **`camelCase_of_snakeText`**: such a name in camel case;
* **`uncamel_camelText`**, **`IsSnake.camelCase_inj`**: the name is found again;
* `IsLetters`, **`camelCase_intercalate`**: words of letters, joined by underscores.
-/

namespace ModelTypings.Text

/-! ## ASCII -/

/-- Each character as a cluster of its own. -/
def singles (s : List Char) : List (List Char) := s.map fun c => [c]

theorem singles_flatten (s : List Char) : (singles s).flatten = s := by
  rw [singles, ← List.flatMap_def, List.flatMap_singleton']

/-- A character of ASCII that is not a control character. -/
def IsPlain (c : Char) : Prop := 0x20 ≤ c.toNat ∧ c.toNat < 0x7F

theorem IsPlain.lt {c : Char} (h : IsPlain c) : c.toNat < 0x80 := Nat.lt_succ_of_lt h.2

theorem breakClass_of_isPlain {c : Char} (h : IsPlain c) : breakClass c = .other := by
  obtain ⟨hlarge, hsmall⟩ := h
  have hne : ∀ {d : Char}, d.toNat < 0x20 → c ≠ d := by
    rintro d hd rfl
    omega
  rw [breakClass, if_neg (hne (by decide)), if_neg (hne (by decide)), if_neg (by omega),
    if_pos (by omega)]

theorem clustersAfter_of_isPlain {b : Char} {s : List Char} (hb : IsPlain b)
    (hs : ∀ c ∈ s, IsPlain c) : clustersAfter [b] s = singles (b :: s) := by
  induction s generalizing b with
  | nil => rfl
  | cons c s ih =>
    obtain ⟨hc, hs⟩ := List.forall_mem_cons.mp hs
    have hjoins : joins [b] c = false :=
      joins_of_lt [] (breakClass_of_isPlain hb) hc.lt
    rw [clustersAfter, hjoins, if_neg Bool.false_ne_true, ih hc hs]
    rfl

theorem clusters_of_isPlain {s : List Char} (h : ∀ c ∈ s, IsPlain c) : clusters s = singles s := by
  cases s with
  | nil => rfl
  | cons c s =>
    obtain ⟨hc, hs⟩ := List.forall_mem_cons.mp h
    exact clustersAfter_of_isPlain hc hs

theorem isPlain_of_isLower {c : Char} (h : c.isLower = true) : IsPlain c := by
  obtain ⟨hfirst, hlast⟩ := toNat_of_isLower h
  exact ⟨by omega, by omega⟩

theorem isPlain_of_isDigit {c : Char} (h : c.isDigit = true) : IsPlain c := by
  obtain ⟨hfirst, hlast⟩ := toNat_of_isDigit h
  exact ⟨by omega, by omega⟩

theorem upper_singleton {c : Char} (h : IsPlain c) : upper [c] = [c.toUpper] := by
  rw [upper, List.flatMap_singleton, upperChar, if_pos h.lt]

theorem lowerAfter_of_isPlain (before : List Char) {s : List Char} (h : ∀ c ∈ s, IsPlain c) :
    lowerAfter before s = s.map Char.toLower := by
  induction s generalizing before with
  | nil => rfl
  | cons c s ih =>
    obtain ⟨hc, hs⟩ := List.forall_mem_cons.mp h
    have hsigma : c ≠ 'Σ' := by
      rintro rfl
      exact absurd hc.2 (by decide)
    rw [lowerAfter, if_neg hsigma, lowerChar, if_pos hc.lt, ih _ hs]
    rfl

theorem lower_of_forall {s : List Char} (h : ∀ c ∈ s, IsPlain c) (hsmall : ∀ c ∈ s, c.toLower = c) :
    lower s = s :=
  calc lower s = s.map Char.toLower := lowerAfter_of_isPlain [] h
    _ = s.map id := List.map_congr_left hsmall
    _ = s := List.map_id s

theorem toLower_of_not {c : Char} (h : ¬ (65 ≤ c.toNat ∧ c.toNat ≤ 90)) : c.toLower = c :=
  dif_neg h

theorem toUpper_of_not {c : Char} (h : ¬ (97 ≤ c.toNat ∧ c.toNat ≤ 122)) : c.toUpper = c :=
  dif_neg h

theorem isUpper_of_not {c : Char} (h : ¬ (65 ≤ c.toNat ∧ c.toNat ≤ 90)) : c.isUpper = false := by
  by_contra hc
  exact h (toNat_of_isUpper (Bool.not_eq_false _ ▸ hc))

theorem case_of_isLower {c : Char} (h : c.isLower = true) :
    c.toLower = c ∧ c.isUpper = false ∧ c.toUpper.isUpper = true ∧ c.toUpper.toLower = c := by
  have hrange : ¬ (65 ≤ c.toNat ∧ c.toNat ≤ 90) := by
    have := toNat_of_isLower h
    omega
  exact ⟨toLower_of_not hrange, isUpper_of_not hrange, forall_ascii
    (P := fun c => c.isLower = true → c.toUpper.isUpper = true ∧ c.toUpper.toLower = c)
    (by decide +kernel) (isPlain_of_isLower h).lt h⟩

theorem case_of_isDigit {c : Char} (h : c.isDigit = true) :
    c.toLower = c ∧ c.toUpper = c ∧ c.isUpper = false := by
  have hrange := toNat_of_isDigit h
  exact ⟨toLower_of_not (by omega), toUpper_of_not (by omega), isUpper_of_not (by omega)⟩

end ModelTypings.Text

namespace ModelTypings.Naming

open Text

/-! ## Kinds of clusters -/

theorem upper_lower_singleton {c : Char} (h : IsPlain c) :
    upper [c] = [c.toUpper] ∧ lower [c] = [c.toLower] :=
  ⟨upper_singleton h, lowerAfter_of_isPlain [] fun _ hd => (List.mem_singleton.mp hd).symm ▸ h⟩

theorem isSeparator_of_isAlphanum {c : Char} (h : c.isAlphanum = true) :
    Cluster.isSeparator [c] = false := by
  by_contra hc
  simp only [Cluster.isSeparator, Bool.not_eq_false, Bool.or_eq_true, beq_iff_eq, List.cons.injEq,
    and_true] at hc
  rcases hc with (rfl | rfl) | rfl
  · exact absurd h (by decide)
  · exact absurd h (by decide)
  · exact absurd h (by decide)

theorem kinds_of_isLower {c : Char} (h : c.isLower = true) :
    Cluster.isUpper [c] = false ∧ Cluster.isLower [c] = true ∧ Cluster.isDigit [c] = false ∧
      Cluster.isSeparator [c] = false := by
  obtain ⟨hlower, hupper, hcapital, -⟩ := case_of_isLower h
  have hcases := upper_lower_singleton (isPlain_of_isLower h)
  have hne : c.toUpper ≠ c := fun heq => by
    rw [heq, hupper] at hcapital
    exact Bool.noConfusion hcapital
  have hdigit : c.isDigit = false := by
    by_contra hc
    have hdigit := toNat_of_isDigit (Bool.not_eq_false _ ▸ hc)
    have hletter := toNat_of_isLower h
    omega
  refine ⟨?_, ?_, ?_, isSeparator_of_isAlphanum
    (Bool.or_eq_true_iff.mpr (Or.inl (Bool.or_eq_true_iff.mpr (Or.inr h))))⟩
  · simp [Cluster.isUpper, hcases, hlower, Ne.symm hne]
  · simp [Cluster.isLower, hcases, hlower, hne]
  · simp [Cluster.isDigit, hdigit]

theorem kinds_of_isDigit {c : Char} (h : c.isDigit = true) :
    Cluster.isUpper [c] = false ∧ Cluster.isLower [c] = false ∧ Cluster.isDigit [c] = true ∧
      Cluster.isSeparator [c] = false := by
  obtain ⟨hlower, hupper, -⟩ := case_of_isDigit h
  have hcases := upper_lower_singleton (isPlain_of_isDigit h)
  refine ⟨?_, ?_, ?_, isSeparator_of_isAlphanum (Bool.or_eq_true_iff.mpr (Or.inr h))⟩
  · simp [Cluster.isUpper, hcases, hlower, hupper]
  · simp [Cluster.isLower, hcases, hlower, hupper]
  · simp [Cluster.isDigit, h]

theorem kinds_underscore : Cluster.isUpper ['_'] = false ∧ Cluster.isLower ['_'] = false ∧
    Cluster.isDigit ['_'] = false := by decide

/-! ## Rows of one kind -/

/-- Within a row of characters of one kind, up to an underscore, no word ends. -/
def IsKind (p : Char → Bool) : Prop :=
  ∀ c s, p c = true → (∀ d ∈ List.head? s, p d = true ∨ d = '_') →
    Cluster.isSeparator [c] = false ∧ endsWord [c] (singles s) = false

theorem isKind_isLower : IsKind Char.isLower := by
  intro c s hc hnext
  obtain ⟨hupper, -, hdigit, hsep⟩ := kinds_of_isLower hc
  refine ⟨hsep, ?_⟩
  cases s with
  | nil => rfl
  | cons d s =>
    have hd : Cluster.isUpper [d] = false ∧ Cluster.isDigit [d] = false := by
      rcases hnext d rfl with hd | rfl
      · exact ⟨(kinds_of_isLower hd).1, (kinds_of_isLower hd).2.2.1⟩
      · exact ⟨kinds_underscore.1, kinds_underscore.2.2⟩
    simp [singles, endsWord, hupper, hdigit, hd]

theorem isKind_isDigit : IsKind Char.isDigit := by
  intro c s hc hnext
  obtain ⟨hupper, hlower, -, hsep⟩ := kinds_of_isDigit hc
  refine ⟨hsep, ?_⟩
  cases s with
  | nil => rfl
  | cons d s =>
    have hd : Cluster.isUpper [d] = false ∧ Cluster.isLower [d] = false := by
      rcases hnext d rfl with hd | rfl
      · exact ⟨(kinds_of_isDigit hd).1, (kinds_of_isDigit hd).2.1⟩
      · exact ⟨kinds_underscore.1, kinds_underscore.2.1⟩
    simp [singles, endsWord, hupper, hlower, hd]

theorem wordsAfter_cons (opened : List Cluster) {c : Char} {s : List Char}
    (h : Cluster.isSeparator [c] = false ∧ endsWord [c] (singles s) = false) :
    wordsAfter opened (singles (c :: s)) = wordsAfter ([c] :: opened) (singles s) := by
  rw [singles, List.map_cons, wordsAfter, h.1, if_neg Bool.false_ne_true, ← singles, h.2,
    if_neg Bool.false_ne_true]

/-- The words behind the underscore that a text starts with. -/
def wordsBehind : List Char → List (List Cluster)
  | [] => []
  | _ :: s => words (singles s)

/-- **A row of one kind** up to an underscore ends the open word. -/
theorem wordsAfter_row {p : Char → Bool} (hp : IsKind p) (opened : List Cluster) {s rest : List Char}
    (hs : ∀ c ∈ s, p c = true) (hrest : ∀ d ∈ rest.head?, d = '_') :
    wordsAfter opened (singles (s ++ rest)) =
      (opened.reverse ++ singles s) :: wordsBehind rest := by
  induction s generalizing opened with
  | nil =>
    cases rest with
    | nil => simp [singles, wordsAfter, wordsBehind]
    | cons d rest =>
      obtain rfl := hrest d rfl
      simp [singles, wordsAfter, wordsBehind, words, Cluster.isSeparator]
  | cons c s ih =>
    obtain ⟨hc, hs⟩ := List.forall_mem_cons.mp hs
    have hnext : ∀ d ∈ (s ++ rest).head?, p d = true ∨ d = '_' := by
      intro d hd
      cases s with
      | nil => exact Or.inr (hrest d hd)
      | cons e s => exact Or.inl (hs d (List.mem_of_mem_head? hd))
    rw [List.cons_append, wordsAfter_cons opened (hp c _ hc hnext), ih _ hs, List.reverse_cons,
      List.append_assoc]
    rfl

/-- **A row of small letters** ends before a digit. -/
theorem wordsAfter_letters (opened : List Cluster) {c d : Char} {s rest : List Char}
    (hs : ∀ e ∈ c :: s, e.isLower = true) (hd : d.isDigit = true) :
    wordsAfter opened (singles (c :: s ++ d :: rest)) =
      (opened.reverse ++ singles (c :: s)) :: wordsAfter [] (singles (d :: rest)) := by
  induction s generalizing opened c with
  | nil =>
    obtain ⟨-, hlower, -, hsep⟩ := kinds_of_isLower (hs c List.mem_cons_self)
    have hdigit := (kinds_of_isDigit hd).2.2.1
    have hends : endsWord [c] ([d] :: singles rest) = true := by simp [endsWord, hlower, hdigit]
    simp only [List.cons_append, List.nil_append, singles, List.map_cons, List.map_nil] at hends ⊢
    rw [wordsAfter, hsep, if_neg Bool.false_ne_true, hends, if_pos rfl, List.reverse_cons]
  | cons e s ih =>
    obtain ⟨hc, hs⟩ := List.forall_mem_cons.mp hs
    have hnext : ∀ x ∈ (e :: s ++ d :: rest).head?, x.isLower = true ∨ x = '_' := by
      intro x hx
      obtain rfl := Option.some.inj hx
      exact Or.inl (hs e List.mem_cons_self)
    rw [List.cons_append, wordsAfter_cons opened (isKind_isLower c _ hc hnext), ih _ hs,
      List.reverse_cons, List.append_assoc]
    rfl

/-! ## Snake case -/

/-- A word of snake case: small letters, and digits behind them. -/
structure SnakeWord where
  first : Char
  small : List Char
  digits : List Char
  isLower : ∀ c ∈ first :: small, c.isLower = true
  isDigit : ∀ c ∈ digits, c.isDigit = true

namespace SnakeWord

variable (w : SnakeWord)

/-- A word as it stands in snake case. -/
def text : List Char := w.first :: w.small ++ w.digits

/-- A word with a capital. -/
def capital : List Char := w.first.toUpper :: (w.small ++ w.digits)

/-- What camel case takes for words in a word of snake case. -/
def words : List (List Cluster) :=
  singles (w.first :: w.small) :: if w.digits = [] then [] else [singles w.digits]

end SnakeWord

/-- A name in snake case, of one or more words. -/
def snakeText (w : SnakeWord) (ws : List SnakeWord) : List Char :=
  w.text ++ ws.flatMap fun v => '_' :: v.text

/-- A name in camel case, of one or more words. -/
def camelText (w : SnakeWord) (ws : List SnakeWord) : List Char :=
  w.text ++ ws.flatMap SnakeWord.capital

/-- A name is in snake case. -/
def IsSnake (name : String) : Prop := ∃ w ws, name.toList = snakeText w ws

theorem SnakeWord.isPlain_of_mem {w : SnakeWord} : ∀ c ∈ w.text, IsPlain c :=
  List.forall_mem_append.mpr ⟨fun c hc => isPlain_of_isLower (w.isLower c hc),
    fun c hc => isPlain_of_isDigit (w.isDigit c hc)⟩

theorem isPlain_of_mem_snakeText {w : SnakeWord} {ws : List SnakeWord} :
    ∀ c ∈ snakeText w ws, IsPlain c := by
  refine List.forall_mem_append.mpr ⟨w.isPlain_of_mem, fun c hc => ?_⟩
  obtain ⟨v, -, hc⟩ := List.mem_flatMap.mp hc
  rcases List.mem_cons.mp hc with rfl | hc
  · exact ⟨by decide, by decide⟩
  · exact v.isPlain_of_mem c hc

/-! ## The words of a name in snake case -/

theorem SnakeWord.words_text (w : SnakeWord) {rest : List Char} (hrest : ∀ d ∈ rest.head?, d = '_') :
    Naming.words (singles (w.text ++ rest)) = w.words ++ wordsBehind rest := by
  rw [Naming.words, SnakeWord.text, SnakeWord.words, List.append_assoc]
  -- the digits of a word are a word of their own to camel case
  cases hdigits : w.digits with
  | nil =>
    rw [List.nil_append, wordsAfter_row isKind_isLower [] w.isLower hrest]
    rfl
  | cons d ds =>
    have hd : ∀ e ∈ d :: ds, e.isDigit = true := hdigits ▸ w.isDigit
    rw [List.cons_append (a := d), wordsAfter_letters [] w.isLower (hd d List.mem_cons_self),
      ← List.cons_append, wordsAfter_row isKind_isDigit [] hd hrest]
    rfl

theorem head?_flatMap_underscore {ws : List SnakeWord} :
    ∀ d ∈ (ws.flatMap fun v => '_' :: v.text).head?, d = '_' := by
  intro d hd
  cases ws with
  | nil => exact nomatch hd
  | cons v ws => exact (Option.some.inj hd).symm

theorem wordsBehind_flatMap (ws : List SnakeWord) :
    wordsBehind (ws.flatMap fun v => '_' :: v.text) = ws.flatMap SnakeWord.words := by
  induction ws with
  | nil => rfl
  | cons v ws ih =>
    rw [List.flatMap_cons, List.cons_append, wordsBehind,
      v.words_text head?_flatMap_underscore, ih, List.flatMap_cons]

/-- The words that camel case sees in a name in snake case. -/
theorem words_snakeText (w : SnakeWord) (ws : List SnakeWord) :
    words (singles (snakeText w ws)) = w.words ++ ws.flatMap SnakeWord.words := by
  rw [snakeText, w.words_text head?_flatMap_underscore, wordsBehind_flatMap]

/-! ## Camel case -/

namespace SnakeWord

variable (w : SnakeWord)

theorem lower_letters {s : List Char} (h : ∀ c ∈ s, c.isLower = true) : lower s = s :=
  lower_of_forall (fun c hc => isPlain_of_isLower (h c hc)) fun c hc => (case_of_isLower (h c hc)).1

theorem capitalize_digits {d : Char} {s : List Char} (h : ∀ c ∈ d :: s, c.isDigit = true) :
    capitalize (singles (d :: s)) = d :: s := by
  obtain ⟨hd, hs⟩ := List.forall_mem_cons.mp h
  have hlower : lower s = s :=
    lower_of_forall (fun c hc => isPlain_of_isDigit (hs c hc)) fun c hc =>
      (case_of_isDigit (hs c hc)).1
  rw [singles, List.map_cons, capitalize, ← singles, singles_flatten, hlower,
    upper_singleton (isPlain_of_isDigit hd), (case_of_isDigit hd).2.1]
  rfl

theorem flatMap_capitalize_digits :
    (if w.digits = [] then [] else [singles w.digits]).flatMap capitalize = w.digits := by
  have hdigits := w.isDigit
  cases h : w.digits with
  | nil => rfl
  | cons d ds =>
    rw [h] at hdigits
    rw [if_neg (List.cons_ne_nil d ds), List.flatMap_singleton, capitalize_digits hdigits]

theorem flatMap_capitalize_words : w.words.flatMap capitalize = w.capital := by
  obtain ⟨hfirst, hsmall⟩ := List.forall_mem_cons.mp w.isLower
  rw [words, List.flatMap_cons, flatMap_capitalize_digits, capital, singles, List.map_cons,
    capitalize, ← singles, singles_flatten, lower_letters hsmall,
    upper_singleton (isPlain_of_isLower hfirst)]
  rfl

end SnakeWord

/-- **A name in snake case in camel case**: the first word, and every later one with a capital. -/
theorem camelCase_of_snakeText {name : String} {w : SnakeWord} {ws : List SnakeWord}
    (h : name.toList = snakeText w ws) : (camelCase name).toList = camelText w ws := by
  have hwords : words (clusters name.toList) = singles (w.first :: w.small) ::
      ((if w.digits = [] then [] else [singles w.digits]) ++ ws.flatMap SnakeWord.words) := by
    rw [h, clusters_of_isPlain isPlain_of_mem_snakeText, words_snakeText]
    rfl
  have hlater : (ws.flatMap SnakeWord.words).flatMap capitalize = ws.flatMap SnakeWord.capital := by
    rw [List.flatMap_assoc]
    exact congrArg ws.flatMap (funext SnakeWord.flatMap_capitalize_words)
  rw [camelCase, hwords]
  simp only
  rw [String.toList_ofList, singles_flatten, SnakeWord.lower_letters w.isLower,
    List.flatMap_append, hlater, w.flatMap_capitalize_digits, ← List.append_assoc]
  rfl

example : camelCase "is_published_by_editor" = "isPublishedByEditor" := by decide +kernel

/-- Every capital as an underscore and the small letter. -/
def uncamel (s : List Char) : List Char :=
  s.flatMap fun c => if c.isUpper then ['_', c.toLower] else [c]

theorem uncamel_of_forall {s : List Char} (h : ∀ c ∈ s, c.isUpper = false) : uncamel s = s := by
  induction s with
  | nil => rfl
  | cons c s ih =>
    obtain ⟨hc, hs⟩ := List.forall_mem_cons.mp h
    rw [uncamel, List.flatMap_cons, hc, if_neg Bool.false_ne_true, ← uncamel, ih hs]
    rfl

namespace SnakeWord

variable (w : SnakeWord)

theorem isUpper_of_mem : ∀ c ∈ w.text, c.isUpper = false :=
  List.forall_mem_append.mpr ⟨fun c hc => (case_of_isLower (w.isLower c hc)).2.1,
    fun c hc => (case_of_isDigit (w.isDigit c hc)).2.2⟩

theorem uncamel_text : uncamel w.text = w.text := uncamel_of_forall w.isUpper_of_mem

theorem uncamel_capital : uncamel w.capital = '_' :: w.text := by
  obtain ⟨-, -, hupper, hback⟩ := case_of_isLower (w.isLower w.first List.mem_cons_self)
  have hrest : uncamel (w.small ++ w.digits) = w.small ++ w.digits :=
    uncamel_of_forall (List.forall_mem_cons.mp w.isUpper_of_mem).2
  rw [capital, uncamel, List.flatMap_cons, hupper, if_pos rfl, hback, ← uncamel, hrest]
  rfl

end SnakeWord

/-- **The underscores of a name are found again.** -/
theorem uncamel_camelText (w : SnakeWord) (ws : List SnakeWord) :
    uncamel (camelText w ws) = snakeText w ws := by
  rw [camelText, uncamel, List.flatMap_append, ← uncamel, ← uncamel, w.uncamel_text, snakeText]
  congr 1
  rw [uncamel, List.flatMap_assoc]
  exact congrArg ws.flatMap (funext SnakeWord.uncamel_capital)

/-- **Names in snake case** that differ are different in camel case. -/
theorem IsSnake.camelCase_inj {a b : String} (ha : IsSnake a) (hb : IsSnake b)
    (h : camelCase a = camelCase b) : a = b := by
  obtain ⟨v, vs, ha⟩ := ha
  obtain ⟨w, ws, hb⟩ := hb
  apply String.toList_inj.mp
  calc a.toList = uncamel (camelText v vs) := by rw [ha, uncamel_camelText]
    _ = uncamel (camelText w ws) := by
      rw [← camelCase_of_snakeText ha, ← camelCase_of_snakeText hb, h]
    _ = b.toList := by rw [hb, uncamel_camelText]

/-! ## Words of letters -/

/-- A word of small letters of ASCII. -/
structure IsLetters (v : String) : Prop where
  ne_empty : v ≠ ""
  isLower : ∀ c ∈ v.toList, c.isLower = true

/-- A word with its first letter as a capital. -/
def capitalized (v : String) : String := String.ofList (v.toList.modifyHead Char.toUpper)

theorem IsLetters.exists_word {v : String} (h : IsLetters v) :
    ∃ w : SnakeWord, w.text = v.toList ∧ w.capital = (capitalized v).toList := by
  obtain ⟨c, cs, hv⟩ := List.exists_cons_of_ne_nil (String.toList_eq_nil_iff.not.mpr h.ne_empty)
  have hlower : ∀ d ∈ c :: cs, d.isLower = true := hv ▸ h.isLower
  refine ⟨⟨c, cs, [], hlower, fun d hd => nomatch hd⟩, ?_, ?_⟩
  · rw [hv, SnakeWord.text, List.append_nil]
  · rw [capitalized, hv, String.toList_ofList, List.modifyHead_cons, SnakeWord.capital,
      List.append_nil]

theorem exists_words {vs : List String} (h : ∀ v ∈ vs, IsLetters v) :
    ∃ ws : List SnakeWord,
      (vs.flatMap fun v => '_' :: v.toList) = (ws.flatMap fun w => '_' :: w.text) ∧
        (String.join (vs.map capitalized)).toList = ws.flatMap SnakeWord.capital := by
  induction vs with
  | nil => exact ⟨[], rfl, by simp⟩
  | cons v vs ih =>
    obtain ⟨hv, hvs⟩ := List.forall_mem_cons.mp h
    obtain ⟨w, htext, hcapital⟩ := hv.exists_word
    obtain ⟨ws, htexts, hcapitals⟩ := ih hvs
    refine ⟨w :: ws, ?_, ?_⟩
    · rw [List.flatMap_cons, List.flatMap_cons, htexts, htext]
    · rw [List.map_cons, String.join_cons, String.toList_append, hcapitals, ← hcapital,
        List.flatMap_cons]

theorem toList_intercalate_underscore (v : String) (vs : List String) :
    ("_".intercalate (v :: vs)).toList = v.toList ++ vs.flatMap fun u => '_' :: u.toList := by
  induction vs generalizing v with
  | nil => simp
  | cons u vs ih =>
    rw [String.intercalate_cons_cons, String.toList_append, String.toList_append, ih,
      List.flatMap_cons]
    simp

/-- **A conventional name in camel case** is its first word and the later ones with a capital, and
every capital as an underscore and the small letter gives the name again. -/
theorem camelCase_intercalate {v : String} {vs : List String} (h : ∀ u ∈ v :: vs, IsLetters u) :
    camelCase ("_".intercalate (v :: vs)) = v ++ String.join (vs.map capitalized) ∧
      String.ofList (uncamel (camelCase ("_".intercalate (v :: vs))).toList) =
        "_".intercalate (v :: vs) := by
  obtain ⟨hv, hvs⟩ := List.forall_mem_cons.mp h
  obtain ⟨w, htext, -⟩ := hv.exists_word
  obtain ⟨ws, htexts, hcapitals⟩ := exists_words hvs
  have hname : ("_".intercalate (v :: vs)).toList = snakeText w ws := by
    rw [toList_intercalate_underscore, snakeText, htext, htexts]
  have hcamel := camelCase_of_snakeText hname
  refine ⟨String.toList_inj.mp ?_, String.toList_inj.mp ?_⟩
  · rw [hcamel, camelText, String.toList_append, hcapitals, htext]
  · rw [String.toList_ofList, hcamel, uncamel_camelText, hname]

/-- Words of one letter, which in a row of capitals would be one acronym. -/
theorem camelCase_intercalate_single :
    let vs := ["b", "c", "is", "d"]
    (∀ u ∈ "a" :: vs, IsLetters u) ∧ camelCase ("_".intercalate ("a" :: vs)) = "aBCIsD" ∧
      String.ofList (uncamel (camelCase ("_".intercalate ("a" :: vs))).toList) =
        "_".intercalate ("a" :: vs) := by
  intro vs
  have h : ∀ u ∈ "a" :: vs, IsLetters u := by
    have hall : ∀ u ∈ "a" :: vs, u ≠ "" ∧ u.toList.all Char.isLower = true := by decide
    exact fun u hu => ⟨(hall u hu).1, List.all_eq_true.mp (hall u hu).2⟩
  obtain ⟨hcamel, hback⟩ := camelCase_intercalate h
  exact ⟨h, hcamel.trans (by decide), hback⟩

end ModelTypings.Naming
