import DocQuery.Proofs.ProjectionMeaning
import DocQuery.Proofs.Replacement

/-!
# DocQuery.Proofs.ProjectionText

The text of a projection, read back as the fields that it names.

The text is parted wherever a comma with a blank behind it stands, and in each part the tokens are
replaced by the names that they stand for. Neither a token nor an index holds a comma, so the parts
are the paths that were named; and since every token is replaced as a whole, names that are spelled
alike or that hold the characters of tokens come back as they were.

## Main results

`Placeholders.unnamed?_path`: a path whose tokens are replaced is the path that it stands for.
`partAtCommas_intercalate`: texts without commas are found again.
`projection_gives_fields_back`: a projection names the fields that were listed and no others.
-/

namespace DocQuery

/-! ### Reading -/

/-- The characters that a piece is written with. A value is not written into a field list. -/
def Piece.chars? : Piece → Option (List Char)
  | .char c => some [c]
  | .name text => some text.toList
  | .value _ => none

/-- A text with each name token replaced by the name that it stands for. -/
def Placeholders.unnamed? (p : Placeholders) (text : List Char) : Option (List Char) :=
  ((p.replaceChars? text).bind fun pieces => pieces.mapM Piece.chars?).map List.flatten

/-- A text parted wherever a comma with a blank behind it stands. -/
def partAtCommas : List Char → List (List Char)
  | [] => [[]]
  | ',' :: ' ' :: rest => [] :: partAtCommas rest
  | c :: rest => (partAtCommas rest).modifyHead (c :: ·)

/-- The fields that a projection names. The empty text names none. -/
def Placeholders.fieldsNamed? (p : Placeholders) (text : String) : Option (List String) :=
  if text = "" then some []
  else (partAtCommas text.toList).mapM fun part => (p.unnamed? part).map String.ofList

/-! ### Parts -/

section Parts

variable {text : List Char}

theorem partAtCommas_cons {c : Char} (noComma : c ≠ ',') (rest : List Char) :
    partAtCommas (c :: rest) = (partAtCommas rest).modifyHead (c :: ·) := by
  rw [partAtCommas]
  intro _ comma
  exact absurd comma noComma

theorem partAtCommas_append (noComma : ',' ∉ text) (rest : List Char) :
    partAtCommas (text ++ ',' :: ' ' :: rest) = text :: partAtCommas rest := by
  induction text with
  | nil => rw [List.nil_append, partAtCommas]
  | cons c text ih =>
    rw [List.mem_cons, not_or] at noComma
    rw [List.cons_append, partAtCommas_cons (Ne.symm noComma.1), ih noComma.2,
      List.modifyHead_cons]

theorem partAtCommas_of_not_mem (noComma : ',' ∉ text) : partAtCommas text = [text] := by
  induction text with
  | nil => rw [partAtCommas]
  | cons c text ih =>
    rw [List.mem_cons, not_or] at noComma
    rw [partAtCommas_cons (Ne.symm noComma.1), ih noComma.2, List.modifyHead_cons]

/-- Texts without commas are found again in what they are joined to. -/
theorem partAtCommas_intercalate : ∀ {texts : List (List Char)}, texts ≠ [] →
    (∀ text ∈ texts, ',' ∉ text) → partAtCommas ([',', ' '].intercalate texts) = texts
  | [], nonempty, _ => absurd rfl nonempty
  | [text], _, noCommas => by
    rw [List.intercalate_singleton]
    exact partAtCommas_of_not_mem (noCommas text List.mem_cons_self)
  | text :: next :: others, _, noCommas => by
    obtain ⟨first, rest⟩ := List.forall_mem_cons.mp noCommas
    have shape : [',', ' '].intercalate (text :: next :: others) =
        text ++ ',' :: ' ' :: [',', ' '].intercalate (next :: others) := by
      simp [List.intercalate_cons_cons]
    rw [shape, partAtCommas_append first,
      partAtCommas_intercalate (List.cons_ne_nil next others) rest]

end Parts

/-! ### Names in place of tokens -/

namespace Placeholders

variable {p : Placeholders} {xs ys chars others : List Char}

/-- What stands on both sides of a character that no token holds is replaced side by side. -/
theorem unnamed?_append (apart : ∀ c ∈ ys.head?, isTokenChar c = false)
    (first : p.unnamed? xs = some chars) (second : p.unnamed? ys = some others) :
    p.unnamed? (xs ++ ys) = some (chars ++ others) := by
  simp only [unnamed?, Option.map_eq_some_iff, Option.bind_eq_some_iff] at first second
  obtain ⟨_, ⟨pieces, replaced, written⟩, rfl⟩ := first
  obtain ⟨_, ⟨more, moreReplaced, moreWritten⟩, rfl⟩ := second
  simp [unnamed?, replaceChars?_append apart, replaced, moreReplaced, written, moreWritten]

/-- A start that holds no token is kept, also where what follows goes on with the same run. -/
theorem unnamed?_plain_append (plain : (xs.all fun c => c ≠ '#' && c ≠ ':') = true)
    (second : p.unnamed? ys = some others) : p.unnamed? (xs ++ ys) = some (xs ++ others) := by
  simp only [unnamed?, Option.map_eq_some_iff, Option.bind_eq_some_iff] at second
  obtain ⟨_, ⟨pieces, replaced, written⟩, rfl⟩ := second
  have kept : (xs.map Piece.char).mapM Piece.chars? = some (xs.map ([·])) := by
    rw [List.mapM_map]
    exact mapM_eq_some_map fun _ _ => rfl
  have own : (xs.map ([·])).flatten = xs := by rw [← List.flatMap_def, List.flatMap_singleton']
  simp [unnamed?, replaceChars?_plain_append plain, replaced, written, kept, own]

theorem unnamed?_nameToken {token : Token} {name : String} (made : IsNameToken token)
    (found : p.names.get? token = some name) : p.unnamed? token.toList = some name.toList := by
  simp [unnamed?, replaceChars?_nameToken made found, Piece.chars?]

theorem unnamed?_step {step : DocQuery.Step} {name : String} (made : IsNameToken step.name)
    (indices : isIndices step.index.toList = true)
    (found : p.names.get? step.name = some name) :
    p.unnamed? step.text.toList = some ({ step with name } : DocQuery.Step).text.toList := by
  -- The bracket of an index ends the token, and no other token starts behind it.
  have apart : ∀ c ∈ step.index.toList.head?, isTokenChar c = false := by
    rcases isIndices_head indices with empty | ⟨rest, shape⟩
    · simp [empty]
    · simp [shape, isTokenChar]
  have plain : (step.index.toList.all fun c => c ≠ '#' && c ≠ ':') = true := by
    rw [List.all_eq_true]
    intro c member
    have char := List.all_eq_true.mp (all_isIndexChar_of_isIndices indices) c member
    simp only [Bool.and_eq_true, decide_eq_true_eq]
    constructor <;> rintro rfl <;> simp [isIndexChar] at char
  simp only [Step.text, String.toList_append]
  have index : p.unnamed? (step.index.toList ++ []) = some (step.index.toList ++ []) :=
    unnamed?_plain_append plain rfl
  rw [List.append_nil] at index
  exact unnamed?_append apart (unnamed?_nameToken made found) index

/-- A path whose tokens are replaced is the path that it stands for. -/
theorem unnamed?_path {path target : Path} (made : ∀ step ∈ path, IsNameToken step.name)
    (indices : ∀ step ∈ path, isIndices step.index.toList = true)
    (resolved : path.resolve? p = some target) :
    p.unnamed? path.text.toList = some target.text.toList := by
  rw [Path.toList_text, Path.toList_text]
  induction path generalizing target with
  | nil =>
    cases resolved
    rfl
  | cons step rest ih =>
    obtain ⟨headMade, restMade⟩ := List.forall_mem_cons.mp made
    obtain ⟨headIndices, restIndices⟩ := List.forall_mem_cons.mp indices
    simp only [Path.resolve?, List.mapM_cons, Option.bind_eq_bind, Option.bind_eq_some_iff,
      Option.map_eq_some_iff, Option.pure_def, Option.some.injEq] at resolved ih
    obtain ⟨_, ⟨name, found, rfl⟩, steps, tail, rfl⟩ := resolved
    have head := unnamed?_step headMade headIndices found
    have others := ih restMade restIndices tail
    cases rest with
    | nil =>
      cases tail
      simpa using head
    | cons next rest =>
      -- The point between two steps ends the token before it and begins no token itself.
      obtain ⟨second, steps, rfl⟩ : ∃ second more, steps = second :: more := by
        cases steps with
        | nil => simp [Option.bind_eq_some_iff] at tail
        | cons second more => exact ⟨second, more, rfl⟩
      simp only [List.map_cons, List.intercalate_cons_cons] at others ⊢
      rw [List.append_assoc, List.append_assoc]
      exact unnamed?_append (by simp [isTokenChar]) head (unnamed?_plain_append (by decide) others)

end Placeholders

/-! ### Projections -/

namespace Projection

variable {projection : Projection}

/-- A path spelled in tokens has no comma in it. -/
theorem comma_not_mem_text {path : Path} (spelled : path.IsSpelled) : ',' ∉ path.text.toList := by
  intro member
  have word := List.all_eq_true.mp (Path.text_all_isWordChar spelled.2) ',' member
  simp [isWordChar, isAlone] at word

/-- Only the projection to nothing has no text. -/
theorem text_eq_empty_iff (spelled : ∀ path ∈ projection, path.IsSpelled) :
    projection.text = "" ↔ projection = [] := by
  cases projection with
  | nil => simp [text]
  | cons path rest =>
    have head := Path.head?_text (spelled path List.mem_cons_self)
    -- The hash of the first token is the first character of the whole.
    have start : (text (path :: rest)).toList.head? = some '#' := by
      cases rest <;> simp [text, String.intercalate_cons_cons, head]
    refine iff_of_false (fun empty => ?_) (List.cons_ne_nil path rest)
    rw [empty] at start
    cases start

theorem partAtCommas_text (spelled : ∀ path ∈ projection, path.IsSpelled)
    (nonempty : projection ≠ []) :
    partAtCommas projection.text.toList = projection.map fun path => path.text.toList := by
  have shape : projection.text.toList =
      [',', ' '].intercalate (projection.map fun path => path.text.toList) := by
    simp [text, String.toList_intercalate, Function.comp_def]
  rw [shape]
  apply partAtCommas_intercalate (by simpa using nonempty)
  exact List.forall_mem_map.mpr fun path member => comma_not_mem_text (spelled path member)

/-- The text of a projection is read back as the paths that it stands for. -/
theorem fieldsNamed?_text {p : Placeholders} {targets : List Path}
    (spelled : ∀ path ∈ projection, path.IsSpelled)
    (made : ∀ path ∈ projection, ∀ step ∈ path, IsNameToken step.name)
    (resolved : projection.mapM (Path.resolve? p) = some targets) :
    p.fieldsNamed? projection.text = some (targets.map Path.text) := by
  unfold Placeholders.fieldsNamed?
  split
  next empty =>
    obtain rfl := (text_eq_empty_iff spelled).mp empty
    cases resolved
    rfl
  next nonempty =>
    rw [text_eq_empty_iff spelled] at nonempty
    rw [partAtCommas_text spelled nonempty, List.mapM_map]
    clear nonempty
    -- Each part is the text of one path.
    induction projection generalizing targets with
    | nil =>
      cases resolved
      rfl
    | cons path rest ih =>
      obtain ⟨pathSpelled, restSpelled⟩ := List.forall_mem_cons.mp spelled
      obtain ⟨pathMade, restMade⟩ := List.forall_mem_cons.mp made
      simp only [List.mapM_cons, Option.bind_eq_bind, Option.bind_eq_some_iff, Option.pure_def,
        Option.some.injEq] at resolved
      obtain ⟨target, head, others, tail, rfl⟩ := resolved
      have indices : ∀ step ∈ path, isIndices step.index.toList = true := fun step member =>
        (Step.isSpelled_iff.mp (pathSpelled.2 step member)).2
      have read := Placeholders.unnamed?_path pathMade indices head
      simp [read, ih restSpelled restMade tail]

end Projection

/-- A projection names the fields that were listed and no others. Of a list of well-formed paths,
parted by blanks and commas, the text is read back, through the placeholders after compilation, as
the paths of the list, to the letter, in their order and as often as they stand there. The text is
empty exactly if nothing was listed, and no value is bound. -/
theorem projection_gives_fields_back {fields : String} {pieces : List String}
    (listed : pieces =
      ((fields.toList.splitOnP fun c => c = ' ' || c = ',').filter (· ≠ [])).map String.ofList)
    (wellFormed : ∀ piece ∈ pieces, WellFormedPath piece) (p : Placeholders) :
    let projected := compileProjection fields p
    projected.2.fieldsNamed? projected.1.text = some pieces ∧
      (projected.1.text = "" ↔ pieces = []) ∧
      projected.2.values = p.values := by
  intro projected
  -- What the list is parted into is what was named, one path for each piece.
  have named : projected = nameTexts pieces p := by rw [listed]; rfl
  have spelled := nameTexts_spelled wellFormed p
  rw [named]
  refine ⟨?_, ?_, nameTexts_values pieces p⟩
  · have resolved := nameTexts_bound pieces p (le_refl (nameTexts pieces p).2)
    rw [Projection.fieldsNamed?_text spelled (nameTexts_isNameToken pieces p) resolved,
      List.map_map]
    exact congrArg some (List.map_id'' Path.text_ofText pieces)
  · rw [Projection.text_eq_empty_iff spelled]
    exact nameTexts_eq_nil_iff pieces p

/-- Fields that are spelled alike, one of them twice, behind and between runs of separators. -/
def crowdedList : String := ", a_b,x.y[0][12]  #k_a_b.ö a_b"

/-- Two names take the first tokens of the list. -/
theorem crowdedList_gives_fields_back :
    let projected := compileProjection crowdedList (Naming.nameText "a-b.a b" {}).2
    projected.2.fieldsNamed? projected.1.text = some ["a_b", "x.y[0][12]", "#k_a_b.ö", "a_b"] ∧
      projected.1.text ≠ "" ∧ projected.2.values = ∅ := by
  have listed : ["a_b", "x.y[0][12]", "#k_a_b.ö", "a_b"] =
      ((crowdedList.toList.splitOnP fun c => c = ' ' || c = ',').filter (· ≠ [])).map
        String.ofList := by decide +kernel
  have wellFormed : ∀ piece ∈ ["a_b", "x.y[0][12]", "#k_a_b.ö", "a_b"], WellFormedPath piece := by
    decide +kernel
  obtain ⟨read, empty, values⟩ :=
    projection_gives_fields_back listed wellFormed (Naming.nameText "a-b.a b" {}).2
  refine ⟨read, fun none => List.cons_ne_nil _ _ (empty.mp none), values.trans ?_⟩
  exact Naming.nameText_values "a-b.a b" {}

end DocQuery
