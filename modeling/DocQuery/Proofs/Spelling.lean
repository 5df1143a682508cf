import DocQuery.Proofs.Lexeme
import DocQuery.Proofs.Registration

/-!
# DocQuery.Proofs.Spelling

Well-formed paths and the tokens they are spelled in.

## Main results

`Path.ofText_text`: a path spelled in tokens is read back from its text.
`isWordOf_path`: its text is one lexeme.
`Naming.nameText_spelled`: naming a well-formed path spells it in tokens.
-/

namespace DocQuery

/-! ### Well-formed paths -/

/-- What stands between two cuts was not cut. -/
theorem not_mem_of_mem_splitOn {c : Char} {text segment : List Char}
    (member : segment ∈ text.splitOn c) : c ∉ segment := by
  induction text generalizing segment with
  | nil =>
    obtain rfl : segment = [] := by simpa using member
    exact List.not_mem_nil
  | cons d rest ih =>
    rw [List.splitOn_cons_eq_if_modifyHead] at member
    split at member
    next =>
      rcases List.mem_cons.mp member with rfl | inRest
      · exact List.not_mem_nil
      · exact ih inRest
    next other =>
      -- A character that is no cut goes to the front of the first segment.
      cases segments : rest.splitOn c with
      | nil => exact absurd segments (List.splitOn_ne_nil c rest)
      | cons first others =>
        rw [segments, List.modifyHead_cons] at member
        rw [segments] at ih
        rcases List.mem_cons.mp member with rfl | inOthers
        · rw [List.mem_cons, not_or]
          exact ⟨fun same => other (by simp [same]), ih List.mem_cons_self⟩
        · exact ih (List.mem_cons_of_mem first inOthers)

/-- A name without an opening bracket, and indices behind it. -/
def IsSegment (segment : List Char) : Prop :=
  ∃ name indices, segment = name ++ indices ∧ '[' ∉ name ∧ IsIndices indices

/-- A path whose segments between points are names with indices. Nothing else is asked of the
names. -/
def WellFormedPath (path : String) : Prop :=
  ∀ segment ∈ path.toList.splitOn '.', IsSegment segment

/-- The index of a segment starts at its first bracket. -/
theorem isSegment_iff {segment : List Char} :
    IsSegment segment ↔ isIndices (Step.ofSegment segment).index.toList = true := by
  rw [Step.ofSegment, String.toList_ofList]
  constructor
  · rintro ⟨name, indices, rfl, noBracket, isIndices⟩
    have inName : ∀ c ∈ name, decide (c ≠ '[') = true := by
      intro c member
      simp only [decide_eq_true_eq]
      rintro rfl
      exact noBracket member
    -- Indices are empty or start with the bracket where the name ends.
    have atBracket : indices.dropWhile (· ≠ '[') = indices := by
      cases isIndices <;> simp
    rw [List.dropWhile_append_of_pos inName, atBracket]
    exact isIndices_iff.mpr isIndices
  · intro indices
    refine ⟨segment.takeWhile (· ≠ '['), segment.dropWhile (· ≠ '['),
      List.takeWhile_append_dropWhile.symm, ?_, isIndices_iff.mp indices⟩
    intro member
    have notBracket := List.all_eq_true.mp List.all_takeWhile '[' member
    simp at notBracket

theorem wellFormedPath_iff {path : String} :
    WellFormedPath path ↔ ∀ step ∈ Path.ofText path, isIndices step.index.toList = true := by
  simp only [WellFormedPath, Path.ofText, List.mem_map, forall_exists_index, and_imp,
    forall_apply_eq_imp_iff₂, isSegment_iff]

instance (path : String) : Decidable (WellFormedPath path) :=
  decidable_of_iff _ wellFormedPath_iff.symm

/-! ### Paths spelled in tokens -/

/-- At least one step, and every step is a name token with indices. -/
def Path.IsSpelled (path : Path) : Prop :=
  path ≠ [] ∧ ∀ step ∈ path, step.isSpelled = true

namespace Step

variable {step : Step}

theorem isSpelled_iff : step.isSpelled = true ↔
    isName step.name.toList = true ∧ isIndices step.index.toList = true := by
  simp [isSpelled]

theorem text_all_isWordChar (spelled : step.isSpelled = true) :
    step.text.toList.all isWordChar = true := by
  obtain ⟨name, indices⟩ := isSpelled_iff.mp spelled
  have indexChars := List.all_eq_true.mp (all_isIndexChar_of_isIndices indices)
  simp only [text, String.toList_append, List.all_append, Bool.and_eq_true]
  refine ⟨isWordChar_of_isName name, List.all_eq_true.mpr ?_⟩
  exact fun c member => isWordChar_of_isIndexChar (indexChars c member)

/-- A step that is found again in its text: no point is in it, and its first bracket is the one
where the index starts. -/
structure IsParted (step : Step) : Prop where
  name : ∀ c ∈ step.name.toList, c ≠ '.' ∧ c ≠ '['
  index : '.' ∉ step.index.toList
  opening : step.index.toList = [] ∨ ∃ rest, step.index.toList = '[' :: rest

/-- What a name token does not hold. -/
theorem ne_of_mem_name {c : Char} (name : isName step.name.toList = true)
    (member : c ∈ step.name.toList) : c ≠ '.' ∧ c ≠ '[' := by
  obtain ⟨rest, shape, -, chars⟩ := isName_iff.mp name
  rw [shape] at member
  rcases List.mem_cons.mp member with rfl | inRest
  · decide
  · have char := List.all_eq_true.mp chars c inRest
    constructor <;> rintro rfl <;> simp [isTokenChar] at char

theorem isParted_of_isSpelled (spelled : step.isSpelled = true) : step.IsParted := by
  obtain ⟨name, indices⟩ := isSpelled_iff.mp spelled
  refine ⟨fun c member => ne_of_mem_name name member, ?_, isIndices_head indices⟩
  intro inIndex
  have char := List.all_eq_true.mp (all_isIndexChar_of_isIndices indices) '.' inIndex
  simp [isIndexChar] at char

/-- What a segment between two points is split into. -/
theorem isParted_ofSegment {segment : List Char} (noPoint : '.' ∉ segment) :
    (ofSegment segment).IsParted := by
  refine ⟨fun c member => ⟨?_, ?_⟩, fun member => ?_, ?_⟩
  · rintro rfl
    simp only [ofSegment, String.toList_ofList] at member
    exact noPoint ((List.takeWhile_prefix _).subset member)
  · rintro rfl
    simp only [ofSegment, String.toList_ofList] at member
    have notBracket := List.all_eq_true.mp List.all_takeWhile '[' member
    simp at notBracket
  · simp only [ofSegment, String.toList_ofList] at member
    exact noPoint ((List.dropWhile_suffix _).subset member)
  · simp only [ofSegment, String.toList_ofList]
    cases rest : segment.dropWhile (· ≠ '[') with
    | nil => exact .inl rfl
    | cons c others =>
      -- The first character that is kept is a bracket.
      have stopped := List.head?_dropWhile_not (· ≠ '[') segment
      rw [rest] at stopped
      exact .inr ⟨others, by simpa using stopped⟩

theorem point_not_mem_text (parted : step.IsParted) : '.' ∉ step.text.toList := by
  simp only [text, String.toList_append, List.mem_append]
  rintro (inName | inIndex)
  · exact (parted.name '.' inName).1 rfl
  · exact parted.index inIndex

/-- A step is taken apart where it was put together. -/
theorem ofSegment_text (parted : step.IsParted) : ofSegment step.text.toList = step := by
  have inName : ∀ c ∈ step.name.toList, decide (c ≠ '[') = true := by
    intro c member
    simpa using (parted.name c member).2
  -- The name ends at the first bracket, and that is where the index starts.
  have noName : step.index.toList.takeWhile (· ≠ '[') = [] := by
    rcases parted.opening with empty | ⟨rest, shape⟩
    · simp [empty]
    · simp [shape]
  have allIndex : step.index.toList.dropWhile (· ≠ '[') = step.index.toList := by
    rcases parted.opening with empty | ⟨rest, shape⟩
    · simp [empty]
    · simp [shape]
  simp only [ofSegment, text, String.toList_append]
  rw [List.takeWhile_append_of_pos inName, List.dropWhile_append_of_pos inName, noName, allIndex]
  simp

end Step

namespace Path

variable {path : Path}

theorem toList_text (path : Path) :
    path.text.toList = ['.'].intercalate (path.map fun step => step.text.toList) := by
  simp [text, String.toList_intercalate, Function.comp_def]

/-- A path is read back from its text if each of its steps is. -/
theorem ofText_text_of_isParted (nonempty : path ≠ []) (parted : ∀ step ∈ path, step.IsParted) :
    ofText path.text = path := by
  -- No step holds a point, so the points are those between steps.
  have points : ∀ segment ∈ path.map (fun step => step.text.toList), '.' ∉ segment := by
    intro segment member
    obtain ⟨step, stepIn, rfl⟩ := List.mem_map.mp member
    exact Step.point_not_mem_text (parted step stepIn)
  have segments : path.map (fun step => step.text.toList) ≠ [] := by simpa using nonempty
  rw [ofText, toList_text, List.splitOn_intercalate '.' points segments, List.map_map]
  calc path.map (Step.ofSegment ∘ fun step => step.text.toList) = path.map id :=
        List.map_congr_left fun step member => Step.ofSegment_text (parted step member)
    _ = path := List.map_id path

/-- A path spelled in tokens is read back from its text. -/
theorem ofText_text (spelled : path.IsSpelled) : ofText path.text = path :=
  ofText_text_of_isParted spelled.1 fun step member =>
    Step.isParted_of_isSpelled (spelled.2 step member)

theorem ofText_ne_nil (text : String) : ofText text ≠ [] := by
  simp [ofText]

theorem isParted_of_mem_ofText {text : String} {step : Step} (member : step ∈ ofText text) :
    step.IsParted := by
  obtain ⟨segment, inText, rfl⟩ := List.mem_map.mp member
  exact Step.isParted_ofSegment (not_mem_of_mem_splitOn inText)

theorem text_all_isWordChar (spelled : ∀ step ∈ path, step.isSpelled = true) :
    path.text.toList.all isWordChar = true := by
  rw [toList_text]
  induction path with
  | nil => rfl
  | cons step rest ih =>
    have head := Step.text_all_isWordChar (spelled step List.mem_cons_self)
    have tail := ih fun other member => spelled other (List.mem_cons_of_mem step member)
    cases rest with
    | nil => simpa using head
    | cons next rest =>
      -- The point between two steps belongs to words as well.
      simp only [List.map_cons, List.intercalate_cons_cons, List.all_append] at tail ⊢
      simp [head, tail, isWordChar, isAlone, isSign]

/-- The text of a path starts with the hash of its first token. -/
theorem head?_text (spelled : path.IsSpelled) : path.text.toList.head? = some '#' := by
  rw [toList_text]
  rcases path with _ | ⟨step, rest⟩
  · exact absurd rfl spelled.1
  · have isSpelled := spelled.2 step List.mem_cons_self
    obtain ⟨name, shape, -, -⟩ := isName_iff.mp (Step.isSpelled_iff.mp isSpelled).1
    have start : step.text.toList = '#' :: (name ++ step.index.toList) := by
      simp [Step.text, shape]
    cases rest <;> simp [start, List.intercalate_cons_cons]

end Path

/-- A path spelled in tokens is one lexeme. -/
theorem isWordOf_path {path : Path} (spelled : path.IsSpelled) :
    IsWordOf path.text.toList (.path path) := by
  have first := Path.head?_text spelled
  refine ⟨?_, Path.text_all_isWordChar spelled.2, ?_⟩
  · intro empty
    simp [empty] at first
  · have steps : path.all Step.isSpelled = true := List.all_eq_true.mpr spelled.2
    simp [Lexeme.ofRun, first, Path.ofText_text spelled, steps]

/-- A function applied to a path. -/
theorem lex_call_path (function : Function) {path : Path} (spelled : path.IsSpelled) :
    lex (function.name ++ "(" ++ path.text ++ ")").toList =
      [.call function, .opening, .path path, .closing] := by
  have shape : (function.name ++ "(" ++ path.text ++ ")").toList =
      function.name.toList ++ '(' :: (path.text.toList ++ ")".toList) := by simp
  rw [shape, lex_call, lex_append_end, (isWordOf_path spelled).lex]
  rfl

/-- A function applied to a path and a value. -/
theorem lex_call_path_value (function : Function) {path : Path} {operand : Token}
    (spelled : path.IsSpelled) (value : isValue operand.toList = true) :
    lex (function.name ++ "(" ++ path.text ++ ", " ++ operand ++ ")").toList =
      [.call function, .opening, .path path, .comma, .value operand, .closing] := by
  have shape : (function.name ++ "(" ++ path.text ++ ", " ++ operand ++ ")").toList =
      function.name.toList ++
        '(' :: (path.text.toList ++ (", ".toList ++ (operand.toList ++ ")".toList))) := by simp
  rw [shape, lex_call, lex_separator, lex_append_end, (isWordOf_path spelled).lex,
    (isWordOf_value value).lex]
  rfl

/-! ### Tokens as they are made -/

theorem IsNameToken.isName {token : Token} (made : IsNameToken token) :
    isName token.toList = true := by
  obtain ⟨text, rfl, chars⟩ := made
  have start : "#k_".toList = ['#', 'k', '_'] := rfl
  simp only [String.toList_append, start]
  simpa [DocQuery.isName, isTokenChar] using chars

theorem IsValueToken.isValue {token : Token} (made : IsValueToken token) :
    isValue token.toList = true := by
  obtain ⟨text, rfl, chars⟩ := made
  have start : ":v_".toList = [':', 'v', '_'] := rfl
  simp only [String.toList_append, start]
  simpa [DocQuery.isValue, isTokenChar] using chars

theorem isValue_emptyListToken : isValue emptyListToken.toList = true := by decide

namespace Naming

theorem nameAttribute_isNameToken (name : String) (p : Placeholders) :
    IsNameToken (nameAttribute name p).1 :=
  isNameToken_tokenFor p.names name name

theorem bindValue_isValueToken (key : String) (value : AttributeValue) (p : Placeholders) :
    IsValueToken (bindValue key value p).1 :=
  isValueToken_tokenFor p.values key value

/-- Only names are replaced: the indices are kept as they are written. -/
theorem namePath_indices (path : Path) (p : Placeholders) :
    (namePath path p).1.map DocQuery.Step.index = path.map DocQuery.Step.index := by
  induction path generalizing p with
  | nil => rfl
  | cons step rest ih => simp [namePath_cons, ih]

theorem namePath_isNameToken (path : Path) (p : Placeholders) :
    ∀ step ∈ (namePath path p).1, IsNameToken step.name := by
  induction path generalizing p with
  | nil => exact List.forall_mem_nil _
  | cons step rest ih =>
    rw [namePath_cons]
    exact List.forall_mem_cons.mpr ⟨nameAttribute_isNameToken step.name p, ih _⟩

theorem isIndices_namePath_iff {path : Path} {p : Placeholders} :
    (∀ step ∈ (namePath path p).1, isIndices step.index.toList = true) ↔
      ∀ step ∈ path, isIndices step.index.toList = true := by
  have same := congrArg (fun indices => ∀ index ∈ indices, isIndices index.toList = true)
    (namePath_indices path p)
  simpa only [List.forall_mem_map, eq_iff_iff] using same

theorem nameText_ne_nil (path : String) (p : Placeholders) : (nameText path p).1 ≠ [] := by
  intro empty
  have length := congrArg List.length (namePath_indices (Path.ofText path) p)
  rw [nameText] at empty
  rw [empty, List.length_map, List.length_map] at length
  exact Path.ofText_ne_nil path (List.length_eq_zero_iff.mp length.symm)

/-- Naming a well-formed path spells it in tokens. -/
theorem nameText_spelled (path : String) (p : Placeholders) (wellFormed : WellFormedPath path) :
    (nameText path p).1.IsSpelled := by
  refine ⟨nameText_ne_nil path p, fun step member => ?_⟩
  have indices := (isIndices_namePath_iff (p := p)).mpr (wellFormedPath_iff.mp wellFormed)
  exact Step.isSpelled_iff.mpr
    ⟨(namePath_isNameToken _ p step member).isName, indices step member⟩

theorem bindEach_ne_nil {key : String} {documents : List Document} (nonempty : documents ≠ [])
    (p : Placeholders) : (bindEach key documents p).1 ≠ [] := by
  cases documents with
  | nil => exact absurd rfl nonempty
  | cons document rest =>
    rw [bindEach, bindEachFrom_cons]
    exact List.cons_ne_nil _ _

end Naming

theorem Placeholders.Binds.isValue {p q : Placeholders} {values : List AttributeValue}
    {tokens : List Token} (binds : p.Binds values tokens q) :
    ∀ token ∈ tokens, DocQuery.isValue token.toList = true := by
  induction binds with
  | nil => exact List.forall_mem_nil _
  | value key value _ ih =>
    exact List.forall_mem_cons.mpr ⟨(Naming.bindValue_isValueToken key value _).isValue, ih⟩
  | emptyList _ ih => exact List.forall_mem_cons.mpr ⟨isValue_emptyListToken, ih⟩

end DocQuery
