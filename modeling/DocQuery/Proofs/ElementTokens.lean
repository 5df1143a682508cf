import DocQuery.Proofs.Nesting
import DocQuery.Proofs.NumberText
import DocQuery.Proofs.Session

/-!
# DocQuery.Proofs.ElementTokens

The tokens of lists whose elements are bound one by one.

An element is bound under the key of its list and its own number, and where that token is taken, a
second number follows. So the element `1` of `a` asks for the token that a second value of `a` is
given too, and for the one of a value of `a_1`. It may share a token with an equal value that was
bound before, but never with another element of its list.

## Proof strategy

The digits behind the key, up to the next character that is no digit, are the number of the element,
however often the token was numbered on. Each step of the loop gives a token with the number of its
step, and the numbers of different steps differ.

## Main result

`elements_have_own_tokens`: every element of a list has a token of its own, which stands for it from
then on.
-/

namespace DocQuery

open Compile

/-! ### Tokens with the number of an element -/

/-- The token asked for first for the element at `index` of the list that is bound for `key`. -/
def elementToken (key : String) (index : Nat) : Token :=
  valueToken (key ++ "_" ++ String.ofList (digitsOf index))

/-- A token that the element at `index` may be given. -/
def IsElementToken (key : String) (index : Nat) (token : Token) : Prop :=
  ∃ count, token = candidate (elementToken key index) count

theorem sanitize_append (text more : String) :
    sanitize (text ++ more) = sanitize text ++ sanitize more := by
  apply String.toList_inj.mp
  simp [sanitize]

/-- A number is kept as it is. -/
theorem sanitize_digitsOf (n : Nat) :
    sanitize (String.ofList (digitsOf n)) = String.ofList (digitsOf n) := by
  apply String.toList_inj.mp
  rw [sanitize, String.toList_map, String.toList_ofList]
  refine (List.map_congr_left fun c member => ?_).trans (List.map_id _)
  simp [Char.isAlphanum, isDigit_of_mem_digitsOf member]

theorem toList_elementToken (key : String) (index : Nat) :
    (elementToken key index).toList = (valueToken key).toList ++ '_' :: digitsOf index := by
  have blank : sanitize "_" = "_" := by decide +kernel
  rw [elementToken, valueToken, sanitize_append, sanitize_append, sanitize_digitsOf, blank]
  simp [valueToken]

/-- A candidate goes on with its base, and not with a digit. -/
theorem toList_candidate (base : Token) (count : Nat) :
    ∃ more, (candidate base count).toList = base.toList ++ more ∧
      ∀ c ∈ more.head?, c.isDigit = false := by
  cases count with
  | zero => exact ⟨[], by simp [candidate], by simp⟩
  | succ count =>
    refine ⟨'_' :: digitsOf (count + 1), toList_candidate_succ base count, ?_⟩
    simp

theorem takeWhile_digitsOf_append (n : Nat) {more : List Char}
    (stops : ∀ c ∈ more.head?, c.isDigit = false) :
    (digitsOf n ++ more).takeWhile Char.isDigit = digitsOf n := by
  rw [List.takeWhile_append_of_pos fun c => isDigit_of_mem_digitsOf]
  cases more with
  | nil => simp
  | cons c rest => simp [stops c rfl]

/-- A token has the number of one element only. -/
theorem IsElementToken.index_eq {key : String} {i j : Nat} {token : Token}
    (first : IsElementToken key i token) (second : IsElementToken key j token) : i = j := by
  obtain ⟨count, rfl⟩ := first
  obtain ⟨other, same⟩ := second
  obtain ⟨more, text, stops⟩ := toList_candidate (elementToken key i) count
  obtain ⟨others, textToo, stopsToo⟩ := toList_candidate (elementToken key j) other
  rw [same, textToo, toList_elementToken, toList_elementToken] at text
  simp only [List.append_assoc, List.append_cancel_left_eq, List.cons_append, List.cons.injEq,
    true_and] at text
  -- Up to the first character that is no digit the rests are the two numbers.
  have digits := congrArg (List.takeWhile Char.isDigit) text
  rw [takeWhile_digitsOf_append j stopsToo, takeWhile_digitsOf_append i stops] at digits
  exact (digitsOf_injective digits).symm

/-! ### The loop -/

namespace Naming

theorem bindDocument_isElementToken (key : String) (index : Nat) (document : Document)
    (p : Placeholders) : IsElementToken key index
      (bindDocument (key ++ "_" ++ String.ofList (digitsOf index)) document p).1 := by
  obtain ⟨count, chosen, -⟩ :=
    tokenFor_spec p.values (elementToken key index) (.ofDocument document)
  exact ⟨count, chosen⟩

theorem getElem?_bindEachFrom {key : String} {index : Nat} {documents : List Document}
    {p : Placeholders} {i : Nat} {token : Token}
    (found : (bindEachFrom key index documents p).1[i]? = some token) :
    IsElementToken key (index + i) token := by
  induction documents generalizing index p i with
  | nil => cases found
  | cons document rest ih =>
    rw [bindEachFrom_cons] at found
    cases i with
    | zero =>
      cases found
      exact bindDocument_isElementToken key index document p
    | succ i =>
      have later := ih found
      rwa [Nat.add_right_comm] at later

theorem getElem?_bindEach {key : String} {documents : List Document} {p : Placeholders} {i : Nat}
    {token : Token} (found : (bindEach key documents p).1[i]? = some token) :
    IsElementToken key i token := by
  have numbered := getElem?_bindEachFrom found
  rwa [Nat.zero_add] at numbered

/-- Elements do not share their tokens, be they equal or not. -/
theorem nodup_bindEach (key : String) (documents : List Document) (p : Placeholders) :
    (bindEach key documents p).1.Nodup := by
  rw [List.nodup_iff_getElem?_ne_getElem?]
  intro i j before below same
  have second := List.getElem?_eq_getElem below
  have first := same.trans second
  have sameIndex := (getElem?_bindEach first).index_eq (getElem?_bindEach second)
  omega

end Naming

/-! ### Lists that are bound -/

/-- The documents of a list have `tokens` in turn, each of them one for itself, and these stand for
them in the placeholders `r`. -/
structure HaveOwnTokens (key : String) (documents : List Document) (tokens : List Token)
    (r : Placeholders) : Prop where
  length : tokens.length = documents.length
  nodup : tokens.Nodup
  each : ∀ (i : Nat) (document : Document), documents[i]? = some document →
    ∃ token, tokens[i]? = some token ∧ IsElementToken key i token ∧
      r.values.get? token = some (.ofDocument document)

theorem Naming.haveOwnTokens_bindEach (key : String) (documents : List Document)
    {p r : Placeholders} (later : (bindEach key documents p).2 ≤ r) :
    HaveOwnTokens key documents (bindEach key documents p).1 r := by
  have bound := mapM_eq_some_iff.mp ((bindEach_binds key documents p).bound later)
  rw [List.forall₂_map_right_iff, List.forall₂_iff_get] at bound
  obtain ⟨length, bound⟩ := bound
  refine ⟨length, nodup_bindEach key documents p, fun i document found => ?_⟩
  obtain ⟨below, rfl⟩ := List.getElem?_eq_some_iff.mp found
  have inTokens : i < (bindEach key documents p).1.length := by omega
  have token := List.getElem?_eq_getElem inTokens
  exact ⟨_, token, getElem?_bindEach token, bound i inTokens below⟩

/-! ### Tests with lists -/

/-- Operators that compare an attribute with the elements of a list. -/
def Operator.ComparesWithEach (operator : Operator) : Prop :=
  operator = .between ∨ operator = .oneOf ∨ operator = .noneOf

section Tests

variable {path : String} {name : Path} {documents : List Document} {operator : Operator}
  {predicate : Predicate} {p q : Placeholders}

theorem compileCandidates_binds_each
    (ran : (compileCandidates path name (.array documents)).runFrom p = (.ok predicate, q)) :
    predicate.operands = (Naming.bindEach path documents p).1 ∧
      q = (Naming.bindEach path documents p).2 := by
  obtain ⟨_, same, -, rfl, rfl⟩ := compileCandidates_ok ran
  cases same
  exact ⟨rfl, rfl⟩

theorem compileOperator_binds_each (compares : operator.ComparesWithEach)
    (ran : (compileOperator path name (.array documents) operator).runFrom p =
      (.ok predicate, q)) :
    predicate.operands = (Naming.bindEach path documents p).1 ∧
      q = (Naming.bindEach path documents p).2 := by
  rcases compares with rfl | rfl | rfl
  · -- The two bounds are bound by themselves, numbered like the elements of a list.
    have lowKey : path ++ "_" ++ String.ofList (digitsOf 0) = path ++ "_0" := String.append_assoc
    have highKey : path ++ "_" ++ String.ofList (digitsOf 1) = path ++ "_1" := String.append_assoc
    unfold compileOperator at ran
    dsimp only at ran
    split at ran
    next low high same =>
      cases same
      cases ran
      simp only [Naming.bindEach, Naming.bindEachFrom_cons, lowKey, highKey]
      exact ⟨rfl, rfl⟩
    next => cases ran
  · exact compileCandidates_binds_each ran
  · -- What is negated is the test for being one of the elements.
    rw [compileOperator, runFrom_map_ok] at ran
    obtain ⟨oneOf, ran, rfl⟩ := ran
    simpa only [Predicate.operands] using compileCandidates_binds_each ran

end Tests

/-- Every element of a list has a token of its own. Whatever the placeholders hold when the list is
bound, and whatever is done with them later, there are as many tokens as elements, in the same order
and all different, each stands for its element, and nothing that was bound before has changed. A
test that compares with each element has these tokens as its operands and registers no others. -/
theorem elements_have_own_tokens (key : String) (documents : List Document) (p : Placeholders)
    (later : List Operation) :
    let bound := Naming.bindEach key documents p
    let r := Operation.afterAll later bound.2
    p ≤ r ∧ HaveOwnTokens key documents bound.1 r ∧
      ∀ (operator : Operator) (name : Path) (predicate : Predicate) (q : Placeholders),
        operator.ComparesWithEach →
        (compileOperator key name (.array documents) operator).runFrom p = (.ok predicate, q) →
        predicate.operands = bound.1 ∧ q = bound.2 := by
  intro bound r
  have binding : p ≤ bound.2 := ((Naming.composed_bindEach key documents).registers p).le
  have onwards : bound.2 ≤ r := (Operation.reaches_afterAll later bound.2).le
  refine ⟨le_trans binding onwards, Naming.haveOwnTokens_bindEach key documents onwards, ?_⟩
  exact fun operator name predicate q => compileOperator_binds_each

/-- Two equal bounds, where the number of the first is taken by another key, that of the second by a
second value of the same key, and a query fails afterwards. -/
theorem equalBounds_have_own_tokens :
    let p := Operation.afterAll
      [.bindDocument "a" .null, .bindDocument "a" (.string "x"), .bindDocument "a_0" .null] {}
    let bounds : List Document := [.string "x", .string "x"]
    let bound := Naming.bindEach "a" bounds p
    let r := Operation.afterAll
      [.compileCondition (.object [("a_0", .string "y"), ("$no", .null)])] bound.2
    bounds[1]? = some (.string "x") ∧
      (∃ token, bound.1[1]? = some token ∧ IsElementToken "a" 1 token ∧
        r.values.get? token = some (.string "x")) ∧
      Operator.between.ComparesWithEach ∧
      ∃ predicate q, (compileOperator "a" [⟨"#k_a", ""⟩] (.array bounds) .between).runFrom p =
          (.ok predicate, q) ∧ predicate.operands = bound.1 ∧ q = bound.2 := by
  intro p bounds bound r
  obtain ⟨-, own, tests⟩ := elements_have_own_tokens "a" bounds p
    [.compileCondition (.object [("a_0", .string "y"), ("$no", .null)])]
  have compares : Operator.between.ComparesWithEach := .inl rfl
  exact ⟨rfl, own.each 1 (.string "x") rfl, compares, _, _, rfl, tests .between _ _ _ compares rfl⟩

/-- The first bound is numbered on, and the second shares the token of an equal value. -/
example :
    let p := Operation.afterAll
      [.bindDocument "a" .null, .bindDocument "a" (.string "x"), .bindDocument "a_0" .null] {}
    (Naming.bindEach "a" [.string "x", .string "x"] p).1 = [":v_a_0_1", ":v_a_1"] := by
  decide +kernel

end DocQuery
