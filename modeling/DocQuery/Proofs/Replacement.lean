import DocQuery.Proofs.TokenScan
import Mathlib.Data.List.SplitBy

/-!
# DocQuery.Proofs.Replacement

The text of an expression with its tokens replaced by what they stand for.

A text falls into runs: each starts at a character that no token holds and goes on with characters
of tokens. A run that starts with a sigil is a token, and any other run is kept as it is.

## Main results

`Alike.separated`, `Alike.intercalate`: texts that are alike but for their tokens stay so when
they are put together at separators.
-/

namespace DocQuery

/-- A piece of a text whose tokens were replaced. -/
inductive Piece where
  | char (c : Char)
  | name (name : String)
  | value (value : AttributeValue)
deriving DecidableEq, Repr

/-- The runs of a text, each up to where the next one starts. -/
def runs (text : List Char) : List (List Char) :=
  text.splitBy fun _ next => isTokenChar next

namespace Placeholders

/-- What a run is replaced by. A token that stands for nothing is replaced by nothing. -/
def replaceRun? (p : Placeholders) : List Char → Option (List Piece)
  | '#' :: run => (p.names.get? (String.ofList ('#' :: run))).map fun name => [.name name]
  | ':' :: run => (p.values.get? (String.ofList (':' :: run))).map fun value => [.value value]
  | run => some (run.map .char)

def replaceChars? (p : Placeholders) (text : List Char) : Option (List Piece) :=
  ((runs text).mapM p.replaceRun?).map List.flatten

/-- A text with every token replaced by what it stands for. -/
def replace? (p : Placeholders) (text : String) : Option (List Piece) :=
  p.replaceChars? text.toList

end Placeholders

/-! ### Runs -/

section Runs

variable {p : Placeholders} {xs ys : List Char}

theorem runs_append (apart : ∀ c ∈ ys.head?, isTokenChar c = false) :
    runs (xs ++ ys) = runs xs ++ runs ys :=
  List.splitBy_append fun _ _ => apart

/-- Characters of tokens belong to the run that they follow. -/
theorem runs_run (c : Char) (chars : xs.all isTokenChar = true) : runs (c :: xs) = [c :: xs] := by
  apply List.splitBy_of_isChain (List.cons_ne_nil c xs)
  induction xs generalizing c with
  | nil => exact .singleton c
  | cons d rest ih =>
    rw [List.all_cons, Bool.and_eq_true] at chars
    exact .cons_cons chars.1 (ih d chars.2)

theorem replaceRun?_plain {run : List Char} (plain : ∀ c ∈ run.head?, c ≠ '#' ∧ c ≠ ':') :
    p.replaceRun? run = some (run.map .char) := by
  unfold Placeholders.replaceRun?
  split
  next => exact absurd rfl (plain '#' rfl).1
  next => exact absurd rfl (plain ':' rfl).2
  next => rfl

theorem replaceChars?_append (apart : ∀ c ∈ ys.head?, isTokenChar c = false) :
    p.replaceChars? (xs ++ ys) =
      (p.replaceChars? xs).bind fun pieces => (p.replaceChars? ys).map (pieces ++ ·) := by
  simp only [Placeholders.replaceChars?, runs_append apart, List.mapM_append]
  cases (runs xs).mapM p.replaceRun? <;> cases (runs ys).mapM p.replaceRun? <;> simp

theorem replaceChars?_run (c : Char) (chars : xs.all isTokenChar = true) :
    p.replaceChars? (c :: xs) = p.replaceRun? (c :: xs) := by
  rw [Placeholders.replaceChars?, runs_run c chars]
  cases replaced : p.replaceRun? (c :: xs) <;> simp [replaced]

/-- A character that is no sigil is kept, also where what follows goes on with the same run. -/
theorem replaceChars?_cons {c : Char} (plain : c ≠ '#' ∧ c ≠ ':') :
    p.replaceChars? (c :: xs) = (p.replaceChars? xs).map (.char c :: ·) := by
  -- The run of the character ends where `ys` starts.
  obtain ⟨run, ys, rfl, chars, apart⟩ : ∃ run ys, xs = run ++ ys ∧ run.all isTokenChar = true ∧
      ∀ c ∈ ys.head?, isTokenChar c = false := by
    refine ⟨xs.takeWhile isTokenChar, xs.dropWhile isTokenChar,
      List.takeWhile_append_dropWhile.symm, List.all_takeWhile, fun c first => ?_⟩
    have stopped := List.head?_dropWhile_not isTokenChar xs
    rw [Option.mem_def.mp first] at stopped
    simpa using stopped
  have alone : p.replaceChars? run = some (run.map .char) := by
    cases run with
    | nil => rfl
    | cons d run =>
      rw [List.all_cons, Bool.and_eq_true] at chars
      rw [replaceChars?_run d chars.2, replaceRun?_plain]
      rintro _ ⟨⟩
      constructor <;> rintro rfl <;> simp [isTokenChar] at chars
  have whole : p.replaceChars? (c :: run) = some (.char c :: run.map .char) := by
    rw [replaceChars?_run c chars, replaceRun?_plain (by simpa using plain)]
    rfl
  rw [← List.cons_append, replaceChars?_append apart, replaceChars?_append apart, whole, alone]
  cases p.replaceChars? ys <;> rfl

theorem replaceChars?_plain_append
    (plain : (xs.all fun c => c ≠ '#' && c ≠ ':') = true) :
    p.replaceChars? (xs ++ ys) = (p.replaceChars? ys).map (xs.map .char ++ ·) := by
  induction xs with
  | nil => simp
  | cons c xs ih =>
    simp only [List.all_cons, Bool.and_eq_true, decide_eq_true_eq] at plain
    rw [List.cons_append, replaceChars?_cons plain.1, ih (by simpa using plain.2)]
    cases p.replaceChars? ys <;> rfl

end Runs

/-- A name token is replaced as a whole by the name that it stands for. -/
theorem replaceChars?_nameToken {p : Placeholders} {token : Token} {name : String}
    (made : IsNameToken token) (found : p.names.get? token = some name) :
    p.replaceChars? token.toList = some [.name name] := by
  obtain ⟨text, rfl, chars⟩ := made
  have shape : ("#k_" ++ text).toList = '#' :: 'k' :: '_' :: text.toList := by simp
  have whole : String.ofList ('#' :: 'k' :: '_' :: text.toList) = "#k_" ++ text := by
    rw [← shape, String.ofList_toList]
  rw [shape, replaceChars?_run '#' (by simpa [isTokenChar] using chars),
    Placeholders.replaceRun?, whole, found]
  rfl

/-! ### Texts that are alike but for their tokens -/

/-- Two texts that become one when their tokens are replaced, those of the first by what they stand
for in `r` and those of the second by what they stand for in `s`. -/
def Alike (r s : Placeholders) (one other : String) : Prop :=
  ∃ pieces, r.replace? one = some pieces ∧ s.replace? other = some pieces

namespace Alike

variable {r s : Placeholders} {one other next following : String}

theorem nameTokens {name : String} (made : IsNameToken one) (madeToo : IsNameToken other)
    (found : r.names.get? one = some name) (foundToo : s.names.get? other = some name) :
    Alike r s one other :=
  ⟨_, replaceChars?_nameToken made found, replaceChars?_nameToken madeToo foundToo⟩

theorem valueTokens {value : AttributeValue} (made : TokenKind.value.IsToken one)
    (madeToo : TokenKind.value.IsToken other) (found : r.values.get? one = some value)
    (foundToo : s.values.get? other = some value) : Alike r s one other := by
  have replaced {p : Placeholders} {token : Token} (made : TokenKind.value.IsToken token)
      (found : p.values.get? token = some value) : p.replace? token = some [.value value] := by
    -- Both shapes are a colon and characters of tokens behind it.
    obtain ⟨run, shape, chars⟩ : ∃ run, token.toList = ':' :: run ∧ run.all isTokenChar = true := by
      rcases made with ⟨text, rfl, chars⟩ | rfl
      · exact ⟨'v' :: '_' :: text.toList, by simp, by simpa [isTokenChar] using chars⟩
      · exact ⟨_, rfl, by decide⟩
    have whole : String.ofList (':' :: run) = token := by rw [← shape, String.ofList_toList]
    rw [Placeholders.replace?, shape, replaceChars?_run ':' chars, Placeholders.replaceRun?, whole,
      found]
    rfl
  exact ⟨_, replaced made found, replaced madeToo foundToo⟩

theorem empty (r s : Placeholders) : Alike r s "" "" :=
  ⟨[], rfl, rfl⟩

/-- A start that holds no token is kept. -/
theorem plain_append (start : String)
    (plain : (start.toList.all fun c => c ≠ '#' && c ≠ ':') = true)
    (alike : Alike r s one other) : Alike r s (start ++ one) (start ++ other) := by
  obtain ⟨pieces, replaced, replacedToo⟩ := alike
  rw [Placeholders.replace?] at replaced replacedToo
  refine ⟨start.toList.map .char ++ pieces, ?_, ?_⟩
  · rw [Placeholders.replace?, String.toList_append, replaceChars?_plain_append plain, replaced]
    rfl
  · rw [Placeholders.replace?, String.toList_append, replaceChars?_plain_append plain, replacedToo]
    rfl

theorem append (alike : Alike r s one other) (behind : Alike r s next following)
    (apart : ∀ c ∈ next.toList.head?, isTokenChar c = false)
    (apartToo : ∀ c ∈ following.toList.head?, isTokenChar c = false) :
    Alike r s (one ++ next) (other ++ following) := by
  obtain ⟨pieces, replaced, replacedToo⟩ := alike
  obtain ⟨more, last, lastToo⟩ := behind
  rw [Placeholders.replace?] at replaced replacedToo last lastToo
  refine ⟨pieces ++ more, ?_, ?_⟩
  · rw [Placeholders.replace?, String.toList_append, replaceChars?_append apart, replaced, last]
    rfl
  · rw [Placeholders.replace?, String.toList_append, replaceChars?_append apartToo, replacedToo,
      lastToo]
    rfl

/-- Texts with something between them that is no token. -/
theorem separated (separator : String) (separates : isSeparator separator.toList = true)
    (alike : Alike r s one other) (behind : Alike r s next following) :
    Alike r s (one ++ separator ++ next) (other ++ separator ++ following) := by
  simp only [isSeparator, Bool.and_eq_true] at separates
  obtain ⟨first, plain⟩ := separates
  have apart (text : String) : ∀ c ∈ (separator ++ text).toList.head?, isTokenChar c = false := by
    intro c head
    cases shape : separator.toList with
    | nil => simp [shape] at first
    | cons d rest =>
      simp only [String.toList_append, shape, List.cons_append, List.head?_cons, Option.mem_def,
        Option.some.injEq] at head
      subst head
      simpa [shape] using first
  rw [String.append_assoc, String.append_assoc]
  exact alike.append (behind.plain_append separator plain) (apart next) (apart following)

theorem append_separator (separator : String) (separates : isSeparator separator.toList = true)
    (alike : Alike r s one other) : Alike r s (one ++ separator) (other ++ separator) := by
  have ended := alike.separated separator separates (empty r s)
  rwa [String.append_empty, String.append_empty] at ended

theorem intercalate {separator : String} (separates : isSeparator separator.toList = true)
    {texts others : List String} (alike : List.Forall₂ (Alike r s) texts others) :
    Alike r s (separator.intercalate texts) (separator.intercalate others) := by
  induction alike with
  | nil => exact empty r s
  | cons head tail ih =>
    cases tail with
    | nil => simpa using head
    | cons =>
      rw [String.intercalate_cons_cons, String.intercalate_cons_cons]
      exact head.separated separator separates ih

end Alike

end DocQuery
