import DocQuery.Base64
import Mathlib.Data.List.Basic
import Mathlib.Data.Option.Basic

/-!
# DocQuery.Proofs.Base64

Bytes and their base64 texts are one to one.

The texts that stand for bytes are described by a grammar: groups of four characters of the
alphabet, of which the last may be padded. Where a group is padded, its last character has no bits
to spare, which is to say that it stands at a multiple of four or of sixteen in the alphabet.

## Main results

`decode?_encode` and `encode_of_decode?`: reading and writing undo each other.
`decode?_eq_some_iff_isCanonical`: what can be read is what the grammar describes.
-/

namespace DocQuery.Base64

/-! ### The alphabet -/

/-- The characters that stand for six bits, in the order of what they stand for. -/
def alphabet : List Char :=
  "ABCDEFGHIJKLMNOPQRSTUVWXYZabcdefghijklmnopqrstuvwxyz0123456789+/".toList

theorem getElem?_alphabet {n : Nat} (small : n < 64) : alphabet[n]? = some (char n) := by
  have all : ∀ n < 64, alphabet[n]? = some (char n) := by decide
  exact all n small

theorem sextet?_char {n : Nat} (small : n < 64) : sextet? (char n) = some n := by
  have all : ∀ n < 64, sextet? (char n) = some n := by decide
  exact all n small

theorem char_ne_pad {n : Nat} (small : n < 64) : char n ≠ '=' := by
  have all : ∀ n < 64, char n ≠ '=' := by decide
  exact all n small

theorem toNat_between {low c high : Char} (between : low ≤ c ∧ c ≤ high) :
    low.toNat ≤ c.toNat ∧ c.toNat ≤ high.toNat :=
  between

/-- A character in a range is found again from how far it stands behind the first one. -/
theorem ofNat_between {low c high : Char} (between : low ≤ c ∧ c ≤ high) :
    Char.ofNat (low.toNat + (c.toNat - low.toNat)) = c := by
  have same : low.toNat + (c.toNat - low.toNat) = c.toNat := by
    have bounds := toNat_between between
    omega
  rw [same, Char.ofNat_toNat]

theorem char_of_sextet? {c : Char} {n : Nat} (stands : sextet? c = some n) :
    n < 64 ∧ char n = c := by
  unfold sextet? at stands
  split at stands
  next upper =>
    have bounds : 65 ≤ c.toNat ∧ c.toNat ≤ 90 := toNat_between upper
    have value : n = c.toNat - 65 := (Option.some.inj stands).symm
    have first : n < 26 := by omega
    refine ⟨by omega, ?_⟩
    rw [char, if_pos first, value]
    exact ofNat_between upper
  next =>
    split at stands
    next lower =>
      have bounds : 97 ≤ c.toNat ∧ c.toNat ≤ 122 := toNat_between lower
      have value : n = c.toNat - 97 + 26 := (Option.some.inj stands).symm
      have notFirst : ¬ n < 26 := by omega
      have second : n < 52 := by omega
      have back : n - 26 = c.toNat - 97 := by omega
      refine ⟨by omega, ?_⟩
      rw [char, if_neg notFirst, if_pos second, back]
      exact ofNat_between lower
    next =>
      split at stands
      next digit =>
        have bounds : 48 ≤ c.toNat ∧ c.toNat ≤ 57 := toNat_between digit
        have value : n = c.toNat - 48 + 52 := (Option.some.inj stands).symm
        have notFirst : ¬ n < 26 := by omega
        have notSecond : ¬ n < 52 := by omega
        have third : n < 62 := by omega
        have back : n - 52 = c.toNat - 48 := by omega
        refine ⟨by omega, ?_⟩
        rw [char, if_neg notFirst, if_neg notSecond, if_pos third, back]
        exact ofNat_between digit
      next =>
        split at stands
        next plus =>
          obtain rfl := Option.some.inj stands
          rw [plus]
          decide
        next =>
          split at stands
          next slash =>
            obtain rfl := Option.some.inj stands
            rw [slash]
            decide
          next => cases stands

/-- A character stands for its place in the alphabet. -/
theorem sextet?_eq_some_iff {c : Char} {n : Nat} :
    sextet? c = some n ↔ alphabet[n]? = some c := by
  constructor
  · intro stands
    obtain ⟨small, same⟩ := char_of_sextet? stands
    rw [getElem?_alphabet small, same]
  · intro placed
    have small : n < 64 := (List.getElem?_eq_some_iff.mp placed).1
    rw [getElem?_alphabet small, Option.some.injEq] at placed
    rw [← placed, sextet?_char small]

/-! ### Groups of characters -/

section Groups

variable {p q r s : Char} {rest : List Char} {bytes : List UInt8}

theorem decode?_one_iff : decode? [p, q, '=', '='] = some bytes ↔
    ∃ m n, sextet? p = some m ∧ sextet? q = some n ∧ n % 16 = 0 ∧
      bytes = [UInt8.ofNat (m * 4 + n / 16)] := by
  simp only [decode?, Option.bind_eq_bind, Option.bind_eq_some_iff, Option.guard_eq_some',
    Option.pure_def, Option.some.injEq]
  constructor
  · rintro ⟨m, first, n, second, _, exact, rfl⟩
    exact ⟨m, n, first, second, exact, rfl⟩
  · rintro ⟨m, n, first, second, exact, rfl⟩
    exact ⟨m, first, n, second, (), exact, rfl⟩

theorem decode?_two_iff (third : r ≠ '=') : decode? [p, q, r, '='] = some bytes ↔
    ∃ m n k, sextet? p = some m ∧ sextet? q = some n ∧ sextet? r = some k ∧ k % 4 = 0 ∧
      bytes = [UInt8.ofNat (m * 4 + n / 16), UInt8.ofNat (n % 16 * 16 + k / 4)] := by
  rw [decode?.eq_3 _ _ _ third]
  simp only [Option.bind_eq_bind, Option.bind_eq_some_iff, Option.guard_eq_some',
    Option.pure_def, Option.some.injEq]
  constructor
  · rintro ⟨m, first, n, second, k, third, _, exact, rfl⟩
    exact ⟨m, n, k, first, second, third, exact, rfl⟩
  · rintro ⟨m, n, k, first, second, third, exact, rfl⟩
    exact ⟨m, first, n, second, k, third, (), exact, rfl⟩

theorem decode?_group_iff (unpadded : s = '=' → rest = [] → False) :
    decode? (p :: q :: r :: s :: rest) = some bytes ↔
      ∃ m n k l tail, sextet? p = some m ∧ sextet? q = some n ∧ sextet? r = some k ∧
        sextet? s = some l ∧ decode? rest = some tail ∧
        bytes = UInt8.ofNat (m * 4 + n / 16) :: UInt8.ofNat (n % 16 * 16 + k / 4) ::
          UInt8.ofNat (k % 4 * 64 + l) :: tail := by
  rw [decode?.eq_4 _ _ _ _ _ (fun _ => unpadded) unpadded]
  simp only [Option.bind_eq_bind, Option.bind_eq_some_iff, Option.pure_def, Option.some.injEq]
  constructor
  · rintro ⟨m, first, n, second, k, third, l, fourth, tail, others, rfl⟩
    exact ⟨m, n, k, l, tail, first, second, third, fourth, others, rfl⟩
  · rintro ⟨m, n, k, l, tail, first, second, third, fourth, others, rfl⟩
    exact ⟨m, first, n, second, k, third, l, fourth, tail, others, rfl⟩

end Groups

/-! ### Reading what was written -/

theorem ofNat_of_eq {byte : UInt8} {n : Nat} (same : byte.toNat = n) : byte = UInt8.ofNat n := by
  rw [← same, UInt8.ofNat_toNat]

theorem decode?_encode (bytes : List UInt8) : decode? (encode bytes) = some bytes := by
  fun_induction encode bytes with
  | case1 => rfl
  | case2 a =>
    have small := a.toNat_lt
    rw [decode?_one_iff]
    refine ⟨_, _, sextet?_char (by omega), sextet?_char (by omega), by omega, ?_⟩
    simp only [List.cons.injEq, and_true]
    exact ofNat_of_eq (by omega)
  | case3 a b =>
    have small := a.toNat_lt
    have smallToo := b.toNat_lt
    rw [decode?_two_iff (char_ne_pad (by omega))]
    refine ⟨_, _, _, sextet?_char (by omega), sextet?_char (by omega), sextet?_char (by omega),
      by omega, ?_⟩
    simp only [List.cons.injEq, and_true]
    exact ⟨ofNat_of_eq (by omega), ofNat_of_eq (by omega)⟩
  | case4 a b c rest ih =>
    have small := a.toNat_lt
    have smallToo := b.toNat_lt
    have smallLast := c.toNat_lt
    rw [decode?_group_iff fun pad _ => char_ne_pad (by omega) pad]
    refine ⟨_, _, _, _, rest, sextet?_char (by omega), sextet?_char (by omega),
      sextet?_char (by omega), sextet?_char (by omega), ih, ?_⟩
    simp only [List.cons.injEq, and_true]
    exact ⟨ofNat_of_eq (by omega), ofNat_of_eq (by omega), ofNat_of_eq (by omega)⟩

/-! ### Writing what was read -/

theorem toNat_ofNat_of_lt {n : Nat} (small : n < 256) : (UInt8.ofNat n).toNat = n :=
  UInt8.toNat_ofNat_of_lt' small

/-- What was read is written again. -/
theorem encode_of_decode? {text : List Char} {bytes : List UInt8}
    (read : decode? text = some bytes) : encode bytes = text := by
  induction text using decode?.induct generalizing bytes with
  | case1 =>
    cases read
    rfl
  | case2 p q =>
    obtain ⟨m, n, first, second, exact, rfl⟩ := decode?_one_iff.mp read
    obtain ⟨small, rfl⟩ := char_of_sextet? first
    obtain ⟨smallToo, rfl⟩ := char_of_sextet? second
    have upper : (m * 4 + n / 16) / 4 = m := by omega
    have lower : (m * 4 + n / 16) % 4 * 16 = n := by omega
    rw [encode, toNat_ofNat_of_lt (by omega), upper, lower]
  | case3 p q r third =>
    obtain ⟨m, n, k, first, second, last, exact, rfl⟩ := (decode?_two_iff third).mp read
    obtain ⟨small, rfl⟩ := char_of_sextet? first
    obtain ⟨smallToo, rfl⟩ := char_of_sextet? second
    obtain ⟨smallLast, rfl⟩ := char_of_sextet? last
    have one : (m * 4 + n / 16) / 4 = m := by omega
    have two : (m * 4 + n / 16) % 4 * 16 + (n % 16 * 16 + k / 4) / 16 = n := by omega
    have three : (n % 16 * 16 + k / 4) % 16 * 4 = k := by omega
    rw [encode, toNat_ofNat_of_lt (by omega), toNat_ofNat_of_lt (by omega), one, two,
      three]
  | case4 p q r s rest _ unpadded ih =>
    obtain ⟨m, n, k, l, tail, first, second, third, fourth, others, rfl⟩ :=
      (decode?_group_iff unpadded).mp read
    obtain ⟨small, rfl⟩ := char_of_sextet? first
    obtain ⟨smallToo, rfl⟩ := char_of_sextet? second
    obtain ⟨smallThird, rfl⟩ := char_of_sextet? third
    obtain ⟨smallLast, rfl⟩ := char_of_sextet? fourth
    have one : (m * 4 + n / 16) / 4 = m := by omega
    have two : (m * 4 + n / 16) % 4 * 16 + (n % 16 * 16 + k / 4) / 16 = n := by omega
    have three : (n % 16 * 16 + k / 4) % 16 * 4 + (k % 4 * 64 + l) / 64 = k := by omega
    have four : (k % 4 * 64 + l) % 64 = l := by omega
    rw [encode, toNat_ofNat_of_lt (by omega), toNat_ofNat_of_lt (by omega),
      toNat_ofNat_of_lt (by omega), one, two, three, four, ih others]
  | case5 text notNil notOne notTwo notGroup =>
    rw [decode?] at read
    · cases read
    all_goals assumption

/-! ### Texts that stand for bytes -/

/-- Groups of four characters of the alphabet. The last group may stand for one byte or for two; its
last character is then one with nothing in the bits that are left over, and it is padded. -/
inductive IsCanonical : List Char → Prop where
  | nil : IsCanonical []
  | one {p q : Char} (first : p ∈ alphabet) (last : ∃ n, alphabet[16 * n]? = some q) :
    IsCanonical [p, q, '=', '=']
  | two {p q r : Char} (first : p ∈ alphabet) (second : q ∈ alphabet)
    (last : ∃ n, alphabet[4 * n]? = some r) : IsCanonical [p, q, r, '=']
  | group {p q r s : Char} {rest : List Char} (each : ∀ c ∈ [p, q, r, s], c ∈ alphabet)
    (tail : IsCanonical rest) : IsCanonical (p :: q :: r :: s :: rest)

theorem mem_alphabet_iff {c : Char} : c ∈ alphabet ↔ ∃ n, sextet? c = some n := by
  simp only [sextet?_eq_some_iff, List.mem_iff_getElem?]

theorem pad_not_mem_alphabet : '=' ∉ alphabet := by decide

theorem isCanonical_of_decode? {text : List Char} {bytes : List UInt8}
    (read : decode? text = some bytes) : IsCanonical text := by
  induction text using decode?.induct generalizing bytes with
  | case1 => exact .nil
  | case2 p q =>
    obtain ⟨m, n, first, second, exact, -⟩ := decode?_one_iff.mp read
    refine .one (mem_alphabet_iff.mpr ⟨m, first⟩) ⟨n / 16, ?_⟩
    have whole : 16 * (n / 16) = n := by omega
    rw [whole]
    exact sextet?_eq_some_iff.mp second
  | case3 p q r third =>
    obtain ⟨m, n, k, first, second, last, exact, -⟩ := (decode?_two_iff third).mp read
    refine .two (mem_alphabet_iff.mpr ⟨m, first⟩) (mem_alphabet_iff.mpr ⟨n, second⟩)
      ⟨k / 4, ?_⟩
    have whole : 4 * (k / 4) = k := by omega
    rw [whole]
    exact sextet?_eq_some_iff.mp last
  | case4 p q r s rest _ unpadded ih =>
    obtain ⟨m, n, k, l, tail, first, second, third, fourth, others, -⟩ :=
      (decode?_group_iff unpadded).mp read
    refine .group ?_ (ih others)
    simp only [List.forall_mem_cons, mem_alphabet_iff]
    exact ⟨⟨m, first⟩, ⟨n, second⟩, ⟨k, third⟩, ⟨l, fourth⟩, List.forall_mem_nil _⟩
  | case5 text notNil notOne notTwo notGroup =>
    rw [decode?] at read
    · cases read
    all_goals assumption

theorem exists_decode?_of_isCanonical {text : List Char} (canonical : IsCanonical text) :
    ∃ bytes, decode? text = some bytes := by
  induction canonical with
  | nil => exact ⟨[], rfl⟩
  | one first last =>
    obtain ⟨m, first⟩ := mem_alphabet_iff.mp first
    obtain ⟨n, last⟩ := last
    have second := sextet?_eq_some_iff.mpr last
    exact ⟨_, decode?_one_iff.mpr ⟨m, 16 * n, first, second, by omega, rfl⟩⟩
  | @two p q r first second last =>
    obtain ⟨m, first⟩ := mem_alphabet_iff.mp first
    obtain ⟨n, second⟩ := mem_alphabet_iff.mp second
    obtain ⟨k, last⟩ := last
    have third := sextet?_eq_some_iff.mpr last
    have notPad : r ≠ '=' := by
      rintro rfl
      exact pad_not_mem_alphabet (List.mem_of_getElem? last)
    exact ⟨_, (decode?_two_iff notPad).mpr ⟨m, n, 4 * k, first, second, third, by omega, rfl⟩⟩
  | @group p q r s rest each _ ih =>
    obtain ⟨tail, others⟩ := ih
    simp only [List.forall_mem_cons, mem_alphabet_iff] at each
    obtain ⟨⟨m, first⟩, ⟨n, second⟩, ⟨k, third⟩, ⟨l, fourth⟩, -⟩ := each
    have unpadded : s = '=' → rest = [] → False := by
      rintro rfl -
      cases fourth
    exact ⟨_, (decode?_group_iff unpadded).mpr
      ⟨m, n, k, l, tail, first, second, third, fourth, others, rfl⟩⟩

/-- What can be read is what is canonical. -/
theorem decode?_eq_some_iff_isCanonical (text : List Char) :
    (∃ bytes, decode? text = some bytes) ↔ IsCanonical text :=
  ⟨fun ⟨_, read⟩ => isCanonical_of_decode? read, exists_decode?_of_isCanonical⟩

end DocQuery.Base64
