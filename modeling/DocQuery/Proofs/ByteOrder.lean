import Mathlib.Data.List.Lex
import Mathlib.Tactic.SplitIfs

/-!
# DocQuery.Proofs.ByteOrder

The order of texts is that of their bytes.

Texts are compared character by character. In UTF-8 a greater character has a greater first byte
where the lengths differ, and greater digits to base 64 where they do not, so comparing the bytes
comes to the same.

## Main result

`bytesOf_lt_iff`: one text is below another just if its bytes are.
-/

namespace DocQuery

/-- The bytes of a text in UTF-8. -/
def bytesOf (text : String) : List UInt8 :=
  text.toUTF8.data.toList

theorem bytesOf_eq (text : String) : bytesOf text = text.toList.flatMap String.utf8EncodeChar := by
  calc bytesOf text
      = (String.ofList text.toList).toByteArray.data.toList := by
        rw [bytesOf, String.toUTF8_eq_toByteArray, String.ofList_toList]
    _ = text.toList.flatMap String.utf8EncodeChar := by
        rw [String.toByteArray_ofList, List.utf8Encode, List.data_toByteArray]

section Bytes

variable {m n : Nat}

theorem ofNat_lt_ofNat_iff (hm : m < 256) (hn : n < 256) :
    UInt8.ofNat m < UInt8.ofNat n ↔ m < n := by
  rw [UInt8.lt_iff_toNat_lt, UInt8.toNat_ofNat_of_lt' hm, UInt8.toNat_ofNat_of_lt' hn]

theorem ofNat_eq_ofNat_iff (hm : m < 256) (hn : n < 256) :
    UInt8.ofNat m = UInt8.ofNat n ↔ m = n := by
  rw [← UInt8.toNat_inj, UInt8.toNat_ofNat_of_lt' hm, UInt8.toNat_ofNat_of_lt' hn]

end Bytes

/-- The bytes of a lesser character are below those of a greater one, whatever comes behind. -/
theorem utf8EncodeChar_append_lt {c d : Char} (less : c < d) (xs ys : List UInt8) :
    String.utf8EncodeChar c ++ xs < String.utf8EncodeChar d ++ ys := by
  have order : c.val.toNat < d.val.toNat := less
  have bound : d.val.toNat < 1114112 := by
    rcases d.valid with low | ⟨-, high⟩
    · exact low.trans (by decide)
    · exact high
  -- The digits are those of one number to one base.
  have twice (n : Nat) : n / 4096 = n / 64 / 64 := (Nat.div_div_eq_div_mul n 64 64).symm
  have thrice (n : Nat) : n / 262144 = n / 64 / 64 / 64 := by
    rw [Nat.div_div_eq_div_mul, Nat.div_div_eq_div_mul]
  simp only [String.utf8EncodeChar, twice, thrice]
  generalize c.val.toNat = v at *
  generalize d.val.toNat = w at *
  split_ifs <;> first
    | omega
    | simp (disch := omega) only [List.cons_append, List.nil_append, List.cons_lt_cons_iff,
        ofNat_lt_ofNat_iff, ofNat_eq_ofNat_iff]
      omega

theorem flatMap_utf8EncodeChar_lt {cs ds : List Char} (less : cs < ds) :
    cs.flatMap String.utf8EncodeChar < ds.flatMap String.utf8EncodeChar := by
  induction less with
  | @nil d ds =>
    obtain ⟨byte, others, encoded⟩ :=
      List.exists_cons_of_ne_nil (String.utf8EncodeChar_ne_nil (c := d))
    rw [List.flatMap_cons, encoded]
    exact List.nil_lt_cons _ _
  | cons _ ih => exact List.append_left_lt ih
  | rel less => exact utf8EncodeChar_append_lt less _ _

/-- Comparing the bytes of texts is comparing the texts. -/
theorem bytesOf_lt_iff {s t : String} : bytesOf s < bytesOf t ↔ s < t := by
  have increasing : ∀ {s t : String}, s < t → bytesOf s < bytesOf t := by
    intro s t less
    rw [bytesOf_eq, bytesOf_eq]
    exact flatMap_utf8EncodeChar_lt less
  constructor
  · intro less
    by_contra notLess
    rcases eq_or_ne s t with rfl | apart
    · exact Std.lt_irrefl less
    · have greater : t < s := Std.lt_of_le_of_ne (Std.not_lt.mp notLess) apart.symm
      exact Std.lt_irrefl (Std.lt_trans less (increasing greater))
  · exact increasing

end DocQuery
