import Mathlib.Order.Basic

/-!
# The order of texts

Texts are compared character by character, and hosts compare them byte by byte. UTF-8 makes no
difference between the two: a character with a smaller number begins, byte for byte, before one with a
greater number, whatever follows either of them.
-/

namespace Rollout.Text

def bytesOf (text : String) : List UInt8 :=
  text.toByteArray.data.toList

theorem bytesOf_eq_flatMap (text : String) :
    bytesOf text = text.toList.flatMap String.utf8EncodeChar := by
  rw [bytesOf, ← String.ofList_toList (s := text), String.toByteArray_ofList, String.toList_ofList]
  simp [List.utf8Encode]

theorem ofNat_lt_ofNat_iff {m n : Nat} (small : m < 256) (smaller : n < 256) :
    UInt8.ofNat m < UInt8.ofNat n ↔ m < n := by
  rw [UInt8.lt_iff_toNat_lt]
  simp [Nat.mod_eq_of_lt small, Nat.mod_eq_of_lt smaller]

theorem ofNat_eq_ofNat_iff {m n : Nat} (small : m < 256) (smaller : n < 256) :
    UInt8.ofNat m = UInt8.ofNat n ↔ m = n := by
  rw [← UInt8.toNat_inj]
  simp [Nat.mod_eq_of_lt small, Nat.mod_eq_of_lt smaller]

/-- No encoding of a character begins another, so the first two characters decide. -/
theorem utf8EncodeChar_append_lt {c d : Char} (less : c < d) (after later : List UInt8) :
    String.utf8EncodeChar c ++ after < String.utf8EncodeChar d ++ later := by
  have order : c.val.toNat < d.val.toNat := less
  have bound : d.val.toNat < 0x110000 := by
    rcases d.valid with below | ⟨_, above⟩ <;> omega
  have twice (k : Nat) : k / 4096 = k / 64 / 64 := by omega
  have thrice (k : Nat) : k / 262144 = k / 64 / 64 / 64 := by omega
  unfold String.utf8EncodeChar
  simp only [twice, thrice]
  generalize c.val.toNat = m at *
  generalize d.val.toNat = n at *
  -- One case for each pair of sizes; those that the order of the numbers rules out go with the rest.
  repeat' split
  all_goals simp (disch := omega) only [List.cons_append, List.nil_append, List.cons_lt_cons_iff,
    ofNat_lt_ofNat_iff, ofNat_eq_ofNat_iff]
  all_goals omega

theorem bytesOf_lt {a b : String} (less : a < b) : bytesOf a < bytesOf b := by
  have characters {s t : List Char} (less : s < t) :
      s.flatMap String.utf8EncodeChar < t.flatMap String.utf8EncodeChar := by
    induction less with
    | @nil c rest =>
      rw [List.flatMap_nil, List.flatMap_cons]
      cases encoded : String.utf8EncodeChar c with
      | nil => exact absurd encoded String.utf8EncodeChar_ne_nil
      | cons byte bytes => exact .nil
    | rel less => exact utf8EncodeChar_append_lt less _ _
    | cons _ ih => exact List.append_left_lt ih
  rw [bytesOf_eq_flatMap, bytesOf_eq_flatMap]
  exact characters less

end Rollout.Text
