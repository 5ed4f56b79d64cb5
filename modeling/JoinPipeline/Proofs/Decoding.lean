import JoinPipeline.Text.Lines
import Mathlib.Tactic.IntervalCases

/-!
# Text that was encoded

What is written to a capture is the encoding of a text, and it is read back as that text. A first
byte tells how many more there are to come and in which range the next one is, and every byte
behind it adds six bits; so the bytes of a character give the character and leave nothing pending.
-/

namespace JoinPipeline.Text

section Bytes

theorem toList_loop (bytes : ByteArray) (i : Nat) (taken : List UInt8) :
    ByteArray.toList.loop bytes i taken = taken.reverse ++ bytes.data.toList.drop i := by
  fun_induction ByteArray.toList.loop bytes i taken with
  | case1 i taken hlt ih =>
    have hi : i < bytes.data.toList.length := hlt
    have hget : bytes.get! i = bytes.data.toList[i] := by
      show bytes.data[i]! = bytes.data.toList[i]
      rw [getElem!_pos bytes.data i hlt, Array.getElem_toList]
    rw [ih, List.drop_eq_getElem_cons hi, hget, List.reverse_cons, List.append_assoc]
    rfl
  | case2 i taken hge =>
    have hi : bytes.data.toList.length ≤ i := Nat.le_of_not_lt hge
    rw [List.drop_eq_nil_of_le hi, List.append_nil]

theorem toList_bytes (bytes : ByteArray) : bytes.toList = bytes.data.toList := by
  rw [ByteArray.toList, toList_loop]
  rfl

theorem toList_append (a b : ByteArray) : (a ++ b).toList = a.toList ++ b.toList := by
  rw [toList_bytes, toList_bytes, toList_bytes, ByteArray.toList_data_append]

theorem toList_toUTF8 (s : String) : s.toUTF8.toList = s.toList.flatMap String.utf8EncodeChar := by
  rw [toList_bytes, String.toUTF8_eq_toByteArray, ← String.utf8Encode_toList, List.utf8Encode,
    List.toList_data_toByteArray]

end Bytes

section Characters

variable {n : Nat} {p : Pending}

theorem lead?_one (h : n < 0x80) : lead? (UInt8.ofNat n) = some ⟨n, 0, 0x80, 0xBF⟩ := by
  interval_cases n <;> rfl

theorem lead?_two (hlow : 2 ≤ n) (hhigh : n < 0x20) :
    lead? (UInt8.ofNat (n + 0xC0)) = some ⟨n, 1, 0x80, 0xBF⟩ := by
  interval_cases n <;> rfl

theorem lead?_three (h : n < 0x10) : lead? (UInt8.ofNat (n + 0xE0)) =
    some ⟨n, 2, if n = 0 then 0xA0 else 0x80, if n = 0xD then 0x9F else 0xBF⟩ := by
  interval_cases n <;> rfl

theorem lead?_four (h : n ≤ 4) : lead? (UInt8.ofNat (n + 0xF0)) =
    some ⟨n, 3, if n = 0 then 0x90 else 0x80, if n = 4 then 0x8F else 0xBF⟩ := by
  interval_cases n <;> rfl

theorem decodeFrom_cons (pending : Option Pending) (b : UInt8) (bytes : List UInt8) :
    decodeFrom pending (b :: bytes) =
      (takeByte pending b).1 ++ decodeFrom (takeByte pending b).2 bytes := rfl

/-- A byte in the range that is asked for adds its six bits. -/
theorem takeByte_pending (hn : n < 0x40) (hlow : p.low.toNat ≤ n + 0x80)
    (hhigh : n + 0x80 ≤ p.high.toNat) : takeByte (some p) (UInt8.ofNat (n + 0x80)) =
      if p.following ≤ 1 then ([Char.ofNat (p.bits * 0x40 + n)], none)
      else ([], some ⟨p.bits * 0x40 + n, p.following - 1, 0x80, 0xBF⟩) := by
  have hbyte : (UInt8.ofNat (n + 0x80)).toNat = n + 0x80 := by
    rw [UInt8.toNat_ofNat']
    omega
  have hrange : p.low ≤ UInt8.ofNat (n + 0x80) ∧ UInt8.ofNat (n + 0x80) ≤ p.high := by
    rw [UInt8.le_iff_toNat_le, UInt8.le_iff_toNat_le, hbyte]
    exact ⟨hlow, hhigh⟩
  simp only [takeByte, if_pos hrange, hbyte, Nat.add_sub_cancel]

/-- The last byte of a character ends it. -/
theorem decodeFrom_last {c : Char} {bytes : List UInt8} (hn : n < 0x40)
    (hlow : p.low.toNat ≤ n + 0x80) (hhigh : n + 0x80 ≤ p.high.toNat) (hlast : p.following = 1)
    (hc : p.bits * 0x40 + n = c.toNat) :
    decodeFrom (some p) (UInt8.ofNat (n + 0x80) :: bytes) = c :: decodeFrom none bytes := by
  rw [decodeFrom_cons, takeByte_pending hn hlow hhigh, if_pos hlast.le, hc, Char.ofNat_toNat]
  rfl

theorem decodeFrom_pending {bytes : List UInt8} (hn : n < 0x40) (hlow : p.low.toNat ≤ n + 0x80)
    (hhigh : n + 0x80 ≤ p.high.toNat) (hmore : 1 < p.following) :
    decodeFrom (some p) (UInt8.ofNat (n + 0x80) :: bytes) =
      decodeFrom (some ⟨p.bits * 0x40 + n, p.following - 1, 0x80, 0xBF⟩) bytes := by
  rw [decodeFrom_cons, takeByte_pending hn hlow hhigh, if_neg (Nat.not_le.2 hmore)]
  rfl

/-- A first byte that is to be followed by others leaves its bits pending. -/
theorem decodeFrom_lead {b low high : UInt8} {following : Nat}
    (h : lead? b = some ⟨n, following, low, high⟩) (hmore : following ≠ 0) (bytes : List UInt8) :
    decodeFrom none (b :: bytes) = decodeFrom (some ⟨n, following, low, high⟩) bytes := by
  have hstart : start b = ([], some ⟨n, following, low, high⟩) := by
    simp only [start, h, if_neg hmore]
  show (start b).1 ++ decodeFrom (start b).2 bytes = _
  rw [hstart]
  rfl

variable {c : Char} {x y z : Nat} {bytes : List UInt8}

theorem decodeFrom_one (hc : c.toNat < 0x80) :
    decodeFrom none (UInt8.ofNat c.toNat :: bytes) = c :: decodeFrom none bytes := by
  have hstart : start (UInt8.ofNat c.toNat) = ([c], none) := by
    simp only [start, lead?_one hc, if_pos, Char.ofNat_toNat]
  show (start _).1 ++ decodeFrom (start _).2 bytes = _
  rw [hstart]
  rfl

/-- The upper end of the range that is usual for a byte behind the first one. -/
theorem add_le_high (hy : y < 0x40) : y + 0x80 ≤ (0xBF : UInt8).toNat :=
  Nat.add_le_add_right (Nat.le_of_lt_succ hy) 0x80

theorem decodeFrom_two (hx : 2 ≤ x ∧ x < 0x20) (hy : y < 0x40) (hc : x * 0x40 + y = c.toNat) :
    decodeFrom none (UInt8.ofNat (x + 0xC0) :: UInt8.ofNat (y + 0x80) :: bytes) =
      c :: decodeFrom none bytes := by
  rw [decodeFrom_lead (lead?_two hx.1 hx.2) Nat.one_ne_zero]
  exact decodeFrom_last hy (Nat.le_add_left _ _) (add_le_high hy) rfl hc

/-- Three bytes have room for too much: the range of the second one leaves out what two bytes are
enough for, and the surrogates. -/
theorem decodeFrom_three (hx : x < 0x10) (hy : y < 0x40) (hz : z < 0x40)
    (hshort : x = 0 → 0x20 ≤ y) (hsurrogate : x = 0xD → y < 0x20)
    (hc : (x * 0x40 + y) * 0x40 + z = c.toNat) :
    decodeFrom none (UInt8.ofNat (x + 0xE0) :: UInt8.ofNat (y + 0x80) :: UInt8.ofNat (z + 0x80) ::
      bytes) = c :: decodeFrom none bytes := by
  have hlow : (if x = 0 then 0xA0 else 0x80 : UInt8).toNat ≤ y + 0x80 := by
    split
    next h => exact Nat.add_le_add_right (hshort h) 0x80
    next => exact Nat.le_add_left _ _
  have hhigh : y + 0x80 ≤ (if x = 0xD then 0x9F else 0xBF : UInt8).toNat := by
    split
    next h => exact Nat.add_le_add_right (Nat.le_of_lt_succ (hsurrogate h)) 0x80
    next => exact add_le_high hy
  rw [decodeFrom_lead (lead?_three hx) (Nat.succ_ne_zero _),
    decodeFrom_pending hy hlow hhigh Nat.one_lt_two]
  exact decodeFrom_last hz (Nat.le_add_left _ _) (add_le_high hz) rfl hc

/-- Four bytes have room for too much as well: the second one leaves out what three bytes are enough
for, and what lies above the last character. -/
theorem decodeFrom_four {w : Nat} (hw : w ≤ 4) (hx : x < 0x40) (hy : y < 0x40) (hz : z < 0x40)
    (hshort : w = 0 → 0x10 ≤ x) (habove : w = 4 → x < 0x10)
    (hc : ((w * 0x40 + x) * 0x40 + y) * 0x40 + z = c.toNat) :
    decodeFrom none (UInt8.ofNat (w + 0xF0) :: UInt8.ofNat (x + 0x80) :: UInt8.ofNat (y + 0x80) ::
      UInt8.ofNat (z + 0x80) :: bytes) = c :: decodeFrom none bytes := by
  have hlow : (if w = 0 then 0x90 else 0x80 : UInt8).toNat ≤ x + 0x80 := by
    split
    next h => exact Nat.add_le_add_right (hshort h) 0x80
    next => exact Nat.le_add_left _ _
  have hhigh : x + 0x80 ≤ (if w = 4 then 0x8F else 0xBF : UInt8).toNat := by
    split
    next h => exact Nat.add_le_add_right (Nat.le_of_lt_succ (habove h)) 0x80
    next => exact add_le_high hx
  rw [decodeFrom_lead (lead?_four hw) (Nat.succ_ne_zero _),
    decodeFrom_pending hx hlow hhigh (Nat.succ_lt_succ Nat.two_pos),
    decodeFrom_pending hy (Nat.le_add_left _ _) (add_le_high hy) Nat.one_lt_two]
  exact decodeFrom_last hz (Nat.le_add_left _ _) (add_le_high hz) rfl hc

/-- The bytes of a character are read as this character, by the number of bytes that it has. -/
theorem decodeFrom_utf8EncodeChar (c : Char) (bytes : List UInt8) :
    decodeFrom none (String.utf8EncodeChar c ++ bytes) = c :: decodeFrom none bytes := by
  have hvalid : c.toNat < 0xD800 ∨ 0xDFFF < c.toNat ∧ c.toNat < 0x110000 := c.valid
  have hval : c.val.toNat = c.toNat := rfl
  unfold String.utf8EncodeChar
  show decodeFrom none ((if c.toNat ≤ 0x7f then _ else if c.toNat ≤ 0x7ff then _ else
    if c.toNat ≤ 0xffff then _ else _) ++ bytes) = _
  split
  next hone => exact decodeFrom_one (by omega)
  split
  next htwo => exact decodeFrom_two (by omega) (by omega) (by omega)
  split
  next hthree =>
    exact decodeFrom_three (by omega) (by omega) (by omega) (by omega) (by omega) (by omega)
  next hfour =>
    exact decodeFrom_four (by omega) (by omega) (by omega) (by omega) (by omega) (by omega)
      (by omega)

theorem decode_flatMap (cs : List Char) : decode (cs.flatMap String.utf8EncodeChar) = cs := by
  unfold decode
  induction cs with
  | nil => rfl
  | cons c cs ih => rw [List.flatMap_cons, decodeFrom_utf8EncodeChar, ih]

end Characters

/-- Encoded text is read back. -/
theorem decode_toUTF8 (s : String) : decode s.toUTF8.toList = s.toList := by
  rw [toList_toUTF8, decode_flatMap]

/-- A character each of one, two, three and four bytes. -/
example : decode "zß水😀".toUTF8.toList = ['z', 'ß', '水', '😀'] := by cbv

end JoinPipeline.Text
