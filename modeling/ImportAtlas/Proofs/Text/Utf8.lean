import ImportAtlas.Text.Utf8
import Mathlib

/-!
# Text and its bytes

The bytes of a text are those of its characters, and decoding them gives the text back.
-/

namespace ImportAtlas.Text

variable {k value low high more : Nat}

/-! ## Bytes -/

theorem toList_loop (bytes : ByteArray) (i : Nat) (front : List UInt8) :
    ByteArray.toList.loop bytes i front = front.reverse ++ bytes.data.toList.drop i := by
  rw [ByteArray.toList.loop]
  split
  next hi =>
    have hlength : i < bytes.data.toList.length := hi
    have hget : bytes.get! i = bytes.data.toList[i] := getElem!_pos bytes.data i hi
    rw [toList_loop bytes (i + 1), List.reverse_cons, List.append_assoc, hget,
      List.drop_eq_getElem_cons hlength]
    rfl
  next hi =>
    rw [List.drop_eq_nil_of_le, List.append_nil]
    exact Nat.le_of_not_lt hi
termination_by bytes.size - i

def charBytes (c : Char) : List Nat := (String.utf8EncodeChar c).map UInt8.toNat

theorem bytesOf_eq (s : String) : bytesOf s = s.toList.flatMap charBytes := by
  rw [bytesOf, ByteArray.toList, toList_loop, String.toUTF8, ← String.utf8Encode_toList,
    List.utf8Encode, List.toList_data_toByteArray, List.reverse_nil, List.nil_append,
    List.drop_zero, List.map_flatMap]
  rfl

theorem charBytes_eq (c : Char) : charBytes c =
    if c.toNat < 0x80 then [c.toNat]
    else if c.toNat < 0x800 then [c.toNat / 64 + 0xc0, c.toNat % 64 + 0x80]
    else if c.toNat < 0x10000 then
      [c.toNat / 4096 + 0xe0, c.toNat / 64 % 64 + 0x80, c.toNat % 64 + 0x80]
    else [c.toNat / 262144 + 0xf0, c.toNat / 4096 % 64 + 0x80, c.toNat / 64 % 64 + 0x80,
      c.toNat % 64 + 0x80] := by
  have hc : c.val.toNat = c.toNat := rfl
  have hbound : c.toNat < 0x110000 := by
    rcases c.valid with h | h <;> simp only [hc] at h <;> omega
  rw [charBytes, String.utf8EncodeChar]
  simp only [hc]
  split_ifs <;> simp <;> omega

/-! ## Decoding -/

theorem decodeFrom_lead {b : Nat} (hb : 0x80 ≤ b) (hlead : lead? b = some ⟨value, low, high, more⟩)
    (rest : List Nat) :
    decodeFrom none (b :: rest) = decodeFrom (some ⟨value, low, high, more⟩) rest := by
  rw [decodeFrom, decodeFrom.start, if_neg (Nat.not_lt.mpr hb), hlead]

theorem decodeFrom_more (hlow : low ≤ k + 0x80) (hhigh : k + 0x80 ≤ high) (rest : List Nat) :
    decodeFrom (some ⟨value, low, high, more + 2⟩) ((k + 0x80) :: rest) =
      decodeFrom (some ⟨value * 64 + k, 0x80, 0xbf, more + 1⟩) rest := by
  rw [decodeFrom]
  simp [hlow, hhigh]

theorem decodeFrom_last (hlow : low ≤ k + 0x80) (hhigh : k + 0x80 ≤ high) (rest : List Nat) :
    decodeFrom (some ⟨value, low, high, 1⟩) ((k + 0x80) :: rest) =
      Char.ofNat (value * 64 + k) :: decodeFrom none rest := by
  rw [decodeFrom]
  simp [hlow, hhigh]

theorem lead?_two (hlow : 2 ≤ k) (hhigh : k < 32) :
    lead? (k + 0xc0) = some ⟨k, 0x80, 0xbf, 1⟩ := by
  interval_cases k <;> rfl

theorem lead?_three (hk : k < 16) :
    lead? (k + 0xe0) =
      some ⟨k, if k = 0 then 0xa0 else 0x80, if k = 13 then 0x9f else 0xbf, 2⟩ := by
  interval_cases k <;> rfl

theorem lead?_four (hk : k < 5) :
    lead? (k + 0xf0) =
      some ⟨k, if k = 0 then 0x90 else 0x80, if k = 4 then 0x8f else 0xbf, 3⟩ := by
  interval_cases k <;> rfl

theorem decodeFrom_charBytes (c : Char) (rest : List Nat) :
    decodeFrom none (charBytes c ++ rest) = c :: decodeFrom none rest := by
  have hvalid : c.toNat < 0xd800 ∨ 0xdfff < c.toNat ∧ c.toNat < 0x110000 := c.valid
  have hvalue {n : Nat} (hn : n = c.toNat) : Char.ofNat n = c := hn ▸ Char.ofNat_toNat c
  rw [charBytes_eq]
  generalize hn : c.toNat = n at hvalid hvalue ⊢
  -- One case for each number of bytes: the first byte says how many follow and bounds the second.
  split_ifs with hone htwo hthree
  · rw [List.singleton_append, decodeFrom, decodeFrom.start, if_pos hone, hvalue rfl]
  · rw [List.cons_append, List.singleton_append,
      decodeFrom_lead (by omega) (lead?_two (by omega) (by omega)),
      decodeFrom_last (by omega) (by omega), hvalue (by omega)]
  · rw [List.cons_append, List.cons_append, List.singleton_append,
      decodeFrom_lead (by omega) (lead?_three (by omega)),
      decodeFrom_more (by split <;> omega) (by split <;> omega),
      decodeFrom_last (by omega) (by omega), hvalue (by omega)]
  · rw [List.cons_append, List.cons_append, List.cons_append, List.singleton_append,
      decodeFrom_lead (by omega) (lead?_four (by omega)),
      decodeFrom_more (by split <;> omega) (by split <;> omega),
      decodeFrom_more (by omega) (by omega), decodeFrom_last (by omega) (by omega),
      hvalue (by omega)]

theorem decodeLossy_bytesOf (s : String) : decodeLossy (bytesOf s) = s := by
  have hdecode (cs : List Char) : decodeFrom none (cs.flatMap charBytes) = cs := by
    induction cs with
    | nil => rw [List.flatMap_nil, decodeFrom]
    | cons c cs ih => rw [List.flatMap_cons, decodeFrom_charBytes, ih]
  rw [decodeLossy, bytesOf_eq, hdecode, String.ofList_toList]

end ImportAtlas.Text
