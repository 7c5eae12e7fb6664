import SwiftProjectKit.Strings.Percent

namespace Strings

open Percent

variable {s t : String} {bs : List UInt8} {b : UInt8}

theorem toByteArray_bytes : (bytes s).toByteArray = s.toByteArray :=
  ByteArray.ext <| by rw [List.data_toByteArray, bytes, Array.toArray_toList]

theorem bytes_inj : bytes s = bytes t ↔ s = t := by
  rw [← String.toByteArray_inj, ← toByteArray_bytes, ← toByteArray_bytes, List.toByteArray_inj]

theorem bytes_append : bytes (s ++ t) = bytes s ++ bytes t := by
  rw [bytes, String.toByteArray_append, ByteArray.data_append, Array.toList_append, bytes, bytes]

theorem fromUTF8?_bytes : String.fromUTF8? (bytes s).toByteArray = some s := by
  rw [toByteArray_bytes, String.fromUTF8?, dif_pos s.isValidUTF8]
  rfl

theorem utf8EncodeChar_of_lt (h : b < 128) : String.utf8EncodeChar (Char.ofNat b.toNat) = [b] := by
  have hd : ∀ n : Fin 128, String.utf8EncodeChar (Char.ofNat n) = [UInt8.ofNat n] := by decide
  have hb := hd ⟨b.toNat, UInt8.lt_iff_toNat_lt.mp h⟩
  rwa [UInt8.ofNat_toNat] at hb

theorem isValidUTF8_of_lt (h : ∀ b ∈ bs, b < 128) : bs.toByteArray.IsValidUTF8 := by
  induction bs
  case nil => exact ByteArray.isValidUTF8_empty
  case cons b bs hi =>
    rw [List.forall_mem_cons] at h
    have hb := Char.isValidUTF8_toByteArray_utf8EncodeChar (c := Char.ofNat b.toNat)
    rw [utf8EncodeChar_of_lt h.left] at hb
    have ha := hb.append <| hi h.right
    rwa [← List.toByteArray_append, List.singleton_append] at ha

theorem fromUTF8?_of_lt (h : ∀ b ∈ bs, b < 128) : ∃ t, String.fromUTF8? bs.toByteArray = some t ∧ bytes t = bs := by
  refine ⟨_, dif_pos <| isValidUTF8_of_lt h, ?_⟩
  rw [bytes, String.fromUTF8, List.data_toByteArray]

theorem not_isAllowed_sign : ¬isAllowed urlQueryAllowed sign := by
  have hl : urlQueryAllowed = _ := String.toList_ofList
  rw [hl]
  decide

theorem toNat_ofNat_byte : (Char.ofNat b.toNat).toNat = b.toNat := by
  have hv : b.toNat.isValidChar := .inl <| b.toNat_lt.trans <| by decide
  rw [Char.ofNat, dif_pos hv]
  rfl

theorem lt_of_isAllowed (b : UInt8) (h : isAllowed urlQueryAllowed b) : b < 128 := by
  have hl : urlQueryAllowed = _ := String.toList_ofList
  have hd : urlQueryAllowed.all (·.toNat < 128) := by
    rw [hl]
    rfl
  have hc := of_decide_eq_true <| List.all_eq_true.mp hd _ <| of_decide_eq_true h
  rw [toNat_ofNat_byte] at hc
  exact UInt8.lt_iff_toNat_lt.mpr hc

theorem isAllowed_digit {n : Nat} (h : n < 16) : isAllowed urlQueryAllowed (digit n) := by
  have hl : urlQueryAllowed = _ := String.toList_ofList
  have hd : ∀ n : Fin 16, isAllowed urlQueryAllowed (digit n) := by
    rw [hl]
    decide
  exact hd ⟨n, h⟩

theorem addingPercentEncoding_urlQueryAllowed :
    addingPercentEncoding s urlQueryAllowed = some (urlEncoded s) ∧
      bytes (urlEncoded s) = encode (isAllowed urlQueryAllowed) (bytes s) := by
  have hl (c) (h : c ∈ encode (isAllowed urlQueryAllowed) (bytes s)) : c < 128 := lt_of_mem_encode lt_of_isAllowed h
  have ⟨t, ht, hb⟩ := fromUTF8?_of_lt hl
  have he : addingPercentEncoding s urlQueryAllowed = some t := ht
  rw [urlEncoded, he]
  exact ⟨rfl, hb⟩

theorem bytes_urlEncoded : bytes (urlEncoded s) = encode (isAllowed urlQueryAllowed) (bytes s) :=
  addingPercentEncoding_urlQueryAllowed.right

theorem removingPercentEncoding_urlEncoded : removingPercentEncoding (urlEncoded s) = some s := by
  rw [removingPercentEncoding, bytes_urlEncoded, decode_encode not_isAllowed_sign, Option.bind_some, fromUTF8?_bytes]

theorem urlDecoded_urlEncoded : urlDecoded (urlEncoded s) = s := by
  rw [urlDecoded, removingPercentEncoding_urlEncoded, Option.getD_some]

theorem urlEncoded_append : urlEncoded (s ++ t) = urlEncoded s ++ urlEncoded t := by
  rw [← bytes_inj, bytes_append, bytes_urlEncoded, bytes_urlEncoded, bytes_urlEncoded, bytes_append, encode_append]

theorem urlEncoded_empty : urlEncoded "" = "" := by
  rw [← bytes_inj, bytes_urlEncoded]
  rfl

theorem urlEncoded_ne_empty (h : s ≠ "") : urlEncoded s ≠ "" := by
  intro he
  rw [← urlEncoded_empty] at he
  rw [← urlDecoded_urlEncoded (s := s), he, urlDecoded_urlEncoded] at h
  exact h rfl

theorem isAllowed_of_mem_urlEncoded (h : b ∈ bytes (urlEncoded s)) : isAllowed urlQueryAllowed b ∨ b = sign := by
  rw [bytes_urlEncoded] at h
  obtain h | h | ⟨n, hn, rfl⟩ := mem_encode h
  · exact .inl h
  · exact .inr h
  · exact .inl <| isAllowed_digit hn

theorem urlEncoded_urlEncoded_iff :
    urlEncoded (urlEncoded s) = urlEncoded s ↔ ∀ b ∈ bytes s, isAllowed urlQueryAllowed b := by
  rw [← bytes_inj, bytes_urlEncoded, bytes_urlEncoded, encode_encode_iff not_isAllowed_sign]

theorem linkString_some : linkString (some s) = some (urlEncoded s) :=
  addingPercentEncoding_urlQueryAllowed.left

-- A string that is encoded has characters of a query and percent signs alone, and is read as the string again. A link
-- that is typed in its encoded form is encoded a second time, unless there is nothing to encode in it.
theorem urlEncoded_reads :
    urlDecoded (urlEncoded s) = s ∧ urlEncoded (s ++ t) = urlEncoded s ++ urlEncoded t ∧
      (∀ b ∈ bytes (urlEncoded s), isAllowed urlQueryAllowed b ∨ b = sign) ∧
      (linkString (linkString (some s)) = linkString (some s) ↔ ∀ b ∈ bytes s, isAllowed urlQueryAllowed b) := by
  refine ⟨urlDecoded_urlEncoded, urlEncoded_append, fun _ => isAllowed_of_mem_urlEncoded, ?_⟩
  rw [linkString_some, linkString_some, Option.some_inj, urlEncoded_urlEncoded_iff]

end Strings
