import Mathlib.Data.List.Flatten
import SwiftProjectKit.Primitives.Hexadecimal

-- Bytes that are written with escapes: a percent sign in front of two hexadecimal digits.
namespace Percent

variable {p : UInt8 → Bool} {b c : UInt8} {bs bs' : List UInt8} {n : Nat}

def sign : UInt8 := 37

def digit (n : Nat) : UInt8 :=
  UInt8.ofNat <| if n < 10 then '0'.toNat + n else 'A'.toNat + (n - 10)

def value (b : UInt8) : Option Nat :=
  Hexadecimal.digit <| Char.ofNat b.toNat

def encodeByte (p : UInt8 → Bool) (b : UInt8) : List UInt8 :=
  if p b then [b] else [sign, digit (b.toNat / 16), digit (b.toNat % 16)]

def encode (p : UInt8 → Bool) (bs : List UInt8) : List UInt8 :=
  bs.flatMap <| encodeByte p

-- A percent sign without two digits behind it cannot be read.
def decode : List UInt8 → Option (List UInt8)
  | [] => some []
  | b :: bs =>
    if b = sign then
      match bs with
      | h :: l :: bs => do
        let h  ← value h
        let l  ← value l
        let bs ← decode bs
        some <| UInt8.ofNat (16 * h + l) :: bs
      | _ => none
    else
      (b :: ·) <$> decode bs

theorem value_digit (h : n < 16) : value (digit n) = some n := by
  have hd : ∀ n : Fin 16, value (digit n) = some n.val := by decide
  exact hd ⟨n, h⟩

theorem digit_lt (h : n < 16) : digit n < 128 := by
  have hd : ∀ n : Fin 16, digit n < 128 := by decide
  exact hd ⟨n, h⟩

theorem encodeByte_of_allowed (h : p b) : encodeByte p b = [b] :=
  if_pos h

theorem encodeByte_of_not_allowed (h : ¬p b) :
    encodeByte p b = [sign, digit (b.toNat / 16), digit (b.toNat % 16)] :=
  if_neg h

theorem encode_cons : encode p (b :: bs) = encodeByte p b ++ encode p bs :=
  List.flatMap_cons

theorem encode_append : encode p (bs ++ bs') = encode p bs ++ encode p bs' :=
  List.flatMap_append

theorem decode_cons (h : b ≠ sign) : decode (b :: bs) = (b :: ·) <$> decode bs := by
  rw [decode.eq_def]
  exact if_neg h

theorem decode_escape {h l : Nat} (hh : h < 16) (hl : l < 16) :
    decode (sign :: digit h :: digit l :: bs) = (UInt8.ofNat (16 * h + l) :: ·) <$> decode bs := by
  rw [decode, if_pos rfl, value_digit hh, value_digit hl]
  cases decode bs <;> rfl

theorem decode_encodeByte_append (h : ¬p sign) : decode (encodeByte p b ++ bs) = (b :: ·) <$> decode bs := by
  by_cases hb : p b
  case pos =>
    rw [encodeByte_of_allowed hb]
    exact decode_cons fun he => h <| he ▸ hb
  case neg =>
    have hlt : b.toNat < 256 := b.toNat_lt
    have he : UInt8.ofNat (16 * (b.toNat / 16) + b.toNat % 16) = b := by
      rw [Nat.div_add_mod, UInt8.ofNat_toNat]
    rw [encodeByte_of_not_allowed hb]
    have hd := @decode_escape bs (b.toNat / 16) (b.toNat % 16) (by omega) (by omega)
    rwa [he] at hd

theorem decode_encode (h : ¬p sign) : decode (encode p bs) = some bs := by
  induction bs
  case nil => rfl
  case cons b bs hi => rw [encode_cons, decode_encodeByte_append h, hi, Option.map_eq_map, Option.map_some]

theorem encode_inj (h : ¬p sign) : encode p bs = encode p bs' ↔ bs = bs' := by
  constructor <;> intro he
  case mp  => exact Option.some.inj <| (decode_encode h).symm.trans (he ▸ decode_encode h)
  case mpr => rw [he]

theorem length_le_length_encodeByte : 1 ≤ (encodeByte p b).length := by
  by_cases hb : p b
  case pos => rw [encodeByte_of_allowed hb, List.length_singleton]
  case neg => rw [encodeByte_of_not_allowed hb]; simp only [List.length_cons]; omega

theorem length_le_length_encode : bs.length ≤ (encode p bs).length := by
  induction bs
  case nil => exact Nat.zero_le _
  case cons b bs hi =>
    have hb := @length_le_length_encodeByte p b
    rw [encode_cons, List.length_append, List.length_cons]
    omega

theorem encode_eq_self_iff : encode p bs = bs ↔ ∀ b ∈ bs, p b := by
  induction bs
  case nil => exact ⟨fun _ _ h => absurd h List.not_mem_nil, fun _ => rfl⟩
  case cons b bs hi =>
    rw [encode_cons, List.forall_mem_cons]
    by_cases hb : p b
    case pos =>
      rw [encodeByte_of_allowed hb, List.singleton_append, List.cons_inj_right, hi]
      exact ⟨fun h => ⟨hb, h⟩, fun h => h.right⟩
    case neg =>
      refine ⟨fun h => ?_, fun h => absurd h.left hb⟩
      have hl := congrArg List.length h
      have hr := @length_le_length_encode p bs
      rw [encodeByte_of_not_allowed hb, List.length_append] at hl
      simp only [List.length_cons, List.length_nil] at hl
      omega

theorem encode_encode_iff (h : ¬p sign) : encode p (encode p bs) = encode p bs ↔ ∀ b ∈ bs, p b := by
  rw [encode_inj h, encode_eq_self_iff]

theorem mem_encodeByte (h : c ∈ encodeByte p b) : p c ∨ c = sign ∨ ∃ n < 16, c = digit n := by
  by_cases hb : p b
  case pos =>
    rw [encodeByte_of_allowed hb, List.mem_singleton] at h
    exact .inl <| h ▸ hb
  case neg =>
    have hlt : b.toNat < 256 := b.toNat_lt
    rw [encodeByte_of_not_allowed hb] at h
    simp only [List.mem_cons, List.not_mem_nil, or_false] at h
    obtain h | h | h := h
    · exact .inr <| .inl h
    · exact .inr <| .inr ⟨_, by omega, h⟩
    · exact .inr <| .inr ⟨_, by omega, h⟩

theorem mem_encode (h : c ∈ encode p bs) : p c ∨ c = sign ∨ ∃ n < 16, c = digit n := by
  have ⟨_, _, hc⟩ := List.mem_flatMap.mp h
  exact mem_encodeByte hc

theorem lt_of_mem_encode (hp : ∀ b, p b → b < 128) (h : c ∈ encode p bs) : c < 128 := by
  obtain hc | rfl | ⟨n, hn, rfl⟩ := mem_encode h
  · exact hp c hc
  · decide
  · exact digit_lt hn

end Percent
