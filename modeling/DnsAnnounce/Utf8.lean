import Mathlib.Data.List.Basic
import Mathlib.Data.Char

namespace DnsAnnounce.Utf8

/-- A Rust `str`, as its characters. -/
abbrev Text := List Char

abbrev Bytes := List UInt8

def encode (t : Text) : Bytes := t.flatMap String.utf8EncodeChar

def isCont (b : UInt8) : Bool := 0x80 ≤ b && b ≤ 0xBF

/-- The second bytes that may follow the first byte `b` of a character. -/
def secondOk (b c : UInt8) : Bool :=
  if b < 0xE0 then 0xC2 ≤ b && isCont c
  else if b = 0xE0 then 0xA0 ≤ c && c ≤ 0xBF
  else if b = 0xED then 0x80 ≤ c && c ≤ 0x9F
  else if b < 0xF0 then isCont c
  else if b = 0xF0 then 0x90 ≤ c && c ≤ 0xBF
  else if b < 0xF4 then isCont c
  else b = 0xF4 && 0x80 ≤ c && c ≤ 0x8F

/-- Split bytes into characters, an ill-formed maximal prefix of a character
being `none`, as `str::from_utf8` and `String::from_utf8_lossy` do. -/
def chunks : Bytes → List (Option Char)
  | [] => []
  | b :: rest =>
    if b < 0x80 then some (Char.ofNat b.toNat) :: chunks rest
    else match rest with
      | [] => [none]
      | c :: rest2 =>
        if !secondOk b c then none :: chunks (c :: rest2)
        else if b < 0xE0 then
          some (Char.ofNat (b.toNat % 0x20 * 0x40 + c.toNat % 0x40)) :: chunks rest2
        else match rest2 with
          | [] => [none]
          | d :: rest3 =>
            if !isCont d then none :: chunks (d :: rest3)
            else if b < 0xF0 then
              some (Char.ofNat (b.toNat % 0x10 * 0x1000 + c.toNat % 0x40 * 0x40 + d.toNat % 0x40))
                :: chunks rest3
            else match rest3 with
              | [] => [none]
              | e :: rest4 =>
                if !isCont e then none :: chunks (e :: rest4)
                else some (Char.ofNat (b.toNat % 0x08 * 0x40000 + c.toNat % 0x40 * 0x1000
                  + d.toNat % 0x40 * 0x40 + e.toNat % 0x40)) :: chunks rest4

def allSome : List (Option Char) → Option Text
  | [] => some []
  | none :: _ => none
  | some c :: rest => (allSome rest).map (c :: ·)

/-- `str::from_utf8`. -/
def decode (bs : Bytes) : Option Text := allSome (chunks bs)

/-- `String::from_utf8_lossy`. -/
def decodeLossy (bs : Bytes) : Text := (chunks bs).map (·.getD '\uFFFD')

example : decode [0x61, 0xC3, 0xA9] = some ['a', 'é'] := by decide
example : decodeLossy [0x61, 0xE2, 0x82, 0x62] = ['a', '\uFFFD', 'b'] := by decide

theorem secondOk_iff (b c : UInt8) :
    secondOk b c = true ↔
      (0xC2 ≤ b.toNat ∧ b.toNat ≤ 0xDF ∧ 0x80 ≤ c.toNat ∧ c.toNat ≤ 0xBF) ∨
      (b.toNat = 0xE0 ∧ 0xA0 ≤ c.toNat ∧ c.toNat ≤ 0xBF) ∨
      (b.toNat = 0xED ∧ 0x80 ≤ c.toNat ∧ c.toNat ≤ 0x9F) ∨
      (0xE1 ≤ b.toNat ∧ b.toNat ≤ 0xEF ∧ b.toNat ≠ 0xED ∧ 0x80 ≤ c.toNat ∧ c.toNat ≤ 0xBF) ∨
      (b.toNat = 0xF0 ∧ 0x90 ≤ c.toNat ∧ c.toNat ≤ 0xBF) ∨
      (0xF1 ≤ b.toNat ∧ b.toNat ≤ 0xF3 ∧ 0x80 ≤ c.toNat ∧ c.toNat ≤ 0xBF) ∨
      (b.toNat = 0xF4 ∧ 0x80 ≤ c.toNat ∧ c.toNat ≤ 0x8F) := by
  unfold secondOk isCont
  split_ifs with h1 h2 h3 h4 h5 h6 <;>
    simp_all [UInt8.lt_iff_toNat_lt, UInt8.le_iff_toNat_le, ← UInt8.toNat_inj] <;> omega


theorem chunks_one {b : UInt8} (h : b < 0x80) (bs : Bytes) :
    chunks (b :: bs) = some (Char.ofNat b.toNat) :: chunks bs := by
  rw [chunks.eq_def]
  simp [h]

theorem chunks_two {b c : UInt8} (h : ¬ b < 0x80) (hc : secondOk b c = true) (hb : b < 0xE0)
    (bs : Bytes) : chunks (b :: c :: bs) =
      some (Char.ofNat (b.toNat % 0x20 * 0x40 + c.toNat % 0x40)) :: chunks bs := by
  rw [chunks.eq_def]
  simp [h, hc, hb]

theorem chunks_three {b c d : UInt8} (hc : secondOk b c = true) (hb : ¬ b < 0xE0)
    (hd : isCont d = true) (hb' : b < 0xF0) (bs : Bytes) : chunks (b :: c :: d :: bs) =
      some (Char.ofNat (b.toNat % 0x10 * 0x1000 + c.toNat % 0x40 * 0x40 + d.toNat % 0x40))
        :: chunks bs := by
  have h : ¬ b < 0x80 := fun h => hb (UInt8.lt_trans h (show (0x80 : UInt8) < 0xE0 by decide))
  rw [chunks.eq_def]
  simp [h, hc, hb, hd, hb']

theorem chunks_four {b c d e : UInt8} (hc : secondOk b c = true) (hd : isCont d = true)
    (he : isCont e = true) (hb : ¬ b < 0xF0) (bs : Bytes) : chunks (b :: c :: d :: e :: bs) =
      some (Char.ofNat (b.toNat % 0x08 * 0x40000 + c.toNat % 0x40 * 0x1000
        + d.toNat % 0x40 * 0x40 + e.toNat % 0x40)) :: chunks bs := by
  have h : ¬ b < 0x80 := fun h => hb (UInt8.lt_trans h (show (0x80 : UInt8) < 0xF0 by decide))
  have h' : ¬ b < 0xE0 := fun h => hb (UInt8.lt_trans h (show (0xE0 : UInt8) < 0xF0 by decide))
  rw [chunks.eq_def]
  simp [h, hc, h', hd, hb, he]

theorem isCont_ofNat {n : Nat} (hn : n < 0x40) : isCont (UInt8.ofNat (n + 0x80)) = true := by
  simp [isCont, UInt8.le_iff_toNat_le]
  omega

theorem chunks_utf8EncodeChar (c : Char) (bs : Bytes) :
    chunks (String.utf8EncodeChar c ++ bs) = some c :: chunks bs := by
  have hc : ∀ n, n = c.toNat → Char.ofNat n = c := by
    rintro n rfl
    exact Char.ofNat_toNat c
  have hv : c.toNat < 0xD800 ∨ 0xDFFF < c.toNat ∧ c.toNat < 0x110000 := c.valid
  have hn : c.val.toNat = c.toNat := rfl
  rw [String.utf8EncodeChar]
  simp only [hn]
  generalize c.toNat = n at hc hv ⊢
  split_ifs with h1 h2 h3
  · rw [List.cons_append, chunks_one (by simp [UInt8.lt_iff_toNat_lt]; omega)]
    simp [hc n, Nat.mod_eq_of_lt (show n < 256 by omega)]
  · rw [List.cons_append, List.cons_append, chunks_two]
    · simp
      exact hc _ (by omega)
    · simp [UInt8.lt_iff_toNat_lt]; omega
    · rw [secondOk_iff]; simp; omega
    · simp [UInt8.lt_iff_toNat_lt]; omega
  · rw [List.cons_append, List.cons_append, List.cons_append, chunks_three]
    · simp
      exact hc _ (by omega)
    · rw [secondOk_iff]; simp; omega
    · simp [UInt8.lt_iff_toNat_lt]; omega
    · exact isCont_ofNat (by omega)
    · simp [UInt8.lt_iff_toNat_lt]; omega
  · rw [List.cons_append, List.cons_append, List.cons_append, List.cons_append, chunks_four]
    · simp
      exact hc _ (by omega)
    · rw [secondOk_iff]; simp; omega
    · exact isCont_ofNat (by omega)
    · exact isCont_ofNat (by omega)
    · simp [UInt8.lt_iff_toNat_lt]; omega
theorem chunks_encode_append (t : Text) (bs : Bytes) :
    chunks (encode t ++ bs) = t.map some ++ chunks bs := by
  induction t with
  | nil => rfl
  | cons c t ih =>
    rw [encode, List.flatMap_cons, List.append_assoc, chunks_utf8EncodeChar]
    rw [encode] at ih
    rw [ih, List.map_cons, List.cons_append]

theorem allSome_map_some (t : Text) : allSome (t.map some) = some t := by
  induction t with
  | nil => rfl
  | cons c t ih => rw [List.map_cons, allSome, ih, Option.map_some]

@[simp] theorem encode_nil : encode [] = [] := rfl

@[simp] theorem encode_append (t u : Text) : encode (t ++ u) = encode t ++ encode u :=
  List.flatMap_append

@[simp] theorem decode_encode (t : Text) : decode (encode t) = some t := by
  have h := chunks_encode_append t []
  rw [List.append_nil] at h
  rw [decode, h, chunks, List.append_nil, allSome_map_some]

@[simp] theorem decodeLossy_encode (t : Text) : decodeLossy (encode t) = t := by
  have h := chunks_encode_append t []
  rw [List.append_nil] at h
  rw [decodeLossy, h, chunks, List.append_nil, List.map_map]
  exact List.map_id t

theorem encode_injective : Function.Injective encode := by
  intro t u h
  have hd := congrArg decode h
  rwa [decode_encode, decode_encode, Option.some.injEq] at hd

theorem utf8EncodeChar_ascii {c : Char} (h : c.toNat < 0x80) :
    String.utf8EncodeChar c = [UInt8.ofNat c.toNat] :=
  if_pos (Nat.le_of_lt_succ h)

theorem le_of_mem_utf8EncodeChar {c : Char} (h : 0x80 ≤ c.toNat) {b : UInt8}
    (hb : b ∈ String.utf8EncodeChar c) : 0x80 ≤ b.toNat := by
  have hn : c.val.toNat = c.toNat := rfl
  rw [String.utf8EncodeChar] at hb
  simp only [hn] at hb
  generalize c.toNat = n at h hb
  split_ifs at hb with h1
  · omega
  all_goals
    simp only [List.mem_cons, List.not_mem_nil, or_false] at hb
  · obtain rfl | rfl := hb <;> rw [UInt8.toNat_ofNat'] <;> omega
  · obtain rfl | rfl | rfl := hb <;> rw [UInt8.toNat_ofNat'] <;> omega
  · obtain rfl | rfl | rfl | rfl := hb <;> rw [UInt8.toNat_ofNat'] <;> omega

theorem toNat_toLower (c : Char) :
    c.toLower.toNat = if 0x41 ≤ c.toNat ∧ c.toNat ≤ 0x5A then c.toNat + 32 else c.toNat := by
  have hiff : c.val ≥ 'A'.val ∧ c.val ≤ 'Z'.val ↔ 0x41 ≤ c.toNat ∧ c.toNat ≤ 0x5A := Iff.rfl
  delta Char.toLower
  split_ifs with h h' h'
  · change (c.val + 32).toNat = c.toNat + 32
    rw [UInt32.toNat_add]
    exact Nat.mod_eq_of_lt (show c.toNat + 32 < 4294967296 by omega)
  · exact absurd (hiff.mp h) h'
  · exact absurd (hiff.mpr h') h
  · rfl

theorem toLower_eq_dot (c : Char) : c.toLower = '.' ↔ c = '.' := by
  rw [← Char.toNat_inj, ← Char.toNat_inj, toNat_toLower]
  have hdot : '.'.toNat = 46 := rfl
  rw [hdot]
  split_ifs with h <;> omega

end DnsAnnounce.Utf8
