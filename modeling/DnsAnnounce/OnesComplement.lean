import Mathlib.Data.Nat.ModEq
import Mathlib.Tactic.Ring

namespace DnsAnnounce.OnesComplement

variable {B : Nat}

/-- One's complement addition of two digits below `B`: a carry comes back in at
the low end. -/
def add (B a b : Nat) : Nat := if a + b < B then a + b else a + b + 1 - B

def total (B : Nat) (ws : List Nat) : Nat := ws.foldl (add B) 0

/-- The digit that a sum of any size comes down to. Only zero comes down to zero. -/
def residue (B n : Nat) : Nat := if n = 0 then 0 else (n - 1) % (B - 1) + 1

def fold (B n : Nat) : Nat := n % B + n / B

/-- The 16-bit words of a byte string, padded with a zero byte. -/
def words : List UInt8 → List Nat
  | hi :: lo :: rest => (hi.toNat * 256 + lo.toNat) :: words rest
  | [last] => [last.toNat * 256]
  | [] => []

@[simp] theorem residue_zero : residue B 0 = 0 := rfl

theorem residue_of_pos {n : Nat} (h : 0 < n) : residue B n = (n - 1) % (B - 1) + 1 :=
  if_neg (by omega)

theorem residue_lt (hB : 1 < B) (n : Nat) : residue B n < B := by
  rw [residue]
  split_ifs
  · omega
  · have := Nat.mod_lt (n - 1) (show 0 < B - 1 by omega)
    omega

theorem residue_of_lt {n : Nat} (h : n < B) : residue B n = n := by
  obtain rfl | hn := Nat.eq_zero_or_pos n
  · rfl
  · rw [residue_of_pos hn, Nat.mod_eq_of_lt (by omega)]
    omega

theorem residue_eq_zero {n : Nat} : residue B n = 0 ↔ n = 0 := by
  rw [residue]
  split_ifs with h
  · simp [h]
  · simp [h]

theorem residue_modEq (n : Nat) : residue B n ≡ n [MOD B - 1] := by
  obtain rfl | hn := Nat.eq_zero_or_pos n
  · rfl
  · rw [residue_of_pos hn]
    have h := (Nat.mod_modEq (n - 1) (B - 1)).add_right 1
    rwa [Nat.sub_add_cancel hn] at h

theorem residue_congr {m n : Nat} (h0 : m = 0 ↔ n = 0) (h : m ≡ n [MOD B - 1]) :
    residue B m = residue B n := by
  obtain rfl | hm := Nat.eq_zero_or_pos m
  · rw [h0.mp rfl]
  · have hn : 0 < n := by omega
    rw [residue_of_pos hm, residue_of_pos hn]
    have hsub : m - 1 ≡ n - 1 [MOD B - 1] := by
      apply Nat.ModEq.add_right_cancel' 1
      rwa [Nat.sub_add_cancel hm, Nat.sub_add_cancel hn]
    rw [hsub]

theorem residue_add_left (m n : Nat) : residue B (residue B m + n) = residue B (m + n) := by
  refine residue_congr ?_ ((residue_modEq m).add_right n)
  rw [Nat.add_eq_zero_iff, Nat.add_eq_zero_iff, residue_eq_zero]

theorem add_eq_residue {a b : Nat} (ha : a < B) (hb : b < B) : add B a b = residue B (a + b) := by
  rw [add]
  split_ifs with h
  · exact (residue_of_lt h).symm
  · have hs : a + b - 1 = a + b - B + (B - 1) := by omega
    rw [residue_of_pos (by omega), hs, Nat.add_mod_right, Nat.mod_eq_of_lt (by omega)]
    omega

/-- Adding word after word gives the digit that the plain sum comes down to. -/
theorem total_eq_residue (hB : 1 < B) {ws : List Nat} (hws : ∀ w ∈ ws, w < B) :
    total B ws = residue B ws.sum := by
  have hfold : ∀ (ws : List Nat) (n : Nat), (∀ w ∈ ws, w < B) →
      ws.foldl (add B) (residue B n) = residue B (n + ws.sum) := by
    intro ws
    induction ws with
    | nil => intro n _; rfl
    | cons w ws ih =>
      intro n h
      rw [List.foldl_cons, add_eq_residue (residue_lt hB n) (h w List.mem_cons_self),
        residue_add_left, ih _ fun v hv => h v (List.mem_cons_of_mem w hv), List.sum_cons, Nat.add_assoc]
  have h := hfold ws 0 hws
  rwa [residue_zero, Nat.zero_add] at h

theorem residue_fold (hB : 1 < B) (n : Nat) : residue B (fold B n) = residue B n := by
  have hn := Nat.mod_add_div n B
  refine residue_congr ?_ ?_
  · rw [fold]
    constructor
    · intro h
      obtain ⟨hm, hd⟩ := Nat.add_eq_zero_iff.mp h
      rw [← hn, hm, hd, Nat.mul_zero]
    · rintro rfl
      simp
  · have hmul : B * (n / B) = (B - 1) * (n / B) + n / B := by
      rw [Nat.sub_mul, Nat.one_mul, Nat.sub_add_cancel (Nat.le_mul_of_pos_left _ (by omega))]
    have hcong : fold B n + (B - 1) * (n / B) ≡ fold B n [MOD B - 1] :=
      Nat.modEq_iff_dvd' (Nat.le_add_right ..) |>.mpr ⟨n / B, by omega⟩ |>.symm
    apply hcong.symm.trans
    rw [fold]
    rw [show n % B + n / B + (B - 1) * (n / B) = n by omega]

theorem fold_lt {n : Nat} (hB : 1 < B) (h : B ≤ n) : fold B n < n := by
  have hn := Nat.mod_add_div n B
  have hd : 0 < n / B := Nat.div_pos h (by omega)
  have hmul : 2 * (n / B) ≤ B * (n / B) := Nat.mul_le_mul_right _ hB
  rw [fold]
  omega

theorem residue_add_complement (hB : 1 < B) (n : Nat) :
    residue B (n + (B - 1 - residue B n)) = B - 1 := by
  have hlt := residue_lt hB n
  have h : n + (B - 1 - residue B n) ≡ B - 1 [MOD B - 1] := by
    have hc := (residue_modEq (B := B) n).symm.add_right (B - 1 - residue B n)
    rwa [show residue B n + (B - 1 - residue B n) = B - 1 by omega] at hc
  have h0 := residue_eq_zero (B := B) (n := n)
  rw [residue_congr (n := B - 1) (by omega) h, residue_of_lt (by omega)]

theorem residue_add_ones (hB : 1 < B) {n : Nat} (h : B - 1 - residue B n = 0) :
    residue B (n + (B - 1)) = B - 1 := by
  have hlt := residue_lt hB n
  have h0 := residue_eq_zero (B := B) (n := n)
  rw [residue_congr (n := n) (by omega) Nat.add_modEq_right]
  omega

theorem words_append {a : List UInt8} (b : List UInt8) (ha : 2 ∣ a.length) :
    words (a ++ b) = words a ++ words b := by
  induction a using words.induct with
  | case1 hi lo rest ih =>
    rw [List.cons_append, List.cons_append, words, words, List.cons_append, ih]
    simpa using ha
  | case2 last => simp at ha
  | case3 => rfl

theorem words_lt (bytes : List UInt8) : ∀ w ∈ words bytes, w < 65536 := by
  induction bytes using words.induct with
  | case1 hi lo rest ih =>
    intro w hw
    have h1 := hi.toNat_lt
    have h2 := lo.toNat_lt
    obtain rfl | hw := List.mem_cons.mp hw
    · omega
    · exact ih w hw
  | case2 last =>
    intro w hw
    have h1 := last.toNat_lt
    rw [List.mem_singleton.mp hw]
    omega
  | case3 => simp [words]

theorem sum_words_le (bytes : List UInt8) : (words bytes).sum ≤ (bytes.length + 1) / 2 * 65535 := by
  induction bytes using words.induct with
  | case1 hi lo rest ih =>
    have h1 := hi.toNat_lt
    have h2 := lo.toNat_lt
    rw [words, List.sum_cons, List.length_cons, List.length_cons]
    omega
  | case2 last =>
    have h1 := last.toNat_lt
    simp only [words, List.sum_singleton, List.length_singleton]
    omega
  | case3 => simp [words]

end DnsAnnounce.OnesComplement
