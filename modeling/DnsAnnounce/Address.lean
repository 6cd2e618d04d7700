import DnsAnnounce.Utf8
import Mathlib.Data.Nat.Digits.Defs

namespace DnsAnnounce.Address

open DnsAnnounce.Utf8

structure Ipv4Addr where
  octets : Bytes
  octets_length : octets.length = 4
  deriving DecidableEq

structure Ipv6Addr where
  octets : Bytes
  octets_length : octets.length = 16
  deriving DecidableEq

inductive IpAddr
  | V4 (v4 : Ipv4Addr)
  | V6 (v6 : Ipv6Addr)
  deriving DecidableEq

/-- The eight 16-bit groups of an address. -/
def segments : Bytes → List Nat
  | hi :: lo :: rest => (hi.toNat * 256 + lo.toNat) :: segments rest
  | _ => []

structure Span where
  start : Nat
  len : Nat

def longestZeroes (segs : List Nat) : Span :=
  let step : Span × Span → Nat × Nat → Span × Span := fun (longest, current) (seg, i) =>
    if seg = 0 then
      let current := ⟨if current.len = 0 then i else current.start, current.len + 1⟩
      (if current.len > longest.len then current else longest, current)
    else (longest, ⟨0, 0⟩)
  (segs.zipIdx.foldl step (⟨0, 0⟩, ⟨0, 0⟩)).1

def joinWith (sep : Char) : List Text → Text
  | [] => []
  | [t] => t
  | t :: ts => t ++ sep :: joinWith sep ts

def Ipv4Addr.display (a : Ipv4Addr) : Text :=
  joinWith '.' (a.octets.map (fun o => Nat.toDigits 10 o.toNat))

def fmtSubslice (segs : List Nat) : Text := joinWith ':' (segs.map (Nat.toDigits 16))

def Ipv6Addr.toIpv4Mapped (a : Ipv6Addr) : Option Ipv4Addr :=
  if a.octets.take 12 = [0, 0, 0, 0, 0, 0, 0, 0, 0, 0, 0xff, 0xff] then
    some ⟨a.octets.drop 12, by rw [List.length_drop, a.octets_length]⟩
  else none

def Ipv6Addr.display (a : Ipv6Addr) : Text :=
  match a.toIpv4Mapped with
  | some v4 => "::ffff:".toList ++ v4.display
  | none =>
    let segs := segments a.octets
    let zeroes := longestZeroes segs
    if zeroes.len > 1 then
      fmtSubslice (segs.take zeroes.start) ++ "::".toList ++
        fmtSubslice (segs.drop (zeroes.start + zeroes.len))
    else fmtSubslice segs

/-- The text `format!("{ip}")` gives. -/
def IpAddr.display : IpAddr → Text
  | .V4 v4 => v4.display
  | .V6 v6 => v6.display

example : (IpAddr.V6 ⟨[0xfd, 0, 0, 0, 0, 0, 0, 0, 0, 0, 0, 0, 0, 0, 0, 1], rfl⟩).display =
    "fd00::1".toList := by decide

def IsAddrChar (c : Char) : Prop := c.isAlphanum = true ∨ c = ':' ∨ c = '.'

theorem isAlphanum_of_mem_toDigits {b n : Nat} (hb : 1 < b) (hb' : b ≤ 16) {c : Char}
    (hc : c ∈ Nat.toDigits b n) : c.isAlphanum = true := by
  have hdigit : ∀ k < 16, k.digitChar.isAlphanum = true := by decide
  induction n using Nat.strongRecOn with
  | _ n ih =>
    rw [Nat.toDigits_eq_if hb] at hc
    split_ifs at hc with hn
    · rw [List.mem_singleton.mp hc]
      exact hdigit n (by omega)
    · obtain hc | hc := List.mem_append.mp hc
      · exact ih (n / b) (Nat.div_lt_self (by omega) hb) hc
      · rw [List.mem_singleton.mp hc]
        exact hdigit _ ((Nat.mod_lt n (by omega)).trans_le hb')

theorem mem_joinWith {sep c : Char} {ts : List Text} (h : c ∈ joinWith sep ts) :
    c = sep ∨ ∃ t ∈ ts, c ∈ t := by
  induction ts using joinWith.induct with
  | case1 => simp [joinWith] at h
  | case2 t => exact .inr ⟨t, by simp, h⟩
  | case3 t ts hts ih =>
    rw [joinWith.eq_3 _ _ _ hts, List.mem_append, List.mem_cons] at h
    obtain h | h | h := h
    · exact .inr ⟨t, by simp, h⟩
    · exact .inl h
    · obtain h | ⟨u, hu, hc⟩ := ih h
      · exact .inl h
      · exact .inr ⟨u, List.mem_cons_of_mem _ hu, hc⟩

theorem isAddrChar_joinWith {sep : Char} (hsep : sep = ':' ∨ sep = '.') {b : Nat} (hb : 1 < b)
    (hb' : b ≤ 16) {ns : List Nat} {c : Char} (h : c ∈ joinWith sep (ns.map (Nat.toDigits b))) :
    IsAddrChar c := by
  obtain rfl | ⟨t, ht, hc⟩ := mem_joinWith h
  · exact .inr hsep
  · obtain ⟨n, _, rfl⟩ := List.mem_map.mp ht
    exact .inl (isAlphanum_of_mem_toDigits hb hb' hc)

theorem Ipv4Addr.isAddrChar (a : Ipv4Addr) {c : Char} (h : c ∈ a.display) : IsAddrChar c := by
  have hm : a.octets.map (fun o => Nat.toDigits 10 o.toNat) =
      (a.octets.map UInt8.toNat).map (Nat.toDigits 10) := by rw [List.map_map]; rfl
  rw [display, hm] at h
  exact isAddrChar_joinWith (.inr rfl) (by omega) (by omega) h

theorem isAddrChar_fmtSubslice {segs : List Nat} {c : Char} (h : c ∈ fmtSubslice segs) :
    IsAddrChar c :=
  isAddrChar_joinWith (.inl rfl) (by omega) (by omega) h

theorem Ipv6Addr.isAddrChar (a : Ipv6Addr) {c : Char} (h : c ∈ a.display) : IsAddrChar c := by
  have hmapped : ∀ d ∈ "::ffff:".toList, IsAddrChar d := by simp [IsAddrChar]
  have hcolons : ∀ d ∈ "::".toList, IsAddrChar d := by simp [IsAddrChar]
  rw [display] at h
  cases hm : a.toIpv4Mapped with
  | some v4 =>
    rw [hm] at h
    obtain h | h := List.mem_append.mp h
    · exact hmapped c h
    · exact v4.isAddrChar h
  | none =>
    simp only [hm] at h
    split_ifs at h
    · obtain h | h := List.mem_append.mp h
      · obtain h | h := List.mem_append.mp h
        · exact isAddrChar_fmtSubslice h
        · exact hcolons c h
      · exact isAddrChar_fmtSubslice h
    · exact isAddrChar_fmtSubslice h

theorem IpAddr.isAddrChar (ip : IpAddr) {c : Char} (h : c ∈ ip.display) : IsAddrChar c := by
  cases ip with
  | V4 v4 => exact v4.isAddrChar h
  | V6 v6 => exact v6.isAddrChar h

end DnsAnnounce.Address
