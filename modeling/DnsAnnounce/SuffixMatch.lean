import DnsAnnounce.DnsServer
import DnsAnnounce.Separated

namespace DnsAnnounce.SuffixMatch

open DnsAnnounce.Utf8 DnsAnnounce.Separated DnsAnnounce.DnsServer

/-- `u8::to_ascii_lowercase`. -/
def lowerByte (b : UInt8) : UInt8 := if 0x41 ≤ b ∧ b ≤ 0x5A then b + 32 else b

/-- `<[u8]>::eq_ignore_ascii_case`. -/
def eqIgnoreAsciiCase (a b : Bytes) : Bool := a.map lowerByte = b.map lowerByte

def matchesSuffix (name suffix : Text) : Bool :=
  let name := encode name
  let suffix := encode suffix
  if name.length < suffix.length then false
  else
    let headLen := name.length - suffix.length
    let head := name.take headLen
    let tail := name.drop headLen
    eqIgnoreAsciiCase tail suffix && (head.isEmpty || head.getLast? = some 0x2E)

/-- The labels of a name, as DNS compares them. -/
def labels (name : Text) : List Text := (name.splitOn '.').map toAsciiLowercase

theorem toNat_lowerByte (b : UInt8) :
    (lowerByte b).toNat = if 0x41 ≤ b.toNat ∧ b.toNat ≤ 0x5A then b.toNat + 32 else b.toNat := by
  have hb := b.toNat_lt
  have hiff : 0x41 ≤ b ∧ b ≤ 0x5A ↔ 0x41 ≤ b.toNat ∧ b.toNat ≤ 0x5A := Iff.rfl
  rw [lowerByte]
  split_ifs with h h' h'
  · rw [UInt8.toNat_add]
    exact Nat.mod_eq_of_lt (show b.toNat + 32 < 256 by omega)
  · exact absurd (hiff.mp h) h'
  · exact absurd (hiff.mpr h') h
  · rfl

theorem utf8EncodeChar_toLower (c : Char) :
    String.utf8EncodeChar c.toLower = (String.utf8EncodeChar c).map lowerByte := by
  by_cases h : c.toNat < 0x80
  · have hlow : c.toLower.toNat < 0x80 := by
      rw [toNat_toLower]
      split_ifs <;> omega
    rw [utf8EncodeChar_ascii h, utf8EncodeChar_ascii hlow, List.map_singleton]
    congr 1
    rw [← UInt8.toNat_inj, toNat_lowerByte, UInt8.toNat_ofNat', UInt8.toNat_ofNat', toNat_toLower,
      Nat.mod_eq_of_lt (show c.toNat < 2 ^ 8 by omega)]
    split_ifs <;> omega
  · have hsame : c.toLower = c := by
      rw [← Char.toNat_inj, toNat_toLower]
      exact if_neg (by omega)
    have hbytes : ∀ b ∈ String.utf8EncodeChar c, lowerByte b = b := by
      intro b hb
      have hge := le_of_mem_utf8EncodeChar (not_lt.mp h) hb
      rw [← UInt8.toNat_inj, toNat_lowerByte]
      exact if_neg (by omega)
    rw [hsame, List.map_congr_left hbytes, List.map_id']

theorem encode_toAsciiLowercase (t : Text) :
    encode (toAsciiLowercase t) = (encode t).map lowerByte := by
  induction t with
  | nil => rfl
  | cons c t ih =>
    rw [toAsciiLowercase, encode] at ih
    rw [toAsciiLowercase, encode, encode, List.map_cons, List.flatMap_cons, List.flatMap_cons,
      List.map_append, ih, utf8EncodeChar_toLower]
    rfl

theorem eqIgnoreAsciiCase_encode (t u : Text) :
    eqIgnoreAsciiCase (encode t) (encode u) = true ↔ toAsciiLowercase t = toAsciiLowercase u := by
  rw [eqIgnoreAsciiCase, decide_eq_true_eq, ← encode_toAsciiLowercase, ← encode_toAsciiLowercase]
  exact encode_injective.eq_iff

theorem dot_mem_utf8EncodeChar {c : Char} (h : 0x2E ∈ String.utf8EncodeChar c) : c = '.' := by
  by_cases hc : c.toNat < 0x80
  · rw [utf8EncodeChar_ascii hc, List.mem_singleton, ← UInt8.toNat_inj, UInt8.toNat_ofNat',
      Nat.mod_eq_of_lt (show c.toNat < 2 ^ 8 by omega)] at h
    exact (Char.toNat_inj (c := '.') (d := c)).mp h |>.symm
  · exact absurd (le_of_mem_utf8EncodeChar (not_lt.mp hc) h) (by decide)

theorem encode_eq_append_dot {t : Text} {head tail : Bytes} (h : encode t = head ++ 0x2E :: tail) :
    ∃ front back, t = front ++ '.' :: back ∧ encode front = head ∧ encode back = tail := by
  induction t generalizing head with
  | nil => exact absurd h.symm (List.append_ne_nil_of_right_ne_nil _ (List.cons_ne_nil _ _))
  | cons c t ih =>
    have hcons : encode (c :: t) = String.utf8EncodeChar c ++ encode t := List.flatMap_cons
    rw [hcons] at h
    obtain ⟨rest, rfl, hrest⟩ | ⟨rest, hchar, htail⟩ := List.append_eq_append_iff.mp h
    · obtain ⟨front, back, rfl, rfl, rfl⟩ := ih hrest
      exact ⟨c :: front, back, rfl, List.flatMap_cons, rfl⟩
    · cases rest with
      | nil =>
        obtain ⟨front, back, rfl, hfront, rfl⟩ := @ih [] htail.symm
        refine ⟨c :: front, back, rfl, ?_, rfl⟩
        rw [List.append_nil] at hchar
        rw [← hchar]
        change String.utf8EncodeChar c ++ encode front = _
        rw [hfront, List.append_nil]
      | cons b rest =>
        obtain ⟨rfl, rfl⟩ := List.cons.inj htail
        obtain rfl : c = '.' := dot_mem_utf8EncodeChar (by simp [hchar])
        have hlen := congrArg List.length hchar
        rw [List.length_append, List.length_cons] at hlen
        have hone : (String.utf8EncodeChar '.').length = 1 := rfl
        obtain rfl : head = [] := List.eq_nil_of_length_eq_zero (by omega)
        obtain rfl : rest = [] := List.eq_nil_of_length_eq_zero (by omega)
        exact ⟨[], t, rfl, rfl, rfl⟩

theorem length_encode_of_lowercase {t u : Text} (h : toAsciiLowercase t = toAsciiLowercase u) :
    (encode t).length = (encode u).length := by
  have hbytes := congrArg (fun v => (encode v).length) h
  simpa only [encode_toAsciiLowercase, List.length_map] using hbytes

theorem matchesSuffix_cut {name suffix : Text} {head tail : Bytes} (hname : encode name = head ++ tail)
    (hlen : tail.length = (encode suffix).length) :
    matchesSuffix name suffix =
      (eqIgnoreAsciiCase tail (encode suffix) && (head.isEmpty || head.getLast? = some 0x2E)) := by
  have hhead : (head ++ tail).length - (encode suffix).length = head.length := by
    rw [List.length_append]
    omega
  rw [matchesSuffix, hname]
  dsimp only
  rw [if_neg (by rw [List.length_append]; omega), hhead, List.take_left, List.drop_left]

/-- A name matches if a suffix of it, all of it or what stands behind one of its
dots, is the given one up to letter case. -/
theorem matchesSuffix_eq_true {name suffix : Text} :
    matchesSuffix name suffix = true ↔ ∃ tail, (name = tail ∨ ∃ front, name = front ++ '.' :: tail) ∧
      toAsciiLowercase tail = toAsciiLowercase suffix := by
  constructor
  · intro h
    have hlen : ¬ (encode name).length < (encode suffix).length := by
      intro hlt
      rw [matchesSuffix] at h
      dsimp only at h
      rw [if_pos hlt] at h
      contradiction
    obtain ⟨head, tail, hname, hsplit⟩ : ∃ head tail, encode name = head ++ tail ∧
        tail.length = (encode suffix).length := by
      refine ⟨_, _, (List.take_append_drop ((encode name).length - (encode suffix).length) _).symm, ?_⟩
      rw [List.length_drop]
      omega
    rw [matchesSuffix_cut hname hsplit, Bool.and_eq_true, Bool.or_eq_true, List.isEmpty_iff,
      decide_eq_true_eq] at h
    obtain ⟨hequal, rfl | hlast⟩ := h
    · rw [List.nil_append] at hname
      rw [← hname] at hequal
      exact ⟨name, .inl rfl, (eqIgnoreAsciiCase_encode _ _).mp hequal⟩
    · obtain ⟨init, rfl⟩ := List.getLast?_eq_some_iff.mp hlast
      rw [List.append_assoc, List.singleton_append] at hname
      obtain ⟨front, back, hback, -, rfl⟩ := encode_eq_append_dot hname
      exact ⟨back, .inr ⟨front, hback⟩, (eqIgnoreAsciiCase_encode _ _).mp hequal⟩
  · rintro ⟨tail, hcut, hequal⟩
    have hlen := length_encode_of_lowercase hequal
    have htail := (eqIgnoreAsciiCase_encode _ _).mpr hequal
    obtain rfl | ⟨front, rfl⟩ := hcut
    · rw [matchesSuffix_cut (List.nil_append _).symm hlen, htail]
      rfl
    · have hname : encode (front ++ '.' :: tail) = (encode front ++ [0x2E]) ++ encode tail := by
        rw [encode_append, List.append_assoc]
        rfl
      rw [matchesSuffix_cut hname hlen, htail, List.getLast?_concat]
      simp

theorem labels_eq (name : Text) : labels name = (toAsciiLowercase name).splitOn '.' :=
  (splitOn_map toLower_eq_dot name).symm

theorem labels_suffix_iff {name suffix : Text} :
    labels suffix <:+ labels name ↔ ∃ tail, (name = tail ∨ ∃ front, name = front ++ '.' :: tail) ∧
      toAsciiLowercase tail = toAsciiLowercase suffix := by
  rw [labels_eq, labels_eq, suffix_splitOn_iff]
  constructor
  · rintro (h | ⟨front, h⟩)
    · exact ⟨name, .inl rfl, h⟩
    · obtain ⟨first, rest, rfl, -, hrest⟩ := List.map_eq_append_iff.mp h
      obtain ⟨c, tail, rfl, hc, htail⟩ := List.map_eq_cons_iff.mp hrest
      obtain rfl := (toLower_eq_dot c).mp hc
      exact ⟨tail, .inr ⟨first, rfl⟩, htail⟩
  · rintro ⟨tail, rfl | ⟨front, rfl⟩, h⟩
    · exact .inl h
    · refine .inr ⟨toAsciiLowercase front, ?_⟩
      rw [← h, toAsciiLowercase, List.map_append, List.map_cons]
      rfl

theorem matchesSuffix_iff (name suffix : Text) :
    matchesSuffix name suffix = true ↔ labels suffix <:+ labels name :=
  matchesSuffix_eq_true.trans labels_suffix_iff.symm

theorem labels_congr {t u : Text} (h : toAsciiLowercase t = toAsciiLowercase u) : labels t = labels u := by
  rw [labels_eq, labels_eq, h]

/-- A name falls under a suffix exactly if its last labels are the suffix's. -/
theorem suffix_law :
    (∀ name suffix, matchesSuffix name suffix = true ↔ labels suffix <:+ labels name) ∧
    (∀ name, matchesSuffix name name = true) ∧
    (∀ name s t, matchesSuffix name s = true → matchesSuffix s t = true → matchesSuffix name t = true) ∧
    (∀ name name' suffix suffix', toAsciiLowercase name = toAsciiLowercase name' →
      toAsciiLowercase suffix = toAsciiLowercase suffix' →
      matchesSuffix name suffix = matchesSuffix name' suffix') ∧
    ∀ name suffix, matchesSuffix name suffix = true →
      ∃ tail, (name = tail ∨ ∃ front, name = front ++ '.' :: tail) ∧
        toAsciiLowercase tail = toAsciiLowercase suffix := by
  refine ⟨matchesSuffix_iff, fun name => ?_, fun name s t hs ht => ?_,
    fun name name' suffix suffix' hname hsuffix => ?_, fun name suffix => matchesSuffix_eq_true.mp⟩
  · exact (matchesSuffix_iff name name).mpr List.suffix_rfl
  · rw [matchesSuffix_iff] at hs ht ⊢
    exact ht.trans hs
  · rw [Bool.eq_iff_iff, matchesSuffix_iff, matchesSuffix_iff, labels_congr hname, labels_congr hsuffix]

example : matchesSuffix "Foo.MYVPN".toList "myvpn".toList = true := by decide +kernel

theorem subdomains_match :
    matchesSuffix "a.Foo.myvpn".toList "MYVPN".toList = true :=
  suffix_law.2.2.1 "a.Foo.myvpn".toList "foo.myvpn".toList "MYVPN".toList (by decide +kernel)
    (by decide +kernel)

end DnsAnnounce.SuffixMatch
