import DnsAnnounce.StaticBackend

namespace DnsAnnounce.Nameservers

open DnsAnnounce.Utf8 DnsAnnounce.Str DnsAnnounce.Address DnsAnnounce.Route
open DnsAnnounce.StaticBackend

theorem toNat_of_isAddrChar {c : Char} (h : IsAddrChar c) : 0x2E ≤ c.toNat ∧ c.toNat ≤ 0x7A := by
  obtain h | rfl | rfl := h
  · delta Char.isAlphanum Char.isAlpha Char.isUpper Char.isLower Char.isDigit at h
    simp only [Bool.or_eq_true, Bool.and_eq_true, decide_eq_true_eq, ge_iff_le,
      UInt32.le_iff_toNat_le] at h
    simp at h
    omega
  · decide
  · decide

theorem isWhitespace_of_isAddrChar {c : Char} (h : IsAddrChar c) : isWhitespace c = false := by
  have hc := toNat_of_isAddrChar h
  simp only [isWhitespace, Bool.or_eq_false_iff, Bool.and_eq_false_iff, decide_eq_false_iff_not]
  omega

theorem joinWith_ne_nil {sep : Char} {t u : Text} {ts : List Text} :
    joinWith sep (t :: u :: ts) ≠ [] := by
  rw [joinWith.eq_3 _ _ _ (List.cons_ne_nil u ts)]
  exact List.append_ne_nil_of_right_ne_nil _ (List.cons_ne_nil _ _)

theorem Ipv4Addr.display_ne_nil (a : Ipv4Addr) : a.display ≠ [] := by
  obtain ⟨_ | ⟨x, _ | ⟨y, rest⟩⟩, h⟩ := a
  · cases h
  · cases h
  · exact joinWith_ne_nil

theorem fmtSubslice_ne_nil {m n : Nat} {segs : List Nat} : fmtSubslice (m :: n :: segs) ≠ [] :=
  joinWith_ne_nil

theorem fmtSubslice_segments_ne_nil (a : Ipv6Addr) : fmtSubslice (segments a.octets) ≠ [] := by
  obtain ⟨_ | ⟨x, _ | ⟨y, _ | ⟨z, _ | ⟨w, rest⟩⟩⟩⟩, h⟩ := a
  · cases h
  · cases h
  · cases h
  · cases h
  · exact fmtSubslice_ne_nil

theorem Ipv6Addr.display_ne_nil (a : Ipv6Addr) : a.display ≠ [] := by
  rw [Ipv6Addr.display]
  split
  · exact List.append_ne_nil_of_right_ne_nil _ (Ipv4Addr.display_ne_nil _)
  · dsimp only
    split_ifs
    · exact List.append_ne_nil_of_left_ne_nil (List.append_ne_nil_of_right_ne_nil _ (by decide)) _
    · exact fmtSubslice_segments_ne_nil a

theorem display_ne_nil (ip : IpAddr) : ip.display ≠ [] := by
  cases ip with
  | V4 v4 => exact Ipv4Addr.display_ne_nil v4
  | V6 v6 => exact Ipv6Addr.display_ne_nil v6

theorem isWord_display (ip : IpAddr) : IsWord ip.display :=
  ⟨display_ne_nil ip, fun _ hc => isWhitespace_of_isAddrChar (ip.isAddrChar hc)⟩

theorem parseNameservers_cons {addr : Text} (h : IsWord addr) (rest : Text) :
    parseNameservers (encode (nameserverLine addr ++ rest)) =
      addr :: parseNameservers (encode rest) := by
  let line := "nameserver ".toList ++ addr
  have hlast : line.getLast? = addr.getLast? := by
    rw [List.getLast?_append, List.getLast?_eq_some_getLast h.1, Option.some_or]
  have hword : ∀ c, line.getLast? = some c → isWhitespace c = false := by
    intro c hc
    rw [hlast] at hc
    exact h.2 c (List.mem_of_getLast? hc)
  have htrim : trim line = line := by
    refine trim_eq_self (fun c hc => ?_) hword
    obtain rfl : 'n' = c := Option.some.inj hc
    decide
  have hnl : '\n' ∉ line := by
    intro hm
    obtain hm | hm := List.mem_append.mp hm
    · revert hm
      decide
    · exact absurd (h.2 _ hm) (by decide)
  have hcr : line.getLast? ≠ some '\r' := fun hc => absurd (hword _ hc) (by decide)
  have hspace : "nameserver ".toList = "nameserver".toList ++ [' '] := by decide
  have hstrip : stripPrefix "nameserver".toList line = some (' ' :: addr) := by
    rw [show line = "nameserver".toList ++ ' ' :: addr by
      rw [← List.singleton_append, ← List.append_assoc, ← hspace]]
    exact stripPrefix_append ..
  have hl : nameserverLine addr ++ rest = line ++ '\n' :: rest := by
    rw [nameserverLine_eq, List.append_assoc, List.append_assoc, List.singleton_append,
      List.append_assoc]
  rw [hl, parseNameservers, parseNameservers, decodeLossy_encode, decodeLossy_encode,
    lines_append _ _ hnl, if_neg hcr]
  simp only [List.filterMap_cons, htrim, hstrip, Option.bind_some, splitWhitespace_word h,
    List.head?_cons]

theorem parseNameservers_lines {addrs : List Text} (h : ∀ addr ∈ addrs, IsWord addr) :
    parseNameservers (encode (addrs.flatMap nameserverLine)) = addrs := by
  induction addrs with
  | nil => rfl
  | cons addr addrs ih =>
    rw [List.flatMap_cons, parseNameservers_cons (h addr List.mem_cons_self),
      ih fun a ha => h a (List.mem_cons_of_mem addr ha)]

theorem isWord_of_mem_parseNameservers {content : Bytes} {addr : Text}
    (h : addr ∈ parseNameservers content) : IsWord addr := by
  obtain ⟨line, -, hl⟩ := List.mem_filterMap.mp h
  obtain ⟨rest, -, hr⟩ := Option.bind_eq_some_iff.mp hl
  exact isWord_of_mem_splitWhitespace (List.mem_of_mem_head? (Option.mem_def.mpr hr))

theorem parseNameservers_append_newline (t rest : Text) :
    parseNameservers (encode (t ++ '\n' :: rest)) =
      parseNameservers (encode (t ++ ['\n'])) ++ parseNameservers (encode rest) := by
  rw [parseNameservers, parseNameservers, parseNameservers, decodeLossy_encode, decodeLossy_encode,
    decodeLossy_encode, lines_append_newline, List.filterMap_append]

/-- The `nameserver` lines that an owner smuggles into the marker. -/
def ownerNameservers (owner : Text) : List Text := parseNameservers (encode (markerLine owner))

theorem stripPrefix_comment (l : Text) :
    stripPrefix "nameserver".toList (trim ('#' :: l)) = none := by
  have hp : trim ('#' :: l) <+: '#' :: l := List.rdropWhile_prefix ..
  cases ht : trim ('#' :: l) with
  | nil => rfl
  | cons c m =>
    rw [ht] at hp
    rw [(List.cons_prefix_cons.mp hp).1]
    rfl

/-- An owner of one line smuggles none in: the marker is a comment. -/
theorem ownerNameservers_eq_nil {owner : Text} (h : '\n' ∉ owner) : ownerNameservers owner = [] := by
  have hn : '\n' ∉ markerPrefix ++ owner := fun hm => (List.mem_append.mp hm).elim (by decide) h
  obtain ⟨m, hm⟩ : ∃ m, markerPrefix = '#' :: ' ' :: m := ⟨markerPrefix.drop 2, by decide⟩
  obtain ⟨l, hl⟩ : ∃ l, (if (markerPrefix ++ owner).getLast? = some '\r' then
      (markerPrefix ++ owner).dropLast else markerPrefix ++ owner) = '#' :: l := by
    rw [hm, List.cons_append, List.cons_append, List.dropLast_cons_cons]
    split
    · exact ⟨_, rfl⟩
    · exact ⟨_, rfl⟩
  rw [ownerNameservers, parseNameservers, decodeLossy_encode, markerLine, lines_append _ _ hn, hl,
    List.filterMap_cons_none (by rw [stripPrefix_comment]; rfl)]
  rfl

theorem parseNameservers_render (owner : Text) (config : DnsRouteConfig) (original : Bytes) :
    parseNameservers (encode (render owner config original)) =
      ownerNameservers owner ++ (config.servers.map IpAddr.display ++
        if config.routingDomains ≠ [] then parseNameservers original else []) := by
  let addrs := config.servers.map IpAddr.display ++
    if config.routingDomains ≠ [] then parseNameservers original else []
  have hwords : ∀ addr ∈ addrs, IsWord addr := by
    intro addr h
    obtain h | h := List.mem_append.mp h
    · obtain ⟨server, -, rfl⟩ := List.mem_map.mp h
      exact isWord_display server
    · split_ifs at h
      · exact isWord_of_mem_parseNameservers h
      · cases h
  have hrender : render owner config original =
      (markerPrefix ++ owner) ++ '\n' :: addrs.flatMap nameserverLine := by
    rw [render, markerLine, List.flatMap_append, List.flatMap_map, List.append_assoc,
      List.append_assoc, List.singleton_append]
    split_ifs <;> rfl
  rw [hrender, parseNameservers_append_newline, parseNameservers_lines hwords]
  rfl

end DnsAnnounce.Nameservers
