import DnsAnnounce.StaticBackend

namespace DnsAnnounce.NameserverLines

open DnsAnnounce.Utf8 DnsAnnounce.Str DnsAnnounce.Address DnsAnnounce.Route DnsAnnounce.StaticBackend

def keyword : Text := "nameserver".toList

def lineAddress (line : Text) : Option Text :=
  match splitWhitespace line with
  | first :: addr :: _ => if first = keyword then some addr else none
  | _ => none

def nameserverLines (content : Bytes) : List Text := (lines (decodeLossy content)).filterMap lineAddress

/-- A first word that goes on after the keyword. -/
def Overlong (line : Text) : Prop :=
  ∃ more, more ≠ [] ∧ (splitWhitespace line).head? = some (keyword ++ more)

/-- The entries are read, and in conditional forwarding written, as the content has them. -/
structure ReadsLines (content : Bytes) : Prop where
  read : parseNameservers content = nameserverLines content
  forwarded : ∀ owner (config : DnsRouteConfig), config.routingDomains ≠ [] → render owner config content =
    markerLine owner ++ config.servers.flatMap (fun server => nameserverLine server.display) ++
      (nameserverLines content).flatMap nameserverLine

def entry (line : Text) : Option Text :=
  (stripPrefix keyword (trim line)).bind fun rest => (splitWhitespace rest).head?

theorem parseNameservers_eq (content : Bytes) :
    parseNameservers content = (lines (decodeLossy content)).filterMap entry := rfl

theorem keyword_no_whitespace : ∀ c ∈ keyword, isWhitespace c = false := by
  have hall : keyword.all (fun c => !isWhitespace c) = true := by decide +kernel
  exact fun c hc => (Bool.not_eq_true' _).mp (List.all_eq_true.mp hall c hc)

theorem stripPrefix_keyword {w rest u : Text} (hrest : ∀ c, rest.head? = some c → isWhitespace c = true)
    (h : stripPrefix keyword (w ++ rest) = some u) : ∃ more, w = keyword ++ more ∧ u = more ++ rest := by
  rw [stripPrefix_eq_some] at h
  obtain ⟨more, hw, hu⟩ | ⟨more, hkeyword, hu⟩ := List.append_eq_append_iff.mp h
  · cases more with
    | nil =>
      rw [List.append_nil] at hw
      exact ⟨[], by rw [List.append_nil, hw], hu.symm⟩
    | cons c more =>
      have hblank := hrest c (by rw [hu]; rfl)
      have hletter := keyword_no_whitespace c (by rw [hw]; simp)
      rw [hletter] at hblank
      contradiction
  · exact ⟨more, hkeyword, hu⟩

theorem lineAddress_of_words {line w : Text} {ws : List Text} (h : splitWhitespace line = w :: ws) :
    lineAddress line = if w = keyword then ws.head? else none := by
  rw [lineAddress, h]
  cases ws with
  | nil => rw [List.head?_nil, ite_self]
  | cons addr ws => rfl

theorem overlong_of_words {line w : Text} {ws : List Text} (h : splitWhitespace line = w :: ws) :
    Overlong line ↔ ∃ more, more ≠ [] ∧ w = keyword ++ more := by
  rw [Overlong, h]
  simp only [List.head?_cons, Option.some.injEq]

/-- The code reads a line as it should be read, or makes an entry of one that
is none. -/
theorem entry_cases (line : Text) : ¬ Overlong line ∧ entry line = lineAddress line ∨
    Overlong line ∧ lineAddress line = none ∧ ∃ addr, entry line = some addr := by
  have hwords := splitWhitespace_trim line
  by_cases hblank : trim line = []
  · rw [hblank] at hwords
    refine .inl ⟨?_, ?_⟩
    · rintro ⟨more, -, hfirst⟩
      rw [← hwords] at hfirst
      contradiction
    · rw [entry, hblank, lineAddress, ← hwords]
      rfl
  · obtain ⟨w, rest, hw, hrest, hline⟩ := trim_eq_word_append hblank
    rw [hline, splitWhitespace_append hw hrest] at hwords
    rw [entry, hline, lineAddress_of_words hwords.symm, overlong_of_words hwords.symm]
    cases hstrip : stripPrefix keyword (w ++ rest) with
    | none =>
      have hnot : ∀ more, w ≠ keyword ++ more := by
        rintro more rfl
        rw [List.append_assoc, stripPrefix_append] at hstrip
        contradiction
      refine .inl ⟨fun ⟨more, _, hmore⟩ => hnot more hmore, ?_⟩
      rw [if_neg fun heq => hnot [] (heq.trans (List.append_nil _).symm)]
      rfl
    | some u =>
      obtain ⟨more, rfl, rfl⟩ := stripPrefix_keyword hrest hstrip
      rw [Option.bind_some]
      by_cases hmore : more = []
      · refine .inl ⟨?_, ?_⟩
        · rintro ⟨more', hne, heq⟩
          rw [hmore, List.append_cancel_left_eq] at heq
          exact hne heq.symm
        · rw [hmore, List.append_nil, if_pos rfl]
          rfl
      · have hword : IsWord more := ⟨hmore, fun c hc => hw.2 c (List.mem_append_right _ hc)⟩
        refine .inr ⟨⟨more, hmore, rfl⟩, ?_, more, ?_⟩
        · rw [if_neg fun heq => hmore (List.append_cancel_left (heq.trans (List.append_nil _).symm))]
        · rw [splitWhitespace_append hword hrest]
          rfl

theorem entry_eq_iff (line : Text) : entry line = lineAddress line ↔ ¬ Overlong line := by
  obtain ⟨hok, heq⟩ | ⟨hover, hnone, addr, hentry⟩ := entry_cases line
  · exact iff_of_true heq hok
  · refine iff_of_false (fun heq => ?_) (not_not.mpr hover)
    rw [hentry, hnone] at heq
    contradiction

section Readings

variable {α β : Type} {f g : α → Option β} (h : ∀ a, f a = g a ∨ g a = none)

include h

theorem length_filterMap_le (l : List α) : (l.filterMap g).length ≤ (l.filterMap f).length := by
  induction l with
  | nil => exact le_rfl
  | cons a l ih =>
    obtain hsame | hnone := h a
    · cases hg : g a with
      | none => rwa [List.filterMap_cons_none hg, List.filterMap_cons_none (hsame.trans hg)]
      | some b =>
        rw [List.filterMap_cons_some hg, List.filterMap_cons_some (hsame.trans hg)]
        exact Nat.succ_le_succ ih
    · rw [List.filterMap_cons_none hnone]
      cases hf : f a with
      | none => rwa [List.filterMap_cons_none hf]
      | some b =>
        rw [List.filterMap_cons_some hf]
        exact ih.trans (Nat.le_succ _)

theorem filterMap_eq_iff (l : List α) : l.filterMap f = l.filterMap g ↔ ∀ a ∈ l, f a = g a := by
  refine ⟨fun heq => ?_, fun hall => List.filterMap_congr hall⟩
  induction l with
  | nil => exact List.forall_mem_nil _
  | cons a l ih =>
    by_cases hsame : f a = g a
    · refine List.forall_mem_cons.mpr ⟨hsame, ih ?_⟩
      cases hg : g a with
      | none => rwa [List.filterMap_cons_none hg, List.filterMap_cons_none (hsame.trans hg)] at heq
      | some b =>
        rw [List.filterMap_cons_some hg, List.filterMap_cons_some (hsame.trans hg)] at heq
        exact (List.cons.inj heq).2
    · have hnone := (h a).resolve_left hsame
      obtain ⟨b, hf⟩ := Option.ne_none_iff_exists'.mp fun hf => hsame (hf.trans hnone.symm)
      have hle := length_filterMap_le h l
      rw [List.filterMap_cons_some hf, List.filterMap_cons_none hnone] at heq
      rw [← heq, List.length_cons] at hle
      omega

end Readings

theorem parseNameservers_eq_iff (content : Bytes) : parseNameservers content = nameserverLines content ↔
    ∀ line ∈ lines (decodeLossy content), ¬ Overlong line := by
  rw [parseNameservers_eq, nameserverLines, filterMap_eq_iff]
  · exact forall₂_congr fun line _ => entry_eq_iff line
  · intro line
    obtain ⟨-, heq⟩ | ⟨-, hnone, -⟩ := entry_cases line
    · exact .inl heq
    · exact .inr hnone

/-- The entries are those of the `nameserver` lines exactly if no line's first
word goes on after `nameserver`. -/
theorem readsLines_iff (content : Bytes) : ReadsLines content ↔
    ∀ line ∈ lines (decodeLossy content), ¬ Overlong line := by
  rw [← parseNameservers_eq_iff]
  refine ⟨ReadsLines.read, fun hread => ⟨hread, fun owner config hforward => ?_⟩⟩
  rw [render, if_pos hforward, hread]

def misspelled : Bytes := encode "nameservers x\nnameserver 9.9.9.9\n".toList

/-- A keyword that is not known to the resolver becomes an address. -/
theorem misspelled_keyword_read : parseNameservers misspelled = ["s".toList, "9.9.9.9".toList] ∧
    nameserverLines misspelled = ["9.9.9.9".toList] ∧ ¬ ReadsLines misspelled := by
  have hread : parseNameservers misspelled = ["s".toList, "9.9.9.9".toList] := by decide +kernel
  have hlines : nameserverLines misspelled = ["9.9.9.9".toList] := by decide +kernel
  refine ⟨hread, hlines, fun h => ?_⟩
  have heq := h.read
  rw [hread, hlines] at heq
  exact absurd heq (by decide)

end DnsAnnounce.NameserverLines
