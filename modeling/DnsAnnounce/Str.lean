import DnsAnnounce.Separated
import DnsAnnounce.Utf8
import Mathlib.Data.List.DropRight
import Mathlib.Data.List.Basic

namespace DnsAnnounce.Str

open DnsAnnounce.Utf8 DnsAnnounce.Separated

/-- `str::split_inclusive('\n')`: every piece keeps its newline, and only the
last one may be without. -/
def splitInclusive : Text → List Text
  | [] => []
  | c :: cs =>
    if c = '\n' then [c] :: splitInclusive cs
    else match splitInclusive cs with
      | [] => [[c]]
      | l :: ls => (c :: l) :: ls

/-- A carriage return belongs to the line ending only in front of a newline. -/
def stripLineEnding (l : Text) : Text :=
  if l.getLast? = some '\n' then
    if l.dropLast.getLast? = some '\r' then l.dropLast.dropLast else l.dropLast
  else l

/-- `str::lines`. -/
def lines (t : Text) : List Text := (splitInclusive t).map stripLineEnding

/-- `str::strip_prefix`. -/
def stripPrefix (p t : Text) : Option Text := if p.isPrefixOf t then some (t.drop p.length) else none

/-- Unicode `White_Space`, which `char::is_whitespace` tests. -/
def isWhitespace (c : Char) : Bool :=
  let n := c.toNat
  (0x09 ≤ n && n ≤ 0x0D) || n = 0x20 || n = 0x85 || n = 0xA0 || n = 0x1680 ||
    (0x2000 ≤ n && n ≤ 0x200A) || n = 0x2028 || n = 0x2029 || n = 0x202F || n = 0x205F || n = 0x3000

def trim (t : Text) : Text := (t.dropWhile isWhitespace).rdropWhile isWhitespace

/-- `str::trim_end_matches`. -/
def trimEndMatches (p : Char) (t : Text) : Text := t.rdropWhile (· = p)

/-- `str::split_whitespace`. -/
def splitWhitespace (t : Text) : List Text := (t.splitOnP isWhitespace).filter (· ≠ [])

theorem splitInclusive_append (l rest : Text) (hl : '\n' ∉ l) :
    splitInclusive (l ++ '\n' :: rest) = (l ++ ['\n']) :: splitInclusive rest := by
  induction l with
  | nil => simp [splitInclusive]
  | cons c l ih =>
    rw [List.mem_cons, not_or] at hl
    rw [List.cons_append, splitInclusive, if_neg (Ne.symm hl.1), ih hl.2]
    rfl

theorem newline_not_mem_dropLast {t l : Text} (h : l ∈ splitInclusive t) : '\n' ∉ l.dropLast := by
  induction t generalizing l with
  | nil => simp [splitInclusive] at h
  | cons c cs ih =>
    rw [splitInclusive] at h
    split_ifs at h with hc
    · obtain rfl | h := List.mem_cons.mp h
      · simp
      · exact ih h
    · cases hs : splitInclusive cs with
      | nil =>
        rw [hs, List.mem_singleton] at h
        simp [h]
      | cons k ks =>
        rw [hs] at h ih
        obtain rfl | h := List.mem_cons.mp h
        · have hk := ih (List.mem_cons_self ..)
          cases k with
          | nil => simp
          | cons d k => simpa [List.dropLast_cons_cons, Ne.symm hc] using hk
        · exact ih (List.mem_cons_of_mem _ h)

theorem newline_not_mem_lines {t l : Text} (h : l ∈ lines t) : '\n' ∉ l := by
  obtain ⟨k, hk, rfl⟩ := List.mem_map.mp h
  have hd := newline_not_mem_dropLast hk
  rw [stripLineEnding]
  split_ifs with h1 h2
  · exact fun hm => hd (List.dropLast_subset _ hm)
  · exact hd
  · intro hm
    obtain rfl | ⟨k', c, rfl⟩ := List.eq_nil_or_concat' k
    · simp at hm
    · rw [List.dropLast_concat] at hd
      rw [List.getLast?_concat, Option.some.injEq] at h1
      obtain hm | hm := List.mem_append.mp hm
      · exact hd hm
      · exact h1 (List.mem_singleton.mp hm).symm

theorem stripLineEnding_newline (l : Text) :
    stripLineEnding (l ++ ['\n']) = if l.getLast? = some '\r' then l.dropLast else l := by
  rw [stripLineEnding, List.getLast?_concat, if_pos rfl, List.dropLast_concat]

theorem lines_append (l rest : Text) (hl : '\n' ∉ l) :
    lines (l ++ '\n' :: rest) = (if l.getLast? = some '\r' then l.dropLast else l) :: lines rest := by
  rw [lines, splitInclusive_append l rest hl, List.map_cons, stripLineEnding_newline]
  rfl

theorem splitInclusive_append_newline (t rest : Text) :
    splitInclusive (t ++ '\n' :: rest) = splitInclusive (t ++ ['\n']) ++ splitInclusive rest := by
  induction t with
  | nil => rfl
  | cons c t ih =>
    rw [List.cons_append, List.cons_append, splitInclusive, splitInclusive]
    split_ifs with hc
    · rw [ih, List.cons_append]
    · have hne : splitInclusive (t ++ ['\n']) ≠ [] := by
        cases t with
        | nil => exact List.cons_ne_nil _ _
        | cons d t =>
          rw [List.cons_append, splitInclusive]
          split
          · exact List.cons_ne_nil _ _
          · split <;> exact List.cons_ne_nil _ _
      obtain ⟨l, ls, hl⟩ := List.exists_cons_of_ne_nil hne
      rw [ih, hl]
      rfl

theorem lines_append_newline (t rest : Text) :
    lines (t ++ '\n' :: rest) = lines (t ++ ['\n']) ++ lines rest := by
  rw [lines, lines, lines, splitInclusive_append_newline, List.map_append]

theorem stripPrefix_append (p t : Text) : stripPrefix p (p ++ t) = some t := by
  simp [stripPrefix]

theorem stripPrefix_eq_some {p t u : Text} : stripPrefix p t = some u ↔ t = p ++ u := by
  constructor
  · intro h
    rw [stripPrefix] at h
    split_ifs at h with hp
    obtain ⟨v, rfl⟩ := List.isPrefixOf_iff_prefix.mp hp
    simpa using h
  · rintro rfl
    exact stripPrefix_append p u

theorem trim_eq_self {t : Text} (hh : ∀ c, t.head? = some c → isWhitespace c = false)
    (hl : ∀ c, t.getLast? = some c → isWhitespace c = false) : trim t = t := by
  have hd : t.dropWhile isWhitespace = t := by
    cases t with
    | nil => rfl
    | cons c t => rw [List.dropWhile_cons_of_neg (by rw [hh c rfl]; decide)]
  rw [trim, hd, List.rdropWhile_eq_self_iff]
  intro hne
  rw [hl _ (List.getLast?_eq_some_getLast hne)]
  decide

theorem trim_of_letters {t : Text} (ht : ∀ c ∈ t, isWhitespace c = false) : trim t = t :=
  trim_eq_self (fun c hc => ht c (List.mem_of_head? hc)) fun c hc => ht c (List.mem_of_getLast? hc)

theorem rdropWhile_append_of_pos {p : Char → Bool} (t : Text) {u : Text} (hu : ∀ c ∈ u, p c = true) :
    (t ++ u).rdropWhile p = t.rdropWhile p := by
  rw [List.rdropWhile, List.reverse_append, List.dropWhile_append_of_pos]
  · rfl
  · exact fun c hc => hu c (List.mem_reverse.mp hc)

theorem trim_append {t blank : Text} (ht : ∀ c ∈ t, isWhitespace c = false)
    (hblank : ∀ c ∈ blank, isWhitespace c = true) : trim (t ++ blank) = t := by
  cases t with
  | nil => rw [List.nil_append, trim, List.dropWhile_eq_nil_iff.mpr hblank, List.rdropWhile_nil]
  | cons c t =>
    have hc : ¬ isWhitespace c = true := by
      rw [ht c List.mem_cons_self]
      decide
    rw [trim, List.cons_append, List.dropWhile_cons_of_neg hc, ← List.cons_append,
      rdropWhile_append_of_pos _ hblank, List.rdropWhile_eq_self_iff]
    intro hne
    rw [ht _ (List.getLast_mem hne)]
    decide

theorem trimEndMatches_concat (p : Char) (t : Text) : trimEndMatches p (t ++ [p]) = trimEndMatches p t :=
  List.rdropWhile_concat_pos _ _ _ (decide_eq_true rfl)

theorem trimEndMatches_eq_self {p : Char} {t : Text} (h : t.getLast? ≠ some p) : trimEndMatches p t = t := by
  rw [trimEndMatches, List.rdropWhile_eq_self_iff]
  intro hne hlast
  rw [List.getLast?_eq_some_getLast hne, of_decide_eq_true hlast] at h
  contradiction

theorem getLast_trimEndMatches (p : Char) (t : Text) : (trimEndMatches p t).getLast? ≠ some p := by
  intro hlast
  obtain ⟨init, hinit⟩ := List.getLast?_eq_some_iff.mp hlast
  have hne : t.rdropWhile (· = p) ≠ [] := by
    rw [trimEndMatches] at hinit
    rw [hinit]
    exact List.concat_ne_nil _ _
  have hnot := List.rdropWhile_last_not (fun c => decide (c = p)) t hne
  rw [trimEndMatches, List.getLast?_eq_some_getLast hne, Option.some.injEq] at hlast
  exact hnot (decide_eq_true hlast)

theorem trimEndMatches_replicate (p : Char) (t : Text) (n : Nat) :
    trimEndMatches p (t ++ List.replicate n p) = trimEndMatches p t := by
  induction n with
  | zero => rw [List.replicate_zero, List.append_nil]
  | succ n ih => rw [List.replicate_succ', ← List.append_assoc, trimEndMatches_concat, ih]

/-- A word is not empty and has no white space in it. -/
def IsWord (w : Text) : Prop := w ≠ [] ∧ ∀ c ∈ w, isWhitespace c = false

theorem splitWhitespace_append_cons {c : Char} (hc : isWhitespace c = true) (t u : Text) :
    splitWhitespace (t ++ c :: u) = splitWhitespace t ++ splitWhitespace u := by
  rw [splitWhitespace, List.splitOnP_append_cons t u hc, List.filter_append]
  rfl

theorem splitWhitespace_cons {c : Char} (hc : isWhitespace c = true) (t : Text) :
    splitWhitespace (c :: t) = splitWhitespace t :=
  splitWhitespace_append_cons hc [] t

theorem splitWhitespace_of_isWord {w : Text} (h : IsWord w) : splitWhitespace w = [w] := by
  have hsplit : w.splitOnP isWhitespace = [w] := List.splitOnP_eq_singleton fun c hc => h.2 c hc
  rw [splitWhitespace, hsplit]
  simp [h.1]

theorem splitWhitespace_word {w : Text} (h : IsWord w) : splitWhitespace (' ' :: w) = [w] := by
  rw [splitWhitespace_cons (by decide), splitWhitespace_of_isWord h]

theorem splitWhitespace_append {w rest : Text} (hw : IsWord w)
    (hrest : ∀ c, rest.head? = some c → isWhitespace c = true) :
    splitWhitespace (w ++ rest) = w :: splitWhitespace rest := by
  cases rest with
  | nil =>
    rw [List.append_nil, splitWhitespace_of_isWord hw]
    rfl
  | cons c rest =>
    have hc := hrest c rfl
    rw [splitWhitespace_append_cons hc, splitWhitespace_of_isWord hw, splitWhitespace_cons hc]
    rfl

theorem splitWhitespace_trim (t : Text) : splitWhitespace (trim t) = splitWhitespace t := by
  have hfront (u : Text) : splitWhitespace (u.dropWhile isWhitespace) = splitWhitespace u := by
    induction u with
    | nil => rfl
    | cons c u ih =>
      by_cases hc : isWhitespace c = true
      · rw [List.dropWhile_cons_of_pos hc, ih, splitWhitespace_cons hc]
      · rw [List.dropWhile_cons_of_neg hc]
  have hback (u : Text) : splitWhitespace (u.rdropWhile isWhitespace) = splitWhitespace u := by
    induction u using List.reverseRecOn with
    | nil => rfl
    | append_singleton u c ih =>
      by_cases hc : isWhitespace c = true
      · rw [List.rdropWhile_concat_pos _ _ _ hc, ih, splitWhitespace_append_cons hc]
        exact (List.append_nil _).symm
      · rw [List.rdropWhile_concat_neg _ _ _ hc]
  rw [trim, hback, hfront]

theorem head_trim {t : Text} {c : Char} (h : (trim t).head? = some c) : isWhitespace c = false := by
  have hprefix : trim t <+: t.dropWhile isWhitespace := List.rdropWhile_prefix _ _
  obtain ⟨rest, hrest⟩ := hprefix
  have hhead : (t.dropWhile isWhitespace).head? = some c := by
    rw [← hrest, List.head?_append, h, Option.some_or]
  have hnot := List.head?_dropWhile_not isWhitespace t
  rwa [hhead] at hnot

theorem trim_eq_word_append {t : Text} (h : trim t ≠ []) : ∃ w rest, IsWord w ∧
    (∀ c, rest.head? = some c → isWhitespace c = true) ∧ trim t = w ++ rest := by
  let letter := fun c => !isWhitespace c
  obtain ⟨first, u, hu⟩ := List.exists_cons_of_ne_nil h
  have hfirst : letter first = true := by
    rw [Bool.not_eq_true']
    exact head_trim (by rw [hu]; rfl)
  refine ⟨(trim t).takeWhile letter, (trim t).dropWhile letter, ⟨?_, fun c hc => ?_⟩, fun c hc => ?_,
    List.takeWhile_append_dropWhile.symm⟩
  · rw [hu, List.takeWhile_cons_of_pos hfirst]
    exact List.cons_ne_nil _ _
  · have hletter : letter c = true := List.mem_takeWhile_imp hc
    exact (Bool.not_eq_true' _).mp hletter
  · have hnot := List.head?_dropWhile_not letter (trim t)
    rw [hc] at hnot
    exact (Bool.not_eq_false' _).mp hnot

theorem isWord_of_mem_splitWhitespace {t w : Text} (h : w ∈ splitWhitespace t) : IsWord w := by
  obtain ⟨hw, hne⟩ := List.mem_filter.mp h
  exact ⟨of_decide_eq_true hne, not_of_mem_splitOnP hw⟩

end DnsAnnounce.Str
