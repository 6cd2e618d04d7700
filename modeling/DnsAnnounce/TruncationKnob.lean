import DnsAnnounce.ResolvconfBackend
import Mathlib.Data.List.ReduceOption

namespace DnsAnnounce.TruncationKnob

open DnsAnnounce.Utf8 DnsAnnounce.Str DnsAnnounce.ResolvconfBackend

def isQuote (c : Char) : Bool := c = '"' || c = '\''

/-- A word and how it is written: as it is, or between two quotes of one kind. -/
inductive Quoted (w : Text) : Text → Prop
  | bare (h : ∀ c ∈ w, isQuote c = false) : Quoted w w
  | quoted {q : Char} (hq : isQuote q = true) (h : q ∉ w) : Quoted w (q :: (w ++ [q]))

/-- What may follow the value: nothing, or a comment behind white space. -/
def IsTail (tail : Text) : Prop :=
  tail = [] ∨ ∃ blank comment, blank ≠ [] ∧ (∀ c ∈ blank, isWhitespace c = true) ∧
    tail = blank ++ '#' :: comment

/-- A line of the defaults file, and the word that it assigns to the knob. -/
inductive IsLine (line : Text) : Option Text → Prop
  | other (h : ¬ truncateKnob ++ ['='] <+: trim line) : IsLine line none
  | assignment {w written tail : Text} (hw : ∀ c ∈ w, isWhitespace c = false) (hq : Quoted w written)
      (ht : IsTail tail) (h : trim line = truncateKnob ++ '=' :: (written ++ tail)) : IsLine line (some w)

def affirmative : List Text := ["y".toList, "Y".toList, "yes".toList, "YES".toList, "Yes".toList]

/-- What the updater makes of the file: the last assignment decides, and to
assign nothing is to leave the knob as it is by default. -/
def reference (entries : List (Option Text)) : Bool :=
  (entries.foldl (fun current entry => entry.or current) none).all fun v =>
    v.isEmpty || affirmative.contains v

def stripQuotes (t : Text) : Text := (t.dropWhile isQuote).rdropWhile isQuote

def bare (w : Text) : Text := stripQuotes (w.takeWhile (· ≠ '#'))

/-- The last word of which anything is left leaves `v`. -/
def InForce (words : List Text) (v : Text) : Prop :=
  ∃ front w back, words = front ++ w :: back ∧ bare w = v ∧ v ≠ [] ∧ ∀ u ∈ back, bare u = []

/-- The words that the code misreads: nothing at the end, with an earlier word
against truncation; or at the end a word that is cut off, with what is in force
not against it. -/
def Misread (words : List Text) : Prop :=
  (words.getLast? = some [] ∧ ∃ v, InForce words v ∧ v ∉ affirmative) ∨
    ∃ w, words.getLast? = some w ∧ bare w ≠ w ∧ ∀ v, InForce words v → v ∈ affirmative

section Line

theorem stripQuotes_append {q t : Text} (hq : ∀ c ∈ q, isQuote c = true) :
    stripQuotes (q ++ t) = stripQuotes t := by
  rw [stripQuotes, List.dropWhile_append_of_pos hq]
  rfl

theorem stripQuotes_quoted {q t : Text} (hq : ∀ c ∈ q, isQuote c = true) :
    stripQuotes (q ++ (t ++ q)) = stripQuotes t := by
  rw [stripQuotes_append hq, stripQuotes, List.dropWhile_append]
  split_ifs with hnil
  · rw [stripQuotes, List.dropWhile_eq_nil_iff.mpr hq, List.isEmpty_iff.mp hnil]
  · exact rdropWhile_append_of_pos _ hq

theorem ne_hash_of_not_mem {t : Text} (h : '#' ∉ t) : ∀ c ∈ t, decide (c ≠ '#') = true := by
  intro c hc
  refine decide_eq_true ?_
  rintro rfl
  exact h hc

theorem takeWhile_tail {tail : Text} (h : IsTail tail) :
    ∀ c ∈ tail.takeWhile (· ≠ '#'), isWhitespace c = true := by
  obtain rfl | ⟨blank, comment, -, hblank, rfl⟩ := h
  · exact List.forall_mem_nil _
  · have hhash : '#' ∉ blank := fun hmem => absurd (hblank '#' hmem) (by decide)
    rw [List.takeWhile_append_of_pos (ne_hash_of_not_mem hhash), List.takeWhile_cons_of_neg (by decide),
      List.append_nil]
    exact hblank

theorem quoted_eq {w written : Text} (h : Quoted w written) :
    ∃ q, (∀ c ∈ q, isQuote c = true) ∧ written = q ++ (w ++ q) := by
  cases h with
  | bare => exact ⟨[], List.forall_mem_nil _, (List.append_nil w).symm⟩
  | quoted hq => exact ⟨[_], List.forall_mem_singleton.mpr hq, rfl⟩

theorem isQuote_cases {c : Char} (h : isQuote c = true) : c = '"' ∨ c = '\'' := by
  rw [isQuote, Bool.or_eq_true, decide_eq_true_eq, decide_eq_true_eq] at h
  exact h

theorem read_value {w written tail : Text} (hw : ∀ c ∈ w, isWhitespace c = false) (hq : Quoted w written)
    (ht : IsTail tail) : stripQuotes (trim ((written ++ tail).takeWhile (· ≠ '#'))) = bare w := by
  obtain ⟨q, hquote, rfl⟩ := quoted_eq hq
  have hqhash : '#' ∉ q := fun hmem => absurd (hquote '#' hmem) (by decide)
  have hqletter : ∀ c ∈ q, isWhitespace c = false := by
    intro c hc
    obtain rfl | rfl := isQuote_cases (hquote c hc) <;> decide
  by_cases hhash : '#' ∈ w
  · obtain ⟨front, back, rfl, hfront⟩ := List.eq_append_cons_of_mem hhash
    have hletters : ∀ c ∈ q ++ front, isWhitespace c = false := fun c hc =>
      (List.mem_append.mp hc).elim (hqletter c) fun hc => hw c (List.mem_append_left _ hc)
    rw [List.append_assoc, List.append_assoc, List.append_assoc,
      List.takeWhile_append_of_pos (ne_hash_of_not_mem hqhash),
      List.takeWhile_append_of_pos (ne_hash_of_not_mem hfront), List.cons_append,
      List.takeWhile_cons_of_neg (by decide), List.append_nil, trim_of_letters hletters,
      stripQuotes_append hquote, bare,
      List.takeWhile_append_of_pos (ne_hash_of_not_mem hfront), List.takeWhile_cons_of_neg (by decide),
      List.append_nil]
  · have hletters : ∀ c ∈ q ++ (w ++ q), isWhitespace c = false := by
      intro c hc
      obtain hc | hc := List.mem_append.mp hc
      · exact hqletter c hc
      · exact (List.mem_append.mp hc).elim (hw c) (hqletter c)
    have hall : '#' ∉ q ++ (w ++ q) := by
      rw [List.mem_append, List.mem_append]
      exact fun h => h.elim hqhash (Or.rec hhash hqhash)
    rw [List.takeWhile_append_of_pos (ne_hash_of_not_mem hall), trim_append hletters (takeWhile_tail ht),
      stripQuotes_quoted hquote, bare, List.takeWhile_eq_self_iff.mpr (ne_hash_of_not_mem hhash)]

def readWord (w : Text) : Option Text := if bare w ≠ [] then some (bare w) else none

theorem assignedValue_of_isLine {line : Text} {entry : Option Text} (h : IsLine line entry) :
    assignedValue line = entry.bind readWord := by
  cases h with
  | other h =>
    rw [assignedValue]
    cases hknob : stripPrefix truncateKnob (trim line) with
    | none => rfl
    | some rest =>
      cases heq : stripPrefix ['='] rest with
      | none =>
        rw [Option.bind_eq_bind, Option.bind_some, heq]
        rfl
      | some value =>
        rw [stripPrefix_eq_some] at hknob heq
        rw [hknob, heq] at h
        exact absurd ((List.prefix_append_right_inj _).mpr (List.prefix_append _ _)) h
  | assignment hw hq ht h =>
    rename_i w written tail
    have hvalue := read_value hw hq ht
    have hequals : stripPrefix ['='] ('=' :: (written ++ tail)) = some (written ++ tail) :=
      stripPrefix_append ['='] _
    rw [assignedValue, h, stripPrefix_append, Option.bind_eq_bind, Option.bind_some, hequals,
      Option.bind_some, Option.bind_some, readWord, ← hvalue]
    rfl

theorem filterMap_assignedValue {src : List Text} {entries : List (Option Text)}
    (h : List.Forall₂ IsLine src entries) :
    src.filterMap assignedValue = entries.reduceOption.filterMap readWord := by
  induction h with
  | nil => rfl
  | @cons line entry src entries hline _ ih =>
    have hvalue := assignedValue_of_isLine hline
    cases entry with
    | none =>
      rw [List.filterMap_cons_none hvalue, ih, List.reduceOption_cons_of_none]
    | some w =>
      rw [List.reduceOption_cons_of_some, List.filterMap_cons, List.filterMap_cons, hvalue, ih]
      rfl

end Line

section Reference

theorem foldl_or (entries : List (Option Text)) :
    entries.foldl (fun current entry => entry.or current) none = entries.reduceOption.getLast? := by
  induction entries using List.reverseRecOn with
  | nil => rfl
  | append_singleton entries entry ih =>
    rw [List.foldl_append, List.foldl_cons, List.foldl_nil, ih, List.reduceOption_append]
    cases entry with
    | none => rw [Option.none_or, List.reduceOption_cons_of_none, List.reduceOption_nil, List.append_nil]
    | some w =>
      rw [Option.some_or, List.reduceOption_cons_of_some, List.reduceOption_nil, List.getLast?_concat]

theorem reference_iff {entries : List (Option Text)} : reference entries = true ↔
    ∀ w, entries.reduceOption.getLast? = some w → w = [] ∨ w ∈ affirmative := by
  rw [reference, foldl_or]
  cases entries.reduceOption.getLast? with
  | none => exact iff_of_true rfl (by simp)
  | some w => simp

theorem readWord_eq_some {w v : Text} : readWord w = some v ↔ bare w = v ∧ v ≠ [] := by
  rw [readWord]
  split_ifs with hbare
  · rw [Option.some.injEq]
    refine ⟨?_, And.left⟩
    rintro rfl
    exact ⟨rfl, hbare⟩
  · rw [not_not] at hbare
    refine iff_of_false (by simp) ?_
    rintro ⟨rfl, hne⟩
    exact hne hbare

theorem readWord_eq_none {w : Text} : readWord w = none ↔ bare w = [] := by
  rw [readWord]
  split_ifs with hbare
  · exact iff_of_false (by simp) hbare
  · exact iff_of_true rfl (not_not.mp hbare)

theorem inForce_iff {words : List Text} {v : Text} :
    InForce words v ↔ (words.filterMap readWord).getLast? = some v := by
  rw [List.getLast?_eq_some_iff]
  constructor
  · rintro ⟨front, w, back, rfl, hbare, hne, hback⟩
    have hnone : back.filterMap readWord = [] :=
      List.filterMap_eq_nil_iff.mpr fun u hu => readWord_eq_none.mpr (hback u hu)
    rw [List.filterMap_append, List.filterMap_cons_some (readWord_eq_some.mpr ⟨hbare, hne⟩), hnone]
    exact ⟨_, rfl⟩
  · rintro ⟨init, h⟩
    obtain ⟨front, rest, rfl, -, hrest⟩ := List.filterMap_eq_append_iff.mp h
    obtain ⟨skipped, w, back, rfl, -, hw, hback⟩ := List.filterMap_eq_cons_iff.mp hrest
    obtain ⟨hbare, hne⟩ := readWord_eq_some.mp hw
    refine ⟨front ++ skipped, w, back, (List.append_assoc _ _ _).symm, hbare, hne, fun u hu => ?_⟩
    exact readWord_eq_none.mp (List.filterMap_eq_nil_iff.mp hback u hu)

theorem truncationEnabled_eq_true {src : Text} {entries : List (Option Text)}
    (h : List.Forall₂ IsLine (lines src) entries) :
    truncationEnabled src = true ↔ ∀ v, InForce entries.reduceOption v → v ∈ affirmative := by
  simp only [inForce_iff]
  rw [truncationEnabled, filterMap_assignedValue h]
  cases (entries.reduceOption.filterMap readWord).getLast? with
  | none => exact iff_of_true rfl (by simp)
  | some v => simp [affirmative]

theorem bare_of_affirmative : ∀ w ∈ affirmative, bare w = w := by decide +kernel

theorem inForce_of_bare {words : List Text} {w : Text} (hlast : words.getLast? = some w) (hbare : bare w = w)
    (hne : w ≠ []) (v : Text) : InForce words v ↔ v = w := by
  obtain ⟨init, rfl⟩ := List.getLast?_eq_some_iff.mp hlast
  have hread : readWord w = some w := readWord_eq_some.mpr ⟨hbare, hne⟩
  rw [inForce_iff, List.filterMap_append, List.filterMap_cons_some hread, List.filterMap_nil,
    List.getLast?_concat, Option.some.injEq, eq_comm]

/-- The knob is read as the updater reads it exactly if the words assigned to
it are not of the kinds that are misread. -/
theorem truncationEnabled_iff {src : Text} {entries : List (Option Text)}
    (h : List.Forall₂ IsLine (lines src) entries) :
    truncationEnabled src = reference entries ↔ ¬ Misread entries.reduceOption := by
  rw [Bool.eq_iff_iff, truncationEnabled_eq_true h, reference_iff]
  generalize entries.reduceOption = words
  have hagainst : (∃ v, InForce words v ∧ v ∉ affirmative) ↔ ¬ ∀ v, InForce words v → v ∈ affirmative := by
    simp only [not_forall, exists_prop]
  rw [Misread, hagainst]
  cases hlast : words.getLast? with
  | none =>
    have hnone : ∀ v, ¬ InForce words v := by
      rw [List.getLast?_eq_none_iff] at hlast
      simp [hlast, inForce_iff]
    simp [hnone]
  | some w =>
    simp only [Option.some.injEq, forall_eq', exists_eq_left']
    by_cases hbare : bare w = w
    · by_cases hnil : w = []
      · subst hnil
        simp [hbare]
      · have hforce := inForce_of_bare hlast hbare hnil
        simp [hforce, hnil, hbare]
    · have hnil : w ≠ [] := by
        rintro rfl
        exact hbare rfl
      have hnot : w ∉ affirmative := fun hmem => hbare (bare_of_affirmative w hmem)
      simp [hnil, hbare, hnot]

def quotedNo : Text := "# split DNS\n".toList ++ truncateKnob ++ "=\"no\" # here\n".toList

theorem no_letters : ∀ c ∈ "no".toList, isWhitespace c = false ∧ isQuote c = false := by
  intro c hc
  obtain rfl | rfl : c = 'n' ∨ c = 'o' := by simpa using hc
  · decide
  · decide

theorem quoted_no_read : truncationEnabled quotedNo = reference [none, some "no".toList] := by
  have hlines : lines quotedNo = ["# split DNS".toList, truncateKnob ++ "=\"no\" # here".toList] := by
    decide +kernel
  have hquoted : Quoted "no".toList "\"no\"".toList := .quoted (q := '"') (by decide) (by decide)
  have htail : IsTail " # here".toList :=
    .inr ⟨[' '], " here".toList, List.cons_ne_nil _ _, List.forall_mem_singleton.mpr (by decide), rfl⟩
  have hfile : List.Forall₂ IsLine (lines quotedNo) [none, some "no".toList] := by
    rw [hlines]
    exact .cons (.other (by decide +kernel))
      (.cons (.assignment (fun c hc => (no_letters c hc).1) hquoted htail (by decide +kernel)) .nil)
  refine (truncationEnabled_iff hfile).mpr ?_
  rintro (⟨hlast, -⟩ | ⟨w, hlast, hbare, -⟩)
  · exact absurd hlast (by decide)
  · obtain rfl := Option.some.inj hlast
    exact hbare (by decide +kernel)

def emptyLast : Text := truncateKnob ++ "=no\n".toList ++ truncateKnob ++ "=\n".toList

/-- The last assignment, of nothing, gives way to the one before it. -/
theorem empty_assignment_ignored : List.Forall₂ IsLine (lines emptyLast) [some "no".toList, some []] ∧
    truncationEnabled emptyLast = false ∧ reference [some "no".toList, some []] = true := by
  have hlines : lines emptyLast = [truncateKnob ++ "=no".toList, truncateKnob ++ "=".toList] := by
    decide +kernel
  have hno : IsLine (truncateKnob ++ "=no".toList) (some "no".toList) :=
    .assignment (fun c hc => (no_letters c hc).1) (.bare fun c hc => (no_letters c hc).2) (.inl rfl)
      (by decide +kernel)
  have hempty : IsLine (truncateKnob ++ "=".toList) (some []) :=
    .assignment (List.forall_mem_nil _) (.bare (List.forall_mem_nil _))
      (.inl rfl) (by decide +kernel)
  refine ⟨?_, by decide +kernel, by decide +kernel⟩
  rw [hlines]
  exact .cons hno (.cons hempty .nil)

end Reference

end DnsAnnounce.TruncationKnob
