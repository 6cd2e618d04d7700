import Mathlib.Data.List.Basic

namespace DnsAnnounce.Runs

variable {S A C : Type} (step : S → C → S)

def run (s : S) (cs : List C) : S := cs.foldl step s

/-- `P` holds of every call of a run, in the state the call finds. -/
def Along (P : S → C → Prop) : S → List C → Prop
  | _, [] => True
  | s, c :: cs => P s c ∧ Along P (step s c) cs

instance decidableAlong {P : S → C → Prop} [∀ s c, Decidable (P s c)] :
    (s : S) → (cs : List C) → Decidable (Along step P s cs)
  | _, [] => isTrue trivial
  | s, c :: cs =>
    haveI : Decidable (Along step P (step s c) cs) := decidableAlong (step s c) cs
    inferInstanceAs (Decidable (_ ∧ _))

@[simp] theorem run_nil (s : S) : run step s [] = s := rfl

@[simp] theorem run_cons (s : S) (c : C) (cs : List C) :
    run step s (c :: cs) = run step (step s c) cs := rfl

@[simp] theorem run_append (s : S) (cs ds : List C) :
    run step s (cs ++ ds) = run step (run step s cs) ds := List.foldl_append

theorem along_append (P : S → C → Prop) (s : S) (cs ds : List C) :
    Along step P s (cs ++ ds) ↔ Along step P s cs ∧ Along step P (run step s cs) ds := by
  induction cs generalizing s with
  | nil => exact ⟨fun h => ⟨trivial, h⟩, fun h => h.2⟩
  | cons c cs ih => simp only [List.cons_append, Along, run_cons, ih, and_assoc]

theorem not_along_iff (P : S → C → Prop) (s : S) (cs : List C) :
    ¬ Along step P s cs ↔
      ∃ pre c post, cs = pre ++ c :: post ∧ Along step P s pre ∧ ¬ P (run step s pre) c := by
  constructor
  · intro h
    induction cs generalizing s with
    | nil => exact absurd trivial h
    | cons c cs ih =>
      by_cases hc : P s c
      · have ht : ¬ Along step P (step s c) cs := fun ha => h ⟨hc, ha⟩
        obtain ⟨pre, d, post, rfl, hpre, hd⟩ := ih _ ht
        exact ⟨c :: pre, d, post, rfl, ⟨hc, hpre⟩, hd⟩
      · exact ⟨[], c, cs, rfl, trivial, hc⟩
  · rintro ⟨pre, c, post, rfl, -, hc⟩ h
    exact hc ((along_append step P s pre (c :: post)).mp h).2.1

theorem along_of_forall {P : S → C → Prop} (h : ∀ s c, P s c) (s : S) (cs : List C) :
    Along step P s cs := by
  induction cs generalizing s with
  | nil => trivial
  | cons c cs ih => exact ⟨h s c, ih _⟩

theorem along_of_mem {P : C → Prop} {cs : List C} (h : ∀ c ∈ cs, P c) (s : S) :
    Along step (fun _ c => P c) s cs := by
  induction cs generalizing s with
  | nil => trivial
  | cons c cs ih =>
    exact ⟨h c List.mem_cons_self, ih (fun d hd => h d (List.mem_cons_of_mem c hd)) _⟩

theorem run_invariant {I : S → Prop} (hstep : ∀ s c, I s → I (step s c)) {s : S} (hs : I s)
    (cs : List C) : I (run step s cs) := by
  induction cs generalizing s with
  | nil => exact hs
  | cons c cs ih => exact ih (hstep s c hs)

theorem run_invariant_of_mem {I : S → Prop} {P : C → Prop} (hstep : ∀ s c, P c → I s → I (step s c)) {s : S}
    (hs : I s) {cs : List C} (hcs : ∀ c ∈ cs, P c) : I (run step s cs) := by
  induction cs generalizing s with
  | nil => exact hs
  | cons c cs ih =>
    exact ih (hstep s c (hcs c List.mem_cons_self) hs) fun d hd => hcs d (List.mem_cons_of_mem c hd)

/-- If each call undoes the one before it, a run is its last call. -/
theorem run_concat_of_absorbs {I : S → Prop} (hstep : ∀ s c, I s → I (step s c))
    (habsorb : ∀ s c d, I s → step (step s c) d = step s d) {s : S} (hs : I s) (cs : List C) (d : C) :
    run step s (cs ++ [d]) = step s d := by
  induction cs generalizing s with
  | nil => rfl
  | cons c cs ih => rw [List.cons_append, run_cons, ih (hstep s c hs), habsorb s c d hs]

/-- Forward simulation: as long as the abstract run stays inside `G`, the
concrete run stays related to it. -/
theorem run_simulates {step : S → C → S} {astep : A → C → A} {R : S → A → Prop}
    {G : A → C → Prop}
    (hstep : ∀ s a c, R s a → G a c → R (step s c) (astep a c)) {s : S} {a : A} (h : R s a)
    {cs : List C} (hg : Along astep G a cs) : R (run step s cs) (run astep a cs) := by
  induction cs generalizing s a with
  | nil => exact h
  | cons c cs ih => exact ih (hstep s a c h hg.1) hg.2

theorem along_congr {P G : S → C → Prop} {I : S → Prop} {V : C → Prop}
    (hiff : ∀ s c, V c → I s → (P s c ↔ G s c)) (hstep : ∀ s c, V c → I s → G s c → I (step s c))
    {s : S} (hs : I s) {cs : List C} (hv : ∀ c ∈ cs, V c) :
    Along step P s cs ↔ Along step G s cs := by
  induction cs generalizing s with
  | nil => exact Iff.rfl
  | cons c cs ih =>
    have hc := hv c List.mem_cons_self
    have ht := fun d hd => hv d (List.mem_cons_of_mem c hd)
    have hpg := hiff s c hc hs
    constructor
    · rintro ⟨hp, hrest⟩
      have hg := hpg.mp hp
      exact ⟨hg, (ih (hstep s c hc hs hg) ht).mp hrest⟩
    · rintro ⟨hg, hrest⟩
      exact ⟨hpg.mpr hg, (ih (hstep s c hc hs hg) ht).mpr hrest⟩

/-- What the relation guarantees, and every call outside `G` breaks, holds all
through a run exactly if the run stays inside `G`. `V` is what the calls of the
run are known to satisfy. -/
theorem throughout_iff {step : S → C → S} {astep : A → C → A} {R Q : S → A → Prop}
    {G : A → C → Prop} {V : C → Prop} (hkeep : ∀ s a, R s a → Q s a)
    (hstep : ∀ s a c, V c → R s a → G a c → R (step s c) (astep a c))
    (hbreak : ∀ s a c, V c → R s a → ¬ G a c → ¬ Q (step s c) (astep a c))
    {s : S} {a : A} (h : R s a) {cs : List C} (hv : ∀ c ∈ cs, V c) :
    (∀ pre, pre <+: cs → Q (run step s pre) (run astep a pre)) ↔ Along astep G a cs := by
  induction cs generalizing s a with
  | nil =>
    refine iff_of_true (fun pre hpre => ?_) trivial
    rw [List.prefix_nil.mp hpre]
    exact hkeep _ _ h
  | cons c cs ih =>
    have hc := hv c List.mem_cons_self
    have ht := fun d hd => hv d (List.mem_cons_of_mem c hd)
    constructor
    · intro hall
      have hg : G a c := by
        by_contra hg
        exact hbreak _ _ _ hc h hg (hall [c] (List.prefix_append [c] cs))
      refine ⟨hg, (ih (hstep _ _ _ hc h hg) ht).mp fun pre hpre => ?_⟩
      exact hall (c :: pre) ((List.prefix_cons_inj c).mpr hpre)
    · rintro ⟨hg, hrest⟩ pre hpre
      cases pre with
      | nil => exact hkeep _ _ h
      | cons d pre =>
        obtain ⟨rfl, htail⟩ := List.cons_prefix_cons.mp hpre
        exact (ih (hstep _ _ _ hc h hg) ht).mpr hrest pre htail

theorem run_of_settles {P : C → Prop} [DecidablePred P] {s t : S} {cs : List C}
    (hs : ∀ c ∈ cs, P c → step s c = t) (ht : ∀ c ∈ cs, P c → step t c = t)
    (hother : ∀ u, ∀ c ∈ cs, ¬ P c → step u c = u) :
    run step s cs = if ∃ c ∈ cs, P c then t else s := by
  have hstays : ∀ cs' : List C, (∀ c ∈ cs', c ∈ cs) → run step t cs' = t := by
    intro cs' hmem
    induction cs' with
    | nil => rfl
    | cons c cs' ih =>
      have hc := hmem c List.mem_cons_self
      have hstep : step t c = t := by
        by_cases hp : P c
        · exact ht c hc hp
        · exact hother t c hc hp
      rw [run_cons, hstep, ih fun d hd => hmem d (List.mem_cons_of_mem c hd)]
  induction cs with
  | nil => exact (if_neg (by simp)).symm
  | cons c cs ih =>
    have hc : c ∈ c :: cs := List.mem_cons_self
    have htail : ∀ d ∈ cs, d ∈ c :: cs := fun d hd => List.mem_cons_of_mem c hd
    by_cases hp : P c
    · rw [run_cons, hs c hc hp, hstays cs htail, if_pos ⟨c, hc, hp⟩]
    · rw [run_cons, hother s c hc hp, ih (fun d hd => hs d (htail d hd)) (fun d hd => ht d (htail d hd))
        (fun u d hd => hother u d (htail d hd)) fun cs' hmem => hstays cs' fun d hd => htail d (hmem d hd)]
      simp only [List.exists_mem_cons_iff, hp, false_or]

section Guarded

variable (step : S → C → Option S)

/-- A run of steps each of which may be impossible where it is tried. -/
def guardedRun (s : S) (cs : List C) : Option S := cs.foldlM step s

@[simp] theorem guardedRun_nil (s : S) : guardedRun step s [] = some s := rfl

theorem guardedRun_cons (s : S) (c : C) (cs : List C) :
    guardedRun step s (c :: cs) = (step s c).bind fun t => guardedRun step t cs := rfl

theorem guardedRun_cons_eq_some {s u : S} {c : C} {cs : List C} :
    guardedRun step s (c :: cs) = some u ↔ ∃ t, step s c = some t ∧ guardedRun step t cs = some u :=
  Option.bind_eq_some_iff

variable {step}

theorem guardedRun_append {s t u : S} {cs ds : List C} (h : guardedRun step s cs = some t)
    (h' : guardedRun step t ds = some u) : guardedRun step s (cs ++ ds) = some u := by
  rw [guardedRun] at h h' ⊢
  rw [List.foldlM_append, h]
  exact h'

/-- What every step relates, from the calls still to come to what they lead to,
the run relates. -/
theorem guardedRun_induction {R : S → List C → S → Prop} (hnil : ∀ s, R s [] s)
    (hcons : ∀ s c t cs u, step s c = some t → R t cs u → R s (c :: cs) u) {s u : S} {cs : List C}
    (h : guardedRun step s cs = some u) : R s cs u := by
  induction cs generalizing s with
  | nil =>
    obtain rfl := Option.some.inj h
    exact hnil s
  | cons c cs ih =>
    obtain ⟨t, hstep, hrest⟩ := (guardedRun_cons_eq_some step).mp h
    exact hcons s c t cs u hstep (ih hrest)

theorem guardedRun_invariant {I : S → Prop} (hstep : ∀ s c t, step s c = some t → I s → I t) {s u : S}
    {cs : List C} (h : guardedRun step s cs = some u) (hs : I s) : I u :=
  guardedRun_induction (R := fun s _ u => I s → I u) (fun _ h => h)
    (fun s c t _ _ hc ih hs => ih (hstep s c t hc hs)) h hs

/-- As long as every step takes something off a quantity, there are no more steps
than that. -/
theorem guardedRun_length_le {left : S → Nat} {I : S → Prop} {P : C → Prop}
    (hstep : ∀ s c t, step s c = some t → P c → I s → I t ∧ left t < left s) {s u : S} {cs : List C}
    (h : guardedRun step s cs = some u) (hcs : ∀ c ∈ cs, P c) (hs : I s) :
    cs.length + left u ≤ left s := by
  refine guardedRun_induction
    (R := fun s cs u => (∀ c ∈ cs, P c) → I s → cs.length + left u ≤ left s)
    (fun s _ _ => by simp) (fun s c t cs u hc ih hcs hs => ?_) h hcs hs
  obtain ⟨ht, hlt⟩ := hstep s c t hc (hcs c List.mem_cons_self) hs
  have hrest := ih (fun d hd => hcs d (List.mem_cons_of_mem c hd)) ht
  rw [List.length_cons]
  omega

end Guarded

/-- `Shuffle xs ys zs`: `zs` runs through `xs` and `ys`, each in its own order. -/
inductive Shuffle : List A → List A → List A → Prop
  | nil : Shuffle [] [] []
  | left {x : A} {xs ys zs : List A} : Shuffle xs ys zs → Shuffle (x :: xs) ys (x :: zs)
  | right {y : A} {xs ys zs : List A} : Shuffle xs ys zs → Shuffle xs (y :: ys) (y :: zs)

theorem Shuffle.map {xs ys zs : List A} (h : Shuffle xs ys zs) (f : A → C) :
    Shuffle (xs.map f) (ys.map f) (zs.map f) := by
  induction h with
  | nil => exact .nil
  | left _ ih => exact .left ih
  | right _ ih => exact .right ih

end DnsAnnounce.Runs
