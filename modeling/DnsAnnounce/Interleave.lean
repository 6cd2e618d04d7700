import DnsAnnounce.Embed
import DnsAnnounce.Runs

namespace DnsAnnounce.Interleave

open DnsAnnounce.Effect DnsAnnounce.Embed DnsAnnounce.Runs

variable {Call Call' : Type} {Resp : Call → Type} {Resp' : Call' → Type} {S T D ι Self ε α β : Type}

/-- As long as it is told only what `Says` allows, the program makes only calls of
these, and returns one of those. -/
def Abides (P : Call → Prop) (Says : (c : Call) → Resp c → Prop) (Q : α → Prop) : Prog Call Resp α → Prop
  | .ret a => Q a
  | .call c next => P c ∧ ∀ r, Says c r → Abides P Says Q (next r)

namespace Abides

variable {P : Call → Prop} {Says : (c : Call) → Resp c → Prop} {Q : α → Prop} {R : β → Prop}

theorem bind {prog : Prog Call Resp α} {f : α → Prog Call Resp β} (hp : Abides P Says Q prog)
    (hf : ∀ a, Q a → Abides P Says R (f a)) : Abides P Says R (prog.bind f) := by
  induction prog with
  | ret a => exact hf a hp
  | call c next ih => exact ⟨hp.1, fun r hr => ih r (hp.2 r hr)⟩

theorem embed {i : Inclusion Call Resp Call' Resp'} {P' : Call' → Prop}
    {Says' : (c : Call') → Resp' c → Prop} (hP : ∀ c, P c → P' (i.call c))
    (hSays : ∀ c r, Says' (i.call c) r → Says c (i.answer c r)) {prog : Prog Call Resp α}
    (hp : Abides P Says Q prog) : Abides P' Says' Q (Embed.embed i prog) := by
  induction prog with
  | ret a => exact hp
  | call c next ih => exact ⟨hP c hp.1, fun r hr => ih _ (hp.2 _ (hSays c r hr))⟩

theorem of_confined {prog : Prog Call Resp α} (hp : Confined P prog) :
    Abides P Says (fun _ => True) prog := by
  induction prog with
  | ret a => trivial
  | call c next ih => exact ⟨hp.1, fun r _ => ih r (hp.2 r)⟩

theorem of_minds {Q : Self → Prop} {prog : Prog Call Resp (Except ε α × Self)} (hp : Minds P Q prog) :
    Abides P Says (fun x => Q x.2) prog := by
  induction prog with
  | ret r => exact hp
  | call c next ih => exact ⟨hp.1, fun r _ => ih r (hp.2 r)⟩

section Methods

variable {self : Self} {m : Method Call Resp Self ε α} {f : α → Method Call Resp Self ε β}
  {Q : Except ε α × Self → Prop} {R : Except ε β × Self → Prop}

theorem next (hm : Abides P Says Q (m self))
    (hok : ∀ a self', Q (.ok a, self') → Abides P Says R (f a self'))
    (herr : ∀ e self', Q (.error e, self') → R (.error e, self')) : Abides P Says R ((m >>= f) self) := by
  refine hm.bind fun x hx => ?_
  obtain ⟨_ | a, self'⟩ := x
  · exact herr _ self' hx
  · exact hok a self' hx

theorem within {i : Inclusion Call Resp Call' Resp'} {P' : Call' → Prop}
    {Says' : (c : Call') → Resp' c → Prop} {Self' ε' : Type} {wrap : Self → Self'} {wrapError : ε → ε'}
    (hP : ∀ c, P c → P' (i.call c)) (hSays : ∀ c r, Says' (i.call c) r → Says c (i.answer c r))
    {Q : Self → Prop} {R : Self' → Prop} (hwrap : ∀ self, Q self → R (wrap self))
    (hm : Abides P Says (fun x => Q x.2) (m self)) :
    Abides P' Says' (fun x => R x.2) (Embed.within i wrap wrapError m self) :=
  (hm.embed hP hSays).bind fun x hx => hwrap x.2 hx

end Methods

end Abides

section Alone

variable (h : Handler Call Resp S)

def advance : Prog Call Resp α × S → Prog Call Resp α × S
  | (.ret a, s) => (.ret a, s)
  | (.call c next, s) => (next (h c s).1, (h c s).2)

def alone (h : D → Handler Call Resp S) (st : Prog Call Resp α × S) (ds : List D) : Prog Call Resp α × S :=
  run (fun st d => advance (h d) st) st ds

theorem alone_ret (h : D → Handler Call Resp S) (a : α) (s : S) (ds : List D) :
    alone h (.ret a, s) ds = (.ret a, s) := by
  induction ds with
  | nil => rfl
  | cons d ds ih => exact ih

theorem alone_eq_exec {h : D → Handler Call Resp S} {h₀ : Handler Call Resp S} {prog : Prog Call Resp α}
    {s : S} {ds : List D} (hds : ∀ d ∈ ds, h d = h₀) (hturns : (calls h₀ prog s).length ≤ ds.length) :
    alone h (prog, s) ds = (.ret (exec h₀ prog s).1, (exec h₀ prog s).2) := by
  induction ds generalizing prog s with
  | nil =>
    cases prog with
    | ret a => rfl
    | call c next => exact absurd hturns (Nat.not_succ_le_zero _)
  | cons d ds ih =>
    cases prog with
    | ret a => exact alone_ret h a s (d :: ds)
    | call c next =>
      have hd := hds d List.mem_cons_self
      rw [alone, run_cons, advance, hd]
      exact ih (fun e he => hds e (List.mem_cons_of_mem d he)) (Nat.le_of_succ_le_succ hturns)

end Alone

section Turns

/-- Each program is told by the shared surroundings what it would be told by its own,
and what it does there the others cannot tell. -/
structure Separate (h : ι → D → Handler Call Resp S) (own : ι → D → Handler Call Resp T)
    (P : ι → Call → Prop) (Says : (c : Call) → Resp c → Prop) (Alike : ι → S → T → Prop) : Prop where
  truthful : ∀ i d c t, P i c → Says c (own i d c t).1
  answers : ∀ i d c s t, P i c → Alike i s t → (h i d c s).1 = (own i d c t).1
  does : ∀ i d c s t, P i c → Alike i s t → Alike i (h i d c s).2 (own i d c t).2
  others : ∀ i j d c s t u, i ≠ j → P i c → Alike i s t → Alike j s u → Alike j (h i d c s).2 u

variable {h : ι → D → Handler Call Resp S} {own : ι → D → Handler Call Resp T} {P : ι → Call → Prop}
  {Says : (c : Call) → Resp c → Prop} {Alike : ι → S → T → Prop} {Q : α → Prop}

theorem advance_own (hs : Separate h own P Says Alike) {i : ι} (d : D) {prog : Prog Call Resp α} {s : S}
    {t : T} (hp : Abides (P i) Says Q prog) (ha : Alike i s t) :
    (advance (h i d) (prog, s)).1 = (advance (own i d) (prog, t)).1 ∧
      Abides (P i) Says Q (advance (h i d) (prog, s)).1 ∧
      Alike i (advance (h i d) (prog, s)).2 (advance (own i d) (prog, t)).2 := by
  cases prog with
  | ret a => exact ⟨rfl, hp, ha⟩
  | call c next =>
    have hanswer := hs.answers i d c s t hp.1 ha
    refine ⟨congrArg next hanswer, hp.2 _ ?_, hs.does i d c s t hp.1 ha⟩
    rw [hanswer]
    exact hs.truthful i d c t hp.1

theorem advance_others (hs : Separate h own P Says Alike) {i j : ι} (hne : i ≠ j) (d : D)
    {prog : Prog Call Resp α} {s : S} {t u : T} (hp : Abides (P i) Says Q prog) (hi : Alike i s t)
    (hj : Alike j s u) : Alike j (advance (h i d) (prog, s)).2 u := by
  cases prog with
  | ret a => exact hj
  | call c next => exact hs.others i j d c s t u hne hp.1 hi hj

/-- Programs that take turns on the surroundings they share. -/
structure System (ι Call : Type) (Resp : Call → Type) (S α : Type) where
  progs : ι → Prog Call Resp α
  shared : S

variable [DecidableEq ι]

def turn (h : ι → D → Handler Call Resp S) (st : System ι Call Resp S α) (t : ι × D) :
    System ι Call Resp S α :=
  let next := advance (h t.1 t.2) (st.progs t.1, st.shared)
  ⟨Function.update st.progs t.1 next.1, next.2⟩

theorem turn_self (st : System ι Call Resp S α) (i : ι) (d : D) :
    (turn h st (i, d)).progs i = (advance (h i d) (st.progs i, st.shared)).1 := Function.update_self ..

theorem turn_of_ne (st : System ι Call Resp S α) {i j : ι} (hne : j ≠ i) (d : D) :
    (turn h st (i, d)).progs j = st.progs j := Function.update_of_ne hne ..

def turnsOf (i : ι) (ts : List (ι × D)) : List D :=
  ts.filterMap fun t => if t.1 = i then some t.2 else none

theorem turnsOf_cons_self (i : ι) (d : D) (ts : List (ι × D)) :
    turnsOf i ((i, d) :: ts) = d :: turnsOf i ts :=
  List.filterMap_cons_some (if_pos rfl)

theorem turnsOf_cons_of_ne {i j : ι} (hne : i ≠ j) (d : D) (ts : List (ι × D)) :
    turnsOf j ((i, d) :: ts) = turnsOf j ts :=
  List.filterMap_cons_none (if_neg hne)

structure Alongside (P : ι → Call → Prop) (Says : (c : Call) → Resp c → Prop) (Alike : ι → S → T → Prop)
    (Q : α → Prop) (st : System ι Call Resp S α) (solo : ι → Prog Call Resp α × T) : Prop where
  progs : ∀ i, st.progs i = (solo i).1
  abides : ∀ i, Abides (P i) Says Q (st.progs i)
  alike : ∀ i, Alike i st.shared (solo i).2

theorem alongside_turn (hs : Separate h own P Says Alike) {st : System ι Call Resp S α}
    {solo : ι → Prog Call Resp α × T} (ha : Alongside P Says Alike Q st solo) (i : ι) (d : D) :
    Alongside P Says Alike Q (turn h st (i, d)) (Function.update solo i (advance (own i d) (solo i))) := by
  have hsolo : solo i = (st.progs i, (solo i).2) := Prod.ext (ha.progs i).symm rfl
  obtain ⟨hprog, habides, halike⟩ := advance_own hs d (ha.abides i) (ha.alike i)
  rw [← hsolo] at hprog halike
  constructor <;> intro j <;> by_cases hj : j = i
  · subst hj
    rw [turn_self, Function.update_self]
    exact hprog
  · rw [turn_of_ne st hj, Function.update_of_ne hj]
    exact ha.progs j
  · subst hj
    rw [turn_self]
    exact habides
  · rw [turn_of_ne st hj]
    exact ha.abides j
  · subst hj
    rw [Function.update_self]
    exact halike
  · rw [Function.update_of_ne hj]
    exact advance_others hs (Ne.symm hj) d (ha.abides i) (ha.alike i) (ha.alike j)

/-- In whatever order they take their turns, each program does what it would do by
itself in as many turns. -/
theorem alongside_run (hs : Separate h own P Says Alike) {st : System ι Call Resp S α}
    {solo : ι → Prog Call Resp α × T} (ha : Alongside P Says Alike Q st solo) (ts : List (ι × D)) :
    Alongside P Says Alike Q (run (turn h) st ts) fun i => alone (own i) (solo i) (turnsOf i ts) := by
  induction ts generalizing st solo with
  | nil => exact ha
  | cons t ts ih =>
    obtain ⟨i, d⟩ := t
    have hrun := ih (alongside_turn hs ha i d)
    let next := Function.update solo i (advance (own i d) (solo i))
    have hsolo : (fun j => alone (own j) (next j) (turnsOf j ts)) =
        fun j => alone (own j) (solo j) (turnsOf j ((i, d) :: ts)) := by
      funext j
      dsimp only [next]
      by_cases hj : j = i
      · subst hj
        rw [Function.update_self, turnsOf_cons_self]
        rfl
      · rw [Function.update_of_ne hj, turnsOf_cons_of_ne (Ne.symm hj)]
    rw [hsolo] at hrun
    exact hrun

/-- What no program's calls change, no order of turns changes. -/
theorem turns_keep {V : Type} (view : S → V) (hs : Separate h own P Says Alike)
    (hview : ∀ i d c s t, P i c → Alike i s t → view (h i d c s).2 = view s) {st : System ι Call Resp S α}
    {solo : ι → Prog Call Resp α × T} (ha : Alongside P Says Alike Q st solo) (ts : List (ι × D)) :
    view (run (turn h) st ts).shared = view st.shared := by
  induction ts generalizing st solo with
  | nil => rfl
  | cons t ts ih =>
    obtain ⟨i, d⟩ := t
    rw [run_cons, ih (alongside_turn hs ha i d), turn]
    have habides := ha.abides i
    generalize st.progs i = prog at habides ⊢
    cases prog with
    | ret a => rfl
    | call c next => exact hview i d c st.shared _ habides.1 (ha.alike i)

end Turns

end DnsAnnounce.Interleave
