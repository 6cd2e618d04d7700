import Mathlib.Logic.Basic

namespace DnsAnnounce.Effect

variable {Call : Type} {Resp : Call → Type} {S Fault Self ε α β : Type}

/-- A program makes calls on its surroundings, each with its own type of
answer, and continues with what it is told. -/
inductive Prog (Call : Type) (Resp : Call → Type) (α : Type) : Type
  | ret (a : α)
  | call (c : Call) (next : Resp c → Prog Call Resp α)

namespace Prog

def bind : Prog Call Resp α → (α → Prog Call Resp β) → Prog Call Resp β
  | .ret a, f => f a
  | .call c next, f => .call c (fun r => (next r).bind f)

def perform (c : Call) : Prog Call Resp (Resp c) := .call c .ret

@[simp] theorem ret_bind (a : α) (f : α → Prog Call Resp β) : (ret a).bind f = f a := rfl

@[simp] theorem call_bind (c : Call) (next : Resp c → Prog Call Resp α)
    (f : α → Prog Call Resp β) : (call c next).bind f = call c (fun r => (next r).bind f) := rfl

theorem bind_assoc {γ : Type} (p : Prog Call Resp α) (f : α → Prog Call Resp β) (g : β → Prog Call Resp γ) :
    (p.bind f).bind g = p.bind fun a => (f a).bind g := by
  induction p with
  | ret a => rfl
  | call c next ih =>
    rw [call_bind, call_bind, call_bind]
    exact congrArg (call c) (funext ih)

end Prog

open Prog

abbrev Handler (Call : Type) (Resp : Call → Type) (S : Type) := (c : Call) → S → Resp c × S

def exec (h : Handler Call Resp S) : Prog Call Resp α → S → α × S
  | .ret a, s => (a, s)
  | .call c next, s => exec h (next (h c s).1) (h c s).2

def calls (h : Handler Call Resp S) : Prog Call Resp α → S → List Call
  | .ret _, _ => []
  | .call c next, s => c :: calls h (next (h c s).1) (h c s).2

/-- Surroundings in which the calls a plan picks fail, each in its own way. -/
def faulty (h : Handler Call Resp S) (fail : (c : Call) → Fault → S → Resp c × S)
    (plan : Call → Option Fault) : Handler Call Resp S :=
  fun c s => match plan c with
    | none => h c s
    | some f => fail c f s

/-- `R` holds of every single call of the run, of the state the call finds and
of the state it leaves. -/
def Steps (h : Handler Call Resp S) (R : Call → S → S → Prop) : Prog Call Resp α → S → Prop
  | .ret _, _ => True
  | .call c next, s => R c s (h c s).2 ∧ Steps h R (next (h c s).1) (h c s).2

/-- `Dies h tear p s point t`: the process running `p` from `s` can die leaving
the state `t`, either between two calls (`point` is `none`) or inside a call
`c` of which an amount `j` was done (`point` is `some (c, j)`). -/
def Dies (h : Handler Call Resp S) (tear : Call → Nat → S → S) :
    Prog Call Resp α → S → Option (Call × Nat) → S → Prop
  | .ret _, s, point, t => point = none ∧ t = s
  | .call c next, s, point, t =>
      (point = none ∧ t = s) ∨ (∃ j, point = some (c, j) ∧ t = tear c j s) ∨
        Dies h tear (next (h c s).1) (h c s).2 point t

/-- `Resumes p log rest`: told the answers of the log one after another, `p`
asks just these questions and goes on as `rest`. -/
inductive Resumes : Prog Call Resp α → List ((c : Call) × Resp c) → Prog Call Resp α → Prop
  | start (p : Prog Call Resp α) : Resumes p [] p
  | call {c : Call} {next : Resp c → Prog Call Resp α} {r : Resp c} {log : List ((c : Call) × Resp c)}
      {rest : Prog Call Resp α} :
      Resumes (next r) log rest → Resumes (.call c next) (⟨c, r⟩ :: log) rest

theorem Resumes.answer {p : Prog Call Resp α} {log : List ((c : Call) × Resp c)} {c : Call}
    {next : Resp c → Prog Call Resp α} (h : Resumes p log (.call c next)) (r : Resp c) :
    Resumes p (log ++ [⟨c, r⟩]) (next r) := by
  generalize hrest : Prog.call c next = rest at h
  induction h with
  | start p =>
    subst hrest
    exact .call (.start _)
  | call _ ih => exact .call (ih hrest)

theorem Resumes.of_ret {a : α} {log : List ((c : Call) × Resp c)} {rest : Prog Call Resp α}
    (h : Resumes (.ret a) log rest) : log = [] ∧ rest = .ret a := by
  cases h with
  | start => exact ⟨rfl, rfl⟩

/-- Told what the surroundings would have said, a program that got to its end
returns what it returns there. -/
theorem Resumes.exec_eq {answer : (c : Call) → Resp c} {p : Prog Call Resp α}
    {log : List ((c : Call) × Resp c)} {a : α} (h : Resumes p log (.ret a))
    (hlog : ∀ told ∈ log, told.2 = answer told.1) (s : S) : exec (fun c s => (answer c, s)) p s = (a, s) := by
  generalize hrest : Prog.ret a = rest at h
  induction h with
  | start p =>
    subst hrest
    rfl
  | @call c next r log rest h ih =>
    obtain rfl : r = answer c := hlog ⟨c, r⟩ List.mem_cons_self
    exact ih (fun told htold => hlog told (List.mem_cons_of_mem _ htold)) hrest

section Rules

variable (h : Handler Call Resp S) (R : Call → S → S → Prop) (tear : Call → Nat → S → S)

@[simp] theorem exec_ret (a : α) (s : S) : exec h (.ret a) s = (a, s) := rfl

@[simp] theorem exec_call (c : Call) (next : Resp c → Prog Call Resp α) (s : S) :
    exec h (.call c next) s = exec h (next (h c s).1) (h c s).2 := rfl

@[simp] theorem exec_perform (c : Call) (s : S) : exec h (perform c) s = h c s := rfl

@[simp] theorem exec_bind (p : Prog Call Resp α) (f : α → Prog Call Resp β) (s : S) :
    exec h (p.bind f) s = exec h (f (exec h p s).1) (exec h p s).2 := by
  induction p generalizing s with
  | ret a => rfl
  | call c next ih => exact ih _ _

@[simp] theorem calls_ret (a : α) (s : S) : calls h (.ret a) s = [] := rfl

@[simp] theorem calls_perform (c : Call) (s : S) : calls h (perform c) s = [c] := rfl

@[simp] theorem steps_ret (a : α) (s : S) : Steps h R (.ret a) s := trivial

@[simp] theorem steps_call (c : Call) (next : Resp c → Prog Call Resp α) (s : S) :
    Steps h R (.call c next) s ↔ R c s (h c s).2 ∧ Steps h R (next (h c s).1) (h c s).2 := Iff.rfl

@[simp] theorem steps_perform (c : Call) (s : S) : Steps h R (perform c) s ↔ R c s (h c s).2 :=
  ⟨fun hs => hs.1, fun hs => ⟨hs, trivial⟩⟩

@[simp] theorem steps_bind (p : Prog Call Resp α) (f : α → Prog Call Resp β) (s : S) :
    Steps h R (p.bind f) s ↔ Steps h R p s ∧ Steps h R (f (exec h p s).1) (exec h p s).2 := by
  induction p generalizing s with
  | ret a => exact ⟨fun hs => ⟨trivial, hs⟩, fun hs => hs.2⟩
  | call c next ih => rw [call_bind, steps_call, steps_call, exec_call, ih, and_assoc]

variable {h R} in
theorem Steps.exec {P : S → Prop} (hP : ∀ c s s', R c s s' → P s') {p : Prog Call Resp α} {s : S}
    (hs : Steps h R p s) (h₀ : P s) : P (exec h p s).2 := by
  induction p generalizing s with
  | ret a => exact h₀
  | call c next ih => exact ih _ hs.2 (hP _ _ _ hs.1)

variable {h tear} in
theorem Dies.bind {p : Prog Call Resp α} {f : α → Prog Call Resp β} {s t : S}
    {point : Option (Call × Nat)}
    (hd : Dies h tear (f (Effect.exec h p s).1) (Effect.exec h p s).2 point t) :
    Dies h tear (p.bind f) s point t := by
  induction p generalizing s with
  | ret a => exact hd
  | call c next ih => exact .inr (.inr (ih _ hd))

variable {h R tear} in
/-- Where a process can die, in terms of the calls it makes. -/
theorem Dies.cases {p : Prog Call Resp α} {s t : S} {point : Option (Call × Nat)}
    (hd : Dies h tear p s point t) (hs : Steps h R p s) :
    (point = none ∧ (t = s ∨ ∃ c s', R c s' t)) ∨
      ∃ c j s', point = some (c, j) ∧ t = tear c j s' ∧ R c s' (h c s').2 := by
  induction p generalizing s with
  | ret a => exact .inl ⟨hd.1, .inl hd.2⟩
  | call c next ih =>
    obtain ⟨hpoint, ht⟩ | ⟨j, hpoint, ht⟩ | hd := hd
    · exact .inl ⟨hpoint, .inl ht⟩
    · exact .inr ⟨c, j, s, hpoint, ht, hs.1⟩
    · obtain ⟨hpoint, rfl | hc⟩ | hc := ih _ hd hs.2
      · exact .inl ⟨hpoint, .inr ⟨c, s, hs.1⟩⟩
      · exact .inl ⟨hpoint, .inr hc⟩
      · exact .inr hc

end Rules

/-- A Rust method `async fn f(&mut self) -> Result<α, ε>`: what it did to `self`
stays, also when it returns an error. -/
def Method (Call : Type) (Resp : Call → Type) (Self ε α : Type) : Type :=
  Self → Prog Call Resp (Except ε α × Self)

namespace Method

def andThen (f : α → Method Call Resp Self ε β) :
    Except ε α × Self → Prog Call Resp (Except ε β × Self)
  | (.ok a, self) => f a self
  | (.error e, self) => .ret (.error e, self)

instance : Monad (Method Call Resp Self ε) where
  pure a := fun self => .ret (.ok a, self)
  bind m f := fun self => (m self).bind (andThen f)

def this : Method Call Resp Self ε Self := fun self => .ret (.ok self, self)

def assign (f : Self → Self) : Method Call Resp Self ε Unit := fun self => .ret (.ok (), f self)

def fail (e : ε) : Method Call Resp Self ε α := fun self => .ret (.error e, self)

def lift (p : Prog Call Resp α) : Method Call Resp Self ε α :=
  fun self => p.bind (fun a => .ret (.ok a, self))

/-- The `?` operator. -/
def propagate : Except ε α → Method Call Resp Self ε α
  | .ok a => pure a
  | .error e => fail e

def attempt (m : Method Call Resp Self ε α) : Method Call Resp Self ε (Except ε α) :=
  fun self => (m self).bind (fun r => .ret (.ok r.1, r.2))

@[simp] theorem pure_apply (a : α) (self : Self) :
    (pure a : Method Call Resp Self ε α) self = .ret (.ok a, self) := rfl

@[simp] theorem bind_apply (m : Method Call Resp Self ε α) (f : α → Method Call Resp Self ε β)
    (self : Self) : (m >>= f) self = (m self).bind (andThen f) := rfl

@[simp] theorem andThen_ok (f : α → Method Call Resp Self ε β) (a : α) (self : Self) :
    andThen f (.ok a, self) = f a self := rfl

@[simp] theorem andThen_error (f : α → Method Call Resp Self ε β) (e : ε) (self : Self) :
    andThen f (.error e, self) = .ret (.error e, self) := rfl

@[simp] theorem this_apply (self : Self) :
    (this : Method Call Resp Self ε Self) self = .ret (.ok self, self) := rfl

@[simp] theorem assign_apply (f : Self → Self) (self : Self) :
    (assign f : Method Call Resp Self ε Unit) self = .ret (.ok (), f self) := rfl

@[simp] theorem fail_apply (e : ε) (self : Self) :
    (fail e : Method Call Resp Self ε α) self = .ret (.error e, self) := rfl

@[simp] theorem lift_apply (p : Prog Call Resp α) (self : Self) :
    (lift p : Method Call Resp Self ε α) self = p.bind (fun a => .ret (.ok a, self)) := rfl

@[simp] theorem attempt_apply (m : Method Call Resp Self ε α) (self : Self) :
    (attempt m : Method Call Resp Self ε (Except ε α)) self =
      (m self).bind (fun r => .ret (.ok r.1, r.2)) := rfl

@[simp] theorem propagate_ok (a : α) : (propagate (.ok a) : Method Call Resp Self ε α) = pure a := rfl

@[simp] theorem propagate_error (e : ε) :
    (propagate (.error e) : Method Call Resp Self ε α) = fail e := rfl

@[simp] theorem ite_apply (b : Prop) [Decidable b] (m n : Method Call Resp Self ε α) (self : Self) :
    (if b then m else n) self = if b then m self else n self := by
  split <;> rfl

end Method

end DnsAnnounce.Effect
