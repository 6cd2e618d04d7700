import DnsAnnounce.Effect

namespace DnsAnnounce.Embed

open DnsAnnounce.Effect

variable {Call Call' : Type} {Resp : Call → Type} {Resp' : Call' → Type} {S S' Self Self' ε ε' α β : Type}

/-- The calls of a component among those of larger surroundings. -/
structure Inclusion (Call : Type) (Resp : Call → Type) (Call' : Type) (Resp' : Call' → Type) where
  call : Call → Call'
  answer : (c : Call) → Resp' (call c) → Resp c

/-- The part of a larger state that a component is about. -/
structure Part (S S' : Type) where
  get : S' → S
  put : S' → S → S'
  get_put : ∀ s' s, get (put s' s) = s
  put_put : ∀ s' s t, put (put s' s) t = put s' t
  put_get : ∀ s', put s' (get s') = s'

def embed (i : Inclusion Call Resp Call' Resp') : Prog Call Resp α → Prog Call' Resp' α
  | .ret a => .ret a
  | .call c next => .call (i.call c) fun r => embed i (next (i.answer c r))

/-- A component's method, as a step of what is built around the component. -/
def within (i : Inclusion Call Resp Call' Resp') (wrap : Self → Self') (wrapError : ε → ε')
    (m : Method Call Resp Self ε α) (self : Self) : Prog Call' Resp' (Except ε' α × Self') :=
  (embed i (m self)).bind fun r => .ret (r.1.mapError wrapError, wrap r.2)

/-- The larger surroundings answer the component's calls as its own do, and leave
all but its part alone. -/
structure Hosts (i : Inclusion Call Resp Call' Resp') (p : Part S S') (h : Handler Call Resp S)
    (h' : Handler Call' Resp' S') : Prop where
  answers : ∀ c s', i.answer c (h' (i.call c) s').1 = (h c (p.get s')).1
  leaves : ∀ c s', (h' (i.call c) s').2 = p.put s' (h c (p.get s')).2

section Rules

variable {i : Inclusion Call Resp Call' Resp'} {p : Part S S'} {h : Handler Call Resp S}
  {h' : Handler Call' Resp' S'}

@[simp] theorem embed_ret (a : α) : embed i (.ret a : Prog Call Resp α) = .ret a := rfl

@[simp] theorem embed_call (c : Call) (next : Resp c → Prog Call Resp α) :
    embed i (.call c next) = .call (i.call c) fun r => embed i (next (i.answer c r)) := rfl

theorem exec_embed (hh : Hosts i p h h') (prog : Prog Call Resp α) (s' : S') :
    exec h' (embed i prog) s' = ((exec h prog (p.get s')).1, p.put s' (exec h prog (p.get s')).2) := by
  induction prog generalizing s' with
  | ret a => rw [embed_ret, exec_ret, exec_ret, p.put_get]
  | call c next ih =>
    rw [embed_call, exec_call, exec_call, ih, hh.answers, hh.leaves, p.get_put, p.put_put]

variable (wrap : Self → Self') (wrapError : ε → ε')

theorem exec_within (hh : Hosts i p h h') (m : Method Call Resp Self ε α) (self : Self) (s' : S') :
    exec h' (within i wrap wrapError m self) s' =
      (((exec h (m self) (p.get s')).1.1.mapError wrapError, wrap (exec h (m self) (p.get s')).1.2),
        p.put s' (exec h (m self) (p.get s')).2) := by
  rw [within, exec_bind, exec_embed hh, exec_ret]

end Rules

def Confined (P : Call → Prop) : Prog Call Resp α → Prop
  | .ret _ => True
  | .call c next => P c ∧ ∀ r, Confined P (next r)

namespace Confined

variable {P : Call → Prop}

theorem bind {prog : Prog Call Resp α} {f : α → Prog Call Resp β} (hp : Confined P prog)
    (hf : ∀ a, Confined P (f a)) : Confined P (prog.bind f) := by
  induction prog with
  | ret a => exact hf a
  | call c next ih => exact ⟨hp.1, fun r => ih r (hp.2 r)⟩

theorem embed {i : Inclusion Call Resp Call' Resp'} {P' : Call' → Prop} (hi : ∀ c, P c → P' (i.call c))
    {prog : Prog Call Resp α} (hp : Confined P prog) : Confined P' (embed i prog) := by
  induction prog with
  | ret a => trivial
  | call c next ih => exact ⟨hi c hp.1, fun r => ih _ (hp.2 _)⟩

theorem calls {prog : Prog Call Resp α} (hp : Confined P prog) (h : Handler Call Resp S) (s : S) :
    ∀ c ∈ calls h prog s, P c := by
  induction prog generalizing s with
  | ret a => exact List.forall_mem_nil _
  | call c next ih => exact List.forall_mem_cons.mpr ⟨hp.1, ih _ (hp.2 _) _⟩

theorem keeps {V : Type} (view : S → V) {prog : Prog Call Resp α} (hp : Confined P prog)
    {h : Handler Call Resp S} (hh : ∀ c s, P c → view (h c s).2 = view s) (s : S) :
    view (exec h prog s).2 = view s := by
  induction prog generalizing s with
  | ret a => rfl
  | call c next ih => rw [exec_call, ih _ (hp.2 _), hh c s hp.1]

theorem unchanged {prog : Prog Call Resp α} (hp : Confined P prog) {h : Handler Call Resp S}
    (hh : ∀ c s, P c → (h c s).2 = s) (s : S) : (exec h prog s).2 = s := hp.keeps id hh s

end Confined

/-- Whatever the method is told, each of its calls is one of these and the instance
stays one of those. -/
def Minds (P : Call → Prop) (Q : Self → Prop) : Prog Call Resp (Except ε α × Self) → Prop
  | .ret r => Q r.2
  | .call c next => P c ∧ ∀ r, Minds P Q (next r)

namespace Minds

variable {P : Call → Prop} {Q : Self → Prop} {self : Self}

theorem confined {prog : Prog Call Resp (Except ε α × Self)} (h : Minds P Q prog) : Confined P prog := by
  induction prog with
  | ret a => trivial
  | call c next ih => exact ⟨h.1, fun r => ih r (h.2 r)⟩

theorem exec {prog : Prog Call Resp (Except ε α × Self)} (hp : Minds P Q prog) (h : Handler Call Resp S)
    (s : S) : Q (exec h prog s).1.2 := by
  induction prog generalizing s with
  | ret a => exact hp
  | call c next ih => exact ih _ (hp.2 _) _

theorem bind {m : Method Call Resp Self ε α} {f : α → Method Call Resp Self ε β} (hm : Minds P Q (m self))
    (hf : ∀ a self, Q self → Minds P Q (f a self)) : Minds P Q ((m >>= f) self) := by
  rw [Method.bind_apply]
  generalize m self = prog at hm
  induction prog with
  | ret r =>
    obtain ⟨_ | a, self'⟩ := r
    · exact hm
    · exact hf a self' hm
  | call c next ih => exact ⟨hm.1, fun r => ih r (hm.2 r)⟩

theorem this {f : Self → Method Call Resp Self ε β} (h : Minds P Q (f self self)) :
    Minds P Q ((Method.this >>= f) self) := h

theorem lift {prog : Prog Call Resp α} (hp : Confined P prog) (hself : Q self) :
    Minds P Q ((Method.lift prog : Method Call Resp Self ε α) self) := by
  rw [Method.lift_apply]
  induction prog with
  | ret a => exact hself
  | call c next ih => exact ⟨hp.1, fun r => ih r (hp.2 r)⟩

theorem propagate (r : Except ε α) (hself : Q self) :
    Minds P Q ((Method.propagate r : Method Call Resp Self ε α) self) := by
  cases r <;> exact hself

end Minds

end DnsAnnounce.Embed
