import DnsAnnounce.Shutdown

namespace DnsAnnounce.Progress

open DnsAnnounce.Utf8 DnsAnnounce.Effect DnsAnnounce.Runs DnsAnnounce.SimpleDns DnsAnnounce.DnsServer
open DnsAnnounce.Stack DnsAnnounce.Spawn DnsAnnounce.Shutdown

/-- The steps that are up to the tasks, the resolver and whoever reads `outgoing`. -/
def Inner : Event → Prop
  | .recv | .answer _ | .pass | .send _ | .take => True
  | _ => False

def Brief : ResolverProg (Option Bytes) → Prop
  | .ret _ => True
  | .call _ next => ∀ verdict, ∃ reply, next verdict = .ret reply

/-- The steps it takes from here until the packet is done with. -/
def toDo : ResolverProg (Option Bytes) → Nat
  | .ret none => 1
  | .ret (some _) => 2
  | .call _ _ => 3

def toDispatch : Dispatcher → Nat
  | .receiving => 1
  | .handling _ _ rest => toDo rest + 1
  | .ended | .failed _ => 0

/-- What is left to do for the packets taken in and the packet the beacon is at. -/
def work (w : World) : Nat :=
  4 * w.incoming.length + toDispatch w.dispatcher + 2 * pending w.beacon + w.outgoing.length

variable {Name Header Data : Type} {D : SimpleDns Name Header Data} {stack : DnsStack} {capacity : Nat}

section Brief

theorem brief_handlePacket (cfg : DnsConfig) (pkt : Bytes) : Brief (handlePacket D cfg pkt) := by
  by_cases hasks : ∃ udp message question, Asks D cfg pkt udp message question
  · obtain ⟨udp, message, question, hasks⟩ := hasks
    rw [handlePacket_asks hasks]
    exact fun verdict => ⟨_, rfl⟩
  · rw [handlePacket_silent hasks]
    trivial

theorem brief_dispatch (pkt : Bytes) : Brief (dispatch D stack pkt) := by
  rw [dispatch]
  split_ifs
  · trivial
  · exact brief_handlePacket ..

theorem brief_of_resumes {p rest : ResolverProg (Option Bytes)} {asked : Transcript}
    (h : Resumes p asked rest) (hp : Brief p) : Brief rest := by
  induction h with
  | start => exact hp
  | @call query next verdict asked rest hrest ih =>
    obtain ⟨reply, hreply⟩ := hp verdict
    exact ih (by rw [hreply]; trivial)

theorem toDo_le (p : ResolverProg (Option Bytes)) : toDo p ≤ 3 := by
  cases p with
  | ret reply => cases reply <;> simp [toDo]
  | call query next => exact Nat.le_refl 3

end Brief

section Steps

variable {w w' : World} {e : Event}

theorem step_of_cases (h : Step D stack capacity w e w') : step D stack capacity w e = some w' := by
  cases h with
  | arrive pkt hopen hlistens => simp [step, hopen, hlistens]
  | close hopen => simp [step, hopen]
  | recv pkt rest hd hin => simp [step, hd, hin]
  | finish hd hin hclosed => simp [step, hd, hin, hclosed]
  | answer verdict pkt asked query next hd => simp [step, hd]
  | pass pkt asked hd => simp [step, hd]
  | tick hb => simp [step, hb]
  | reply pkt asked packet hd halive hroom => simp [step, hd, World.offer, halive, hroom]
  | replyFails pkt asked packet hd halive => simp [step, hd, World.offer, halive]
  | beacon hb halive hroom => simp [step, hb, World.offer, halive, hroom]
  | beaconFails hb halive => simp [step, hb, World.offer, halive]
  | take packet rest hout => simp [step, hout]
  | hangUp halive => simp [step, halive]

theorem work_step (h : Step D stack capacity w e w') (he : Inner e) (hi : Faithful D stack w) :
    work w' < work w := by
  cases h with
  | recv pkt rest hd hin =>
    have hle := toDo_le (dispatch D stack pkt)
    simp only [work, hd, hin, toDispatch, List.length_cons]
    omega
  | finish hd => simp [work, hd, toDispatch]
  | answer verdict pkt asked query next hd =>
    obtain ⟨reply, hreply⟩ := brief_of_resumes (hi.handling pkt asked _ hd) (brief_dispatch pkt) verdict
    have hlt : toDo (next verdict) < toDo (.call query next) := by
      rw [hreply]
      cases reply <;> simp [toDo]
    simp only [work, hd, toDispatch]
    omega
  | pass pkt asked hd => simp [work, hd, toDispatch, toDo]
  | reply pkt asked packet hd =>
    simp only [work, hd, toDispatch, toDo, List.length_append, List.length_singleton]
    omega
  | replyFails pkt asked packet hd => simp [work, hd, toDispatch]
  | beacon hb =>
    simp only [work, hb, pending, List.length_append, List.length_singleton]
    omega
  | beaconFails hb => simp [work, hb, pending]
  | take packet rest hout => simp [work, hout]
  | arrive | close | tick | hangUp => exact he.elim

theorem room_step (h : Step D stack capacity w e w') (hi : w.outgoing.length ≤ capacity) :
    w'.outgoing.length ≤ capacity := by
  cases h with
  | reply _ _ _ _ _ hroom =>
    rw [List.length_append, List.length_singleton]
    exact hroom
  | beacon _ _ hroom =>
    rw [List.length_append, List.length_singleton]
    exact hroom
  | take packet rest hout =>
    rw [hout] at hi
    exact Nat.le_of_succ_le hi
  | _ => exact hi

end Steps

section Quiet

variable {w : World}

variable (D stack capacity) in
def Quiet (w : World) : Prop := ∀ e, Inner e → step D stack capacity w e = none

theorem Quiet.not_step (h : Quiet D stack capacity w) {w' : World} {e : Event}
    (hstep : Step D stack capacity w e w') (he : Inner e) : False := by
  have hsome := step_of_cases hstep
  rw [h e he] at hsome
  contradiction

theorem Quiet.outgoing (h : Quiet D stack capacity w) : w.outgoing = [] := by
  cases hout : w.outgoing with
  | nil => rfl
  | cons packet rest => exact (h.not_step (.take packet rest hout) trivial).elim

theorem Quiet.beacon (h : Quiet D stack capacity w) (hcapacity : 0 < capacity) : w.beacon ≠ .sending := by
  intro hb
  cases halive : w.alive with
  | true =>
    have hroom : w.outgoing.length < capacity := by rwa [h.outgoing]
    exact h.not_step (.beacon hb halive hroom) trivial
  | false => exact h.not_step (.beaconFails hb halive) trivial

/-- Where the dispatcher has come to: it waits for a packet, or it is at its end. -/
inductive Stands (w : World) : Prop
  | waits : w.dispatcher = .receiving → w.incoming = [] → w.closed = false → Stands w
  | ended : w.dispatcher = .ended → w.incoming = [] → w.closed = true → Stands w
  | failed (pkt : Bytes) : w.dispatcher = .failed pkt → w.alive = false → Stands w

theorem Quiet.dispatcher (h : Quiet D stack capacity w) (hcapacity : 0 < capacity) (hi : Orderly w)
    (hended : w.dispatcher = .ended → w.closed = true ∧ w.incoming = []) : Stands w := by
  cases hd : w.dispatcher with
  | receiving =>
    cases hin : w.incoming with
    | cons pkt rest => exact (h.not_step (.recv pkt rest hd hin) trivial).elim
    | nil =>
      cases hclosed : w.closed with
      | false => exact .waits hd hin hclosed
      | true => exact (h.not_step (.finish hd hin hclosed) trivial).elim
  | handling pkt asked rest =>
    cases rest with
    | call query next =>
      exact (h.not_step (.answer .NotMine pkt asked query next hd) trivial).elim
    | ret reply =>
      cases reply with
      | none => exact (h.not_step (.pass pkt asked hd) trivial).elim
      | some packet =>
        cases halive : w.alive with
        | true =>
          have hroom : w.outgoing.length < capacity := by rwa [h.outgoing]
          exact (h.not_step (.reply pkt asked packet hd halive hroom) trivial).elim
        | false =>
          exact (h.not_step (.replyFails pkt asked packet hd halive) trivial).elim
  | ended => exact .ended hd (hended hd).2 (hended hd).1
  | failed pkt => exact .failed pkt hd (hi.gone .dispatcher ⟨pkt, hd⟩)

end Quiet

section Consulted

variable {w w' : World} {e : Event} {resolve : Query → Reply}

variable (resolve) in
/-- The resolver has answered as `resolve` does. -/
structure Consulted (w : World) : Prop where
  served : ∀ s ∈ w.served, ∀ told ∈ s.asked, told.2 = resolve told.1
  handling : ∀ pkt asked rest, w.dispatcher = .handling pkt asked rest → ∀ told ∈ asked, told.2 = resolve told.1

variable (resolve) in
def Answers (w : World) (e : Event) : Prop :=
  ∀ verdict pkt asked query next, e = .answer verdict → w.dispatcher = .handling pkt asked (.call query next) →
    verdict = resolve query

theorem consulted_step (h : Step D stack capacity w e w') (he : Answers resolve w e)
    (hi : Consulted resolve w) : Consulted resolve w' := by
  have hsnoc {pkt : Bytes} {asked : Transcript} {rest : ResolverProg (Option Bytes)} {reply : Option Bytes}
      (hd : w.dispatcher = .handling pkt asked rest) :
      ∀ s ∈ w.served ++ [⟨pkt, asked, reply⟩], ∀ told ∈ s.asked, told.2 = resolve told.1 := by
    intro s hs
    obtain hs | hs := List.mem_append.mp hs
    · exact hi.served s hs
    · rw [List.mem_singleton.mp hs]
      exact hi.handling pkt asked rest hd
  cases h with
  | recv pkt rest =>
    refine ⟨hi.served, fun _ _ _ hd => ?_⟩
    obtain ⟨rfl, rfl, rfl⟩ := Dispatcher.handling.inj hd
    exact fun told htold => absurd htold List.not_mem_nil
  | finish => exact ⟨hi.served, fun _ _ _ hd => Dispatcher.noConfusion hd⟩
  | answer verdict pkt asked query next hd =>
    refine ⟨hi.served, fun _ _ _ hd' => ?_⟩
    obtain ⟨rfl, rfl, rfl⟩ := Dispatcher.handling.inj hd'
    intro told htold
    obtain htold | htold := List.mem_append.mp htold
    · exact hi.handling pkt asked _ hd told htold
    · rw [List.mem_singleton.mp htold]
      exact he verdict pkt asked query next rfl hd
  | pass pkt asked hd => exact ⟨hsnoc hd, fun _ _ _ hd => Dispatcher.noConfusion hd⟩
  | reply pkt asked packet hd => exact ⟨hsnoc hd, fun _ _ _ hd => Dispatcher.noConfusion hd⟩
  | replyFails => exact ⟨hi.served, fun _ _ _ hd => Dispatcher.noConfusion hd⟩
  | _ => exact ⟨hi.served, hi.handling⟩

variable (resolve) in
theorem consulted_of_fresh (hserved : w.served = []) (hd : w.dispatcher = .receiving) : Consulted resolve w := by
  constructor
  · rw [hserved]
    exact fun s hs => absurd hs List.not_mem_nil
  · rw [hd]
    exact fun _ _ _ hd => Dispatcher.noConfusion hd

variable (resolve) in
theorem exists_step (h : ¬ Quiet D stack capacity w) :
    ∃ e w', Inner e ∧ Step D stack capacity w e w' ∧ Answers resolve w e := by
  obtain ⟨e, hleft⟩ := not_forall.mp h
  obtain ⟨he, hstep⟩ := Classical.not_imp.mp hleft
  obtain ⟨w', hstep⟩ := Option.ne_none_iff_exists'.mp hstep
  have hcases := step_cases hstep
  have hother (hne : ∀ verdict, e ≠ .answer verdict) : Answers resolve w e :=
    fun verdict _ _ _ _ heq => absurd heq (hne verdict)
  cases e with
  | answer verdict =>
    cases hcases with
    | answer _ pkt asked query next hd =>
      refine ⟨.answer (resolve query), _, trivial, .answer (resolve query) pkt asked query next hd, ?_⟩
      rintro verdict pkt' asked' query' next' ⟨rfl⟩ hd'
      rw [hd] at hd'
      obtain ⟨-, -, hcall⟩ := Dispatcher.handling.inj hd'
      rw [(Prog.call.inj hcall).1]
  | _ => exact ⟨_, w', he, hcases, hother (by simp)⟩

theorem exists_quiet (hi : Faithful D stack w) (hconsulted : Consulted resolve w) :
    ∃ more w', (∀ e ∈ more, Inner e) ∧ guardedRun (step D stack capacity) w more = some w' ∧
      Quiet D stack capacity w' ∧ Consulted resolve w' := by
  induction hwork : work w using Nat.strongRecOn generalizing w with
  | ind n ih =>
    subst hwork
    by_cases hquiet : Quiet D stack capacity w
    · exact ⟨[], w, List.forall_mem_nil _, rfl, hquiet, hconsulted⟩
    · obtain ⟨e, t, he, hstep, hanswers⟩ := exists_step resolve hquiet
      obtain ⟨more, w', hinner, hrun, hrest⟩ := ih _ (work_step hstep he hi) (faithful_step hstep hi)
        (consulted_step hstep hanswers hconsulted) rfl
      refine ⟨e :: more, w', List.forall_mem_cons.mpr ⟨he, hinner⟩, ?_, hrest⟩
      exact (guardedRun_cons_eq_some _).mpr ⟨t, step_of_cases hstep, hrun⟩

end Consulted

theorem arrivals_inner {more : List Event} (h : ∀ e ∈ more, Inner e) : arrivals more = [] := by
  rw [arrivals, List.filterMap_eq_nil_iff]
  intro e he
  cases e with
  | arrive pkt => exact (h _ he).elim
  | _ => rfl

theorem inv_run {events : List Event} {w : World}
    (h : guardedRun (step D stack capacity) spawned events = some w) : Inv D stack w :=
  guardedRun_invariant (fun _ _ _ hstep hi => inv_step hstep hi) h inv_spawned

theorem length_inner {events more : List Event} {w w' : World}
    (h : guardedRun (step D stack capacity) spawned events = some w)
    (hmore : guardedRun (step D stack capacity) w more = some w') (hinner : ∀ e ∈ more, Inner e) :
    more.length ≤ 4 * w.incoming.length + capacity + 6 := by
  have hi := inv_run h
  have hroom := guardedRun_invariant (I := fun w : World => w.outgoing.length ≤ capacity)
    (fun _ _ _ hstep hi => room_step (step_cases hstep) hi) h (Nat.zero_le _)
  have hle : more.length + work w' ≤ work w :=
    guardedRun_length_le (I := Faithful D stack) (P := Inner) (fun w e t hstep he hi =>
      ⟨faithful_step (step_cases hstep) hi, work_step (step_cases hstep) he hi⟩) hmore hinner hi.faithful
  have hdispatch : toDispatch w.dispatcher ≤ 4 := by
    cases w.dispatcher with
    | handling pkt asked rest => exact Nat.succ_le_succ (toDo_le rest)
    | _ => simp [toDispatch]
  have hbeacon : pending w.beacon ≤ 1 := by
    cases w.beacon <;> simp [pending]
  simp only [work] at hle
  omega

theorem alive_inner {more : List Event} {w w' : World}
    (hmore : guardedRun (step D stack capacity) w more = some w') (hinner : ∀ e ∈ more, Inner e) :
    w'.alive = w.alive := by
  refine guardedRun_induction (R := fun w more w' => (∀ e ∈ more, Inner e) → w'.alive = w.alive)
    (fun _ _ => rfl) (fun w e t more u hstep ih hinner => ?_) hmore hinner
  rw [ih fun d hd => hinner d (List.mem_cons_of_mem e hd)]
  have he := hinner e List.mem_cons_self
  cases step_cases hstep with
  | hangUp => exact he.elim
  | _ => rfl

/-- What has come of the packets once the stack is at rest. -/
structure AtRest (events : List Event) (w : World) : Prop where
  dispatcher : Stands w
  beacon : w.beacon ≠ .sending
  delivered : w.delivered = sent w.attempts
  served : w.alive = true → w.served.map (·.pkt) = arrivals events

theorem atRest_of_quiet (hcapacity : 0 < capacity) {events more : List Event} {w w' : World}
    (h : guardedRun (step D stack capacity) spawned events = some w)
    (hmore : guardedRun (step D stack capacity) w more = some w') (hinner : ∀ e ∈ more, Inner e)
    (hquiet : Quiet D stack capacity w') : AtRest events w' := by
  have hrun := guardedRun_append h hmore
  have hi := inv_run hrun
  have hstands := hquiet.dispatcher hcapacity hi.orderly (closed_run hrun)
  refine ⟨hstands, hquiet.beacon hcapacity, ?_, fun halive => ?_⟩
  · rw [hi.channel, hquiet.outgoing, List.append_nil]
  · have hconsumed := hi.consumed
    have harrived := (arrived_run hmore).trans (congrArg (w.arrived ++ ·) (arrivals_inner hinner))
    rw [harrived, arrived_run h, List.append_nil] at hconsumed
    cases hstands with
    | waits hd hin =>
      rw [hd, hin] at hconsumed
      simpa [Dispatcher.inHand, spawned] using hconsumed
    | ended hd hin =>
      rw [hd, hin] at hconsumed
      simpa [Dispatcher.inHand, spawned] using hconsumed
    | failed pkt _ hgone =>
      rw [halive] at hgone
      contradiction

theorem mem_sent_of_sentBy {task : Task} {attempts : List Attempt} {p : Bytes} (h : p ∈ sentBy task attempts) :
    p ∈ sent attempts := by
  obtain ⟨a, ha, rfl⟩ := List.mem_map.mp h
  obtain ⟨hmem, hok⟩ := List.mem_filter.mp ha
  exact List.mem_map_of_mem (List.mem_filter.mpr ⟨List.mem_of_mem_filter hmem, hok⟩)

theorem delivered_of_served {w : World} (hi : Inv D stack w) (hdelivered : w.delivered = sent w.attempts)
    {s : Served} (hs : s ∈ w.served) {p : Bytes} (hp : s.reply = some p) : p ∈ w.delivered := by
  rw [hdelivered]
  have hreply : p ∈ sentBy .dispatcher w.attempts := by
    rw [hi.replies]
    exact List.mem_filterMap.mpr ⟨s, hs, hp⟩
  exact mem_sent_of_sentBy hreply

/-- Nothing keeps the stack from answering. Left to themselves the tasks come to rest
within a bounded number of steps, in whichever order they are taken: every packet
has then been served and everything sent has been delivered, unless the receiver of
`outgoing` is gone. They can get there whatever the resolver answers. -/
theorem drains (hcapacity : 0 < capacity) {events : List Event} {w : World}
    (h : guardedRun (step D stack capacity) spawned events = some w) :
    (∀ more w', (∀ e ∈ more, Inner e) → guardedRun (step D stack capacity) w more = some w' →
      more.length ≤ 4 * w.incoming.length + capacity + 6 ∧
      (Quiet D stack capacity w' → AtRest events w')) ∧
    ∀ resolve, Consulted resolve w → ∃ more w', (∀ e ∈ more, Inner e) ∧
      guardedRun (step D stack capacity) w more = some w' ∧ Quiet D stack capacity w' ∧
      Consulted resolve w' := by
  constructor
  · intro more w' hinner hmore
    exact ⟨length_inner h hmore hinner, atRest_of_quiet hcapacity h hmore hinner⟩
  · intro resolve hconsulted
    exact exists_quiet (inv_run h).faithful hconsulted

theorem quiet_of_waiting {w : World} (hd : w.dispatcher = .receiving) (hin : w.incoming = [])
    (hclosed : w.closed = false) (hout : w.outgoing = []) (hb : w.beacon = .ticking) :
    Quiet D stack capacity w := by
  intro e he
  cases e with
  | recv => simp [step, hd, hin, hclosed]
  | answer verdict => simp [step, hd]
  | pass => simp [step, hd]
  | send task => cases task <;> simp [step, hd, hb]
  | take => simp [step, hout]
  | arrive | close | tick | hangUp => exact he.elim

theorem solicitation_served :
    ∃ w w', guardedRun (step simpleDns Solicitation.stack 1) spawned
        [.arrive (Solicitation.solicitFrom UdpCodec.host)] = some w ∧
      guardedRun (step simpleDns Solicitation.stack 1) w [.recv, .send .dispatcher, .take] = some w' ∧
      w'.served.map (·.pkt) = [Solicitation.solicitFrom UdpCodec.host] := by
  have hdispatch := Solicitation.dispatch_solicitFrom UdpCodec.host
  have harrive : guardedRun (step simpleDns Solicitation.stack 1) spawned
      [.arrive (Solicitation.solicitFrom UdpCodec.host)] = some { spawned with
        incoming := [Solicitation.solicitFrom UdpCodec.host]
        arrived := [Solicitation.solicitFrom UdpCodec.host] } := by
    simp [guardedRun_cons, step, spawned, Dispatcher.listens]
  have hserve : ∃ w', guardedRun (step simpleDns Solicitation.stack 1) { spawned with
        incoming := [Solicitation.solicitFrom UdpCodec.host]
        arrived := [Solicitation.solicitFrom UdpCodec.host] } [.recv, .send .dispatcher, .take] = some w' ∧
      w'.alive = true ∧ Quiet simpleDns Solicitation.stack 1 w' := by
    refine ⟨_, by simp [guardedRun_cons, step, spawned, World.offer, hdispatch]; rfl, rfl, ?_⟩
    exact quiet_of_waiting rfl rfl rfl rfl rfl
  obtain ⟨w', hrun, halive, hquiet⟩ := hserve
  refine ⟨_, w', harrive, hrun, ?_⟩
  exact (((drains Nat.one_pos harrive).1 _ w' (by simp [Inner]) hrun).2 hquiet).served halive

end DnsAnnounce.Progress
