import DnsAnnounce.Spawn

namespace DnsAnnounce.Shutdown

open DnsAnnounce.Runs DnsAnnounce.SimpleDns DnsAnnounce.DnsServer DnsAnnounce.Stack DnsAnnounce.Spawn

variable {Name Header Data : Type} {D : SimpleDns Name Header Data} {stack : DnsStack} {capacity : Nat}

theorem closed_step {w w' : World} {e : Event} (h : Step D stack capacity w e w')
    (hi : w.dispatcher = .ended → w.closed = true ∧ w.incoming = []) :
    w'.dispatcher = .ended → w'.closed = true ∧ w'.incoming = [] := by
  cases h with
  | arrive pkt hopen hlistens =>
    intro hended
    change w.dispatcher = .ended at hended
    rw [hended] at hlistens
    contradiction
  | close => exact fun hended => ⟨rfl, (hi hended).2⟩
  | finish _ hin hclosed => exact fun _ => ⟨hclosed, hin⟩
  | recv | answer | pass | reply | replyFails => exact fun hended => Dispatcher.noConfusion hended
  | _ => exact hi

theorem closed_run {w : World} {events : List Event}
    (h : guardedRun (step D stack capacity) spawned events = some w) (hended : w.dispatcher = .ended) :
    w.closed = true ∧ w.incoming = [] :=
  guardedRun_invariant (I := fun w : World => w.dispatcher = .ended → w.closed = true ∧ w.incoming = [])
    (fun _ _ _ hstep hi => closed_step (step_cases hstep) hi) h (fun hd => Dispatcher.noConfusion hd) hended

def pending : Beacon → Nat
  | .sending => 1
  | _ => 0

def ticks : List Event → Nat
  | [] => 0
  | .tick :: events => ticks events + 1
  | _ :: events => ticks events

theorem ticks_eq_zero {events : List Event} : ticks events = 0 ↔ .tick ∉ events := by
  induction events using ticks.induct with
  | case1 => simp [ticks]
  | case2 events ih => simp [ticks]
  | case3 e events he ih =>
    rw [ticks.eq_3 _ _ he, ih, List.mem_cons, not_or]
    exact (and_iff_right fun heq => he heq.symm).symm

/-- After the dispatcher's end every packet goes back to a tick of the beacon. -/
structure Beats (w : World) (events : List Event) (w' : World) : Prop where
  ended : w'.dispatcher = .ended
  alive : w'.alive = true
  keeps : sent w.attempts <+: sent w'.attempts
  counts : (sent w'.attempts).length + pending w'.beacon =
    (sent w.attempts).length + pending w.beacon + ticks events

theorem ticks_cons (e : Event) (events : List Event) : ticks (e :: events) = ticks [e] + ticks events := by
  cases e with
  | tick => exact Nat.add_comm _ _
  | _ => exact (Nat.zero_add _).symm

theorem beats_step {w w' : World} {e : Event} (h : Step D stack capacity w e w')
    (hended : w.dispatcher = .ended) (halive : w.alive = true) (he : e ≠ .hangUp) : Beats w [e] w' := by
  have hother {d : Dispatcher} (hd : w.dispatcher = d) (hne : d ≠ .ended) : Beats w [e] w' :=
    absurd (hd.symm.trans hended) hne
  cases h with
  | arrive pkt hopen hlistens =>
    rw [hended] at hlistens
    contradiction
  | recv _ _ hd | finish hd | answer _ _ _ _ _ hd | pass _ _ hd | reply _ _ _ hd | replyFails _ _ _ hd =>
    exact hother hd (by simp)
  | close => exact ⟨hended, halive, List.prefix_rfl, rfl⟩
  | take => exact ⟨hended, halive, List.prefix_rfl, rfl⟩
  | tick hb =>
    refine ⟨hended, halive, List.prefix_rfl, ?_⟩
    rw [hb]
    rfl
  | beacon hb =>
    refine ⟨hended, halive, ?_, ?_⟩
    · rw [sent_put]
      exact List.prefix_append _ _
    · rw [sent_put, hb, List.length_append]
      rfl
  | beaconFails hb hgone =>
    rw [halive] at hgone
    contradiction
  | hangUp => contradiction

theorem beats_run {w w' : World} {events : List Event}
    (h : guardedRun (step D stack capacity) w events = some w') (hended : w.dispatcher = .ended)
    (halive : w.alive = true) (hevents : .hangUp ∉ events) : Beats w events w' := by
  refine guardedRun_induction
    (R := fun w events w' => w.dispatcher = .ended → w.alive = true → Event.hangUp ∉ events → Beats w events w')
    (fun w hended halive _ => ⟨hended, halive, List.prefix_rfl, rfl⟩)
    (fun w e t events u hstep ih hended halive hevents => ?_) h hended halive hevents
  rw [List.mem_cons, not_or] at hevents
  have hfirst := beats_step (step_cases hstep) hended halive (Ne.symm hevents.1)
  have hrest := ih hfirst.ended hfirst.alive hevents.2
  refine ⟨hrest.ended, hrest.alive, hfirst.keeps.trans hrest.keeps, ?_⟩
  rw [hrest.counts, hfirst.counts, ticks_cons e events]
  omega

theorem pending_eq_zero {b : Beacon} (h : b ≠ .sending) : pending b = 0 := by
  cases b with
  | sending => contradiction
  | _ => rfl

/-- The dispatcher ends once `incoming` is closed and drained. With the receiver
of `outgoing` alive, nothing more is put there after that exactly as long as the
beacon does not tick. -/
theorem quiet_iff {events more : List Event} {w w' : World}
    (h : guardedRun (step D stack capacity) spawned events = some w) (hended : w.dispatcher = .ended)
    (hsettled : w.beacon ≠ .sending) (halive : w.alive = true)
    (hmore : guardedRun (step D stack capacity) w more = some w') (hevents : .hangUp ∉ more) :
    (w.closed = true ∧ w.incoming = []) ∧
      (.tick ∉ more → sent w'.attempts = sent w.attempts) ∧
      (w'.beacon ≠ .sending → (sent w'.attempts = sent w.attempts ↔ .tick ∉ more)) := by
  have hbeats := beats_run hmore hended halive hevents
  have hcounts := hbeats.counts
  have hle := hbeats.keeps.length_le
  rw [pending_eq_zero hsettled] at hcounts
  have hsame : sent w'.attempts = sent w.attempts ↔
      (sent w'.attempts).length = (sent w.attempts).length :=
    ⟨congrArg List.length, fun hlen => (hbeats.keeps.eq_of_length hlen.symm).symm⟩
  rw [← ticks_eq_zero, hsame]
  refine ⟨closed_run h hended, fun hticks => by omega, fun hsettled' => ?_⟩
  rw [pending_eq_zero hsettled'] at hcounts
  omega

theorem closing_runs :
    ∃ w, guardedRun (step simpleDns Solicitation.stack 1) spawned
        [.tick, .send .beacon, .close, .recv] = some w ∧
      w.dispatcher = .ended ∧ w.beacon = .ticking ∧ w.alive = true ∧
      w.outgoing = [unsolicited Solicitation.stack] := by
  simp [guardedRun_cons, step, spawned, World.offer]

/-- The beacon goes on after `incoming` is closed. -/
theorem beacon_outlives_incoming :
    ∃ w w', guardedRun (step simpleDns Solicitation.stack 1) spawned [.close, .recv] = some w ∧
      w.closed = true ∧ w.incoming = [] ∧ w.dispatcher = .ended ∧ w.beacon ≠ .sending ∧ w.alive = true ∧
      guardedRun (step simpleDns Solicitation.stack 1) w [.tick, .send .beacon] = some w' ∧
      sent w'.attempts ≠ sent w.attempts := by
  simp [guardedRun_cons, step, spawned, World.offer, sent]

theorem drained_in_silence :
    ∃ w w', guardedRun (step simpleDns Solicitation.stack 1) spawned
        [.tick, .send .beacon, .close, .recv] = some w ∧
      guardedRun (step simpleDns Solicitation.stack 1) w [.take] = some w' ∧
      sent w'.attempts = sent w.attempts := by
  obtain ⟨w, hrun, hended, hbeacon, halive, hout⟩ := closing_runs
  have hmore : guardedRun (step simpleDns Solicitation.stack 1) w [.take] =
      some { w with outgoing := [], delivered := w.delivered ++ [unsolicited Solicitation.stack] } := by
    simp [guardedRun_cons, step, hout]
  have hquiet := quiet_iff hrun hended (by simp [hbeacon]) halive hmore (by simp)
  exact ⟨w, _, hrun, hmore, hquiet.2.1 (by simp)⟩

end DnsAnnounce.Shutdown
