import DnsAnnounce.Runs
import DnsAnnounce.Solicitation

namespace DnsAnnounce.Spawn

open DnsAnnounce.Utf8 DnsAnnounce.Effect DnsAnnounce.Runs DnsAnnounce.Packet DnsAnnounce.SimpleDns
open DnsAnnounce.DnsServer DnsAnnounce.RouterAdvert DnsAnnounce.Stack

inductive Task
  | beacon
  | dispatcher
  deriving DecidableEq

abbrev Transcript := List ((_ : Query) × Reply)

/-- Where `dispatch_loop` stands. -/
inductive Dispatcher
  | receiving
  | handling (pkt : Bytes) (asked : Transcript) (rest : ResolverProg (Option Bytes))
  | ended
  | failed (pkt : Bytes)

/-- Where `ra_beacon_loop` stands. -/
inductive Beacon
  | ticking
  | sending
  | failed
  deriving DecidableEq

/-- A completed `outgoing.send(..)`. -/
structure Attempt where
  task : Task
  packet : Bytes
  ok : Bool

/-- A packet the dispatcher is done with. -/
structure Served where
  pkt : Bytes
  asked : Transcript
  reply : Option Bytes

/-- The two channels, the two tasks, and what has happened so far. -/
structure World where
  incoming : List Bytes
  closed : Bool
  outgoing : List Bytes
  alive : Bool
  dispatcher : Dispatcher
  beacon : Beacon
  arrived : List Bytes
  served : List Served
  attempts : List Attempt
  delivered : List Bytes

inductive Event
  | arrive (pkt : Bytes)
  | close
  | recv
  | answer (verdict : Reply)
  | pass
  | tick
  | send (task : Task)
  | take
  | hangUp

def spawned : World where
  incoming := []
  closed := false
  outgoing := []
  alive := true
  dispatcher := .receiving
  beacon := .ticking
  arrived := []
  served := []
  attempts := []
  delivered := []

variable {Name Header Data : Type} (D : SimpleDns Name Header Data) (stack : DnsStack) (capacity : Nat)

def Dispatcher.listens : Dispatcher → Bool
  | .ended | .failed _ => false
  | _ => true

/-- `outgoing.send(packet).await` as far as it can complete now: it fails once the
receiver is gone and waits while the channel is full. -/
def World.offer (w : World) (task : Task) (packet : Bytes) : Option World :=
  if !w.alive then some { w with attempts := w.attempts ++ [⟨task, packet, false⟩] }
  else if w.outgoing.length < capacity then
    some { w with outgoing := w.outgoing ++ [packet], attempts := w.attempts ++ [⟨task, packet, true⟩] }
  else none

def step (w : World) : Event → Option World
  | .arrive pkt =>
    if w.closed || !w.dispatcher.listens then none
    else some { w with incoming := w.incoming ++ [pkt], arrived := w.arrived ++ [pkt] }
  | .close => if w.closed then none else some { w with closed := true }
  | .recv => match w.dispatcher, w.incoming with
    | .receiving, pkt :: rest =>
      some { w with incoming := rest, dispatcher := .handling pkt [] (dispatch D stack pkt) }
    | .receiving, [] => if w.closed then some { w with dispatcher := .ended } else none
    | _, _ => none
  | .answer verdict => match w.dispatcher with
    | .handling pkt asked (.call query next) =>
      some { w with dispatcher := .handling pkt (asked ++ [⟨query, verdict⟩]) (next verdict) }
    | _ => none
  | .pass => match w.dispatcher with
    | .handling pkt asked (.ret none) =>
      some { w with dispatcher := .receiving, served := w.served ++ [⟨pkt, asked, none⟩] }
    | _ => none
  | .tick => if w.beacon = .ticking then some { w with beacon := .sending } else none
  | .send .dispatcher => match w.dispatcher with
    | .handling pkt asked (.ret (some reply)) => (w.offer capacity .dispatcher reply).map fun t =>
      if w.alive then { t with dispatcher := .receiving, served := w.served ++ [⟨pkt, asked, some reply⟩] }
      else { t with dispatcher := .failed pkt }
    | _ => none
  | .send .beacon =>
    if w.beacon = .sending then (w.offer capacity .beacon (unsolicited stack)).map fun t =>
      if w.alive then { t with beacon := .ticking } else { t with beacon := .failed }
    else none
  | .take => match w.outgoing with
    | packet :: rest => some { w with outgoing := rest, delivered := w.delivered ++ [packet] }
    | [] => none
  | .hangUp => if w.alive then some { w with alive := false } else none

/-- What a step does, case by case. -/
inductive Step (w : World) : Event → World → Prop
  | arrive (pkt : Bytes) : w.closed = false → w.dispatcher.listens = true →
    Step w (.arrive pkt) { w with incoming := w.incoming ++ [pkt], arrived := w.arrived ++ [pkt] }
  | close : w.closed = false → Step w .close { w with closed := true }
  | recv (pkt : Bytes) (rest : List Bytes) : w.dispatcher = .receiving → w.incoming = pkt :: rest →
    Step w .recv { w with incoming := rest, dispatcher := .handling pkt [] (dispatch D stack pkt) }
  | finish : w.dispatcher = .receiving → w.incoming = [] → w.closed = true →
    Step w .recv { w with dispatcher := .ended }
  | answer (verdict : Reply) (pkt : Bytes) (asked : Transcript) (query : Query)
      (next : Reply → ResolverProg (Option Bytes)) : w.dispatcher = .handling pkt asked (.call query next) →
    Step w (.answer verdict)
      { w with dispatcher := .handling pkt (asked ++ [⟨query, verdict⟩]) (next verdict) }
  | pass (pkt : Bytes) (asked : Transcript) : w.dispatcher = .handling pkt asked (.ret none) →
    Step w .pass { w with dispatcher := .receiving, served := w.served ++ [⟨pkt, asked, none⟩] }
  | tick : w.beacon = .ticking → Step w .tick { w with beacon := .sending }
  | reply (pkt : Bytes) (asked : Transcript) (packet : Bytes) :
    w.dispatcher = .handling pkt asked (.ret (some packet)) → w.alive = true →
    w.outgoing.length < capacity →
    Step w (.send .dispatcher) { w with
      outgoing := w.outgoing ++ [packet], attempts := w.attempts ++ [⟨.dispatcher, packet, true⟩]
      dispatcher := .receiving, served := w.served ++ [⟨pkt, asked, some packet⟩] }
  | replyFails (pkt : Bytes) (asked : Transcript) (packet : Bytes) :
    w.dispatcher = .handling pkt asked (.ret (some packet)) → w.alive = false →
    Step w (.send .dispatcher) { w with
      attempts := w.attempts ++ [⟨.dispatcher, packet, false⟩], dispatcher := .failed pkt }
  | beacon : w.beacon = .sending → w.alive = true → w.outgoing.length < capacity →
    Step w (.send .beacon) { w with
      outgoing := w.outgoing ++ [unsolicited stack]
      attempts := w.attempts ++ [⟨.beacon, unsolicited stack, true⟩], beacon := .ticking }
  | beaconFails : w.beacon = .sending → w.alive = false →
    Step w (.send .beacon) { w with
      attempts := w.attempts ++ [⟨.beacon, unsolicited stack, false⟩], beacon := .failed }
  | take (packet : Bytes) (rest : List Bytes) : w.outgoing = packet :: rest →
    Step w .take { w with outgoing := rest, delivered := w.delivered ++ [packet] }
  | hangUp : w.alive = true → Step w .hangUp { w with alive := false }

variable {D stack capacity}

theorem offer_cases {w w' : World} {task : Task} {packet : Bytes}
    (h : w.offer capacity task packet = some w') :
    (w.alive = false ∧ w' = { w with attempts := w.attempts ++ [⟨task, packet, false⟩] }) ∨
      (w.alive = true ∧ w.outgoing.length < capacity ∧ w' = { w with
        outgoing := w.outgoing ++ [packet], attempts := w.attempts ++ [⟨task, packet, true⟩] }) := by
  rw [World.offer] at h
  split_ifs at h with halive hroom
  · exact .inl ⟨(Bool.not_eq_true' _).mp halive, (Option.some.inj h).symm⟩
  · exact .inr ⟨by simpa using halive, hroom, (Option.some.inj h).symm⟩

theorem step_cases {w w' : World} {e : Event} (h : step D stack capacity w e = some w') :
    Step D stack capacity w e w' := by
  cases e with
  | arrive pkt =>
    rw [step] at h
    split_ifs at h with hopen
    obtain rfl := Option.some.inj h
    rw [Bool.or_eq_true, not_or, Bool.not_eq_true, Bool.not_eq_true', Bool.not_eq_false] at hopen
    exact .arrive pkt hopen.1 hopen.2
  | close =>
    rw [step] at h
    split_ifs at h with hopen
    obtain rfl := Option.some.inj h
    exact .close (Bool.not_eq_true _ ▸ hopen)
  | recv =>
    rw [step] at h
    split at h
    · rename_i pkt rest hd hi
      obtain rfl := Option.some.inj h
      exact .recv pkt rest hd hi
    · rename_i hd hi
      split_ifs at h with hclosed
      obtain rfl := Option.some.inj h
      exact .finish hd hi hclosed
    · contradiction
  | answer verdict =>
    rw [step] at h
    split at h
    · rename_i pkt asked query next hd
      obtain rfl := Option.some.inj h
      exact .answer verdict pkt asked query next hd
    · contradiction
  | pass =>
    rw [step] at h
    split at h
    · rename_i pkt asked hd
      obtain rfl := Option.some.inj h
      exact .pass pkt asked hd
    · contradiction
  | tick =>
    rw [step] at h
    split_ifs at h with hb
    obtain rfl := Option.some.inj h
    exact .tick hb
  | send task =>
    cases task with
    | dispatcher =>
      rw [step] at h
      split at h
      · rename_i pkt asked packet hd
        obtain ⟨t, ht, rfl⟩ := Option.map_eq_some_iff.mp h
        obtain ⟨halive, rfl⟩ | ⟨halive, hroom, rfl⟩ := offer_cases ht
        · rw [if_neg (Bool.eq_false_iff.mp halive)]
          exact .replyFails pkt asked packet hd halive
        · rw [if_pos halive]
          exact .reply pkt asked packet hd halive hroom
      · contradiction
    | beacon =>
      rw [step] at h
      by_cases hb : w.beacon = .sending
      · rw [if_pos hb] at h
        obtain ⟨t, ht, rfl⟩ := Option.map_eq_some_iff.mp h
        obtain ⟨halive, rfl⟩ | ⟨halive, hroom, rfl⟩ := offer_cases ht
        · rw [if_neg (Bool.eq_false_iff.mp halive)]
          exact .beaconFails hb halive
        · rw [if_pos halive]
          exact .beacon hb halive hroom
      · rw [if_neg hb] at h
        contradiction
  | take =>
    rw [step] at h
    split at h
    · rename_i packet rest ho
      obtain rfl := Option.some.inj h
      exact .take packet rest ho
    · contradiction
  | hangUp =>
    rw [step] at h
    split_ifs at h with halive
    obtain rfl := Option.some.inj h
    exact .hangUp halive

def sent (attempts : List Attempt) : List Bytes := (attempts.filter (·.ok)).map (·.packet)

def sentBy (task : Task) (attempts : List Attempt) : List Bytes :=
  sent (attempts.filter (·.task = task))

@[simp] theorem sent_put (attempts : List Attempt) (task : Task) (packet : Bytes) :
    sent (attempts ++ [⟨task, packet, true⟩]) = sent attempts ++ [packet] := by
  rw [sent, List.filter_append, List.map_append]
  rfl

@[simp] theorem sent_fail (attempts : List Attempt) (task : Task) (packet : Bytes) :
    sent (attempts ++ [⟨task, packet, false⟩]) = sent attempts := by
  rw [sent, List.filter_append, List.map_append]
  exact List.append_nil _

theorem sentBy_self (attempts : List Attempt) (task : Task) (packet : Bytes) (ok : Bool) :
    sentBy task (attempts ++ [⟨task, packet, ok⟩]) =
      sent (attempts.filter (·.task = task) ++ [⟨task, packet, ok⟩]) := by
  rw [sentBy, List.filter_append]
  simp

theorem sentBy_other {attempts : List Attempt} {task : Task} {a : Attempt} (h : a.task ≠ task) :
    sentBy task (attempts ++ [a]) = sentBy task attempts := by
  rw [sentBy, List.filter_append]
  simp [h, sentBy]

def Dispatcher.inHand : Dispatcher → List Bytes
  | .handling pkt _ _ | .failed pkt => [pkt]
  | _ => []

def World.hasFailed (w : World) : Task → Prop
  | .beacon => w.beacon = .failed
  | .dispatcher => ∃ pkt, w.dispatcher = .failed pkt

section Invariants

variable {w w' : World} {e : Event} (h : Step D stack capacity w e w')

include h

theorem channel_step (hi : sent w.attempts = w.delivered ++ w.outgoing) :
    sent w'.attempts = w'.delivered ++ w'.outgoing := by
  cases h with
  | reply => rw [sent_put, hi, List.append_assoc]
  | replyFails => rw [sent_fail, hi]
  | beacon => rw [sent_put, hi, List.append_assoc]
  | beaconFails => rw [sent_fail, hi]
  | take packet rest hout => rw [hi, hout, List.append_assoc, List.singleton_append]
  | _ => exact hi

theorem beacon_step (hi : ∀ a ∈ w.attempts, a.task = .beacon → a.packet = unsolicited stack) :
    ∀ a ∈ w'.attempts, a.task = .beacon → a.packet = unsolicited stack := by
  have hsnoc (a : Attempt) (ha : a.task = .beacon → a.packet = unsolicited stack) :
      ∀ b ∈ w.attempts ++ [a], b.task = .beacon → b.packet = unsolicited stack := by
    intro b hb
    obtain hb | hb := List.mem_append.mp hb
    · exact hi b hb
    · rwa [List.mem_singleton.mp hb]
  cases h with
  | reply => exact hsnoc _ fun htask => Task.noConfusion htask
  | replyFails => exact hsnoc _ fun htask => Task.noConfusion htask
  | beacon => exact hsnoc _ fun _ => rfl
  | beaconFails => exact hsnoc _ fun _ => rfl
  | _ => exact hi

theorem replies_step (hi : sentBy .dispatcher w.attempts = w.served.filterMap (·.reply)) :
    sentBy .dispatcher w'.attempts = w'.served.filterMap (·.reply) := by
  cases h with
  | pass => rw [List.filterMap_append, hi, List.filterMap_cons_none rfl, List.filterMap_nil, List.append_nil]
  | reply pkt asked packet =>
    rw [sentBy_self, sent_put, List.filterMap_append, ← hi]
    rfl
  | replyFails => rw [sentBy_self, sent_fail, ← hi, sentBy]
  | beacon => rw [sentBy_other (show Task.beacon ≠ .dispatcher by decide), hi]
  | beaconFails => rw [sentBy_other (show Task.beacon ≠ .dispatcher by decide), hi]
  | _ => exact hi

theorem consumed_step
    (hi : w.served.map (·.pkt) ++ w.dispatcher.inHand ++ w.incoming = w.arrived) :
    w'.served.map (·.pkt) ++ w'.dispatcher.inHand ++ w'.incoming = w'.arrived := by
  cases h with
  | arrive pkt => rw [← List.append_assoc, hi]
  | recv pkt rest hd hin =>
    rw [hd, hin] at hi
    rw [← hi]
    simp [Dispatcher.inHand]
  | finish hd =>
    rw [hd] at hi
    exact hi
  | answer verdict pkt asked query next hd =>
    rw [hd] at hi
    exact hi
  | pass pkt asked hd =>
    rw [hd] at hi
    rw [← hi]
    simp [Dispatcher.inHand]
  | reply pkt asked packet hd =>
    rw [hd] at hi
    rw [← hi]
    simp [Dispatcher.inHand]
  | replyFails pkt asked packet hd =>
    rw [hd] at hi
    exact hi
  | _ => exact hi

variable (D stack) in
/-- The dispatcher handles each packet as `dispatch` does, with the answers it was given. -/
structure Faithful (w : World) : Prop where
  served : ∀ s ∈ w.served, Resumes (dispatch D stack s.pkt) s.asked (.ret s.reply)
  handling : ∀ pkt asked rest, w.dispatcher = .handling pkt asked rest →
    Resumes (dispatch D stack pkt) asked rest

theorem faithful_step (hi : Faithful D stack w) : Faithful D stack w' := by
  have hsnoc {pkt : Bytes} {asked : Transcript} {reply : Option Bytes}
      (hd : w.dispatcher = .handling pkt asked (.ret reply)) :
      ∀ s ∈ w.served ++ [⟨pkt, asked, reply⟩], Resumes (dispatch D stack s.pkt) s.asked (.ret s.reply) := by
    intro s hs
    obtain hs | hs := List.mem_append.mp hs
    · exact hi.served s hs
    · rw [List.mem_singleton.mp hs]
      exact hi.handling pkt asked _ hd
  cases h with
  | recv pkt rest =>
    refine ⟨hi.served, fun _ _ _ hd => ?_⟩
    obtain ⟨rfl, rfl, rfl⟩ := Dispatcher.handling.inj hd
    exact .start _
  | finish => exact ⟨hi.served, fun _ _ _ hd => Dispatcher.noConfusion hd⟩
  | answer verdict pkt asked query next hd =>
    refine ⟨hi.served, fun _ _ _ hd' => ?_⟩
    obtain ⟨rfl, rfl, rfl⟩ := Dispatcher.handling.inj hd'
    exact (hi.handling pkt asked _ hd).answer verdict
  | pass pkt asked hd => exact ⟨hsnoc hd, fun _ _ _ hd => Dispatcher.noConfusion hd⟩
  | reply pkt asked packet hd => exact ⟨hsnoc hd, fun _ _ _ hd => Dispatcher.noConfusion hd⟩
  | replyFails => exact ⟨hi.served, fun _ _ _ hd => Dispatcher.noConfusion hd⟩
  | _ => exact ⟨hi.served, hi.handling⟩

end Invariants

/-- A task whose send has failed never sends again, and sends fail only once the
receiver is gone. -/
structure Orderly (w : World) : Prop where
  last : w.attempts.Pairwise fun a b => a.ok = false → b.task ≠ a.task
  stopped : ∀ a ∈ w.attempts, a.ok = false → w.hasFailed a.task
  gone : ∀ task, w.hasFailed task → w.alive = false

section Orderly

variable {w w' : World} (hi : Orderly w)

include hi

theorem orderly_same (hattempts : w'.attempts = w.attempts)
    (hkeeps : (∀ task, w.hasFailed task → w'.hasFailed task) ∧
      ∀ task, w'.hasFailed task → w'.alive = false) : Orderly w' := by
  constructor
  · rw [hattempts]
    exact hi.last
  · rw [hattempts]
    exact fun a ha hok => hkeeps.1 _ (hi.stopped a ha hok)
  · exact hkeeps.2

theorem orderly_snoc {a : Attempt} (hattempts : w'.attempts = w.attempts ++ [a])
    (hnew : ¬ w.hasFailed a.task) (hfail : a.ok = false → w'.hasFailed a.task)
    (hkeeps : (∀ task, w.hasFailed task → w'.hasFailed task) ∧
      ∀ task, w'.hasFailed task → w'.alive = false) : Orderly w' := by
  constructor
  · rw [hattempts, List.pairwise_append]
    refine ⟨hi.last, List.pairwise_singleton _ _, fun b hb c hc hok htask => ?_⟩
    rw [List.mem_singleton.mp hc] at htask
    exact hnew (htask ▸ hi.stopped b hb hok)
  · rw [hattempts]
    intro b hb hok
    obtain hb | hb := List.mem_append.mp hb
    · exact hkeeps.1 _ (hi.stopped b hb hok)
    · rw [List.mem_singleton.mp hb] at hok ⊢
      exact hfail hok
  · exact hkeeps.2

theorem keeps_dispatcher (hd : ¬ w.hasFailed .dispatcher)
    (hd' : w'.hasFailed .dispatcher → w'.alive = false) (hbeacon : w'.beacon = w.beacon)
    (halive : w'.alive = w.alive) :
    (∀ task, w.hasFailed task → w'.hasFailed task) ∧
      ∀ task, w'.hasFailed task → w'.alive = false := by
  constructor
  · rintro (_ | _) hf
    · exact hbeacon.trans hf
    · exact absurd hf hd
  · rintro (_ | _) hf
    · exact halive.trans (hi.gone .beacon (hbeacon.symm.trans hf))
    · exact hd' hf

theorem keeps_beacon (hb : ¬ w.hasFailed .beacon) (hb' : w'.hasFailed .beacon → w'.alive = false)
    (hdispatcher : w'.dispatcher = w.dispatcher) (halive : w'.alive = w.alive) :
    (∀ task, w.hasFailed task → w'.hasFailed task) ∧
      ∀ task, w'.hasFailed task → w'.alive = false := by
  constructor
  · rintro (_ | _) hf
    · exact absurd hf hb
    · exact hf.imp fun _ hd => hdispatcher.trans hd
  · rintro (_ | _) hf
    · exact hb' hf
    · exact halive.trans (hi.gone .dispatcher (hf.imp fun _ hd => hdispatcher.symm.trans hd))

theorem orderly_step {e : Event} (h : Step D stack capacity w e w') : Orderly w' := by
  have hdispatcher {d : Dispatcher} (hd : w.dispatcher = d) (hd' : ∀ pkt, d ≠ .failed pkt) :
      ¬ w.hasFailed .dispatcher := fun ⟨pkt, hf⟩ => hd' pkt (hd.symm.trans hf)
  have hbeacon {b : Beacon} (hb : w.beacon = b) (hb' : b ≠ .failed) : ¬ w.hasFailed .beacon :=
    fun hf => hb' (hb.symm.trans hf)
  have hfresh {d : Dispatcher} {b : Bool} (hd : ∀ pkt, d ≠ .failed pkt) :
      (∃ pkt, d = .failed pkt) → b = false := fun ⟨pkt, hf⟩ => absurd hf (hd pkt)
  cases h with
  | arrive | close | take => exact orderly_same hi rfl ⟨fun _ hf => hf, hi.gone⟩
  | hangUp => exact orderly_same hi rfl ⟨fun _ hf => hf, fun _ _ => rfl⟩
  | recv _ _ hd | finish hd | answer _ _ _ _ _ hd | pass _ _ hd =>
    exact orderly_same hi rfl
      (keeps_dispatcher hi (hdispatcher hd (by simp)) (hfresh (by simp)) rfl rfl)
  | reply _ _ _ hd =>
    exact orderly_snoc hi rfl (hdispatcher hd (by simp)) Bool.noConfusion
      (keeps_dispatcher hi (hdispatcher hd (by simp)) (hfresh (by simp)) rfl rfl)
  | replyFails pkt _ _ hd halive =>
    exact orderly_snoc hi rfl (hdispatcher hd (by simp)) (fun _ => ⟨pkt, rfl⟩)
      (keeps_dispatcher hi (hdispatcher hd (by simp)) (fun _ => halive) rfl rfl)
  | tick hb =>
    exact orderly_same hi rfl
      (keeps_beacon hi (hbeacon hb (by decide)) Beacon.noConfusion rfl rfl)
  | beacon hb =>
    exact orderly_snoc hi rfl (hbeacon hb (by decide)) Bool.noConfusion
      (keeps_beacon hi (hbeacon hb (by decide)) Beacon.noConfusion rfl rfl)
  | beaconFails hb halive =>
    exact orderly_snoc hi rfl (hbeacon hb (by decide)) (fun _ => rfl)
      (keeps_beacon hi (hbeacon hb (by decide)) (fun _ => halive) rfl rfl)

end Orderly

variable (D stack) in
structure Inv (w : World) : Prop where
  channel : sent w.attempts = w.delivered ++ w.outgoing
  beacon : ∀ a ∈ w.attempts, a.task = .beacon → a.packet = unsolicited stack
  replies : sentBy .dispatcher w.attempts = w.served.filterMap (·.reply)
  consumed : w.served.map (·.pkt) ++ w.dispatcher.inHand ++ w.incoming = w.arrived
  faithful : Faithful D stack w
  orderly : Orderly w

theorem inv_spawned : Inv D stack spawned where
  channel := rfl
  beacon := fun a ha => absurd ha List.not_mem_nil
  replies := rfl
  consumed := rfl
  faithful := ⟨fun s hs => absurd hs List.not_mem_nil, fun _ _ _ hd => Dispatcher.noConfusion hd⟩
  orderly := by
    refine ⟨.nil, fun a ha => absurd ha List.not_mem_nil, ?_⟩
    rintro (_ | _) hf
    · exact Beacon.noConfusion hf
    · exact hf.elim fun _ hd => Dispatcher.noConfusion hd

theorem inv_step {w w' : World} {e : Event} (h : step D stack capacity w e = some w')
    (hi : Inv D stack w) : Inv D stack w' := by
  have hstep := step_cases h
  exact ⟨channel_step hstep hi.channel, beacon_step hstep hi.beacon, replies_step hstep hi.replies,
    consumed_step hstep hi.consumed, faithful_step hstep hi.faithful, orderly_step hi.orderly hstep⟩

def arrivals (events : List Event) : List Bytes :=
  events.filterMap fun | .arrive pkt => some pkt | _ => none

theorem arrived_run {w w' : World} {events : List Event}
    (h : guardedRun (step D stack capacity) w events = some w') :
    w'.arrived = w.arrived ++ arrivals events := by
  refine guardedRun_induction (R := fun w events w' => w'.arrived = w.arrived ++ arrivals events)
    (fun w => (List.append_nil _).symm) (fun w e t events u hstep ih => ?_) h
  rw [ih]
  cases step_cases hstep with
  | arrive pkt => exact List.append_assoc ..
  | _ => rfl

theorem beacon_copies {w : World} (hi : Inv D stack w) :
    ∃ k, sentBy .beacon w.attempts = List.replicate k (unsolicited stack) := by
  refine ⟨_, List.eq_replicate_of_mem fun packet hpacket => ?_⟩
  obtain ⟨a, ha, rfl⟩ := List.mem_map.mp hpacket
  obtain ⟨ha, htask⟩ := List.mem_filter.mp (List.mem_of_mem_filter ha)
  exact hi.beacon a ha (by simpa using htask)

variable (D stack) in
/-- What `dispatch_loop` makes of a packet: an advertisement for a solicitation,
without a word to the resolver, and otherwise what `handle_packet` returns. -/
structure ServedAs (s : Served) : Prop where
  solicitation : isRouterSolicitation s.pkt = true → s.asked = [] ∧
    ∃ src, solicitationSrc s.pkt = some src ∧ s.reply = some (buildRouterAdvertisement stack.raCfg src)
  other : isRouterSolicitation s.pkt = false →
    Resumes (handlePacket D stack.dnsCfg s.pkt) s.asked (.ret s.reply)

theorem servedAs_of_resumes {s : Served} (h : Resumes (dispatch D stack s.pkt) s.asked (.ret s.reply)) :
    ServedAs D stack s := by
  constructor
  · intro hrs
    have hlen := (isRouterSolicitation_iff.mp hrs).1
    rw [ipv6HeaderLen] at hlen
    have hsrc : solicitationSrc s.pkt = some ⟨slice s.pkt 8 24, UdpCodec.length_slice (by omega)⟩ := by
      rw [solicitationSrc_eq hrs, UdpCodec.ipv6OfSlice_eq]
    rw [dispatch, if_pos hrs, hsrc] at h
    obtain ⟨hasked, hreply⟩ := h.of_ret
    exact ⟨hasked, _, hsrc, Prog.ret.inj hreply⟩
  · intro hrs
    rwa [dispatch, hrs] at h

end DnsAnnounce.Spawn
