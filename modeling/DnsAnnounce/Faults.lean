import DnsAnnounce.ResolvconfBackend
import DnsAnnounce.ResolvedBackend

namespace DnsAnnounce.Faults

open DnsAnnounce.Utf8 DnsAnnounce.Effect DnsAnnounce.Runs DnsAnnounce.FileSystem DnsAnnounce.Route

structure Backend (Call : Type) (Resp : Call → Type) (Self Error S Fault : Type) where
  route : DnsRoute Call Resp Self Error
  handler : Handler Call Resp S
  fail : (c : Call) → Fault → S → Resp c × S

def static : Backend FsCall FsResp StaticBackend.StaticResolvConf ErrorKind Fs FsFault :=
  ⟨StaticBackend.route, fsHandler, fsFail⟩

def resolvconf : Backend ResolvconfBackend.ProcCall ResolvconfBackend.ProcResp
    ResolvconfBackend.Resolvconf ResolvconfBackend.Error ResolvconfBackend.Host
    ResolvconfBackend.ProcFault :=
  ⟨ResolvconfBackend.route, ResolvconfBackend.procHandler, ResolvconfBackend.procFail⟩

def resolved (net : ResolvedBackend.Net) : Backend ResolvedBackend.BusCall ResolvedBackend.BusResp
    ResolvedBackend.SystemdResolved ResolvedBackend.Error ResolvedBackend.Links
    ResolvedBackend.BusFault :=
  ⟨ResolvedBackend.route, ResolvedBackend.busHandler net, ResolvedBackend.busFail⟩

variable {Call : Type} {Resp : Call → Type} {Self Error S Fault : Type}

namespace Backend

variable (b : Backend Call Resp Self Error S Fault)

def outcomeUnder (plan : Call → Option Fault) (st : Self × S) (r : Request) : Except Error Unit :=
  outcome b.route (faulty b.handler b.fail plan) r st

def afterUnder (plan : Call → Option Fault) (st : Self × S) (r : Request) : Self × S :=
  after b.route (faulty b.handler b.fail plan) st r

end Backend

/-- `set()` calls in which nothing fails, and `reset()` calls in which the calls
that the plan picks fail. -/
inductive Event (Call Fault : Type)
  | set (interface : Text) (config : DnsRouteConfig)
  | reset (plan : Call → Option Fault)

def Event.OnInterface (interface : Text) : Event Call Fault → Prop
  | .set i _ => i = interface
  | .reset _ => True

instance (interface : Text) (e : Event Call Fault) : Decidable (e.OnInterface interface) :=
  match e with
  | .set _ _ => inferInstanceAs (Decidable (_ = _))
  | .reset _ => isTrue trivial

/-- The instance and the host, and whether a `set()` has succeeded yet. -/
abbrev Watched (Self S : Type) := (Self × S) × Bool

variable (b : Backend Call Resp Self Error S Fault)

def step (w : Watched Self S) : Event Call Fault → Watched Self S
  | .set interface config =>
    (after b.route b.handler w.1 (.set interface config),
      w.2 || (outcome b.route b.handler (.set interface config) w.1).isOk)
  | .reset plan => (b.afterUnder plan w.1 .reset, w.2)

/-- A `reset()` that follows a `set()` and returns `Ok` leaves nothing in place. -/
def Honest (inPlace : Self × S → Prop) (w : Watched Self S) : Event Call Fault → Prop
  | .set _ _ => True
  | .reset plan => w.2 = true → b.outcomeUnder plan w.1 .reset = .ok () →
      ¬ inPlace (b.afterUnder plan w.1 .reset)

/-- No `reset()` that follows a `set()` is called where it `overlooks` what is in
place. -/
def Heeds (overlooks : Self × S → (Call → Option Fault) → Prop) (w : Watched Self S) :
    Event Call Fault → Prop
  | .set _ _ => True
  | .reset plan => w.2 = true → ¬ overlooks w.1 plan

instance {inPlace : Self × S → Prop} [DecidablePred inPlace] [DecidableEq Error]
    (w : Watched Self S) (e : Event Call Fault) : Decidable (Honest b inPlace w e) :=
  match e with
  | .set _ _ => isTrue trivial
  | .reset _ => inferInstanceAs (Decidable (_ → _ → ¬ _))

instance {overlooks : Self × S → (Call → Option Fault) → Prop}
    [∀ st plan, Decidable (overlooks st plan)] (w : Watched Self S) (e : Event Call Fault) :
    Decidable (Heeds overlooks w e) :=
  match e with
  | .set _ _ => isTrue trivial
  | .reset _ => inferInstanceAs (Decidable (_ → ¬ _))

end DnsAnnounce.Faults
