import DnsAnnounce.Address
import DnsAnnounce.Effect
import DnsAnnounce.Runs

namespace DnsAnnounce.Route

open DnsAnnounce.Utf8 DnsAnnounce.Address DnsAnnounce.Effect DnsAnnounce.Runs

structure DnsRouteConfig where
  servers : List IpAddr
  routingDomains : List Text
  deriving DecidableEq

/-- The trait: a backend talks to its host in calls `Call`. -/
structure DnsRoute (Call : Type) (Resp : Call → Type) (Self Error : Type) where
  set : Text → DnsRouteConfig → Method Call Resp Self Error Unit
  reset : Method Call Resp Self Error Unit

inductive Request
  | set (interface : Text) (config : DnsRouteConfig)
  | reset
  deriving DecidableEq

variable {Call : Type} {Resp : Call → Type} {Self Error S : Type}
  (route : DnsRoute Call Resp Self Error) (h : Handler Call Resp S)

def serve : Request → Method Call Resp Self Error Unit
  | .set interface config => route.set interface config
  | .reset => route.reset

def outcome (r : Request) (st : Self × S) : Except Error Unit := (exec h (serve route r st.1) st.2).1.1

/-- One whole call by the application: what becomes of the instance and of the
host. -/
def after (st : Self × S) (r : Request) : Self × S :=
  ((exec h (serve route r st.1) st.2).1.2, (exec h (serve route r st.1) st.2).2)

/-- What a backend is for: it holds at most one configuration, the one of the
last `set()` that no `reset()` followed. -/
def wanted (_ : Option DnsRouteConfig) : Request → Option DnsRouteConfig
  | .set _ c => some c
  | .reset => none

def vpnConfig : DnsRouteConfig := ⟨[.V4 ⟨[10, 0, 0, 1], rfl⟩], ["vpn.example".toList]⟩

end DnsAnnounce.Route
