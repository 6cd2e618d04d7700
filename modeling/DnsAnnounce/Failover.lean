namespace DnsAnnounce.Failover

variable {Server Answer : Type}

/-- A lookup that asks servers one after the other, as long as they decline and
others are left, of a list of up to `limit` of them. -/
structure InTurn (declines : Answer → Prop) (limit : Nat)
    (lookup : (Server → Answer) → List Server → Answer) : Prop where
  settled : ∀ {ask server}, ¬ declines (ask server) → ∀ rest, lookup ask (server :: rest) = ask server
  declined : ∀ {ask server}, declines (ask server) → ∀ {rest}, rest ≠ [] → rest.length < limit →
    lookup ask (server :: rest) = lookup ask rest

theorem InTurn.skip {declines : Answer → Prop} {limit : Nat}
    {lookup : (Server → Answer) → List Server → Answer} (h : InTurn declines limit lookup)
    {ask : Server → Answer} {front back : List Server} (hfront : ∀ server ∈ front, declines (ask server))
    (hback : back ≠ []) (hlimit : (front ++ back).length ≤ limit) :
    lookup ask (front ++ back) = lookup ask back := by
  induction front with
  | nil => rfl
  | cons server front ih =>
    have hfirst := hfront server List.mem_cons_self
    have hrest := ih (fun s hs => hfront s (List.mem_cons_of_mem server hs)) (Nat.le_of_succ_le hlimit)
    rw [List.cons_append, h.declined hfirst (List.append_ne_nil_of_right_ne_nil front hback) hlimit, hrest]

/-- A lookup of this kind, down to what it says when every server declines. -/
def askInTurn (declines : Answer → Bool) (failed : Answer) (ask : Server → Answer) : List Server → Answer
  | [] => failed
  | server :: rest => if declines (ask server) then askInTurn declines failed ask rest else ask server

theorem inTurn_askInTurn (declines : Answer → Bool) (failed : Answer) (limit : Nat) :
    InTurn (fun a => declines a = true) limit (@askInTurn Server Answer declines failed) where
  settled hsettled _ := if_neg hsettled
  declined hdeclined _ _ _ := if_pos hdeclined

end DnsAnnounce.Failover
