import DnsAnnounce.Address

namespace DnsAnnounce.SimpleDns

open DnsAnnounce.Utf8 DnsAnnounce.Address

/-- Record types, the two address types by name. -/
inductive TYPE
  | A
  | AAAA
  | Other (code : UInt16)
  deriving DecidableEq

inductive QTYPE
  | TYPE (type : TYPE)
  | IXFR
  | AXFR
  | MAILB
  | MAILA
  | ANY
  deriving DecidableEq

inductive CLASS
  | IN
  | CS
  | CH
  | HS
  | NONE
  deriving DecidableEq

inductive QCLASS
  | CLASS (class_ : CLASS)
  | ANY
  deriving DecidableEq

inductive RCODE
  | NoError
  | FormatError
  | ServerFailure
  | NameError
  | NotImplemented
  | Refused
  | Other (code : UInt16)
  deriving DecidableEq

inductive PacketFlag
  | RESPONSE
  | AUTHORITATIVE_ANSWER
  | TRUNCATION
  | RECURSION_DESIRED
  | RECURSION_AVAILABLE
  | AUTHENTIC_DATA
  | CHECKING_DISABLED
  deriving DecidableEq

inductive RData (Data : Type)
  | A (address : Ipv4Addr)
  | AAAA (address : Ipv6Addr)
  | Other (data : Data)
  deriving DecidableEq

structure Question (Name : Type) where
  qname : Name
  qtype : QTYPE
  qclass : QCLASS
  unicastResponse : Bool
  deriving DecidableEq

structure ResourceRecord (Name Data : Type) where
  name : Name
  class_ : CLASS
  ttl : UInt32
  rdata : RData Data
  cacheFlush : Bool
  deriving DecidableEq

def ResourceRecord.new {Name Data : Type} (name : Name) (class_ : CLASS) (ttl : UInt32)
    (rdata : RData Data) : ResourceRecord Name Data :=
  ⟨name, class_, ttl, rdata, false⟩

structure Packet (Name Header Data : Type) where
  header : Header
  questions : List (Question Name)
  answers : List (ResourceRecord Name Data)
  nameServers : List (ResourceRecord Name Data)
  additionalRecords : List (ResourceRecord Name Data)
  deriving DecidableEq

end SimpleDns

open SimpleDns Utf8

/-- What the server calls in the crate: how it stores names, headers and other
record data is its own affair. -/
structure SimpleDns (Name Header Data : Type) where
  display : Name → Text
  newReply : UInt16 → Packet Name Header Data
  id : Header → UInt16
  hasFlags : Header → PacketFlag → Bool
  setFlags : Header → PacketFlag → Header
  rcode : Header → RCODE
  setRcode : Header → RCODE → Header
  parse : Bytes → Option (Packet Name Header Data)
  buildBytesVecCompressed : Packet Name Header Data → Option Bytes

namespace SimpleDns

variable {Name Header Data : Type}

structure Lawful (D : SimpleDns Name Header Data) : Prop where
  newReply_sections : ∀ id, D.newReply id = ⟨(D.newReply id).header, [], [], [], []⟩
  id_newReply : ∀ id, D.id (D.newReply id).header = id
  hasFlags_newReply : ∀ id f, D.hasFlags (D.newReply id).header f = true ↔ f = .RESPONSE
  rcode_newReply : ∀ id, D.rcode (D.newReply id).header = .NoError
  id_setFlags : ∀ h f, D.id (D.setFlags h f) = D.id h
  hasFlags_setFlags : ∀ h f g, D.hasFlags (D.setFlags h f) g = true ↔ g = f ∨ D.hasFlags h g = true
  rcode_setFlags : ∀ h f, D.rcode (D.setFlags h f) = D.rcode h
  id_setRcode : ∀ h r, D.id (D.setRcode h r) = D.id h
  hasFlags_setRcode : ∀ h r f, D.hasFlags (D.setRcode h r) f = D.hasFlags h f
  rcode_setRcode : ∀ h r, D.rcode (D.setRcode h r) = r
  parse_build : ∀ p bytes, D.buildBytesVecCompressed p = some bytes → D.parse bytes = some p

structure PlainHeader where
  id : UInt16
  flags : List PacketFlag
  rcode : RCODE
  deriving DecidableEq

/-- The crate as seen through a few messages and their wire format. -/
def ofTable (table : List (Packet Text PlainHeader Empty × Bytes)) :
    SimpleDns Text PlainHeader Empty where
  display name := name
  newReply id := ⟨⟨id, [.RESPONSE], .NoError⟩, [], [], [], []⟩
  id h := h.id
  hasFlags h f := f ∈ h.flags
  setFlags h f := { h with flags := f :: h.flags }
  rcode h := h.rcode
  setRcode h r := { h with rcode := r }
  parse bytes := (table.find? (·.2 = bytes)).map (·.1)
  buildBytesVecCompressed p := (table.find? (·.1 = p)).map (·.2)

theorem ofTable_lawful {table : List (Packet Text PlainHeader Empty × Bytes)}
    (h : ∀ e ∈ table, (ofTable table).parse e.2 = some e.1) : (ofTable table).Lawful where
  newReply_sections _ := rfl
  id_newReply _ := rfl
  hasFlags_newReply _ f := by simp [ofTable]
  rcode_newReply _ := rfl
  id_setFlags _ _ := rfl
  hasFlags_setFlags h f g := by simp [ofTable]
  rcode_setFlags _ _ := rfl
  id_setRcode _ _ := rfl
  hasFlags_setRcode _ _ _ := rfl
  rcode_setRcode _ _ := rfl
  parse_build p bytes hb := by
    obtain ⟨e, he, rfl⟩ := Option.map_eq_some_iff.mp hb
    have hp : e.1 = p := by simpa using List.find?_some he
    rw [h e (List.mem_of_find?_eq_some he), hp]

end SimpleDns

end DnsAnnounce
