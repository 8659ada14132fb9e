import GeoDNS.Dns.Name
import GeoDNS.Lib.IP
import GeoDNS.Lib.Res

/-!
# Resource records and messages

The data of the vendored `miekg/dns` that the program builds and reads: resource records with the
record data of the types the zone loader knows (and `SOA` and `OPT`), EDNS options, and messages with
the operations `serve` applies to them. A record's Go type is the constructor of its `RData`; the
type in its header is stored separately, as in the source, and nothing but the code that builds a
record keeps the two together.
-/

namespace GeoDNS.Dns
open GeoDNS.Lib

/-- Record and query types. -/
abbrev RRType := UInt16

abbrev typeA : RRType := 1
abbrev typeNS : RRType := 2
abbrev typeMF : RRType := 4
abbrev typeCNAME : RRType := 5
abbrev typeSOA : RRType := 6
abbrev typePTR : RRType := 12
abbrev typeMX : RRType := 15
abbrev typeTXT : RRType := 16
abbrev typeAAAA : RRType := 28
abbrev typeSRV : RRType := 33
abbrev typeOPT : RRType := 41
abbrev typeSPF : RRType := 99
abbrev typeANY : RRType := 255

abbrev classINET : UInt16 := 1

abbrev rcodeSuccess : Nat := 0
abbrev rcodeServerFailure : Nat := 2
abbrev rcodeNameError : Nat := 3
abbrev rcodeRefused : Nat := 5

/-- The client-subnet option (Go `dns.EDNS0_SUBNET`). -/
structure Subnet where
  family : UInt16
  sourceNetmask : UInt8
  sourceScope : UInt8
  address : IP
  deriving DecidableEq, Repr

/-- An EDNS option (Go `dns.EDNS0`); the program looks at no other than the client subnet. -/
inductive EDNS0 where
  | subnet (e : Subnet)
  | nsid (nsid : String)
  | other (code : UInt16) (data : List UInt8)
  deriving DecidableEq, Repr

/-- The header of a record (Go `dns.RR_Header`). -/
structure Header where
  name : String := ""
  rrtype : RRType := 0
  cls : UInt16 := 0
  ttl : UInt32 := 0
  deriving DecidableEq, Repr

/-- The Go type of a record and its data. -/
inductive RData where
  | a (ip : IP)
  | aaaa (ip : IP)
  | ptr (ptr : String)
  | mx (preference : UInt16) (mx : String)
  | srv (priority weight port : UInt16) (target : String)
  | cname (target : String)
  | mf (mf : String)
  | ns (ns : String)
  | txt (txt : List String)
  | spf (txt : List String)
  | soa (ns mbox : String) (serial refresh retry expire minttl : UInt32)
  | opt (options : List EDNS0)
  deriving DecidableEq, Repr

/-- A resource record (Go `dns.RR`). -/
structure RR where
  hdr : Header
  data : RData
  deriving DecidableEq, Repr

/-- The same record under another owner name. -/
def RR.setName (rr : RR) (name : String) : RR :=
  { rr with hdr := { rr.hdr with name := name } }

/-- A record has the owner name that is set. -/
@[simp] lemma RR.setName_name (rr : RR) (name : String) : (rr.setName name).hdr.name = name := rfl

/-- Setting the owner name keeps the type. -/
@[simp] lemma RR.setName_rrtype (rr : RR) (name : String) :
    (rr.setName name).hdr.rrtype = rr.hdr.rrtype := rfl

/-- A question (Go `dns.Question`). -/
structure Question where
  name : String
  qtype : RRType
  qclass : UInt16
  deriving DecidableEq, Repr

/-- A message (Go `dns.Msg`); a fresh one has all fields zero. -/
structure Msg where
  id : UInt16 := 0
  response : Bool := false
  opcode : Nat := 0
  authoritative : Bool := false
  recursionDesired : Bool := false
  checkingDisabled : Bool := false
  rcode : Nat := 0
  question : List Question := []
  answer : List RR := []
  ns : List RR := []
  extra : List RR := []
  deriving DecidableEq, Repr

namespace Msg

/-- Make `m` the reply to a request (Go `Msg.SetReply`). -/
def setReply (m request : Msg) : Msg :=
  { m with
    id := request.id
    response := true
    opcode := request.opcode
    recursionDesired :=
      if request.opcode = 0 then request.recursionDesired else m.recursionDesired
    checkingDisabled :=
      if request.opcode = 0 then request.checkingDisabled else m.checkingDisabled
    rcode := rcodeSuccess
    question := if request.question = [] then m.question else request.question.take 1 }

/-- Make `m` the reply to a request with a result code (Go `Msg.SetRcode`). -/
def setRcode (m request : Msg) (rcode : Nat) : Msg :=
  { m.setReply request with rcode := rcode }

/-- The last `OPT` record of the additional section (Go `Msg.IsEdns0`). -/
def isEdns0 (m : Msg) : Option RR :=
  m.extra.reverse.find? (fun rr => rr.hdr.rrtype = typeOPT)

/-- Append an `OPT` record (Go `Msg.SetEdns0`). -/
def setEdns0 (m : Msg) (udpsize : UInt16) (wantDo : Bool) : Msg :=
  { m with extra := m.extra ++
      [⟨⟨".", typeOPT, udpsize, if wantDo then 0x8000 else 0⟩, .opt []⟩] }

/-- The `SERVFAIL` reply (Go `dns.HandleFailed`). -/
def handleFailed (request : Msg) : Msg :=
  ({} : Msg).setRcode request rcodeServerFailure

end Msg
end GeoDNS.Dns
