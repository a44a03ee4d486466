import FleetingDns.IpLiterals
import Mathlib.Data.List.DropRight

namespace FleetingDns.Dns

inductive RecordType where
  | a
  | aaaa
  | other (code : ℕ)
  deriving DecidableEq

structure Name where
  labels : List String
  deriving DecidableEq

namespace Name

def numLabels (name : Name) : ℕ :=
  if name.labels.head? = some "*" then name.labels.length - 1 else name.labels.length

/-- The characters of a label stand for its octets. -/
def Fits (name : Name) : Prop :=
  (∀ label ∈ name.labels, label ≠ "" ∧ label.toList.length ≤ 63 ∧ label.toList.all (·.toNat < 256)) ∧
    name.labels.foldr (·.toList.length + 1 + ·) 0 < 255

instance (name : Name) : Decidable name.Fits := inferInstanceAs (Decidable (_ ∧ _))

/-- The labels of the name, one by one, are those of the text. -/
def Spells (name : Name) (fqdn : String) : Prop :=
  ".".intercalate name.labels = fqdn ∧ ∀ label ∈ name.labels, '.' ∉ label.toList

end Name

def RecordType.Fits : RecordType → Prop
  | a | aaaa => True
  | other code => code < 2 ^ 16 ∧ code ≠ 1 ∧ code ≠ 28

inductive MessageType where
  | query
  | response
  deriving DecidableEq

inductive OpCode where
  | query
  | status
  | notify
  | update
  | dso
  | unknown (code : ℕ)
  deriving DecidableEq

inductive ResponseCode where
  | noError
  | formErr
  | servFail
  | nxDomain
  | other (code : ℕ)
  deriving DecidableEq

def OpCode.Fits : OpCode → Prop
  | unknown code => code < 16 ∧ code ∉ [0, 2, 4, 5, 6]
  | _ => True

structure Query where
  name : Name
  queryType : RecordType
  deriving DecidableEq

inductive RData where
  | a (ip : Net.Ipv4Addr)
  | aaaa (ip : Net.Ipv6Addr)
  | other (code : ℕ)
  deriving DecidableEq

def RData.Fits : RData → Prop
  | a ip => ∃ s, Net.parseIpv4 s = some ip
  | aaaa ip => ∃ s, Net.parseIpv6 s = some ip
  | other _ => False

def RData.isAddress : RData → Bool
  | a _ | aaaa _ => true
  | other _ => false

structure Record where
  name : Name
  ttl : ℕ
  data : RData
  deriving DecidableEq

structure Message where
  id : ℕ
  messageType : MessageType
  opCode : OpCode
  responseCode : ResponseCode
  queries : List Query
  (answers authorities additionals : List Record)
  deriving DecidableEq

namespace Message

def errorMsg (id : ℕ) (opCode : OpCode) (responseCode : ResponseCode) : Message :=
  ⟨id, .response, opCode, responseCode, [], [], [], []⟩

def response (id : ℕ) (opCode : OpCode) : Message := errorMsg id opCode .noError

section

variable (m : Message)

def addQuery (query : Query) : Message := { m with queries := m.queries ++ [query] }

def addAnswer (record : Record) : Message := { m with answers := m.answers ++ [record] }

def records : List Record := m.answers ++ m.authorities ++ m.additionals

def addresses : List Record := m.records.filter (·.data.isAddress)

def Readable : Prop :=
  m.id < 2 ^ 16 ∧ m.opCode.Fits ∧ ∀ query ∈ m.queries, query.name.Fits ∧ query.queryType.Fits

structure Writable : Prop where
  readable : m.Readable
  responseCode : ∀ code, m.responseCode ≠ .other code
  queries : m.queries.length ≤ 1
  records : m.authorities = [] ∧ m.additionals = [] ∧ m.answers.length ≤ 1
  answers : ∀ record ∈ m.answers, record.name.Fits ∧ record.ttl < 2 ^ 32 ∧ record.data.Fits

end

instance (type : RecordType) : Decidable type.Fits := by
  cases type <;> unfold RecordType.Fits <;> infer_instance

instance (opCode : OpCode) : Decidable opCode.Fits := by
  cases opCode <;> unfold OpCode.Fits <;> infer_instance

instance (m : Message) : Decidable m.Readable := inferInstanceAs (Decidable (_ ∧ _))

end Message

/-- The DNS library: what it reads from a packet and writes to one, and how `Name::to_string` prints a name. -/
structure Codec (Packet : Type) where
  fromVec : Packet → Option Message
  toVec : Message → Except String Packet
  empty : Packet
  nameToString : Name → String
  nameToString_ne : ∀ name, nameToString name ≠ ""
  readable : ∀ packet m, fromVec packet = some m → m.Readable
  faithful : ∀ m, m.Writable → ∃ packet, toVec m = .ok packet ∧ fromVec packet = some m

end FleetingDns.Dns
