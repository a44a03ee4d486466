import FleetingDns.DnsMessages
import FleetingDns.Library.ExpiringStore
import FleetingDns.Library.Panics
import FleetingDns.Library.ThreadPool
import FleetingDns.RedisKeys
namespace FleetingDns.Dns

open CommandPrograms Net Panics Message Option Query

inductive DnsCmd (Packet : Type) where
  | getCached (key : String)
  | getConnection
  | redisGet (key : Key)
  | instantNow
  | insertCached (key : String) (response : Packet) (expiresAt : ℕ)

@[reducible] def DnsCmd.Reply {Packet : Type} : DnsCmd Packet → Type
  | getCached _ => Option Packet
  | getConnection => Except String Unit
  | redisGet _ => Except String (Option String)
  | instantNow => ℕ
  | insertCached _ _ _ => Unit

structure DnsHandler (Packet : Type) where
  codec : Codec Packet
  defaultHasher : Packet → Fin (2 ^ 64)
  cacheTtl : ℕ

variable {Packet : Type}

abbrev Program (Packet : Type) := Prog (DnsCmd Packet) DnsCmd.Reply

def issue (c : DnsCmd Packet) : Program Packet c.Reply := Prog.issue c

def trimEndDots (s : String) : String := String.ofList (s.toList.rdropWhile (· == '.'))

inductive Served (Packet : Type) where
  | returned (r : Except String Packet)
  | panicked
  | cancelled

namespace DnsHandler

variable (handler : DnsHandler Packet)

def slotKey (name : Name) : Key := .slot (trimEndDots (handler.codec.nameToString name))

def written (m : Message) : Packet :=
  match handler.codec.toVec m with
  | .ok packet => packet
  | .error _ => handler.codec.empty

def buildErrorResponse (packet : Packet) (responseCode : ResponseCode) : Except String Packet :=
  match handler.codec.fromVec packet with
  | none => .ok (handler.written (.errorMsg 0 .query .formErr))
  | some message =>
    let response := errorMsg message.id message.opCode responseCode
    match message.queries.head? with
    | some query => .ok (handler.written (response.addQuery query))
    | none => .ok (handler.written response)

def lookupSlotInRedis (qname : String) : ExceptT String (Program Packet) (Option String) := ExceptT.mk do
  if qname.isEmpty then
    return .ok none
  else
    match ← issue .getConnection with
    | .error e => return .error ("Redis connection failed: " ++ e)
    | .ok () =>
      match ← issue (.redisGet (.slot (trimEndDots qname))) with
      | .ok slot => return .ok slot
      | .error _ => return .ok none

def addSlot (response : Message) (query : Query) (qname : Name) : Option String → Except String Message
  | some slotIp =>
    match query.queryType with
    | .a =>
      match parseIpv4 slotIp with
      | some ip => .ok (response.addAnswer ⟨qname, 300, .a ip⟩)
      | none => .error ("Invalid IPv4 address: " ++ slotIp)
    | .aaaa =>
      match parseIpv6 slotIp with
      | some ip => .ok (response.addAnswer ⟨qname, 300, .aaaa ip⟩)
      | none => .error ("Invalid IPv6 address: " ++ slotIp)
    | .other _ => .ok { response with responseCode := .nxDomain }
  | none => .ok { response with responseCode := .nxDomain }

def buildDnsResponse (message : Message) (query : Query) (qname : Name) (slot : Option String) :
    Except String Packet := do
  let response ← addSlot ((response message.id message.opCode).addQuery query) query qname slot
  match handler.codec.toVec response with
  | .ok packet => return packet
  | .error e => throw ("Failed to serialize response: " ++ e)

section

variable (packet : Packet)

def respond (message : Message) (query : Query) (slot : Option String) : Except String Packet :=
  match handler.buildDnsResponse message query query.name slot with
  | .ok response => .ok response
  | .error _ => handler.buildErrorResponse packet .servFail

def processDnsQuery : Program Packet (Except String Packet) := do
  match handler.codec.fromVec packet with
  | none => return handler.buildErrorResponse packet .formErr
  | some message =>
    if message.messageType = .response then
      return handler.buildErrorResponse packet .formErr
    else
      match message.queries.head? with
      | none => return handler.buildErrorResponse packet .formErr
      | some query =>
        match ← (lookupSlotInRedis (handler.codec.nameToString query.name)).run with
        | .ok slot => return handler.respond packet message query slot
        | .error _ => return handler.respond packet message query none

def generateCacheKey : String := "dns:" ++ Nat.repr (handler.defaultHasher packet).val

def getCachedResponse : Program Packet (Option Packet) :=
  issue (.getCached (handler.generateCacheKey packet))

def cacheResponse (response : Packet) : Program Packet (Option Unit) := do
  let now ← issue .instantNow
  match instantAdd now handler.cacheTtl with
  | some expiresAt =>
    issue (.insertCached (handler.generateCacheKey packet) response expiresAt)
    return some ()
  | none => return none

def handlePacket : Program Packet (Served Packet) := do
  match ← handler.getCachedResponse packet with
  | some cachedResponse => return .returned (.ok cachedResponse)
  | none =>
    match ← handler.processDnsQuery packet with
    | .ok response =>
      match ← handler.cacheResponse packet response with
      | some () => return .returned (.ok response)
      | none => return .panicked
    | .error e => return .returned (.error e)

end

/-- The DNS library prints the name as it is written. -/
def Prints (fqdn : String) : Prop := ∀ name : Name, name.Spells fqdn → handler.slotKey name = .slot fqdn

end DnsHandler

variable {handler : DnsHandler Packet} {packet : Packet}

section

def Query.address (query : Query) (slotIp : String) : Option RData :=
  match query.queryType with
  | .a => (parseIpv4 slotIp).map .a
  | .aaaa => (parseIpv6 slotIp).map .aaaa
  | .other _ => none

inductive Query.Refused (query : Query) : Option String → ResponseCode → Prop
  | missing : Refused query none .nxDomain
  | otherType {slotIp : String} {code : ℕ} (type : query.queryType = .other code) : Refused query (some slotIp) .nxDomain
  | unparsed {slotIp : String} (type : ∀ code, query.queryType ≠ .other code) (data : query.address slotIp = none) :
      Refused query (some slotIp) .servFail

def Message.reply (message : Message) (query : Query) (slot : Option String) : Message :=
  match DnsHandler.addSlot ((response message.id message.opCode).addQuery query) query query.name slot with
  | .ok response => response
  | .error _ => (errorMsg message.id message.opCode .servFail).addQuery query

variable (message : Message) (query : Query) (slot : Option String)

lemma reply_cases :
    (∃ slotIp data, slot = some slotIp ∧ query.address slotIp = some data ∧ message.reply query slot =
      ((response message.id message.opCode).addQuery query).addAnswer ⟨query.name, 300, data⟩) ∨
    ((∀ slotIp, slot = some slotIp → query.address slotIp = none) ∧ ∃ code, query.Refused slot code ∧
      message.reply query slot = (errorMsg message.id message.opCode code).addQuery query) := by
  obtain _ | slotIp := slot
  · exact .inr ⟨by rintro _ ⟨⟩, .nxDomain, .missing, rfl⟩
  cases htype : query.queryType with
  | a =>
    cases hip : parseIpv4 slotIp with
    | some ip => exact .inl ⟨slotIp, .a ip, rfl, by simp [address, htype, hip],
        by simp [reply, DnsHandler.addSlot, htype, hip]⟩
    | none =>
      have hdata : query.address slotIp = none := by simp [address, htype, hip]
      exact .inr ⟨by simpa using hdata, .servFail, .unparsed (by simp [htype]) hdata,
        by simp [reply, DnsHandler.addSlot, htype, hip]⟩
  | aaaa =>
    cases hip : parseIpv6 slotIp with
    | some ip => exact .inl ⟨slotIp, .aaaa ip, rfl, by simp [address, htype, hip],
        by simp [reply, DnsHandler.addSlot, htype, hip]⟩
    | none =>
      have hdata : query.address slotIp = none := by simp [address, htype, hip]
      exact .inr ⟨by simpa using hdata, .servFail, .unparsed (by simp [htype]) hdata,
        by simp [reply, DnsHandler.addSlot, htype, hip]⟩
  | other =>
    refine .inr ⟨?_, .nxDomain, .otherType htype, ?_⟩
    · rintro _ ⟨⟩
      simp [address, htype]
    · simp [reply, DnsHandler.addSlot, htype, response, errorMsg, addQuery]

@[simp] lemma reply_id : (message.reply query slot).id = message.id := by
  obtain ⟨_, _, -, -, h⟩ | ⟨-, _, -, h⟩ := reply_cases message query slot <;> rw [h] <;> rfl

@[simp] lemma reply_opCode : (message.reply query slot).opCode = message.opCode := by
  obtain ⟨_, _, -, -, h⟩ | ⟨-, _, -, h⟩ := reply_cases message query slot <;> rw [h] <;> rfl

@[simp] lemma reply_queries : (message.reply query slot).queries = [query] := by
  obtain ⟨_, _, -, -, h⟩ | ⟨-, _, -, h⟩ := reply_cases message query slot <;> rw [h] <;> rfl

lemma address_isAddress {query : Query} {slotIp : String} {data : RData} (h : query.address slotIp = some data) :
    data.isAddress = true := by
  unfold address at h
  split at h
  · obtain ⟨ip, -, rfl⟩ := map_eq_some_iff.mp h
    rfl
  · obtain ⟨ip, -, rfl⟩ := map_eq_some_iff.mp h
    rfl
  · cases h

lemma reply_addresses : (message.reply query slot).addresses =
    ((slot.bind query.address).map fun data => ⟨query.name, 300, data⟩).toList := by
  obtain ⟨slotIp, data, rfl, hdata, h⟩ | ⟨hnone, code, -, h⟩ := reply_cases message query slot
  · have haddress := address_isAddress hdata
    simp [h, hdata, addresses, records, addAnswer, addQuery, response,
      errorMsg, haddress]
  · have hslot : slot.bind query.address = none := by
      cases slot with
      | none => rfl
      | some slotIp => exact hnone slotIp rfl
    simp [h, hslot, addresses, records, addQuery, errorMsg]

variable {message query slot}

lemma errorMsg_writable {m : Message} {code : ResponseCode} (hm : m.Readable) (hcode : ∀ n, code ≠ .other n) :
    (errorMsg m.id m.opCode code).Writable :=
  ⟨⟨hm.1, hm.2.1, by simp [errorMsg]⟩, hcode, Nat.zero_le _, ⟨rfl, rfl, Nat.zero_le _⟩, by simp [errorMsg]⟩

lemma addQuery_writable {m : Message} (code : ResponseCode) (hm : m.Readable) (hcode : ∀ n, code ≠ .other n)
    (hq : m.queries.head? = some query) : ((errorMsg m.id m.opCode code).addQuery query).Writable := by
  have hfits := hm.2.2 query (List.mem_of_head? hq)
  refine ⟨⟨hm.1, hm.2.1, ?_⟩, hcode, Nat.le_refl _, ⟨rfl, rfl, Nat.zero_le _⟩, ?_⟩
  · simpa [errorMsg, addQuery] using hfits
  · simp [errorMsg, addQuery]

lemma reply_writable (slot : Option String) (hm : message.Readable) (hq : message.queries.head? = some query) :
    (message.reply query slot).Writable := by
  obtain ⟨slotIp, data, -, hdata, h⟩ | ⟨-, code, hcode, h⟩ := reply_cases message query slot
  · rw [h]
    obtain ⟨hreadable, hcode, hqueries, hrecords, -⟩ := addQuery_writable .noError hm (by simp) hq
    refine ⟨hreadable, hcode, hqueries, ⟨rfl, rfl, Nat.le_refl _⟩, ?_⟩
    have hfits : data.Fits := by
      unfold address at hdata
      split at hdata
      · obtain ⟨ip, hip, rfl⟩ := map_eq_some_iff.mp hdata
        exact ⟨slotIp, hip⟩
      · obtain ⟨ip, hip, rfl⟩ := map_eq_some_iff.mp hdata
        exact ⟨slotIp, hip⟩
      · cases hdata
    simpa [addAnswer, addQuery, response, errorMsg] using
      ⟨(hm.2.2 query (List.mem_of_head? hq)).1, hfits⟩
  · rw [h]
    exact addQuery_writable _ hm (by cases hcode <;> simp) hq

lemma written_reads {m : Message} (hm : m.Writable) : handler.codec.fromVec (handler.written m) = some m := by
  obtain ⟨packet, hto, hfrom⟩ := handler.codec.faithful m hm
  rw [DnsHandler.written, hto]
  exact hfrom

lemma respond_eq (hp : handler.codec.fromVec packet = some message) (hq : message.queries.head? = some query) :
    handler.respond packet message query slot = .ok (handler.written (message.reply query slot)) := by
  have hwritable := reply_writable slot (handler.codec.readable packet message hp) hq
  rw [DnsHandler.respond, DnsHandler.buildDnsResponse]
  rw [reply] at hwritable ⊢
  cases hadd : DnsHandler.addSlot ((response message.id message.opCode).addQuery query) query query.name slot with
  | ok response =>
    rw [hadd] at hwritable
    obtain ⟨written, hto, -⟩ := handler.codec.faithful response hwritable
    simp [bind, Except.bind, pure, Except.pure, hto, DnsHandler.written]
  | error => simp [bind, Except.bind, DnsHandler.buildErrorResponse, hp, hq]

lemma nameToString_nonempty (name : Name) : ¬ (handler.codec.nameToString name).isEmpty = true := by
  rw [String.isEmpty_iff]
  exact handler.codec.nameToString_ne name

def DnsHandler.question (handler : DnsHandler Packet) (packet : Packet) : Option (Message × Query) :=
  (handler.codec.fromVec packet).bind fun message =>
    if message.messageType = .response then none else message.queries.head?.map (message, ·)

lemma question_eq_some : handler.question packet = some (message, query) ↔
    handler.codec.fromVec packet = some message ∧ message.messageType ≠ .response ∧
      message.queries.head? = some query := by
  unfold DnsHandler.question
  obtain _ | m := handler.codec.fromVec packet
  · simp
  by_cases htype : m.messageType = .response
  · simp only [bind_some, if_pos htype, Option.some.injEq]
    constructor
    · rintro ⟨⟩
    · rintro ⟨rfl, hne, -⟩
      exact absurd htype hne
  simp only [bind_some, if_neg htype, map_eq_some_iff, Prod.mk.injEq, Option.some.injEq]
  constructor
  · rintro ⟨q, hq, rfl, rfl⟩
    exact ⟨rfl, htype, hq⟩
  · rintro ⟨rfl, -, hq⟩
    exact ⟨query, hq, rfl, rfl⟩

lemma question_writable {slot : Option String} (h : handler.question packet = some (message, query)) :
    (message.reply query slot).Writable := by
  obtain ⟨hp, -, hq⟩ := question_eq_some.mp h
  exact reply_writable _ (handler.codec.readable packet message hp) hq

lemma processDnsQuery_asks (h : handler.question packet = some (message, query)) :
    handler.processDnsQuery packet = (DnsHandler.lookupSlotInRedis (handler.codec.nameToString query.name)).run >>= fun r =>
      pure (.ok (handler.written (message.reply query (r.toOption.getD none)))) := by
  obtain ⟨hp, hquery, hq⟩ := question_eq_some.mp h
  simp only [DnsHandler.processDnsQuery, hp, hq, if_neg hquery]
  congr 1
  funext r
  cases r with
  | ok | error => exact congrArg pure (respond_eq hp hq)

lemma processDnsQuery_asksNothing (h : handler.question packet = none) :
    ∃ m : Message, m.Writable ∧ handler.processDnsQuery packet = pure (.ok (handler.written m)) ∧ m.addresses = [] ∧
      m.id = ((handler.codec.fromVec packet).map Message.id).getD 0 := by
  unfold DnsHandler.processDnsQuery DnsHandler.buildErrorResponse
  unfold DnsHandler.question at h
  rcases hp : handler.codec.fromVec packet with _ | message
  · exact ⟨_, errorMsg_writable (m := ⟨0, .query, .query, .noError, [], [], [], []⟩) (by decide) (by simp), rfl, rfl, rfl⟩
  have hm := handler.codec.readable packet message hp
  rw [hp, bind_some] at h
  cases hq : message.queries.head? with
  | none =>
    refine ⟨.errorMsg message.id message.opCode .formErr, errorMsg_writable hm (by simp), ?_, rfl, rfl⟩
    simp only [hq]
    split_ifs <;> rfl
  | some =>
    rw [hq] at h
    split_ifs at h with htype
    · simp only [if_pos htype, hq]
      exact ⟨_, addQuery_writable _ hm (by simp) hq, rfl, rfl, rfl⟩
    · cases h

end

/-- What Redis does while a packet is handled: whether a connection is to be had, and the answer to each read. -/
structure Redis where
  getConnection : Except String Unit
  get : Key → Except String (Option String)

variable {slotIp : String} {message : Message} {query : Query}

namespace Redis

def reply (redis : Redis) : (c : DnsCmd Packet) → Option c.Reply
  | .getConnection => some redis.getConnection
  | .redisGet key => some (redis.get key)
  | .getCached _ | .instantNow | .insertCached _ _ _ => none

def lookup (redis : Redis) (key : Key) : Option String :=
  match redis.getConnection with
  | .ok () => (redis.get key).toOption.getD none
  | .error _ => none

variable {redis : Redis} {data : RData}

lemma lookup_eq_some {key : Key} :
    redis.lookup key = some slotIp ↔ redis.getConnection = .ok () ∧ redis.get key = .ok (some slotIp) := by
  unfold lookup
  cases redis.getConnection with
  | error => simp
  | ok => cases redis.get key <;> simp [Except.toOption]

lemma lookupSlotInRedis_answer (handler : DnsHandler Packet) (redis : Redis) (name : Name) :
    ∃ r, Prog.answer (redis.reply : (c : DnsCmd Packet) → Option c.Reply)
        (DnsHandler.lookupSlotInRedis (handler.codec.nameToString name)).run = some r ∧
      r.toOption.getD none = redis.lookup (handler.slotKey name) := by
  simp only [DnsHandler.lookupSlotInRedis, ExceptT.run, ExceptT.mk, if_neg (nameToString_nonempty name), issue]
  rw [Prog.answer_issue_bind redis.reply rfl]
  unfold lookup
  cases redis.getConnection with
  | error => exact ⟨_, rfl, rfl⟩
  | ok =>
    rw [Prog.answer_issue_bind redis.reply rfl, ← DnsHandler.slotKey]
    cases redis.get (handler.slotKey name) with
    | ok | error => exact ⟨_, rfl, rfl⟩

lemma processDnsQuery_answer (redis : Redis) (h : handler.question packet = some (message, query)) :
    (handler.processDnsQuery packet).answer redis.reply =
      some (.ok (handler.written (message.reply query (redis.lookup (handler.slotKey query.name))))) := by
  obtain ⟨r, hr, hslot⟩ := lookupSlotInRedis_answer handler redis query.name
  rw [processDnsQuery_asks h, Prog.answer_bind, hr, ← hslot]
  rfl

/-- The lookup of the slot succeeds and yields the literal of an address, of the family that is asked for. -/
def Yields (handler : DnsHandler Packet) (redis : Redis) (query : Query) (data : RData) : Prop :=
  redis.getConnection = .ok () ∧ ∃ slotIp, redis.get (handler.slotKey query.name) = .ok (some slotIp) ∧
    ((query.queryType = .a ∧ ∃ ip, parseIpv4 slotIp = some ip ∧ data = .a ip) ∨
      (query.queryType = .aaaa ∧ ∃ ip, parseIpv6 slotIp = some ip ∧ data = .aaaa ip))

lemma address_eq_some : query.address slotIp = some data ↔
    (query.queryType = .a ∧ ∃ ip, parseIpv4 slotIp = some ip ∧ data = .a ip) ∨
      (query.queryType = .aaaa ∧ ∃ ip, parseIpv6 slotIp = some ip ∧ data = .aaaa ip) := by
  unfold address
  cases query.queryType with
  | a | aaaa => simp [@eq_comm _ data]
  | other => simp

lemma yields_iff :
    Yields handler redis query data ↔ (redis.lookup (handler.slotKey query.name)).bind query.address = some data := by
  simp only [Yields, ← address_eq_some, bind_eq_some_iff, lookup_eq_some, and_assoc, exists_and_left]

theorem answer_is_slot_mapping (handler : DnsHandler Packet) (redis : Redis) {packet : Packet} {message : Message}
    {query : Query} {rest : List Query} (hpacket : handler.codec.fromVec packet = some message)
    (htype : message.messageType = .query) (hqueries : message.queries = query :: rest) :
    ∃ answer response, (handler.processDnsQuery packet).answer redis.reply = some (.ok answer) ∧
      handler.codec.fromVec answer = some response ∧ response.id = message.id ∧ response.opCode = message.opCode ∧
      response.queries = [query] ∧ ((∃ record, record ∈ response.addresses) ↔ ∃ data, Yields handler redis query data) ∧
      ∀ data, Yields handler redis query data → ∃ ttl, response.addresses = [⟨query.name, ttl, data⟩] := by
  have hasks : handler.question packet = some (message, query) :=
    question_eq_some.mpr ⟨hpacket, by rw [htype]; decide, by rw [hqueries]; rfl⟩
  refine ⟨_, _, processDnsQuery_answer redis hasks, written_reads (question_writable hasks), reply_id .., reply_opCode .., reply_queries .., ?_⟩
  rw [reply_addresses]
  simp only [yields_iff]
  constructor
  · cases (redis.lookup (handler.slotKey query.name)).bind query.address with
    | none => simp
    | some => simp
  · intro data hdata
    rw [hdata]
    exact ⟨300, rfl⟩

end Redis

namespace Schedule

def codec : Codec (Option Message) where
  fromVec packet := packet.filter (decide ·.Readable)
  toVec m := .ok (some m)
  empty := none
  nameToString name := ".".intercalate name.labels ++ "."
  nameToString_ne name := by simp
  readable packet m h := of_decide_eq_true (filter_eq_some_iff.mp h).2
  faithful m hm := ⟨some m, rfl, by simp [hm.readable]⟩

lemma codec_reads {m : Message} (h : m.Readable) : codec.fromVec (some m) = some m := by simp [codec, h]

def asking (id : ℕ) (labels : List String) (queryType : RecordType) : Message :=
  ⟨id, .query, .query, .noError, [⟨⟨labels⟩, queryType⟩], [], [], []⟩

def holding (fqdn slotIp : String) : Redis :=
  ⟨.ok (), fun key => .ok (if key = .slot fqdn then some slotIp else none)⟩

def dnsd (cacheTtl : ℕ) : DnsHandler (Option Message) :=
  ⟨codec, fun packet => Fin.ofNat (2 ^ 64) (packet.elim 0 id), cacheTtl⟩

end Schedule

open Dns.Schedule in
theorem answer_is_slot_mapping_app : ∃ answer response,
    ((dnsd 300).processDnsQuery (some (asking 7 ["app", "fleetingdns", "run"] .a))).answer
      (holding "app.fleetingdns.run" "127.0.0.1").reply = some (.ok answer) ∧
    codec.fromVec answer = some response ∧ ∃ ttl, response.addresses =
      [⟨⟨["app", "fleetingdns", "run"]⟩, ttl, .a ⟨127, 0, 0, 1⟩⟩] := by
  obtain ⟨answer, response, hanswer, hresponse, -, -, -, -, haddress⟩ :=
    Redis.answer_is_slot_mapping (dnsd 300) (holding "app.fleetingdns.run" "127.0.0.1")
      (codec_reads (m := asking 7 ["app", "fleetingdns", "run"] .a) (by decide +kernel)) rfl rfl
  refine ⟨answer, response, hanswer, hresponse, haddress _ ⟨rfl, "127.0.0.1", ?_, ?_⟩⟩
  · decide
  · exact .inl ⟨rfl, _, by decide, rfl⟩

section

variable {slot : Option String}

lemma reply_nxDomain : (message.reply query slot).responseCode = .nxDomain ↔
    slot = none ∨ ∃ n, query.queryType = .other n := by
  obtain ⟨slotIp, data, rfl, hdata, h⟩ | ⟨-, code, hcode, h⟩ := reply_cases message query slot
  · have htype : ∀ n, query.queryType ≠ .other n := by
      intro n hn
      simp [address, hn] at hdata
    simp [h, htype, addAnswer, addQuery, response, errorMsg]
  · rw [h]
    cases hcode with
    | missing => simp [addQuery, errorMsg]
    | otherType htype | unparsed htype => simp [addQuery, errorMsg, htype]

lemma reply_type (message message' : Message) {query query' : Query} (slot : Option String)
    (h : query.queryType = query'.queryType) :
    (message.reply query slot).responseCode = (message'.reply query' slot).responseCode ∧
      (message.reply query slot).answers.map Record.data = (message'.reply query' slot).answers.map Record.data := by
  obtain ⟨name, type⟩ := query
  obtain ⟨name', type'⟩ := query'
  obtain rfl : type = type' := h
  unfold reply DnsHandler.addSlot
  cases slot with
  | none => exact ⟨rfl, rfl⟩
  | some slotIp =>
    cases type with
    | a => cases hip : parseIpv4 slotIp <;> simp [hip, addAnswer, addQuery, response, errorMsg]
    | aaaa => cases hip : parseIpv6 slotIp <;> simp [hip, addAnswer, addQuery, response, errorMsg]
    | other => exact ⟨rfl, rfl⟩

lemma reply_servFail (hfail : (message.reply query slot).responseCode = .servFail) :
    ∃ slotIp, slot = some slotIp ∧ (∀ n, query.queryType ≠ .other n) ∧ query.address slotIp = none := by
  obtain ⟨slotIp, data, rfl, -, h⟩ | ⟨-, code, hcode, h⟩ := reply_cases message query slot
  · rw [h] at hfail
    cases hfail
  · rw [h] at hfail
    subst hfail
    cases hcode with
    | unparsed htype hdata => exact ⟨_, rfl, htype, hdata⟩

lemma reply_found {data : RData} (hdata : query.address slotIp = some data) :
    (message.reply query (some slotIp)).responseCode = .noError ∧
      (message.reply query (some slotIp)).answers = [⟨query.name, 300, data⟩] := by
  obtain ⟨_, _, ⟨⟩, hdata', h⟩ | ⟨hnone, -⟩ := reply_cases message query (some slotIp)
  · cases hdata.symm.trans hdata'
    rw [h]
    exact ⟨rfl, rfl⟩
  · rw [hnone slotIp rfl] at hdata
    cases hdata

lemma reply_empty (hdata : query.address slotIp = none) :
    (message.reply query (some slotIp)).answers = [] := by
  obtain ⟨_, _, ⟨⟩, hdata', -⟩ | ⟨-, code, -, h⟩ := reply_cases message query (some slotIp)
  · cases hdata.symm.trans hdata'
  · rw [h]
    rfl

def Query.NoData (query : Query) (slotIp : String) : Prop :=
  (∃ n, query.queryType = .other n) ∨ (query.queryType = .aaaa ∧ parseIpv4 slotIp ≠ none) ∨
    (query.queryType = .a ∧ parseIpv6 slotIp ≠ none)

/-- The code depends on the type of the question only through what the mapping is. -/
structure Query.FollowsName (query : Query) (slot : Option String) (response : Message) : Prop where
  missing : response.responseCode = .nxDomain ↔ slot = none
  noData : ∀ slotIp, slot = some slotIp → query.NoData slotIp →
    response.responseCode = .noError ∧ response.answers = []
  failure : response.responseCode = .servFail →
    ∃ slotIp, slot = some slotIp ∧ parseIpv4 slotIp = none ∧ parseIpv6 slotIp = none

def Redis.serving (store : Key → Option String) : Redis := ⟨.ok (), fun key => .ok (store key)⟩

lemma Redis.serving_lookup (store : Key → Option String) (key : Key) : (serving store).lookup key = store key := rfl

theorem result_codes (handler : DnsHandler Packet) (store : Key → Option String) {packet : Packet} {message : Message}
    {query : Query} {rest : List Query} (hpacket : handler.codec.fromVec packet = some message)
    (htype : message.messageType = .query) (hqueries : message.queries = query :: rest) :
    ∃ answer response, (handler.processDnsQuery packet).answer (Redis.serving store).reply = some (.ok answer) ∧
      handler.codec.fromVec answer = some response ∧
      (response.responseCode = .nxDomain ↔ store (handler.slotKey query.name) = none ∨ ∃ n, query.queryType = .other n) ∧
      (response.responseCode = .servFail → ∃ slotIp, store (handler.slotKey query.name) = some slotIp ∧
        (∀ n, query.queryType ≠ .other n) ∧ query.address slotIp = none) ∧
      ∀ slotIp, store (handler.slotKey query.name) = some slotIp →
        (query.address slotIp = none → response.answers = []) ∧
        ∀ data, query.address slotIp = some data →
          response.responseCode = .noError ∧ response.answers = [⟨query.name, 300, data⟩] := by
  have hasks : handler.question packet = some (message, query) :=
    question_eq_some.mpr ⟨hpacket, by rw [htype]; decide, by rw [hqueries]; rfl⟩
  refine ⟨_, _, Redis.processDnsQuery_answer (Redis.serving store) hasks, written_reads (question_writable hasks), ?_⟩
  rw [Redis.serving_lookup]
  refine ⟨reply_nxDomain, reply_servFail, ?_⟩
  intro slotIp hslot
  rw [hslot]
  exact ⟨reply_empty, fun data => reply_found⟩

end

namespace Schedule

def app (queryType : RecordType) : Query := ⟨⟨["app", "fleetingdns", "run"]⟩, queryType⟩

def mapped (key : Key) : Option String := if key = .slot "app.fleetingdns.run" then some "127.0.0.1" else none

lemma app_mapped (queryType : RecordType) : mapped ((dnsd 300).slotKey (app queryType).name) = some "127.0.0.1" := by
  have hkey : (dnsd 300).slotKey ⟨["app", "fleetingdns", "run"]⟩ = .slot "app.fleetingdns.run" := by decide
  simp only [app, mapped, hkey, if_true]

lemma mapped_answer {queryType : RecordType} (h : queryType.Fits) :
    ((dnsd 300).processDnsQuery (some (asking 7 ["app", "fleetingdns", "run"] queryType))).answer
      (Redis.serving mapped).reply = some (.ok (some
        ((asking 7 ["app", "fleetingdns", "run"] queryType).reply (app queryType) (some "127.0.0.1")))) := by
  have hname : (⟨["app", "fleetingdns", "run"]⟩ : Name).Fits := by decide +kernel
  have hreadable : (asking 7 ["app", "fleetingdns", "run"] queryType).Readable :=
    ⟨show 7 < 2 ^ 16 by decide, trivial, by simpa [asking] using ⟨hname, h⟩⟩
  have hasks : (dnsd 300).question _ = some (_, app queryType) :=
    question_eq_some.mpr ⟨codec_reads hreadable, by rintro ⟨⟩, rfl⟩
  rw [Redis.processDnsQuery_answer (Redis.serving mapped) hasks, Redis.serving_lookup, app_mapped]
  rfl

end Schedule

open Dns.Schedule

theorem result_codes_app : ∃ answer response,
    ((dnsd 300).processDnsQuery (some (asking 7 ["app", "fleetingdns", "run"] .a))).answer
      (Redis.serving mapped).reply = some (.ok answer) ∧
    codec.fromVec answer = some response ∧ response.responseCode = .noError := by
  obtain ⟨answer, response, hanswer, hresponse, -, -, hmapped⟩ := result_codes (dnsd 300) mapped
    (codec_reads (m := asking 7 ["app", "fleetingdns", "run"] .a) (by decide +kernel)) rfl rfl
  refine ⟨answer, response, hanswer, hresponse, ?_⟩
  exact ((hmapped "127.0.0.1" (app_mapped .a)).2 (.a ⟨127, 0, 0, 1⟩) (by decide)).1

theorem result_codes_by_type :
    (∃ response, ((dnsd 300).processDnsQuery (some (asking 7 ["app", "fleetingdns", "run"] (.other 16)))).answer
        (Redis.serving mapped).reply = some (.ok (some response)) ∧ response.responseCode = .nxDomain ∧
      ¬ (app (.other 16)).FollowsName (mapped ((dnsd 300).slotKey (app (.other 16)).name)) response) ∧
    ∃ response, ((dnsd 300).processDnsQuery (some (asking 7 ["app", "fleetingdns", "run"] .aaaa))).answer
        (Redis.serving mapped).reply = some (.ok (some response)) ∧ response.responseCode = .servFail ∧
      ¬ (app .aaaa).FollowsName (mapped ((dnsd 300).slotKey (app .aaaa).name)) response := by
  constructor
  · refine ⟨_, mapped_answer (by decide), by decide, ?_⟩
    intro h
    have hnone := h.missing.mp (by decide)
    rw [app_mapped] at hnone
    cases hnone
  · refine ⟨_, mapped_answer trivial, by decide, ?_⟩
    intro h
    obtain ⟨slotIp, hslot, hipv4, -⟩ := h.failure (by decide)
    rw [app_mapped] at hslot
    rw [← Option.some.inj hslot] at hipv4
    revert hipv4
    decide

end FleetingDns.Dns
