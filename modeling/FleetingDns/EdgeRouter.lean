import FleetingDns.TunnelLookup

namespace FleetingDns

open CommandPrograms LossyText

inductive RouterOutcome where
  | status (statusLine body : String)
  | forwarded
  deriving DecidableEq

namespace EdgeRouter

abbrev Bytes := List Octet

lemma octet_lt (c : Char) : c.toNat % 256 < 256 := Nat.mod_lt _ (by decide)

def ascii (text : String) : Bytes := text.toList.map fun c => ⟨c.toNat % 256, octet_lt c⟩

def sessionCookieName : String := "fdns_session"

def isWhiteSpace (c : Char) : Bool :=
  let n := c.toNat
  (9 ≤ n && n ≤ 13) || n == 32 || n == 0x85 || n == 0xA0 || n == 0x1680 || (0x2000 ≤ n && n ≤ 0x200A)
    || n == 0x2028 || n == 0x2029 || n == 0x202F || n == 0x205F || n == 0x3000

def trim (s : List Char) : List Char := ((s.dropWhile isWhiteSpace).reverse.dropWhile isWhiteSpace).reverse

def splitOnce (c : Char) (s : List Char) : Option (List Char × List Char) :=
  if c ∈ s then some (s.takeWhile (· ≠ c), (s.dropWhile (· ≠ c)).tail) else none

def toAsciiLower (c : Char) : Char := if 'A' ≤ c ∧ c ≤ 'Z' then Char.ofNat (c.toNat + 32) else c

def eqIgnoreAsciiCase (s t : List Char) : Bool := s.map toAsciiLower == t.map toAsciiLower

def stripCr (line : List Char) : List Char := if line.getLast? = some '\r' then line.dropLast else line

def lines (s : List Char) : List (List Char) :=
  let parts := s.splitOn '\n'
  -- the text after the last line feed keeps its carriage return, and is a line only when it is not empty
  parts.dropLast.map stripCr ++ parts.getLast?.toList.filter (· ≠ [])

def cookieValue (name : List Char) (pair : List Char) : Option (List Char) :=
  match splitOnce '=' (trim pair) with
  | some (ck, cv) => if trim ck = name then some (trim cv) else none
  | none => none

def lineCookie (name : List Char) (line : List Char) : Option (List Char) :=
  match splitOnce ':' line with
  | some (key, value) =>
    if eqIgnoreAsciiCase (trim key) "cookie".toList then (value.splitOn ';').findSome? (cookieValue name) else none
  | none => none

def cookieFromRequestHead (head name : String) : Option String :=
  ((lines head.toList).findSome? (lineCookie name.toList)).map String.ofList

def subdomainFromSni (sni : String) : String := String.ofList (sni.toList.takeWhile (· ≠ '.'))

def badGateway : RouterOutcome := .status "502 Bad Gateway" "502 Bad Gateway\n"

def internalServerError : RouterOutcome := .status "500 Internal Server Error" "500 Internal Server Error\n"

def sessionCookie (buf : Bytes) : Option String :=
  cookieFromRequestHead (String.ofList (fromUtf8Lossy buf)) sessionCookieName

def dialTunnel (tunnelInfo : TunnelInfo) (replayBuf : Bytes) : Program RouterOutcome := do
  match ← issue (.dialSlot tunnelInfo) with
  | .error (.failed _) => return badGateway
  | .error .timeout => return .status "504 Gateway Timeout" "504 Gateway Timeout\n"
  | .ok () =>
    if replayBuf.isEmpty then return .forwarded
    else
      match ← issue (.replay replayBuf) with
      | .error _ => return badGateway
      | .ok () => return .forwarded

def authorize (subdomain : String) : ExceptT RouterOutcome Program Bytes := do
  match ← ExceptT.lift (issue .readRequestHead) with
  | .error _ => throw (.status "400 Bad Request" "400 Bad Request\n")
  | .ok replayBuf =>
    match sessionCookie replayBuf with
    | none => throw (.status "403 Forbidden" "403 Forbidden\n")
    | some token =>
      match ← ExceptT.lift (TunnelLookup.checkSessionGrant subdomain token).run with
      | .error _ => throw internalServerError
      | .ok authorized => if authorized then return replayBuf else throw (.status "403 Forbidden" "403 Forbidden\n")

def handleRouterConnection (sni : Option String) : Program RouterOutcome := do
  match sni with
  | none => return .status "400 Bad Request" "400 Bad Request: missing SNI\n"
  | some sni =>
    match ← (TunnelLookup.getTunnelBySubdomain (subdomainFromSni sni)).run with
    | .error _ => return internalServerError
    | .ok none => return .status "404 Not Found" "404 Not Found\n"
    | .ok (some tunnelInfo) =>
      if tunnelInfo.protectedTunnel then
        match ← (authorize (subdomainFromSni sni)).run with
        | .error refusal => return refusal
        | .ok replayBuf => dialTunnel tunnelInfo replayBuf
      else
        dialTunnel tunnelInfo []

end EdgeRouter

end FleetingDns
