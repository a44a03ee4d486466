import Mathlib.Data.String.Basic

namespace FleetingDns.Net

structure Ipv4Addr where
  octets : ℕ × ℕ × ℕ × ℕ
  deriving DecidableEq

structure Ipv6Addr where
  segments : List ℕ
  deriving DecidableEq

abbrev Reader (α : Type) := List Char → Option (α × List Char)

def toDigit (radix : ℕ) (c : Char) : Option ℕ :=
  let n := c.toNat
  let digit :=
    if '0'.toNat ≤ n ∧ n ≤ '9'.toNat then n - '0'.toNat
    else if 'a'.toNat ≤ n ∧ n ≤ 'z'.toNat then n - 'a'.toNat + 10
    else if 'A'.toNat ≤ n ∧ n ≤ 'Z'.toNat then n - 'A'.toNat + 10
    else radix
  if digit < radix then some digit else none

def readDigits (radix : ℕ) : List Char → List ℕ × List Char
  | [] => ([], [])
  | c :: cs =>
    match toDigit radix c with
    | some d => ((readDigits radix cs).map (d :: ·) id)
    | none => ([], c :: cs)

def readNumber (radix maxDigits limit : ℕ) (allowZeroPrefix : Bool) : Reader ℕ := fun cs =>
  let (digits, rest) := readDigits radix cs
  let result := digits.foldl (fun n d => n * radix + d) 0
  if digits = [] ∨ maxDigits < digits.length ∨ limit < result then none
  else if !allowZeroPrefix ∧ digits.head? = some 0 ∧ 1 < digits.length then none
  else some (result, rest)

def readGivenChar (c : Char) : List Char → Option (List Char)
  | d :: cs => if d = c then some cs else none
  | [] => none

def readSeparator {α : Type} (sep : Char) (index : ℕ) (inner : Reader α) : Reader α := fun cs =>
  if 0 < index then (readGivenChar sep cs).bind inner else inner cs

def readOctet (index : ℕ) : Reader ℕ := readSeparator '.' index (readNumber 10 3 255 false)

def readIpv4Addr : Reader Ipv4Addr := fun cs => do
  let (a, cs) ← readOctet 0 cs
  let (b, cs) ← readOctet 1 cs
  let (c, cs) ← readOctet 2 cs
  let (d, cs) ← readOctet 3 cs
  return (⟨a, b, c, d⟩, cs)

def readGroups : (n : ℕ) → (groups : List ℕ) → List Char → List ℕ × Bool × List Char
  | 0, groups, cs => (groups, false, cs)
  | n + 1, groups, cs =>
    match if 0 < n then readSeparator ':' groups.length readIpv4Addr cs else none with
    | some (⟨one, two, three, four⟩, rest) => (groups ++ [one * 256 + two, three * 256 + four], true, rest)
    | none =>
      match readSeparator ':' groups.length (readNumber 16 4 65535 true) cs with
      | some (g, rest) => readGroups n (groups ++ [g]) rest
      | none => (groups, false, cs)

def readIpv6Addr : Reader Ipv6Addr := fun cs =>
  let (head, headIpv4, rest) := readGroups 8 [] cs
  if head.length = 8 then some (⟨head⟩, rest)
  else if headIpv4 then none
  else do
    let rest ← readGivenChar ':' rest
    let rest ← readGivenChar ':' rest
    let (tail, _, rest) := readGroups (8 - (head.length + 1)) [] rest
    return (⟨head ++ List.replicate (8 - head.length - tail.length) 0 ++ tail⟩, rest)

def parseWith {α : Type} (inner : Reader α) (s : String) : Option α :=
  match inner s.toList with
  | some (a, []) => some a
  | _ => none

def parseIpv4 (s : String) : Option Ipv4Addr := parseWith readIpv4Addr s

def parseIpv6 (s : String) : Option Ipv6Addr := parseWith readIpv6Addr s

end FleetingDns.Net
