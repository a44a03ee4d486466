import Mathlib.Data.String.Basic
namespace FleetingDns

inductive Key where
  | tunnel (id : String)
  | tunnelLookup (githubUserId : String)
  | subdomain (name : String)
  | slot (fqdn : String)
  | port (n : ℕ)
  | session (keyPrefix id : String)
  | sessionGrant (name token : String)
  | tunnelLive (id : String)
  | cert (serial : String)
  deriving DecidableEq

namespace Key

def tag : Key → String
  | tunnel _ | tunnelLive _ => "tunnel"
  | tunnelLookup _ => "tunnel_lookup"
  | subdomain _ => "subdomain"
  | slot _ => "slot"
  | port _ => "port"
  | session keyPrefix _ => keyPrefix
  | sessionGrant _ _ => "session_grant"
  | cert _ => "edf-ca"

def rest : Key → String
  | tunnel id | session _ id => id
  | tunnelLive id => "live:" ++ id
  | tunnelLookup githubUserId => githubUserId
  | subdomain name => name
  | slot fqdn => fqdn
  | port n => Nat.repr n
  | sessionGrant name token => name ++ ":" ++ token
  | cert serial => "cert:" ++ serial

def render (k : Key) : String := k.tag ++ ":" ++ k.rest

def isTunnelLookup : Key → Bool
  | tunnelLookup _ => true
  | _ => false

def isTunnel : Key → Bool
  | tunnel _ | tunnelLive _ => true
  | _ => false

def NoColon (s : String) : Prop := ':' ∉ s.toList

instance (s : String) : Decidable (NoColon s) := inferInstanceAs (Decidable (':' ∉ s.toList))

def WellFormed : Key → Prop
  | tunnel id => NoColon id
  | session keyPrefix _ => keyPrefix = "session"
  | sessionGrant name _ => NoColon name
  | _ => True

lemma takeWhile_colon {a b : List Char} (ha : ':' ∉ a) : (a ++ ':' :: b).takeWhile (· ≠ ':') = a := by
  rw [List.takeWhile_append_of_pos]
  · simp
  · intro c hc
    simpa using fun he : c = ':' => ha (he ▸ hc)

lemma split_colon {a a' b b' : String} (ha : NoColon a) (ha' : NoColon a')
    (h : a ++ ":" ++ b = a' ++ ":" ++ b') : a = a' ∧ b = b' := by
  have hl : a.toList ++ ':' :: b.toList = a'.toList ++ ':' :: b'.toList := by
    simpa using congrArg String.toList h
  have hw := congrArg (List.takeWhile (· ≠ ':')) hl
  rw [takeWhile_colon ha, takeWhile_colon ha'] at hw
  rw [hw, List.append_cancel_left_eq, List.cons.injEq] at hl
  exact ⟨String.toList_injective hw, String.toList_injective hl.2⟩

lemma tag_noColon {k : Key} (hk : k.WellFormed) : NoColon k.tag := by
  cases k with
  | session => cases hk; rw [tag]; decide
  | _ => rw [tag]; decide

lemma colon_live (id : String) : ¬ NoColon ("live:" ++ id) := by
  simp [NoColon]

/-- No two well-formed keys share their text, so the store may be indexed by `Key`. -/
lemma render_injective {j k : Key} (hj : j.WellFormed) (hk : k.WellFormed) (h : j.render = k.render) : j = k := by
  obtain ⟨ht, hr⟩ := split_colon (tag_noColon hj) (tag_noColon hk) h
  cases j with
  | session => cases hj; cases k <;> simp_all [tag, rest]
  | tunnelLive id =>
    cases k with
    | tunnel id' =>
      have hi : "live:" ++ id = id' := hr
      exact absurd (hi ▸ hk) (colon_live id)
    | session => cases hk; simp [tag] at ht
    | tunnelLive =>
      simp only [rest] at hr
      simpa using hr
    | _ => simp [tag] at ht
  | tunnel id =>
    cases k with
    | tunnelLive id' =>
      have hi : id = "live:" ++ id' := hr
      exact absurd (hi ▸ hj) (colon_live id')
    | session => cases hk; simp [tag] at ht
    | tunnel => simpa [rest] using hr
    | _ => simp [tag] at ht
  | sessionGrant =>
    cases k with
    | sessionGrant =>
      obtain ⟨hs, ht'⟩ := split_colon hj hk hr
      rw [hs, ht']
    | session => cases hk; simp [tag] at ht
    | _ => simp [tag] at ht
  | port n =>
    cases k with
    | port n' =>
      have hd : Nat.toDigits 10 n = Nat.toDigits 10 n' := by
        simpa only [rest, Nat.toList_repr] using congrArg String.toList hr
      have hn := congrArg (fun ds => Nat.ofDigitChars 10 ds 0) hd
      simp only [Nat.ofDigitChars_ten_toDigits] at hn
      rw [hn]
    | session => cases hk; simp [tag] at ht
    | _ => simp [tag] at ht
  | _ =>
    cases k with
    | session => cases hk; simp [tag] at ht
    | _ => simp_all [tag, rest]

end Key

end FleetingDns
