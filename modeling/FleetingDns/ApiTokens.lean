import FleetingDns.CertificateAuthority
import FleetingDns.Library.TextFields
namespace FleetingDns.Auth

open EdfCa TextFields List

inductive AuthError where
  | authenticationFailed (msg : String)
  | tokenExpired
  | invalidTokenFormat
  | invalidTokenSignature
  deriving DecidableEq

structure GitHubUser extends FleetingDns.GitHubUser where
  (name email : Option String)
  avatarUrl : String
  (publicRepos followers following : Option ℕ)
  (createdAt updatedAt : Option String)
  deriving DecidableEq

abbrev Timestamp := Fin (2 ^ 63)

def devBypassToken : String := "dev-bypass-token"

def devUser : GitHubUser :=
  ⟨⟨"0", "dev-user"⟩, some "Development User", some "dev@fleetingdns.run", "https://github.com/github.png",
    none, none, none, none, none⟩

def tokenUser (userId username : String) : GitHubUser :=
  ⟨⟨userId, username⟩, none, none, "", none, none, none, none, none⟩

def tokenLifetime : ℤ := 86400

def wrappingSub (a b : ℤ) : ℤ := (a - b + 2 ^ 63) % 2 ^ 64 - 2 ^ 63

section

variable (md5 : String → List Byte)

def mac (payload secret : String) : String := hexEncode (md5 (payload ++ secret))

def generateJwtToken (user : FleetingDns.GitHubUser) (secret : String) (now : Timestamp) : String :=
  let payload := user.id ++ ":" ++ user.login ++ ":" ++ Nat.repr now
  payload ++ "." ++ mac md5 payload secret

def validateJwtToken (token secret : String) (now : Timestamp) : Except AuthError GitHubUser :=
  if token = devBypassToken then
    .ok devUser
  else
    match fields '.' token with
    | [payload, signature] =>
      if signature ≠ mac md5 payload secret then
        .error .invalidTokenSignature
      else
        match fields ':' payload with
        | [userId, username, stamp] =>
          match parseI64 stamp with
          | none => .error .invalidTokenFormat
          | some timestamp =>
            if wrappingSub now timestamp > tokenLifetime then .error .tokenExpired else .ok (tokenUser userId username)
        | _ => .error .invalidTokenFormat
    | _ => .error .invalidTokenFormat

/-- The token is `id:login:ts.sig`, one dot and two colons, with the hex MAC of its payload as signature. -/
def Vouched (secret token id login : String) (ts : ℤ) : Prop :=
  ∃ payload sig stamp, token = payload ++ "." ++ sig ∧ '.' ∉ payload.toList ∧ '.' ∉ sig.toList ∧
    sig = mac md5 payload secret ∧ payload = id ++ ":" ++ login ++ ":" ++ stamp ∧ ':' ∉ id.toList ∧ ':' ∉ login.toList ∧
    ':' ∉ stamp.toList ∧ parseI64 stamp = some ts

end

variable {md5 : String → List Byte} {secret token payload sig id login stamp id' login' : String} {ts ts' : ℤ}
  {now t t' : Timestamp} {user : GitHubUser}

lemma fields_dot : fields '.' token = [payload, sig] ↔
    token = payload ++ "." ++ sig ∧ '.' ∉ payload.toList ∧ '.' ∉ sig.toList := by
  have hj : joined '.' [payload, sig] = payload ++ "." ++ sig := by
    apply String.toList_injective
    simp [joined]
  rw [fields_eq_iff, hj]
  simp only [mem_cons, forall_eq_or_imp]
  tauto

lemma fields_colon : fields ':' payload = [id, login, stamp] ↔ payload = id ++ ":" ++ login ++ ":" ++ stamp ∧
    ':' ∉ id.toList ∧ ':' ∉ login.toList ∧ ':' ∉ stamp.toList := by
  have hj : joined ':' [id, login, stamp] = id ++ ":" ++ login ++ ":" ++ stamp := by
    apply String.toList_injective
    simp [joined]
  rw [fields_eq_iff, hj]
  simp only [mem_cons, forall_eq_or_imp]
  tauto

lemma vouched_iff : Vouched md5 secret token id login ts ↔ ∃ payload sig stamp, fields '.' token = [payload, sig] ∧
    sig = mac md5 payload secret ∧ fields ':' payload = [id, login, stamp] ∧ parseI64 stamp = some ts := by
  simp only [fields_dot, fields_colon]
  constructor
  · rintro ⟨payload, sig, stamp, ht, hp, hs, hmac, hpay, hi, hl, hst, hts⟩
    exact ⟨payload, sig, stamp, ⟨ht, hp, hs⟩, hmac, ⟨hpay, hi, hl, hst⟩, hts⟩
  · rintro ⟨payload, sig, stamp, ⟨ht, hp, hs⟩, hmac, ⟨hpay, hi, hl, hst⟩, hts⟩
    exact ⟨payload, sig, stamp, ht, hp, hs, hmac, hpay, hi, hl, hst, hts⟩

section

variable (h : Vouched md5 secret token id login ts)

include h

lemma Vouched.ne_bypass : token ≠ devBypassToken := by
  obtain ⟨payload, sig, stamp, rfl, -, -, -, rfl, -⟩ := h
  intro heq
  have hmem : ':' ∈ devBypassToken.toList := by
    rw [← heq]
    simp
  revert hmem
  decide

lemma Vouched.unique (h' : Vouched md5 secret token id' login' ts') : id = id' ∧ login = login' ∧ ts = ts' := by
  obtain ⟨payload, sig, stamp, hdot, -, hcolon, hts⟩ := vouched_iff.mp h
  obtain ⟨payload', sig', stamp', hdot', -, hcolon', hts'⟩ := vouched_iff.mp h'
  rw [hdot] at hdot'
  cases hdot'
  rw [hcolon] at hcolon'
  cases hcolon'
  rw [hts] at hts'
  cases hts'
  exact ⟨rfl, rfl, rfl⟩

lemma validate_vouched (now : Timestamp) : validateJwtToken md5 token secret now =
    if wrappingSub now ts > tokenLifetime then .error .tokenExpired else .ok (tokenUser id login) := by
  have hne := h.ne_bypass
  obtain ⟨payload, sig, stamp, hdot, hmac, hcolon, hts⟩ := vouched_iff.mp h
  simp only [validateJwtToken, hne, ↓reduceIte, hdot, hmac, ne_eq, not_true_eq_false, hcolon, hts]

end

lemma validate_ok (hne : token ≠ devBypassToken) (h : validateJwtToken md5 token secret now = .ok user) :
    ∃ id login ts, Vouched md5 secret token id login ts ∧ wrappingSub now ts ≤ tokenLifetime ∧
      user = tokenUser id login := by
  rw [validateJwtToken, if_neg hne] at h
  split at h
  · rename_i payload sig hdot
    split_ifs at h with hmac
    split at h
    · rename_i id login stamp hcolon
      cases hts : parseI64 stamp with
      | none => simp [hts] at h
      | some ts =>
        simp only [hts] at h
        split_ifs at h with hexp
        cases h
        exact ⟨id, login, ts, vouched_iff.mpr ⟨payload, sig, stamp, hdot, not_not.mp hmac, hcolon, hts⟩,
          not_lt.mp hexp, rfl⟩
    · cases h
  · cases h

section

variable (md5 secret)

def Honoured (user : FleetingDns.GitHubUser) (t t' : Timestamp) : Prop :=
  (t.val ≤ t'.val → t'.val ≤ t.val + 86400 →
    ∃ u, validateJwtToken md5 (generateJwtToken md5 user secret t) secret t' = .ok u ∧ u.id = user.id ∧
      u.login = user.login) ∧
  (t.val + 86400 < t'.val →
    validateJwtToken md5 (generateJwtToken md5 user secret t) secret t' = .error .tokenExpired)

def AcceptedFresh (token : String) (now : Timestamp) : Prop :=
  ∀ user, validateJwtToken md5 token secret now = .ok user →
    ∃ ts, Vouched md5 secret token user.id user.login ts ∧ (now.val : ℤ) - 86400 ≤ ts

/-- No vouched time stamp lies so far back that its age leaves the signed 64-bit range. -/
def AgeFits (token : String) (now : Timestamp) : Prop :=
  ∀ id login ts, Vouched md5 secret token id login ts → (now.val : ℤ) - ts < 2 ^ 63

end

lemma hexEncode_free {c : Char} (hc : ∀ n : Fin 16, hexDigit n ≠ c) (bytes : List Byte) :
    c ∉ (hexEncode bytes).toList := by
  rw [hexEncode, String.toList_ofList, mem_flatMap]
  rintro ⟨b, -, hb⟩
  simp only [hexByte, mem_cons, not_mem_nil, or_false] at hb
  rcases hb with hb | hb
  · exact hc _ hb.symm
  · exact hc _ hb.symm

lemma toDigits_free {c : Char} (hc : c.isDigit = false) (n : ℕ) : c ∉ Nat.toDigits 10 n := by
  intro hmem
  rw [Nat.isDigit_of_mem_toDigits (by decide) (by decide) hmem] at hc
  cases hc

lemma generate_vouched {user : FleetingDns.GitHubUser} (hid : ':' ∉ user.id.toList ∧ '.' ∉ user.id.toList)
    (hlogin : ':' ∉ user.login.toList ∧ '.' ∉ user.login.toList) (t : Timestamp) :
    Vouched md5 secret (generateJwtToken md5 user secret t) user.id user.login t := by
  refine ⟨_, _, Nat.repr t, rfl, ?_, hexEncode_free (by decide) _, rfl, rfl, hid.1, hlogin.1, ?_, parseI64_repr t.isLt⟩
  · simp [hid.2, hlogin.2, toDigits_free]
  · simp [toDigits_free]

lemma wrappingSub_eq {a b : ℤ} (hlow : -2 ^ 63 ≤ a - b) (hhigh : a - b < 2 ^ 63) : wrappingSub a b = a - b := by
  rw [wrappingSub]
  omega

lemma honoured_of_clean {user : FleetingDns.GitHubUser} (hid : ':' ∉ user.id.toList ∧ '.' ∉ user.id.toList)
    (hlogin : ':' ∉ user.login.toList ∧ '.' ∉ user.login.toList) (t t' : Timestamp) : Honoured md5 secret user t t' := by
  have hv : Vouched md5 secret (generateJwtToken md5 user secret t) user.id user.login t := generate_vouched hid hlogin t
  have hage : wrappingSub t' t = t' - t := wrappingSub_eq (by omega) (by omega)
  rw [Honoured, validate_vouched hv, tokenLifetime]
  constructor
  · intro _ hday
    exact ⟨tokenUser user.id user.login, if_neg (by omega), rfl, rfl⟩
  · intro hday
    exact if_pos (by omega)

lemma acceptedFresh_iff (hne : token ≠ devBypassToken) :
    AcceptedFresh md5 secret token now ↔ AgeFits md5 secret token now := by
  constructor
  · intro hfresh id login ts hv
    by_contra hold
    have hrange : -2 ^ 63 ≤ ts := by
      obtain ⟨_, _, stamp, -, -, -, -, -, -, -, -, hts⟩ := hv
      exact (parseI64_range hts).1
    -- the age wraps round to a negative number, so the token passes
    have hage : ¬ wrappingSub now ts > tokenLifetime := by
      rw [wrappingSub, tokenLifetime]
      omega
    have hok := validate_vouched hv now
    rw [if_neg hage] at hok
    obtain ⟨ts', hv', hts'⟩ := hfresh _ hok
    obtain ⟨-, -, rfl⟩ := hv.unique hv'
    omega
  intro hfits user hok
  obtain ⟨id, login, ts, hv, hage, rfl⟩ := validate_ok hne hok
  have hrange : ts < 2 ^ 63 := by
    obtain ⟨_, _, stamp, -, -, -, -, -, -, -, -, hts⟩ := hv
    exact (parseI64_range hts).2
  have hdiff := hfits id login ts hv
  rw [wrappingSub_eq (by omega) hdiff, tokenLifetime] at hage
  exact ⟨ts, hv, by omega⟩

theorem token_sound_complete (md5 : String → List Byte) (secret : String) :
    (∀ user t t', (':' ∉ user.id.toList ∧ '.' ∉ user.id.toList) → (':' ∉ user.login.toList ∧ '.' ∉ user.login.toList) →
      Honoured md5 secret user t t') ∧
    ∀ token now, token ≠ devBypassToken → (AcceptedFresh md5 secret token now ↔ AgeFits md5 secret token now) :=
  ⟨fun _ t t' hid hlogin => honoured_of_clean hid hlogin t t', fun _ _ hne => acceptedFresh_iff hne⟩

def zeroDigest (_ : String) : List Byte := List.replicate 16 zeroByte

def aliceToken : String := generateJwtToken zeroDigest ⟨"1", "alice"⟩ "secret" ⟨1700000000, by decide⟩

theorem token_sound_complete_alice :
    Honoured zeroDigest "secret" ⟨"1", "alice"⟩ ⟨1700000000, by decide⟩ ⟨1700000060, by decide⟩ ∧
    validateJwtToken zeroDigest aliceToken "secret" ⟨1700000060, by decide⟩ = .ok (tokenUser "1" "alice") ∧
    AcceptedFresh zeroDigest "secret" aliceToken ⟨1700000060, by decide⟩ := by
  obtain ⟨hcomplete, hsound⟩ := token_sound_complete zeroDigest "secret"
  have hv : Vouched zeroDigest "secret" aliceToken "1" "alice" 1700000000 :=
    @generate_vouched _ _ ⟨"1", "alice"⟩ (by decide) (by decide) ⟨1700000000, by decide⟩
  refine ⟨hcomplete ⟨"1", "alice"⟩ _ _ (by decide) (by decide), by decide +kernel, (hsound aliceToken _ hv.ne_bypass).mpr ?_⟩
  intro id login ts hv'
  obtain ⟨-, -, rfl⟩ := hv.unique hv'
  decide

def ancientPayload : String := "1:alice:-9223372036854775808"

def ancientToken : String := ancientPayload ++ "." ++ mac zeroDigest ancientPayload "secret"

theorem ancient_token_accepted :
    validateJwtToken zeroDigest ancientToken "secret" ⟨1700000000, by decide⟩ = .ok (tokenUser "1" "alice") ∧
    Vouched zeroDigest "secret" ancientToken "1" "alice" (-2 ^ 63) ∧
    ¬ AcceptedFresh zeroDigest "secret" ancientToken ⟨1700000000, by decide⟩ := by
  have hok : validateJwtToken zeroDigest ancientToken "secret" ⟨1700000000, by decide⟩ =
      .ok (tokenUser "1" "alice") := by decide
  have hv : Vouched zeroDigest "secret" ancientToken "1" "alice" (-2 ^ 63) :=
    vouched_iff.mpr ⟨ancientPayload, mac zeroDigest ancientPayload "secret", "-9223372036854775808", by decide, rfl,
      by decide,
      by decide⟩
  refine ⟨hok, hv, ?_⟩
  intro hfresh
  obtain ⟨ts, hv', hts⟩ := hfresh _ hok
  obtain ⟨-, -, rfl⟩ := hv.unique hv'
  revert hts
  decide

end FleetingDns.Auth
