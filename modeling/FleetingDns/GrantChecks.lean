import FleetingDns.ByteTransparency
import FleetingDns.TunnelHandlers
namespace FleetingDns.EdgeRouter

open CommandPrograms ExpiringStore TunnelLookup List Option TunnelStorage

variable {subdomain : String}

section

def Allocable (subdomain : String) : Prop :=
  validateSubdomain subdomain = .ok () ∨
    ∃ f : (c : Cmd) → Option c.Reply, generateRandomSubdomain.run.answer f = some (.ok subdomain)

variable {key : Key}

lemma noColon_of_validateSubdomain (h : validateSubdomain subdomain = .ok ()) : Key.NoColon subdomain := by
  simp only [validateSubdomain] at h
  split_ifs at h with h1 h2 h3
  rw [List.all_eq_true] at h2
  intro hcolon
  cases h2 _ hcolon

lemma colon_ne_base36 (idx : Fin 36) : ':' ≠ base36 idx := by
  revert idx
  decide

lemma Allocable.noColon (h : Allocable subdomain) : Key.NoColon subdomain := by
  obtain h | ⟨f, h⟩ := h
  · exact noColon_of_validateSubdomain h
  · obtain ⟨chars, -, hret⟩ := bind_eq_some_iff.mp h
    cases hret
    simp [Key.NoColon, colon_ne_base36]

lemma checkSessionGrant_reads {token : String}
    (h : (checkSessionGrant subdomain token).run.MayIssue (.redis (.exist key))) :
    key = .sessionGrant subdomain token := by
  have honly : Only (· = .redis (.exist (.sessionGrant subdomain token))) (checkSessionGrant subdomain token).run := by
    refine .call rfl ?_
    rintro (e | b) <;> exact .ret
  cases only_mayIssue honly h
  rfl

lemma storeSessionGrant_writes {token userId : String} {ttl ttl' : ℕ} {v : Value}
    (h : (storeSessionGrant subdomain token userId ttl).run.MayIssue (.redis (.setEx key v ttl'))) :
    key = .sessionGrant subdomain token := by
  have honly : Only (fun c => c = .utcNow ∨ ∃ grant, c = .redis (.setEx (.sessionGrant subdomain token) grant ttl))
      (storeSessionGrant subdomain token userId ttl).run := by
    refine .call (.inl rfl) fun now => .call (.inr ⟨_, rfl⟩) ?_
    rintro (e | _) <;> exact .ret
  obtain hc | ⟨grant, hc⟩ := only_mayIssue honly h
  · cases hc
  · cases hc
    rfl

theorem grant_keys_apart {a b token k userId : String} {ttl ttl' : ℕ} {read written : Key} {v : Value}
    (ha : Allocable a) (hb : Allocable b)
    (hread : (checkSessionGrant a token).run.MayIssue (.redis (.exist read)))
    (hwritten : (storeSessionGrant b k userId ttl).run.MayIssue (.redis (.setEx written v ttl'))) :
    read.render = written.render ↔ a = b ∧ token = k := by
  rw [checkSessionGrant_reads hread, storeSessionGrant_writes hwritten]
  constructor
  · intro h
    have hkey := Key.render_injective (j := .sessionGrant a token) (k := .sessionGrant b k) ha.noColon hb.noColon h
    cases hkey
    exact ⟨rfl, rfl⟩
  · rintro ⟨rfl, rfl⟩
    rfl

theorem grant_keys_apart_colon : ∃ read written v,
    Allocable "demo" ∧ (checkSessionGrant "demo" "x:k").run.MayIssue (.redis (.exist read)) ∧
    (storeSessionGrant "demo" "k" "1" 900).run.MayIssue (.redis (.setEx written v 900)) ∧
    read.render ≠ written.render := by
  have hdemo : Allocable "demo" := .inl (by decide)
  have hread : (checkSessionGrant "demo" "x:k").run.MayIssue (.redis (.exist (.sessionGrant "demo" "x:k"))) := .now
  have hwritten : (storeSessionGrant "demo" "k" "1" 900).run.MayIssue
      (.redis (.setEx (.sessionGrant "demo" "k") (.grant ⟨"1", 0⟩) 900)) := .later 0 .now
  refine ⟨_, _, _, hdemo, hread, hwritten, ?_⟩
  rw [ne_eq, grant_keys_apart hdemo hdemo hread hwritten]
  decide

end

end FleetingDns.EdgeRouter
