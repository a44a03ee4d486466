import FleetingDns.ApiTokens
import Mathlib.Tactic.Tauto
namespace FleetingDns.Auth

open TextFields List

def requiredScopes : List String := ["user:email", "read:user"]

def hasColon (scope : String) : Bool := scope.toList.contains ':'

def family (scope : String) : Option String := (fields ':' scope).head?

def grants (requiredScope scope : String) : Bool :=
  scope == requiredScope ||
    (hasColon requiredScope && some scope == family requiredScope) ||
    (hasColon scope && hasColon requiredScope && family scope == family requiredScope)

def hasRequiredScopes (grantedScopes : List String) : Bool :=
  requiredScopes.all fun requiredScope => grantedScopes.any (grants requiredScope)

variable {requiredScope scope : String} {grantedScopes : List String}

lemma family_plain (h : hasColon scope = false) : family scope = some scope := by
  have hfields : fields ':' scope = [scope] := by
    rw [fields_eq_iff]
    simpa [joined, hasColon] using h
  rw [family, hfields, List.head?_cons]

lemma family_noColon (h : family requiredScope = some scope) : hasColon scope = false := by
  obtain ⟨-, hfree, -⟩ := fields_eq_iff.mp (rfl : fields ':' requiredScope = _)
  simpa [hasColon] using hfree scope (mem_of_mem_head? h)

lemma grants_iff (h : hasColon requiredScope = true) :
    grants requiredScope scope = true ↔ family scope = family requiredScope := by
  cases hs : hasColon scope with
  | false =>
    rw [family_plain hs]
    simp only [grants, h, hs, Bool.true_and, Bool.false_and, Bool.or_false, Bool.or_eq_true, beq_iff_eq]
    refine ⟨fun hg => hg.elim ?_ id, .inr⟩
    rintro rfl
    simp [hs] at h
  | true =>
    simp only [grants, h, hs, Bool.true_and, Bool.or_eq_true, beq_iff_eq]
    refine ⟨?_, .inr⟩
    rintro ((rfl | hprefix) | hfamily)
    · rfl
    · rw [family_noColon hprefix.symm] at hs
      cases hs
    · exact hfamily

def Belongs (grantedScopes : List String) (name : String) : Prop := ∃ scope ∈ grantedScopes, family scope = some name

instance (name : String) : Decidable (Belongs grantedScopes name) := inferInstanceAs (Decidable (∃ scope ∈ _, _))

lemma hasRequiredScopes_iff :
    hasRequiredScopes grantedScopes = true ↔ Belongs grantedScopes "user" ∧ Belongs grantedScopes "read" := by
  have hemail : family "user:email" = some "user" := by decide +kernel
  have hread : family "read:user" = some "read" := by decide +kernel
  simp only [hasRequiredScopes, requiredScopes, all_cons, all_nil, Bool.and_true, Bool.and_eq_true,
    any_eq_true, grants_iff (by decide : hasColon "user:email" = true),
    grants_iff (by decide : hasColon "read:user" = true), hemail, hread, Belongs]

def Implied (broader scope : String) : Prop := broader = "user" ∧ (scope = "user:email" ∨ scope = "read:user")

def Granted (grantedScopes : List String) (scope : String) : Prop :=
  scope ∈ grantedScopes ∨ ∃ broader ∈ grantedScopes, Implied broader scope

lemma granted_iff : (∀ scope ∈ requiredScopes, Granted grantedScopes scope) ↔
    "user" ∈ grantedScopes ∨ "user:email" ∈ grantedScopes ∧ "read:user" ∈ grantedScopes := by
  simp only [requiredScopes, forall_mem_cons, and_true, Granted, Implied, true_or, or_true, exists_eq_right]
  tauto

/-- With the scope `user` some scope of the family `read` is listed too; without it the two families are only met by
the required scopes themselves. -/
def Aligned (grantedScopes : List String) : Prop :=
  if "user" ∈ grantedScopes then Belongs grantedScopes "read"
  else Belongs grantedScopes "user" ∧ Belongs grantedScopes "read" →
    "user:email" ∈ grantedScopes ∧ "read:user" ∈ grantedScopes

theorem scope_check (grantedScopes : List String) :
    ((hasRequiredScopes grantedScopes = true ↔ ∀ scope ∈ requiredScopes, Granted grantedScopes scope) ↔
      Aligned grantedScopes) ∧
    ∀ more, grantedScopes ⊆ more → hasRequiredScopes grantedScopes = true → hasRequiredScopes more = true := by
  rw [hasRequiredScopes_iff, granted_iff, Aligned]
  constructor
  · split_ifs with huser
    · have hfamily : Belongs grantedScopes "user" := ⟨"user", huser, by decide +kernel⟩
      tauto
    · have hboth : "user:email" ∈ grantedScopes ∧ "read:user" ∈ grantedScopes →
          Belongs grantedScopes "user" ∧ Belongs grantedScopes "read" := fun h =>
        ⟨⟨_, h.1, by decide +kernel⟩, ⟨_, h.2, by decide +kernel⟩⟩
      tauto
  · rintro more hsub ⟨⟨u, hu, hfu⟩, ⟨r, hr, hfr⟩⟩
    exact hasRequiredScopes_iff.mpr ⟨⟨u, hsub hu, hfu⟩, ⟨r, hsub hr, hfr⟩⟩

theorem scope_check_user : hasRequiredScopes ["user", "read:user"] = true ∧
    hasRequiredScopes ["repo", "user", "read:user"] = true :=
  have haccepted : hasRequiredScopes ["user", "read:user"] = true := by decide +kernel
  ⟨haccepted, (scope_check ["user", "read:user"]).2 _ (by simp) haccepted⟩

theorem scope_check_off :
    (hasRequiredScopes ["user"] = false ∧ ∀ scope ∈ requiredScopes, Granted ["user"] scope) ∧
    hasRequiredScopes ["user:follow", "read:org"] = true ∧
    ∀ scope ∈ requiredScopes, ¬ Granted ["user:follow", "read:org"] scope := by
  refine ⟨⟨by decide +kernel, granted_iff.mpr (.inl (by simp))⟩, by decide +kernel, ?_⟩
  simp [requiredScopes, Granted, Implied]

end FleetingDns.Auth
