import Mathlib.Logic.Basic

namespace FleetingDns.ExclusiveUse

variable {R I : Type}

def Exclusive (uses : R → I → Prop) : Prop := ∀ r i j, uses r i → uses r j → i = j

lemma exclusive_step {uses uses' taken : R → I → Prop} (h : Exclusive uses) (ht : Exclusive taken)
    (hstep : ∀ r i, uses' r i → uses r i ∨ taken r i) (hfree : ∀ r i j, taken r i → ¬ uses r j) : Exclusive uses' := by
  intro r i j hi hj
  obtain hi | hi := hstep r i hi <;> obtain hj | hj := hstep r j hj
  · exact h r i j hi hj
  · exact absurd hi (hfree r j i hj)
  · exact absurd hj (hfree r i j hi)
  · exact ht r i j hi hj

end FleetingDns.ExclusiveUse
