import Mathlib.Logic.Relation

/-!
# Versioned cells
-/

namespace Cyrux

variable {α β : Type} {Next : α → α → Prop}

def Evolves (Next : α → α → Prop) (v : α) (x : β) (v' : α) (x' : β) : Prop :=
  (v = v' ∧ x = x') ∨ Relation.TransGen Next v v'

namespace Evolves

variable {v v' v'' : α} {x x' x'' : β}

theorem refl (v : α) (x : β) : Evolves Next v x v x := .inl ⟨rfl, rfl⟩

theorem write (h : Next v v') : Evolves Next v x v' x' := .inr (.single h)

theorem trans (h : Evolves Next v x v' x') (h' : Evolves Next v' x' v'' x'') :
    Evolves Next v x v'' x'' := by
  obtain ⟨rfl, rfl⟩ | h := h
  · exact h'
  · obtain ⟨rfl, rfl⟩ | h' := h'
    · exact .inr h
    · exact .inr (h.trans h')

theorem value_eq (acyclic : ∀ v, ¬ Relation.TransGen Next v v) (h : Evolves Next v x v' x')
    (same : v = v') : x = x' := by
  obtain ⟨-, hx⟩ | h := h
  · exact hx
  · exact absurd (same ▸ h) (acyclic v')

end Evolves

end Cyrux
