import Mathlib.Order.Defs.Unbundled

/-!
# Regions split in two again and again

`Splits Inside Apart area parts` says that the parts result from splitting a region, and what it is
split into, always into two regions inside the split one and apart from each other.  Then all parts
lie inside the region (`Splits.inside`), and any two of them are apart (`Splits.pairwise_apart`).
-/

namespace Splitting

universe u

variable {R : Type u}

inductive Splits (Inside Apart : R → R → Prop) : R → List R → Prop
  | whole (area : R) : Splits Inside Apart area [area]
  | split {area first second : R} {firstParts secondParts : List R}
    (hfirst : Inside first area) (hsecond : Inside second area) (hapart : Apart first second)
    (hfirstParts : Splits Inside Apart first firstParts)
    (hsecondParts : Splits Inside Apart second secondParts) :
    Splits Inside Apart area (firstParts ++ secondParts)

variable {Inside Apart : R → R → Prop} {area : R} {parts : List R}

theorem Splits.inside [IsPreorder R Inside] (h : Splits Inside Apart area parts) :
    ∀ part ∈ parts, Inside part area := by
  induction h with
  | whole area =>
    intro part hpart
    rw [List.mem_singleton.mp hpart]
    exact refl_of Inside area
  | split hfirst hsecond _ _ _ ih₁ ih₂ =>
    intro part hpart
    rcases List.mem_append.mp hpart with hpart | hpart
    · exact trans_of Inside (ih₁ part hpart) hfirst
    · exact trans_of Inside (ih₂ part hpart) hsecond

/-- Regions inside regions that are apart are apart as well. -/
def InheritsApart (Inside Apart : R → R → Prop) : Prop :=
  ∀ {a b a' b' : R}, Apart a b → Inside a' a → Inside b' b → Apart a' b'

theorem Splits.pairwise_apart [IsPreorder R Inside] (hinherits : InheritsApart Inside Apart)
    (h : Splits Inside Apart area parts) : parts.Pairwise Apart := by
  induction h with
  | whole area => exact List.pairwise_singleton Apart area
  | split _ _ hapart hfirstParts hsecondParts ih₁ ih₂ =>
    refine List.pairwise_append.mpr ⟨ih₁, ih₂, fun a ha b hb => ?_⟩
    exact hinherits hapart (hfirstParts.inside a ha) (hsecondParts.inside b hb)

end Splitting
