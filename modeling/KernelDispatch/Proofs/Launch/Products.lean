import KernelDispatch.Launch.Geometry
import Mathlib.Algebra.BigOperators.Ring.List
import Mathlib.Algebra.Ring.Nat

/-!
# The number of items of a range

The sizes of a range are multiplied one after the other, and after each of them the product is
held at the largest word. A product that is held early is still the exact product held once: it
can only fall below the largest word again where a later size is zero, and then the exact
product is zero as well.

Everything else is read off the exact product. The order of the sizes has no part in it, a size
of one changes nothing, and it does not fall when a size grows.

## Main definitions

* `NdRange.items` — the exact number of items.
* `NdRange.Capped` — what holds of the number of items as a word.

## Main results

* `toNat_foldl_mulSaturating` — any number of sizes, multiplied one after the other.
* `NdRange.capped` — what follows for ranges.
-/

namespace KernelDispatch

/-! ## Products that are held -/

theorem toNat_mulSaturating (a b : UInt64) :
    (mulSaturating a b).toNat = min (a.toNat * b.toNat) (2 ^ 64 - 1) := by
  unfold mulSaturating
  split
  · rename_i hfits
    have hbelow : a.toNat * b.toNat < 2 ^ 64 := hfits
    rw [UInt64.toNat_mul, Nat.mod_eq_of_lt hbelow]
    omega
  · rename_i hlarge
    have habove : 2 ^ 64 ≤ a.toNat * b.toNat := Nat.le_of_not_lt hlarge
    show 2 ^ 64 - 1 = _
    omega

/-- It does not matter whether a number is held before it is multiplied. -/
theorem min_mul_min (n k cap : Nat) : min (min n cap * k) cap = min (n * k) cap := by
  by_cases hle : n ≤ cap
  · rw [Nat.min_eq_left hle]
  · have hcap : cap ≤ n := by omega
    rw [Nat.min_eq_right hcap]
    -- a factor zero brings both products back to zero
    by_cases hk : k = 0
    · rw [hk, Nat.mul_zero, Nat.mul_zero]
    · have hheld : cap ≤ cap * k := Nat.le_mul_of_pos_right cap (by omega)
      have hexact : cap * k ≤ n * k := Nat.mul_le_mul_right k hcap
      omega

/-- Sizes multiplied one after the other give their exact product, held once. -/
theorem toNat_foldl_mulSaturating (sizes : List UInt64) :
    ∀ start : UInt64, (sizes.foldl mulSaturating start).toNat =
      min (start.toNat * (sizes.map UInt64.toNat).prod) (2 ^ 64 - 1) := by
  induction sizes with
  | nil =>
      intro start
      have hword : start.toNat < 2 ^ 64 := start.toNat_lt
      rw [List.foldl_nil, List.map_nil, List.prod_nil, Nat.mul_one]
      omega
  | cons size sizes ih =>
      intro start
      calc (sizes.foldl mulSaturating (mulSaturating start size)).toNat
          = min (min (start.toNat * size.toNat) (2 ^ 64 - 1) * (sizes.map UInt64.toNat).prod)
              (2 ^ 64 - 1) := by rw [ih, toNat_mulSaturating]
        _ = min (start.toNat * size.toNat * (sizes.map UInt64.toNat).prod) (2 ^ 64 - 1) :=
            min_mul_min _ _ _
        _ = min (start.toNat * ((size :: sizes).map UInt64.toNat).prod) (2 ^ 64 - 1) := by
            rw [List.map_cons, List.prod_cons, Nat.mul_assoc]

/-- A product does not fall when its factors grow. -/
theorem prod_le_prod_of_forall₂ {sizes larger : List UInt64}
    (h : List.Forall₂ (· ≤ ·) sizes larger) :
    (sizes.map UInt64.toNat).prod ≤ (larger.map UInt64.toNat).prod := by
  induction h with
  | nil => exact Nat.le_refl _
  | cons hsize _ ih =>
      rw [List.map_cons, List.map_cons, List.prod_cons, List.prod_cons]
      exact Nat.mul_le_mul (UInt64.le_iff_toNat_le.1 hsize) ih

/-! ## Ranges -/

namespace NdRange

/-- The exact number of items, however large. -/
def items (r : NdRange) : Nat := (r.sizes.map UInt64.toNat).prod

theorem toNat_product (r : NdRange) : r.product.toNat = min r.items (2 ^ 64 - 1) := by
  have hfold := toNat_foldl_mulSaturating r.sizes 1
  rwa [UInt64.toNat_one, Nat.one_mul] at hfold

/-- Ranges with the same exact number of items have the same number as a word. -/
theorem product_congr {r s : NdRange} (h : s.items = r.items) : s.product = r.product := by
  apply UInt64.toNat_inj.1
  rw [toNat_product, toNat_product, h]

/-- What holds of the number of items of a range as a word. -/
structure Capped (r : NdRange) : Prop where
  /-- It is the exact number, held at the largest word. -/
  product : r.product.toNat = min r.items (2 ^ 64 - 1)
  /-- So is the work of a launch over the range, whatever its groups and its offset. -/
  workItems : ∀ g : Geometry, g.global = r → g.workItems.toNat = min r.items (2 ^ 64 - 1)
  /-- A range that is empty in one dimension is empty, however large it is in the others. -/
  empty : 0 ∈ r.sizes → r.product = 0
  /-- The order of the dimensions does not matter. -/
  perm : ∀ s : NdRange, s.sizes.Perm r.sizes → s.product = r.product
  /-- Further dimensions of size one add nothing. -/
  flat : ∀ (s : NdRange) (k : Nat), s.sizes = r.sizes ++ List.replicate k 1 →
    s.product = r.product
  /-- No size can grow so that the number falls. -/
  mono : ∀ s : NdRange, List.Forall₂ (· ≤ ·) r.sizes s.sizes → r.product ≤ s.product

/-- The number of items of every range is the exact one as far as a word can hold it. -/
theorem capped (r : NdRange) : Capped r where
  product := r.toNat_product
  workItems := by
    intro g hglobal
    rw [Geometry.workItems, hglobal, toNat_product]
  empty := by
    intro hzero
    have hmem : 0 ∈ r.sizes.map UInt64.toNat := List.mem_map.2 ⟨0, hzero, UInt64.toNat_zero⟩
    have hitems : r.items = 0 := List.prod_eq_zero hmem
    apply UInt64.toNat_inj.1
    rw [toNat_product, hitems]
    rfl
  perm := by
    intro s hperm
    exact product_congr (hperm.map UInt64.toNat).prod_eq
  flat := by
    intro s k hsizes
    apply product_congr
    rw [items, hsizes, List.map_append, List.map_replicate, List.prod_append,
      UInt64.toNat_one, List.prod_replicate, one_pow, Nat.mul_one]
    rfl
  mono := by
    intro s hsizes
    have hitems : r.items ≤ s.items := prod_le_prod_of_forall₂ hsizes
    apply UInt64.le_iff_toNat_le.2
    rw [toNat_product, toNat_product]
    omega

/-- The product has left the range of words, and the last size brings it back to zero. -/
example : (volume 0x8000000000000000 4 0).product = 0 ∧
    (volume 0x8000000000000000 4 1).product = maxWord := by decide

end NdRange

end KernelDispatch
