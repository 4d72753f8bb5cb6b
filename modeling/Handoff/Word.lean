/-!
# Checked arithmetic on machine words

Sums, products and differences of 64-bit words that refuse to wrap. `Word.add?_eq_some_iff`,
`Word.mul?_eq_some_iff` and `Word.sub?_eq_some_iff` say that an answer is the exact mathematical
value, and that one is given whenever it fits.
-/

namespace Handoff.Word

/-- The sum of two words, `none` if it does not fit a word. -/
def add? (a b : UInt64) : Option UInt64 :=
  if a.toNat + b.toNat < UInt64.size then some (a + b) else none

/-- The product of two words, `none` if it does not fit a word. -/
def mul? (a b : UInt64) : Option UInt64 :=
  if a.toNat * b.toNat < UInt64.size then some (a * b) else none

/-- The difference of two words, `none` if it is below zero. -/
def sub? (a b : UInt64) : Option UInt64 :=
  if b ≤ a then some (a - b) else none

/-- A counter that has not come to its end counts on. -/
theorem toNat_succ {a : UInt64} (h : a.toNat + 1 < UInt64.size) :
    (a + 1).toNat = a.toNat + 1 := by
  rw [UInt64.toNat_add]
  exact Nat.mod_eq_of_lt h

/-- A counter that is not at zero counts down. -/
theorem toNat_pred {a : UInt64} (h : a ≠ 0) : (a - 1).toNat + 1 = a.toNat := by
  have hpos : a.toNat ≠ 0 := fun hzero => h (UInt64.toNat_inj.1 hzero)
  have hle : (1 : UInt64) ≤ a := UInt64.le_iff_toNat_le.2 (Nat.one_le_iff_ne_zero.2 hpos)
  rw [UInt64.toNat_sub_of_le _ _ hle]
  exact Nat.sub_add_cancel (Nat.one_le_iff_ne_zero.2 hpos)

/-- From a word any smaller number can be taken. -/
theorem exists_toNat_add {a : UInt64} {n : Nat} (h : n ≤ a.toNat) :
    ∃ rest : UInt64, a.toNat = rest.toNat + n := by
  have hrest : (UInt64.ofNat (a.toNat - n)).toNat = a.toNat - n :=
    UInt64.toNat_ofNat_of_lt' (Nat.lt_of_le_of_lt (Nat.sub_le _ _) a.toNat_lt_size)
  exact ⟨_, hrest ▸ (Nat.sub_add_cancel h).symm⟩

theorem add?_eq_some_iff {a b c : UInt64} :
    add? a b = some c ↔ c.toNat = a.toNat + b.toNat := by
  have hc := c.toNat_lt
  unfold add?
  split
  · next h =>
    rw [Option.some.injEq, ← UInt64.toNat_inj, UInt64.toNat_add, Nat.mod_eq_of_lt h, eq_comm]
  · next h => simp only [UInt64.size] at h; constructor <;> intro h' <;> simp_all

theorem add?_eq_none_iff {a b : UInt64} :
    add? a b = none ↔ UInt64.size ≤ a.toNat + b.toNat := by
  unfold add?
  split <;> simp_all [UInt64.size]

theorem mul?_eq_some_iff {a b c : UInt64} :
    mul? a b = some c ↔ c.toNat = a.toNat * b.toNat := by
  have hc := c.toNat_lt
  unfold mul?
  split
  · next h =>
    rw [Option.some.injEq, ← UInt64.toNat_inj, UInt64.toNat_mul, Nat.mod_eq_of_lt h, eq_comm]
  · next h => simp only [UInt64.size] at h; constructor <;> intro h' <;> simp_all

theorem mul?_eq_none_iff {a b : UInt64} :
    mul? a b = none ↔ UInt64.size ≤ a.toNat * b.toNat := by
  unfold mul?
  split <;> simp_all [UInt64.size]

theorem sub?_eq_some_iff {a b c : UInt64} :
    sub? a b = some c ↔ a.toNat = c.toNat + b.toNat := by
  unfold sub?
  split
  · next h =>
    have hle : b.toNat ≤ a.toNat := UInt64.le_iff_toNat_le.1 h
    rw [Option.some.injEq, ← UInt64.toNat_inj, UInt64.toNat_sub_of_le _ _ h]
    omega
  · next h =>
    have hlt : a.toNat < b.toNat := Nat.lt_of_not_le fun hle => h (UInt64.le_iff_toNat_le.2 hle)
    simp only [reduceCtorEq, false_iff]
    omega

theorem sub?_one {a : UInt64} (h : a ≠ 0) : sub? a 1 = some (a - 1) :=
  sub?_eq_some_iff.2 (toNat_pred h).symm

end Handoff.Word
