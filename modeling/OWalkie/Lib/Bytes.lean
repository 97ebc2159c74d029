import Mathlib.Tactic

/-!
# Words and their bytes

The four bytes of a 32-bit word in big-endian order, and the word that four bytes make.  A word put
together with shifts and `|||` is the sum of its parts (`or_eq_add`), which turns every statement
about its bytes into arithmetic.
-/

namespace OWalkie

theorem or_eq_add {a b k : ℕ} (ha : 2 ^ k ∣ a) (hb : b < 2 ^ k) : a ||| b = a + b := by
  obtain ⟨c, rfl⟩ := ha
  exact (Nat.two_pow_add_eq_or_of_lt hb c).symm

namespace BigEndian

/-- The word that four bytes make, the most significant byte first. -/
def uint32 (b₀ b₁ b₂ b₃ : UInt8) : UInt32 :=
  b₀.toUInt32 <<< 24 ||| b₁.toUInt32 <<< 16 ||| b₂.toUInt32 <<< 8 ||| b₃.toUInt32

/-- The bytes of a word, the most significant one first. -/
def putUint32 (v : UInt32) : List UInt8 :=
  [(v >>> 24).toUInt8, (v >>> 16).toUInt8, (v >>> 8).toUInt8, v.toUInt8]

@[simp] theorem length_putUint32 (v : UInt32) : (putUint32 v).length = 4 := rfl

theorem toNat_shiftLeft (b : UInt8) {k : UInt32} (hk : k.toNat ≤ 24) :
    (b.toUInt32 <<< k).toNat = b.toNat * 2 ^ k.toNat := by
  have hb := b.toNat_lt
  have hlt : b.toNat * 2 ^ k.toNat < 2 ^ 32 := by
    calc b.toNat * 2 ^ k.toNat ≤ b.toNat * 2 ^ 24 :=
          Nat.mul_le_mul_left _ (Nat.pow_le_pow_right (by norm_num) hk)
      _ < 2 ^ 32 := by omega
  rw [UInt32.toNat_shiftLeft, UInt8.toNat_toUInt32, Nat.mod_eq_of_lt (a := k.toNat) (by omega),
    Nat.shiftLeft_eq, Nat.mod_eq_of_lt hlt]

theorem toNat_uint32 (b₀ b₁ b₂ b₃ : UInt8) : (uint32 b₀ b₁ b₂ b₃).toNat =
    b₀.toNat * 2 ^ 24 + b₁.toNat * 2 ^ 16 + b₂.toNat * 2 ^ 8 + b₃.toNat := by
  have h₁ := b₁.toNat_lt
  have h₂ := b₂.toNat_lt
  have h₃ := b₃.toNat_lt
  unfold uint32
  rw [UInt32.toNat_or, UInt32.toNat_or, UInt32.toNat_or, toNat_shiftLeft b₀ (by decide),
    toNat_shiftLeft b₁ (by decide), toNat_shiftLeft b₂ (by decide), UInt8.toNat_toUInt32]
  simp only [UInt32.reduceToNat]
  rw [or_eq_add (k := 24) (a := b₀.toNat * 2 ^ 24) (by omega) (by omega),
    or_eq_add (k := 16) (b := b₂.toNat * 2 ^ 8) (by omega) (by omega),
    or_eq_add (k := 8) (by omega) (by omega)]

/-- The bytes of a word make the word. -/
theorem uint32_putUint32 (v : UInt32) :
    uint32 (v >>> 24).toUInt8 (v >>> 16).toUInt8 (v >>> 8).toUInt8 v.toUInt8 = v := by
  have hv := v.toNat_lt
  apply UInt32.toNat_inj.1
  rw [toNat_uint32]
  simp only [UInt32.toNat_toUInt8, UInt32.toNat_shiftRight, UInt32.reduceToNat,
    Nat.shiftRight_eq_div_pow, Nat.reduceMod, Nat.reducePow]
  omega

end BigEndian

end OWalkie
