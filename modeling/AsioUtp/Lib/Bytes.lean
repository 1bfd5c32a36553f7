/-
Numbers as bytes in memory.

A number of `w` bytes lies in memory with its low byte first or last. Reading
back what was stored gives the number again, up to the bytes it has
(`load_store`), and two numbers lie there as the same bytes exactly when they
agree in those (`store_inj`).
-/
import Mathlib.Data.Nat.ModEq
import Mathlib.Tactic.Ring

namespace Bytes

/-- Which byte of a number comes first. -/
inductive Order
  | little
  | big
  deriving Repr, DecidableEq

/-- The `w` low bytes of `n`, low byte first. -/
def littleEndian : Nat → Nat → List UInt8
  | 0, _ => []
  | w + 1, n => UInt8.ofNat n :: littleEndian w (n / 256)

def ofLittleEndian : List UInt8 → Nat
  | [] => 0
  | b :: bs => b.toNat + 256 * ofLittleEndian bs

/-- The `w` low bytes of `n` as they lie in memory. -/
def store (o : Order) (w n : Nat) : List UInt8 :=
  match o with
  | .little => littleEndian w n
  | .big => (littleEndian w n).reverse

/-- The number whose bytes these are. -/
def load (o : Order) (bs : List UInt8) : Nat :=
  match o with
  | .little => ofLittleEndian bs
  | .big => ofLittleEndian bs.reverse

@[simp] theorem length_littleEndian (w n : Nat) : (littleEndian w n).length = w := by
  induction w generalizing n with
  | zero => rfl
  | succ w ih => simp [littleEndian, ih]

@[simp] theorem length_store (o : Order) (w n : Nat) : (store o w n).length = w := by
  cases o <;> simp [store]

theorem ofLittleEndian_littleEndian (w n : Nat) : ofLittleEndian (littleEndian w n) = n % 256 ^ w := by
  induction w generalizing n with
  | zero => simp [littleEndian, ofLittleEndian, Nat.mod_one]
  | succ w ih =>
    have hbyte : (UInt8.ofNat n).toNat = n % 256 := UInt8.toNat_ofNat'
    rw [littleEndian, ofLittleEndian, ih, hbyte, pow_succ', Nat.mod_mul]

@[simp] theorem load_store (o : Order) (w n : Nat) : load o (store o w n) = n % 256 ^ w := by
  cases o <;> simp [load, store, ofLittleEndian_littleEndian]

/-- What is stored depends on the low bytes alone. -/
theorem littleEndian_mod (w n : Nat) : littleEndian w (n % 256 ^ w) = littleEndian w n := by
  induction w generalizing n with
  | zero => rfl
  | succ w ih =>
    have hlow : n % 256 ^ (w + 1) % 256 = n % 256 := Nat.mod_mod_of_dvd n (Dvd.intro_left _ (pow_succ 256 w).symm)
    have hhigh : n % 256 ^ (w + 1) / 256 = n / 256 % 256 ^ w := by
      rw [pow_succ', Nat.mod_mul_right_div_self]
    rw [littleEndian, littleEndian, hhigh, ih]
    congr 1
    exact UInt8.toNat.inj (by rw [UInt8.toNat_ofNat', UInt8.toNat_ofNat', hlow])

theorem store_inj (o : Order) (w n m : Nat) : store o w n = store o w m ↔ n % 256 ^ w = m % 256 ^ w := by
  constructor
  · intro h
    rw [← load_store o, h, load_store]
  · intro h
    have heq : littleEndian w n = littleEndian w m := by rw [← littleEndian_mod w n, h, littleEndian_mod]
    cases o <;> simp only [store, heq]

end Bytes
