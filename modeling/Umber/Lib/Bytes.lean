/-! Fixed-width integers as byte lists, least or most significant byte first. -/

set_option autoImplicit false

namespace Bytes

/-- The number of values of `width` bytes. -/
def span : Nat → Nat
  | 0 => 1
  | width + 1 => 256 * span width

/-- The `width` low bytes of a natural number, least significant first. -/
def le : Nat → Nat → List UInt8
  | 0, _ => []
  | width + 1, value => UInt8.ofNat (value % 256) :: le width (value / 256)

def ofLe : List UInt8 → Nat
  | [] => 0
  | byte :: rest => byte.toNat + 256 * ofLe rest

def be (width value : Nat) : List UInt8 :=
  (le width value).reverse

def ofBe (bytes : List UInt8) : Nat :=
  ofLe bytes.reverse

/-- The two's-complement value of an integer in `width` bytes. -/
def unsigned (width : Nat) (value : Int) : Nat :=
  (value % span width).toNat

@[simp] theorem length_le (width value : Nat) : (le width value).length = width := by
  induction width generalizing value with
  | zero => rfl
  | succ width ih => simp only [le, List.length_cons, ih]

theorem ofLe_le (width value : Nat) : ofLe (le width value) = value % span width := by
  induction width generalizing value with
  | zero => simp [le, ofLe, span, Nat.mod_one]
  | succ width ih => ?_
  have byte : (UInt8.ofNat (value % 256)).toNat = value % 256 := by
    rw [UInt8.toNat_ofNat']
    exact Nat.mod_eq_of_lt (Nat.mod_lt value (by decide))
  rw [le, ofLe, ih, byte, span, Nat.mod_mul]

theorem ofLe_le_of_lt {width value : Nat} (bounded : value < span width) :
    ofLe (le width value) = value := by
  rw [ofLe_le, Nat.mod_eq_of_lt bounded]

end Bytes
