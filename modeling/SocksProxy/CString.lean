import Mathlib.Data.List.TakeWhile

/-! C strings: octet sequences that end before their first NUL, and the library
calls that the sources make on them. -/

namespace SocksProxy

/-- The octets of a C string, up to and without its terminator. -/
structure CString where
  octets : List UInt8
  noNul : (0 : UInt8) ∉ octets
  deriving DecidableEq

namespace CString

theorem ext_octets {left right : CString} (same : left.octets = right.octets) :
    left = right := by
  cases left
  cases right
  cases same
  rfl

def empty : CString := ⟨[], by simp⟩

instance : Inhabited CString := ⟨empty⟩

/-- The C string at the start of an octet array: all octets before the first
NUL, or the whole array when it has none. -/
def ofArray (octets : List UInt8) : CString where
  octets := octets.takeWhile (· != 0)
  noNul := by
    intro member
    have kept := List.mem_takeWhile_imp member
    simp at kept

def strlen (string : CString) : Nat := string.octets.length

/-- The string that `strncpy(dst, src, n)` followed by `dst[n] = 0` leaves, and
the string that `snprintf(dst, n + 1, "%s", src)` leaves. -/
def truncate (count : Nat) (string : CString) : CString where
  octets := string.octets.take count
  noNul := fun member => string.noNul (List.mem_of_mem_take member)

def append (left right : CString) : CString where
  octets := left.octets ++ right.octets
  noNul := by
    simp [left.noNul, right.noNul]

def ofNat (number : Nat) : CString :=
  ofArray ((Nat.toDigits 10 number).map fun digit => digit.toNat.toUInt8)

def ofString (text : String) : CString :=
  ofArray (text.toList.map fun character => character.toNat.toUInt8)

@[simp] theorem octets_ofArray (octets : List UInt8) :
    (ofArray octets).octets = octets.takeWhile (· != 0) := rfl

theorem ofArray_append_nul (octets rest : List UInt8) :
    ofArray (octets ++ 0 :: rest) = ofArray octets := by
  apply ext_octets
  simp only [octets_ofArray]
  induction octets with
  | nil => rfl
  | cons octet octets induction =>
      simp only [List.cons_append, List.takeWhile_cons]
      rw [induction]

theorem octets_ofArray_of_noNul {octets : List UInt8}
    (noNul : (0 : UInt8) ∉ octets) : (ofArray octets).octets = octets := by
  rw [octets_ofArray, List.takeWhile_eq_self_iff]
  intro octet member
  simp only [bne_iff_ne, ne_eq]
  rintro rfl
  exact noNul member

theorem noNul_of_octets_ofArray {octets : List UInt8}
    (whole : (ofArray octets).octets = octets) : (0 : UInt8) ∉ octets :=
  whole ▸ (ofArray octets).noNul

end CString

end SocksProxy
