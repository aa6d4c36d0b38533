import Atlas.Chars.Utf8
import Atlas.Json.Reader

/-!
# Percent-encoding

The bytes that a text with percent escapes stands for. A percent sign that no two hexadecimal digits
follow stands for itself.
-/

namespace Atlas.Chars

/-- The bytes of a text in which a percent sign and two hexadecimal digits stand for a byte. -/
def percentBytes : List Char → List UInt8
  | '%' :: a :: b :: r =>
    match Json.hexValue? a, Json.hexValue? b with
    | some x, some y => UInt8.ofNat (x * 16 + y) :: percentBytes r
    | _, _ => Utf8.encodeChar '%' ++ percentBytes (a :: b :: r)
  | c :: r => Utf8.encodeChar c ++ percentBytes r
  | [] => []

/-- The text that a text with percent escapes stands for, if its bytes are UTF-8. -/
def percentDecode? (s : List Char) : Option String := Utf8.decode? (percentBytes s)

/-- Without percent signs a text stands for itself. -/
theorem percentBytes_eq_encode {s : List Char} (h : '%' ∉ s) : percentBytes s = Utf8.encode s := by
  induction s with
  | nil => rfl
  | cons c r ih =>
    have hc : c ≠ '%' := fun hc => h (by simp [hc])
    have hr : '%' ∉ r := fun hr => h (List.mem_cons_of_mem _ hr)
    rw [percentBytes, ih hr, Utf8.encode, Utf8.encode, List.flatMap_cons]
    rintro a b r' rfl
    exact absurd rfl hc

end Atlas.Chars
