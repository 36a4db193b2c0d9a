import Mathlib.Data.List.Basic

/-! # Byte strings

Program strings that need not hold well-formed text. -/

namespace ClearSpace

abbrev ByteString := List UInt8

namespace ByteString

/-- The bytes of a source literal; the literals used all are ASCII. -/
def ascii (text : String) : ByteString :=
  text.toList.map fun character => UInt8.ofNat (character.toNat % 128)

theorem ascii_lt (text : String) : ∀ byte ∈ ascii text, byte < 128 := by
  intro byte member
  rcases List.mem_map.mp member with ⟨character, _, rfl⟩
  rw [UInt8.lt_iff_toNat_lt, UInt8.toNat_ofNat]
  have bound := Nat.mod_lt character.toNat (by decide : 0 < 128)
  change character.toNat % 128 % 2 ^ 8 < 128
  omega

example : ascii "ok" = [111, 107] := by decide

end ByteString

end ClearSpace
