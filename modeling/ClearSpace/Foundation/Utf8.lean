import ClearSpace.Foundation.ByteString

/-! # Well-formed UTF-8

A byte string is scanned from left to right; the state of the scan lists the
continuation bytes that the current character still needs. ASCII bytes only
stand between characters, so ASCII text around a string does not change whether
it is well-formed. -/

namespace ClearSpace.Utf8

/-- The ranges of continuation bytes. The first one after some leading bytes is
restricted, which excludes overlong forms, surrogates and values past the last
code point. -/
inductive Tail
  | any
  | afterE0
  | afterED
  | afterF0
  | afterF4
  deriving DecidableEq, Repr

def Tail.low : Tail → UInt8
  | .any => 0x80
  | .afterE0 => 0xA0
  | .afterED => 0x80
  | .afterF0 => 0x90
  | .afterF4 => 0x80

def Tail.high : Tail → UInt8
  | .any => 0xBF
  | .afterE0 => 0xBF
  | .afterED => 0x9F
  | .afterF0 => 0xBF
  | .afterF4 => 0x8F

def lead (byte : UInt8) : Option (List Tail) :=
  if byte < 0x80 then some []
  else if byte < 0xC2 then none
  else if byte < 0xE0 then some [.any]
  else if byte = 0xE0 then some [.afterE0, .any]
  else if byte = 0xED then some [.afterED, .any]
  else if byte < 0xF0 then some [.any, .any]
  else if byte = 0xF0 then some [.afterF0, .any, .any]
  else if byte < 0xF4 then some [.any, .any, .any]
  else if byte = 0xF4 then some [.afterF4, .any, .any]
  else none

def next : List Tail → UInt8 → Option (List Tail)
  | [], byte => lead byte
  | tail :: rest, byte =>
      if tail.low ≤ byte ∧ byte ≤ tail.high then some rest else none

def scan (needed : List Tail) : ByteString → Option (List Tail)
  | [] => some needed
  | byte :: rest => (next needed byte).bind (scan · rest)

def WellFormed (text : ByteString) : Prop := scan [] text = some []

instance (text : ByteString) : Decidable (WellFormed text) :=
  inferInstanceAs (Decidable (scan [] text = some []))

def Ascii (text : ByteString) : Prop := ∀ byte ∈ text, byte < 0x80

instance (text : ByteString) : Decidable (Ascii text) :=
  inferInstanceAs (Decidable (∀ byte ∈ text, byte < 0x80))

theorem scan_append (needed : List Tail) (front back : ByteString) :
    scan needed (front ++ back) = (scan needed front).bind (scan · back) := by
  induction front generalizing needed with
  | nil => rfl
  | cons byte rest induction =>
      simp only [List.cons_append, scan, Option.bind_assoc]
      congr 1
      funext after
      exact induction after

theorem next_ascii {byte : UInt8} (isAscii : byte < 0x80) (needed : List Tail) :
    next needed byte = if needed = [] then some [] else none := by
  cases needed with
  | nil => simp [next, lead, isAscii]
  | cons tail rest =>
      have below : byte < tail.low := by
        refine UInt8.lt_of_lt_of_le isAscii ?_
        cases tail <;> decide
      have rejected : ¬ (tail.low ≤ byte ∧ byte ≤ tail.high) :=
        fun both => absurd both.1 (UInt8.not_le.mpr below)
      simp [next, rejected]

theorem scan_ascii_from_start {text : ByteString} (isAscii : Ascii text) :
    scan [] text = some [] := by
  induction text with
  | nil => rfl
  | cons byte rest induction =>
      have ⟨first, others⟩ := List.forall_mem_cons.mp isAscii
      rw [scan, next_ascii first, if_pos rfl]
      exact induction others

theorem scan_ascii {text : ByteString} (isAscii : Ascii text) (nonempty : text ≠ [])
    (needed : List Tail) : scan needed text = if needed = [] then some [] else none := by
  cases text with
  | nil => exact absurd rfl nonempty
  | cons byte rest =>
      have ⟨first, others⟩ := List.forall_mem_cons.mp isAscii
      rw [scan, next_ascii first]
      split
      · exact scan_ascii_from_start others
      · rfl

theorem wellFormed_of_ascii {text : ByteString} (isAscii : Ascii text) :
    WellFormed text :=
  scan_ascii_from_start isAscii

theorem WellFormed.append {front back : ByteString} (frontWell : WellFormed front)
    (backWell : WellFormed back) : WellFormed (front ++ back) := by
  unfold WellFormed at *
  rw [scan_append, frontWell]
  exact backWell

/-- ASCII text on both sides neither mends nor breaks a string. -/
theorem wellFormed_enclosed {before text after : ByteString}
    (beforeAscii : Ascii before) (afterAscii : Ascii after) :
    WellFormed (before ++ text ++ after) ↔ WellFormed text := by
  unfold WellFormed
  rw [List.append_assoc, scan_append, scan_ascii_from_start beforeAscii]
  change scan [] (text ++ after) = some [] ↔ _
  rw [scan_append]
  cases scan [] text with
  | none => rfl
  | some needed =>
      change scan needed after = some [] ↔ some needed = some []
      cases after with
      | nil => rfl
      | cons byte rest =>
          rw [scan_ascii afterAscii (by simp)]
          by_cases empty : needed = [] <;> simp [empty]

/-- Replacing ASCII bytes by ASCII text, and nothing else, leaves well-formed
strings well-formed and others not. -/
theorem scan_flatMap {replace : UInt8 → ByteString}
    (replaces : ∀ byte, replace byte = [byte] ∨
      (byte < 0x80 ∧ Ascii (replace byte) ∧ replace byte ≠ []))
    (needed : List Tail) (text : ByteString) :
    scan needed (text.flatMap replace) = scan needed text := by
  induction text generalizing needed with
  | nil => rfl
  | cons byte rest induction =>
      rw [List.flatMap_cons, scan_append]
      have sameFirst : scan needed (replace byte) = scan needed [byte] := by
        rcases replaces byte with same | ⟨isAscii, replacedAscii, nonempty⟩
        · rw [same]
        · have alone : Ascii [byte] := by
            intro other member
            rw [List.mem_singleton.mp member]
            exact isAscii
          rw [scan_ascii replacedAscii nonempty, scan_ascii alone (by simp)]
      rw [sameFirst, scan, Option.bind_assoc, scan]
      congr 1
      funext after
      exact induction after

end ClearSpace.Utf8
