import ClearSpace.Transport.WireForm

/-! # The text of server messages

What `serializeServerMessage` returns is one line of text, and a client that
parses it gets the message back. -/

namespace ClearSpace.Transport

open ClearSpace.Core FloatFormats

/-- What is assumed of the texts of the library: control characters are escaped,
and the parser reads the object of a message back from its text. A coordinate that
is infinite or not a number would be written as `null`. -/
structure JsonLibrary.Writes (library : JsonLibrary) : Prop where
  escapes : ∀ value text, library.dump value = some text → ∀ byte ∈ text, 0x20 ≤ byte
  readBack : ∀ (message : ServerMessage) text, message.Finite →
    serializeServerMessage library message = some text →
    ∃ json, library.parse text = .ok json ∧
      Json.Same json (makeMessageJson library message)

def readText (library : JsonLibrary) (text : ByteString) : Option ServerMessage :=
  match library.parse text with
  | .ok json => readMessage library json
  | .error _ => none

theorem readText_serialized {library : JsonLibrary} (writes : library.Writes)
    (exact : library.Exact) {message : ServerMessage} (finite : message.Finite)
    {text : ByteString} (written : serializeServerMessage library message = some text) :
    readText library text = some message.value := by
  rcases writes.readBack message text finite written with ⟨json, parsed, same⟩
  rw [readText, parsed]
  exact readMessage_reads exact finite json same

/-! ## Libraries that know some texts -/

namespace Json

mutual

def equal : Json → Json → Bool
  | .null, .null => true
  | .boolean left, .boolean right => left == right
  | .unsigned left, .unsigned right => left == right
  | .integer left, .integer right => left == right
  | .float left, .float right => left == right
  | .string left, .string right => left == right
  | .array left, .array right => equalAll left right
  | .object left, .object right => equalMembers left right
  | _, _ => false

def equalAll : List Json → List Json → Bool
  | [], [] => true
  | left :: lefts, right :: rights => equal left right && equalAll lefts rights
  | _, _ => false

def equalMembers : List (ByteString × Json) → List (ByteString × Json) → Bool
  | [], [] => true
  | (leftKey, left) :: lefts, (rightKey, right) :: rights =>
      leftKey == rightKey && equal left right && equalMembers lefts rights
  | _, _ => false

end

mutual

theorem eq_of_equal : ∀ {left right : Json}, equal left right = true → left = right
  | .null, right, isEqual => by cases right <;> simp_all [equal]
  | .boolean _, right, isEqual => by cases right <;> simp_all [equal]
  | .unsigned _, right, isEqual => by cases right <;> simp_all [equal]
  | .integer _, right, isEqual => by cases right <;> simp_all [equal]
  | .float _, right, isEqual => by cases right <;> simp_all [equal]
  | .string _, right, isEqual => by cases right <;> simp_all [equal]
  | .array values, right, isEqual => by
      cases right with
      | array others => exact congrArg Json.array (eq_of_equalAll isEqual)
      | _ => cases isEqual
  | .object members, right, isEqual => by
      cases right with
      | object others => exact congrArg Json.object (eq_of_equalMembers isEqual)
      | _ => cases isEqual

theorem eq_of_equalAll : ∀ {left right : List Json}, equalAll left right = true →
    left = right
  | [], [], _ => rfl
  | [], _ :: _, isEqual => by cases isEqual
  | _ :: _, [], isEqual => by cases isEqual
  | left :: lefts, right :: rights, isEqual => by
      rw [equalAll, Bool.and_eq_true] at isEqual
      rw [eq_of_equal isEqual.1, eq_of_equalAll isEqual.2]

theorem eq_of_equalMembers : ∀ {left right : List (ByteString × Json)},
    equalMembers left right = true → left = right
  | [], [], _ => rfl
  | [], _ :: _, isEqual => by cases isEqual
  | _ :: _, [], isEqual => by cases isEqual
  | (_, left) :: lefts, (_, right) :: rights, isEqual => by
      rw [equalMembers, Bool.and_eq_true, Bool.and_eq_true, beq_iff_eq] at isEqual
      rw [isEqual.1.1, eq_of_equal isEqual.1.2, eq_of_equalMembers isEqual.2]

end

end Json

section Texts

variable (texts : List (Json × ByteString))

variable {texts}

end Texts

end ClearSpace.Transport
