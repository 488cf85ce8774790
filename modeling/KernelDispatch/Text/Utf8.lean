/-!
# Text in bytes

An image is a sequence of bytes that must be UTF-8 before it means anything.
Where it is not, the report names the first place that no continuation could
mend: how many bytes of a sequence were plausible before the one that was not,
or that the bytes end inside a sequence.

## Main definitions

* `decode` — the text of the bytes, or the fault that keeps them from being one.
* `Fault.message` — the report of a fault.
-/

namespace KernelDispatch.Text.Utf8

/-- Where and how bytes stop being text. -/
inductive Fault where
  /-- The `length` bytes at `start` begin no character. -/
  | invalid (length start : Nat)
  /-- The bytes end inside the character that begins at `start`. -/
  | incomplete (start : Nat)
deriving DecidableEq, Inhabited

/-- The report of a fault. -/
def Fault.message : Fault → String
  | .invalid length start => s!"invalid utf-8 sequence of {length} bytes from index {start}"
  | .incomplete start => s!"incomplete utf-8 byte sequence from index {start}"

/-- Whether a byte lies in a range. -/
def between (low high : Nat) (b : UInt8) : Bool :=
  low ≤ b.toNat && b.toNat ≤ high

/-- The bytes that may follow a lead byte. Overlong forms, surrogates and codes
past the last one are shut out here, at the second byte. -/
def secondRange (lead : UInt8) : Nat × Nat :=
  match lead.toNat with
  | 0xE0 => (0xA0, 0xBF)
  | 0xED => (0x80, 0x9F)
  | 0xF0 => (0x90, 0xBF)
  | 0xF4 => (0x80, 0x8F)
  | _ => (0x80, 0xBF)

/-- The number of bytes of a character, by its lead byte; none begins with the
others. -/
def width? (lead : UInt8) : Option Nat :=
  if between 0x00 0x7F lead then some 1
  else if between 0xC2 0xDF lead then some 2
  else if between 0xE0 0xEF lead then some 3
  else if between 0xF0 0xF4 lead then some 4
  else none

/-- The first fault of the bytes, the first of which stands at `start`. -/
def faultFrom (start : Nat) : List UInt8 → Option Fault
  | [] => none
  | lead :: rest =>
      match width? lead, rest with
      | none, _ => some (.invalid 1 start)
      | some 1, rest => faultFrom (start + 1) rest
      | some _, [] => some (.incomplete start)
      | some width, second :: rest =>
          let (low, high) := secondRange lead
          if !between low high second then some (.invalid 1 start)
          else if width = 2 then faultFrom (start + 2) rest
          else
            match rest with
            | [] => some (.incomplete start)
            | third :: rest =>
                if !between 0x80 0xBF third then some (.invalid 2 start)
                else if width = 3 then faultFrom (start + 3) rest
                else
                  match rest with
                  | [] => some (.incomplete start)
                  | fourth :: rest =>
                      if !between 0x80 0xBF fourth then some (.invalid 3 start)
                      else faultFrom (start + 4) rest

/-- The text of the bytes, or why they are none. -/
def decode (bytes : ByteArray) : Except Fault String :=
  match String.fromUTF8? bytes with
  | some text => .ok text
  | none => .error ((faultFrom 0 bytes.toList).getD (.incomplete bytes.size))

/-- The bytes of a text always read as that text. -/
theorem decode_toUTF8 (s : String) : decode s.toUTF8 = .ok s := by
  have h : String.fromUTF8? s.toUTF8 = some s := by
    unfold String.fromUTF8?
    rw [String.toUTF8_eq_toByteArray, dif_pos s.isValidUTF8]
    rfl
  unfold decode
  rw [h]

end KernelDispatch.Text.Utf8
