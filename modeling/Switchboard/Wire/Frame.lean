import Switchboard.MessagePack.Decoder
import Switchboard.MessagePack.Encoder
import Switchboard.Wire.Header

/-!
# Frames

A message on the wire is a length, a header and a body.  The length covers header and body.  It is
written in one form and accepted in every form of an unsigned number.

## Main definitions

- `Message` — a header and the octets of a body
- `Frame.encode` — the octets of a message
- `Frame.decode` — the message at the front of a buffer and the octets it takes, or `none` while it
  is incomplete
- `Frame.drain` — all complete messages of a buffer, in order
-/

namespace Switchboard.Wire

open MessagePack

/-- A header and the octets of a body. -/
structure Message where
  header : Header
  body : Octets
  deriving DecidableEq

/-- Why octets are no frame, or a message cannot become one. -/
inductive FrameFault where
  /-- the message is too large to be written -/
  | tooLargeToWrite (size : Nat)
  /-- the first octet begins no unsigned number -/
  | invalidMarker (marker : UInt8)
  /-- the length is beyond the limit -/
  | tooLarge (size : Nat)
  /-- no value stands where the header belongs -/
  | badHeader (fault : DecodeFault)
  /-- the value in front is no header -/
  | header (fault : HeaderFault)
  /-- the body is no value -/
  | badBody (fault : DecodeFault)
  /-- octets follow the body inside the frame -/
  | trailing (count : Nat)

namespace Frame

/-- The largest length of header and body together. -/
def maxSize : Nat := 100 * 1024 * 1024

end Frame

/-- The wording of a fault. -/
def FrameFault.message : FrameFault → String
  | .tooLargeToWrite size => "frame of " ++ toString size ++ " bytes is too large"
  | .invalidMarker marker =>
    "invalid length prefix marker 0x" ++ Octets.toHex [marker]
  | .tooLarge size =>
    "frame too large: " ++ toString size ++ " bytes (max " ++ toString Frame.maxSize ++ " bytes)"
  | .badHeader fault => "truncated header: " ++ fault.message
  | .header fault => fault.message
  | .badBody fault => "truncated body: " ++ fault.message
  | .trailing count => toString count ++ " unexpected trailing bytes in frame"

namespace Frame

/-- The octets in front of a body of `bodySize` octets: the length and the header. -/
def encodeFront (header : Header) (bodySize : Nat) : Except FrameFault Octets :=
  let front := MessagePack.encode header.toValue
  let size := front.length + bodySize
  if size ≤ maxSize then .ok (0xCE :: (Octets.bigEndian 4 size ++ front))
  else .error (.tooLargeToWrite size)

/-- The octets of a message. -/
def encode (header : Header) (body : Octets) : Except FrameFault Octets :=
  (encodeFront header body.length).map (· ++ body)

/-- The octets of a message whose body repeats one octet; too large a body is never built. -/
def encodeFilled (header : Header) (count : Nat) (octet : UInt8) : Except FrameFault Octets :=
  (encodeFront header count).map (· ++ List.replicate count octet)

/-- How many octets of length follow the first octet of a frame; `none` when it is the length. -/
def lengthWidth? (marker : UInt8) : Except FrameFault (Option Nat) :=
  if marker < 0x80 then .ok none
  else
    match marker with
    | 0xCC => .ok (some 1)
    | 0xCD => .ok (some 2)
    | 0xCE => .ok (some 4)
    | 0xCF => .ok (some 8)
    | _ => .error (.invalidMarker marker)

/-- The length at the front of a buffer, how many octets it takes, and what follows it; `none` while
it is incomplete. -/
def decodeLength : Octets → Except FrameFault (Option (Nat × Nat × Octets))
  | [] => .ok none
  | marker :: rest =>
    match lengthWidth? marker with
    | .error e => .error e
    | .ok none => .ok (some (marker.toNat, 1, rest))
    | .ok (some width) =>
      .ok ((Octets.split? width rest).map fun (n, rest) => (Octets.ofBigEndian n, 1 + width, rest))

/-- The message whose header and body are exactly these octets.  A body is empty or one value. -/
def decodeContents (contents : Octets) : Except FrameFault Message :=
  match MessagePack.decode contents with
  | .error e => .error (.badHeader e)
  | .ok (v, body) =>
    match Header.ofValue v with
    | .error e => .error (.header e)
    | .ok header =>
      if body.isEmpty then .ok ⟨header, body⟩
      else
        match MessagePack.decode body with
        | .error e => .error (.badBody e)
        | .ok (_, rest) =>
          if rest.isEmpty then .ok ⟨header, body⟩ else .error (.trailing rest.length)

/-- The message at the front of a buffer and the octets it takes, or `none` while it is
incomplete. -/
def decode (buffer : Octets) : Except FrameFault (Option (Message × Nat)) :=
  match decodeLength buffer with
  | .error e => .error e
  | .ok none => .ok none
  | .ok (some (size, width, rest)) =>
    if maxSize < size then .error (.tooLarge size)
    else
      match Octets.split? size rest with
      | none => .ok none
      | some (contents, _) => (decodeContents contents).map fun m => some (m, width + size)

/-- What draining a buffer gives: the messages with the octets each takes, the octets left, and the
fault that ended it. -/
structure Drained where
  messages : List (Message × Nat)
  rest : Octets
  fault : Option FrameFault

/-- Takes at most `fuel` messages off a buffer, onto those already taken, latest first. -/
def drainFrom : Nat → Octets → List (Message × Nat) → Drained
  | 0, buffer, taken => ⟨taken.reverse, buffer, none⟩
  | fuel + 1, buffer, taken =>
    match decode buffer with
    | .error e => ⟨taken.reverse, buffer, some e⟩
    | .ok none => ⟨taken.reverse, buffer, none⟩
    | .ok (some (m, used)) => drainFrom fuel (buffer.drop used) ((m, used) :: taken)

/-- All complete messages of a buffer, in order.  Each takes at least one octet, so no more than the
buffer's length are there. -/
def drain (buffer : Octets) : Drained :=
  drainFrom (buffer.length + 1) buffer []

end Frame

end Switchboard.Wire
