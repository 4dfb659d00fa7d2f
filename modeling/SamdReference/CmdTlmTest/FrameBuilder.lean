import SamdReference.Framing.PrefixFree
import SamdReference.I2cTester.Packing
import SamdReference.Raising.Rules

/-!
# Uplink frames

`FrameBuilder::buildCommandFrame` serializes a command packet into the caller's storage,
between a header that carries its size and a trailer that carries a checksum over what
comes before, as far as its size fits into 32 bits. Header, trailer and hash are the
framework's and a parameter here. A failed assertion ends the program where it stands.
-/

namespace CmdTlmTest

open Framing Raising
open CuriosityReference.I2cTester (octet octet_injective)

/-- The framework's side of the frame format. -/
structure Protocol where
  /-- The two `SERIALIZED_SIZE`. -/
  headerSize : Nat
  trailerSize : Nat
  /-- A header with the default start word and this `lengthField`, serialized. -/
  header : UInt32 → List UInt8
  /-- A trailer with this `crcField`, serialized. -/
  trailer : UInt32 → List UInt8
  hash : List UInt8 → UInt32
  header_length : ∀ lengthField, (header lengthField).length = headerSize
  trailer_length : ∀ crcField, (trailer crcField).length = trailerSize
  header_injective : Function.Injective header

/-- A word as the framework serializes it. -/
def bigEndian (word : UInt32) : List UInt8 :=
  [octet word 0, octet word 1, octet word 2, octet word 3]

@[simp] theorem length_bigEndian (word : UInt32) : (bigEndian word).length = 4 := rfl

theorem bigEndian_injective : Function.Injective bigEndian := by
  intro a b same
  apply octet_injective
  intro k small
  have told := congrArg (fun bytes : List UInt8 => bytes[k]?) same
  obtain rfl | rfl | rfl | rfl : k = 0 ∨ k = 1 ∨ k = 2 ∨ k = 3 := by omega
  all_goals exact Option.some.inj told

/-- The assertions of the builder: that the frame fits, and that each step of the
serialization found room. -/
inductive Fault where
  | frameSize (size : Nat)
  | noRoomLeft
  deriving DecidableEq

/-- `ExternalSerializeBuffer` over `out`, of which `size` bytes are written. -/
structure SerializeBuffer where
  out : List UInt8
  size : Nat
  deriving DecidableEq

abbrev Builder := EStateM Fault SerializeBuffer

/-- Append to the buffer, and assert that it had room. -/
def serialize (bytes : List UInt8) : Builder Unit := do
  let buffer ← get
  if buffer.size + bytes.length ≤ buffer.out.length then
    set (SerializeBuffer.mk
      (buffer.out.take buffer.size ++ (bytes ++ buffer.out.drop (buffer.size + bytes.length)))
      (buffer.size + bytes.length))
  else
    throw .noRoomLeft

/-- Nothing is serialized for a command without arguments. -/
def serializeArgs (args : List UInt8) : Builder Unit :=
  if args.length > 0 then serialize args else return

/-- `FW_PACKET_COMMAND`. -/
def packetCommand : UInt8 := 0x00

/-- Descriptor, opcode and arguments. -/
def payloadSize (args : List UInt8) : Nat := 1 + 4 + args.length

namespace Protocol

variable (P : Protocol)

def frameSize (args : List UInt8) : Nat := P.headerSize + payloadSize args + P.trailerSize

def buildCommandFrame (opcode : UInt32) (args : List UInt8) : Builder Nat := do
  if P.frameSize args ≤ (← get).out.length then
    serialize (P.header (UInt32.ofNat (payloadSize args)))
    serialize [packetCommand]
    serialize (bigEndian opcode)
    serializeArgs args
    let buffer ← get
    serialize (P.trailer (P.hash (buffer.out.take (UInt32.ofNat buffer.size).toNat)))
    return (← get).size
  else
    throw (.frameSize (P.frameSize args))

/-- What comes before the trailer. -/
def covered (opcode : UInt32) (args : List UInt8) : List UInt8 :=
  P.header (UInt32.ofNat (payloadSize args)) ++ [packetCommand] ++ bigEndian opcode ++ args

/-- The checksum of written bytes. Their number is cast to `U32` on the way to the hash,
so of more than that it covers a first part only. -/
def checksum (bytes : List UInt8) : UInt32 :=
  P.hash (bytes.take (UInt32.ofNat bytes.length).toNat)

def frame (opcode : UInt32) (args : List UInt8) : List UInt8 :=
  P.covered opcode args ++ P.trailer (P.checksum (P.covered opcode args))

theorem length_covered (opcode : UInt32) (args : List UInt8) :
    (P.covered opcode args).length = P.headerSize + payloadSize args := by
  simp only [covered, List.length_append, P.header_length, length_bigEndian, payloadSize,
    List.length_singleton]
  omega

theorem length_frame (opcode : UInt32) (args : List UInt8) :
    (P.frame opcode args).length = P.frameSize args := by
  rw [frame, List.length_append, length_covered, P.trailer_length, frameSize]

end Protocol

/-- The buffer when `bytes` are written to the front of `out`. -/
def written (out bytes : List UInt8) : SerializeBuffer :=
  ⟨bytes ++ out.drop bytes.length, bytes.length⟩

section Written

variable {out bytes : List UInt8}

@[simp] theorem written_size : (written out bytes).size = bytes.length := rfl

@[simp] theorem written_taken :
    (written out bytes).out.take (written out bytes).size = bytes := List.take_left

/-- The bytes hashed are all in what is written. -/
theorem written_hashed :
    (written out bytes).out.take (UInt32.ofNat (written out bytes).size).toNat =
      bytes.take (UInt32.ofNat bytes.length).toNat := by
  have inside : (UInt32.ofNat bytes.length).toNat ≤ bytes.length := by
    rw [UInt32.toNat_ofNat']
    exact Nat.mod_le _ _
  exact List.take_append_of_le_length inside

theorem length_written (fits : bytes.length ≤ out.length) :
    (written out bytes).out.length = out.length := by
  simp only [written, List.length_append, List.length_drop]
  omega

/-- Serializing goes on where it stopped. -/
theorem serialize_written {more : List UInt8}
    (room : bytes.length + more.length ≤ out.length) :
    serialize more (written out bytes) = .ok () (written out (bytes ++ more)) := by
  have found : (get : Builder SerializeBuffer) (written out bytes) =
      .ok (written out bytes) (written out bytes) := rfl
  have here : (written out bytes).size + more.length ≤ (written out bytes).out.length := by
    rw [length_written (by omega)]
    exact room
  have behind : (written out bytes).out.drop (bytes.length + more.length) =
      out.drop (bytes ++ more).length := by
    rw [written, List.drop_append, List.drop_drop, List.length_append,
      List.drop_eq_nil_of_le (Nat.le_add_right _ _), List.nil_append]
    congr 1
    omega
  rw [serialize, bind_ok _ found, if_pos here, written_taken, written_size, behind,
    ← List.append_assoc, ← List.length_append]
  rfl

theorem serializeArgs_written {args : List UInt8}
    (room : bytes.length + args.length ≤ out.length) :
    serializeArgs args (written out bytes) = .ok () (written out (bytes ++ args)) := by
  rw [serializeArgs]
  split
  case isTrue => exact serialize_written room
  case isFalse none =>
    obtain rfl : args = [] := List.eq_nil_of_length_eq_zero (by omega)
    rw [List.append_nil]
    rfl

end Written

namespace Protocol

variable (P : Protocol)

/-- If the frame fits then so does each of its parts. -/
theorem build_fits {args out : List UInt8} (opcode : UInt32)
    (fits : P.frameSize args ≤ out.length) :
    P.buildCommandFrame opcode args ⟨out, 0⟩ =
      .ok (P.frameSize args) (written out (P.frame opcode args)) := by
  have bound : P.headerSize + (1 + 4 + args.length) + P.trailerSize ≤ out.length := fits
  have found : ∀ buffer, (get : Builder SerializeBuffer) buffer = .ok buffer buffer :=
    fun _ => rfl
  obtain ⟨head, header⟩ : ∃ head, P.header (UInt32.ofNat (payloadSize args)) = head := ⟨_, rfl⟩
  have length : head.length = P.headerSize := header ▸ P.header_length _
  have whole : head ++ [packetCommand] ++ bigEndian opcode ++ args = P.covered opcode args := by
    rw [covered, header]
  have first : serialize head ⟨out, 0⟩ = .ok () (written out head) := by
    have room : ([] : List UInt8).length + head.length ≤ out.length := by
      rw [List.length_nil]
      omega
    exact serialize_written room
  have second : serialize [packetCommand] (written out head) =
      .ok () (written out (head ++ [packetCommand])) := by
    apply serialize_written
    rw [List.length_singleton]
    omega
  have third : serialize (bigEndian opcode) (written out (head ++ [packetCommand])) =
      .ok () (written out (head ++ [packetCommand] ++ bigEndian opcode)) := by
    apply serialize_written
    rw [List.length_append, List.length_singleton, length_bigEndian]
    omega
  have fourth : serializeArgs args
      (written out (head ++ [packetCommand] ++ bigEndian opcode)) =
        .ok () (written out (P.covered opcode args)) := by
    rw [← whole]
    apply serializeArgs_written
    rw [List.length_append, List.length_append, List.length_singleton, length_bigEndian]
    omega
  have last : serialize (P.trailer (P.checksum (P.covered opcode args)))
      (written out (P.covered opcode args)) = .ok () (written out (P.frame opcode args)) := by
    apply serialize_written
    rw [length_covered, P.trailer_length, payloadSize]
    exact bound
  rw [buildCommandFrame, bind_ok _ (found _), if_pos fits, header, bind_ok _ first,
    bind_ok _ second, bind_ok _ third, bind_ok _ fourth, bind_ok _ (found _), written_hashed,
    ← checksum, bind_ok _ last, bind_ok _ (found _), written_size, length_frame]
  rfl

/-- Otherwise the first assertion fails, before anything is written. -/
theorem build_oversized {args out : List UInt8} (opcode : UInt32)
    (oversized : out.length < P.frameSize args) :
    P.buildCommandFrame opcode args ⟨out, 0⟩ = .error (.frameSize (P.frameSize args)) ⟨out, 0⟩ := by
  have found : (get : Builder SerializeBuffer) ⟨out, 0⟩ = .ok ⟨out, 0⟩ ⟨out, 0⟩ := rfl
  rw [buildCommandFrame, bind_ok _ found, if_neg (by simpa using oversized)]
  rfl

/-- The header comes first and tells the size of the payload. -/
theorem take_frame (opcode : UInt32) (args : List UInt8) :
    (P.frame opcode args).take P.headerSize = P.header (UInt32.ofNat (payloadSize args)) := by
  have length := P.header_length (UInt32.ofNat (payloadSize args))
  rw [frame, covered, List.append_assoc, List.append_assoc, List.append_assoc, ← length]
  exact List.take_left

end Protocol

/-- A command whose payload size is not cut off by the cast to the `lengthField`. -/
structure Command where
  opcode : UInt32
  args : List UInt8
  sized : payloadSize args < UInt32.size

namespace Protocol

variable (P : Protocol)

def frameOf (command : Command) : List UInt8 := P.frame command.opcode command.args

theorem payloadSize_of_take {a b : Command}
    (same : (P.frameOf a).take P.headerSize = (P.frameOf b).take P.headerSize) :
    payloadSize a.args = payloadSize b.args := by
  rw [frameOf, frameOf, take_frame, take_frame] at same
  have sizes := congrArg UInt32.toNat (P.header_injective same)
  rwa [UInt32.toNat_ofNat_of_lt' a.sized, UInt32.toNat_ofNat_of_lt' b.sized] at sizes

theorem frameOf_injective : Function.Injective P.frameOf := by
  intro a b same
  have sizes := P.payloadSize_of_take (congrArg (List.take P.headerSize) same)
  have lengths : (P.covered a.opcode a.args).length = (P.covered b.opcode b.args).length := by
    rw [length_covered, length_covered, sizes]
  obtain ⟨parts, _⟩ := List.append_inj same lengths
  rw [covered, covered, sizes, List.append_assoc, List.append_assoc, List.append_assoc,
    List.append_assoc] at parts
  have payload := List.append_cancel_left (List.append_cancel_left parts)
  obtain ⟨opcodes, args⟩ := List.append_inj payload rfl
  obtain ⟨opcode, _, _⟩ := a
  obtain rfl := bigEndian_injective opcodes
  obtain rfl := args
  rfl

theorem frames_prefixFree : PrefixFree (Set.range P.frameOf) := by
  apply prefixFree_of_head (n := P.headerSize)
  · rintro _ ⟨command, rfl⟩
    rw [frameOf, length_frame, frameSize, Nat.add_assoc]
    exact Nat.le_add_right _ _
  · rintro _ ⟨a, rfl⟩ _ ⟨b, rfl⟩ same
    rw [frameOf, frameOf, length_frame, length_frame, frameSize, frameSize,
      P.payloadSize_of_take same]

theorem nil_not_frame : [] ∉ Set.range P.frameOf := by
  rintro ⟨command, empty⟩
  have length := congrArg List.length empty
  rw [frameOf, length_frame, frameSize, payloadSize, List.length_nil] at length
  omega

/-- With every header, trailer and hash of the framework: a frame is built exactly if it
fits into the storage, of which it then takes the front and leaves the rest alone, and
otherwise nothing is written; and commands are read back in only one way off the frames
built for them, however many follow each other on the line. -/
theorem uplink_frames :
    (∀ (opcode : UInt32) (args out : List UInt8),
      P.buildCommandFrame opcode args ⟨out, 0⟩ =
        if P.frameSize args ≤ out.length then
          .ok (P.frameSize args)
            ⟨P.frame opcode args ++ out.drop (P.frameSize args), P.frameSize args⟩
        else .error (.frameSize (P.frameSize args)) ⟨out, 0⟩) ∧
    Function.Injective fun commands : List Command => commands.flatMap P.frameOf := by
  refine ⟨?_, flatMap_injective P.frameOf_injective
    (P.frames_prefixFree.uniquelyDecodable P.nil_not_frame)⟩
  intro opcode args out
  split
  case isTrue fits => rw [build_fits P opcode fits, written, length_frame]
  case isFalse oversized => exact build_oversized P opcode (by omega)

end Protocol

/-- The format as the framework ships it, but for the hash. -/
def fprimeProtocol (hash : List UInt8 → UInt32) : Protocol where
  headerSize := 8
  trailerSize := 4
  header lengthField := bigEndian 0xdeadbeef ++ bigEndian lengthField
  trailer := bigEndian
  hash := hash
  header_length _ := rfl
  trailer_length _ := rfl
  header_injective := by
    intro a b same
    exact bigEndian_injective (List.append_cancel_left same)

example (hash : List UInt8 → UInt32) : ((fprimeProtocol hash).covered 0x140 [0xca, 0xfe]) =
    [0xde, 0xad, 0xbe, 0xef, 0, 0, 0, 7, 0, 0, 0, 1, 0x40, 0xca, 0xfe] := rfl

end CmdTlmTest
