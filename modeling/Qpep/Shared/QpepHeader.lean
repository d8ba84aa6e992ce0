import Qpep.Go.Net
import Qpep.Go.Io

/-!
# The QPEP header

The client writes a header in front of the bytes of every stream: one type byte for each of the two addresses, then address and
port of the source and of the destination, the ports as 16-bit little-endian words. This module is the code of
`shared/qpep_header.go`: the encoder (`toBytes`), the decoder the server runs on the stream (`getQpepHeader`), a second decoder
over a byte slice (`qpepHeaderFromBytes`) and the length function (`getHeaderLength`).
-/

namespace Qpep

open Net Io

/-- `QPEP_PREAMBLE_LENGTH`: the two type bytes. -/
def QPEP_PREAMBLE_LENGTH : Nat := 2

/-- `QpepHeader`: the endpoints of the proxied connection. -/
structure QpepHeader where
  sourceAddr : TCPAddr
  destAddr : TCPAddr
deriving DecidableEq, Repr

/-- The headers the client builds: both addresses come from a TCP connection. -/
def QpepHeader.Valid (h : QpepHeader) : Prop := h.sourceAddr.Valid ∧ h.destAddr.Valid

instance (h : QpepHeader) : Decidable h.Valid := inferInstanceAs (Decidable (_ ∧ _))

/-- Two headers name the same endpoints. -/
def QpepHeader.Same (h h' : QpepHeader) : Prop := h.sourceAddr.Same h'.sourceAddr ∧ h.destAddr.Same h'.destAddr

instance (h h' : QpepHeader) : Decidable (h.Same h') := inferInstanceAs (Decidable (_ ∧ _))

/-! ## Encoding -/

/-- `getNetworkTypeFromAddr`. -/
def getNetworkTypeFromAddr (addr : TCPAddr) : UInt8 :=
  if addr.ip.to4 ≠ none then 0x04
  else if addr.ip.to16 ≠ none then 0x06
  else 0x00

/-- `ipToBytes`: appending a nil slice appends nothing. -/
def ipToBytes (addr : IP) (addrType : UInt8) : List UInt8 :=
  if addrType = 0x04 then addr.to4.getD [] else addr.to16.getD []

/-- `portToBytes`: the conversion `uint16(port)`, then the two bytes in little-endian order. -/
def portToBytes (port : Int) : List UInt8 :=
  let v := (port % 65536).toNat
  [UInt8.ofNat v, UInt8.ofNat (v / 256)]

/-- `QpepHeader.ToBytes`. -/
def QpepHeader.toBytes (header : QpepHeader) : List UInt8 :=
  let sourceType := getNetworkTypeFromAddr header.sourceAddr
  let destType := getNetworkTypeFromAddr header.destAddr
  [sourceType, destType] ++ ipToBytes header.sourceAddr.ip sourceType ++ portToBytes header.sourceAddr.port ++
    ipToBytes header.destAddr.ip destType ++ portToBytes header.destAddr.port

/-! ## Decoding -/

/-- The length of an address behind a type byte: everything but `0x04` counts as IPv6. -/
def ipLength (addrType : UInt8) : Nat := if addrType = 0x04 then IPv4len else IPv6len

/-- `binary.LittleEndian.Uint16`, as an `int`. -/
def uint16 : List UInt8 → Int
  | b0 :: b1 :: _ => (b0.toNat + 256 * b1.toNat : Nat)
  | _ => 0

/-- The bytes `[lo:hi]` of a list. -/
def slice (bs : List UInt8) (lo hi : Nat) : List UInt8 := (bs.take hi).drop lo

/-- The header that `GetQpepHeader` reads out of the bytes after the preamble. -/
def headerOf (sourceIpEnd sourcePortEnd destIpEnd destPortEnd : Nat) (byteInput : List UInt8) : QpepHeader where
  sourceAddr := ⟨slice byteInput 0 sourceIpEnd, uint16 (slice byteInput sourceIpEnd sourcePortEnd)⟩
  destAddr := ⟨slice byteInput sourcePortEnd destIpEnd, uint16 (slice byteInput destIpEnd destPortEnd)⟩

/-- `GetQpepHeader` after its first Read: the offsets that the preamble fixes, and the Read of everything behind it. The
number of bytes that the Read returned is not looked at. -/
def readRest (preamble : List UInt8) : ReadProg (Except IoErr QpepHeader) :=
  let sourceIpEnd := ipLength (preamble.getD 0 0)
  let sourcePortEnd := sourceIpEnd + 2
  let destIpEnd := sourcePortEnd + ipLength (preamble.getD 1 0)
  let destPortEnd := destIpEnd + 2
  .read destPortEnd fun bs err =>
    match err with
    | some e => .ret (.error e)
    | none => .ret (.ok (headerOf sourceIpEnd sourcePortEnd destIpEnd destPortEnd (fill destPortEnd bs)))

/-- `GetQpepHeader`: one Read for the preamble, one for the rest. Neither looks at how many bytes it was given. -/
def getQpepHeader : ReadProg (Except IoErr QpepHeader) :=
  .read QPEP_PREAMBLE_LENGTH fun bs err =>
    match err with
    | some e => .ret (.error e)
    | none => readRest (fill QPEP_PREAMBLE_LENGTH bs)

/-- `GetHeaderLength`; nothing where the source panics (a preamble of less than two bytes). -/
def getHeaderLength : List UInt8 → Option Nat
  | t0 :: t1 :: _ => some (QPEP_PREAMBLE_LENGTH + ipLength t0 + ipLength t1 + 4)
  | _ => none

/-! ## Decoding from a slice -/

/-- A Go byte slice: `len` bytes in front of an array that may go on (up to the slice's capacity). -/
structure ByteSlice where
  array : List UInt8
  len : Nat
  len_le : len ≤ array.length

/-- The bytes of a slice. -/
def ByteSlice.bytes (b : ByteSlice) : List UInt8 := b.array.take b.len

/-- `b[i]`: nothing where the source panics. -/
def ByteSlice.index (b : ByteSlice) (i : Nat) : Option UInt8 := if i < b.len then b.array[i]? else none

/-- `b[lo:hi]`: an upper bound beyond the capacity panics, one between length and capacity does not. -/
def ByteSlice.slice (b : ByteSlice) (lo hi : Nat) : Option (List UInt8) :=
  if lo ≤ hi ∧ hi ≤ b.array.length then some (Qpep.slice b.array lo hi) else none

/-- The slice that ends, length and capacity, after `n` bytes. -/
def ByteSlice.cut (b : ByteSlice) (n : Nat) : ByteSlice where
  array := b.array.take n
  len := min b.len n
  len_le := by have := b.len_le; rw [List.length_take]; omega

/-- `QpepHeaderFromBytes`: nothing where the source panics. The end of an IPv4 source address is written
`QPEP_PREAMBLE_LENGTH * +net.IPv4len`. -/
def qpepHeaderFromBytes (byteInput : ByteSlice) : Option QpepHeader := do
  let t0 ← byteInput.index 0
  let sourceIpEnd := if t0 = 0x04 then QPEP_PREAMBLE_LENGTH * IPv4len else QPEP_PREAMBLE_LENGTH + IPv6len
  let sourcePortEnd := sourceIpEnd + 2
  let t1 ← byteInput.index 1
  let destIpEnd := if t1 = 0x04 then sourcePortEnd + IPv4len else sourcePortEnd + IPv6len
  let destPortEnd := destIpEnd + 2
  let srcIPAddr ← byteInput.slice QPEP_PREAMBLE_LENGTH sourceIpEnd
  let srcPort ← byteInput.slice sourceIpEnd sourcePortEnd
  let destIPAddr ← byteInput.slice sourcePortEnd destIpEnd
  let destPort ← byteInput.slice destIpEnd destPortEnd
  return { sourceAddr := ⟨srcIPAddr, uint16 srcPort⟩, destAddr := ⟨destIPAddr, uint16 destPort⟩ }

end Qpep
