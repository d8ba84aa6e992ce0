import Qpep.Shared.QpepHeader

/-!
# The header codec

What the encoder writes for a valid header, field by field, what the decoder makes of the bytes behind a preamble, and what
a run of the decoder against a reader amounts to (two Reads, `getQpepHeader_run_ok`).
-/

namespace Qpep

open Net Io

/-- The header with both addresses in the form the encoder holds them in. -/
def QpepHeader.canonical (h : QpepHeader) : QpepHeader := ⟨h.sourceAddr.canonical, h.destAddr.canonical⟩

/-- The number of bytes behind a preamble with these two type bytes. -/
def restLength (t0 t1 : UInt8) : Nat := ipLength t0 + 2 + ipLength t1 + 2

/-- The header read out of the bytes behind a preamble with these two type bytes. -/
def decodeRest (t0 t1 : UInt8) (bs : List UInt8) : QpepHeader :=
  headerOf (ipLength t0) (ipLength t0 + 2) (ipLength t0 + 2 + ipLength t1) (restLength t0 t1) (fill (restLength t0 t1) bs)

theorem QpepHeader.canonical_same (h : QpepHeader) : h.canonical.Same h :=
  ⟨h.sourceAddr.canonical_same, h.destAddr.canonical_same⟩

namespace HeaderAux

/-! ## Fields -/

theorem ipLength_four : ipLength 0x04 = IPv4len := rfl

theorem ipLength_of_ne {t : UInt8} (h : t ≠ 0x04) : ipLength t = IPv6len := if_neg h

/-- A type byte stands for four bytes or for sixteen. -/
theorem ipLength_cases (t : UInt8) : t = 0x04 ∧ ipLength t = 4 ∨ t ≠ 0x04 ∧ ipLength t = 16 := by
  by_cases h : t = 0x04
  · exact Or.inl ⟨h, by rw [h]; rfl⟩
  · exact Or.inr ⟨h, ipLength_of_ne h⟩

theorem portToBytes_length (port : Int) : (portToBytes port).length = 2 := rfl

/-- A port of 16 bits survives the two bytes. -/
theorem uint16_portToBytes {port : Int} (h0 : 0 ≤ port) (h1 : port ≤ 65535) : uint16 (portToBytes port) = port := by
  simp only [portToBytes, uint16, UInt8.toNat_ofNat']
  omega

/-- An address a connection can have that has no four-byte form is a sixteen-byte one. -/
theorem length_of_to4_none {a : TCPAddr} (h : a.Valid) (h4 : a.ip.to4 = none) : a.ip.length = IPv6len := by
  rcases h.1 with hl | hl
  · rw [IP.to4_of_length_four hl] at h4
    cases h4
  · exact hl

/-- The type byte of an address a connection can have: `0x04` when it has a four-byte form and `0x06` otherwise. -/
theorem networkType_valid {a : TCPAddr} (h : a.Valid) :
    getNetworkTypeFromAddr a = 0x04 ∧ a.ip.to4 ≠ none ∨ getNetworkTypeFromAddr a = 0x06 ∧ a.ip.to4 = none := by
  by_cases h4 : a.ip.to4 = none
  · right
    have hl := length_of_to4_none h h4
    simp [getNetworkTypeFromAddr, h4, IP.to16_of_length_sixteen hl]
  · left
    simp [getNetworkTypeFromAddr, h4]

/-- The bytes of an address a connection can have are its canonical form. -/
theorem ipToBytes_valid {a : TCPAddr} (h : a.Valid) : ipToBytes a.ip (getNetworkTypeFromAddr a) = a.canonical.ip := by
  rcases networkType_valid h with ⟨ht, h4⟩ | ⟨ht, h4⟩
  · obtain ⟨x, hx⟩ := Option.ne_none_iff_exists'.mp h4
    simp [ht, ipToBytes, TCPAddr.canonical, hx]
  · have hl := length_of_to4_none h h4
    simp [ht, ipToBytes, TCPAddr.canonical, h4, IP.to16_of_length_sixteen hl]

/-- The canonical form has the length its type byte stands for. -/
theorem canonical_length {a : TCPAddr} (h : a.Valid) : a.canonical.ip.length = ipLength (getNetworkTypeFromAddr a) := by
  rcases networkType_valid h with ⟨ht, h4⟩ | ⟨ht, h4⟩
  · obtain ⟨x, hx⟩ := Option.ne_none_iff_exists'.mp h4
    simp [ht, TCPAddr.canonical, hx, IP.length_of_to4 hx, ipLength]
  · have hl := length_of_to4_none h h4
    simp [ht, TCPAddr.canonical, h4, hl, ipLength]

/-! ## The encoded header -/

/-- The bytes of a valid header: the type bytes, then the fields in canonical form. -/
theorem toBytes_valid {h : QpepHeader} (hv : h.Valid) :
    h.toBytes = [getNetworkTypeFromAddr h.sourceAddr, getNetworkTypeFromAddr h.destAddr] ++
      (h.canonical.sourceAddr.ip ++ portToBytes h.sourceAddr.port ++ h.canonical.destAddr.ip ++
        portToBytes h.destAddr.port) := by
  simp only [QpepHeader.toBytes, ipToBytes_valid hv.1, ipToBytes_valid hv.2, QpepHeader.canonical, List.append_assoc]

/-- The header of a valid connection is as long as its two type bytes say. -/
theorem toBytes_length {h : QpepHeader} (hv : h.Valid) :
    h.toBytes.length =
      2 + restLength (getNetworkTypeFromAddr h.sourceAddr) (getNetworkTypeFromAddr h.destAddr) := by
  have hs := canonical_length hv.1
  have hd := canonical_length hv.2
  rw [toBytes_valid hv]
  simp only [QpepHeader.canonical, List.length_append, List.length_cons, List.length_nil, hs, hd, portToBytes_length,
    restLength]

/-- A header starts with its two type bytes. -/
theorem toBytes_take_two (h : QpepHeader) :
    h.toBytes.take 2 = [getNetworkTypeFromAddr h.sourceAddr, getNetworkTypeFromAddr h.destAddr] := rfl

theorem toBytes_ne_nil (h : QpepHeader) : h.toBytes ≠ [] := fun e => by
  have := toBytes_take_two h
  rw [e] at this
  cases this

/-- `GetHeaderLength` looks at the type bytes only. -/
theorem getHeaderLength_toBytes (h : QpepHeader) (p : List UInt8) :
    getHeaderLength (h.toBytes ++ p) =
      some (2 + restLength (getNetworkTypeFromAddr h.sourceAddr) (getNetworkTypeFromAddr h.destAddr)) := by
  simp only [QpepHeader.toBytes, List.cons_append, List.nil_append, getHeaderLength, QPEP_PREAMBLE_LENGTH, restLength,
    Option.some.injEq]
  omega

/-! ## The decoded header -/

/-- The four fields of a byte string cut at the right places are the fields it was put together from. -/
theorem headerOf_append {a p b q : List UInt8} {n m : Nat} (ha : a.length = n) (hp : p.length = 2) (hb : b.length = m)
    (hq : q.length = 2) :
    headerOf n (n + 2) (n + 2 + m) (n + 2 + m + 2) (a ++ p ++ b ++ q) = ⟨⟨a, uint16 p⟩, ⟨b, uint16 q⟩⟩ := by
  have h1 : slice (a ++ p ++ b ++ q) 0 n = a := by
    rw [slice, List.drop_zero, List.append_assoc, List.append_assoc, List.take_left' ha]
  have h2 : slice (a ++ p ++ b ++ q) n (n + 2) = p := by
    rw [slice, List.append_assoc (a ++ p), List.take_left' (by simp [ha, hp]), List.drop_left' ha]
  have h3 : slice (a ++ p ++ b ++ q) (n + 2) (n + 2 + m) = b := by
    rw [slice, List.take_left' (by simp [ha, hp, hb]; omega), List.drop_left' (by simp [ha, hp])]
  have h4 : slice (a ++ p ++ b ++ q) (n + 2 + m) (n + 2 + m + 2) = q := by
    rw [slice, List.take_of_length_le (by simp [ha, hp, hb, hq]; omega), List.drop_left' (by simp [ha, hp, hb]; omega)]
  rw [headerOf, h1, h2, h3, h4]

/-- The decoder gives back the canonical form of a valid header. -/
theorem decodeRest_toBytes {h : QpepHeader} (hv : h.Valid) :
    decodeRest (getNetworkTypeFromAddr h.sourceAddr) (getNetworkTypeFromAddr h.destAddr) (h.toBytes.drop 2) =
      h.canonical := by
  have hlen : (h.toBytes.drop 2).length =
      restLength (getNetworkTypeFromAddr h.sourceAddr) (getNetworkTypeFromAddr h.destAddr) := by
    rw [List.length_drop, toBytes_length hv]
    omega
  have hs : h.canonical.sourceAddr.ip.length = _ := canonical_length hv.1
  have hd : h.canonical.destAddr.ip.length = _ := canonical_length hv.2
  have hdrop : h.toBytes.drop 2 = h.canonical.sourceAddr.ip ++ portToBytes h.sourceAddr.port ++
      h.canonical.destAddr.ip ++ portToBytes h.destAddr.port := by
    rw [toBytes_valid hv]
    rfl
  rw [decodeRest, fill_full hlen, hdrop, restLength]
  rw [headerOf_append hs (portToBytes_length _) hd (portToBytes_length _), uint16_portToBytes hv.1.2.1 hv.1.2.2,
    uint16_portToBytes hv.2.2.1 hv.2.2.2]
  rfl

/-- A decoded address has the length its type byte stands for. -/
theorem decodeRest_length {t0 t1 : UInt8} {bs : List UInt8} (h : bs.length ≤ restLength t0 t1) :
    (decodeRest t0 t1 bs).sourceAddr.ip.length = ipLength t0 ∧
      (decodeRest t0 t1 bs).destAddr.ip.length = ipLength t1 := by
  have hf := fill_length h
  simp only [decodeRest, headerOf, slice, List.length_drop, List.length_take, hf]
  simp only [restLength]
  omega

/-! ## Running the decoder -/

/-- The second half of the decoder, with its offsets named. -/
theorem readRest_eq (t0 t1 : UInt8) :
    readRest [t0, t1] = .read (restLength t0 t1) fun bs err =>
      match err with
      | some e => .ret (.error e)
      | none => .ret (.ok (decodeRest t0 t1 bs)) := rfl

/-- A filled preamble is two bytes. -/
theorem fill_preamble {bs : List UInt8} (h : bs.length ≤ QPEP_PREAMBLE_LENGTH) :
    ∃ t0 t1, fill QPEP_PREAMBLE_LENGTH bs = [t0, t1] := by
  have hl : (fill QPEP_PREAMBLE_LENGTH bs).length = 2 := fill_length h
  match hf : fill QPEP_PREAMBLE_LENGTH bs, hl with
  | [t0, t1], _ => exact ⟨t0, t1, rfl⟩

/-- Two bytes are a full preamble. -/
theorem fill_two (t0 t1 : UInt8) : fill QPEP_PREAMBLE_LENGTH [t0, t1] = [t0, t1] := fill_full rfl

/-- What a successful run of the decoder consists of: a first Read with a nil error, whose bytes fill up the preamble, and a
second one with a nil error, whose bytes fill up the rest. -/
theorem getQpepHeader_run_ok {σ : Type} {R : Reader σ} {s : σ} {d : QpepHeader}
    (hl : (R.read s QPEP_PREAMBLE_LENGTH).1.1.length ≤ QPEP_PREAMBLE_LENGTH)
    (h : (getQpepHeader.run R s).1 = .ok d) :
    ∃ t0 t1, (R.read s QPEP_PREAMBLE_LENGTH).1.2 = none ∧
      fill QPEP_PREAMBLE_LENGTH (R.read s QPEP_PREAMBLE_LENGTH).1.1 = [t0, t1] ∧
      (R.read (R.read s QPEP_PREAMBLE_LENGTH).2 (restLength t0 t1)).1.2 = none ∧
      d = decodeRest t0 t1 (R.read (R.read s QPEP_PREAMBLE_LENGTH).2 (restLength t0 t1)).1.1 ∧
      (getQpepHeader.run R s).2 = (R.read (R.read s QPEP_PREAMBLE_LENGTH).2 (restLength t0 t1)).2 := by
  obtain ⟨t0, t1, hf⟩ := fill_preamble hl
  rw [getQpepHeader, ReadProg.run_read] at h ⊢
  cases h1 : (R.read s QPEP_PREAMBLE_LENGTH).1.2 with
  | some e =>
    rw [h1] at h
    cases h
  | none =>
    simp only [h1, hf, readRest_eq, ReadProg.run_read] at h ⊢
    refine ⟨t0, t1, trivial, rfl, ?_⟩
    cases h2 : (R.read (R.read s QPEP_PREAMBLE_LENGTH).2 (restLength t0 t1)).1.2 with
    | some e =>
      rw [h2] at h
      cases h
    | none =>
      rw [h2] at h
      simp only [ReadProg.run_ret, Except.ok.injEq] at h ⊢
      exact ⟨trivial, h.symm, trivial⟩

/-- A run of the decoder in which both Reads return a nil error. -/
theorem getQpepHeader_run {σ : Type} {R : Reader σ} {s : σ} {t0 t1 : UInt8} {bs : List UInt8}
    (h1 : (R.read s QPEP_PREAMBLE_LENGTH).1 = ([t0, t1], none))
    (h2 : (R.read (R.read s QPEP_PREAMBLE_LENGTH).2 (restLength t0 t1)).1 = (bs, none)) :
    getQpepHeader.run R s =
      (.ok (decodeRest t0 t1 bs), (R.read (R.read s QPEP_PREAMBLE_LENGTH).2 (restLength t0 t1)).2) := by
  rw [getQpepHeader, ReadProg.run_read, h1]
  simp only [fill_two, readRest_eq, ReadProg.run_read, h2, ReadProg.run_ret]

/-- Reads that fill their buffers decode a valid header and leave what follows it, whatever follows. -/
theorem getQpepHeader_full {h : QpepHeader} (hv : h.Valid) (p : List UInt8) :
    getQpepHeader.run fullReader (h.toBytes ++ p) = (.ok h.canonical, p) := by
  have hlen := toBytes_length hv
  have hne : h.toBytes ++ p ≠ [] := by simp [toBytes_ne_nil]
  have h2 : 2 ≤ h.toBytes.length := by omega
  have hdrop : (h.toBytes ++ p).drop 2 = h.toBytes.drop 2 ++ p := List.drop_append_of_le_length h2
  have hrest : (h.toBytes.drop 2).length =
      restLength (getNetworkTypeFromAddr h.sourceAddr) (getNetworkTypeFromAddr h.destAddr) := by
    rw [List.length_drop]
    omega
  have hr1 : fullReader.read (h.toBytes ++ p) QPEP_PREAMBLE_LENGTH =
      (([getNetworkTypeFromAddr h.sourceAddr, getNetworkTypeFromAddr h.destAddr], none), h.toBytes.drop 2 ++ p) := by
    rw [fullReader_read hne, QPEP_PREAMBLE_LENGTH, hdrop, List.take_append_of_le_length h2, toBytes_take_two]
  have hne2 : h.toBytes.drop 2 ++ p ≠ [] := by
    intro e
    have := congrArg List.length e
    simp only [List.length_append, hrest, restLength, List.length_nil] at this
    omega
  have hr2 := fullReader_read hne2 (restLength (getNetworkTypeFromAddr h.sourceAddr) (getNetworkTypeFromAddr h.destAddr))
  rw [List.take_left' hrest, List.drop_left' hrest] at hr2
  have h1' : (fullReader.read (h.toBytes ++ p) QPEP_PREAMBLE_LENGTH).2 = h.toBytes.drop 2 ++ p := by rw [hr1]
  rw [getQpepHeader_run (by rw [hr1]) (by rw [h1', hr2]), h1', hr2, decodeRest_toBytes hv]

end HeaderAux

/-- The header of a connection to 93.184.216.34:80. -/
def webHeader : QpepHeader where
  sourceAddr := ⟨[10, 0, 0, 7], 50000⟩
  destAddr := ⟨[93, 184, 216, 34], 80⟩

end Qpep
