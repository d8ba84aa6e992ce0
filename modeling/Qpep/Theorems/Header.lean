import Qpep.Lemmas.Header

/-!
# What the header codec guarantees

With Reads that fill their buffers the decoder gives back what was encoded and stops exactly behind the header
(`header_round_trip`). The decoder never looks at how many bytes a Read returned, so on a stream that hands out the header in
pieces this is lost, and `header_delivery_iff` says when it is not. The decoder over a slice has one wrong offset
(`fromBytes_agrees_iff`).
-/

namespace Qpep

open Net Io HeaderAux

namespace HeaderAux

/-- The canonical form of an address a connection can have has four or sixteen bytes. -/
theorem canonical_ip_length {a : TCPAddr} (h : a.Valid) :
    a.canonical.ip.length = IPv4len ∨ a.canonical.ip.length = IPv6len := by
  rw [canonical_length h]
  rcases ipLength_cases (getNetworkTypeFromAddr a) with ⟨_, h⟩ | ⟨_, h⟩
  · exact Or.inl h
  · exact Or.inr h

/-- Two addresses with one canonical form name the same endpoint. -/
theorem same_of_canonical_eq {a b : TCPAddr} (ha : a.Valid) (hb : b.Valid) (h : a.canonical = b.canonical) : a.Same b := by
  have h1 := (IP.equal_iff_to16 (canonical_ip_length ha) ha.1).mp a.canonical_same.1
  have h2 := (IP.equal_iff_to16 (canonical_ip_length hb) hb.1).mp b.canonical_same.1
  have hport : a.canonical.port = b.canonical.port := by rw [h]
  refine ⟨(IP.equal_iff_to16 ha.1 hb.1).mpr ?_, hport⟩
  rw [← h1, ← h2, h]

end HeaderAux

/-! ## Round trip -/

/-- A valid header, encoded in front of any payload and read with Reads that fill their buffers, is decoded to a header that
names the same endpoints; the decoder consumes the encoded header, as many bytes as `GetHeaderLength` says, and leaves the
payload. So two headers in front of two payloads give the same bytes only if they name the same endpoints in front of the
same payload. -/
theorem header_round_trip :
    (∀ h : QpepHeader, h.Valid → ∀ p : List UInt8,
      ∃ d, getQpepHeader.run fullReader (h.toBytes ++ p) = (.ok d, p) ∧ d.Same h ∧
        getHeaderLength h.toBytes = some h.toBytes.length) ∧
    (∀ h₁ h₂ : QpepHeader, h₁.Valid → h₂.Valid → ∀ p₁ p₂ : List UInt8,
      h₁.toBytes ++ p₁ = h₂.toBytes ++ p₂ → h₁.Same h₂ ∧ p₁ = p₂) := by
  refine ⟨?_, ?_⟩
  · intro h hv p
    refine ⟨h.canonical, getQpepHeader_full hv p, h.canonical_same, ?_⟩
    have hlen := getHeaderLength_toBytes h []
    rw [List.append_nil] at hlen
    rw [hlen, toBytes_length hv]
  · intro h₁ h₂ hv₁ hv₂ p₁ p₂ he
    have h1 := getQpepHeader_full hv₁ p₁
    rw [he, getQpepHeader_full hv₂ p₂] at h1
    simp only [Prod.mk.injEq, Except.ok.injEq, QpepHeader.canonical, QpepHeader.mk.injEq] at h1
    obtain ⟨⟨hs, hd⟩, hp⟩ := h1
    exact ⟨⟨same_of_canonical_eq hv₁.1 hv₂.1 hs.symm, same_of_canonical_eq hv₁.2 hv₂.2 hd.symm⟩, hp.symm⟩

/-- A header over IPv4, its source written in sixteen bytes, as a connection accepted on a dual-stack socket reports it. -/
def mixedHeader : QpepHeader where
  sourceAddr := ⟨v4InV6Prefix ++ [10, 0, 0, 7], 50000⟩
  destAddr := ⟨[0x20, 0x01, 0x0d, 0xb8, 0, 0, 0, 0, 0, 0, 0, 0, 0, 0, 0, 1], 443⟩

/-- The round trip at a header with two address families, and with a payload that starts like a header. -/
theorem header_round_trip_mixed :
    (∃ d, getQpepHeader.run fullReader (mixedHeader.toBytes ++ [4, 4, 1]) = (.ok d, [4, 4, 1]) ∧ d.Same mixedHeader ∧
      getHeaderLength mixedHeader.toBytes = some mixedHeader.toBytes.length) ∧
    mixedHeader.Same mixedHeader :=
  ⟨header_round_trip.1 mixedHeader (by decide) [4, 4, 1],
    (header_round_trip.2 mixedHeader mixedHeader (by decide) (by decide) [4, 4, 1] [4, 4, 1] rfl).1⟩

/-! ## Delivery in pieces -/

/-- Two readers of one header and one payload make no difference to the decoder: it returns the same header on both, the one
that was sent, and leaves the payload on both. -/
def SameDelivery {σ τ : Type} (R : Reader σ) (unread : σ → List UInt8) (s : σ) (R' : Reader τ) (unread' : τ → List UInt8)
    (s' : τ) (h : QpepHeader) (p : List UInt8) : Prop :=
  ∃ d, d.Same h ∧ (getQpepHeader.run R s).1 = .ok d ∧ (getQpepHeader.run R' s').1 = .ok d ∧
    unread (getQpepHeader.run R s).2 = p ∧ unread' (getQpepHeader.run R' s').2 = p

/-- The reader answers the decoder's two Reads with full buffers and nil errors: the two type bytes, then all the rest of the
header. -/
def FillsHeader {σ : Type} (R : Reader σ) (s : σ) (h : QpepHeader) : Prop :=
  (R.read s QPEP_PREAMBLE_LENGTH).1 = (h.toBytes.take 2, none) ∧
    (R.read (R.read s QPEP_PREAMBLE_LENGTH).2 (h.toBytes.length - 2)).1 = (h.toBytes.drop 2, none)

namespace HeaderAux

section Deliver

variable {σ : Type} {R : Reader σ} {unread : σ → List UInt8} {h : QpepHeader} {p : List UInt8} {s : σ}

/-- Full buffers: the decoder returns the canonical form of the header and leaves the payload. -/
theorem run_of_fills (hR : Delivers R unread) (hv : h.Valid) (hs : unread s = h.toBytes ++ p) (hf : FillsHeader R s h) :
    (getQpepHeader.run R s).1 = .ok h.canonical ∧ unread (getQpepHeader.run R s).2 = p := by
  obtain ⟨hf1, hf2⟩ := hf
  have hlen := toBytes_length hv
  rw [hlen, Nat.add_sub_cancel_left] at hf2
  rw [toBytes_take_two] at hf1
  rw [getQpepHeader_run hf1 hf2, decodeRest_toBytes hv]
  refine ⟨rfl, ?_⟩
  have hne : unread s ≠ [] := by simp [hs, toBytes_ne_nil]
  have hu1 := (hR.more s QPEP_PREAMBLE_LENGTH (by decide) hne).2.2.1
  have hu2 : unread (R.read s QPEP_PREAMBLE_LENGTH).2 = h.toBytes.drop 2 ++ p := by
    rw [hf1, hs, ← List.take_append_drop 2 h.toBytes, toBytes_take_two, List.append_assoc] at hu1
    exact List.append_cancel_left hu1
  have hpos : 0 < restLength (getNetworkTypeFromAddr h.sourceAddr) (getNetworkTypeFromAddr h.destAddr) := by
    simp only [restLength]
    omega
  have hne2 : unread (R.read s QPEP_PREAMBLE_LENGTH).2 ≠ [] := by
    intro e
    have := congrArg List.length (hu2.symm.trans e)
    simp only [List.length_append, List.length_drop, hlen, List.length_nil] at this
    omega
  have hu3 := (hR.more _ _ hpos hne2).2.2.1
  rw [hf2, hu2] at hu3
  exact List.append_cancel_left hu3

/-- A preamble of one byte is filled up with a zero type byte: the decoder then takes the destination for an IPv6 address
whose bytes at positions 10 and 11 are zero, when it is given no more than the bytes an IPv4 destination has. So what it
returns is not the destination of an IPv4 header. -/
theorem destAddr_not_same {t0 : UInt8} {bs : List UInt8} {a : TCPAddr} (ht : getNetworkTypeFromAddr a = 0x04) (ha : a.Valid)
    (hbs : bs.length = ipLength t0 + 9) : ¬(decodeRest t0 0 bs).destAddr.Same a := by
  have h0 : ipLength 0 = 16 := rfl
  have hl : bs.length ≤ restLength t0 0 := by
    rw [restLength, h0]
    omega
  have hd : (decodeRest t0 0 bs).destAddr.ip.length = IPv6len := (decodeRest_length hl).2
  -- bytes 10 and 11 of the address lie in the part of the buffer that no Read has written
  have hz : (decodeRest t0 0 bs).destAddr.ip[10]? = some 0 := by
    simp only [decodeRest, headerOf, slice, restLength, h0, fill, List.getElem?_drop]
    rw [List.getElem?_take_of_lt (by omega), List.getElem?_append_right (by omega), List.getElem?_replicate]
    simp [hbs]
  have hp : ∀ {x : IP}, x.length = IPv6len → x.take 12 = v4InV6Prefix → x[10]? = some 0xff := by
    intro x _ hx
    rw [← List.getElem?_take_of_lt (by omega : 10 < 12), hx]
    rfl
  rintro ⟨he, -⟩
  rcases ha.1 with h4 | h16
  · rw [IP.equal, if_neg (by rw [hd, h4]; decide), if_neg (by rw [hd, h4]; decide), if_pos ⟨hd, h4⟩] at he
    simp only [Bool.and_eq_true, decide_eq_true_eq] at he
    rw [hp hd he.1] at hz
    cases hz
  · rw [IP.equal, if_pos (hd.trans h16.symm), decide_eq_true_eq] at he
    rcases networkType_valid ha with ⟨-, hn⟩ | ⟨ht', -⟩
    · rw [Ne, IP.to4_eq_none h16, ne_eq, not_not] at hn
      rw [he, hp h16 hn] at hz
      cases hz
    · rw [ht] at ht'
      cases ht'

/-- The decoder returns the header that was sent and leaves the payload only when both its Reads fill their buffers. -/
theorem fills_of_run (hR : Delivers R unread) (hv : h.Valid) (hs : unread s = h.toBytes ++ p) {d : QpepHeader}
    (hd : d.Same h) (hrun : (getQpepHeader.run R s).1 = .ok d) (hrest : unread (getQpepHeader.run R s).2 = p) :
    FillsHeader R s h := by
  have hlen := toBytes_length hv
  have hne : unread s ≠ [] := by simp [hs, toBytes_ne_nil]
  obtain ⟨hb1, hl1, hu1, -⟩ := hR.more s QPEP_PREAMBLE_LENGTH (by decide) hne
  obtain ⟨t0, t1, he1, hf, he2, hdec, hst⟩ := getQpepHeader_run_ok hl1 hrun
  rw [hst] at hrest
  have hpos : 0 < restLength t0 t1 := by
    simp only [restLength]
    omega
  rw [hs, ← List.take_append_drop 2 h.toBytes, toBytes_take_two] at hu1
  have hdrop : (h.toBytes.drop 2).length =
      restLength (getNetworkTypeFromAddr h.sourceAddr) (getNetworkTypeFromAddr h.destAddr) := by
    rw [List.length_drop]
    omega
  rcases hb : (R.read s QPEP_PREAMBLE_LENGTH).1.1 with _ | ⟨t, _ | ⟨t', bs⟩⟩
  · exact absurd hb hb1
  · -- one type byte: the preamble is filled up with a zero
    exfalso
    rw [hb] at hu1 hf
    simp only [List.cons_append, List.nil_append, List.cons.injEq] at hu1
    obtain ⟨rfl, hu1⟩ := hu1
    have htt : getNetworkTypeFromAddr h.sourceAddr = t0 ∧ 0 = t1 := by
      simpa [fill, QPEP_PREAMBLE_LENGTH] using hf
    obtain ⟨rfl, rfl⟩ := htt
    have hne2 : unread (R.read s QPEP_PREAMBLE_LENGTH).2 ≠ [] := by simp [hu1]
    obtain ⟨-, hl2, hu2, -⟩ := hR.more _ _ hpos hne2
    rw [hrest, hu1, ← List.cons_append] at hu2
    have hlen2 := congrArg List.length (List.append_cancel_right hu2)
    rw [List.length_cons, hdrop] at hlen2
    have hr0 : restLength (getNetworkTypeFromAddr h.sourceAddr) 0 =
        ipLength (getNetworkTypeFromAddr h.sourceAddr) + 2 + 16 + 2 := rfl
    rcases networkType_valid hv.2 with ⟨ht, -⟩ | ⟨ht, -⟩
    · have hr : restLength (getNetworkTypeFromAddr h.sourceAddr) (getNetworkTypeFromAddr h.destAddr) =
          ipLength (getNetworkTypeFromAddr h.sourceAddr) + 2 + 4 + 2 := by rw [ht]; rfl
      exact destAddr_not_same ht hv.2 (by omega) (hdec ▸ hd.2)
    · have hr : restLength (getNetworkTypeFromAddr h.sourceAddr) (getNetworkTypeFromAddr h.destAddr) =
          ipLength (getNetworkTypeFromAddr h.sourceAddr) + 2 + 16 + 2 := by rw [ht]; rfl
      omega
  · rw [hb] at hu1 hf hl1
    have hbs : bs = [] := by
      simp only [List.length_cons, QPEP_PREAMBLE_LENGTH] at hl1
      exact List.eq_nil_of_length_eq_zero (by omega)
    subst hbs
    simp only [List.cons_append, List.nil_append, List.cons.injEq] at hu1
    obtain ⟨rfl, rfl, hu1⟩ := hu1
    rw [fill_two] at hf
    simp only [List.cons.injEq, and_true] at hf
    obtain ⟨rfl, rfl⟩ := hf
    refine ⟨Prod.ext ?_ he1, ?_⟩
    · rw [toBytes_take_two]
      exact hb
    · have hne2 : unread (R.read s QPEP_PREAMBLE_LENGTH).2 ≠ [] := by
        intro e
        have := congrArg List.length (hu1.symm.trans e)
        simp only [List.length_append, hdrop, List.length_nil] at this
        omega
      obtain ⟨-, -, hu2, -⟩ := hR.more _ _ hpos hne2
      rw [hrest, hu1] at hu2
      have hb2 := List.append_cancel_right hu2
      rw [hlen, Nat.add_sub_cancel_left]
      exact Prod.ext hb2 he2

end Deliver

end HeaderAux

/-- The decoder is independent of how the bytes are delivered exactly as long as both readers fill the buffers of its two Reads:
one that hands out the header in more pieces, or its last bytes together with `io.EOF`, makes it return another header or an
error, or leave something else than the payload. -/
theorem header_delivery_iff {σ τ : Type} (R : Reader σ) (unread : σ → List UInt8) (R' : Reader τ) (unread' : τ → List UInt8)
    (hR : Delivers R unread) (hR' : Delivers R' unread') (h : QpepHeader) (hv : h.Valid) (p : List UInt8) (s : σ) (s' : τ)
    (hs : unread s = h.toBytes ++ p) (hs' : unread' s' = h.toBytes ++ p) :
    SameDelivery R unread s R' unread' s' h p ↔ FillsHeader R s h ∧ FillsHeader R' s' h := by
  constructor
  · rintro ⟨d, hd, hrun, hrun', hrest, hrest'⟩
    exact ⟨fills_of_run hR hv hs hd hrun hrest, fills_of_run hR' hv hs' hd hrun' hrest'⟩
  · rintro ⟨hf, hf'⟩
    obtain ⟨h1, h2⟩ := run_of_fills hR hv hs hf
    obtain ⟨h1', h2'⟩ := run_of_fills hR' hv hs' hf'
    exact ⟨h.canonical, h.canonical_same, h1, h1', h2, h2'⟩

/-- Two readers that fill their buffers: one that goes on doing so, one that hands out the payload byte by byte. -/
theorem header_delivery_iff_web :
    SameDelivery fullReader (fun s => s) (webHeader.toBytes ++ [71, 69, 84]) (chunkReader true) (fun s => s.1)
        (webHeader.toBytes ++ [71, 69, 84], [1, 11, 0, 0]) webHeader [71, 69, 84] ↔
      FillsHeader fullReader (webHeader.toBytes ++ [71, 69, 84]) webHeader ∧
        FillsHeader (chunkReader true) (webHeader.toBytes ++ [71, 69, 84], [1, 11, 0, 0]) webHeader :=
  header_delivery_iff fullReader (fun s => s) (chunkReader true) (fun s => s.1) fullReader_delivers
    (chunkReader_delivers true) webHeader (by decide) [71, 69, 84] _ _ rfl rfl

/-- The header in two pieces behind its type bytes (five bytes, then the rest): the decoder fills the missing ones with zeros,
returns a header to 0.0.0.0:0 with a nil error and leaves seven bytes of the header in front of the payload. -/
theorem header_split_diverges :
    getQpepHeader.run fullReader (webHeader.toBytes ++ [71, 69, 84]) = (.ok webHeader, [71, 69, 84]) ∧
    getQpepHeader.run (chunkReader false) (webHeader.toBytes ++ [71, 69, 84], [1, 4]) =
      (.ok ⟨⟨[10, 0, 0, 7], 80⟩, ⟨[0, 0, 0, 0], 0⟩⟩, ([195, 93, 184, 216, 34, 80, 0, 71, 69, 84], [])) ∧
    ¬SameDelivery fullReader (fun s => s) (webHeader.toBytes ++ [71, 69, 84]) (chunkReader false) (fun s => s.1)
      (webHeader.toBytes ++ [71, 69, 84], [1, 4]) webHeader [71, 69, 84] := by
  have h1 : getQpepHeader.run fullReader (webHeader.toBytes ++ [71, 69, 84]) = (.ok webHeader, [71, 69, 84]) := by
    rfl
  have h2 : getQpepHeader.run (chunkReader false) (webHeader.toBytes ++ [71, 69, 84], [1, 4]) =
      (.ok ⟨⟨[10, 0, 0, 7], 80⟩, ⟨[0, 0, 0, 0], 0⟩⟩, ([195, 93, 184, 216, 34, 80, 0, 71, 69, 84], [])) := by
    rfl
  refine ⟨h1, h2, ?_⟩
  rintro ⟨d, -, -, -, -, hrest⟩
  rw [h2] at hrest
  cases hrest

/-! ## The two decoders -/

/-- The decoder over a slice agrees with the one over a stream on the first `n` bytes: it returns the header that the stream
decoder reads with full buffers, and it does so without touching a byte at or past `n`, since it returns the same header,
without a panic, on the slice that ends there. -/
def FromBytesAgrees (b : ByteSlice) (n : Nat) : Prop :=
  ∃ d, (getQpepHeader.run fullReader b.bytes).1 = .ok d ∧ qpepHeaderFromBytes b = some d ∧
    qpepHeaderFromBytes (b.cut n) = some d

namespace HeaderAux

/-- The first two bytes of a slice whose header length is defined. -/
theorem bytes_of_getHeaderLength {bs : List UInt8} {n : Nat} (h : getHeaderLength bs = some n) :
    ∃ t0 t1 rest, bs = t0 :: t1 :: rest ∧ n = 2 + restLength t0 t1 := by
  match bs, h with
  | t0 :: t1 :: rest, h =>
    simp only [getHeaderLength, QPEP_PREAMBLE_LENGTH, Option.some.injEq] at h
    refine ⟨t0, t1, rest, rfl, ?_⟩
    simp only [restLength]
    omega

/-- A slice of a list with two bytes in front. -/
theorem slice_cons_cons (t0 t1 : UInt8) (xs : List UInt8) (lo hi : Nat) :
    slice (t0 :: t1 :: xs) (lo + 2) (hi + 2) = slice xs lo hi := by
  simp [slice]

/-- A slice of a list cut behind the slice. -/
theorem slice_take {xs : List UInt8} {lo hi m : Nat} (h : hi ≤ m) : slice (xs.take m) lo hi = slice xs lo hi := by
  rw [slice, List.take_take, Nat.min_eq_left h, slice]

/-- The fields of a header lie in the bytes its length counts. -/
theorem headerOf_take (t0 t1 : UInt8) (xs : List UInt8) :
    headerOf (ipLength t0) (ipLength t0 + 2) (ipLength t0 + 2 + ipLength t1) (restLength t0 t1)
        (xs.take (restLength t0 t1)) =
      headerOf (ipLength t0) (ipLength t0 + 2) (ipLength t0 + 2 + ipLength t1) (restLength t0 t1) xs := by
  simp only [headerOf]
  rw [slice_take (by simp only [restLength]; omega), slice_take (by simp only [restLength]; omega),
    slice_take (by simp only [restLength]; omega), slice_take (Nat.le_refl _)]

/-- The stream decoder, with full buffers, on bytes that hold a whole header. -/
theorem getQpepHeader_of_length {t0 t1 : UInt8} {rest : List UInt8} (h : restLength t0 t1 ≤ rest.length) :
    (getQpepHeader.run fullReader (t0 :: t1 :: rest)).1 =
      .ok (headerOf (ipLength t0) (ipLength t0 + 2) (ipLength t0 + 2 + ipLength t1) (restLength t0 t1) rest) := by
  have hne : rest ≠ [] := by
    rintro rfl
    simp [restLength] at h
  have hr1 : fullReader.read (t0 :: t1 :: rest) QPEP_PREAMBLE_LENGTH = (([t0, t1], none), rest) :=
    fullReader_read (List.cons_ne_nil _ _) _
  have hr2 : fullReader.read rest (restLength t0 t1) =
      ((rest.take (restLength t0 t1), none), rest.drop (restLength t0 t1)) := fullReader_read hne _
  have hlen : (rest.take (restLength t0 t1)).length = restLength t0 t1 := by
    rw [List.length_take]
    omega
  rw [getQpepHeader_run (by rw [hr1]) (by rw [hr1, hr2]), decodeRest, fill_full hlen, headerOf_take]

/-- The slice decoder on a slice whose source type is not `0x04`, when the array holds a whole header. -/
theorem qpepHeaderFromBytes_of_ne {b : ByteSlice} {t0 t1 : UInt8} {rest : List UInt8} (ha : b.array = t0 :: t1 :: rest)
    (hlen : 2 ≤ b.len) (h : restLength t0 t1 ≤ rest.length) (ht : t0 ≠ 0x04) :
    qpepHeaderFromBytes b =
      some (headerOf (ipLength t0) (ipLength t0 + 2) (ipLength t0 + 2 + ipLength t1) (restLength t0 t1) rest) := by
  have hi0 : b.index 0 = some t0 := by simp [ByteSlice.index, ha, show 0 < b.len by omega]
  have hi1 : b.index 1 = some t1 := by simp [ByteSlice.index, ha, show 1 < b.len by omega]
  have hs : ∀ lo hi, lo ≤ hi → hi ≤ restLength t0 t1 → b.slice (lo + 2) (hi + 2) = some (slice rest lo hi) := by
    intro lo hi h1 h2
    rw [ByteSlice.slice, ha, slice_cons_cons, if_pos]
    simp only [List.length_cons]
    omega
  have h0 : ipLength t0 = 16 := ipLength_of_ne ht
  have h1 : (if t1 = 0x04 then 18 + 2 + IPv4len else 18 + 2 + IPv6len) = 16 + 2 + ipLength t1 + 2 := by
    unfold ipLength
    split <;> rfl
  have hr : restLength t0 t1 = 16 + 2 + ipLength t1 + 2 := by rw [restLength, h0]
  have e18 : QPEP_PREAMBLE_LENGTH + IPv6len = 16 + 2 := rfl
  rw [qpepHeaderFromBytes]
  simp only [hi0, hi1, Option.bind_eq_bind, Option.bind_some, if_neg ht, e18, Nat.reduceAdd, h1]
  rw [show QPEP_PREAMBLE_LENGTH = 0 + 2 from rfl, hs 0 16 (by omega) (by omega), Option.bind_some,
    hs 16 18 (by omega) (by omega), Option.bind_some, hs 18 (18 + ipLength t1) (by omega) (by omega), Option.bind_some,
    hs (18 + ipLength t1) (18 + ipLength t1 + 2) (by omega) (by omega), Option.bind_some, hr, h0]
  rfl

/-- On a slice whose source type is `0x04` the slice decoder, if it returns at all, returns a source address of six bytes. -/
theorem qpepHeaderFromBytes_four {b : ByteSlice} {d : QpepHeader} (h0 : b.index 0 = some 0x04)
    (h : qpepHeaderFromBytes b = some d) : d.sourceAddr.ip.length = 6 := by
  simp only [qpepHeaderFromBytes, h0, Option.bind_eq_bind, Option.bind_some, if_true, Option.bind_eq_some_iff] at h
  obtain ⟨t1, -, src, hsrc, p, -, dst, -, q, -, hd⟩ := h
  cases hd
  unfold ByteSlice.slice at hsrc
  split at hsrc
  · rename_i hc
    cases hsrc
    simp only [QPEP_PREAMBLE_LENGTH, IPv4len] at hc ⊢
    simp only [slice, List.length_drop, List.length_take]
    omega
  · cases hsrc

end HeaderAux

/-- The two decoders and the length function agree on every slice that holds a whole header, except that the slice decoder,
whose end of an IPv4 source address is `2 * 4` instead of `2 + 4`, is wrong whenever the source type is `0x04`: it takes six
bytes for the source address and reads everything else two bytes too far. -/
theorem fromBytes_agrees_iff (b : ByteSlice) (n : Nat) (h2 : 2 ≤ b.len) (hn : getHeaderLength b.bytes = some n)
    (hle : n ≤ b.len) : FromBytesAgrees b n ↔ b.bytes[0]? ≠ some 0x04 := by
  obtain ⟨t0, t1, rest, hb, rfl⟩ := bytes_of_getHeaderLength hn
  have hlen : b.bytes.length = b.len := by
    rw [ByteSlice.bytes, List.length_take]
    have := b.len_le
    omega
  have hrest : restLength t0 t1 ≤ rest.length := by
    rw [hb] at hlen
    simp only [List.length_cons] at hlen
    omega
  obtain ⟨extra, harr⟩ : ∃ extra, b.array = t0 :: t1 :: (rest ++ extra) := by
    have := List.take_append_drop b.len b.array
    rw [← ByteSlice.bytes, hb] at this
    exact ⟨b.array.drop b.len, this.symm⟩
  have hget := getQpepHeader_of_length hrest
  constructor
  · rintro ⟨d, hd, hf, -⟩ h4
    rw [hb] at hd h4
    simp only [List.getElem?_cons_zero, Option.some.injEq] at h4
    subst h4
    rw [hget] at hd
    cases hd
    have hi0 : b.index 0 = some 0x04 := by simp [ByteSlice.index, harr, show 0 < b.len by omega]
    have hlen6 := qpepHeaderFromBytes_four hi0 hf
    simp only [headerOf, slice, List.length_drop, List.length_take, ipLength_four, IPv4len] at hlen6
    omega
  · intro h4
    rw [hb] at h4
    simp only [List.getElem?_cons_zero, ne_eq, Option.some.injEq] at h4
    have hcut : (b.cut (2 + restLength t0 t1)).array = t0 :: t1 :: rest.take (restLength t0 t1) := by
      show b.array.take (2 + restLength t0 t1) = _
      rw [harr, Nat.add_comm, List.take_succ_cons, List.take_succ_cons, List.take_append_of_le_length hrest]
    have hl2 : 2 ≤ (b.cut (2 + restLength t0 t1)).len := by
      simp only [ByteSlice.cut]
      omega
    refine ⟨_, by rw [hb]; exact hget, ?_, ?_⟩
    · rw [qpepHeaderFromBytes_of_ne harr h2 (by rw [List.length_append]; omega) h4, ← headerOf_take t0 t1 (rest ++ extra),
        List.take_append_of_le_length hrest, headerOf_take]
    · rw [qpepHeaderFromBytes_of_ne hcut hl2 (by rw [List.length_take]; omega) h4, headerOf_take]

/-- A whole header from an IPv6 source to an IPv4 destination, in an array that goes on behind it. -/
def mixedSlice : ByteSlice where
  array := [0x06, 0x04] ++ List.replicate 16 0xfe ++ [0x50, 0xc3] ++ [93, 184, 216, 34] ++ [80, 0] ++ [1, 2, 3]
  len := 26
  len_le := by decide

/-- The agreement at a header with an IPv6 source. -/
theorem fromBytes_agrees_iff_mixed : FromBytesAgrees mixedSlice 26 ↔ mixedSlice.bytes[0]? ≠ some 0x04 :=
  fromBytes_agrees_iff mixedSlice 26 (by decide) (by decide) (by decide)

/-- The header of `webHeader` as a slice with eight more bytes behind it. -/
def webSlice : ByteSlice where
  array := webHeader.toBytes ++ [0, 1, 2, 3, 4, 5, 6, 7]
  len := 14
  len_le := by decide

/-- On an IPv4 header the slice decoder returns a source address of six bytes and reads the ports and the destination two bytes
too far; cut behind the header, where the stream decoder is content, it panics. -/
theorem fromBytes_diverges :
    getHeaderLength webSlice.bytes = some 14 ∧ webSlice.len = 14 ∧
    (getQpepHeader.run fullReader webSlice.bytes).1 = .ok webHeader ∧
    qpepHeaderFromBytes webSlice = some ⟨⟨[10, 0, 0, 7, 80, 195], 47197⟩, ⟨[216, 34, 80, 0], 256⟩⟩ ∧
    qpepHeaderFromBytes (webSlice.cut 14) = none ∧ ¬FromBytesAgrees webSlice 14 := by
  have hd : (getQpepHeader.run fullReader webSlice.bytes).1 = .ok webHeader := by rfl
  have hp : qpepHeaderFromBytes (webSlice.cut 14) = none := by rfl
  refine ⟨rfl, rfl, hd, by rfl, hp, ?_⟩
  rintro ⟨d, -, -, hcut⟩
  rw [hp] at hcut
  cases hcut

end Qpep
