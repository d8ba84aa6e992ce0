import Qpep.Theorems.Header

/-!
# The bytes of a header

What the decoder makes of bytes that are not the encoding of a valid header: a header that ends too early
(`truncated_rejected_iff`), a header that the encoder cannot write (`unencodable_mistaken`), and any bytes of the right
length (`canonical_wire_form`, which says which of them the encoder writes).
-/

namespace Qpep

open Net Io HeaderAux

namespace HeaderAux

/-! ## Decoding any bytes -/

/-- With Reads that fill their buffers the decoder returns `io.EOF` on at most two bytes. -/
theorem getQpepHeader_short {w : List UInt8} (h : w.length ≤ 2) : (getQpepHeader.run fullReader w).1 = .error .EOF := by
  match w, h with
  | [], _ => rfl
  | [_], _ => rfl
  | [_, _], _ => rfl

/-- With Reads that fill their buffers the decoder returns a header on any longer bytes, whether or not they hold a whole
one. -/
theorem getQpepHeader_long (t0 t1 : UInt8) {rest : List UInt8} (h : rest ≠ []) :
    getQpepHeader.run fullReader (t0 :: t1 :: rest) =
      (.ok (decodeRest t0 t1 (rest.take (restLength t0 t1))), rest.drop (restLength t0 t1)) := by
  have hr1 : fullReader.read (t0 :: t1 :: rest) QPEP_PREAMBLE_LENGTH = (([t0, t1], none), rest) :=
    fullReader_read (List.cons_ne_nil _ _) _
  have hr2 := fullReader_read h (restLength t0 t1)
  rw [getQpepHeader_run (by rw [hr1]) (by rw [hr1, hr2]), hr1, hr2]

/-- The two bytes of a port are read as a number of 16 bits. -/
theorem uint16_bounds (p : List UInt8) : 0 ≤ uint16 p ∧ uint16 p ≤ 65535 := by
  unfold uint16
  split
  · rename_i b0 b1 _
    have h0 := UInt8.toNat_lt b0
    have h1 := UInt8.toNat_lt b1
    omega
  · omega

/-- What the decoder returns has valid addresses. -/
theorem decodeRest_valid {t0 t1 : UInt8} {bs : List UInt8} (h : bs.length ≤ restLength t0 t1) :
    (decodeRest t0 t1 bs).Valid := by
  obtain ⟨hs, hd⟩ := decodeRest_length h
  have hlen : ∀ {n t}, n = ipLength t → n = IPv4len ∨ n = IPv6len := by
    intro n t hn
    rcases ipLength_cases t with ⟨-, ht⟩ | ⟨-, ht⟩
    · exact Or.inl (hn.trans ht)
    · exact Or.inr (hn.trans ht)
  exact ⟨⟨hlen hs, uint16_bounds _⟩, ⟨hlen hd, uint16_bounds _⟩⟩

end HeaderAux

/-! ## Truncated headers -/

namespace HeaderAux

/-- Bytes that are neither empty nor one byte nor two. -/
theorem exists_of_length {w : List UInt8} (h : ¬w.length ≤ 2) : ∃ t0 t1 rest, w = t0 :: t1 :: rest ∧ rest ≠ [] := by
  cases w with
  | nil => simp at h
  | cons t0 w =>
    cases w with
    | nil => simp at h
    | cons t1 rest =>
      refine ⟨t0, t1, rest, rfl, ?_⟩
      rintro rfl
      simp at h

/-- A header cut behind its type bytes, read with Reads that fill their buffers, is decoded to what it gives when the
missing bytes are zeros. -/
theorem getQpepHeader_cut {h : QpepHeader} (hv : h.Valid) {w : List UInt8} (hw : w <+: h.toBytes) (hlen : ¬w.length ≤ 2) :
    ∃ d, (getQpepHeader.run fullReader w).1 = .ok d ∧
      getQpepHeader.run fullReader (w ++ List.replicate (h.toBytes.length - w.length) 0) = (.ok d, []) := by
  obtain ⟨t0, t1, rest, rfl, hne⟩ := exists_of_length hlen
  obtain ⟨more, hmore⟩ := hw
  have htypes : [t0, t1] = [getNetworkTypeFromAddr h.sourceAddr, getNetworkTypeFromAddr h.destAddr] := by
    rw [← toBytes_take_two, ← hmore]
    rfl
  have hall : (t0 :: t1 :: rest).length + more.length = 2 + restLength t0 t1 := by
    rw [← List.length_append, hmore, toBytes_length hv]
    cases htypes
    rfl
  have hle : rest.length ≤ restLength t0 t1 := by
    simp only [List.length_cons] at hall
    omega
  have hzeros : h.toBytes.length - (t0 :: t1 :: rest).length = restLength t0 t1 - rest.length := by
    rw [← hmore, List.length_append]
    simp only [List.length_cons] at hall ⊢
    omega
  have hfull : (fill (restLength t0 t1) rest).length = restLength t0 t1 := fill_length hle
  have hne' : fill (restLength t0 t1) rest ≠ [] := by simp [fill, hne]
  refine ⟨decodeRest t0 t1 rest, ?_, ?_⟩
  · rw [getQpepHeader_long t0 t1 hne, List.take_of_length_le hle]
  · have hcons : t0 :: t1 :: rest ++ List.replicate (restLength t0 t1 - rest.length) 0 =
        t0 :: t1 :: fill (restLength t0 t1) rest := rfl
    rw [hzeros, hcons, getQpepHeader_long t0 t1 hne', List.take_of_length_le (Nat.le_of_eq hfull),
      List.drop_of_length_le (Nat.le_of_eq hfull)]
    rw [decodeRest, fill_full hfull, ← decodeRest]

end HeaderAux

/-- A header that ends early, anywhere, read with Reads that fill their buffers: it is rejected exactly if nothing but type
bytes has arrived. The decoder does not look at how many bytes its second Read returned, and decodes the header completed
with zeros. -/
theorem truncated_rejected_iff (h : QpepHeader) (hv : h.Valid) (w : List UInt8) (hw : w <+: h.toBytes) :
    ((∃ e, (getQpepHeader.run fullReader w).1 = .error e) ↔ w.length ≤ 2) ∧
    (¬w.length ≤ 2 → ∃ d, (getQpepHeader.run fullReader w).1 = .ok d ∧
      getQpepHeader.run fullReader (w ++ List.replicate (h.toBytes.length - w.length) 0) = (.ok d, [])) := by
  refine ⟨⟨?_, fun hlen => ⟨.EOF, getQpepHeader_short hlen⟩⟩, getQpepHeader_cut hv hw⟩
  rintro ⟨e, he⟩
  by_cases hlen : w.length ≤ 2
  · exact hlen
  · obtain ⟨d, hd, -⟩ := getQpepHeader_cut hv hw hlen
    cases hd.symm.trans he

/-- A header cut in its type bytes is rejected. -/
theorem truncated_rejected_iff_web : ∃ e, (getQpepHeader.run fullReader (webHeader.toBytes.take 2)).1 = .error e :=
  (truncated_rejected_iff webHeader (by decide) (webHeader.toBytes.take 2) (List.take_prefix _ _)).1.mpr (by decide)

/-- A header to 93.184.216.34:80 that ends three bytes early is decoded to one to 93.184.216.0:0. -/
theorem truncated_misread :
    webHeader.toBytes.take 11 <+: webHeader.toBytes ∧ webHeader.toBytes.take 11 ≠ webHeader.toBytes ∧
    (getQpepHeader.run fullReader (webHeader.toBytes.take 11)).1 = .ok ⟨⟨[10, 0, 0, 7], 50000⟩, ⟨[93, 184, 216, 0], 0⟩⟩ ∧
    ¬∃ e, (getQpepHeader.run fullReader (webHeader.toBytes.take 11)).1 = .error e := by
  have hd : (getQpepHeader.run fullReader (webHeader.toBytes.take 11)).1 =
      .ok ⟨⟨[10, 0, 0, 7], 50000⟩, ⟨[93, 184, 216, 0], 0⟩⟩ := by rfl
  refine ⟨List.take_prefix _ _, by decide, hd, ?_⟩
  rintro ⟨e, he⟩
  cases hd.symm.trans he

/-! ## Headers that cannot be encoded -/

namespace HeaderAux

/-- Bytes behind the two type bytes are never missing: the two ports are always written. -/
theorem toBytes_eq (h : QpepHeader) :
    ∃ rest, rest ≠ [] ∧ h.toBytes = getNetworkTypeFromAddr h.sourceAddr :: getNetworkTypeFromAddr h.destAddr :: rest := by
  refine ⟨h.toBytes.drop 2, ?_, ?_⟩
  · intro he
    have hlen := congrArg List.length he
    simp only [QpepHeader.toBytes, portToBytes, List.length_drop, List.length_append, List.length_cons, List.length_nil] at hlen
    omega
  · rfl

/-- `Equal` compares four or sixteen bytes: an address of another length equals no valid one. -/
theorem valid_of_same {a d : TCPAddr} (hd : d.Valid) (h : d.Same a) : a.Valid := by
  obtain ⟨heq, hport⟩ := h
  refine ⟨?_, hport ▸ hd.2⟩
  unfold IP.equal at heq
  split at heq
  · rename_i hl
    exact hl ▸ hd.1
  · split at heq
    · rename_i hl
      exact Or.inr hl.2
    · split at heq
      · rename_i hl
        exact Or.inl hl.2
      · cases heq

end HeaderAux

/-- A header that the encoder cannot write (an address of neither four nor sixteen bytes, or a port of more than 16 bits) is
always mistaken for another one: whatever follows it, the decoder returns a header with a nil error, and one with other
endpoints. -/
theorem unencodable_mistaken (h : QpepHeader) (hv : ¬h.Valid) (p : List UInt8) :
    ∃ d, (getQpepHeader.run fullReader (h.toBytes ++ p)).1 = .ok d ∧ d.Valid ∧ ¬d.Same h := by
  obtain ⟨rest, hne, hbytes⟩ := toBytes_eq h
  have hne' : rest ++ p ≠ [] := by simp [hne]
  rw [hbytes, List.cons_append, List.cons_append, getQpepHeader_long _ _ hne']
  have hd := decodeRest_valid (List.length_take_le (restLength (getNetworkTypeFromAddr h.sourceAddr)
    (getNetworkTypeFromAddr h.destAddr)) (rest ++ p))
  refine ⟨_, rfl, hd, fun hs => hv ?_⟩
  exact ⟨valid_of_same hd.1 hs.1, valid_of_same hd.2 hs.2⟩

/-- A source without an address. -/
def nilHeader : QpepHeader where
  sourceAddr := ⟨[], 0⟩
  destAddr := ⟨[93, 184, 216, 34], 80⟩

/-- A destination port of 17 bits. -/
def widePortHeader : QpepHeader where
  sourceAddr := ⟨[10, 0, 0, 7], 50000⟩
  destAddr := ⟨[93, 184, 216, 34], 65616⟩

/-- A header without a source address is mistaken for another one. -/
theorem unencodable_mistaken_nil : ∃ d, (getQpepHeader.run fullReader (nilHeader.toBytes ++ [1, 2, 3])).1 = .ok d ∧ d.Valid ∧
    ¬d.Same nilHeader :=
  unencodable_mistaken nilHeader (by decide) [1, 2, 3]

/-- Sixteen bytes are read as the missing source address, of the destination and of the payload, and port 65616 becomes port
80. -/
theorem unencodable_accepted :
    ¬nilHeader.Valid ∧ ¬widePortHeader.Valid ∧
    (getQpepHeader.run fullReader (nilHeader.toBytes ++ [11, 12, 13, 14, 15, 16, 17, 18, 19, 20, 21, 22, 23, 24, 25, 26])).1 =
      .ok ⟨⟨[0, 0, 93, 184, 216, 34, 80, 0, 11, 12, 13, 14, 15, 16, 17, 18], 5139⟩, ⟨[21, 22, 23, 24], 6681⟩⟩ ∧
    (getQpepHeader.run fullReader widePortHeader.toBytes).1 = .ok ⟨⟨[10, 0, 0, 7], 50000⟩, ⟨[93, 184, 216, 34], 80⟩⟩ :=
  ⟨by decide, by decide, by rfl, by rfl⟩

/-! ## The canonical form -/

/-- Both type bytes are `0x04` or `0x06`, and no address of sixteen bytes is an IPv4 one behind its prefix. -/
def CanonicalBytes : List UInt8 → Prop
  | t0 :: t1 :: rest =>
    (t0 = 0x04 ∨ t0 = 0x06) ∧ (t1 = 0x04 ∨ t1 = 0x06) ∧ (t0 ≠ 0x04 → rest.take 12 ≠ v4InV6Prefix) ∧
      (t1 ≠ 0x04 → (rest.drop (ipLength t0 + 2)).take 12 ≠ v4InV6Prefix)
  | _ => False

/-- The bytes are as long as `GetHeaderLength` says. -/
def WholeHeader (b : List UInt8) : Prop := getHeaderLength b = some b.length

instance : DecidablePred CanonicalBytes
  | t0 :: t1 :: rest => inferInstanceAs (Decidable (_ ∧ _ ∧ (t0 ≠ 0x04 → rest.take 12 ≠ v4InV6Prefix) ∧ (t1 ≠ 0x04 → _)))
  | [] => isFalse id
  | [_] => isFalse id

instance : DecidablePred WholeHeader := fun b => inferInstanceAs (Decidable (getHeaderLength b = some b.length))

namespace HeaderAux

/-- Two bytes are what `portToBytes` makes of the number they are read as. -/
theorem portToBytes_uint16 {p : List UInt8} (h : p.length = 2) : portToBytes (uint16 p) = p := by
  obtain ⟨b0, b1, rfl⟩ : ∃ b0 b1, p = [b0, b1] := by
    match p, h with
    | [b0, b1], _ => exact ⟨b0, b1, rfl⟩
  have h0 := UInt8.toNat_lt b0
  have h1 := UInt8.toNat_lt b1
  have hv : (uint16 [b0, b1] % 65536).toNat = b0.toNat + 256 * b1.toNat := by
    simp only [uint16]
    omega
  have hlow : UInt8.ofNat (b0.toNat + 256 * b1.toNat) = b0 := by
    apply UInt8.toNat_inj.mp
    rw [UInt8.toNat_ofNat']
    omega
  have hhigh : UInt8.ofNat ((b0.toNat + 256 * b1.toNat) / 256) = b1 := by
    apply UInt8.toNat_inj.mp
    rw [UInt8.toNat_ofNat']
    omega
  simp only [portToBytes, hv, hlow, hhigh]

/-- A list cut into four fields, the second and the last of two items. -/
theorem exists_fields {xs : List UInt8} {n m : Nat} (h : xs.length = n + 2 + m + 2) :
    ∃ a p c q, xs = a ++ p ++ c ++ q ∧ a.length = n ∧ p.length = 2 ∧ c.length = m ∧ q.length = 2 := by
  refine ⟨xs.take n, (xs.drop n).take 2, ((xs.drop n).drop 2).take m, ((xs.drop n).drop 2).drop m, ?_, ?_, ?_, ?_, ?_⟩
  · rw [List.append_assoc, List.take_append_drop, List.append_assoc, List.take_append_drop, List.take_append_drop]
  all_goals
    simp only [List.length_take, List.length_drop]
    omega

/-- An address of the length that its type byte stands for is written with this type byte exactly if it is in canonical form. -/
theorem networkType_eq_iff {t : UInt8} {a : TCPAddr} (ha : a.ip.length = ipLength t) :
    getNetworkTypeFromAddr a = t ↔ (t = 0x04 ∨ t = 0x06) ∧ (t ≠ 0x04 → a.ip.take 12 ≠ v4InV6Prefix) := by
  rcases ipLength_cases t with ⟨rfl, hlen⟩ | ⟨ht, hlen⟩
  · have h4 := IP.to4_of_length_four (ha.trans hlen)
    simp [getNetworkTypeFromAddr, h4]
  · have hl : a.ip.length = IPv6len := ha.trans hlen
    by_cases hmap : a.ip.take 12 = v4InV6Prefix
    · have h4 : a.ip.to4 ≠ none := fun h => (IP.to4_eq_none hl).mp h hmap
      simp [getNetworkTypeFromAddr, h4, hmap, ht, ht.symm]
    · have h4 : a.ip.to4 = none := (IP.to4_eq_none hl).mpr hmap
      simp [getNetworkTypeFromAddr, h4, IP.to16_of_length_sixteen hl, hmap, ht, eq_comm]

/-- An address of the length that its type byte stands for is its own canonical form, if it is written with this type byte. -/
theorem canonical_eq_self {t : UInt8} {a : TCPAddr} (ha : a.ip.length = ipLength t) (h : getNetworkTypeFromAddr a = t) :
    a.canonical = a := by
  rcases ipLength_cases t with ⟨rfl, hlen⟩ | ⟨ht, hlen⟩
  · simp [TCPAddr.canonical, IP.to4_of_length_four (ha.trans hlen)]
  · have h4 : a.ip.to4 = none := by
      by_cases h4 : a.ip.to4 = none
      · exact h4
      · exact absurd (by simpa [getNetworkTypeFromAddr, h4] using h.symm) ht
    simp [TCPAddr.canonical, h4]

/-- The canonical form of an address is written with the same type byte. -/
theorem canonical_networkType {a : TCPAddr} (h : a.Valid) :
    getNetworkTypeFromAddr ⟨a.canonical.ip, a.port⟩ = getNetworkTypeFromAddr a := by
  rcases networkType_valid h with ⟨ht, h4⟩ | ⟨ht, h4⟩
  · obtain ⟨x, hx⟩ := Option.ne_none_iff_exists'.mp h4
    have hx4 := IP.to4_of_length_four (IP.length_of_to4 hx)
    simp [TCPAddr.canonical, hx, getNetworkTypeFromAddr, hx4]
  · simp [TCPAddr.canonical, h4, getNetworkTypeFromAddr]

section Fields

variable {t0 t1 : UInt8} {a p c q : List UInt8} (ha : a.length = ipLength t0) (hp : p.length = 2)
  (hc : c.length = ipLength t1) (hq : q.length = 2)

include ha hp hc

/-- The fields are in canonical form exactly if the encoder writes their type bytes. -/
theorem canonicalBytes_fields_iff :
    CanonicalBytes (t0 :: t1 :: (a ++ p ++ c ++ q)) ↔
      getNetworkTypeFromAddr ⟨a, uint16 p⟩ = t0 ∧ getNetworkTypeFromAddr ⟨c, uint16 q⟩ = t1 := by
  have hdrop : (a ++ p ++ c ++ q).drop (ipLength t0 + 2) = c ++ q := by
    rw [List.append_assoc (a ++ p), List.drop_left' (by rw [List.length_append, ha, hp])]
  have hsource : t0 ≠ 0x04 → (a ++ p ++ c ++ q).take 12 = a.take 12 := by
    intro ht
    rw [List.append_assoc, List.append_assoc, List.take_append_of_le_length (by rw [ha, ipLength_of_ne ht]; decide)]
  have hdest : t1 ≠ 0x04 → (c ++ q).take 12 = c.take 12 := fun ht =>
    List.take_append_of_le_length (by rw [hc, ipLength_of_ne ht]; decide)
  rw [networkType_eq_iff (a := ⟨a, uint16 p⟩) ha, networkType_eq_iff (a := ⟨c, uint16 q⟩) hc]
  simp only [CanonicalBytes, hdrop]
  constructor
  · rintro ⟨h0, h1, hs, hd⟩
    exact ⟨⟨h0, fun ht => hsource ht ▸ hs ht⟩, ⟨h1, fun ht => hdest ht ▸ hd ht⟩⟩
  · rintro ⟨⟨h0, hs⟩, ⟨h1, hd⟩⟩
    exact ⟨h0, h1, fun ht => (hsource ht).symm ▸ hs ht, fun ht => (hdest ht).symm ▸ hd ht⟩

include hq

/-- The header that the fields are decoded to. -/
theorem getQpepHeader_fields :
    getQpepHeader.run fullReader (t0 :: t1 :: (a ++ p ++ c ++ q)) = (.ok ⟨⟨a, uint16 p⟩, ⟨c, uint16 q⟩⟩, []) := by
  have hlen : (a ++ p ++ c ++ q).length = restLength t0 t1 := by
    simp only [List.length_append, ha, hp, hc, hq, restLength]
  have hne : a ++ p ++ c ++ q ≠ [] := by
    intro he
    rw [he] at hlen
    simp [restLength] at hlen
  rw [getQpepHeader_long t0 t1 hne, List.take_of_length_le (Nat.le_of_eq hlen), List.drop_of_length_le (Nat.le_of_eq hlen)]
  rw [decodeRest, fill_full hlen, restLength, headerOf_append ha hp hc hq]

/-- The header that the fields are decoded to has valid addresses. -/
theorem fields_valid : (⟨⟨a, uint16 p⟩, ⟨c, uint16 q⟩⟩ : QpepHeader).Valid := by
  have hlen : (a ++ p ++ c ++ q).length = restLength t0 t1 := by
    simp only [List.length_append, ha, hp, hc, hq, restLength]
  have hv := decodeRest_valid (Nat.le_of_eq hlen)
  rwa [decodeRest, fill_full hlen, restLength, headerOf_append ha hp hc hq] at hv

/-- Encoding the fields gives them back exactly if the encoder writes their type bytes. -/
theorem toBytes_fields_iff :
    (⟨⟨a, uint16 p⟩, ⟨c, uint16 q⟩⟩ : QpepHeader).toBytes = t0 :: t1 :: (a ++ p ++ c ++ q) ↔
      getNetworkTypeFromAddr ⟨a, uint16 p⟩ = t0 ∧ getNetworkTypeFromAddr ⟨c, uint16 q⟩ = t1 := by
  rw [toBytes_valid (fields_valid ha hp hc hq), List.cons_append, List.cons_append, List.nil_append]
  simp only [QpepHeader.canonical, portToBytes_uint16 hp, portToBytes_uint16 hq, List.cons.injEq]
  constructor
  · rintro ⟨h0, h1, -⟩
    exact ⟨h0, h1⟩
  · rintro ⟨h0, h1⟩
    have hs := canonical_eq_self (a := ⟨a, uint16 p⟩) ha h0
    have hd := canonical_eq_self (a := ⟨c, uint16 q⟩) hc h1
    rw [hs, hd]
    exact ⟨h0, h1, rfl⟩

end Fields

/-- Bytes of the right length are two type bytes and four fields. -/
theorem fields_of_whole {b : List UInt8} (h : WholeHeader b) :
    ∃ t0 t1 a p c q, b = t0 :: t1 :: (a ++ p ++ c ++ q) ∧ a.length = ipLength t0 ∧ p.length = 2 ∧ c.length = ipLength t1 ∧
      q.length = 2 := by
  obtain ⟨t0, t1, rest, rfl, hlen⟩ := bytes_of_getHeaderLength h
  have hrest : rest.length = ipLength t0 + 2 + ipLength t1 + 2 := by
    simp only [List.length_cons, restLength] at hlen
    omega
  obtain ⟨a, p, c, q, rfl, ha, hp, hc, hq⟩ := exists_fields hrest
  exact ⟨t0, t1, a, p, c, q, rfl, ha, hp, hc, hq⟩

/-- What the encoder writes for a valid header is whole and in canonical form. -/
theorem canonical_toBytes {h : QpepHeader} (hv : h.Valid) : WholeHeader h.toBytes ∧ CanonicalBytes h.toBytes := by
  have hwhole : WholeHeader h.toBytes := by
    have hlen := getHeaderLength_toBytes h []
    rw [List.append_nil] at hlen
    rw [WholeHeader, hlen, toBytes_length hv]
  refine ⟨hwhole, ?_⟩
  have hsrc := canonical_length hv.1
  have hdst := canonical_length hv.2
  have hports := And.intro (uint16_portToBytes hv.1.2.1 hv.1.2.2) (uint16_portToBytes hv.2.2.1 hv.2.2.2)
  rw [toBytes_valid hv, List.cons_append, List.cons_append, List.nil_append]
  unfold QpepHeader.canonical
  rw [canonicalBytes_fields_iff hsrc (portToBytes_length _) hdst, hports.1, hports.2]
  exact ⟨canonical_networkType hv.1, canonical_networkType hv.2⟩

/-- Bytes of the right length are decoded to a valid header, none is left over, and they are what this header is encoded to
exactly if they are in canonical form. -/
theorem decode_whole {b : List UInt8} (h : WholeHeader b) :
    ∃ d, getQpepHeader.run fullReader b = (.ok d, []) ∧ d.Valid ∧ (d.toBytes = b ↔ CanonicalBytes b) := by
  obtain ⟨t0, t1, a, p, c, q, rfl, ha, hp, hc, hq⟩ := fields_of_whole h
  refine ⟨⟨⟨a, uint16 p⟩, ⟨c, uint16 q⟩⟩, getQpepHeader_fields ha hp hc hq, fields_valid ha hp hc hq, ?_⟩
  rw [toBytes_fields_iff ha hp hc hq, canonicalBytes_fields_iff ha hp hc]

/-- A valid header is encoded to bytes that are decoded to the same endpoints, and none is left over. -/
theorem decode_toBytes {h : QpepHeader} (hv : h.Valid) :
    ∃ d, getQpepHeader.run fullReader h.toBytes = (.ok d, []) ∧ d.Same h := by
  have hrun := getQpepHeader_full hv []
  rw [List.append_nil] at hrun
  exact ⟨h.canonical, hrun, h.canonical_same⟩

end HeaderAux

/-- Bytes as long as `GetHeaderLength` says, read with Reads that fill their buffers, are always decoded to a header.
Encoding this header gives the bytes back exactly if they are in canonical form, and the bytes in canonical form are exactly
what the encoder writes for valid headers. All other bytes are re-encoded to a different byte string, one in canonical form
that is decoded to the same endpoints. -/
theorem canonical_wire_form :
    (∀ b, WholeHeader b →
      ∃ d, getQpepHeader.run fullReader b = (.ok d, []) ∧ (d.toBytes = b ↔ CanonicalBytes b) ∧
        (¬CanonicalBytes b → d.toBytes ≠ b ∧ WholeHeader d.toBytes ∧ CanonicalBytes d.toBytes ∧
          ∃ d', getQpepHeader.run fullReader d.toBytes = (.ok d', []) ∧ d'.Same d)) ∧
    (∀ b, WholeHeader b ∧ CanonicalBytes b ↔ ∃ h : QpepHeader, h.Valid ∧ h.toBytes = b) := by
  refine ⟨?_, fun b => ⟨?_, ?_⟩⟩
  · intro b hb
    obtain ⟨d, hrun, hv, hiff⟩ := decode_whole hb
    obtain ⟨hwhole, hcanon⟩ := canonical_toBytes hv
    refine ⟨d, hrun, hiff, fun hn => ⟨fun he => hn (hiff.mp he), hwhole, hcanon, decode_toBytes hv⟩⟩
  · rintro ⟨hb, hc⟩
    obtain ⟨d, -, hv, hiff⟩ := decode_whole hb
    exact ⟨d, hv, hiff.mpr hc⟩
  · rintro ⟨h, hv, rfl⟩
    exact canonical_toBytes hv

/-- A header whose source is an IPv4 address written in sixteen bytes: as long as its type bytes say, and not in canonical
form. -/
def mappedBytes : List UInt8 := 0x06 :: 0x04 :: (v4InV6Prefix ++ [10, 0, 0, 7] ++ [80, 195] ++ [93, 184, 216, 34] ++ [80, 0])

/-- The mapped source is re-encoded in four bytes. -/
theorem canonical_wire_form_mapped :
    (∃ d, getQpepHeader.run fullReader mappedBytes = (.ok d, []) ∧ (d.toBytes = mappedBytes ↔ CanonicalBytes mappedBytes) ∧
      (¬CanonicalBytes mappedBytes → d.toBytes ≠ mappedBytes ∧ WholeHeader d.toBytes ∧ CanonicalBytes d.toBytes ∧
        ∃ d', getQpepHeader.run fullReader d.toBytes = (.ok d', []) ∧ d'.Same d)) ∧
    ¬CanonicalBytes mappedBytes ∧ WholeHeader webHeader.toBytes ∧ CanonicalBytes webHeader.toBytes :=
  ⟨canonical_wire_form.1 mappedBytes (by decide), by decide,
    (canonical_wire_form.2 webHeader.toBytes).mpr ⟨webHeader, by decide, rfl⟩⟩

end Qpep
