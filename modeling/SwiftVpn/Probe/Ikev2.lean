/-
  File:      SwiftVpn/Probe/Ikev2.lean
  Subject:   THE IKEV2 PROBE: ikev2 OF DelayProbe.kt, AND A DECODER THAT READS IT.

  * `ikev2Of` -- the datagram, with the length of the proposal as a parameter; `ikev2` writes 40;
  * `wellFormedOf_iff` -- every length is right and the decoder finds SA, KE and Ni exactly when that length
    is 44: the proposal has eight bytes of its own before the transforms, and four of them were counted;
  * `ikev2_malformed` -- so no datagram of the probe is well formed, whatever is random in it.
-/
import SwiftVpn.Lib.Ikev2

namespace SwiftVpn.DelayProbe

open Bytes Rfc7296

/-! ## 1. Byte utils -/

def u16 (v : UInt32) : List UInt8 := [(v >>> 8).toUInt8, v.toUInt8]

def u32 (v : UInt64) : List UInt8 :=
  [(v >>> 24).toUInt8, (v >>> 16).toUInt8, (v >>> 8).toUInt8, v.toUInt8]

def payloadHeader (next : UInt8) (bodyLen : Nat) : List UInt8 := [next, 0] ++ u16 (UInt32.ofNat (4 + bodyLen))

theorem u16_ofNat (v : Nat) : u16 (UInt32.ofNat v) = beBytes 2 v := by
  have hhigh : (UInt32.ofNat v >>> 8).toUInt8 = UInt8.ofNat (v / 256) := by
    apply UInt8.toNat_inj.1
    rw [UInt32.toNat_toUInt8, UInt32.toNat_shiftRight, UInt32.toNat_ofNat', UInt8.toNat_ofNat',
      Nat.shiftRight_eq_div_pow]
    show v % 2 ^ 32 / 2 ^ 8 % 2 ^ 8 = _
    omega
  have hlow : (UInt32.ofNat v).toUInt8 = UInt8.ofNat v := by
    apply UInt8.toNat_inj.1
    rw [UInt32.toNat_toUInt8, UInt32.toNat_ofNat', UInt8.toNat_ofNat']
    omega
  rw [u16, hhigh, hlow, beBytes_two]

theorem byte_of_shift (v s : UInt64) {k : Nat} (hs : s.toNat = 8 * k) (hk : k < 8) :
    (v >>> s).toUInt8 = UInt8.ofNat (v.toNat / 2 ^ (8 * k)) := by
  apply UInt8.toNat_inj.1
  rw [UInt64.toNat_toUInt8, UInt64.toNat_shiftRight, UInt8.toNat_ofNat', Nat.shiftRight_eq_div_pow, hs,
    Nat.mod_eq_of_lt (by omega : 8 * k < 64)]

theorem u32_eq (v : UInt64) : u32 v = beBytes 4 v.toNat := by
  have hlow : v.toUInt8 = UInt8.ofNat v.toNat := by
    apply UInt8.toNat_inj.1
    rw [UInt64.toNat_toUInt8, UInt8.toNat_ofNat']
  have hbytes : beBytes 4 v.toNat = [UInt8.ofNat (v.toNat / 256 / 256 / 256), UInt8.ofNat (v.toNat / 256 / 256),
      UInt8.ofNat (v.toNat / 256), UInt8.ofNat v.toNat] := rfl
  rw [hbytes, Nat.div_div_eq_div_mul (v.toNat / 256), Nat.div_div_eq_div_mul, Nat.div_div_eq_div_mul, u32, hlow,
    byte_of_shift v 24 (k := 3) rfl (by decide), byte_of_shift v 16 (k := 2) rfl (by decide),
    byte_of_shift v 8 (k := 1) rfl (by decide)]
  rfl

/-- A payload with its header is a layer. -/
theorem payloadHeader_append (next : UInt8) (body : List UInt8) :
    payloadHeader next body.length ++ body = layer next body := by
  rw [payloadHeader, u16_ofNat]
  rfl

/-! ## 2. The datagram -/

/-- AES-CBC with the attribute of a key of 256 bits. -/
def encr : List UInt8 := [3, 0] ++ u16 12 ++ [1, 0] ++ u16 12 ++ u16 (0x8000 ||| 14) ++ u16 256

/-- PRF-HMAC-SHA2-256. -/
def prf : List UInt8 := [3, 0] ++ u16 8 ++ [2, 0] ++ u16 5

/-- INTEG-HMAC-SHA2-256-128. -/
def integ : List UInt8 := [3, 0] ++ u16 8 ++ [3, 0] ++ u16 12

/-- MODP-2048, the last one. -/
def dh : List UInt8 := [0, 0] ++ u16 8 ++ [4, 0] ++ u16 14

/-- The proposal, with a length. -/
def proposalOf (length : UInt32) : List UInt8 :=
  [0, 0] ++ u16 length ++ [1, 1, 0, 4] ++ encr ++ prf ++ integ ++ dh

def proposal : List UInt8 := proposalOf (4 + 12 + 8 + 8 + 8)

def keBody (keData : List UInt8) : List UInt8 := u16 14 ++ [0, 0] ++ keData

def saOf (length : UInt32) : List UInt8 := payloadHeader 34 (proposalOf length).length ++ proposalOf length

def ke (keData : List UInt8) : List UInt8 := payloadHeader 40 (keBody keData).length ++ keBody keData

def ni (nonce : List UInt8) : List UInt8 := payloadHeader 0 nonce.length ++ nonce

/-- The datagram, with the length of the proposal. -/
def ikev2Of (length : UInt32) (spii nonce keData : List UInt8) : List UInt8 :=
  let body := saOf length ++ ke keData ++ ni nonce
  let header := spii ++ List.replicate 8 0 ++ [33, 0x20, 34, 0x08] ++ u32 0 ++ u32 (UInt64.ofNat (28 + body.length))
  header ++ body

/-- `ikev2`, up to the datagram: what it is given is random. -/
def ikev2 (spii nonce keData : List UInt8) : List UInt8 := ikev2Of (4 + 12 + 8 + 8 + 8) spii nonce keData

/-! ## 3. What a decoder reads -/

/-- Every length field counts the bytes it covers. -/
structure LengthsExact (length : UInt32) (spii nonce keData : List UInt8) : Prop where
  header : be ((ikev2Of length spii nonce keData).drop 24 |>.take 4) = (ikev2Of length spii nonce keData).length
  sa : Exact (saOf length)
  proposal : Exact (proposalOf length)
  transforms : ∀ t ∈ [encr, prf, integ, dh], Exact t
  ke : Exact (ke keData)
  ni : Exact (ni nonce)

/-- The lengths are right, and a decoder that goes by them finds SA, KE and Ni, and nothing else. -/
structure WellFormedOf (length : UInt32) (spii nonce keData : List UInt8) : Prop where
  lengths : LengthsExact length spii nonce keData
  decoded : ∃ m proposals keBody niBody, decode (ikev2Of length spii nonce keData) = some m ∧
    m.payloads = [.sa proposals, .other 34 keBody, .other 40 niBody]

/-- The sizes of what is random. -/
structure Sizes (spii nonce keData : List UInt8) : Prop where
  spii : spii.length = 8
  nonce : nonce.length = 32
  keData : keData.length = 256

/-- What the datagram lays out, as raw payloads. -/
def rawPayloads (length : UInt32) (nonce keData : List UInt8) : List RawPayload :=
  [(typeSa, proposalOf length), (34, keBody keData), (40, nonce)]

section Layout

variable {spii nonce keData : List UInt8} (h : Sizes spii nonce keData)

include h

omit h in
theorem length_proposalOf (length : UInt32) : (proposalOf length).length = 44 := rfl

theorem length_keBody : (keBody keData).length = 260 := by
  rw [keBody, List.length_append, h.keData]
  rfl

theorem fits_rawPayloads (length : UInt32) : ∀ p ∈ rawPayloads length nonce keData, p.1 ≠ 0 ∧ Fits p.2 := by
  intro p hp
  simp only [rawPayloads, List.mem_cons, List.not_mem_nil, or_false] at hp
  unfold Fits
  rcases hp with rfl | rfl | rfl
  · refine ⟨show typeSa ≠ 0 by decide, ?_⟩
    rw [length_proposalOf]
    decide
  · refine ⟨show (34 : UInt8) ≠ 0 by decide, ?_⟩
    rw [length_keBody h]
    decide
  · refine ⟨show (40 : UInt8) ≠ 0 by decide, ?_⟩
    rw [h.nonce]
    decide

theorem length_payloads (length : UInt32) : (payloads (rawPayloads length nonce keData)).length = 348 := by
  show (layer 34 (proposalOf length) ++ (layer 40 (keBody keData) ++ (layer 0 nonce ++ []))).length = _
  rw [List.length_append, List.length_append, List.length_append, length_layer, length_layer, length_layer, h.nonce,
    length_keBody h, length_proposalOf]
  rfl

theorem ikev2Of_eq (length : UInt32) :
    ikev2Of length spii nonce keData
      = message spii (List.replicate 8 0) 33 0x20 34 0x08 0 (payloads (rawPayloads length nonce keData)) := by
  have hbody : saOf length ++ ke keData ++ ni nonce = payloads (rawPayloads length nonce keData) := by
    rw [saOf, ke, ni, payloadHeader_append, payloadHeader_append, payloadHeader_append, List.append_assoc]
    show _ = layer 34 (proposalOf length) ++ (layer 40 (keBody keData) ++ (layer 0 nonce ++ []))
    rw [List.append_nil]
  have hlength : (UInt64.ofNat (28 + (payloads (rawPayloads length nonce keData)).length)).toNat
      = 28 + (payloads (rawPayloads length nonce keData)).length := by
    rw [length_payloads h]
    rfl
  unfold ikev2Of
  dsimp only
  rw [hbody, u32_eq, u32_eq, hlength]
  rfl

/-- What the decoder makes of it depends on the proposal only. -/
theorem decode_ikev2Of (length : UInt32) :
    decode (ikev2Of length spii nonce keData)
      = ((rawPayloads length nonce keData).mapM readPayload).map fun ps =>
          ⟨spii, List.replicate 8 0, 0x20, 34, 0x08, 0, ps⟩ := by
  have hlength := length_payloads h length
  have hread := readPayloads_payloads (n := (payloads (rawPayloads length nonce keData)).length)
    (length_le_payloads _) (fits_rawPayloads h length)
  rw [ikev2Of_eq h, decode_message h.spii List.length_replicate (by decide) (by rw [hlength]; decide)]
  show Option.bind (readPayloads _ (firstType (rawPayloads length nonce keData)) _) _ = _
  rw [hread]
  rfl

omit h in
/-- The proposal has 44 bytes. -/
theorem exact_proposalOf_iff (length : UInt32) : Exact (proposalOf length) ↔ length.toNat % 2 ^ 16 = 44 := by
  have hbytes : u16 length = beBytes 2 length.toNat := by
    rw [← u16_ofNat, UInt32.ofNat_toNat]
  show be (u16 length) = 44 ↔ _
  rw [hbytes, be, beBytes, List.reverse_reverse, le_leBytes]
  rfl

/-- The layers around the proposal are right whatever its length says. -/
theorem lengthsExact_iff (length : UInt32) :
    LengthsExact length spii nonce keData ↔ length.toNat % 2 ^ 16 = 44 := by
  refine ⟨fun hl => (exact_proposalOf_iff length).1 hl.proposal, fun hl => ?_⟩
  have hfits := fits_rawPayloads h length
  refine ⟨?_, ?_, (exact_proposalOf_iff length).2 hl, ?_, ?_, ?_⟩
  · have hheader : (spii ++ List.replicate 8 0 ++ [33, 0x20, 34, 0x08] ++ beBytes 4 0).length = 24 := by
      simp only [List.length_append, h.spii, List.length_replicate, length_beBytes, List.length_cons, List.length_nil]
    rw [ikev2Of_eq h, message, List.append_assoc _ (beBytes 4 (28 + _)), List.drop_left' hheader,
      List.take_left' (length_beBytes 4 _), be_beBytes (by rw [length_payloads h]; decide)]
    simp only [List.length_append, h.spii, List.length_replicate, length_beBytes, List.length_cons, List.length_nil]
    omega
  · rw [saOf, payloadHeader_append]
    exact exact_layer (hfits (typeSa, proposalOf length) (by simp [rawPayloads])).2 _
  · simp only [List.mem_cons, List.not_mem_nil, or_false, forall_eq_or_imp, forall_eq]
    unfold Exact
    decide
  · rw [ke, payloadHeader_append]
    exact exact_layer (hfits (34, keBody keData) (by simp [rawPayloads])).2 _
  · rw [ni, payloadHeader_append]
    exact exact_layer (hfits (40, nonce) (by simp [rawPayloads])).2 _

end Layout

/-- What the proposal offers. -/
def offer : Proposal :=
  { number := 1
    protocol := 1
    spi := []
    transforms := [⟨1, 12, [0x80, 14, 1, 0]⟩, ⟨2, 5, []⟩, ⟨3, 12, []⟩, ⟨4, 14, []⟩] }

theorem offer_sound : offer.Sound where
  spi := by decide
  transforms := by decide
  count := by decide
  sound := by
    intro t ht
    have hall : ∀ t ∈ offer.transforms, t.id < 256 ^ 2 ∧ 4 + t.body.length < 256 ^ 2 := by decide
    exact ⟨(hall t ht).1, (hall t ht).2⟩
  fits := by
    unfold Fits
    decide

/-- The message that is meant. -/
def meant (spii nonce keData : List UInt8) : Message :=
  { spii := spii
    spir := List.replicate 8 0
    version := 0x20
    exchange := 34
    flags := 0x08
    messageId := 0
    payloads := [.sa [offer], .other 34 (keBody keData), .other 40 nonce] }

/-- With 44 for the length, the datagram is that message. -/
theorem ikev2Of_eq_encode {spii nonce keData : List UInt8} (h : Sizes spii nonce keData) {length : UInt32}
    (hl : length.toNat % 2 ^ 16 = 44) : ikev2Of length spii nonce keData = encode (meant spii nonce keData) := by
  have hbytes : u16 length = u16 44 := by
    have h16 : ∀ v : UInt32, u16 v = beBytes 2 (v.toNat % 256 ^ 2) := by
      intro v
      rw [beBytes, leBytes_mod, ← beBytes, ← u16_ofNat, UInt32.ofNat_toNat]
    have hmod : length.toNat % 256 ^ 2 = 44 := hl
    rw [h16, h16, hmod]
    rfl
  have hproposal : proposalOf length = chain 2 [offer.body] := by
    unfold proposalOf
    rw [hbytes]
    decide
  rw [ikev2Of_eq h, rawPayloads, hproposal]
  rfl

theorem meant_sound {spii nonce keData : List UInt8} (h : Sizes spii nonce keData) :
    (meant spii nonce keData).Sound := by
  have hraw : (meant spii nonce keData).payloads.map Payload.raw = rawPayloads 44 nonce keData := by
    have hproposal : chain 2 [offer.body] = proposalOf 44 := by decide
    rw [rawPayloads, ← hproposal]
    rfl
  refine ⟨h.spii, List.length_replicate, by show 0 < 256 ^ 4; decide, fun p hp => ⟨?_, ?_⟩, ?_⟩
  · simp only [meant, List.mem_cons, List.not_mem_nil, or_false] at hp
    rcases hp with rfl | rfl | rfl
    · refine ⟨List.cons_ne_nil _ _, fun q hq => ?_⟩
      rw [List.mem_singleton.1 hq]
      exact offer_sound
    · exact ⟨by decide, by decide⟩
    · exact ⟨by decide, by decide⟩
  · have hmem : p.raw ∈ rawPayloads 44 nonce keData := by
      rw [← hraw]
      exact List.mem_map_of_mem hp
    exact (fits_rawPayloads h 44 _ hmem).2
  · rw [hraw, length_payloads h]
    decide

/-- **The length of the proposal decides.** -/
theorem wellFormedOf_iff {spii nonce keData : List UInt8} (h : Sizes spii nonce keData) (length : UInt32) :
    WellFormedOf length spii nonce keData ↔ length.toNat % 2 ^ 16 = 44 := by
  refine ⟨fun hw => (lengthsExact_iff h length).1 hw.lengths, fun hl => ⟨(lengthsExact_iff h length).2 hl, ?_⟩⟩
  refine ⟨meant spii nonce keData, [offer], keBody keData, nonce, ?_, rfl⟩
  rw [ikev2Of_eq_encode h hl, decode_encode (meant_sound h)]

/-! ## 4. The probe -/

/-- Four bytes of the proposal are left over: the last transform is cut off. -/
theorem decode_ikev2 {spii nonce keData : List UInt8} (h : Sizes spii nonce keData) :
    decode (ikev2 spii nonce keData) = none := by
  have hread : readPayload (typeSa, proposal) = none := by decide
  rw [ikev2, decode_ikev2Of h, rawPayloads]
  simp only [List.mapM_cons]
  rw [show proposalOf (4 + 12 + 8 + 8 + 8) = proposal from rfl, hread]
  rfl

/-- The property of the probe. -/
def WellFormed (spii nonce keData : List UInt8) : Prop := WellFormedOf (4 + 12 + 8 + 8 + 8) spii nonce keData

/-- **No datagram is well formed**: the proposal says 40 and has 44 bytes, and a decoder takes none of them. -/
theorem ikev2_malformed {spii nonce keData : List UInt8} (h : Sizes spii nonce keData) :
    ¬WellFormed spii nonce keData ∧ decode (ikev2 spii nonce keData) = none := by
  refine ⟨fun hw => ?_, decode_ikev2 h⟩
  exact absurd ((wellFormedOf_iff h _).1 hw) (by decide)

theorem sizes_zeros : Sizes (List.replicate 8 0) (List.replicate 32 0) (List.replicate 256 0) :=
  ⟨List.length_replicate, List.length_replicate, List.length_replicate⟩

theorem ikev2_malformed_zeros :
    ¬WellFormed (List.replicate 8 0) (List.replicate 32 0) (List.replicate 256 0) ∧
      decode (ikev2 (List.replicate 8 0) (List.replicate 32 0) (List.replicate 256 0)) = none :=
  ikev2_malformed sizes_zeros

theorem ikev2_proposal_short : ¬∀ spii nonce keData, Sizes spii nonce keData → WellFormed spii nonce keData := by
  intro hall
  have hw := hall _ _ _ sizes_zeros
  exact absurd ((wellFormedOf_iff sizes_zeros _).1 hw) (by decide)

end SwiftVpn.DelayProbe
