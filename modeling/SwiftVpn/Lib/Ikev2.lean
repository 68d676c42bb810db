/-
  File:      SwiftVpn/Lib/Ikev2.lean
  Subject:   RFC 7296: THE LAYOUT OF AN IKE MESSAGE, AND A DECODER THAT GOES BY ITS LENGTHS.

  * `layer`, `readLayer` -- what payloads, proposals and transforms have in common: a tag, a reserved byte
    and a length that counts both and itself;
  * `chain`, `readChain` -- proposals and transforms: the tag says whether one more follows;
  * `payloads`, `readPayloads` -- payloads: the tag says of which type the next one is;
  * `encode`, `decode` -- the message; **`decode_encode`** -- a decoder gets back what was laid out.
-/
import SwiftVpn.Lib.Bytes

namespace Rfc7296

open Bytes

/-! ## Numbers in network order -/

/-- The number that bytes stand for, the first one the most significant. -/
def be (bs : List UInt8) : Nat := le bs.reverse

/-- The last bytes of a number, the most significant first. -/
def beBytes (n v : Nat) : List UInt8 := (leBytes n v).reverse

theorem be_beBytes {n v : Nat} (h : v < 256 ^ n) : be (beBytes n v) = v := by
  rw [be, beBytes, List.reverse_reverse, le_leBytes, Nat.mod_eq_of_lt h]

@[simp] theorem length_beBytes (n v : Nat) : (beBytes n v).length = n := by
  rw [beBytes, List.length_reverse, length_leBytes]

theorem beBytes_two (v : Nat) : beBytes 2 v = [UInt8.ofNat (v / 256), UInt8.ofNat v] := rfl

/-- So many bytes, and the rest. -/
def cut (n : Nat) (bs : List UInt8) : Option (List UInt8 × List UInt8) :=
  if n ≤ bs.length then some (bs.take n, bs.drop n) else none

theorem cut_append {xs : List UInt8} {n : Nat} (h : xs.length = n) (ys : List UInt8) :
    cut n (xs ++ ys) = some (xs, ys) := by
  have hle : n ≤ (xs ++ ys).length := by
    rw [List.length_append]
    omega
  rw [cut, if_pos hle, List.take_left' h, List.drop_left' h]

/-! ## One layer -/

/-- A tag, a reserved byte, the length of all of it, and the body. -/
def layer (tag : UInt8) (body : List UInt8) : List UInt8 := tag :: 0 :: beBytes 2 (4 + body.length) ++ body

/-- The tag, the body that the length says, and what follows. -/
def readLayer : List UInt8 → Option (UInt8 × List UInt8 × List UInt8)
  | tag :: _ :: hi :: lo :: bs =>
    if be [hi, lo] < 4 then none else (cut (be [hi, lo] - 4) bs).map fun p => (tag, p.1, p.2)
  | _ => none

/-- A body whose length fits. -/
def Fits (body : List UInt8) : Prop := 4 + body.length < 256 ^ 2

theorem readLayer_layer {body : List UInt8} (h : Fits body) (tag : UInt8) (rest : List UInt8) :
    readLayer (layer tag body ++ rest) = some (tag, body, rest) := by
  have hlength : be [UInt8.ofNat ((4 + body.length) / 256), UInt8.ofNat (4 + body.length)] = 4 + body.length := by
    rw [← beBytes_two, be_beBytes h]
  rw [layer, beBytes_two]
  show (if be [_, _] < 4 then none else (cut (be [_, _] - 4) (body ++ rest)).map _) = _
  rw [hlength, if_neg (by omega), cut_append (by omega)]
  rfl

/-- The length of a layer counts all of it. -/
def Exact (bs : List UInt8) : Prop := be ((bs.drop 2).take 2) = bs.length

theorem exact_layer {body : List UInt8} (h : Fits body) (tag : UInt8) : Exact (layer tag body) := by
  rw [Exact, layer, beBytes_two]
  show be [_, _] = ([tag, 0] ++ [_, _] ++ body).length
  rw [← beBytes_two, be_beBytes h, List.length_append]
  rfl

/-! ## Layers one after the other -/

/-- Proposals or transforms: the last one is tagged with zero, the others with `more`. -/
def chain (more : UInt8) : List (List UInt8) → List UInt8
  | [] => []
  | [body] => layer 0 body
  | body :: bodies => layer more body ++ chain more bodies

def readChain (more : UInt8) : Nat → List UInt8 → Option (List (List UInt8))
  | 0, _ => none
  | n + 1, bs => do
    let (tag, body, rest) ← readLayer bs
    if tag = more then return body :: (← readChain more n rest)
    if tag = 0 ∧ rest = [] then return [body]
    none

theorem readChain_chain {more : UInt8} (hmore : more ≠ 0) :
    ∀ {n : Nat} {bodies : List (List UInt8)}, bodies ≠ [] → bodies.length ≤ n → (∀ b ∈ bodies, Fits b) →
      readChain more n (chain more bodies) = some bodies
  | 0, _ :: _, _, hn, _ => absurd hn (Nat.not_succ_le_zero _)
  | n + 1, [body], _, _, hfits => by
    have hread := readLayer_layer (hfits body List.mem_cons_self) 0 []
    rw [List.append_nil] at hread
    rw [chain, readChain, hread]
    simp [hmore.symm]
  | n + 1, body :: next :: bodies, _, hn, hfits => by
    have hread := readLayer_layer (hfits body List.mem_cons_self) more (chain more (next :: bodies))
    have ih := readChain_chain hmore (n := n) (List.cons_ne_nil next bodies) (Nat.le_of_succ_le_succ hn)
      fun b hb => hfits b (List.mem_cons_of_mem _ hb)
    rw [chain, readChain, hread]
    · simp [ih]
    · exact List.cons_ne_nil next bodies

/-- A payload: its type and its body. -/
abbrev RawPayload := UInt8 × List UInt8

/-- The type of the first payload, zero if there is none. -/
def firstType : List RawPayload → UInt8
  | [] => 0
  | p :: _ => p.1

def payloads : List RawPayload → List UInt8
  | [] => []
  | p :: ps => layer (firstType ps) p.2 ++ payloads ps

/-- `type` is the type of the next payload. -/
def readPayloads : Nat → UInt8 → List UInt8 → Option (List RawPayload)
  | 0, type, bs => if type = 0 ∧ bs = [] then some [] else none
  | n + 1, type, bs =>
    if type = 0 then if bs = [] then some [] else none
    else do
      let (next, body, rest) ← readLayer bs
      return (type, body) :: (← readPayloads n next rest)

theorem readPayloads_payloads {n : Nat} {ps : List RawPayload} (hn : ps.length ≤ n)
    (hps : ∀ p ∈ ps, p.1 ≠ 0 ∧ Fits p.2) : readPayloads n (firstType ps) (payloads ps) = some ps := by
  induction n generalizing ps with
  | zero =>
    obtain rfl := List.eq_nil_of_length_eq_zero (Nat.le_zero.1 hn)
    rfl
  | succ n ih =>
    cases ps with
    | nil => rfl
    | cons p ps =>
      obtain ⟨htype, hfits⟩ := hps p List.mem_cons_self
      have hps' := ih (Nat.le_of_succ_le_succ hn) fun q hq => hps q (List.mem_cons_of_mem _ hq)
      rw [firstType, payloads, readPayloads, if_neg htype, readLayer_layer hfits]
      simp [hps']

/-! ## The message -/

structure Transform where
  type : UInt8
  id : Nat
  attributes : List UInt8
  deriving DecidableEq, Repr

structure Proposal where
  number : UInt8
  protocol : UInt8
  spi : List UInt8
  transforms : List Transform
  deriving DecidableEq, Repr

/-- A payload with the proposals of a security association, or any other. -/
inductive Payload where
  | sa (proposals : List Proposal)
  | other (type : UInt8) (body : List UInt8)
  deriving DecidableEq, Repr

structure Message where
  spii : List UInt8
  spir : List UInt8
  version : UInt8
  exchange : UInt8
  flags : UInt8
  messageId : Nat
  payloads : List Payload
  deriving DecidableEq, Repr

def Transform.body (t : Transform) : List UInt8 := t.type :: 0 :: beBytes 2 t.id ++ t.attributes

def readTransform : List UInt8 → Option Transform
  | type :: _ :: hi :: lo :: attributes => some ⟨type, be [hi, lo], attributes⟩
  | _ => none

def Proposal.body (p : Proposal) : List UInt8 :=
  p.number :: p.protocol :: UInt8.ofNat p.spi.length :: UInt8.ofNat p.transforms.length ::
    p.spi ++ chain 3 (p.transforms.map Transform.body)

def readProposal : List UInt8 → Option Proposal
  | number :: protocol :: spiSize :: count :: bs => do
    let (spi, bs) ← cut spiSize.toNat bs
    let bodies ← readChain 3 bs.length bs
    if bodies.length ≠ count.toNat then none
    return ⟨number, protocol, spi, ← bodies.mapM readTransform⟩
  | _ => none

/-- The type of a security association. -/
def typeSa : UInt8 := 33

def Payload.raw : Payload → RawPayload
  | .sa proposals => (typeSa, chain 2 (proposals.map Proposal.body))
  | .other type body => (type, body)

def readPayload (p : RawPayload) : Option Payload :=
  if p.1 = typeSa then do
    let bodies ← readChain 2 p.2.length p.2
    return .sa (← bodies.mapM readProposal)
  else some (.other p.1 p.2)

/-- A message of which the header is given: its length counts all of it. -/
def message (spii spir : List UInt8) (first version exchange flags : UInt8) (messageId : Nat)
    (body : List UInt8) : List UInt8 :=
  spii ++ spir ++ [first, version, exchange, flags] ++ beBytes 4 messageId ++ beBytes 4 (28 + body.length) ++ body

def encode (m : Message) : List UInt8 :=
  message m.spii m.spir (firstType (m.payloads.map Payload.raw)) m.version m.exchange m.flags m.messageId
    (payloads (m.payloads.map Payload.raw))

/-- The decoder: each layer is as long as its length says, and nothing is left. -/
def decode (bs : List UInt8) : Option Message := do
  let (spii, bs') ← cut 8 bs
  let (spir, bs') ← cut 8 bs'
  let (types, bs') ← cut 4 bs'
  let (messageId, bs') ← cut 4 bs'
  let (length, body) ← cut 4 bs'
  if be length ≠ bs.length then none
  let raw ← readPayloads body.length (types.getD 0 0) body
  return ⟨spii, spir, types.getD 1 0, types.getD 2 0, types.getD 3 0, be messageId, ← raw.mapM readPayload⟩

/-! ## The round trip -/

theorem length_layer (tag : UInt8) (body : List UInt8) : (layer tag body).length = 4 + body.length := by
  rw [layer, List.length_append, List.length_cons, List.length_cons, length_beBytes]

theorem length_le_chain (more : UInt8) : ∀ bodies : List (List UInt8), bodies.length ≤ (chain more bodies).length
  | [] => le_rfl
  | [body] => by
    rw [chain, length_layer, List.length_singleton]
    omega
  | body :: next :: bodies => by
    have ih := length_le_chain more (next :: bodies)
    rw [chain, List.length_append, length_layer, List.length_cons]
    · omega
    · exact List.cons_ne_nil next bodies

theorem length_le_payloads (ps : List RawPayload) : ps.length ≤ (payloads ps).length := by
  induction ps with
  | nil => exact le_rfl
  | cons p ps ih =>
    rw [payloads, List.length_append, length_layer, List.length_cons]
    omega

theorem mapM_map {α β : Type} {f : α → β} {g : β → Option α} {xs : List α} (h : ∀ x ∈ xs, g (f x) = some x) :
    (xs.map f).mapM g = some xs := by
  induction xs with
  | nil => rfl
  | cons x xs ih =>
    have hxs := ih fun y hy => h y (List.mem_cons_of_mem _ hy)
    rw [List.map_cons, List.mapM_cons, h x List.mem_cons_self, hxs]
    rfl

/-- What fits in the fields of a transform. -/
structure Transform.Sound (t : Transform) : Prop where
  id : t.id < 256 ^ 2
  fits : Fits t.body

theorem readTransform_body {t : Transform} (h : t.Sound) : readTransform t.body = some t := by
  have hid : be [UInt8.ofNat (t.id / 256), UInt8.ofNat t.id] = t.id := by
    rw [← beBytes_two, be_beBytes h.id]
  rw [Transform.body, beBytes_two]
  show some (Transform.mk t.type (be [_, _]) t.attributes) = _
  rw [hid]

structure Proposal.Sound (p : Proposal) : Prop where
  spi : p.spi.length < 256
  transforms : p.transforms ≠ []
  count : p.transforms.length < 256
  sound : ∀ t ∈ p.transforms, t.Sound
  fits : Fits p.body

theorem fits_of_mem {α : Type} {f : α → List UInt8} {xs : List α} (h : ∀ x ∈ xs, Fits (f x)) :
    ∀ b ∈ xs.map f, Fits b := by
  intro b hb
  obtain ⟨x, hx, rfl⟩ := List.mem_map.1 hb
  exact h x hx

theorem toNat_ofNat {n : Nat} (h : n < 256) : (UInt8.ofNat n).toNat = n := by
  rw [UInt8.toNat_ofNat', Nat.mod_eq_of_lt h]

theorem readProposal_body {p : Proposal} (h : p.Sound) : readProposal p.body = some p := by
  have hchain : readChain 3 (chain 3 (p.transforms.map Transform.body)).length
      (chain 3 (p.transforms.map Transform.body)) = some (p.transforms.map Transform.body) :=
    readChain_chain (by decide) (mt List.map_eq_nil_iff.1 h.transforms) (length_le_chain 3 _)
      (fits_of_mem fun t ht => (h.sound t ht).fits)
  have hmap := mapM_map fun t ht => readTransform_body (h.sound t ht)
  rw [Proposal.body, List.cons_append, List.cons_append, List.cons_append, List.cons_append, readProposal,
    toNat_ofNat h.spi, cut_append rfl, toNat_ofNat h.count]
  simp only [Option.bind_eq_bind, Option.bind_some, hchain, List.length_map, ne_eq, not_true_eq_false, if_false,
    hmap]
  rfl

def Payload.Sound : Payload → Prop
  | .sa proposals => proposals ≠ [] ∧ ∀ p ∈ proposals, p.Sound
  | .other type _ => type ≠ 0 ∧ type ≠ typeSa

theorem readPayload_raw {p : Payload} (h : p.Sound) : readPayload p.raw = some p := by
  cases p with
  | other type body => rw [readPayload, Payload.raw, if_neg h.2]
  | sa proposals =>
    have hchain : readChain 2 (chain 2 (proposals.map Proposal.body)).length
        (chain 2 (proposals.map Proposal.body)) = some (proposals.map Proposal.body) :=
      readChain_chain (by decide) (mt List.map_eq_nil_iff.1 h.1) (length_le_chain 2 _)
        (fits_of_mem fun p hp => (h.2 p hp).fits)
    have hmap := mapM_map fun p hp => readProposal_body (h.2 p hp)
    rw [readPayload, Payload.raw, if_pos rfl]
    simp only [Option.bind_eq_bind, Option.bind_some, hchain, hmap]
    rfl

theorem raw_type_ne_zero {p : Payload} (h : p.Sound) : p.raw.1 ≠ 0 := by
  cases p with
  | sa proposals => exact (by decide : typeSa ≠ 0)
  | other type body => exact h.1

/-- What fits in the fields of a message. -/
structure Message.Sound (m : Message) : Prop where
  spii : m.spii.length = 8
  spir : m.spir.length = 8
  messageId : m.messageId < 256 ^ 4
  payloads : ∀ p ∈ m.payloads, p.Sound ∧ Fits p.raw.2
  length : 28 + (Rfc7296.payloads (m.payloads.map Payload.raw)).length < 256 ^ 4

/-- The header is read, whatever the body is. -/
theorem decode_message {spii spir : List UInt8} {messageId : Nat} {body : List UInt8} (hspii : spii.length = 8)
    (hspir : spir.length = 8) (hid : messageId < 256 ^ 4) (hlength : 28 + body.length < 256 ^ 4)
    (first version exchange flags : UInt8) :
    decode (message spii spir first version exchange flags messageId body)
      = (readPayloads body.length first body).bind fun raw =>
          (raw.mapM readPayload).map fun ps => ⟨spii, spir, version, exchange, flags, messageId, ps⟩ := by
  have htotal : (message spii spir first version exchange flags messageId body).length = 28 + body.length := by
    simp only [message, List.length_append, hspii, hspir, length_beBytes, List.length_cons, List.length_nil]
  unfold decode
  rw [htotal]
  simp only [message, List.append_assoc]
  rw [cut_append hspii]
  simp only [Option.bind_eq_bind, Option.bind_some, cut_append hspir]
  rw [cut_append (n := 4) rfl]
  simp only [Option.bind_some, cut_append (length_beBytes 4 _), be_beBytes hid, be_beBytes hlength, ne_eq,
    not_true_eq_false, if_false]
  show ((readPayloads body.length first body).bind _) = _
  cases readPayloads body.length first body with
  | none => rfl
  | some raw =>
    show Option.bind (raw.mapM readPayload) _ = Option.map _ (raw.mapM readPayload)
    cases raw.mapM readPayload <;> rfl

/-- **A decoder that goes by the lengths gets back what was laid out.** -/
theorem decode_encode {m : Message} (h : m.Sound) : decode (encode m) = some m := by
  have hraw : readPayloads (payloads (m.payloads.map Payload.raw)).length
      (firstType (m.payloads.map Payload.raw)) (payloads (m.payloads.map Payload.raw))
        = some (m.payloads.map Payload.raw) := by
    refine readPayloads_payloads (length_le_payloads _) fun p hp => ?_
    obtain ⟨q, hq, rfl⟩ := List.mem_map.1 hp
    exact ⟨raw_type_ne_zero (h.payloads q hq).1, (h.payloads q hq).2⟩
  rw [encode, decode_message h.spii h.spir h.messageId h.length, hraw, Option.bind_some,
    mapM_map fun p hp => readPayload_raw (h.payloads p hp).1]
  rfl

end Rfc7296
