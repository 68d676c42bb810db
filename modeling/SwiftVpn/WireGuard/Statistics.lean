/-
  File:      SwiftVpn/WireGuard/Statistics.lean
  Subject:   THE COUNTERS OF A TUNNEL: `getStatistics` of GoBackend.java, Statistics.java, and `fromHex` of
             Key.java.

  The core answers with lines `key=value`, the lines of a peer below its `public_key=`. The loop carries
  the key and three counters from line to line.

  * `Key.fromHex` -- without a branch on a digit, in the 32 bits of the source: it takes units beyond
    ASCII for digits; `fromHex_toHex`: what `toHex` writes is read back;
  * `Counting.next`, `getStatistics`, `totalRx`, `totalTx` -- the loop, and the totals, which wrap around;
  * `flush_lines` -- the loop is a loop over sections, each of which is counted by itself
    (`sectionStats`);
  * `reported` -- the last value that the lines of a peer have for a name, zero where it is no number;
  * `statistics_of_peers` -- every peer of the answer has its own counters, whatever else is in it.
-/
import SwiftVpn.WireGuard.HandOver

namespace SwiftVpn.Awg

/-! ## 1. Keys -/

/-- One digit of `fromHex`: what is collected in `ret`, and the value. -/
def hexStep (c : BitVec 32) : BitVec 32 × BitVec 32 :=
  let cNum := c ^^^ 48
  let cNum0 := ((cNum - 10) >>> 8) &&& 0xff
  let cAlpha := (c &&& ~~~32) - 55
  let cAlpha0 := (((cAlpha - 10) ^^^ (cAlpha - 16)) >>> 8) &&& 0xff
  (((cNum0 ||| cAlpha0) - 1) >>> 8, (cNum0 &&& cNum) ||| (cAlpha0 &&& cAlpha))

/-- The value of a unit that leaves `ret` as it is. -/
def hexValue (unit : Nat) : Option Nat :=
  let r := hexStep (BitVec.ofNat 32 unit)
  if r.1 = 0 then some r.2.toNat else none

/-- The loop of `fromHex`. -/
def hexBytes : List Nat → Option (List UInt8)
  | [] => some []
  | a :: b :: units => do
    let high ← hexValue a
    let low ← hexValue b
    let bytes ← hexBytes units
    return UInt8.ofNat (high * 16 ||| low) :: bytes
  | [_] => none

/-- `Key.fromHex`. -/
def Key.fromHex (s : List Char) : Option Key :=
  if (Text.toUtf16 s).length ≠ 64 then none else hexBytes (Text.toUtf16 s)

theorem hexValue_hexDigit : ∀ n < 16, hexValue (hexDigit n).toNat = some n := by decide

theorem units_hexDigit : ∀ n < 16, Text.unitsOf (hexDigit n) = [(hexDigit n).toNat] := by decide

theorem units_toHex (k : Key) : Text.toUtf16 k.toHex.toList
    = k.flatMap fun b => [(hexDigit (b.toNat / 16)).toNat, (hexDigit (b.toNat % 16)).toNat] := by
  unfold Key.toHex Text.toUtf16
  rw [String.toList_ofList, List.flatMap_assoc]
  refine List.flatMap_congr fun b _ => ?_
  have hb := b.toNat_lt
  rw [List.flatMap_cons, List.flatMap_cons, List.flatMap_nil, units_hexDigit _ (by omega),
    units_hexDigit _ (by omega)]
  rfl

theorem hexBytes_units (k : Key) : hexBytes
    (k.flatMap fun b => [(hexDigit (b.toNat / 16)).toNat, (hexDigit (b.toNat % 16)).toNat]) = some k := by
  have hor : ∀ high < 16, ∀ low < 16, high * 16 ||| low = high * 16 + low := by decide
  induction k with
  | nil => rfl
  | cons b k ih =>
    have hb := b.toNat_lt
    have hhigh : b.toNat / 16 < 16 := by omega
    have hlow : b.toNat % 16 < 16 := by omega
    have hbyte : b.toNat / 16 * 16 ||| b.toNat % 16 = b.toNat := by
      rw [hor _ hhigh _ hlow]
      omega
    rw [List.flatMap_cons, List.cons_append, List.cons_append, List.nil_append, hexBytes,
      hexValue_hexDigit _ hhigh, hexValue_hexDigit _ hlow, ih]
    simp only [Option.bind_eq_bind, Option.bind_some, hbyte, UInt8.ofNat_toNat]
    rfl

/-- **A key is read back from its digits.** -/
theorem fromHex_toHex {k : Key} (h : k.length = 32) : Key.fromHex k.toHex.toList = some k := by
  have hlength : ∀ bytes : List UInt8, (bytes.flatMap fun b =>
      [(hexDigit (b.toNat / 16)).toNat, (hexDigit (b.toNat % 16)).toNat]).length = 2 * bytes.length := by
    intro bytes
    induction bytes with
    | nil => rfl
    | cons b bytes ih =>
      rw [List.flatMap_cons, List.length_append, ih, List.length_cons]
      simp only [List.length_cons, List.length_nil]
      omega
  unfold Key.fromHex
  rw [units_toHex, hlength, h, if_neg (by decide), hexBytes_units]

/-! ## 2. The loop -/

structure PeerStats where
  rxBytes : Int
  txBytes : Int
  latestHandshakeEpochMillis : Int
  deriving DecidableEq, Repr

/-- The map, whose order nothing depends on: one entry for a key. -/
abbrev Statistics := List (Key × PeerStats)

/-- `add`. -/
def Statistics.add (stats : Statistics) (key : Key) (s : PeerStats) : Statistics :=
  if stats.any (·.1 == key) then stats.map fun e => if e.1 = key then (key, s) else e
  else stats ++ [(key, s)]

/-- A `Long`. -/
def wrap (n : Int) : Int := n.bmod (2 ^ 64)

/-- `totalRx`. -/
def totalRx (stats : Statistics) : Int := stats.foldl (fun rx e => wrap (rx + e.2.rxBytes)) 0

/-- `totalTx`. -/
def totalTx (stats : Statistics) : Int := stats.foldl (fun tx e => wrap (tx + e.2.txBytes)) 0

/-- `Long.parseLong`, of what is behind the name. -/
def parseLong (name : String) (line : List Char) : Option Int :=
  Text.parseInteger 64 10 (line.drop name.length)

/-- The line starts with the name and the sign. -/
def hasName (name : String) (line : List Char) : Bool := name.toList.isPrefixOf line

/-- The variables of the loop. -/
structure Counting where
  stats : Statistics := []
  key : Option Key := none
  rx : Int := 0
  tx : Int := 0
  latestHandshakeMSec : Int := 0

/-- The counters of the key, if there is one, in the map. -/
def Counting.flush (st : Counting) : Statistics :=
  match st.key with
  | some key => st.stats.add key ⟨st.rx, st.tx, st.latestHandshakeMSec⟩
  | none => st.stats

/-- One line of the loop. -/
def Counting.next (st : Counting) (line : List Char) : Counting :=
  if hasName "public_key=" line then
    { stats := st.flush, key := Key.fromHex (line.drop 11), rx := 0, tx := 0, latestHandshakeMSec := 0 }
  else if hasName "rx_bytes=" line then
    if st.key = none then st else { st with rx := (parseLong "rx_bytes=" line).getD 0 }
  else if hasName "tx_bytes=" line then
    if st.key = none then st else { st with tx := (parseLong "tx_bytes=" line).getD 0 }
  else if hasName "last_handshake_time_sec=" line then
    if st.key = none then st
    else
      match parseLong "last_handshake_time_sec=" line with
      | some n => { st with latestHandshakeMSec := wrap (st.latestHandshakeMSec + wrap (n * 1000)) }
      | none => { st with latestHandshakeMSec := 0 }
  else if hasName "last_handshake_time_nsec=" line then
    if st.key = none then st
    else
      match parseLong "last_handshake_time_nsec=" line with
      | some n => { st with latestHandshakeMSec := wrap (st.latestHandshakeMSec + n.tdiv 1000000) }
      | none => { st with latestHandshakeMSec := 0 }
  else st

/-- `split("\n")`: empty texts at the end are dropped. -/
def splitLines (config : String) : List (List Char) :=
  (config.toList.splitOnP (· == '\n')).rdropWhile (·.isEmpty)

/-- `getStatistics`, of what `awgGetConfig` gives. -/
def getStatistics (config : Option String) : Statistics :=
  match config with
  | none => []
  | some config => ((splitLines config).foldl Counting.next {}).flush

/-! ## 3. Peer by peer -/

/-- A line that starts a peer. -/
def isKeyLine (line : List Char) : Bool := hasName "public_key=" line

/-- A line of a peer whose key was read. -/
def PeerStats.next (s : PeerStats) (line : List Char) : PeerStats :=
  let st := Counting.next ⟨[], some [], s.rxBytes, s.txBytes, s.latestHandshakeEpochMillis⟩ line
  ⟨st.rx, st.tx, st.latestHandshakeMSec⟩

/-- The counters that the lines of a peer give. -/
def sectionStats (body : List (List Char)) : PeerStats := body.foldl PeerStats.next ⟨0, 0, 0⟩

/-- A peer whose key was not read is left out. -/
def Statistics.addSection (stats : Statistics) (s : List Char × List (List Char)) : Statistics :=
  match Key.fromHex (s.1.drop 11) with
  | some key => stats.add key (sectionStats s.2)
  | none => stats

/-- The lines below a key that was read. -/
theorem foldl_next_some {body : List (List Char)} (h : ∀ l ∈ body, isKeyLine l = false) (stats : Statistics)
    (key : Key) (s : PeerStats) :
    body.foldl Counting.next ⟨stats, some key, s.rxBytes, s.txBytes, s.latestHandshakeEpochMillis⟩
      = ⟨stats, some key, (body.foldl PeerStats.next s).rxBytes, (body.foldl PeerStats.next s).txBytes,
          (body.foldl PeerStats.next s).latestHandshakeEpochMillis⟩ := by
  induction body generalizing s with
  | nil => rfl
  | cons line body ih =>
    obtain ⟨hline, hbody⟩ := List.forall_mem_cons.1 h
    have hnext : Counting.next ⟨stats, some key, s.rxBytes, s.txBytes, s.latestHandshakeEpochMillis⟩ line
        = ⟨stats, some key, (s.next line).rxBytes, (s.next line).txBytes,
            (s.next line).latestHandshakeEpochMillis⟩ := by
      unfold isKeyLine at hline
      simp only [PeerStats.next, Counting.next, hline, Bool.false_eq_true, if_false, reduceCtorEq]
      split
      · rfl
      split
      · rfl
      split
      · split <;> rfl
      split
      · split <;> rfl
      · rfl
    rw [List.foldl_cons, hnext, ih hbody, List.foldl_cons]

/-- The lines below no key, or below one that was not read. -/
theorem foldl_next_none {body : List (List Char)} (h : ∀ l ∈ body, isKeyLine l = false) {st : Counting}
    (hst : st.key = none) : body.foldl Counting.next st = st := by
  induction body with
  | nil => rfl
  | cons line body ih =>
    obtain ⟨hline, hbody⟩ := List.forall_mem_cons.1 h
    have hnext : st.next line = st := by
      unfold isKeyLine at hline
      simp only [Counting.next, hline, hst, Bool.false_eq_true, if_false, if_true, ite_self]
    rw [List.foldl_cons, hnext, ih hbody]

/-- One peer. -/
theorem flush_section (st : Counting) {s : List Char × List (List Char)} (hheader : isKeyLine s.1 = true)
    (hbody : ∀ l ∈ s.2, isKeyLine l = false) :
    (s.2.foldl Counting.next (st.next s.1)).flush = st.flush.addSection s := by
  have hnext : st.next s.1 = ⟨st.flush, Key.fromHex (s.1.drop 11), 0, 0, 0⟩ := if_pos hheader
  rw [hnext]
  unfold Statistics.addSection
  cases hkey : Key.fromHex (s.1.drop 11) with
  | none => rw [foldl_next_none hbody rfl]; rfl
  | some key =>
    have hlines := foldl_next_some hbody st.flush key ⟨0, 0, 0⟩
    dsimp only at hlines
    rw [hlines]
    rfl

/-- An empty text is passed over. -/
theorem next_nil (st : Counting) : st.next [] = st := rfl

/-- So are those that `split` drops. -/
theorem foldl_splitLines (config : String) (st : Counting) :
    (splitLines config).foldl Counting.next st = (config.toList.splitOnP (· == '\n')).foldl Counting.next st := by
  unfold splitLines
  induction config.toList.splitOnP (· == '\n') using List.reverseRecOn generalizing st with
  | nil => rfl
  | append_singleton lines line ih =>
    rw [List.rdropWhile_concat]
    split
    next hempty =>
      have hnil : line = [] := List.isEmpty_iff.1 hempty
      rw [ih, List.foldl_concat, hnil, next_nil]
    next => rfl

/-- **The loop counts section by section.** -/
theorem flush_lines (lines : List (List Char)) : (lines.foldl Counting.next {}).flush
    = (Sections.cut isKeyLine lines).sections.foldl Statistics.addSection [] := by
  have hheaded := Sections.cut_headed isKeyLine lines
  have hloop : ∀ (secs : List (List Char × List (List Char))) (st : Counting),
      (∀ s ∈ secs, isKeyLine s.1 = true) → (∀ s ∈ secs, ∀ l ∈ s.2, isKeyLine l = false) →
      (secs.foldl (fun st s => s.2.foldl Counting.next (st.next s.1)) st).flush
        = secs.foldl Statistics.addSection st.flush := by
    intro secs
    induction secs with
    | nil => intro st _ _; rfl
    | cons s secs ih =>
      intro st hheader hbody
      obtain ⟨hs, hheader⟩ := List.forall_mem_cons.1 hheader
      obtain ⟨hb, hbody⟩ := List.forall_mem_cons.1 hbody
      rw [List.foldl_cons, List.foldl_cons, ih _ hheader hbody, flush_section st hs hb]
  conv_lhs => rw [← Sections.lines_cut isKeyLine lines]
  rw [Sections.foldl_lines, hloop _ _ hheaded.header hheaded.body, foldl_next_none hheaded.front rfl]
  rfl

/-! ## 4. The counters of a peer -/

/-- What the lines say behind the name: the last of them counts. -/
def reported (name : String) (body : List (List Char)) : Int :=
  (((body.filter (hasName name)).getLast?).bind (parseLong name)).getD 0

/-- The milliseconds that a line adds, if it is one of the handshake; `none` where it is no number. -/
def millis (line : List Char) : Option (Option Int) :=
  if hasName "last_handshake_time_sec=" line then
    some ((parseLong "last_handshake_time_sec=" line).map (· * 1000))
  else if hasName "last_handshake_time_nsec=" line then
    some ((parseLong "last_handshake_time_nsec=" line).map (·.tdiv 1000000))
  else none

/-- The time of the handshake: what is added behind the last line that is no number. -/
def handshake (body : List (List Char)) : Int :=
  wrap (((body.filterMap millis).reverse.takeWhile Option.isSome).map (·.getD 0)).sum

/-- No line has two of the names. -/
theorem hasName_unique {a b : String} {line : List Char} (ha : hasName a line = true)
    (hab : a.toList.isPrefixOf b.toList = false) (hba : b.toList.isPrefixOf a.toList = false) :
    hasName b line = false := by
  by_contra hb
  have ha' : a.toList <+: line := List.isPrefixOf_iff_prefix.1 ha
  have hb' : b.toList <+: line := List.isPrefixOf_iff_prefix.1 (eq_true_of_ne_false hb)
  rcases List.prefix_or_prefix_of_prefix ha' hb' with h | h
  · rw [← List.isPrefixOf_iff_prefix, hab] at h
    cases h
  · rw [← List.isPrefixOf_iff_prefix, hba] at h
    cases h

theorem reported_concat (name : String) (body : List (List Char)) (line : List Char) :
    reported name (body ++ [line])
      = if hasName name line then (parseLong name line).getD 0 else reported name body := by
  unfold reported
  rw [List.filter_append, List.filter_singleton]
  cases hasName name line with
  | true =>
    rw [cond_true, List.getLast?_concat, if_pos rfl]
    rfl
  | false => rw [cond_false, List.append_nil, if_neg Bool.false_ne_true]

theorem handshake_concat (body : List (List Char)) (line : List Char) :
    handshake (body ++ [line]) = (millis line).elim (handshake body) fun added =>
      added.elim 0 fun n => wrap (handshake body + wrap n) := by
  unfold handshake
  rw [List.filterMap_append, List.filterMap_cons, List.filterMap_nil]
  cases millis line with
  | none => rw [List.append_nil]; rfl
  | some added =>
    rw [List.reverse_append, List.reverse_singleton, List.singleton_append, List.takeWhile_cons]
    cases added with
    | none => rfl
    | some n =>
      dsimp only [Option.isSome_some, Option.elim_some]
      rw [if_pos rfl, List.map_cons, List.sum_cons, Option.getD_some]
      unfold wrap
      rw [Int.bmod_add_bmod, Int.add_bmod_bmod, Int.add_comm]

/-- **The counters of the loop are what the lines report.** -/
theorem sectionStats_eq {body : List (List Char)} (h : ∀ l ∈ body, isKeyLine l = false) :
    sectionStats body = ⟨reported "rx_bytes=" body, reported "tx_bytes=" body, handshake body⟩ := by
  induction body using List.reverseRecOn with
  | nil => rfl
  | append_singleton body line ih =>
    have hline : hasName "public_key=" line = false := h line (by simp)
    have hbody : ∀ l ∈ body, isKeyLine l = false := fun l hl => h l (List.mem_append_left _ hl)
    unfold sectionStats at ih ⊢
    rw [List.foldl_concat, ih hbody, reported_concat, reported_concat, handshake_concat]
    simp only [PeerStats.next, Counting.next, hline, millis, Bool.false_eq_true, if_false, reduceCtorEq]
    by_cases hrx : hasName "rx_bytes=" line
    · have htx := hasName_unique (b := "tx_bytes=") hrx (by decide) (by decide)
      have hsec := hasName_unique (b := "last_handshake_time_sec=") hrx (by decide) (by decide)
      have hnsec := hasName_unique (b := "last_handshake_time_nsec=") hrx (by decide) (by decide)
      simp only [hrx, htx, hsec, hnsec, if_true, Bool.false_eq_true, if_false, Option.elim_none]
    by_cases htx : hasName "tx_bytes=" line
    · have hsec := hasName_unique (b := "last_handshake_time_sec=") htx (by decide) (by decide)
      have hnsec := hasName_unique (b := "last_handshake_time_nsec=") htx (by decide) (by decide)
      simp only [hrx, htx, hsec, hnsec, if_true, if_false, Bool.false_eq_true, Option.elim_none]
    by_cases hsec : hasName "last_handshake_time_sec=" line
    · simp only [hrx, htx, hsec, if_true, if_false, Bool.false_eq_true, Option.elim_some]
      cases parseLong "last_handshake_time_sec=" line with
      | none => rfl
      | some n => rfl
    by_cases hnsec : hasName "last_handshake_time_nsec=" line
    · simp only [hrx, htx, hsec, hnsec, if_true, if_false, Bool.false_eq_true, Option.elim_some]
      cases parseLong "last_handshake_time_nsec=" line with
      | none => rfl
      | some n => exact congrArg (PeerStats.mk _ _) Int.add_bmod_bmod.symm
    simp only [hrx, htx, hsec, hnsec, if_false, Bool.false_eq_true, Option.elim_none]

/-! ## 5. The answer of the core -/

/-- A line that the core writes and that starts no peer. -/
structure Told (line : List Char) : Prop where
  oneLine : '\n' ∉ line
  keyless : isKeyLine line = false

instance (line : List Char) : Decidable (Told line) :=
  decidable_of_iff ('\n' ∉ line ∧ isKeyLine line = false) ⟨fun h => ⟨h.1, h.2⟩, fun h => ⟨h.oneLine, h.keyless⟩⟩

def keyLine (key : Key) : List Char := "public_key=".toList ++ key.toHex.toList

/-- The lines about the tunnel, then those of every peer below its key. -/
def answer (front : List (List Char)) (peers : List (Key × List (List Char))) : String :=
  String.ofList ((Sections.Document.lines ⟨front, peers.map fun p => (keyLine p.1, p.2)⟩).flatMap (· ++ ['\n']))

theorem splitOnP_flatMap {lines : List (List Char)} (h : ∀ l ∈ lines, '\n' ∉ l) :
    (lines.flatMap (· ++ ['\n'])).splitOnP (· == '\n') = lines ++ [[]] := by
  induction lines with
  | nil => rfl
  | cons line lines ih =>
    obtain ⟨hline, hlines⟩ := List.forall_mem_cons.1 h
    have hfree : ∀ c ∈ line, (c == '\n') = false := fun c hc =>
      beq_eq_false_iff_ne.2 fun e => hline (e ▸ hc)
    rw [List.flatMap_cons, List.append_assoc, List.singleton_append,
      List.splitOnP_append_cons_of_forall_mem (by simpa using hfree) '\n' (by decide), ih hlines,
      List.cons_append]

theorem newline_notMem_keyLine (key : Key) : '\n' ∉ keyLine key := by
  have hdigit : ∀ n < 16, hexDigit n ≠ '\n' := by decide
  unfold keyLine
  rw [List.mem_append, not_or]
  refine ⟨by decide, ?_⟩
  unfold Key.toHex
  rw [String.toList_ofList, List.mem_flatMap]
  rintro ⟨b, _, hc⟩
  have hb := b.toNat_lt
  rcases List.mem_cons.1 hc with hc | hc
  · exact hdigit _ (by omega) hc.symm
  · exact hdigit _ (by omega) (List.mem_singleton.1 hc).symm

theorem isKeyLine_keyLine (key : Key) : isKeyLine (keyLine key) = true :=
  List.isPrefixOf_iff_prefix.2 (List.prefix_append _ _)

theorem addSection_keyLine {stats : Statistics} {key : Key} {body : List (List Char)} (hkey : key.length = 32)
    (hnew : key ∉ stats.map (·.1)) :
    stats.addSection (keyLine key, body) = stats ++ [(key, sectionStats body)] := by
  have hdrop : (keyLine key).drop 11 = key.toHex.toList := @List.drop_left _ "public_key=".toList _
  have hany : stats.any (·.1 == key) = false := by
    rw [List.any_eq_false]
    exact fun e he heq => hnew (beq_iff_eq.1 heq ▸ List.mem_map_of_mem he)
  unfold Statistics.addSection
  rw [hdrop, fromHex_toHex hkey]
  dsimp only
  unfold Statistics.add
  rw [hany, if_neg Bool.false_ne_true]

/-- Distinct keys: an entry for each. -/
theorem foldl_addSection {peers : List (Key × List (List Char))} {stats : Statistics}
    (hkeys : ∀ p ∈ peers, p.1.length = 32) (hnodup : (stats.map (·.1) ++ peers.map (·.1)).Nodup) :
    (peers.map fun p => (keyLine p.1, p.2)).foldl Statistics.addSection stats
      = stats ++ peers.map fun p => (p.1, sectionStats p.2) := by
  induction peers generalizing stats with
  | nil => rw [List.map_nil, List.map_nil, List.foldl_nil, List.append_nil]
  | cons p peers ih =>
    obtain ⟨hp, hkeys⟩ := List.forall_mem_cons.1 hkeys
    have hnew : p.1 ∉ stats.map (·.1) := fun hm =>
      (List.nodup_append.1 hnodup).2.2 p.1 hm p.1 (by simp) rfl
    rw [List.map_cons, List.foldl_cons, addSection_keyLine hp hnew, ih hkeys, List.append_assoc, List.map_cons,
      List.singleton_append]
    simpa using hnodup

/-- **The counters of an answer.** -/
theorem getStatistics_answer {front : List (List Char)} {peers : List (Key × List (List Char))}
    (hfront : ∀ l ∈ front, Told l) (hlines : ∀ p ∈ peers, ∀ l ∈ p.2, Told l)
    (hkeys : ∀ p ∈ peers, p.1.length = 32) (hnodup : (peers.map (·.1)).Nodup) :
    getStatistics (some (answer front peers)) = peers.map fun p => (p.1, sectionStats p.2) := by
  let d : Sections.Document (List Char) := ⟨front, peers.map fun p => (keyLine p.1, p.2)⟩
  have hheaded : d.Headed isKeyLine := by
    refine ⟨fun l hl => (hfront l hl).keyless, ?_, ?_⟩
    · intro s hs
      obtain ⟨p, _, rfl⟩ := List.mem_map.1 hs
      exact isKeyLine_keyLine p.1
    · intro s hs l hl
      obtain ⟨p, hp, rfl⟩ := List.mem_map.1 hs
      exact (hlines p hp l hl).keyless
  have honeLine : ∀ l ∈ d.lines, '\n' ∉ l := by
    intro l hl
    rcases List.mem_append.1 hl with hl | hl
    · exact (hfront l hl).oneLine
    obtain ⟨s, hs, hl⟩ := List.mem_flatMap.1 hl
    obtain ⟨p, hp, rfl⟩ := List.mem_map.1 hs
    rcases List.mem_cons.1 hl with rfl | hl
    · exact newline_notMem_keyLine p.1
    · exact (hlines p hp l hl).oneLine
  have hsplit : (answer front peers).toList.splitOnP (· == '\n') = d.lines ++ [[]] := by
    unfold answer
    rw [String.toList_ofList]
    exact splitOnP_flatMap honeLine
  unfold getStatistics
  dsimp only
  rw [foldl_splitLines, hsplit, List.foldl_concat, next_nil, flush_lines, Sections.cut_lines hheaded]
  exact foldl_addSection hkeys hnodup

/-- A loop that adds up in a `Long` gives the sum, wrapped once. -/
theorem foldl_wrap {α : Type} (f : α → Int) (as : List α) (n : Int) :
    as.foldl (fun total a => wrap (total + f a)) (wrap n) = wrap (n + (as.map f).sum) := by
  induction as generalizing n with
  | nil => simp
  | cons a as ih =>
    have hstep : wrap (wrap n + f a) = wrap (n + f a) := Int.bmod_add_bmod
    rw [List.foldl_cons, hstep, ih, List.map_cons, List.sum_cons, add_assoc]

theorem totalRx_eq (stats : Statistics) : totalRx stats = wrap (stats.map (·.2.rxBytes)).sum :=
  (foldl_wrap (fun e : Key × PeerStats => e.2.rxBytes) stats 0).trans (by rw [zero_add])

theorem totalTx_eq (stats : Statistics) : totalTx stats = wrap (stats.map (·.2.txBytes)).sum :=
  (foldl_wrap (fun e : Key × PeerStats => e.2.txBytes) stats 0).trans (by rw [zero_add])

/-- **Every peer has its own counters**: what its own lines report, and the totals are the sums of them as far
as a `Long` goes. -/
theorem statistics_of_peers {front : List (List Char)} {peers : List (Key × List (List Char))}
    (hfront : ∀ l ∈ front, Told l) (hlines : ∀ p ∈ peers, ∀ l ∈ p.2, Told l)
    (hkeys : ∀ p ∈ peers, p.1.length = 32) (hnodup : (peers.map (·.1)).Nodup) :
    getStatistics (some (answer front peers))
        = peers.map (fun p => (p.1, ⟨reported "rx_bytes=" p.2, reported "tx_bytes=" p.2, handshake p.2⟩)) ∧
      totalRx (getStatistics (some (answer front peers)))
        = wrap (peers.map fun p => reported "rx_bytes=" p.2).sum ∧
      totalTx (getStatistics (some (answer front peers)))
        = wrap (peers.map fun p => reported "tx_bytes=" p.2).sum := by
  have hstats : getStatistics (some (answer front peers))
      = peers.map fun p => (p.1, ⟨reported "rx_bytes=" p.2, reported "tx_bytes=" p.2, handshake p.2⟩) := by
    rw [getStatistics_answer hfront hlines hkeys hnodup]
    refine List.map_congr_left fun p hp => ?_
    rw [sectionStats_eq fun l hl => (hlines p hp l hl).keyless]
  refine ⟨hstats, ?_, ?_⟩
  · rw [totalRx_eq, hstats, List.map_map]
    rfl
  · rw [totalTx_eq, hstats, List.map_map]
    rfl

def sampleFront : List (List Char) := ["private_key=00".toList, "listen_port=51820".toList]

/-- The second peer reports what is no number, and reports again. -/
def samplePeers : List (Key × List (List Char)) :=
  [(List.replicate 32 1, ["endpoint=192.0.2.1:51820".toList, "last_handshake_time_sec=1700000000".toList,
      "last_handshake_time_nsec=250000000".toList, "tx_bytes=40".toList, "rx_bytes=70".toList]),
    (List.replicate 32 2, ["rx_bytes=".toList, "tx_bytes=8".toList, "rx_bytes=5".toList])]

theorem statistics_of_peers_sample : (getStatistics (some (answer sampleFront samplePeers))
      = samplePeers.map fun p => (p.1, ⟨reported "rx_bytes=" p.2, reported "tx_bytes=" p.2, handshake p.2⟩)) ∧
    totalRx (getStatistics (some (answer sampleFront samplePeers))) = 75 ∧
    totalTx (getStatistics (some (answer sampleFront samplePeers))) = 48 := by
  obtain ⟨hstats, hrx, htx⟩ := @statistics_of_peers sampleFront samplePeers (by decide) (by decide) (by decide)
    (by decide)
  have hsums : wrap (samplePeers.map fun p => reported "rx_bytes=" p.2).sum = 75 ∧
      wrap (samplePeers.map fun p => reported "tx_bytes=" p.2).sum = 48 := by decide
  exact ⟨hstats, hrx.trans hsums.1, htx.trans hsums.2⟩

end SwiftVpn.Awg
