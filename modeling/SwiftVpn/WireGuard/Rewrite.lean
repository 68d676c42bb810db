/-
  File:      SwiftVpn/WireGuard/Rewrite.lean
  Subject:   THE TEXT OF A SESSION: clampMtu AND addKeepalive OF WireGuardEngine.kt.

  Before a profile is connected its text is rewritten line by line: the MTU is lowered to 1280, and every
  peer gets a keepalive. Both loops look for the same kind of place (a section that has no line of some
  kind), so both are one `Rewriter` at their own values.

  * `rewrite_lines` -- a rewriter changes the bodies of its sections, as IT sees sections;
  * `SeenAlike` -- the lines that the rewriters and `Config.parse` read the same way;
  * `sessionText_parses` -- what `Config.parse` then reads from the rewritten text;
  * `sessionText_preserves_iff` -- exactly which of these documents keep their meaning;
  * `session_unreadable` -- a profile that cannot be connected.

  The rewriters know nothing of comments. A header with a comment behind it is no header to them, a number
  with a comment behind it is no number. And a section is looked at alone, while `Config.parse` reads all
  interface sections as one.
-/
import SwiftVpn.WireGuard.Config

namespace SwiftVpn.WireGuardEngine

open Awg

/-! ## 1. The two loops -/

/-- A header, as the loops see it. -/
def isHeaderLine (raw : String) : Bool :=
  (trim raw).toList.head? == some '[' && (trim raw).toList.getLast? == some ']'

/-- What one loop looks for. -/
structure Rewriter where
  /-- the header of its sections -/
  target : String
  /-- the lines that such a section must have -/
  sees : String → Bool
  /-- the ones among them that are replaced -/
  replaces : String → Bool
  /-- what is written for them, and into a section without any -/
  written : String

namespace Rewriter

/-- The variables of a loop. -/
structure State where
  inSection : Bool := false
  saw : Bool := false
  changed : Bool := false
  out : List String := []

variable (r : Rewriter)

/-- The end of a section. -/
def flush (st : State) : State :=
  if st.inSection && !st.saw then { st with changed := true, out := st.out ++ [r.written] } else st

/-- One line. -/
def next (st : State) (line : String) : State :=
  let trimmed := trim line
  if isHeaderLine line then
    { r.flush st with
      inSection := equalsIgnoreCase trimmed r.target
      saw := false
      out := (r.flush st).out ++ [line] }
  else if st.inSection && r.sees trimmed then
    if r.replaces trimmed then { st with saw := true, changed := true, out := st.out ++ [r.written] }
    else { st with saw := true, out := st.out ++ [line] }
  else { st with out := st.out ++ [line] }

/-- A text that nothing was changed in stays as it is; else its lines are joined again. -/
def rewrite (text : String) : String :=
  let st := r.flush ((lineSequence text).foldl r.next {})
  if st.changed then XrayShareLink.plain st.out else text

end Rewriter

/-- The number of an MTU line, as `clampMtu` reads it. -/
def mtuValue (trimmed : String) : Option Int := parseIntOrNull (trim (substringAfter '=' trimmed trimmed))

def clamping : Rewriter where
  target := "[Interface]"
  sees trimmed := startsWithIgnoreCase trimmed "mtu" && trimmed.toList.contains '='
  replaces trimmed := (mtuValue trimmed).any (1280 < ·)
  written := "MTU = 1280"

/-- `clampMtu`. -/
def clampMtu : String → String := clamping.rewrite

def keeping : Rewriter where
  target := "[Peer]"
  sees trimmed := startsWithIgnoreCase trimmed "persistentkeepalive"
  replaces _ := false
  written := "PersistentKeepalive = 10"

/-- `addKeepalive`. -/
def addKeepalive : String → String := keeping.rewrite

/-- The text that `connect` has parsed. -/
def sessionText (raw : String) : String := addKeepalive (clampMtu raw)

/-! ## 2. What a loop makes of a section -/

namespace Rewriter

variable (r : Rewriter)

/-- A line of the right section. -/
def line (raw : String) : String :=
  if r.sees (trim raw) && r.replaces (trim raw) then r.written else raw

/-- The lines of the right section. -/
def full (lines : List String) : List String :=
  lines.map r.line ++ if lines.any fun raw => r.sees (trim raw) then [] else [r.written]

/-- The lines below a header. -/
def body (header : String) (lines : List String) : List String :=
  if equalsIgnoreCase (trim header) r.target then r.full lines else lines

theorem flush_out (st : State) :
    (r.flush st).out = st.out ++ if st.inSection && !st.saw then [r.written] else [] := by
  unfold flush
  split <;> simp

theorem foldl_body {lines : List String} (h : ∀ l ∈ lines, isHeaderLine l = false) (st : State) :
    (lines.foldl r.next st).inSection = st.inSection ∧
      (lines.foldl r.next st).saw
        = (st.saw || (st.inSection && lines.any fun raw => r.sees (trim raw))) ∧
      (lines.foldl r.next st).out = st.out ++ if st.inSection then lines.map r.line else lines := by
  induction lines generalizing st with
  | nil => simp
  | cons l ls ih =>
    obtain ⟨hl, hls⟩ := List.forall_mem_cons.1 h
    rw [List.foldl_cons]
    obtain ⟨hin, hsaw, hout⟩ := ih hls (r.next st l)
    rw [hin, hsaw, hout]
    unfold next
    dsimp only
    rw [hl, if_neg Bool.false_ne_true]
    cases hs : st.inSection with
    | false => simp
    | true =>
      cases hv : r.sees (trim l) with
      | false => simp [hv, line]
      | true =>
        rw [Bool.and_self, if_pos rfl]
        cases hr : r.replaces (trim l) <;> simp [hv, hr, line]

/-- **One section.** -/
theorem flush_section (s : String × List String) (hs : isHeaderLine s.1 = true)
    (hb : ∀ l ∈ s.2, isHeaderLine l = false) (st : State) :
    (r.flush (s.2.foldl r.next (r.next st s.1))).out = (r.flush st).out ++ s.1 :: r.body s.1 s.2 := by
  obtain ⟨hin, hsaw, hout⟩ := r.foldl_body hb (r.next st s.1)
  have hnext : r.next st s.1 = { r.flush st with
      inSection := equalsIgnoreCase (trim s.1) r.target, saw := false,
      out := (r.flush st).out ++ [s.1] } := by
    unfold next
    dsimp only
    rw [if_pos hs]
  generalize s.2.foldl r.next (r.next st s.1) = st' at *
  rw [hnext] at hin hsaw hout
  dsimp only at hin hsaw hout
  unfold body full
  rw [r.flush_out st', hin, hsaw, hout]
  cases equalsIgnoreCase (trim s.1) r.target with
  | false => simp
  | true =>
    cases s.2.any fun raw => r.sees (trim raw) <;> simp

theorem flush_foldl_sections (secs : List (String × List String))
    (hh : ∀ s ∈ secs, isHeaderLine s.1 = true) (hb : ∀ s ∈ secs, ∀ l ∈ s.2, isHeaderLine l = false)
    (st : State) :
    (r.flush (secs.foldl (fun st s => s.2.foldl r.next (r.next st s.1)) st)).out
      = (r.flush st).out ++ secs.flatMap fun s => s.1 :: r.body s.1 s.2 := by
  induction secs generalizing st with
  | nil => simp
  | cons s secs ih =>
    obtain ⟨hhs, hh⟩ := List.forall_mem_cons.1 hh
    obtain ⟨hbs, hb⟩ := List.forall_mem_cons.1 hb
    rw [List.foldl_cons, ih hh hb, r.flush_section s hhs hbs, List.flatMap_cons, List.append_assoc]

/-- What is not reported as changed is not changed. -/
theorem out_of_not_changed (ls : List String) (st : State)
    (h : (ls.foldl r.next st).changed = false) :
    st.changed = false ∧ (ls.foldl r.next st).out = st.out ++ ls := by
  induction ls generalizing st with
  | nil => exact ⟨h, by simp⟩
  | cons l ls ih =>
    rw [List.foldl_cons] at h ⊢
    obtain ⟨hc, hout⟩ := ih (r.next st l) h
    rw [hout]
    unfold next flush at hc ⊢
    dsimp only at hc ⊢
    split at hc
    · split at hc
      · cases hc
      · rename_i h1 h2
        rw [if_pos h1, if_neg h2]
        exact ⟨hc, by simp⟩
    · rename_i h1
      rw [if_neg h1]
      split at hc
      · rename_i h2
        rw [if_pos h2]
        split at hc
        · cases hc
        · rename_i h3
          rw [if_neg h3]
          exact ⟨hc, by simp⟩
      · rename_i h2
        rw [if_neg h2]
        exact ⟨hc, by simp⟩

theorem mem_full {lines : List String} {l : String} (h : l ∈ r.full lines) :
    l ∈ lines ∨ l = r.written := by
  rcases List.mem_append.1 h with h | h
  · obtain ⟨raw, hraw, rfl⟩ := List.mem_map.1 h
    unfold line
    split
    · exact .inr rfl
    · exact .inl hraw
  · split at h
    · cases h
    · exact .inr (List.mem_singleton.1 h)

theorem mem_body {header : String} {lines : List String} {l : String} (h : l ∈ r.body header lines) :
    l ∈ lines ∨ l = r.written := by
  unfold body at h
  split at h
  · exact r.mem_full h
  · exact .inl h

end Rewriter

theorem single_of_mem_lineSequence {text l : String} (h : l ∈ lineSequence text) :
    ∀ c ∈ l.toList, c ≠ '\n' ∧ c ≠ '\r' := by
  intro c hc
  obtain ⟨part, hpart, rfl⟩ := List.mem_map.1 h
  rw [String.toList_ofList] at hc
  have := (Text.mem_of_mem_splitOnP hpart hc).2
  simpa using this

theorem lineSequence_ne_nil (text : String) : lineSequence text ≠ [] := by
  unfold lineSequence
  simp [List.splitOnP_ne_nil]

/-- **A loop rewrites the bodies of its sections.** -/
theorem Rewriter.rewrite_lines (r : Rewriter) (hr : ∀ c ∈ r.written.toList, c ≠ '\n' ∧ c ≠ '\r')
    (text : String) :
    lineSequence (r.rewrite text) = ((Sections.cut isHeaderLine (lineSequence text)).mapBody r.body).lines := by
  have hh := Sections.cut_headed isHeaderLine (lineSequence text)
  have hlines := Sections.lines_cut isHeaderLine (lineSequence text)
  have hout : (r.flush ((lineSequence text).foldl r.next {})).out
      = ((Sections.cut isHeaderLine (lineSequence text)).mapBody r.body).lines := by
    generalize Sections.cut isHeaderLine (lineSequence text) = d at *
    obtain ⟨hin, -, hfront⟩ := r.foldl_body hh.front {}
    have hflush : (r.flush (d.front.foldl r.next {})).out = d.front := by
      rw [r.flush_out, hin, hfront]
      simp
    rw [← hlines, Sections.foldl_lines, r.flush_foldl_sections _ hh.header hh.body, hflush]
    simp [Sections.Document.lines, Sections.Document.mapBody, List.flatMap_map]
  unfold Rewriter.rewrite
  dsimp only
  split
  · rw [hout]
    apply XrayShareLink.lineSequence_plain
    · apply Sections.mapBody_lines_ne_nil
      rw [hlines]
      exact lineSequence_ne_nil text
    · intro l hl
      rcases Sections.mem_mapBody_lines hl with hl | ⟨s, hs, hl⟩
      · rw [hlines] at hl
        exact single_of_mem_lineSequence hl
      · rcases r.mem_body hl with hl | rfl
        · have hmem := Sections.mem_lines_of_mem_body hs hl
          rw [hlines] at hmem
          exact single_of_mem_lineSequence hmem
        · exact hr
  · rename_i hc
    rw [← hout]
    unfold Rewriter.flush at hc ⊢
    split at hc
    · exact absurd rfl hc
    · rename_i h1
      rw [if_neg h1, (r.out_of_not_changed _ _ (by simpa using hc)).2]
      rfl

/-! ## 3. Lines that are read alike -/

/-- A line that the loops and `Config.parse` read the same way. -/
structure SeenAlike (raw : String) : Prop where
  header : isHeader raw = isHeaderLine raw
  name : isHeader raw = true → (trim raw).toList = content raw
  mtu : (valueOf InterfaceKey.names .mtu raw).isSome = clamping.sees (trim raw)
  keepalive : (valueOf PeerKey.names .persistentKeepalive raw).isSome = keeping.sees (trim raw)

instance : DecidablePred SeenAlike := fun _ =>
  decidable_of_iff (_ ∧ _ ∧ _ ∧ _)
    ⟨fun ⟨h1, h2, h3, h4⟩ => ⟨h1, h2, h3, h4⟩, fun h => ⟨h.header, h.name, h.mtu, h.keepalive⟩⟩

theorem seenAlike_written : SeenAlike clamping.written := by decide +kernel

section Document

variable {text : String}

theorem document_rewrite (r : Rewriter) (hr : ∀ c ∈ r.written.toList, c ≠ '\n' ∧ c ≠ '\r')
    (hw : isHeader r.written = false) (hs : ∀ raw ∈ lineSequence text, SeenAlike raw) :
    document (r.rewrite text) = (document text).mapBody r.body := by
  have hh := Sections.cut_headed isHeader (lineSequence text)
  unfold document
  rw [r.rewrite_lines hr, ← Sections.cut_congr fun raw hraw => (hs raw hraw).header]
  apply Sections.cut_lines
  apply hh.mapBody
  intro s hs l hl
  rcases r.mem_body hl with hl | rfl
  · exact hh.body s hs l hl
  · exact hw

theorem mem_of_mem_document {s : String × List String} (hs : s ∈ (document text).sections) {l : String}
    (hl : l = s.1 ∨ l ∈ s.2) : l ∈ lineSequence text := by
  rw [← Sections.lines_cut isHeader (lineSequence text)]
  rcases hl with rfl | hl
  · exact Sections.mem_lines_of_header hs
  · exact Sections.mem_lines_of_mem_body hs hl

/-- The lines of a rewritten text. -/
theorem mem_rewrite (r : Rewriter) (hr : ∀ c ∈ r.written.toList, c ≠ '\n' ∧ c ≠ '\r')
    {l : String} (hl : l ∈ lineSequence (r.rewrite text)) : l ∈ lineSequence text ∨ l = r.written := by
  have hlines := Sections.lines_cut isHeaderLine (lineSequence text)
  rw [r.rewrite_lines hr] at hl
  rcases Sections.mem_mapBody_lines hl with hl | ⟨s, hs, hl⟩
  · exact .inl (hlines ▸ hl)
  · rcases r.mem_body hl with hl | rfl
    · exact .inl (hlines ▸ Sections.mem_lines_of_mem_body hs hl)
    · exact .inr rfl

theorem isHeader_of_mem_document {s : String × List String} (hs : s ∈ (document text).sections) :
    isHeader s.1 = true :=
  (Sections.cut_headed isHeader (lineSequence text)).header s hs

theorem headerOf_interface {raw : String} :
    headerOf raw = some .interface ↔ Text.equalsIgnoreCase (content raw) "[Interface]".toList = true := by
  unfold headerOf
  split
  · rename_i h
    exact iff_of_true rfl h
  · rename_i h
    have hother : ¬ (if Text.equalsIgnoreCase (content raw) "[Peer]".toList then some Header.peer else none)
        = some .interface := by split <;> simp
    exact iff_of_false hother h

theorem headerOf_peer {raw : String} :
    headerOf raw = some .peer ↔ Text.equalsIgnoreCase (content raw) "[Peer]".toList = true := by
  unfold headerOf
  split
  · rename_i h
    have hother : ¬ Text.equalsIgnoreCase (content raw) "[Peer]".toList = true := by
      intro hp
      unfold Text.equalsIgnoreCase at h hp
      rw [beq_iff_eq] at h hp
      rw [h] at hp
      revert hp
      decide
    exact iff_of_false (by simp) hother
  · split
    · rename_i h
      exact iff_of_true rfl h
    · rename_i h
      exact iff_of_false (by simp) h

/-- The loops see the header of a section as `Config.parse` does. -/
theorem clamping_body {s : String × List String} (hs : s ∈ (document text).sections)
    (hseen : ∀ raw ∈ lineSequence text, SeenAlike raw) (ls : List String) :
    clamping.body s.1 ls = if headerOf s.1 = some .interface then clamping.full ls else ls := by
  have hname := (hseen s.1 (mem_of_mem_document hs (.inl rfl))).name (isHeader_of_mem_document hs)
  have htarget : equalsIgnoreCase (trim s.1) "[Interface]"
      = Text.equalsIgnoreCase (content s.1) "[Interface]".toList := by
    unfold equalsIgnoreCase
    rw [hname]
  show (if equalsIgnoreCase (trim s.1) "[Interface]" then clamping.full ls else ls) = _
  rw [htarget]
  simp only [headerOf_interface]

@[inherit_doc clamping_body]
theorem keeping_body {s : String × List String} (hs : s ∈ (document text).sections)
    (hseen : ∀ raw ∈ lineSequence text, SeenAlike raw) (ls : List String) :
    keeping.body s.1 ls = if headerOf s.1 = some .peer then keeping.full ls else ls := by
  have hname := (hseen s.1 (mem_of_mem_document hs (.inl rfl))).name (isHeader_of_mem_document hs)
  have htarget : equalsIgnoreCase (trim s.1) "[Peer]"
      = Text.equalsIgnoreCase (content s.1) "[Peer]".toList := by
    unfold equalsIgnoreCase
    rw [hname]
  show (if equalsIgnoreCase (trim s.1) "[Peer]" then keeping.full ls else ls) = _
  rw [htarget]
  simp only [headerOf_peer]

/-- **The sections of the session text.** -/
theorem document_sessionText (hs : ∀ raw ∈ lineSequence text, SeenAlike raw) :
    (document (sessionText text)).front = (document text).front ∧
      (document (sessionText text)).sections.map (·.1) = (document text).sections.map (·.1) ∧
      bodies .interface (document (sessionText text)).sections
        = (bodies .interface (document text).sections).map clamping.full ∧
      bodies .peer (document (sessionText text)).sections
        = (bodies .peer (document text).sections).map keeping.full := by
  have hclamp : document (clampMtu text) = (document text).mapBody clamping.body :=
    document_rewrite clamping (by decide) (by decide +kernel) hs
  have hs' : ∀ raw ∈ lineSequence (clampMtu text), SeenAlike raw := by
    intro raw hraw
    rcases mem_rewrite clamping (by decide) hraw with hraw | rfl
    · exact hs raw hraw
    · exact seenAlike_written
  have hkeep : document (sessionText text) = (document (clampMtu text)).mapBody keeping.body := by
    unfold sessionText addKeepalive
    exact document_rewrite keeping (by decide) (by decide +kernel) hs'
  have hclampI : bodies .interface (document (clampMtu text)).sections
      = (bodies .interface (document text).sections).map clamping.full := by
    rw [hclamp]
    apply bodies_mapBody
    intro s hmem hk
    rw [clamping_body hmem hs, if_pos hk]
  have hclampP : bodies .peer (document (clampMtu text)).sections = bodies .peer (document text).sections := by
    rw [hclamp, bodies_mapBody (g := id), List.map_id]
    intro s hmem hk
    rw [clamping_body hmem hs, if_neg (by simp [hk]), id]
  have hkeepI : bodies .interface (document (sessionText text)).sections
      = bodies .interface (document (clampMtu text)).sections := by
    rw [hkeep, bodies_mapBody (g := id), List.map_id]
    intro s hmem hk
    rw [keeping_body hmem hs', if_neg (by simp [hk]), id]
  have hkeepP : bodies .peer (document (sessionText text)).sections
      = (bodies .peer (document (clampMtu text)).sections).map keeping.full := by
    rw [hkeep]
    apply bodies_mapBody
    intro s hmem hk
    rw [keeping_body hmem hs', if_pos hk]
  rw [hclampI] at hkeepI
  rw [hclampP] at hkeepP
  have hfront : (document (sessionText text)).front = (document text).front := by
    rw [hkeep, hclamp]
    rfl
  have hheaders : (document (sessionText text)).sections.map (·.1) = (document text).sections.map (·.1) := by
    rw [hkeep, hclamp]
    simp [Sections.Document.mapBody]
  exact ⟨hfront, hheaders, hkeepI, hkeepP⟩

end Document

/-! ## 4. Peers -/

section Peers

variable {numeric : String → Option InetAddress}

/-- A line with a keepalive, of a peer that `Config.parse` reads. -/
def hasKeepalive (lines : List String) : Bool :=
  lines.any fun raw => (valueOf PeerKey.names .persistentKeepalive raw).isSome

/-- A peer with a keepalive of ten seconds, unless its section has a line for it. -/
def kept (lines : List String) (p : Peer) : Peer :=
  if hasKeepalive lines then p else Function.update p .persistentKeepalive (some "10")

theorem keeping_full {lines : List String} (hs : ∀ raw ∈ lines, SeenAlike raw) :
    keeping.full lines = lines ++ if hasKeepalive lines then [] else [keeping.written] := by
  have hline : keeping.line = id := by
    funext raw
    unfold Rewriter.line
    rw [if_neg (by simp [keeping])]
    rfl
  have hany : (lines.any fun raw => keeping.sees (trim raw)) = hasKeepalive lines := by
    unfold hasKeepalive
    rw [Bool.eq_iff_iff, List.any_eq_true, List.any_eq_true]
    exact exists_congr fun raw => and_congr_right fun hraw => by rw [(hs raw hraw).keepalive]
  unfold Rewriter.full
  rw [hline, List.map_id, hany]

theorem attributeOf_keeping :
    attributeOf PeerKey.names (content keeping.written) = some (.persistentKeepalive, "10") := by
  decide +kernel

theorem peer_full {lines : List String} (hs : ∀ raw ∈ lines, SeenAlike raw) {p : Peer}
    (h : Peer.parse numeric (contents lines) = some p) :
    Peer.parse numeric (contents (keeping.full lines)) = some (kept lines p) := by
  rw [keeping_full hs]
  unfold kept
  split
  · rw [List.append_nil]
    exact h
  · obtain ⟨hreads, hkeys, hpublic⟩ := Peer.parse_iff.1 h
    rw [Peer.parse_iff]
    refine ⟨?_, ?_, ?_⟩
    · intro raw hraw
      rcases List.mem_append.1 hraw with hraw | hraw
      · exact hreads raw hraw
      · rw [List.mem_singleton.1 hraw]
        exact .inr (by rw [attributeOf_keeping]; rfl)
    · intro k
      have hnew : [keeping.written].filterMap (valueOf PeerKey.names k)
          = if .persistentKeepalive = k then ["10"] else [] := by
        rw [List.filterMap_cons, valueOf, attributeOf_keeping, Option.bind_some]
        dsimp only
        split <;> split <;> simp_all
      rw [List.filterMap_append, hnew, List.foldlM_append, hkeys k]
      by_cases hk : .persistentKeepalive = k
      · subst hk
        rw [if_pos rfl, Function.update_self]
        show some (setPersistentKeepalive "10") = some (some "10")
        decide +kernel
      · rw [if_neg hk, Function.update_of_ne (Ne.symm hk)]
        rfl
    · rw [Function.update_of_ne (by decide)]
      exact hpublic

theorem mapM_kept {bs : List (List String)} (hs : ∀ b ∈ bs, ∀ raw ∈ b, SeenAlike raw) {ps : List Peer}
    (h : bs.mapM (fun b => Peer.parse numeric (contents b)) = some ps) :
    (bs.map keeping.full).mapM (fun b => Peer.parse numeric (contents b))
      = some (List.zipWith kept bs ps) := by
  induction bs generalizing ps with
  | nil =>
    cases h
    rfl
  | cons b bs ih =>
    obtain ⟨hb, hbs⟩ := List.forall_mem_cons.1 hs
    rw [List.mapM_cons] at h
    obtain ⟨p, hp, h⟩ := Option.bind_eq_some_iff.1 h
    obtain ⟨ps', hps, h⟩ := Option.bind_eq_some_iff.1 h
    cases h
    rw [List.map_cons, List.mapM_cons, peer_full hb hp, ih hbs hps]
    rfl

end Peers

/-! ## 5. The interface -/

/-- Neither reader takes a blank for a part of a number. -/
theorem isNumeral_of_blank {c : Char} (h : isWhitespace c = true ∨ isRegexSpace c = true ∨ c.toNat ≤ 0x20) :
    Text.isNumeral c = false := by
  have hzeros : ∀ z ∈ Text.zeros, 0x30 ≤ z ∧ (z + 10 ≤ 0x85 ∨ (0xA0 < z ∧ (z + 10 ≤ 0x1680 ∨
      (0x1680 < z ∧ (z + 10 ≤ 0x2000 ∨ 0x3000 < z))))) := by decide
  have hblank : c.toNat ≤ 0x20 ∨ c.toNat = 0x85 ∨ c.toNat = 0xA0 ∨ c.toNat = 0x1680 ∨
      (0x2000 ≤ c.toNat ∧ c.toNat ≤ 0x3000) := by
    simp only [isWhitespace, isRegexSpace, Bool.or_eq_true, Bool.and_eq_true, decide_eq_true_eq,
      beq_iff_eq] at h
    omega
  have hdigit : (Text.digitOf 10 c).isSome = false := by
    rw [Bool.eq_false_iff]
    intro hd
    obtain ⟨z, hz, hlo, hhi⟩ := Text.toNat_of_digitOf hd
    have := hzeros z hz
    omega
  have hminus : c ≠ '-' := by
    rintro rfl
    revert hblank
    decide
  have hplus : c ≠ '+' := by
    rintro rfl
    revert hblank
    decide
  simp [Text.isNumeral, hdigit, hminus, hplus]

/-- A line that sets the MTU, as the parser cuts it: what stands before its `=`, the value, the blanks
    behind it, and the comment. -/
theorem mtu_cut {raw v : String} (hv : valueOf InterfaceKey.names .mtu raw = some v) :
    ∃ before right blanks, raw.toList = before ++ '=' :: (right ++ (blanks ++ raw.toList.dropWhile (· ≠ '#'))) ∧
      '=' ∉ before ∧ (∀ c ∈ blanks, c.toNat ≤ 0x20) ∧ v = String.ofList (Text.strip isRegexSpace right) := by
  obtain ⟨left, right, hline, hleft, -, rfl, -⟩ := attributeOf_eq_some (valueOf_eq_some.1 hv)
  obtain ⟨js, js', hjava, hjs, hjs'⟩ := Text.exists_strip (fun c => decide (c.toNat ≤ 0x20))
    (raw.toList.takeWhile (· ≠ '#'))
  have hcontent : Text.strip (fun c => decide (c.toNat ≤ 0x20)) (raw.toList.takeWhile (· ≠ '#'))
      = left ++ '=' :: right := hline
  have hcomment := List.takeWhile_append_dropWhile (p := fun c => decide (c ≠ '#')) (l := raw.toList)
  rw [hcontent] at hjava
  rw [hjava] at hcomment
  refine ⟨js ++ left, right, js', ?_, ?_, fun c hc => of_decide_eq_true (hjs' c hc), rfl⟩
  · conv_lhs => rw [← hcomment]
    simp
  · rw [List.mem_append, not_or]
    exact ⟨fun h => absurd (hjs _ h) (by decide), hleft⟩

/-- The same line as `clampMtu` cuts it. -/
theorem clamp_cut {raw : String} (h : '=' ∈ raw.toList) :
    ∃ before l r blanks, raw.toList = before ++ '=' :: (r ++ blanks) ∧ '=' ∉ before ∧
      (∀ c ∈ blanks, isWhitespace c = true) ∧ Text.cutFirst '=' (trim raw).toList = some (l, r) := by
  obtain ⟨ws, ws', hkotlin, hws, hws'⟩ := Text.exists_strip isWhitespace raw.toList
  have htrim : (trim raw).toList = Text.strip isWhitespace raw.toList := String.toList_ofList
  rw [← htrim] at hkotlin
  have hmem : '=' ∈ (trim raw).toList := by
    rw [hkotlin] at h
    simp only [List.mem_append] at h
    rcases h with (h | h) | h
    · exact absurd (hws _ h) (by decide)
    · exact h
    · exact absurd (hws' _ h) (by decide)
  obtain ⟨l, r, hcut⟩ : ∃ l r, Text.cutFirst '=' (trim raw).toList = some (l, r) := ⟨_, _, if_pos hmem⟩
  refine ⟨ws ++ l, l, r, ws', ?_, ?_, hws', hcut⟩
  · conv_lhs => rw [hkotlin, Text.cutFirst_eq_some hcut]
    simp
  · rw [List.mem_append, not_or]
    exact ⟨fun h => absurd (hws _ h) (by decide), Text.not_mem_of_cutFirst hcut⟩

/-- What `clampMtu` reads a number from holds nothing but blanks and the number. -/
theorem mtuValue_numerals {line : String} {l r : List Char} {n : Int}
    (hcut : Text.cutFirst '=' line.toList = some (l, r)) (hn : mtuValue line = some n) :
    parseIntOrNull (String.ofList (trimChars r)) = some n ∧ ∀ c ∈ trimChars r, Text.isNumeral c = true := by
  have hnumber : parseIntOrNull (String.ofList (trimChars r)) = some n := by
    unfold mtuValue substringAfter at hn
    rw [hcut] at hn
    dsimp only [trim] at hn
    rw [String.toList_ofList] at hn
    exact hn
  have hall := Text.isNumeral_of_parseInteger hnumber
  rw [String.toList_ofList] at hall
  exact ⟨hnumber, hall⟩

/-- A text of blanks around a number holds no `#`. -/
theorem sharp_not_mem {r : List Char} (h : ∀ c ∈ trimChars r, Text.isNumeral c = true) : '#' ∉ r := by
  obtain ⟨us, us', hr, hus, hus'⟩ := Text.exists_strip isWhitespace r
  intro hin
  rw [hr] at hin
  simp only [List.mem_append] at hin
  rcases hin with (hin | hin) | hin
  · exact absurd (hus _ hin) (by decide)
  · exact absurd (h _ hin) (by decide)
  · exact absurd (hus' _ hin) (by decide)

/-- What is left of a line from its first `#` is empty or begins with it. -/
theorem dropWhile_sharp {cs : List Char} (h : '#' ∉ cs.dropWhile (· ≠ '#')) : cs.dropWhile (· ≠ '#') = [] := by
  cases hd : cs.dropWhile (· ≠ '#') with
  | nil => rfl
  | cons d ds =>
    have hhead := List.head?_dropWhile_not (fun c => decide (c ≠ '#')) cs
    rw [hd] at hhead h
    have hsharp : d = '#' := by simpa using hhead
    exact absurd (by rw [hsharp]; exact List.mem_cons_self) h

theorem filter_numerals {zs : List Char} (h : ∀ c ∈ zs, Text.isNumeral c = false) :
    zs.filter Text.isNumeral = [] := by
  rw [List.filter_eq_nil_iff]
  intro c hc
  rw [h c hc]
  exact Bool.false_ne_true

/-- Where both readers find a number behind the first `=` of a line, it is the same text. -/
theorem mtuValue_agrees {raw v : String} {n m : Int}
    (hv : valueOf InterfaceKey.names .mtu raw = some v) (hm : parseInt v = some m)
    (hn : mtuValue (trim raw) = some n) : n = m := by
  have hws : ∀ c, isWhitespace c = true → Text.isNumeral c = false := fun c h => isNumeral_of_blank (.inl h)
  have hrs : ∀ c, isRegexSpace c = true → Text.isNumeral c = false :=
    fun c h => isNumeral_of_blank (.inr (.inl h))
  obtain ⟨before, right, js, hparser, hbefore, hjs, rfl⟩ := mtu_cut hv
  obtain ⟨before', l, r, ws, hclamp, hbefore', hws', hcut⟩ :=
    clamp_cut (by rw [hparser]; exact List.mem_append_right _ List.mem_cons_self)
  have hbehind : r ++ ws = right ++ (js ++ raw.toList.dropWhile (· ≠ '#')) :=
    (Text.append_cons_inj (hclamp.symm.trans hparser) hbefore' hbefore).2
  obtain ⟨hnumber, hdigits⟩ := mtuValue_numerals hcut hn
  -- `clampMtu` has nothing but blanks around its number, so there is no comment
  have hnil : raw.toList.dropWhile (· ≠ '#') = [] := by
    refine dropWhile_sharp fun hin => ?_
    have hin : '#' ∈ r ++ ws := by
      rw [hbehind]
      exact List.mem_append_right _ (List.mem_append_right _ hin)
    rcases List.mem_append.1 hin with h | h
    · exact sharp_not_mem hdigits h
    · exact absurd (hws' _ h) (by decide)
  -- so both numbers are the digits and signs behind the `=`
  have hsame : trimChars r = Text.strip isRegexSpace right := by
    have hdigits' := Text.isNumeral_of_parseInteger hm
    rw [String.toList_ofList] at hdigits'
    calc trimChars r = (trimChars r).filter Text.isNumeral := (List.filter_eq_self.2 hdigits).symm
      _ = r.filter Text.isNumeral := Text.filter_strip hws r
      _ = (r ++ ws).filter Text.isNumeral := by
        rw [List.filter_append, filter_numerals fun c hc => hws c (hws' c hc), List.append_nil]
      _ = right.filter Text.isNumeral := by
        rw [hbehind, hnil, List.append_nil, List.filter_append,
          filter_numerals fun c hc => isNumeral_of_blank (.inr (.inr (hjs c hc))), List.append_nil]
      _ = (Text.strip isRegexSpace right).filter Text.isNumeral := (Text.filter_strip hrs right).symm
      _ = Text.strip isRegexSpace right := List.filter_eq_self.2 hdigits'
  rw [hsame] at hnumber
  have hboth : parseInt (String.ofList (Text.strip isRegexSpace right)) = some n := hnumber
  rw [hm] at hboth
  exact (Option.some.inj hboth).symm

/-- The lines that `clampMtu` takes for an MTU. -/
def mtuLines (lines : List String) : List String := lines.filter fun raw => clamping.sees (trim raw)

/-- The last of them in the last interface section, if that section has one. -/
def lastMtuLine (bs : List (List String)) : Option String := bs.getLast?.bind fun b => (mtuLines b).getLast?

/-- The MTU of the session. -/
def clampedMtu (bs : List (List String)) (mtu : Option Int) : Option Int :=
  match lastMtuLine bs with
  | none => some 1280
  | some raw => if clamping.replaces (trim raw) then some 1280 else mtu

theorem replaces_eq (t : String) : clamping.replaces t = (mtuValue t).any (1280 < ·) := by
  dsimp only [clamping]

theorem attributeOf_clamping :
    attributeOf InterfaceKey.names (content clamping.written) = some (.mtu, "1280") := by decide +kernel

section Interface

variable {numeric : String → Option InetAddress}

theorem valueOf_line_of_ne {raw : String} (hs : SeenAlike raw) {k : InterfaceKey} (hk : k ≠ .mtu) :
    valueOf InterfaceKey.names k (clamping.line raw) = valueOf InterfaceKey.names k raw := by
  unfold Rewriter.line
  split
  · rename_i h
    rw [Bool.and_eq_true, ← hs.mtu] at h
    obtain ⟨v, hv⟩ := Option.isSome_iff_exists.1 h.1
    unfold valueOf
    rw [attributeOf_clamping, valueOf_eq_some.1 hv]
    simp [Ne.symm hk]
  · rfl

theorem isSome_valueOf_line {raw : String} (hs : SeenAlike raw) :
    (valueOf InterfaceKey.names .mtu (clamping.line raw)).isSome = clamping.sees (trim raw) := by
  unfold Rewriter.line
  split
  · rename_i h
    rw [Bool.and_eq_true] at h
    rw [h.1, valueOf, attributeOf_clamping]
    rfl
  · exact hs.mtu

theorem any_sees (b : List String) :
    (b.any fun raw => clamping.sees (trim raw)) = true ↔ mtuLines b ≠ [] := by
  unfold mtuLines
  rw [List.any_eq_true, Ne, List.filter_eq_nil_iff]
  simp

theorem clamping_full_of_nil {b : List String} (h : mtuLines b = []) :
    clamping.full b = b.map clamping.line ++ [clamping.written] := by
  unfold Rewriter.full
  rw [if_neg fun hb => (any_sees b).1 hb h]

theorem clamping_full_of_ne_nil {b : List String} (h : mtuLines b ≠ []) :
    clamping.full b = b.map clamping.line := by
  unfold Rewriter.full
  rw [if_pos ((any_sees b).2 h), List.append_nil]

theorem filterMap_full_of_ne {b : List String} (hs : ∀ raw ∈ b, SeenAlike raw) {k : InterfaceKey}
    (hk : k ≠ .mtu) : (clamping.full b).filterMap (valueOf InterfaceKey.names k)
      = b.filterMap (valueOf InterfaceKey.names k) := by
  have hwritten : valueOf InterfaceKey.names k clamping.written = none := by
    rw [valueOf, attributeOf_clamping]
    simp [Ne.symm hk]
  have hlines : (b.map clamping.line).filterMap (valueOf InterfaceKey.names k)
      = b.filterMap (valueOf InterfaceKey.names k) := by
    rw [List.filterMap_map]
    refine List.filterMap_congr fun raw hraw => ?_
    rw [Function.comp_apply, valueOf_line_of_ne (hs raw hraw) hk]
  by_cases hb : mtuLines b = []
  · rw [clamping_full_of_nil hb, List.filterMap_append, List.filterMap_cons_none hwritten, List.filterMap_nil,
      List.append_nil, hlines]
  · rw [clamping_full_of_ne_nil hb, hlines]

theorem filterMap_flatten_full_of_ne {bs : List (List String)} (hs : ∀ b ∈ bs, ∀ raw ∈ b, SeenAlike raw)
    {k : InterfaceKey} (hk : k ≠ .mtu) :
    (bs.map clamping.full).flatten.filterMap (valueOf InterfaceKey.names k)
      = bs.flatten.filterMap (valueOf InterfaceKey.names k) := by
  induction bs with
  | nil => rfl
  | cons b bs ih =>
    obtain ⟨hb, hbs⟩ := List.forall_mem_cons.1 hs
    rw [List.map_cons, List.flatten_cons, List.flatten_cons, List.filterMap_append, List.filterMap_append,
      filterMap_full_of_ne hb hk, ih hbs]

/-- A rewritten interface section ends with its last MTU. -/
theorem getLast?_filterMap_full {b : List String} (hs : ∀ raw ∈ b, SeenAlike raw) :
    ((clamping.full b).filterMap (valueOf InterfaceKey.names .mtu)).getLast?
      = match (mtuLines b).getLast? with
        | none => some "1280"
        | some raw => valueOf InterfaceKey.names .mtu (clamping.line raw) := by
  have hbody : ((b.map clamping.line).filterMap (valueOf InterfaceKey.names .mtu)).getLast?
      = (mtuLines b).getLast?.bind (valueOf InterfaceKey.names .mtu ∘ clamping.line) := by
    have hsome : ∀ raw ∈ b, ((valueOf InterfaceKey.names .mtu ∘ clamping.line) raw).isSome
        = clamping.sees (trim raw) := by
      intro raw hraw
      rw [Function.comp_apply, isSome_valueOf_line (hs raw hraw)]
    rw [List.filterMap_map, Slots.getLast?_filterMap hsome, mtuLines]
  have hwritten : valueOf InterfaceKey.names .mtu clamping.written = some "1280" := by
    rw [valueOf, attributeOf_clamping]
    rfl
  cases hlast : (mtuLines b).getLast? with
  | none =>
    rw [clamping_full_of_nil (List.getLast?_eq_none_iff.1 hlast), List.filterMap_append,
      List.filterMap_cons_some hwritten]
    exact List.getLast?_concat
  | some raw =>
    have hne : mtuLines b ≠ [] := by
      intro hnil
      rw [hnil] at hlast
      cases hlast
    rw [clamping_full_of_ne_nil hne, hbody, hlast, Option.bind_some, Function.comp_apply]

/-- What the last interface section says about the MTU comes last. -/
theorem getLast?_filterMap_flatten {bs : List (List String)} (hne : bs ≠ [])
    (hs : ∀ b ∈ bs, ∀ raw ∈ b, SeenAlike raw) :
    ((bs.map clamping.full).flatten.filterMap (valueOf InterfaceKey.names .mtu)).getLast?
      = match lastMtuLine bs with
        | none => some "1280"
        | some raw => valueOf InterfaceKey.names .mtu (clamping.line raw) := by
  obtain ⟨bs', b, rfl⟩ := (List.eq_nil_or_concat' bs).resolve_left hne
  have hb := getLast?_filterMap_full (hs b (by simp))
  have hlastLine : lastMtuLine (bs' ++ [b]) = (mtuLines b).getLast? := by
    unfold lastMtuLine
    rw [List.getLast?_concat, Option.bind_some]
  rw [hlastLine, List.map_append, List.flatten_append, List.filterMap_append, List.getLast?_append,
    List.map_singleton, List.flatten_singleton, hb]
  cases hlast : (mtuLines b).getLast? with
  | none => rfl
  | some raw =>
    dsimp only
    have hmem : raw ∈ mtuLines b := List.mem_of_getLast? hlast
    obtain ⟨hraw, hsees⟩ := List.mem_filter.1 hmem
    have hsome := isSome_valueOf_line (hs b (by simp) raw hraw)
    rw [hsees] at hsome
    obtain ⟨v, hv⟩ := Option.isSome_iff_exists.1 hsome
    rw [hv, Option.some_or]

theorem mem_flatten_full {bs : List (List String)} {raw : String}
    (h : raw ∈ (bs.map clamping.full).flatten) : raw ∈ bs.flatten ∨ raw = clamping.written := by
  obtain ⟨b', hb', hraw⟩ := List.mem_flatten.1 h
  obtain ⟨b, hb, rfl⟩ := List.mem_map.1 hb'
  exact (clamping.mem_full hraw).imp_left fun hraw => List.mem_flatten.2 ⟨b, hb, hraw⟩

/-- The last MTU line of the last interface section is the last one of all. -/
theorem getLast?_filterMap_of_lastMtuLine {bs : List (List String)} (hs : ∀ b ∈ bs, ∀ raw ∈ b, SeenAlike raw)
    {raw : String} (h : lastMtuLine bs = some raw) :
    ∃ v, valueOf InterfaceKey.names .mtu raw = some v ∧
      (bs.flatten.filterMap (valueOf InterfaceKey.names .mtu)).getLast? = some v := by
  obtain ⟨b, hb, hlast⟩ := Option.bind_eq_some_iff.1 h
  obtain ⟨bs', rfl⟩ := List.getLast?_eq_some_iff.1 hb
  obtain ⟨hraw, hsees⟩ := List.mem_filter.1 (List.mem_of_getLast? hlast)
  have hbs := hs b (by simp)
  have hsome := (hbs raw hraw).mtu
  rw [hsees] at hsome
  obtain ⟨v, hv⟩ := Option.isSome_iff_exists.1 hsome
  have hcolumn := Slots.getLast?_filterMap fun raw hraw => (hbs raw hraw).mtu
  unfold mtuLines at hlast
  rw [hlast, Option.bind_some, hv] at hcolumn
  refine ⟨v, hv, ?_⟩
  rw [List.flatten_append, List.flatten_singleton, List.filterMap_append, List.getLast?_append, hcolumn,
    Option.some_or]

/-- **The interface of the session**: the one of the profile, but for its MTU. -/
theorem interface_full {bs : List (List String)} (hne : bs ≠ [])
    (hs : ∀ b ∈ bs, ∀ raw ∈ b, SeenAlike raw) {i : Interface}
    (h : Interface.parse numeric (contents bs.flatten) = some i) :
    Interface.parse numeric (contents (bs.map clamping.full).flatten)
      = some (Function.update i .mtu (clampedMtu bs (i .mtu))) := by
  obtain ⟨hreads, hkeys, hkey, happs⟩ := Interface.parse_iff.1 h
  rw [Interface.parse_iff]
  refine ⟨?_, ?_, ?_⟩
  · intro raw hraw
    rcases mem_flatten_full hraw with hraw | rfl
    · exact hreads raw hraw
    · exact .inr (by rw [attributeOf_clamping]; rfl)
  · intro k
    by_cases hk : k = .mtu
    · subst hk
      have hold := (Slots.foldlM_last optionalNumber none (i .mtu) _).1 (hkeys .mtu)
      have hnumber : optionalNumber "1280" = some (some 1280) := by decide +kernel
      rw [Function.update_self]
      refine (Slots.foldlM_last optionalNumber none _ _).2 ⟨?_, ?_⟩
      · intro v hv
        obtain ⟨raw, hraw, hval⟩ := List.mem_filterMap.1 hv
        rcases mem_flatten_full hraw with hraw | rfl
        · exact hold.1 v (List.mem_filterMap.2 ⟨raw, hraw, hval⟩)
        · rw [valueOf, attributeOf_clamping] at hval
          cases hval
          rw [hnumber]
          rfl
      · rw [getLast?_filterMap_flatten hne hs]
        unfold clampedMtu
        cases hlast : lastMtuLine bs with
        | none => exact hnumber
        | some raw =>
          obtain ⟨v, hv, hcolumn⟩ := getLast?_filterMap_of_lastMtuLine hs hlast
          dsimp only
          unfold Rewriter.line
          obtain ⟨b, hb, hlast⟩ := Option.bind_eq_some_iff.1 hlast
          have hsees := (List.mem_filter.1 (List.mem_of_getLast? hlast)).2
          rw [hsees, Bool.true_and]
          split
          · rw [valueOf, attributeOf_clamping]
            exact hnumber
          · rw [hv, Option.elim_some, ← hold.2, hcolumn, Option.elim_some]
    · rw [Function.update_of_ne hk, filterMap_flatten_full_of_ne hs hk]
      exact hkeys k
  · unfold Interface.Complete
    rw [Function.update_of_ne (by decide), Function.update_of_ne (by decide), Function.update_of_ne (by decide)]
    exact ⟨hkey, happs⟩

end Interface

/-! ## 6. The meaning of a session -/

/-- An MTU that is not set counts as 1280. -/
def effectiveMtu (c : Config) : Int := (c.interface .mtu : Option Int).getD 1280

/-- What the session of a profile is to be: its MTU is 1280 at most, its peers have a keepalive, and all
    else is as in the profile. -/
structure SessionOf (text : String) (c c' : Config) : Prop where
  interface : ∀ k, k ≠ .mtu → c'.interface k = c.interface k
  mtu : effectiveMtu c' = min 1280 (effectiveMtu c)
  peers : c'.peers = List.zipWith kept (bodies .peer (document text).sections) c.peers

/-- The rewritten text means that. -/
def Preserves (numeric : String → Option InetAddress) (text : String) (c : Config) : Prop :=
  ∃ c', Config.parse numeric (sessionText text) = some c' ∧ SessionOf text c c'

/-- The MTU of the profile fits what `clampMtu` does about it. A last interface section without an MTU is
    given 1280, so an earlier one must not be smaller; an MTU beyond 1280 must be a number to `clampMtu`,
    too. -/
def MtuFits (text : String) (c : Config) : Prop :=
  match lastMtuLine (bodies .interface (document text).sections) with
  | none => 1280 ≤ effectiveMtu c
  | some raw => effectiveMtu c ≤ 1280 ∨ (mtuValue (trim raw)).isSome = true

section Session

variable {numeric : String → Option InetAddress} {text : String} {c : Config}

theorem seenAlike_bodies (hs : ∀ raw ∈ lineSequence text, SeenAlike raw) (k : Header) :
    ∀ b ∈ bodies k (document text).sections, ∀ raw ∈ b, SeenAlike raw := by
  intro b hb raw hraw
  obtain ⟨s, hmem, -, rfl⟩ := mem_of_mem_bodies hb
  exact hs raw (mem_of_mem_document hmem (.inr hraw))

/-- **What `Config.parse` reads from the session text.** -/
theorem sessionText_parses (h : Config.parse numeric text = some c)
    (hs : ∀ raw ∈ lineSequence text, SeenAlike raw) :
    Config.parse numeric (sessionText text) = some
      ⟨Function.update c.interface .mtu
        (clampedMtu (bodies .interface (document text).sections) (c.interface .mtu)),
        List.zipWith kept (bodies .peer (document text).sections) c.peers⟩ := by
  have hread := Awg.parse_iff.1 h
  obtain ⟨hfront, hheaders, hI, hP⟩ := document_sessionText hs
  rw [Awg.parse_iff]
  refine ⟨?_, ?_, ?_, ?_, ?_⟩
  · rw [hfront]
    exact hread.front
  · intro s hmem
    have hhead : s.1 ∈ (document (sessionText text)).sections.map (·.1) := List.mem_map_of_mem hmem
    rw [hheaders] at hhead
    obtain ⟨s', hs', he⟩ := List.mem_map.1 hhead
    exact he ▸ hread.headers s' hs'
  · rw [hI, Ne, List.map_eq_nil_iff]
    exact hread.interface_ne_nil
  · rw [hI]
    exact interface_full hread.interface_ne_nil (seenAlike_bodies hs .interface) hread.interface
  · rw [hP]
    exact mapM_kept (seenAlike_bodies hs .peer) hread.peers

/-- The number of the last MTU line. -/
theorem exists_mtu (h : Config.parse numeric text = some c)
    (hs : ∀ raw ∈ lineSequence text, SeenAlike raw) {raw : String}
    (hlast : lastMtuLine (bodies .interface (document text).sections) = some raw) :
    ∃ v m, valueOf InterfaceKey.names .mtu raw = some v ∧ parseInt v = some m ∧
      c.interface .mtu = if m = 0 then none else some m := by
  have hread := Awg.parse_iff.1 h
  obtain ⟨-, hkeys, -⟩ := Interface.parse_iff.1 hread.interface
  obtain ⟨v, hv, hcolumn⟩ := getLast?_filterMap_of_lastMtuLine (seenAlike_bodies hs .interface) hlast
  have hnumber := ((Slots.foldlM_last optionalNumber none _ _).1 (hkeys .mtu)).2
  rw [hcolumn, Option.elim_some] at hnumber
  unfold optionalNumber at hnumber
  split at hnumber
  · rename_i m hm
    split at hnumber
    · cases hnumber
    · exact ⟨v, m, hv, hm, (Option.some.inj hnumber).symm⟩
  · cases hnumber

/-- **The rewritten text keeps its meaning exactly where the MTU fits**, for a text that the loops and
    `Config.parse` read alike. -/
theorem sessionText_preserves_iff (h : Config.parse numeric text = some c)
    (hs : ∀ raw ∈ lineSequence text, SeenAlike raw) : Preserves numeric text c ↔ MtuFits text c := by
  have hparses := sessionText_parses h hs
  have hiff : Preserves numeric text c ↔
      (clampedMtu (bodies .interface (document text).sections) (c.interface .mtu)).getD 1280
        = min 1280 (effectiveMtu c) := by
    unfold Preserves
    rw [hparses]
    constructor
    · rintro ⟨c', hc', hsession⟩
      cases hc'
      have hmtu := hsession.mtu
      unfold effectiveMtu at hmtu
      dsimp only at hmtu
      rw [Function.update_self] at hmtu
      exact hmtu
    · intro hmtu
      refine ⟨_, rfl, fun k hk => Function.update_of_ne hk _ _, ?_, rfl⟩
      unfold effectiveMtu
      dsimp only
      rw [Function.update_self]
      exact hmtu
  rw [hiff]
  unfold clampedMtu MtuFits
  cases hlast : lastMtuLine (bodies .interface (document text).sections) with
  | none =>
    dsimp only [Option.getD_some]
    omega
  | some raw =>
    obtain ⟨v, m, hv, hm, hmtu⟩ := exists_mtu h hs hlast
    have heff : effectiveMtu c = if m = 0 then 1280 else m := by
      unfold effectiveMtu
      rw [hmtu]
      split <;> rfl
    dsimp only
    cases hn : mtuValue (trim raw) with
    | none =>
      have hkeep : clamping.replaces (trim raw) = false := by
        rw [replaces_eq, hn, Option.any_none]
      rw [hkeep, if_neg Bool.false_ne_true]
      have hsame : (c.interface .mtu : Option Int).getD 1280 = effectiveMtu c := rfl
      rw [hsame, Option.isSome_none]
      simp only [Bool.false_eq_true, or_false]
      omega
    | some n =>
      have hnm : n = m := mtuValue_agrees hv hm hn
      have hreplaces : clamping.replaces (trim raw) = decide (1280 < n) := by
        rw [replaces_eq, hn, Option.any_some]
      have hsame : (c.interface .mtu : Option Int).getD 1280 = effectiveMtu c := rfl
      refine iff_of_true ?_ (.inr rfl)
      rw [hreplaces]
      split
      · rename_i hbig
        have := of_decide_eq_true hbig
        rw [Option.getD_some, heff]
        split <;> omega
      · rename_i hsmall
        rw [decide_eq_true_eq] at hsmall
        rw [hsame, heff]
        split <;> omega

end Session

/-- A profile with the MTU of a wired line; addresses are not needed for it. -/
def wiredProfile : String :=
  "[Interface]\nPrivateKey = AAAAAAAAAAAAAAAAAAAAAAAAAAAAAAAAAAAAAAAAAAA=\nMTU = 1420\n\n[Peer]\n" ++
    "PublicKey = AAAAAAAAAAAAAAAAAAAAAAAAAAAAAAAAAAAAAAAAAAA="

theorem lineSequence_wired : lineSequence wiredProfile =
    ["[Interface]", "PrivateKey = AAAAAAAAAAAAAAAAAAAAAAAAAAAAAAAAAAAAAAAAAAA=", "MTU = 1420", "", "[Peer]",
      "PublicKey = AAAAAAAAAAAAAAAAAAAAAAAAAAAAAAAAAAAAAAAAAAA="] := by
  unfold wiredProfile
  rw [← String.ofList_append]
  exact (lineSequence_ofList _).trans (by decide +kernel)

theorem sessionText_preserves_wired :
    ∃ c, Config.parse (fun _ => none) wiredProfile = some c ∧
      (Preserves (fun _ => none) wiredProfile c ↔ MtuFits wiredProfile c) ∧
      Preserves (fun _ => none) wiredProfile c := by
  have hread : (Config.parse (fun _ => none) wiredProfile).isSome = true := by
    rw [parse_lines, lineSequence_wired]
    decide +kernel
  have hseen : ∀ raw ∈ lineSequence wiredProfile, SeenAlike raw := by
    rw [lineSequence_wired]
    decide +kernel
  have hlast : lastMtuLine (bodies .interface (document wiredProfile).sections) = some "MTU = 1420" := by
    unfold document
    rw [lineSequence_wired]
    decide +kernel
  have hnumber : (mtuValue (trim "MTU = 1420")).isSome = true := by decide +kernel
  obtain ⟨c, hc⟩ := Option.isSome_iff_exists.1 hread
  have hiff := sessionText_preserves_iff hc hseen
  refine ⟨c, hc, hiff, hiff.2 ?_⟩
  unfold MtuFits
  rw [hlast]
  exact .inr hnumber

/-- The header of the peer has a comment behind it. -/
def commentedProfile : String :=
  "[Interface]\nPrivateKey = AAAAAAAAAAAAAAAAAAAAAAAAAAAAAAAAAAAAAAAAAAA=\n\n[Peer] # home\n" ++
    "PublicKey = AAAAAAAAAAAAAAAAAAAAAAAAAAAAAAAAAAAAAAAAAAA="

theorem lineSequence_commented : lineSequence commentedProfile =
    ["[Interface]", "PrivateKey = AAAAAAAAAAAAAAAAAAAAAAAAAAAAAAAAAAAAAAAAAAA=", "", "[Peer] # home",
      "PublicKey = AAAAAAAAAAAAAAAAAAAAAAAAAAAAAAAAAAAAAAAAAAA="] := by
  unfold commentedProfile
  rw [← String.ofList_append]
  exact (lineSequence_ofList _).trans (by decide +kernel)

/-- **The MTU lands in the peer's section**, and the session has no configuration. -/
theorem session_unreadable :
    ∃ c, Config.parse (fun _ => none) commentedProfile = some c ∧
      ¬ Preserves (fun _ => none) commentedProfile c := by
  have hread : (Config.parse (fun _ => none) commentedProfile).isSome = true := by
    rw [parse_lines, lineSequence_commented]
    decide +kernel
  have hlines : lineSequence (sessionText commentedProfile) =
      ["[Interface]", "PrivateKey = AAAAAAAAAAAAAAAAAAAAAAAAAAAAAAAAAAAAAAAAAAA=", "", "[Peer] # home",
        "PublicKey = AAAAAAAAAAAAAAAAAAAAAAAAAAAAAAAAAAAAAAAAAAA=", "MTU = 1280"] := by
    unfold sessionText addKeepalive clampMtu
    rw [keeping.rewrite_lines (by decide), clamping.rewrite_lines (by decide), lineSequence_commented]
    decide +kernel
  have hlost : (Config.parse (fun _ => none) (sessionText commentedProfile)).isSome = false := by
    rw [parse_lines, hlines]
    decide +kernel
  obtain ⟨c, hc⟩ := Option.isSome_iff_exists.1 hread
  refine ⟨c, hc, ?_⟩
  rintro ⟨c', hc', -⟩
  rw [hc'] at hlost
  cases hlost

end SwiftVpn.WireGuardEngine
