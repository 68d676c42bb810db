/-
  File:      SwiftVpn/Xray/Custom.lean
  Subject:   CUSTOM CONFIGS IN USE: XrayConfig.buildFromCustom and XrayProbeConfig.kt behind
             `isValidCustomJson`, and the latency request of XrayTestService.

  A config handed on is a document without a number that is not finite; of any other `toString()` is
  null. An exception that nothing catches is `Except.error`: in the test service it leaves a coroutine
  without a handler and ends the process.

  * `XrayProbeConfig.buildCustom`, `buildOutboundOnlyCustom` -- the probe's configs of a custom config;
  * `latencyReply` -- the reply to a latency request for a custom profile, if there is one;
  * `finite_merge_iff` -- what of the user's document gets into the tunnel's config;
  * `usable_iff` -- a custom config serves the tunnel, the probe and the latency test exactly where its
    first outbound is an object, no routing rule is a hole, and what is kept of it can be written out;
  * `custom_crashes` -- a config that passes the check and ends the process.
-/
import SwiftVpn.Xray.Merge
import SwiftVpn.Xray.Remote

namespace SwiftVpn

/-! ## 1. The probe's configs -/

/-- `typeMismatch`, of `getJSONObject`. -/
inductive JsonException where
  | notAnObject
  deriving DecidableEq, Repr

namespace XrayProbeConfig

/-- The log of a probe. -/
def probeLog : Json := .obj [("loglevel", .str "none")]

/-- The inbound of a probe. -/
def socksInbound (socksPort : Int) : JsonObject :=
  [("tag", .str "socks-in"), ("listen", .str "127.0.0.1"), ("port", .int socksPort),
   ("protocol", .str "socks"),
   ("settings", .obj [("auth", .str "noauth"), ("udp", .bool false)])]

/-- `customProxyArray`; an exception inside is caught. -/
def customProxyArray (doubles : Doubles) (jsonText : String) : Option (List Json) := do
  let root ← Json.ofText doubles jsonText
  match root.optArray "outbounds" with
  | some (.obj first :: _) =>
    some [.obj (XrayConfig.tagFirst first).2,
      .obj [("protocol", .str "freedom"), ("tag", .str "direct")]]
  | _ => none

/-- The document of `buildCustom`. -/
def customDocument (outbounds : List Json) (socksPort : Int) : JsonObject :=
  [("log", probeLog),
   ("inbounds", .arr [.obj (socksInbound socksPort)]),
   ("outbounds", .arr outbounds),
   ("routing", .obj [("rules", .arr [.obj
     [("type", .str "field"), ("inboundTag", .arr [.str "socks-in"]),
      ("outboundTag", .str XrayConfig.proxyTag)]])])]

/-- `buildCustom`. -/
def buildCustom (doubles : Doubles) (jsonText : String) (socksPort : Int) : Option JsonObject :=
  ((customProxyArray doubles jsonText).map fun outbounds => customDocument outbounds socksPort).filter
    fun root => (Json.obj root).finite

/-- The document of `buildOutboundOnlyCustom`. -/
def outboundOnlyDocument (first : JsonObject) : JsonObject :=
  [("log", probeLog), ("outbounds", .arr [.obj first])]

/-- `buildOutboundOnlyCustom`; only the reading of the text is guarded. -/
def buildOutboundOnlyCustom (doubles : Doubles) (jsonText : String) :
    Except JsonException (Option JsonObject) :=
  match (Json.ofText doubles jsonText).bind fun root => root.optArray "outbounds" with
  | none => .ok none
  | some [] => .ok none
  | some (.obj first :: _) =>
    .ok ((some (outboundOnlyDocument first)).filter fun root => (Json.obj root).finite)
  | some _ => .error .notAnObject

end XrayProbeConfig

/-! ## 2. The latency request -/

/-- `xrayLatency`; `measure` is `measureOutboundDelay`, whose exceptions are caught. -/
def xrayLatency (measure : JsonObject → Option Int) (cfg : Option JsonObject) : Option Int :=
  (cfg.bind measure).filter (0 ≤ ·)

/-- `XrayTester.latency` in the `:xray` process, for a custom config; `ready` is the answer of
    `XrayRuntime.ensure`. -/
def customLatency (doubles : Doubles) (ready : Bool) (measure : JsonObject → Option Int) (raw : String) :
    Except JsonException (Option Int) :=
  if !ready then .ok none
  else (XrayProbeConfig.buildOutboundOnlyCustom doubles raw).map (xrayLatency measure)

/-- `REQ_LATENCY` for a stored custom profile: the reply, if the process lives to send it. -/
def latencyReply (doubles : Doubles) (ready : Bool) (measure : JsonObject → Option Int) (raw : String) :
    Option Bundle :=
  match customLatency doubles ready measure raw with
  | .ok ms => some (replyBundle .latency { ms := ms })
  | .error _ => none

/-- Every use of a stored custom config gets what it needs. -/
structure ServesEveryUse (doubles : Doubles) (text : String) : Prop where
  tunnel : ∀ mtu, (XrayConfig.buildFromCustom doubles text mtu).isSome = true
  probe : ∀ socksPort, (XrayProbeConfig.buildCustom doubles text socksPort).isSome = true
  delay : ∃ cfg, XrayProbeConfig.buildOutboundOnlyCustom doubles text = .ok (some cfg)
  reply : ∀ ready measure, (latencyReply doubles ready measure text).isSome = true

/-! ## 3. What is kept of the user's document -/

/-- The members that `buildFromCustom` replaces, the last one first. -/
def replacedMembers : List String := ["routing", "inbounds", "dns", "policy", "stats", "log"]

/-- The first outbound is an object, no rule is a hole, and whatever is kept can be written out: all the
    outbounds and the other members; the log, the stats and the DNS where they are objects; of the policy
    and the routing what is not set anew; the inbounds that are objects and no TUN. -/
structure Usable (root : JsonObject) : Prop where
  first : ∃ first rest, root.optArray "outbounds" = some (.obj first :: rest)
  others : (Json.obj (root.removeAll replacedMembers)).finite = true
  log : (Json.obj ((root.optObject "log").getD [])).finite = true
  stats : (Json.obj ((root.optObject "stats").getD [])).finite = true
  dns : (Json.obj ((root.optObject "dns").getD [])).finite = true
  policy : (Json.obj (((root.optObject "policy").getD []).remove "system")).finite = true
  system : (Json.obj (((((root.optObject "policy").getD []).optObject "system").getD []).removeAll
    setCounters)).finite = true
  inbounds : ∀ inbound, .obj inbound ∈ (root.optArray "inbounds").getD [] →
    JsonObject.optString inbound "protocol" ≠ "tun" → (Json.obj inbound).finite = true
  routing : (Json.obj (((root.optObject "routing").getD []).remove "rules")).finite = true
  rules : ∀ rule ∈ (((root.optObject "routing").getD []).optArray "rules").getD [],
    rule ≠ .hole ∧ rule.finite = true

/-! ## 4. What the tunnel's config holds -/

section Merge

variable {root : JsonObject}

theorem lookup_removeAll_of_not_mem {names : List String} {name : String} (h : name ∉ names)
    (root : JsonObject) : (root.removeAll names).lookup name = root.lookup name := by
  unfold JsonObject.removeAll
  induction names generalizing root with
  | nil => rfl
  | cons other names ih =>
    rw [List.mem_cons, not_or] at h
    rw [List.foldl_cons, ih h.2, JsonObject.lookup_remove_of_ne h.1]

/-- An object that is kept, or the default for it, and the others. -/
theorem finite_orDefault {default : Json} (hd : default.finite = true) (root : JsonObject) (name : String) :
    (Json.obj (XrayConfig.orDefault root name default)).finite
      = ((Json.obj ((root.optObject name).getD [])).finite && (Json.obj (root.remove name)).finite) := by
  unfold XrayConfig.orDefault
  cases ho : root.optObject name with
  | none =>
    rw [Option.isNone_none, if_pos rfl, Json.finite_put, hd]
    rfl
  | some ms =>
    rw [Option.isNone_some, if_neg Bool.false_ne_true,
      Json.finite_of_lookup (JsonObject.lookup_of_optObject ho)]
    rfl

theorem remove_orDefault_of_ne {name other : String} (h : name ≠ other) (root : JsonObject)
    (default : Json) :
    (XrayConfig.orDefault root name default).remove other
      = XrayConfig.orDefault (root.remove other) name default := by
  unfold XrayConfig.orDefault
  rw [JsonObject.optObject_remove_of_ne h]
  split
  · exact JsonObject.remove_put_of_ne h root default
  · rfl

/-- The counters are set; the rest of the object stays. -/
theorem finite_withStats (system : JsonObject) :
    (Json.obj (XrayConfig.withStats system)).finite
      = (Json.obj (system.removeAll setCounters)).finite := by
  unfold XrayConfig.withStats JsonObject.removeAll setCounters
  simp only [List.foldl_cons, List.foldl_nil]
  rw [Json.finite_put, JsonObject.remove_put_of_ne (by decide), Json.finite_put,
    JsonObject.remove_put_of_ne (by decide), JsonObject.remove_put_of_ne (by decide), Json.finite_put,
    JsonObject.remove_put_of_ne (by decide), JsonObject.remove_put_of_ne (by decide),
    JsonObject.remove_put_of_ne (by decide), Json.finite_put]
  rfl

theorem finite_keptInbounds_iff (root : JsonObject) :
    (∀ e ∈ XrayConfig.keptInbounds root, e.finite = true) ↔
      ∀ inbound, .obj inbound ∈ (root.optArray "inbounds").getD [] →
        JsonObject.optString inbound "protocol" ≠ "tun" → (Json.obj inbound).finite = true := by
  unfold XrayConfig.keptInbounds
  constructor
  · intro h inbound hm hp
    exact h _ (List.mem_filter.2 ⟨hm, by simpa using hp⟩)
  · intro h e he
    obtain ⟨hm, hp⟩ := List.mem_filter.1 he
    cases e with
    | obj inbound => exact h inbound hm (by simpa using hp)
    | _ => cases hp

/-- The rule of the TUN in front of the user's. -/
theorem withRule_finite_iff (root : JsonObject) (tag : String) :
    ((XrayConfig.withRule root tag).filter fun out => (Json.obj out).finite).isSome = true ↔
      (∀ rule ∈ (((root.optObject "routing").getD []).optArray "rules").getD [],
        rule ≠ .hole ∧ rule.finite = true) ∧
      (Json.obj (((root.optObject "routing").getD []).remove "rules")).finite = true ∧
      (Json.obj (root.remove "routing")).finite = true := by
  unfold XrayConfig.withRule
  dsimp only
  cases hall : XrayConfig.getAll ((((root.optObject "routing").getD []).optArray "rules").getD []) with
  | none =>
    refine ⟨fun h => (by cases h), fun h => ?_⟩
    have hsome := getAll_eq_some.2 ⟨fun rule hr => (h.1 rule hr).1, rfl⟩
    rw [hall] at hsome
    cases hsome
  | some existing =>
    obtain ⟨hholes, rfl⟩ := getAll_eq_some.1 hall
    have hrule : (Json.obj (XrayConfig.tunRule tag)).finite = true := rfl
    show (Option.filter (fun out => (Json.obj out).finite) (some (root.put "routing" _))).isSome = true ↔ _
    rw [Option.isSome_filter, Option.any_some, Json.finite_put, Json.finite_put, Bool.and_eq_true,
      Bool.and_eq_true, Json.finite_arr_iff, List.forall_mem_cons, and_assoc]
    refine and_congr ?_ Iff.rfl
    exact ⟨fun h rule hr => ⟨hholes rule hr, h.2 rule hr⟩, fun h => ⟨hrule, fun rule hr => (h rule hr).2⟩⟩

/-- **What of the user's document gets into the tunnel's config.** -/
theorem finite_merge_iff (root first : JsonObject) (rest : List Json) (mtu : Int) :
    ((XrayConfig.merge root first rest mtu).filter fun out => (Json.obj out).finite).isSome = true ↔
      ((Json.obj (XrayConfig.tagFirst first).2).finite = true ∧ ∀ e ∈ rest, e.finite = true) ∧
      (Json.obj ((root.removeAll replacedMembers).remove "outbounds")).finite = true ∧
      (Json.obj ((root.optObject "log").getD [])).finite = true ∧
      (Json.obj ((root.optObject "stats").getD [])).finite = true ∧
      (Json.obj ((root.optObject "dns").getD [])).finite = true ∧
      (Json.obj (((root.optObject "policy").getD []).remove "system")).finite = true ∧
      (Json.obj (((((root.optObject "policy").getD []).optObject "system").getD []).removeAll
        setCounters)).finite = true ∧
      (∀ inbound, .obj inbound ∈ (root.optArray "inbounds").getD [] →
        JsonObject.optString inbound "protocol" ≠ "tun" → (Json.obj inbound).finite = true) ∧
      (Json.obj (((root.optObject "routing").getD []).remove "rules")).finite = true ∧
      (∀ rule ∈ (((root.optObject "routing").getD []).optArray "rules").getD [],
        rule ≠ .hole ∧ rule.finite = true) := by
  unfold XrayConfig.merge
  dsimp only
  generalize hA : Json.arr (.obj (XrayConfig.tagFirst first).2 :: rest) = outbounds
  -- the document before the policy, before the inbounds, and its members that nothing has set by then
  generalize hb : XrayConfig.orDefault (XrayConfig.orDefault (root.put "outbounds" outbounds) "log"
    XrayConfig.defaultLog) "stats" XrayConfig.defaultStats = b
  generalize hc : XrayConfig.orDefault (XrayConfig.withPolicy b) "dns" XrayConfig.defaultDns = c
  have hkeptB : ∀ name, name ≠ "outbounds" → name ≠ "log" → name ≠ "stats" →
      b.lookup name = root.lookup name := by
    intro name h1 h2 h3
    rw [← hb, lookup_orDefault_of_ne h3, lookup_orDefault_of_ne h2, JsonObject.lookup_put_of_ne h1]
  have hkeptC : ∀ name, name ≠ "outbounds" → name ≠ "log" → name ≠ "stats" → name ≠ "policy" →
      name ≠ "dns" → c.lookup name = root.lookup name := by
    intro name h1 h2 h3 h4 h5
    rw [← hc, lookup_orDefault_of_ne h5, XrayConfig.withPolicy, JsonObject.lookup_put_of_ne h4,
      hkeptB name h1 h2 h3]
  have hrouting : (c.put "inbounds" (.arr (.obj (XrayConfig.tunInbound mtu) ::
      XrayConfig.keptInbounds c))).optObject "routing" = root.optObject "routing" := by
    refine JsonObject.optObject_congr ?_
    rw [JsonObject.lookup_put_of_ne (by decide),
      hkeptC _ (by decide) (by decide) (by decide) (by decide) (by decide)]
  have hpolicy : b.optObject "policy" = root.optObject "policy" :=
    JsonObject.optObject_congr (hkeptB _ (by decide) (by decide) (by decide))
  have hinbounds : c.optArray "inbounds" = root.optArray "inbounds" :=
    JsonObject.optArray_congr (hkeptC _ (by decide) (by decide) (by decide) (by decide) (by decide))
  have hdns : (XrayConfig.withPolicy b).optObject "dns" = root.optObject "dns" := by
    refine JsonObject.optObject_congr ?_
    rw [XrayConfig.withPolicy, JsonObject.lookup_put_of_ne (by decide),
      hkeptB _ (by decide) (by decide) (by decide)]
  have hstats : (XrayConfig.orDefault (root.put "outbounds" outbounds) "log"
      XrayConfig.defaultLog).optObject "stats" = root.optObject "stats" := by
    refine JsonObject.optObject_congr ?_
    rw [lookup_orDefault_of_ne (by decide), JsonObject.lookup_put_of_ne (by decide)]
  have hlog : (root.put "outbounds" outbounds).optObject "log" = root.optObject "log" :=
    JsonObject.optObject_congr (JsonObject.lookup_put_of_ne (by decide) root outbounds)
  -- the members set are taken off one by one
  have hlast : (Json.obj ((c.put "inbounds" (.arr (.obj (XrayConfig.tunInbound mtu) ::
      XrayConfig.keptInbounds c))).remove "routing")).finite
        = ((Json.arr (.obj (XrayConfig.tunInbound mtu) :: XrayConfig.keptInbounds c)).finite &&
          (Json.obj ((c.remove "routing").remove "inbounds")).finite) := by
    rw [JsonObject.remove_put_of_ne (by decide), Json.finite_put]
  have hdefaults : (Json.obj ((c.remove "routing").remove "inbounds")).finite
      = ((Json.obj ((root.optObject "dns").getD [])).finite &&
        (Json.obj ((((XrayConfig.withPolicy b).remove "routing").remove "inbounds").remove "dns")).finite) := by
    rw [← hc, remove_orDefault_of_ne (by decide), remove_orDefault_of_ne (by decide),
      finite_orDefault rfl, JsonObject.optObject_remove_of_ne (by decide),
      JsonObject.optObject_remove_of_ne (by decide), hdns]
  have hset : (Json.obj ((((XrayConfig.withPolicy b).remove "routing").remove "inbounds").remove "dns")).finite
      = ((Json.obj (((root.optObject "policy").getD []).put "system" (.obj (XrayConfig.withStats
          ((((root.optObject "policy").getD []).optObject "system").getD []))))).finite &&
        (Json.obj ((((b.remove "routing").remove "inbounds").remove "dns").remove "policy")).finite) := by
    rw [XrayConfig.withPolicy, JsonObject.remove_put_of_ne (by decide),
      JsonObject.remove_put_of_ne (by decide), JsonObject.remove_put_of_ne (by decide), Json.finite_put,
      hpolicy]
  have hfirst : (Json.obj ((((b.remove "routing").remove "inbounds").remove "dns").remove "policy")).finite
      = ((Json.obj ((root.optObject "stats").getD [])).finite &&
        ((Json.obj ((root.optObject "log").getD [])).finite &&
          (outbounds.finite &&
            (Json.obj ((root.removeAll replacedMembers).remove "outbounds")).finite))) := by
    rw [← hb, remove_orDefault_of_ne (by decide), remove_orDefault_of_ne (by decide),
      remove_orDefault_of_ne (by decide), remove_orDefault_of_ne (by decide), finite_orDefault rfl,
      JsonObject.optObject_remove_of_ne (by decide), JsonObject.optObject_remove_of_ne (by decide),
      JsonObject.optObject_remove_of_ne (by decide), JsonObject.optObject_remove_of_ne (by decide),
      hstats, remove_orDefault_of_ne (by decide), remove_orDefault_of_ne (by decide),
      remove_orDefault_of_ne (by decide), remove_orDefault_of_ne (by decide),
      remove_orDefault_of_ne (by decide), finite_orDefault rfl,
      JsonObject.optObject_remove_of_ne (by decide), JsonObject.optObject_remove_of_ne (by decide),
      JsonObject.optObject_remove_of_ne (by decide), JsonObject.optObject_remove_of_ne (by decide),
      JsonObject.optObject_remove_of_ne (by decide), hlog, JsonObject.remove_put_of_ne (by decide),
      JsonObject.remove_put_of_ne (by decide), JsonObject.remove_put_of_ne (by decide),
      JsonObject.remove_put_of_ne (by decide), JsonObject.remove_put_of_ne (by decide),
      JsonObject.remove_put_of_ne (by decide), Json.finite_put]
    rfl
  have hsystem := finite_withStats ((((root.optObject "policy").getD []).optObject "system").getD [])
  have htun : (Json.obj (XrayConfig.tunInbound mtu)).finite = true := rfl
  have hkept := finite_keptInbounds_iff c
  rw [hinbounds] at hkept
  rw [withRule_finite_iff, hrouting, hlast, hdefaults, hset, hfirst, Json.finite_put, hsystem, ← hA]
  simp only [Bool.and_eq_true, Json.finite_arr_iff, List.forall_mem_cons, htun, true_and, hkept]
  tauto

end Merge

/-! ## 5. When a custom config serves every use -/

section Uses

variable {doubles : Doubles} {text : String} {root first : JsonObject} {rest : List Json}

theorem finite_tagFirst (h : (Json.obj first).finite = true) :
    (Json.obj (XrayConfig.tagFirst first).2).finite = true := by
  unfold XrayConfig.tagFirst
  split
  · rw [Json.finite_put, Bool.and_eq_true]
    exact ⟨rfl, Json.finite_remove h "tag"⟩
  · exact h

/-- The config of the latency test holds the first outbound as it is. -/
theorem buildOutboundOnlyCustom_eq_iff (hroot : Json.ofText doubles text = some root)
    (hout : root.optArray "outbounds" = some (.obj first :: rest)) :
    (∃ cfg, XrayProbeConfig.buildOutboundOnlyCustom doubles text = .ok (some cfg)) ↔
      (Json.obj first).finite = true := by
  have hfinite : (Json.obj (XrayProbeConfig.outboundOnlyDocument first)).finite
      = (Json.obj first).finite := by
    simp only [XrayProbeConfig.outboundOnlyDocument, XrayProbeConfig.probeLog, Json.finite,
      Json.finiteMembers, Json.finiteElems, Bool.and_true, Bool.true_and]
  unfold XrayProbeConfig.buildOutboundOnlyCustom
  rw [hroot, Option.bind_some, hout]
  dsimp only
  rw [Option.filter_some, hfinite]
  cases hf : (Json.obj first).finite with
  | true => exact iff_of_true ⟨_, rfl⟩ rfl
  | false =>
    refine iff_of_false ?_ Bool.false_ne_true
    rintro ⟨cfg, h⟩
    cases h

/-- The first outbound that the test asks for is an object. -/
theorem exists_first (h : ∃ cfg, XrayProbeConfig.buildOutboundOnlyCustom doubles text = .ok (some cfg)) :
    ∃ root first rest, Json.ofText doubles text = some root ∧
      root.optArray "outbounds" = some (.obj first :: rest) := by
  obtain ⟨cfg, h⟩ := h
  unfold XrayProbeConfig.buildOutboundOnlyCustom at h
  cases hroot : Json.ofText doubles text with
  | none =>
    rw [hroot] at h
    cases h
  | some root =>
    rw [hroot, Option.bind_some] at h
    split at h
    · cases h
    · cases h
    · rename_i first rest hout
      exact ⟨root, first, rest, rfl, hout⟩
    · cases h

/-- **A custom config serves every use** exactly where it is usable. -/
theorem usable_iff (doubles : Doubles) (text : String) :
    ServesEveryUse doubles text ↔ ∃ root, Json.ofText doubles text = some root ∧ Usable root := by
  constructor
  · intro h
    obtain ⟨root, first, rest, hroot, hout⟩ := exists_first h.delay
    have hfirst := (buildOutboundOnlyCustom_eq_iff hroot hout).1 h.delay
    have htunnel := h.tunnel 1500
    unfold XrayConfig.buildFromCustom at htunnel
    rw [hroot, Option.bind_eq_bind, Option.bind_some, hout] at htunnel
    obtain ⟨⟨-, hrest⟩, hothers, hlog, hstats, hdns, hpolicy, hsystem, hinbounds, hrouting, hrules⟩ :=
      (finite_merge_iff root first rest 1500).1 htunnel
    have houtbounds : (root.removeAll replacedMembers).lookup "outbounds"
        = some (.arr (.obj first :: rest)) := by
      rw [lookup_removeAll_of_not_mem (by decide), JsonObject.lookup_of_optArray hout]
    refine ⟨root, hroot, ⟨first, rest, hout⟩, ?_, hlog, hstats, hdns, hpolicy, hsystem, hinbounds,
      hrouting, hrules⟩
    rw [Json.finite_of_lookup houtbounds, hothers, Bool.and_true, Json.finite_arr_iff]
    exact List.forall_mem_cons.2 ⟨hfirst, hrest⟩
  · rintro ⟨root, hroot, hu⟩
    obtain ⟨first, rest, hout⟩ := hu.first
    have houtbounds : (root.removeAll replacedMembers).lookup "outbounds"
        = some (.arr (.obj first :: rest)) := by
      rw [lookup_removeAll_of_not_mem (by decide), JsonObject.lookup_of_optArray hout]
    have hothers := hu.others
    rw [Json.finite_of_lookup houtbounds, Bool.and_eq_true, Json.finite_arr_iff,
      List.forall_mem_cons] at hothers
    have hfirst : (Json.obj first).finite = true := hothers.1.1
    have hdelay := (buildOutboundOnlyCustom_eq_iff hroot hout).2 hfirst
    refine ⟨fun mtu => ?_, fun socksPort => ?_, hdelay, fun ready measure => ?_⟩
    · unfold XrayConfig.buildFromCustom
      rw [hroot, Option.bind_eq_bind, Option.bind_some, hout]
      exact (finite_merge_iff root first rest mtu).2 ⟨⟨finite_tagFirst hfirst, hothers.1.2⟩, hothers.2,
        hu.log, hu.stats, hu.dns, hu.policy, hu.system, hu.inbounds, hu.routing, hu.rules⟩
    · have hdoc : (Json.obj (XrayProbeConfig.customDocument [.obj (XrayConfig.tagFirst first).2,
          .obj [("protocol", .str "freedom"), ("tag", .str "direct")]] socksPort)).finite
            = (Json.obj (XrayConfig.tagFirst first).2).finite := by
        simp only [XrayProbeConfig.customDocument, XrayProbeConfig.probeLog,
          XrayProbeConfig.socksInbound, Json.finite, Json.finiteMembers, Json.finiteElems,
          Bool.and_true, Bool.true_and]
      unfold XrayProbeConfig.buildCustom XrayProbeConfig.customProxyArray
      rw [hroot, Option.bind_eq_bind, Option.bind_some, hout]
      dsimp only
      rw [Option.map_some, Option.filter_some, hdoc, finite_tagFirst hfirst]
      rfl
    · obtain ⟨cfg, hcfg⟩ := hdelay
      unfold latencyReply customLatency
      rw [hcfg]
      cases ready <;> rfl

end Uses

/-- A custom config whose only outbound is a number. -/
def numberOutbound : String := "\x7b\"outbounds\":[0]\x7d"

/-- **A config that passes the check and ends the process**: no use of it gets anything, and the latency
    request gets no reply. -/
theorem custom_crashes :
    XrayConfig.isValidCustomJson noDoubles numberOutbound = true ∧
    (XrayConfig.buildFromCustom noDoubles numberOutbound).isNone = true ∧
    (XrayProbeConfig.buildCustom noDoubles numberOutbound 10808).isNone = true ∧
    (XrayProbeConfig.buildOutboundOnlyCustom noDoubles numberOutbound).isOk = false ∧
    latencyReply noDoubles true (fun _ => some 42) numberOutbound = none := by
  refine ⟨?_, ?_, ?_, ?_, ?_⟩ <;> decide +kernel

end SwiftVpn
