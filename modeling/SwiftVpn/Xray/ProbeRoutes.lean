/-
  File:      SwiftVpn/Xray/ProbeRoutes.lean
  Subject:   THE ROUTE OF A PROBE: XrayProbeConfig.build and buildCustom, as XrayTester chooses them.

  * `XrayProbeConfig.build` -- the probe's config of a parsed link;
  * `ProbeServer`, `ProbeServer.config` -- what is probed, and the config made for it;
  * `RoutesToServer` -- the SOCKS rule sends to the server's own outbound, and to no other;
  * `probe_routes_iff` -- it does for every link, and for a custom document exactly where the app's own
    name is what its first outbound is tagged with;
  * `probe_misses_server` -- a custom document whose outbound has a name of its own.
-/
import SwiftVpn.Xray.Custom

namespace SwiftVpn

/-! ## 1. The two builders -/

namespace XrayProbeConfig

/-- `build`; no config where it cannot be written out. -/
def build (doubles : Doubles) (outbound : XrayOutbound) (socksPort : Int) : Option JsonObject :=
  (some [("log", probeLog),
    ("inbounds", .arr [.obj (socksInbound socksPort)]),
    ("outbounds", .arr
      [.obj (XrayConfig.outboundJson doubles outbound XrayConfig.proxyTag),
        .obj [("protocol", .str "freedom"), ("tag", .str "direct")]]),
    ("routing", .obj [("rules", .arr [.obj
      [("type", .str "field"), ("inboundTag", .arr [.str "socks-in"]),
        ("outboundTag", .str XrayConfig.proxyTag)]])])]).filter fun root => (Json.obj root).finite

end XrayProbeConfig

/-- What a probe is asked for: a parsed link or a custom document. -/
inductive ProbeServer where
  | link (outbound : XrayOutbound)
  | custom (jsonText : String)

namespace ProbeServer

/-- The config that `probe` and `downloadSpeed` start. -/
def config (doubles : Doubles) (socksPort : Int) : ProbeServer → Option JsonObject
  | .link outbound => XrayProbeConfig.build doubles outbound socksPort
  | .custom jsonText => XrayProbeConfig.buildCustom doubles jsonText socksPort

/-- The proxy outbound of the profile: the generated one, or the user's first. -/
def own (doubles : Doubles) : ProbeServer → Option JsonObject
  | .link outbound => some (XrayConfig.outboundJson doubles outbound XrayConfig.proxyTag)
  | .custom jsonText =>
    match (Json.ofText doubles jsonText).bind fun root => root.optArray "outbounds" with
    | some (.obj first :: _) => some first
    | _ => none

/-- The first outbound is tagged by the app, or has the app's tag already. -/
def Routable (doubles : Doubles) : ProbeServer → Prop
  | .link _ => True
  | .custom jsonText => isPolled (firstTag doubles jsonText) = true

end ProbeServer

/-- The tag of the probe's inbound. -/
def socksTag : String := "socks-in"

/-- The first outbound is the server's own, but for its tag; the rule for the SOCKS inbound sends to
    that one, and no other has its tag. -/
structure RoutesToServer (doubles : Doubles) (s : ProbeServer) (root : JsonObject) : Prop where
  first : ∃ own server rest, s.own doubles = some own ∧ outboundsOf root = .obj server :: rest ∧
    ∀ name ≠ "tag", server.lookup name = own.lookup name
  rule : ∃ rule tag, ruleFor socksTag root = some rule ∧
    rule.lookup "outboundTag" = some (.str tag) ∧ NamesFirst tag (outboundsOf root)

section Routes

variable {doubles : Doubles} {s : ProbeServer} {root first : JsonObject} {socksPort : Int}

/-- The frame of both configs around their outbounds. -/
theorem ruleFor_document (outbounds : List Json) :
    ruleFor socksTag (XrayProbeConfig.customDocument outbounds socksPort)
      = some [("type", .str "field"), ("inboundTag", .arr [.str "socks-in"]),
          ("outboundTag", .str XrayConfig.proxyTag)] := rfl

theorem tagOf_direct :
    tagOf (.obj [("protocol", .str "freedom"), ("tag", .str "direct")]) = some "direct" :=
  tagOf_of_lookup rfl (by decide)

/-- The tag of the server before the direct connection. -/
theorem namesFirst_proxy_iff (server : JsonObject) :
    NamesFirst XrayConfig.proxyTag
        [.obj server, .obj [("protocol", .str "freedom"), ("tag", .str "direct")]] ↔
      tagOf (.obj server) = some XrayConfig.proxyTag := by
  constructor
  · rintro ⟨e, rest, he, htag, -⟩
    cases he
    exact htag
  · intro htag
    refine ⟨_, _, rfl, htag, ?_⟩
    rw [tagsOf_cons_some tagOf_direct]
    decide

theorem lookup_tagFirst_of_ne {name : String} (h : name ≠ "tag") :
    (XrayConfig.tagFirst first).2.lookup name = first.lookup name := by
  unfold XrayConfig.tagFirst
  split
  · exact JsonObject.lookup_put_of_ne h _ _
  · rfl

/-- A first outbound has the app's tag, once it is tagged, exactly where the app polls it. -/
theorem tagOf_tagFirst_iff :
    tagOf (.obj (XrayConfig.tagFirst first).2) = some XrayConfig.proxyTag ↔
      isPolled (first.lookup "tag") = true := by
  rw [← tagFirst_polled]
  constructor
  · intro h
    obtain ⟨hread, hlookup, hblank⟩ := optString_of_tagOf h
    refine ⟨by rw [hlookup]; rfl, ?_⟩
    unfold XrayConfig.tagFirst at hread ⊢
    by_cases hb : isBlank (first.optString "tag") = true
    · rw [if_pos hb]
      rfl
    · rw [if_neg hb] at hread ⊢
      exact hread
  · rintro ⟨hleaf, -⟩
    obtain ⟨v, hv, hs⟩ := Option.map_eq_some_iff.1 hleaf
    cases v with
    | str t =>
      cases hs
      exact tagOf_of_lookup hv (by decide)
    | _ => cases hs

theorem link_routes {outbound : XrayOutbound} (h : XrayProbeConfig.build doubles outbound socksPort = some root) :
    RoutesToServer doubles (.link outbound) root := by
  obtain ⟨hroot, -⟩ := Option.filter_eq_some_iff.1 h
  cases hroot
  have htag : tagOf (.obj (XrayConfig.outboundJson doubles outbound XrayConfig.proxyTag))
      = some XrayConfig.proxyTag :=
    tagOf_of_lookup (JsonObject.lookup_put_self _ _ _) (by decide)
  exact ⟨⟨_, _, _, rfl, rfl, fun _ _ => rfl⟩, _, _, ruleFor_document _, rfl, (namesFirst_proxy_iff _).2 htag⟩

theorem custom_routes_iff {jsonText : String}
    (h : XrayProbeConfig.buildCustom doubles jsonText socksPort = some root) :
    RoutesToServer doubles (.custom jsonText) root ↔ isPolled (firstTag doubles jsonText) = true := by
  obtain ⟨outbounds, hcustom, rfl⟩ := Option.map_eq_some_iff.1 (Option.filter_eq_some_iff.1 h).1
  unfold XrayProbeConfig.customProxyArray at hcustom
  obtain ⟨doc, hdoc, hcustom⟩ := Option.bind_eq_some_iff.1 hcustom
  split at hcustom
  · rename_i first rest hout
    cases hcustom
    have htag : firstTag doubles jsonText = List.lookup "tag" first := by
      simp only [firstTag, hdoc, Option.bind_some, hout]
    have hown : (ProbeServer.custom jsonText).own doubles = some first := by
      simp only [ProbeServer.own, hdoc, Option.bind_some, hout]
    rw [htag, ← tagOf_tagFirst_iff, ← namesFirst_proxy_iff]
    constructor
    · rintro ⟨-, rule, tag, hrule, hto, hnames⟩
      rw [ruleFor_document] at hrule
      cases hrule
      cases hto
      exact hnames
    · intro hnames
      exact ⟨⟨first, _, _, hown, rfl, fun _ hname => lookup_tagFirst_of_ne hname⟩,
        _, _, ruleFor_document _, rfl, hnames⟩
  · cases hcustom

/-- **A probe goes through the server under test** for every link, and for a custom document exactly
    where its first outbound has the app's tag or gets it. -/
theorem probe_routes_iff (h : s.config doubles socksPort = some root) :
    RoutesToServer doubles s root ↔ s.Routable doubles := by
  cases s with
  | link outbound => exact iff_of_true (link_routes h) trivial
  | custom jsonText => exact custom_routes_iff h

end Routes

/-- A custom document whose outbound has the app's tag. -/
theorem probe_routes_proxy :
    ∃ root, (ProbeServer.custom (customDocument "proxy")).config noDoubles 1080 = some root ∧
      RoutesToServer noDoubles (.custom (customDocument "proxy")) root := by
  have hbuilt : ((ProbeServer.custom (customDocument "proxy")).config noDoubles 1080).isSome = true := by
    decide +kernel
  obtain ⟨root, hroot⟩ := Option.isSome_iff_exists.1 hbuilt
  have hpolled : isPolled (firstTag noDoubles (customDocument "proxy")) = true := by decide +kernel
  exact ⟨root, hroot, (probe_routes_iff hroot).2 hpolled⟩

/-- **The probe is routed to a tag that no outbound has**: the user's outbound is named "server". -/
theorem probe_misses_server :
    ∃ root, (ProbeServer.custom (customDocument "server")).config noDoubles 1080 = some root ∧
      tagsOf (outboundsOf root) = ["server", "direct"] ∧
      ¬ RoutesToServer noDoubles (.custom (customDocument "server")) root := by
  have hbuilt : ((ProbeServer.custom (customDocument "server")).config noDoubles 1080).map
      (fun root => (tagsOf (outboundsOf root),
        (ruleFor socksTag root).bind fun rule => (Json.obj rule).at? [.key "outboundTag"]))
        = some (["server", "direct"], some (.str "proxy")) := by decide +kernel
  obtain ⟨root, hroot, hr⟩ := Option.map_eq_some_iff.1 hbuilt
  simp only [Prod.mk.injEq] at hr
  refine ⟨root, hroot, hr.1, ?_⟩
  rintro ⟨-, rule, tag, hrule, hto, e, rest, hout, htag, -⟩
  have hproxy : tag = "proxy" := by
    rw [hrule] at hr
    simpa [Json.at?, hto, Json.leaf] using hr.2
  have htags := hr.1
  rw [hout, tagsOf_cons_some htag, hproxy, List.cons.injEq] at htags
  exact absurd htags.1 (by decide)

end SwiftVpn
