/-
  File:      SwiftVpn/Xray/Merge.lean
  Subject:   WHAT THE MERGER OF CUSTOM DOCUMENTS KEEPS: XrayConfig.buildFromCustom.

  Objects are compared name by name (`lookup`); the order of the members is that of the puts.

  * `merge_eq_some` -- the merged document, before its inbounds and its routing are set;
  * `Merged`, `buildFromCustom_merged` -- the frame: what stands under every name of the result;
  * `tagsOf`, `TagsUnique` -- the tags of an array, and that the two that are routed by name one element;
  * `tags_unique_iff` -- distinct tags stay distinct exactly where the app's two tags are free;
  * `tags_collide` -- a document that already has both.
-/
import SwiftVpn.Xray.Tags

namespace SwiftVpn

/-! ## 1. The merged document -/

theorem getAll_cons {e : Json} (he : e ≠ .hole) (es : List Json) :
    XrayConfig.getAll (e :: es) = (XrayConfig.getAll es).map (e :: ·) := by
  unfold XrayConfig.getAll
  rw [List.mapM_cons]
  cases e with
  | hole => exact absurd rfl he
  | _ => exact Option.map_eq_bind.symm

theorem getAll_eq_some {es out : List Json} :
    XrayConfig.getAll es = some out ↔ (∀ e ∈ es, e ≠ .hole) ∧ out = es := by
  induction es generalizing out with
  | nil => exact ⟨fun h => ⟨nofun, (Option.some.inj h).symm⟩, fun h => by rw [h.2]; rfl⟩
  | cons e es ih =>
    by_cases he : e = .hole
    · subst he
      refine ⟨fun h => ?_, fun h => absurd rfl (h.1 .hole List.mem_cons_self)⟩
      unfold XrayConfig.getAll at h
      rw [List.mapM_cons] at h
      cases h
    · rw [getAll_cons he, Option.map_eq_some_iff, List.forall_mem_cons]
      constructor
      · rintro ⟨rest, hrest, rfl⟩
        obtain ⟨hes, rfl⟩ := ih.1 hrest
        exact ⟨⟨he, hes⟩, rfl⟩
      · rintro ⟨⟨-, hes⟩, rfl⟩
        exact ⟨es, ih.2 ⟨hes, rfl⟩, rfl⟩

/-- An object under the name, or the default. -/
theorem lookup_orDefault_self (root : JsonObject) (name : String) (default : Json) :
    (XrayConfig.orDefault root name default).lookup name
      = some (((root.optObject name).map Json.obj).getD default) := by
  unfold XrayConfig.orDefault
  cases ho : root.optObject name with
  | none =>
    rw [Option.isNone_none, if_pos rfl, JsonObject.lookup_put_self]
    rfl
  | some ms =>
    rw [Option.isNone_some, if_neg Bool.false_ne_true, JsonObject.lookup_of_optObject ho]
    rfl

/-- The members of `policy.system` that are set, the last one first. -/
def setCounters : List String :=
  ["statsInboundDownlink", "statsInboundUplink", "statsOutboundDownlink", "statsOutboundUplink"]

theorem lookup_withStats (system : JsonObject) (name : String) :
    (XrayConfig.withStats system).lookup name
      = if name ∈ setCounters then some (.bool true) else system.lookup name := by
  unfold XrayConfig.withStats setCounters
  simp only [List.mem_cons, List.not_mem_nil, or_false]
  by_cases h4 : name = "statsInboundDownlink"
  · rw [h4, JsonObject.lookup_put_self, if_pos (by decide)]
  · rw [JsonObject.lookup_put_of_ne h4]
    by_cases h3 : name = "statsInboundUplink"
    · rw [h3, JsonObject.lookup_put_self, if_pos (by decide)]
    · rw [JsonObject.lookup_put_of_ne h3]
      by_cases h2 : name = "statsOutboundDownlink"
      · rw [h2, JsonObject.lookup_put_self, if_pos (by decide)]
      · rw [JsonObject.lookup_put_of_ne h2]
        by_cases h1 : name = "statsOutboundUplink"
        · rw [h1, JsonObject.lookup_put_self, if_pos (by decide)]
        · rw [JsonObject.lookup_put_of_ne h1, if_neg (by simp [h1, h2, h3, h4])]

/-- The names that the merger sets. -/
def mergedNames : List String :=
  ["outbounds", "log", "stats", "policy", "dns", "inbounds", "routing"]

/-- The user's inbounds that stay: objects whose protocol is not `tun`. -/
def staysInbound : Json → Bool
  | .obj inbound => JsonObject.optString inbound "protocol" != "tun"
  | _ => false

/-- The result of a merge, name by name: `root` is the user's object, `first :: rest` its outbounds. -/
structure Merged (root first : JsonObject) (rest : List Json) (mtu : Int) (out : JsonObject) : Prop where
  outbounds : out.lookup "outbounds" = some (.arr (.obj
    (if isBlank (first.optString "tag") then first.put "tag" (.str XrayConfig.proxyTag) else first) ::
      rest))
  inbounds : out.lookup "inbounds" = some (.arr (.obj (XrayConfig.tunInbound mtu) ::
    ((root.optArray "inbounds").getD []).filter staysInbound))
  routing : ∃ routing, out.lookup "routing" = some (.obj routing) ∧
    routing.lookup "rules" = some (.arr
      (.obj (XrayConfig.tunRule (ifBlank (first.optString "tag") XrayConfig.proxyTag)) ::
        (((root.optObject "routing").getD []).optArray "rules").getD [])) ∧
    ∀ name ≠ "rules", routing.lookup name = ((root.optObject "routing").getD []).lookup name
  policy : ∃ policy system, out.lookup "policy" = some (.obj policy) ∧
    policy.lookup "system" = some (.obj system) ∧
    (∀ name ∈ setCounters, system.lookup name = some (.bool true)) ∧
    (∀ name ∉ setCounters, system.lookup name
      = ((((root.optObject "policy").getD []).optObject "system").getD []).lookup name) ∧
    ∀ name ≠ "system", policy.lookup name = ((root.optObject "policy").getD []).lookup name
  log : out.lookup "log" = some (((root.optObject "log").map Json.obj).getD XrayConfig.defaultLog)
  stats : out.lookup "stats" = some (((root.optObject "stats").map Json.obj).getD XrayConfig.defaultStats)
  dns : out.lookup "dns" = some (((root.optObject "dns").map Json.obj).getD XrayConfig.defaultDns)
  others : ∀ name ∉ mergedNames, out.lookup name = root.lookup name

section Merge

variable {root first out : JsonObject} {rest : List Json} {mtu : Int}

theorem withRule_eq_some {tag : String} (h : XrayConfig.withRule root tag = some out) :
    out = root.put "routing" (.obj (((root.optObject "routing").getD []).put "rules" (.arr
      (.obj (XrayConfig.tunRule tag) :: (((root.optObject "routing").getD []).optArray "rules").getD [])))) := by
  unfold XrayConfig.withRule at h
  obtain ⟨existing, hall, he⟩ := Option.bind_eq_some_iff.1 h
  obtain ⟨-, rfl⟩ := getAll_eq_some.1 hall
  cases he
  rfl

/-- **The frame of a merge.** -/
theorem merged_of_merge (h : XrayConfig.merge root first rest mtu = some out) :
    Merged root first rest mtu out := by
  have hout := withRule_eq_some h
  generalize hA : Json.arr (.obj (XrayConfig.tagFirst first).2 :: rest) = outbounds at hout
  generalize hb : XrayConfig.orDefault (XrayConfig.orDefault (root.put "outbounds" outbounds) "log"
    XrayConfig.defaultLog) "stats" XrayConfig.defaultStats = b at hout
  generalize hc : XrayConfig.orDefault (XrayConfig.withPolicy b) "dns" XrayConfig.defaultDns = c at hout
  -- what has not been set yet is the user's
  have hkeptB : ∀ name, name ≠ "outbounds" → name ≠ "log" → name ≠ "stats" →
      b.lookup name = root.lookup name := by
    intro name h1 h2 h3
    rw [← hb, lookup_orDefault_of_ne h3, lookup_orDefault_of_ne h2, JsonObject.lookup_put_of_ne h1]
  have hkeptC : ∀ name, name ≠ "policy" → name ≠ "dns" → c.lookup name = b.lookup name := by
    intro name h4 h5
    rw [← hc, lookup_orDefault_of_ne h5, XrayConfig.withPolicy, JsonObject.lookup_put_of_ne h4]
  generalize hd : c.put "inbounds" (.arr (.obj (XrayConfig.tunInbound mtu) ::
    XrayConfig.keptInbounds c)) = d at hout
  have hkeptD : ∀ name, name ≠ "routing" → name ≠ "inbounds" → out.lookup name = c.lookup name := by
    intro name h6 h7
    rw [hout, JsonObject.lookup_put_of_ne h6, ← hd, JsonObject.lookup_put_of_ne h7]
  have hinbounds : XrayConfig.keptInbounds c = ((root.optArray "inbounds").getD []).filter staysInbound := by
    have hsame : c.optArray "inbounds" = root.optArray "inbounds" := by
      refine JsonObject.optArray_congr ?_
      rw [hkeptC _ (by decide) (by decide), hkeptB _ (by decide) (by decide) (by decide)]
    unfold XrayConfig.keptInbounds
    rw [hsame]
    refine List.filter_congr fun e _ => ?_
    cases e <;> rfl
  have hrouting : d.optObject "routing" = root.optObject "routing" := by
    refine JsonObject.optObject_congr ?_
    rw [← hd, JsonObject.lookup_put_of_ne (by decide), hkeptC _ (by decide) (by decide),
      hkeptB _ (by decide) (by decide) (by decide)]
  have hpolicy : b.optObject "policy" = root.optObject "policy" :=
    JsonObject.optObject_congr (hkeptB _ (by decide) (by decide) (by decide))
  generalize hs : (((root.optObject "policy").getD []).optObject "system").getD [] = system
  refine ⟨?_, ?_, ⟨((root.optObject "routing").getD []).put "rules" (.arr
      (.obj (XrayConfig.tunRule (XrayConfig.tagFirst first).1) ::
        (((root.optObject "routing").getD []).optArray "rules").getD [])), ?_, ?_, ?_⟩,
    ⟨((root.optObject "policy").getD []).put "system" (.obj (XrayConfig.withStats system)),
      XrayConfig.withStats system, ?_, ?_, ?_, ?_, ?_⟩, ?_, ?_, ?_, ?_⟩
  · rw [hkeptD _ (by decide) (by decide), hkeptC _ (by decide) (by decide), ← hb,
      lookup_orDefault_of_ne (by decide), lookup_orDefault_of_ne (by decide),
      JsonObject.lookup_put_self, ← hA, XrayConfig.tagFirst, apply_ite Prod.snd]
  · rw [hout, JsonObject.lookup_put_of_ne (by decide), ← hd, JsonObject.lookup_put_self, hinbounds]
  · rw [hout, JsonObject.lookup_put_self, hrouting]
  · rw [JsonObject.lookup_put_self, XrayConfig.tagFirst, apply_ite Prod.fst]
    rfl
  · exact fun name hname => JsonObject.lookup_put_of_ne hname _ _
  · rw [hkeptD _ (by decide) (by decide), ← hc, lookup_orDefault_of_ne (by decide),
      XrayConfig.withPolicy, JsonObject.lookup_put_self, hpolicy, hs]
  · exact JsonObject.lookup_put_self _ _ _
  · exact fun name hname => by rw [lookup_withStats, if_pos hname]
  · exact fun name hname => by rw [lookup_withStats, if_neg hname, hs]
  · exact fun name hname => JsonObject.lookup_put_of_ne hname _ _
  · rw [hkeptD _ (by decide) (by decide), hkeptC _ (by decide) (by decide), ← hb,
      lookup_orDefault_of_ne (by decide), lookup_orDefault_self,
      JsonObject.optObject_congr (JsonObject.lookup_put_of_ne (by decide) root outbounds)]
  · rw [hkeptD _ (by decide) (by decide), hkeptC _ (by decide) (by decide), ← hb,
      lookup_orDefault_self, JsonObject.optObject_congr (lookup_orDefault_of_ne (by decide) _ _),
      JsonObject.optObject_congr (JsonObject.lookup_put_of_ne (by decide) root outbounds)]
  · have hdns : (XrayConfig.withPolicy b).optObject "dns" = root.optObject "dns" := by
      refine JsonObject.optObject_congr ?_
      rw [XrayConfig.withPolicy, JsonObject.lookup_put_of_ne (by decide),
        hkeptB _ (by decide) (by decide) (by decide)]
    rw [hkeptD _ (by decide) (by decide), ← hc, lookup_orDefault_self, hdns]
  · intro name hname
    simp only [mergedNames, List.mem_cons, List.not_mem_nil, or_false, not_or] at hname
    obtain ⟨h1, h2, h3, h4, h5, h6, h7⟩ := hname
    rw [hkeptD name h7 h6, hkeptC name h4 h5, hkeptB name h1 h2 h3]

/-- A text that is accepted is merged. -/
theorem exists_merge {doubles : Doubles} {text : String}
    (h : XrayConfig.buildFromCustom doubles text mtu = some out) :
    ∃ root first rest, Json.ofText doubles text = some root ∧
      root.optArray "outbounds" = some (.obj first :: rest) ∧
      XrayConfig.merge root first rest mtu = some out := by
  unfold XrayConfig.buildFromCustom at h
  obtain ⟨root, hroot, h⟩ := Option.bind_eq_some_iff.1 h
  split at h
  · rename_i first rest hout
    exact ⟨root, first, rest, hroot, hout, (Option.filter_eq_some_iff.1 h).1⟩
  · cases h

/-- **The merge keeps the user's document**, but for what it sets. -/
theorem buildFromCustom_merged {doubles : Doubles} {text : String}
    (h : XrayConfig.buildFromCustom doubles text mtu = some out) :
    ∃ root first rest, Json.ofText doubles text = some root ∧
      root.optArray "outbounds" = some (.obj first :: rest) ∧ Merged root first rest mtu out := by
  obtain ⟨root, first, rest, hroot, hout, hmerge⟩ := exists_merge h
  exact ⟨root, first, rest, hroot, hout, merged_of_merge hmerge⟩

end Merge

/-- A document with one outbound. -/
theorem buildFromCustom_merged_server :
    ∃ out root first rest, Json.ofText noDoubles (customDocument "server") = some root ∧
      root.optArray "outbounds" = some (.obj first :: rest) ∧ Merged root first rest 1500 out := by
  have hbuilt : (XrayConfig.buildFromCustom noDoubles (customDocument "server")).isSome = true := by
    decide +kernel
  obtain ⟨out, hout⟩ := Option.isSome_iff_exists.1 hbuilt
  exact ⟨out, buildFromCustom_merged hout⟩

/-! ## 2. Tags -/

/-- A tag: a string that is not blank. -/
def tagOf : Json → Option String
  | .obj e =>
    match List.lookup "tag" e with
    | some (.str s) => if isBlank s then none else some s
    | _ => none
  | _ => none

/-- The tags of an array. -/
def tagsOf (es : List Json) : List String := es.filterMap tagOf

/-- The elements of `outbounds`. -/
def outboundsOf (root : JsonObject) : List Json := (root.optArray "outbounds").getD []

/-- The elements of `inbounds`. -/
def inboundsOf (root : JsonObject) : List Json := (root.optArray "inbounds").getD []

/-- No tag occurs twice. -/
structure TagsDistinct (root : JsonObject) : Prop where
  outbounds : (tagsOf (outboundsOf root)).Nodup
  inbounds : (tagsOf (inboundsOf root)).Nodup

/-- The tag of the first element, and of no other. -/
def NamesFirst (tag : String) (es : List Json) : Prop :=
  ∃ e rest, es = e :: rest ∧ tagOf e = some tag ∧ tag ∉ tagsOf rest

/-- No tag occurs twice; the rule for the TUN is that of one inbound, and sends to one outbound. -/
structure TagsUnique (out : JsonObject) : Prop where
  distinct : TagsDistinct out
  inbound : NamesFirst XrayVpnService.tunTag (inboundsOf out)
  outbound : ∃ rule tag, ruleFor XrayVpnService.tunTag out = some rule ∧
    rule.lookup "outboundTag" = some (.str tag) ∧ NamesFirst tag (outboundsOf out)

/-- The app's tags are free: that of the TUN among the inbounds that stay, and that of the proxy among
    the outbounds behind a first one without a tag. A first one with a tag has a string. -/
structure AppTagsFree (root first : JsonObject) (rest : List Json) : Prop where
  inbound : XrayVpnService.tunTag ∉ tagsOf ((inboundsOf root).filter staysInbound)
  outbound : if isBlank (first.optString "tag") then XrayConfig.proxyTag ∉ tagsOf rest
    else ∃ s, first.lookup "tag" = some (.str s)

section Tags

variable {doubles : Doubles} {text : String} {root first out : JsonObject} {rest : List Json} {mtu : Int}

theorem tagOf_obj (e : JsonObject) :
    tagOf (.obj e) = match e.lookup "tag" with
      | some (.str s) => if isBlank s then none else some s
      | _ => none := rfl

theorem tagOf_of_lookup {e : JsonObject} {s : String} (h : e.lookup "tag" = some (.str s))
    (hs : isBlank s = false) : tagOf (.obj e) = some s := by
  rw [tagOf_obj, h]
  exact if_neg (by simp [hs])

/-- What reads as blank is no tag. -/
theorem tagOf_of_blank (h : isBlank (first.optString "tag") = true) : tagOf (.obj first) = none := by
  rw [tagOf_obj]
  cases hl : first.lookup "tag" with
  | none => rfl
  | some v =>
    cases v with
    | str s =>
      rw [JsonObject.optString_of_some hl] at h
      exact if_pos h
    | _ => rfl

/-- A tag is what the merger reads. -/
theorem optString_of_tagOf {s : String} (h : tagOf (.obj first) = some s) :
    first.optString "tag" = s ∧ first.lookup "tag" = some (.str s) ∧ isBlank s = false := by
  rw [tagOf_obj] at h
  cases hl : first.lookup "tag" with
  | none =>
    rw [hl] at h
    cases h
  | some v =>
    rw [hl] at h
    cases v with
    | str t =>
      dsimp only at h
      by_cases hb : isBlank t = true
      · rw [if_pos hb] at h
        cases h
      · rw [if_neg hb] at h
        cases h
        exact ⟨JsonObject.optString_of_some hl, rfl, by simpa using hb⟩
    | _ => cases h

theorem tagsOf_cons_some {e : Json} {s : String} (h : tagOf e = some s) (es : List Json) :
    tagsOf (e :: es) = s :: tagsOf es := List.filterMap_cons_some h

theorem tagsOf_cons_none {e : Json} (h : tagOf e = none) (es : List Json) :
    tagsOf (e :: es) = tagsOf es := List.filterMap_cons_none h

theorem optArray_of_lookup {o : JsonObject} {name : String} {es : List Json}
    (h : o.lookup name = some (.arr es)) : o.optArray name = some es := by
  unfold JsonObject.optArray
  rw [h]

/-- The inbounds of a merged document. -/
theorem inbound_unique_iff (hm : Merged root first rest mtu out) (hd : (tagsOf (inboundsOf root)).Nodup) :
    ((tagsOf (inboundsOf out)).Nodup ∧ NamesFirst XrayVpnService.tunTag (inboundsOf out)) ↔
      XrayVpnService.tunTag ∉ tagsOf ((inboundsOf root).filter staysInbound) := by
  have hin : inboundsOf out = .obj (XrayConfig.tunInbound mtu) :: (inboundsOf root).filter staysInbound := by
    unfold inboundsOf
    rw [optArray_of_lookup hm.inbounds]
    rfl
  have htun : tagOf (.obj (XrayConfig.tunInbound mtu)) = some XrayVpnService.tunTag :=
    tagOf_of_lookup rfl (by decide)
  rw [hin, tagsOf_cons_some htun, List.nodup_cons]
  constructor
  · rintro ⟨⟨h, -⟩, -⟩
    exact h
  · intro h
    exact ⟨⟨h, hd.sublist (List.filter_sublist.filterMap _)⟩, _, _, rfl, htun, h⟩

/-- The outbounds of a merged document, and the tag that the rule has. -/
theorem outbound_unique_iff (hout : root.optArray "outbounds" = some (.obj first :: rest))
    (hm : Merged root first rest mtu out) (hd : (tagsOf (outboundsOf root)).Nodup) :
    ((tagsOf (outboundsOf out)).Nodup ∧
        NamesFirst (ifBlank (first.optString "tag") XrayConfig.proxyTag) (outboundsOf out)) ↔
      if isBlank (first.optString "tag") then XrayConfig.proxyTag ∉ tagsOf rest
      else ∃ s, first.lookup "tag" = some (.str s) := by
  have hroot : outboundsOf root = .obj first :: rest := by
    unfold outboundsOf
    rw [hout]
    rfl
  rw [hroot] at hd
  have hmerged : outboundsOf out = .obj (if isBlank (first.optString "tag") then
      first.put "tag" (.str XrayConfig.proxyTag) else first) :: rest := by
    unfold outboundsOf
    rw [optArray_of_lookup hm.outbounds]
    rfl
  rw [hmerged]
  unfold ifBlank
  by_cases hb : isBlank (first.optString "tag") = true
  · rw [if_pos hb, if_pos hb, if_pos hb]
    rw [tagsOf_cons_none (tagOf_of_blank hb)] at hd
    have htag : tagOf (.obj (first.put "tag" (.str XrayConfig.proxyTag))) = some XrayConfig.proxyTag :=
      tagOf_of_lookup (JsonObject.lookup_put_self _ _ _) (by decide)
    rw [tagsOf_cons_some htag, List.nodup_cons]
    constructor
    · rintro ⟨⟨h, -⟩, -⟩
      exact h
    · intro h
      exact ⟨⟨h, hd⟩, _, _, rfl, htag, h⟩
  · rw [if_neg hb, if_neg hb, if_neg hb]
    constructor
    · rintro ⟨-, e, es, he, htag, -⟩
      cases he
      exact ⟨_, (optString_of_tagOf htag).2.1⟩
    · rintro ⟨s, hs⟩
      have hread : first.optString "tag" = s := JsonObject.optString_of_some hs
      rw [hread] at hb ⊢
      have htag := tagOf_of_lookup hs (by simpa using hb)
      refine ⟨hd, _, _, rfl, htag, ?_⟩
      rw [tagsOf_cons_some htag, List.nodup_cons] at hd
      exact hd.1

/-- **Tags stay unique** exactly where the app's two tags are free. -/
theorem tags_unique_iff (h : XrayConfig.buildFromCustom doubles text mtu = some out)
    (hroot : Json.ofText doubles text = some root) (hd : TagsDistinct root) :
    TagsUnique out ↔ ∃ first rest, root.optArray "outbounds" = some (.obj first :: rest) ∧
      AppTagsFree root first rest := by
  obtain ⟨root', first, rest, hroot', hout, hmerge⟩ := exists_merge h
  rw [hroot] at hroot'
  cases hroot'
  have hm := merged_of_merge hmerge
  have hrule := merge_ruleFor hmerge
  have htag : (XrayConfig.tagFirst first).1
      = ifBlank (JsonObject.optString first "tag") XrayConfig.proxyTag := by
    rw [XrayConfig.tagFirst, apply_ite Prod.fst]
    rfl
  rw [htag] at hrule
  have hin := inbound_unique_iff hm hd.inbounds
  have hou := outbound_unique_iff hout hm hd.outbounds
  constructor
  · intro hu
    obtain ⟨rule, tag, hr, ht, hnames⟩ := hu.outbound
    rw [hrule] at hr
    cases hr
    cases ht
    exact ⟨first, rest, hout, hin.1 ⟨hu.distinct.inbounds, hu.inbound⟩,
      hou.1 ⟨hu.distinct.outbounds, hnames⟩⟩
  · rintro ⟨first', rest', hout', hfree⟩
    rw [hout] at hout'
    cases hout'
    obtain ⟨hdin, hnin⟩ := hin.2 hfree.inbound
    obtain ⟨hdou, hnou⟩ := hou.2 hfree.outbound
    exact ⟨⟨hdou, hdin⟩, hnin, _, _, hrule, rfl, hnou⟩

end Tags

/-- A document with one outbound, whose tag is not the app's. -/
theorem tags_unique_iff_server :
    ∃ root out, Json.ofText noDoubles (customDocument "server") = some root ∧
      XrayConfig.buildFromCustom noDoubles (customDocument "server") 1500 = some out ∧ TagsUnique out := by
  have hread : (Json.ofText noDoubles (customDocument "server")).map
      (fun root => ((root.optArray "outbounds").map (·.map tagOf), tagsOf (inboundsOf root)))
        = some (some [some "server"], []) := by decide +kernel
  have hbuilt : (XrayConfig.buildFromCustom noDoubles (customDocument "server") 1500).isSome = true := by
    decide +kernel
  obtain ⟨root, hroot, hr⟩ := Option.map_eq_some_iff.1 hread
  obtain ⟨out, hout⟩ := Option.isSome_iff_exists.1 hbuilt
  obtain ⟨root', first, rest, hroot', harr, -⟩ := exists_merge hout
  rw [hroot] at hroot'
  cases hroot'
  simp only [Prod.mk.injEq, harr, Option.map_some, List.map_cons, Option.some.injEq, List.cons.injEq,
    List.map_eq_nil_iff] at hr
  obtain ⟨⟨htag, rfl⟩, hin⟩ := hr
  obtain ⟨hread, hlookup, hblank⟩ := optString_of_tagOf htag
  have hou : tagsOf (outboundsOf root) = ["server"] := by
    unfold outboundsOf
    rw [harr]
    exact tagsOf_cons_some htag []
  have hd : TagsDistinct root := ⟨by rw [hou]; decide, by rw [hin]; decide⟩
  have hfree : AppTagsFree root first [] := by
    refine ⟨fun hmem => ?_, ?_⟩
    · have hsub := (List.filter_sublist.filterMap tagOf).subset hmem
      rw [← tagsOf, hin] at hsub
      exact List.not_mem_nil hsub
    · rw [hread, if_neg (by simp [hblank])]
      exact ⟨"server", hlookup⟩
  exact ⟨root, out, hroot, hout, (tags_unique_iff hout hroot hd).2 ⟨_, _, harr, hfree⟩⟩

/-- A document with the app's tags: a second outbound has that of the proxy, and an inbound for
    SOCKS that of the TUN. -/
def collidingDocument : String :=
  "\x7b\"outbounds\":[\x7b\"protocol\":\"vless\"\x7d,\x7b\"tag\":\"proxy\"\x7d],\"inbounds\":" ++
    "[\x7b\"tag\":\"tun-in\",\"protocol\":\"socks\"\x7d]\x7d"

/-- **Both of the app's tags name two elements**: the user's tags are distinct. -/
theorem tags_collide :
    ∃ root out, Json.ofText noDoubles collidingDocument = some root ∧ TagsDistinct root ∧
      XrayConfig.buildFromCustom noDoubles collidingDocument 1500 = some out ∧
      tagsOf (outboundsOf out) = ["proxy", "proxy"] ∧ tagsOf (inboundsOf out) = ["tun-in", "tun-in"] := by
  have hread : (Json.ofText noDoubles collidingDocument).map
      (fun root => (tagsOf (outboundsOf root), tagsOf (inboundsOf root))) = some (["proxy"], ["tun-in"]) := by
    decide +kernel
  have hbuilt : (XrayConfig.buildFromCustom noDoubles collidingDocument 1500).map
      (fun out => (tagsOf (outboundsOf out), tagsOf (inboundsOf out)))
        = some (["proxy", "proxy"], ["tun-in", "tun-in"]) := by decide +kernel
  obtain ⟨root, hroot, hr⟩ := Option.map_eq_some_iff.1 hread
  obtain ⟨out, hout, ho⟩ := Option.map_eq_some_iff.1 hbuilt
  simp only [Prod.mk.injEq] at hr ho
  exact ⟨root, out, hroot, ⟨by rw [hr.1]; decide, by rw [hr.2]; decide⟩, hout, ho.1, ho.2⟩

end SwiftVpn
