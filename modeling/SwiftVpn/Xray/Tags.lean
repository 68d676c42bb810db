/-
  File:      SwiftVpn/Xray/Tags.lean
  Subject:   THE TAG THAT IS ROUTED TO AND THE TAG THAT IS METERED.

  The link builder, the merger of custom documents and the poll loop of the service each have their own
  idea of the proxy's tag. The service asks for the counters of a constant (`XrayVpnService.proxyTag`).

  * `ruleFor` -- the first routing rule of a configuration for an inbound;
  * `TagsAgree` -- the first outbound's tag, the outbound of the rule for `tun-in` and the polled tag
    are one string;
  * `merge_outbounds`, `merge_ruleFor` -- what the merger leaves of both in the document;
  * `tags_agree_iff` -- they agree for every link, and for a custom document exactly when its first
    outbound has no tag, a blank one, one that cannot be written out or the polled one;
  * `tags_differ` -- a custom document whose first outbound has a name of its own.
-/
import SwiftVpn.Xray.Config

namespace SwiftVpn

/-- `PROXY_TAG` of the service: the outbound whose counters `startPolling` asks for. -/
def XrayVpnService.proxyTag : String := "proxy"

/-- `TUN_TAG` of the service. -/
def XrayVpnService.tunTag : String := "tun-in"

/-! ## 1. Where the tags stand -/

/-- The array has the string `s`. -/
def hasString (s : String) (es : List Json) : Bool :=
  es.any fun
    | .str t => t == s
    | _ => false

/-- The first routing rule for an inbound. -/
def ruleFor (inbound : String) (root : JsonObject) : Option JsonObject :=
  (((root.optObject "routing").getD []).optArray "rules").getD [] |>.findSome? fun
    | .obj rule =>
      if hasString inbound ((JsonObject.optArray rule "inboundTag").getD []) then some rule else none
    | _ => none

/-- The three tags are one string. -/
def TagsAgree (root : JsonObject) : Prop :=
  ∃ tag, (Json.obj root).at? [.key "outbounds", .index 0, .key "tag"] = some (.str tag) ∧
    (ruleFor XrayVpnService.tunTag root).bind
      (fun rule => (Json.obj rule).at? [.key "outboundTag"]) = some (.str tag) ∧
    XrayVpnService.proxyTag = tag

/-- The tag of the first outbound in a custom document, as the user wrote it. -/
def firstTag (doubles : Doubles) (raw : String) : Option Json :=
  match (Json.ofText doubles raw).bind fun root => root.optArray "outbounds" with
  | some (.obj first :: _) => List.lookup "tag" first
  | _ => none

/-- No tag, a blank one, one that cannot be written out or the polled one. -/
def isPolled : Option Json → Bool
  | none => true
  | some (.str s) => isBlank s || s == XrayVpnService.proxyTag
  | some v => !v.finite

/-! ## 2. What the merger leaves -/

theorem lookup_orDefault_of_ne {name other : String} (h : other ≠ name) (root : JsonObject)
    (default : Json) : (XrayConfig.orDefault root name default).lookup other = root.lookup other := by
  unfold XrayConfig.orDefault
  split
  · exact JsonObject.lookup_put_of_ne h root default
  · rfl

theorem withRule_cases {root out : JsonObject} {tag : String}
    (h : XrayConfig.withRule root tag = some out) :
    ∃ (routing : JsonObject) (existing : List Json), out = root.put "routing"
      (.obj (routing.put "rules" (.arr (.obj (XrayConfig.tunRule tag) :: existing)))) := by
  unfold XrayConfig.withRule at h
  obtain ⟨existing, -, he⟩ := Option.bind_eq_some_iff.1 h
  cases he
  exact ⟨_, existing, rfl⟩

/-- **The outbounds of the merged document**: the user's, the first one tagged. -/
theorem merge_outbounds {root first out : JsonObject} {rest : List Json} {mtu : Int}
    (h : XrayConfig.merge root first rest mtu = some out) :
    out.lookup "outbounds" = some (.arr (.obj (XrayConfig.tagFirst first).2 :: rest)) := by
  obtain ⟨routing, existing, rfl⟩ := withRule_cases h
  rw [JsonObject.lookup_put_of_ne (by decide), JsonObject.lookup_put_of_ne (by decide),
    lookup_orDefault_of_ne (by decide), XrayConfig.withPolicy,
    JsonObject.lookup_put_of_ne (by decide), lookup_orDefault_of_ne (by decide),
    lookup_orDefault_of_ne (by decide), JsonObject.lookup_put_self]

/-- **The rule for the TUN in the merged document** is the one the merger puts in front. -/
theorem merge_ruleFor {root first out : JsonObject} {rest : List Json} {mtu : Int}
    (h : XrayConfig.merge root first rest mtu = some out) :
    ruleFor XrayVpnService.tunTag out = some (XrayConfig.tunRule (XrayConfig.tagFirst first).1) := by
  obtain ⟨routing, existing, rfl⟩ := withRule_cases h
  simp only [ruleFor, JsonObject.optObject, JsonObject.optArray, JsonObject.lookup_put_self,
    Option.getD_some]
  rfl

/-! ## 3. A value that is no string never reads as blank -/

theorem exists_mem_toString_int (n : Int) : ∃ c ∈ (toString n).toList, isWhitespace c = false := by
  have hdigits : ∀ k : Nat, ∃ c ∈ (Nat.repr k).toList, isWhitespace c = false := by
    intro k
    rw [Nat.toList_repr]
    obtain ⟨c, hc⟩ := List.exists_mem_of_ne_nil _ (Nat.toDigits_ne_nil (n := k) (b := 10))
    have hd := Nat.isDigit_of_mem_toDigits (by decide) (by decide) hc
    exact ⟨c, hc, isWhitespace_of_isAlphanum (by simp [Char.isAlphanum, hd])⟩
  rw [Int.toString_eq_repr, Int.repr_eq_if]
  split
  · exact hdigits _
  · obtain ⟨c, hc, hw⟩ := hdigits (-n).toNat
    exact ⟨c, by rw [String.toList_append, List.mem_append]; exact .inr hc, hw⟩

theorem isBlank_text {v : Json} (h : ∀ s, v ≠ .str s) (hf : v.finite = true) :
    isBlank v.text = false := by
  cases v with
  | null => decide
  | hole => decide
  | bool b => cases b <;> decide
  | int n =>
    obtain ⟨c, hc, hw⟩ := exists_mem_toString_int n
    exact isBlank_of_mem (by simpa [Json.text, Json.render, Json.renderChars] using hc) hw
  | double d =>
    have hhead := d.head_valueText
    cases hcs : d.valueText.toList with
    | nil =>
      rw [hcs] at hhead
      cases hhead
    | cons c cs =>
      rw [hcs] at hhead
      have hc : c.isDigit = true ∨ c = '-' := by simpa using hhead
      refine isBlank_of_mem (c := c) (by simp [Json.text, hcs]) ?_
      rcases hc with hc | rfl
      · exact isWhitespace_of_isAlphanum (by simp [Char.isAlphanum, hc])
      · decide
  | nonFinite => cases hf
  | str s => exact absurd rfl (h s)
  | arr es =>
    exact isBlank_of_mem (c := '[') (by simp [Json.text, Json.render, Json.renderChars]) (by decide)
  | obj ms =>
    exact isBlank_of_mem (c := '\x7b') (by simp [Json.text, Json.render, Json.renderChars]) (by decide)

/-! ## 4. When the tags agree -/

/-- A configuration that was built from a link. -/
theorem tagsAgree_build (doubles : Doubles) (o : XrayOutbound) (mtu : Int) :
    TagsAgree (XrayConfig.build doubles o mtu) :=
  ⟨"proxy", rfl, rfl, rfl⟩

/-- The first outbound of a document, before and after it was tagged. -/
theorem tagFirst_polled (first : JsonObject) :
    (((XrayConfig.tagFirst first).2.lookup "tag").map Json.leaf = some (.str XrayVpnService.proxyTag) ∧
        (XrayConfig.tagFirst first).1 = XrayVpnService.proxyTag) ↔
      isPolled (first.lookup "tag") = true := by
  unfold XrayConfig.tagFirst
  cases htag : first.lookup "tag" with
  | none =>
    rw [JsonObject.optString_of_none htag, if_pos (by decide), JsonObject.lookup_put_self]
    simp [isPolled, Json.leaf, XrayConfig.proxyTag, XrayVpnService.proxyTag]
  | some v =>
    rw [JsonObject.optString_of_some htag]
    by_cases hstr : ∃ s, v = .str s
    · obtain ⟨s, rfl⟩ := hstr
      have htext : (if (Json.str s).finite then (Json.str s).text else "") = s := rfl
      rw [htext]
      by_cases hb : isBlank s = true
      · rw [if_pos hb, JsonObject.lookup_put_self]
        simp [isPolled, hb, Json.leaf, XrayConfig.proxyTag, XrayVpnService.proxyTag]
      · rw [if_neg hb]
        simp [isPolled, hb, htag, Json.leaf]
    · have hne : ∀ s, v ≠ .str s := fun s e => hstr ⟨s, e⟩
      have hpolled : isPolled (some v) = !v.finite := by
        cases v with
        | str s => exact absurd rfl (hne s)
        | _ => rfl
      rw [hpolled]
      by_cases hf : v.finite = true
      · -- a tag of another kind is routed to by its text, which is no tag the core knows
        simp only [hf, if_true, isBlank_text hne hf, Bool.false_eq_true, if_false, htag,
          Option.map_some]
        have hleaf : v.leaf ≠ .str XrayVpnService.proxyTag := by
          cases v with
          | str s => exact absurd rfl (hne s)
          | null => intro h; cases h
          | hole => intro h; cases h
          | bool b => intro h; cases h
          | int n => intro h; cases h
          | double d => intro h; cases h
          | nonFinite => intro h; cases h
          | arr es => intro h; cases h
          | obj ms => intro h; cases h
        simp [hleaf]
      · have hblank : isBlank (if v.finite then v.text else "") = true := by
          rw [if_neg hf]
          decide
        rw [if_pos hblank, JsonObject.lookup_put_self]
        simp [hf, Json.leaf, XrayConfig.proxyTag, XrayVpnService.proxyTag]

theorem tagsAgree_merge {root first out : JsonObject} {rest : List Json} {mtu : Int}
    (h : XrayConfig.merge root first rest mtu = some out) :
    TagsAgree out ↔ isPolled (first.lookup "tag") = true := by
  rw [← tagFirst_polled]
  have hfirst : (Json.obj out).at? [.key "outbounds", .index 0, .key "tag"]
      = ((XrayConfig.tagFirst first).2.lookup "tag").map Json.leaf := by
    simp only [Json.at?, merge_outbounds h, Option.bind_some, List.getElem?_cons_zero]
    cases (XrayConfig.tagFirst first).2.lookup "tag" <;> rfl
  have hrule : (ruleFor XrayVpnService.tunTag out).bind
      (fun rule => (Json.obj rule).at? [.key "outboundTag"])
        = some (.str (XrayConfig.tagFirst first).1) := by
    rw [merge_ruleFor h]
    rfl
  unfold TagsAgree
  rw [hfirst, hrule]
  constructor
  · rintro ⟨tag, h1, h2, rfl⟩
    simp only [Option.some.injEq, Json.Leaf.str.injEq] at h2
    exact ⟨h1, h2⟩
  · rintro ⟨h1, h2⟩
    exact ⟨_, h1, by rw [h2], rfl⟩

/-- **The tags of a configuration agree** for every link, and for a custom document exactly when its
    first outbound has no tag, a blank one, one that cannot be written out or the polled one. -/
theorem tags_agree_iff (doubles : Doubles) (raw : String) (root : JsonObject)
    (h : buildConfig doubles raw = some root) :
    TagsAgree root ↔
      (XrayConfig.isCustomJson raw = true → isPolled (firstTag doubles raw) = true) := by
  unfold buildConfig at h
  split at h
  · rename_i hc
    unfold XrayConfig.buildFromCustom at h
    obtain ⟨doc, hdoc, hmerge⟩ := Option.bind_eq_some_iff.1 h
    split at hmerge
    · rename_i first rest hout
      have htag : firstTag doubles raw = List.lookup "tag" first := by
        simp only [firstTag, hdoc, Option.bind_some, hout]
      rw [tagsAgree_merge (Option.filter_eq_some_iff.1 hmerge).1, htag]
      simp [hc]
    · cases hmerge
  · rename_i hc
    obtain ⟨o, -, rfl⟩ := Option.map_eq_some_iff.1 (Option.filter_eq_some_iff.1 h).1
    simp [tagsAgree_build, hc]

/-- A custom document with one outbound of the tag `tag`. -/
def customDocument (tag : String) : String :=
  "\x7b\"outbounds\":[\x7b\"protocol\":\"vless\",\"tag\":\"" ++ tag ++ "\"\x7d]\x7d"

/-- No text is a floating point number: none of the documents below has one. -/
def noDoubles : Doubles := fun _ => none

/-- A document whose outbound has the polled tag. -/
theorem tags_agree_iff_polled :
    ∃ root, buildConfig noDoubles (customDocument "proxy") = some root ∧ TagsAgree root := by
  have hbuilt : (buildConfig noDoubles (customDocument "proxy")).isSome = true := by decide +kernel
  obtain ⟨root, hroot⟩ := Option.isSome_iff_exists.1 hbuilt
  have hpolled : isPolled (firstTag noDoubles (customDocument "proxy")) = true := by decide +kernel
  exact ⟨root, hroot, (tags_agree_iff _ _ _ hroot).2 fun _ => hpolled⟩

/-- **The tunnel is routed to the user's tag and metered under the app's**: the outbound is named
    "server". -/
theorem tags_differ :
    ∃ root, buildConfig noDoubles (customDocument "server") = some root ∧ ¬ TagsAgree root := by
  have hbuilt : (buildConfig noDoubles (customDocument "server")).isSome = true := by decide +kernel
  obtain ⟨root, hroot⟩ := Option.isSome_iff_exists.1 hbuilt
  have htag : (buildConfig noDoubles (customDocument "server")).bind
      (fun root => (Json.obj root).at? [.key "outbounds", .index 0, .key "tag"])
        = some (.str "server") := by decide +kernel
  rw [hroot, Option.bind_some] at htag
  refine ⟨root, hroot, ?_⟩
  rintro ⟨tag, hfirst, -, rfl⟩
  rw [htag] at hfirst
  revert hfirst
  decide

end SwiftVpn
