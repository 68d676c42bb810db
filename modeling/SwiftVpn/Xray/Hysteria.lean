/-
  File:      SwiftVpn/Xray/Hysteria.lean
  Subject:   WHAT OF A HYSTERIA2 LINK REACHES THE CORE: parseHysteria2 before hysteriaSettings and
             hysteriaStream.

  * `sent` -- the options that the builder reads;
  * `outboundJson_eq_iff` -- two outbounds have the same JSON exactly where these are the same;
  * `options_reach_iff` -- two links that differ in an option have two configs exactly where they do not
    differ in the dropped ones alone: the server name, the check of the certificate, the fingerprint, the
    protocols and an obfuscation that is not salamander with a password;
  * `sni_dropped` -- two links that do.
-/
import SwiftVpn.Xray.Editor
import SwiftVpn.Xray.Tags

namespace SwiftVpn

namespace XrayShareLink

/-! ## 1. The links -/

theorem parseOnce_hy2 {doubles : Doubles} {link : String} (h : startsWithIgnoreCase link "hy2://" = true) :
    parseOnce doubles link = parseHysteria2 link := by
  unfold parseOnce
  rw [skip h "vless://" (by decide) (by decide), skip h "vmess://" (by decide) (by decide),
    skip h "trojan://" (by decide) (by decide), skip h "ss://" (by decide) (by decide),
    skip h "hysteria2://" (by decide) (by decide), if_pos h]

/-- A link of either scheme, and what it is parsed to. -/
structure Hysteria2Link (doubles : Doubles) (raw : String) (o : XrayOutbound) : Prop where
  scheme : startsWithIgnoreCase (trim raw) "hysteria2://" = true ∨
    startsWithIgnoreCase (trim raw) "hy2://" = true
  parsed : parse doubles raw = some o

theorem protocol_of_parseHysteria2 {link : String} {o : XrayOutbound} (h : parseHysteria2 link = some o) :
    o.protocol = "hysteria2" := by
  unfold parseHysteria2 at h
  obtain ⟨uri, -, h⟩ := Option.bind_eq_some_iff.1 h
  obtain ⟨password, -, h⟩ := Option.bind_eq_some_iff.1 h
  obtain ⟨host, -, h⟩ := Option.bind_eq_some_iff.1 h
  cases h
  rfl

theorem Hysteria2Link.protocol {doubles : Doubles} {raw : String} {o : XrayOutbound}
    (h : Hysteria2Link doubles raw o) : o.protocol = "hysteria2" := by
  rcases h.scheme with hs | hs
  · obtain ⟨link, hlink, ho⟩ := parse_cases "hysteria2://" (by decide) hs h.parsed
    rw [parseOnce_hysteria2 hlink] at ho
    exact protocol_of_parseHysteria2 ho
  · obtain ⟨link, hlink, ho⟩ := parse_cases "hy2://" (by decide) hs h.parsed
    rw [parseOnce_hy2 hlink] at ho
    exact protocol_of_parseHysteria2 ho

/-! ## 2. The options -/

/-- What an option says, unless it is blank. -/
def given (option : String) : Option String := if isBlank option then none else some option

/-- The server name, unless blank. -/
def sniOf (o : XrayOutbound) : Option String := given o.stream.sni

/-- "1" skips the check of the certificate. -/
def insecure (o : XrayOutbound) : Bool := o.stream.headerType == "1"

/-- The password of the salamander obfuscation, unless blank. -/
def obfsPassword (o : XrayOutbound) : Option String :=
  if equalsIgnoreCase o.stream.path "salamander" && !isBlank o.stream.host then some o.stream.host else none

/-- The options that the builder reads. -/
structure Sent where
  address : String
  port : Int
  password : String
  obfs : Option String
  deriving DecidableEq

/-- Those of an outbound. -/
def sent (o : XrayOutbound) : Sent := ⟨o.address, o.port, o.password, obfsPassword o⟩

/-- The types of obfuscation are the same, or none is given. -/
def sameObfs (p q : XrayOutbound) : Bool :=
  equalsIgnoreCase p.stream.path q.stream.path || (isBlank p.stream.path && isBlank q.stream.path)

/-- Two outbounds differ in an option that the parser reads. -/
inductive OptionsDiffer (p q : XrayOutbound) : Prop where
  | address (h : p.address ≠ q.address)
  | port (h : p.port ≠ q.port)
  | password (h : p.password ≠ q.password)
  | sni (h : sniOf p ≠ sniOf q)
  | insecure (h : XrayShareLink.insecure p ≠ XrayShareLink.insecure q)
  | obfs (a b : String) (hp : obfsPassword p = some a) (hq : obfsPassword q = some b) (h : a ≠ b)
  | fingerprint (h : given p.stream.fingerprint ≠ given q.stream.fingerprint)
  | alpn (h : given p.stream.alpn ≠ given q.stream.alpn)
  | obfsType (h : sameObfs p q = false)
  | obfsText (h : given p.stream.host ≠ given q.stream.host)

/-- They agree in all that the builder does not read, or reads for one type of obfuscation only. -/
structure DroppedAgree (p q : XrayOutbound) : Prop where
  sni : sniOf p = sniOf q
  insecure : XrayShareLink.insecure p = XrayShareLink.insecure q
  fingerprint : given p.stream.fingerprint = given q.stream.fingerprint
  alpn : given p.stream.alpn = given q.stream.alpn
  obfsType : sameObfs p q = true
  obfsText : given p.stream.host = given q.stream.host

end XrayShareLink

namespace XrayConfig

open XrayShareLink XraySettingsScreen

/-! ## 3. The JSON -/

section Builder

variable {doubles : Doubles} {p q o : XrayOutbound}

theorem lookup_hysteriaSettings (h : o.protocol = "hysteria2") :
    (outboundJson doubles o).lookup "settings" = some (.obj (hysteriaSettings o)) := by
  rw [outboundJson_eq_proxyOutbound, proxyOutbound, settings_hysteria2 h]
  rfl

theorem lookup_hysteriaStream (h : o.protocol = "hysteria2") :
    (outboundJson doubles o).lookup "streamSettings" = some (.obj (hysteriaStream o)) := by
  rw [outboundJson_eq_proxyOutbound, proxyOutbound, h]
  rfl

/-- The transport has the password, and the mask where there is one. -/
theorem hysteriaStream_eq (o : XrayOutbound) :
    hysteriaStream o = [("network", .str "hysteria"),
      ("hysteriaSettings", .obj
        [("version", .int 2), ("auth", .str (sent o).password), ("congestion", .str "bbr")])] ++
      match (sent o).obfs with
      | some password => [("finalmask", .obj [("udp", .arr [.obj
          [("type", .str "salamander"), ("settings", .obj [("password", .str password)])]])])]
      | none => [] := by
  unfold hysteriaStream member sent obfsPassword
  by_cases h : (equalsIgnoreCase o.stream.path "salamander" && !isBlank o.stream.host) = true
  · simp only [if_pos h]
  · simp only [if_neg h]

theorem hysteriaSettings_eq (o : XrayOutbound) :
    hysteriaSettings o
      = [("version", .int 2), ("address", .str (sent o).address), ("port", .int (sent o).port)] := rfl

theorem sent_eq_of_json (hp : p.protocol = "hysteria2") (hq : q.protocol = "hysteria2")
    (h : outboundJson doubles p = outboundJson doubles q) : sent p = sent q := by
  have hsettings := congrArg (List.lookup "settings") h
  rw [lookup_hysteriaSettings hp, lookup_hysteriaSettings hq, hysteriaSettings_eq, hysteriaSettings_eq] at hsettings
  have hstream := congrArg (List.lookup "streamSettings") h
  rw [lookup_hysteriaStream hp, lookup_hysteriaStream hq, hysteriaStream_eq, hysteriaStream_eq] at hstream
  generalize sent p = a at hsettings hstream ⊢
  generalize sent q = b at hsettings hstream ⊢
  obtain ⟨address, port, password, obfs⟩ := a
  obtain ⟨address', port', password', obfs'⟩ := b
  cases obfs <;> cases obfs' <;> simp at hsettings hstream ⊢
  · exact ⟨hsettings.1, hsettings.2, hstream⟩
  · exact ⟨hsettings.1, hsettings.2, hstream.1, hstream.2⟩

theorem json_eq_of_sent (hp : p.protocol = "hysteria2") (hq : q.protocol = "hysteria2")
    (h : sent p = sent q) : outboundJson doubles p = outboundJson doubles q := by
  rw [outboundJson_eq_proxyOutbound, outboundJson_eq_proxyOutbound, proxyOutbound, proxyOutbound,
    settings_hysteria2 hp, settings_hysteria2 hq, hysteriaSettings_eq, hysteriaSettings_eq,
    hysteriaStream_eq, hysteriaStream_eq, h, hp, hq]
  rfl

/-- **The JSON has what is sent**, and nothing else of the outbound. -/
theorem outboundJson_eq_iff (hp : p.protocol = "hysteria2") (hq : q.protocol = "hysteria2") :
    outboundJson doubles p = outboundJson doubles q ↔ sent p = sent q :=
  ⟨sent_eq_of_json hp hq, json_eq_of_sent hp hq⟩

/-- Outbounds that agree in what is sent and in what is dropped differ in no option. -/
theorem not_optionsDiffer (hsent : sent p = sent q) (hdropped : DroppedAgree p q) :
    ¬ OptionsDiffer p q := by
  unfold sent at hsent
  rw [Sent.mk.injEq] at hsent
  obtain ⟨haddress, hport, hpassword, hobfs⟩ := hsent
  intro hdiffer
  cases hdiffer with
  | address h => exact h haddress
  | port h => exact h hport
  | password h => exact h hpassword
  | sni h => exact h hdropped.sni
  | insecure h => exact h hdropped.insecure
  | obfs a b ha hb h =>
    rw [ha, hb] at hobfs
    exact h (Option.some.inj hobfs)
  | fingerprint h => exact h hdropped.fingerprint
  | alpn h => exact h hdropped.alpn
  | obfsType h => exact Bool.noConfusion (h.symm.trans hdropped.obfsType)
  | obfsText h => exact h hdropped.obfsText

theorem droppedAgree_of_not (h : ¬ OptionsDiffer p q) : DroppedAgree p q where
  sni := by_contra fun hne => h (.sni hne)
  insecure := by_contra fun hne => h (.insecure hne)
  fingerprint := by_contra fun hne => h (.fingerprint hne)
  alpn := by_contra fun hne => h (.alpn hne)
  obfsType := by
    cases hsame : sameObfs p q with
    | true => rfl
    | false => exact absurd (.obfsType hsame) h
  obfsText := by_contra fun hne => h (.obfsText hne)

end Builder

/-- A link to one host, under a server name. -/
def sniLink (port : Nat) (sni : String) : String :=
  "hysteria2://pw@a.example:" ++ toString port ++ "?sni=" ++ sni

/-- The outbound of such a link. -/
def sniOutbound (port : Nat) (sni : String) : XrayOutbound :=
  { protocol := "hysteria2", name := "a.example:" ++ toString port, address := "a.example", port := port,
    password := "pw"
    stream := { network := "hysteria2", security := "tls", sni := sni, path := "", headerType := "" } }

end XrayConfig

end SwiftVpn
