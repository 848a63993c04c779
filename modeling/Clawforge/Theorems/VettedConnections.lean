import Clawforge.Kit.Fallible
import Clawforge.Notifier.Deliver
import Mathlib

/-!
# The connections of a delivery

Which of the connections that `deliver` opens go to addresses it accepted. A web client is
pinned to the addresses of the first lookup, for the spelling of the host it was built for;
the SMTP transport is not, and asks again.
-/

namespace Clawforge.Notifier

open Kit Net List

/-! ## Normalised hosts -/

/-- A character other than the separator is in one of the pieces. -/
theorem exists_piece {sep : Char} : ∀ {cs : List Char} {c : Char}, c ∈ cs → c ≠ sep →
    ∃ piece ∈ cs.splitOn sep, c ∈ piece := by
  intro cs
  induction cs with
  | nil => intro c hc; cases hc
  | cons x xs ih =>
    intro c hc hne
    rw [splitOn_cons_eq_if_modifyHead]
    by_cases hx : (x == sep) = true
    · rw [if_pos hx]
      have hcx : c ∈ xs := by
        rcases mem_cons.1 hc with rfl | hc
        · exact absurd (eq_of_beq hx) hne
        · exact hc
      obtain ⟨piece, hpiece, hmem⟩ := ih hcx hne
      exact ⟨piece, mem_cons_of_mem _ hpiece, hmem⟩
    · rw [if_neg hx]
      obtain ⟨first, rest, hsplit⟩ := exists_cons_of_ne_nil (splitOn_ne_nil sep xs)
      rw [hsplit, modifyHead_cons]
      rcases mem_cons.1 hc with rfl | hc
      · exact ⟨c :: first, mem_cons_self, mem_cons_self⟩
      · obtain ⟨piece, hpiece, hmem⟩ := ih hc hne
        rw [hsplit] at hpiece
        rcases mem_cons.1 hpiece with rfl | hrest
        · exact ⟨x :: piece, mem_cons_self, mem_cons_of_mem _ hmem⟩
        · exact ⟨piece, mem_cons_of_mem _ hrest, hmem⟩

/-- Letters, digits, hyphens and dots are no white space. -/
theorem host_char_plain {c : Char} (h : (c.isAlphanum || c == '-') = true ∨ c = '.') :
    Text.isWhitespace c = false := by
  have hrange : 45 ≤ c.toNat ∧ c.toNat ≤ 122 := by
    rcases h with h | rfl
    · simp only [Char.isAlphanum, Char.isAlpha, Char.isUpper, Char.isLower, Char.isDigit,
        Bool.or_eq_true, Bool.and_eq_true, decide_eq_true_eq, beq_iff_eq, ge_iff_le,
        UInt32.le_iff_toNat_le] at h
      rcases h with ((upper | lower) | digit) | rfl
      · exact ⟨le_trans (by decide) upper.1, le_trans upper.2 (by decide)⟩
      · exact ⟨le_trans (by decide) lower.1, le_trans lower.2 (by decide)⟩
      · exact ⟨le_trans (by decide) digit.1, le_trans digit.2 (by decide)⟩
      · decide
    · decide
  unfold Text.isWhitespace
  simp only [decide_eq_false_iff_not]
  omega

/-- The text of a host that is not refused has no white space. -/
theorem host_no_blank {host : List Char} (h : badHost host = false) :
    ∀ c ∈ host, Text.isWhitespace c = false := by
  intro c hc
  unfold badHost at h
  simp only [Bool.or_eq_false_iff] at h
  by_cases hdot : c = '.'
  · exact host_char_plain (.inr hdot)
  · obtain ⟨label, hlabel, hmem⟩ := exists_piece hc hdot
    have hgood := List.any_eq_false.1 h.2 label hlabel
    unfold badLabel at hgood
    simp only [Bool.or_eq_true, not_or, Bool.not_eq_true, Bool.not_eq_false'] at hgood
    exact host_char_plain (.inl (List.all_eq_true.1 hgood.2 c hmem))

theorem toLower_eq_dot {c : Char} (h : c.toLower = '.') : c = '.' := by
  by_cases hupper : c.isUpper = true
  · have halpha : c.toLower.isAlpha = c.isAlpha := Char.isAlpha_toLower_eq_isAlpha c
    rw [h] at halpha
    have : c.isAlpha = true := by simp [Char.isAlpha, hupper]
    rw [this] at halpha
    exact absurd halpha (by decide)
  · rw [Char.toLower_eq_of_not_isUpper hupper] at h
    exact h

/-- A normalised host does not end with a dot. -/
theorem lowercase_no_dot (cs : List Char) :
    (Text.toAsciiLowercase (cs.rdropWhile (· == '.'))).rdropWhile (· == '.') =
      Text.toAsciiLowercase (cs.rdropWhile (· == '.')) := by
  rw [rdropWhile_eq_self_iff]
  intro hne
  have hne' : cs.rdropWhile (· == '.') ≠ [] := fun hnil => hne (by rw [hnil]; rfl)
  have hlast := rdropWhile_last_not (· == '.') cs hne'
  have hmap : (Text.toAsciiLowercase (cs.rdropWhile (· == '.'))).getLast hne =
      ((cs.rdropWhile (· == '.')).getLast hne').toLower := getLast_map _
  intro hdot
  rw [hmap] at hdot
  exact hlast (beq_iff_eq.2 (toLower_eq_dot (eq_of_beq hdot)))

variable {host : String} {allowed : List String} {destination : ValidatedChannel} {config : Json}
  {target : String} {addresses : List IpAddr}

theorem normalizedHost_spec {h : String} (hok : normalizedHost host = .ok h) :
    badHost h.toList = false ∧
      ∃ cs : List Char, h.toList = Text.toAsciiLowercase (cs.rdropWhile (· == '.')) := by
  unfold normalizedHost at hok
  simp only at hok
  split_ifs at hok with hbad
  cases hok
  rw [String.toList_ofList]
  exact ⟨Bool.eq_false_iff.2 hbad, _, rfl⟩

/-- `normalized_host` leaves what it returned as it is. -/
theorem normalizedHost_idem {h : String} (hok : normalizedHost host = .ok h) :
    normalizedHost h = .ok h := by
  obtain ⟨hgood, cs, hcs⟩ := normalizedHost_spec hok
  have htrim : Text.trim h.toList = h.toList := Text.trim_of_no_blank (host_no_blank hgood)
  have hlower : Text.toAsciiLowercase h.toList = h.toList := by
    rw [hcs]
    unfold Text.toAsciiLowercase
    rw [List.map_map]
    exact map_congr_left fun c _ => Char.toLower_toLower_eq_toLower c
  have hdots : h.toList.rdropWhile (· == '.') = h.toList := by
    rw [hcs, lowercase_no_dot]
  unfold normalizedHost
  simp only [htrim, hdots, hlower, hgood, String.ofList_toList]
  rfl

/-! ## What validation accepts -/

theorem allowed_of_require (h : requireAllowedDnsHost host allowed = .ok ()) : host ∈ allowed := by
  unfold requireAllowedDnsHost at h
  split_ifs at h with hip hallowed
  simp only [Bool.not_eq_true, Bool.not_eq_false'] at hallowed
  exact contains_iff_mem.1 hallowed

/-- A web target is accepted for the normalised host of its URL. -/
theorem validateWebTarget_spec {parseUrl : String → Option Url}
    (h : validateWebTarget parseUrl target config allowed = .ok destination) :
    ∃ url host port text, destination = .web url host port ∧ url.hostStr = some text ∧
      normalizedHost text = .ok host ∧ host ∈ allowed := by
  unfold validateWebTarget at h
  split_ifs at h with hconfig
  cases hurl : parseUrl target with
  | none =>
    rw [hurl] at h
    cases h
  | some url =>
    rw [hurl] at h
    simp only at h
    split at h
    · cases h
    · cases htext : url.hostStr with
      | none =>
        rw [htext] at h
        cases h
      | some text =>
        rw [htext] at h
        obtain ⟨host, hhost, h⟩ := bind_ok h
        obtain ⟨_, hallowed, h⟩ := bind_ok h
        split_ifs at h with hport
        cases h
        exact ⟨url, host, _, text, rfl, htext, hhost, allowed_of_require hallowed⟩

/-- An SMTP target is accepted for a normalised host. -/
theorem validateSmtpTarget_spec (h : validateSmtpTarget target config allowed = .ok destination) :
    ∃ host, destination = .smtp host 465 ∧ normalizedHost host = .ok host ∧ host ∈ allowed := by
  unfold validateSmtpTarget at h
  split_ifs at h with htarget
  cases config with
  | object fields =>
    simp only at h
    split_ifs at h with hfields
    obtain ⟨_, -, h⟩ := bind_ok h
    obtain ⟨text, -, h⟩ := bind_ok h
    obtain ⟨host, hhost, h⟩ := bind_ok h
    obtain ⟨_, hallowed, h⟩ := bind_ok h
    obtain ⟨sender, -, h⟩ := bind_ok h
    split_ifs at h with hsender
    cases h
    exact ⟨host, rfl, normalizedHost_idem hhost, allowed_of_require hallowed⟩
  | null | bool | number | string | array => cases h

/-- A channel that validation accepts: a web channel or an SMTP one. -/
theorem validateChannel_cases {parseUrl : String → Option Url} {channelType : String}
    {secretRef : Option String}
    (h : validateChannel parseUrl channelType target secretRef config allowed = .ok destination) :
    (channelType = "webhook" ∨ channelType = "matrix") ∧
        validateWebTarget parseUrl target config allowed = .ok destination ∨
      channelType = "smtp" ∧ validateSmtpTarget target config allowed = .ok destination := by
  unfold validateChannel at h
  obtain ⟨_, -, h⟩ := bind_ok h
  split at h
  · exact .inl ⟨.inl rfl, h⟩
  · exact .inl ⟨.inr rfl, h⟩
  · exact .inr ⟨rfl, h⟩
  · cases h

/-! ## Lookups -/

/-- Every address that a vetted answer has was accepted. -/
theorem acceptedOf_resolved {answer : Option (List IpAddr)}
    (h : resolvePublic answer = .ok addresses) : acceptedOf answer = addresses := by
  unfold resolvePublic at h
  cases answer with
  | none => cases h
  | some found =>
    simp only at h
    split_ifs at h with hbad
    cases h
    simp only [Bool.or_eq_true, not_or, Bool.not_eq_true, List.any_eq_false,
      Bool.not_eq_false'] at hbad
    exact takeWhile_eq_self_iff.2 fun a ha => by simpa using hbad.2 a ha

theorem mem_connections {connector : Connector} {c : Connection} :
    c ∈ connections connector host addresses ↔
      c.host = host ∧ c.address ∈ connector.dial addresses := by
  unfold connections
  rw [List.mem_map]
  constructor
  · rintro ⟨a, ha, rfl⟩
    exact ⟨rfl, ha⟩
  · rintro ⟨rfl, ha⟩
    exact ⟨c.address, ha, rfl⟩

/-! ## Connections -/

/-- The connections of a delivery go to addresses it accepted and to hosts of the allowlist. -/
def ConnectionsVetted (allowed : List String) (d : Delivery) : Prop :=
  ∀ c ∈ d.opened, c.address ∈ d.accepted ∧ ∃ host ∈ allowed, normalizedHost c.host = .ok host

theorem vetted_of_no_connection {d : Delivery} (h : d.opened = []) :
    ConnectionsVetted allowed d := by
  intro c hc
  rw [h] at hc
  cases hc

theorem vetted_connections_iff {d : Delivery} {connector : Connector} {text : String}
    (hhost : normalizedHost text = .ok host) (hallowed : host ∈ allowed)
    (hopened : d.opened = connections connector text addresses) :
    ConnectionsVetted allowed d ↔ connector.dial addresses ⊆ d.accepted := by
  constructor
  · intro h a ha
    have hmem : { host := text, address := a } ∈ d.opened := by
      rw [hopened]
      exact mem_connections.2 ⟨rfl, ha⟩
    exact (h _ hmem).1
  · intro h c hc
    rw [hopened] at hc
    obtain ⟨hname, haddress⟩ := mem_connections.1 hc
    exact ⟨h haddress, host, hallowed, by rw [hname]; exact hhost⟩

/-- A web delivery connects to accepted addresses exactly if its client uses the pinned
addresses or its own lookup found no others. -/
theorem deliverWeb_vetted_iff {o : Outside} {failure : String} {url : Url} {text : String}
    (htext : url.hostStr = some text) (hhost : normalizedHost text = .ok host)
    (hallowed : host ∈ allowed) :
    ConnectionsVetted allowed (deliverWeb o failure url host) ↔
      (o.clientBuilds = true → text ≠ host → ∀ addresses,
        resolvePublic (o.dns 0 host) = .ok addresses →
          o.connector.dial ((o.dns 1 text).getD []) ⊆ addresses) := by
  unfold deliverWeb
  cases hresolve : resolvePublic (o.dns 0 host) with
  | error e => exact iff_of_true (vetted_of_no_connection rfl) fun _ _ _ h => nomatch h
  | ok addresses =>
    cases hbuild : o.clientBuilds with
    | false => exact iff_of_true (vetted_of_no_connection rfl) fun h => nomatch h
    | true =>
      have haccepted := acceptedOf_resolved hresolve
      rw [vetted_connections_iff hhost hallowed (by simp only [htext, Option.getD_some]; rfl)]
      simp only [haccepted, if_true]
      unfold candidates
      by_cases hpinned : text = host
      · rw [if_pos hpinned]
        exact iff_of_true (o.connector.dial_sub addresses) fun _ hne => absurd hpinned hne
      · rw [if_neg hpinned]
        constructor
        · rintro hdial - - found hfound
          cases hfound
          exact hdial
        · exact fun h => h trivial hpinned addresses rfl

/-- An SMTP delivery connects to accepted addresses exactly if its transport's lookup found
no others. -/
theorem deliverSmtp_vetted_iff {o : Outside} {event : Event}
    (hhost : normalizedHost host = .ok host) (hallowed : host ∈ allowed) :
    ConnectionsVetted allowed (deliverSmtp o event host) ↔
      (buildSmtpMessage o event = .ok () → o.relay host = .ok () → ∀ addresses,
        resolvePublic (o.dns 0 host) = .ok addresses →
          o.connector.dial ((o.dns 1 host).getD []) ⊆ addresses) := by
  unfold deliverSmtp
  cases hresolve : resolvePublic (o.dns 0 host) with
  | error e => exact iff_of_true (vetted_of_no_connection rfl) fun _ _ _ h => nomatch h
  | ok addresses =>
    cases hmessage : buildSmtpMessage o event with
    | error e => exact iff_of_true (vetted_of_no_connection rfl) fun h => nomatch h
    | ok _ =>
      cases hrelay : o.relay host with
      | error e => exact iff_of_true (vetted_of_no_connection rfl) fun _ h => nomatch h
      | ok _ =>
        rw [vetted_connections_iff hhost hallowed rfl]
        simp only [acceptedOf_resolved hresolve]
        constructor
        · rintro hdial - - found hfound
          cases hfound
          exact hdial
        · exact fun h => h trivial trivial addresses rfl

/-- The lookup that a delivery makes after it vetted `host`: of `again`, by the client or the
transport when it connects. -/
inductive LooksUpAgain (o : Outside) (allowed : List String) (event : Event) :
    (host again : String) → Prop
  | web {url : Url} {host text : String} {port : Nat} {secret : Option String}
      (valid : validateChannel o.parseUrl event.channelType event.target event.secretRef
        event.config allowed = .ok (.web url host port))
      (loaded : secretValue o.loadOptional event.channelType event.secretRef = .ok secret)
      (built : o.clientBuilds = true) (spelled : url.hostStr = some text) (other : text ≠ host) :
      LooksUpAgain o allowed event host text
  | smtp {host : String} {port : Nat} {secret : Option String}
      (valid : validateChannel o.parseUrl event.channelType event.target event.secretRef
        event.config allowed = .ok (.smtp host port))
      (loaded : secretValue o.loadOptional event.channelType event.secretRef = .ok secret)
      (composed : buildSmtpMessage o event = .ok ()) (relayed : o.relay host = .ok ()) :
      LooksUpAgain o allowed event host host

/-- The connections of a delivery are vetted exactly if each lookup that it makes after
vetting a host leads its connector to none but the vetted addresses. -/
theorem connections_vetted_iff (o : Outside) (allowed : List String) (event : Event) :
    ConnectionsVetted allowed (deliver o allowed event) ↔
      ∀ host again addresses, LooksUpAgain o allowed event host again →
        resolvePublic (o.dns 0 host) = .ok addresses →
          o.connector.dial ((o.dns 1 again).getD []) ⊆ addresses := by
  unfold deliver
  cases hvalid : validateChannel o.parseUrl event.channelType event.target event.secretRef
      event.config allowed with
  | error e =>
    refine iff_of_true (vetted_of_no_connection rfl) ?_
    rintro host again addresses (⟨valid, -, -, -, -⟩ | ⟨valid, -, -, -⟩)
    · cases hvalid.symm.trans valid
    · cases hvalid.symm.trans valid
  | ok destination =>
    cases hsecret : secretValue o.loadOptional event.channelType event.secretRef with
    | error e =>
      refine iff_of_true (vetted_of_no_connection rfl) ?_
      rintro host again addresses (⟨-, loaded, -, -, -⟩ | ⟨-, loaded, -, -⟩)
      · cases hsecret.symm.trans loaded
      · cases hsecret.symm.trans loaded
    | ok secret =>
      rcases validateChannel_cases hvalid with ⟨htype, htarget⟩ | ⟨htype, htarget⟩
      · obtain ⟨url, host, port, text, rfl, htext, hhost, hallowed⟩ :=
          validateWebTarget_spec htarget
        have hweb : ∀ failure, ConnectionsVetted allowed (deliverWeb o failure url host) ↔
            ∀ host again addresses, LooksUpAgain o allowed event host again →
              resolvePublic (o.dns 0 host) = .ok addresses →
                o.connector.dial ((o.dns 1 again).getD []) ⊆ addresses := by
          intro failure
          rw [deliverWeb_vetted_iff htext hhost hallowed]
          constructor
          · rintro h _ _ addresses (⟨valid, loaded, built, spelled, other⟩ | ⟨valid, -, -, -⟩)
            · cases hvalid.symm.trans valid
              cases htext.symm.trans spelled
              exact h built other addresses
            · cases hvalid.symm.trans valid
          · exact fun h built other addresses =>
              h host text addresses (.web hvalid hsecret built htext other)
        rcases htype with htype | htype
        · rw [htype]
          exact hweb _
        · rw [htype]
          exact hweb _
      · obtain ⟨host, rfl, hhost, hallowed⟩ := validateSmtpTarget_spec htarget
        simp only [htype]
        rw [deliverSmtp_vetted_iff hhost hallowed]
        constructor
        · rintro h _ _ addresses (⟨valid, -, -, -, -⟩ | ⟨valid, loaded, composed, relayed⟩)
          · cases hvalid.symm.trans valid
          · cases hvalid.symm.trans valid
            exact h composed relayed addresses
        · exact fun h composed relayed addresses =>
            h host host addresses (.smtp hvalid hsecret composed relayed)

/-- A name whose first lookup answers `1.1.1.1` and every later one `127.0.0.1`. -/
def rebinding : Outside :=
  { dns := fun n _ => some [.v4 (if n = 0 then 0x01010101#32 else 0x7f000001#32)]
    connector := { dial := fun addresses => addresses, dial_sub := fun _ => List.Subset.refl _ }
    parseUrl := fun _ => some
      { scheme := "https", username := "", password := none, query := none, fragment := none
        hostStr := some "hooks.example.test.", portOrKnownDefault := some 443 }
    parseMailbox := fun _ => true
    loadOptional := fun _ _ => .ok none
    clientBuilds := true
    response := .ok { status := 200, text := "200 OK" }
    messageBody := .ok ()
    relay := fun _ => .ok ()
    sent := .ok () }

def mailEvent : Event :=
  { target := "ops@example.test", channelType := "smtp", secretRef := none
    config := .object [("from", .string "clawforge@example.test"),
      ("host", .string "smtp.example.test")] }

def hookEvent : Event :=
  { target := "https://hooks.example.test./events", channelType := "webhook", secretRef := none
    config := .object [] }

/-- The name of an SMTP host, or of a web host spelled with a last dot, is looked up twice, and
the second answer is not vetted. -/
theorem rebound_connections :
    (deliver rebinding ["smtp.example.test"] mailEvent).opened =
        [{ host := "smtp.example.test", address := .v4 0x7f000001#32 }] ∧
      ¬ ConnectionsVetted ["smtp.example.test"]
        (deliver rebinding ["smtp.example.test"] mailEvent) ∧
      (deliver rebinding ["hooks.example.test"] hookEvent).opened =
        [{ host := "hooks.example.test.", address := .v4 0x7f000001#32 }] ∧
      ¬ ConnectionsVetted ["hooks.example.test"]
        (deliver rebinding ["hooks.example.test"] hookEvent) := by
  have hmail : (deliver rebinding ["smtp.example.test"] mailEvent).opened =
        [{ host := "smtp.example.test", address := .v4 0x7f000001#32 }] ∧
      (deliver rebinding ["smtp.example.test"] mailEvent).accepted = [.v4 0x01010101#32] := by
    decide +kernel
  have hhook : (deliver rebinding ["hooks.example.test"] hookEvent).opened =
        [{ host := "hooks.example.test.", address := .v4 0x7f000001#32 }] ∧
      (deliver rebinding ["hooks.example.test"] hookEvent).accepted = [.v4 0x01010101#32] := by
    decide +kernel
  have unvetted : ∀ {allowed : List String} {d : Delivery} {host : String},
      d.opened = [{ host := host, address := .v4 0x7f000001#32 }] →
        d.accepted = [.v4 0x01010101#32] → ¬ ConnectionsVetted allowed d := by
    intro allowed d host hopened haccepted hvetted
    have hmem : IpAddr.v4 0x7f000001#32 ∈ d.accepted :=
      (hvetted _ (hopened ▸ mem_singleton_self _)).1
    rw [haccepted] at hmem
    exact absurd hmem (by decide)
  exact ⟨hmail.1, unvetted hmail.1 hmail.2, hhook.1, unvetted hhook.1 hhook.2⟩

end Clawforge.Notifier
