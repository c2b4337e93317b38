import HubDevice.Mqtt.Options
import HubDevice.Proofs.Config.Failure
import Mathlib.Tactic.Common

/-!
# Settings that make a connection

Settings are looked at twice: when they are validated, and when a connection is set up with them. `Setup.build?` is
the second look: it has no result when an option is out of the question, and an error when the files do not make a
transport. Valid settings always give options (`ofConfig_eq_some`), and on the same files they give the transport
that they describe (`Travels`), with one exception: a certificate of the client needs an authority of one's own,
which validation does not ask for (`Unrooted`).
-/

namespace HubDevice

namespace Config

namespace Tls

variable {fs : Files} {t : Tls}

theorem read_of_pathError? {path : String} (h : pathError? fs path = none) : ∃ bs, fs.read? path = some bs := by
  unfold pathError? at h
  split at h
  · cases h
  · split at h
    · cases h
    · split at h
      · cases h
      · rename_i hfile
        have hfile : fs.isFile path = true := not_not.mp hfile
        unfold Files.isFile at hfile
        split at hfile
        · rename_i content hs
          exact ⟨content, by simp [Files.read?, hs]⟩
        · cases hfile

theorem error?_eq_none : t.error? fs = none ↔
    (∀ path, some path ∈ [t.caCertPath, t.clientCertPath, t.clientKeyPath] → pathError? fs path = none) ∧
      t.clientCertPath.isSome = t.clientKeyPath.isSome := by
  have hpaths : ([t.caCertPath, t.clientCertPath, t.clientKeyPath].filterMap id).findSome? (pathError? fs) = none ↔
      ∀ path, some path ∈ [t.caCertPath, t.clientCertPath, t.clientKeyPath] → pathError? fs path = none := by
    rw [List.findSome?_eq_none_iff]
    simp only [List.mem_filterMap, id, exists_eq_right]
  rw [← hpaths]
  unfold error?
  split
  · rename_i e he
    rw [he]
    simp
  · rename_i hn
    rw [hn]
    simp

end Tls

namespace Client

variable {fs : Files} {c : Client}

theorem invalid?_eq_none : c.invalid? fs = none ↔ c.failures fs = [] ∧ ∀ t, c.tls = some t → t.error? fs = none := by
  unfold invalid?
  split
  · rename_i hf
    simp [hf, Option.map_eq_none_iff, Option.bind_eq_none_iff]
  · rename_i hf
    constructor
    · intro h
      cases h
    · intro h
      exact absurd h.1 hf

/-- What the options of a connection ask of settings. -/
structure Settable (c : Client) : Prop where
  keepAlive : 0 < c.keepAlive
  clientId : c.clientId ≠ ""
  inflight : c.maxInflight ≠ 0

theorem settable_of_failures (h : c.failures fs = []) : c.Settable := by
  simp only [failures, Failure.sort_eq_nil, List.append_eq_nil_iff, checkRange_eq_nil, checkLength_eq_nil] at h
  obtain ⟨⟨⟨⟨⟨⟨⟨⟨⟨⟨⟨⟨⟨-, -⟩, hd⟩, -⟩, -⟩, -⟩, -⟩, hk⟩, hi⟩, -⟩, -⟩, -⟩, -⟩, -⟩ := h
  refine ⟨by omega, ?_, by omega⟩
  have hne : c.deviceId ≠ "" := by
    intro he
    simp [he] at hd
  unfold clientId
  split
  · simp [String.append_eq_empty_iff, hne]
  · exact hne

end Client

end Config

namespace Mqtt

open Config (Files Tls Client)

/-! ## Setting a connection up -/

/-- What a client shows of itself: the contents of its certificate and its key, if both are set. -/
inductive Shows (fs : Files) (t : Tls) : Option (Octets × Octets) → Prop where
  | nothing : t.hasClientAuth = false → Shows fs t none
  | certificate {certPath keyPath : String} {cert key : Octets} :
      t.clientCertPath = some certPath → fs.read? certPath = some cert →
      t.clientKeyPath = some keyPath → fs.read? keyPath = some key → Shows fs t (some (cert, key))

/-- How octets are to travel: in the clear, secured by the platform's authorities, or by one of one's own. -/
inductive Travels (fs : Files) (c : Client) : Transport → Prop where
  | plain : c.useTls = false → Travels fs c .plain
  | platform : c.useTls = true → (∀ t, c.tls = some t → t.caCertPath = none ∧ t.hasClientAuth = false) →
      Travels fs c .platformRoots
  | own {t : Tls} {path : String} {ca : Octets} {auth : Option (Octets × Octets)} : c.useTls = true →
      c.tls = some t → t.caCertPath = some path → fs.read? path = some ca → Shows fs t auth →
      Travels fs c (.ownRoot ca auth)

/-- Settings that ask for a certificate of the client to be shown, and name no authority of their own. -/
def Unrooted (c : Client) : Prop :=
  c.useTls = true ∧ ∃ t, c.tls = some t ∧ t.caCertPath = none ∧ t.hasClientAuth = true

namespace Setup

variable {fs : Files} {c : Client} {t : Tls} {o : Options}

/-- The options that settings describe, before the password is known. -/
def optionsOf (c : Client) : Options where
  clientId := c.clientId
  host := c.host
  port := c.port
  keepAlive := Span.ofSeconds c.keepAlive
  cleanSession := c.cleanSession
  inflight := c.maxInflight
  maxIncoming := c.maxPacketSize
  maxOutgoing := c.maxPacketSize
  credentials := some (username c.host c.clientId, "")

/-- The options and the transport of a connection. -/
def build? (fs : Files) (c : Client) : Option (Except TransportError (Options × Transport)) :=
  (ofConfig c).map fun s => (s.transport fs).map fun t => (s.options, t)

theorem one_second_le {n : Nat} (h : 0 < n) : 10 ^ 9 ≤ (Span.ofSeconds n).nanos := by
  simp only [Span.ofSeconds, Span.nanos_ofNanos, Span.maxNanos]
  omega

theorem ofConfig_eq_some (h : c.Settable) :
    ofConfig c = some { options := optionsOf c, useTls := c.useTls, tls := c.tls } := by
  have hk : (Span.ofSeconds c.keepAlive).nanos = 0 ∨ 10 ^ 9 ≤ (Span.ofSeconds c.keepAlive).nanos :=
    .inr (one_second_le h.keepAlive)
  have hc : c.cleanSession = true ∨ c.clientId ≠ "" := .inr h.clientId
  simp only [ofConfig, Options.withKeepAlive, if_pos hk, Options.withCleanSession, if_pos hc, Options.withInflight,
    if_neg h.inflight, Option.bind_eq_bind, Option.bind_some]
  rfl

theorem file_eq_ok {path : String} {bs : Octets} (h : fs.read? path = some bs) : file fs path = .ok bs := by
  simp [file, h]

theorem clientAuth_of_valid (h : t.error? fs = none) : ∃ auth, clientAuth fs t = .ok auth ∧ Shows fs t auth := by
  obtain ⟨hpaths, hpair⟩ := Tls.error?_eq_none.mp h
  cases hcert : t.clientCertPath with
  | none => exact ⟨none, by simp [clientAuth, hcert], .nothing (by simp [Tls.hasClientAuth, hcert])⟩
  | some certPath =>
    rw [hcert, Option.isSome_some, eq_comm, Option.isSome_iff_exists] at hpair
    obtain ⟨keyPath, hkey⟩ := hpair
    obtain ⟨cert, hc⟩ := Tls.read_of_pathError? (hpaths certPath (by simp [hcert]))
    obtain ⟨key, hk⟩ := Tls.read_of_pathError? (hpaths keyPath (by simp [hkey]))
    refine ⟨some (cert, key), ?_, .certificate hcert hc hkey hk⟩
    simp only [clientAuth, hcert, hkey, file_eq_ok hc, file_eq_ok hk]
    rfl

theorem hasClientAuth_of_shows {auth : Option (Octets × Octets)} (h : Shows fs t auth) :
    t.hasClientAuth = auth.isSome := by
  cases h with
  | nothing h => exact h
  | certificate hcert _ hkey _ => simp [Tls.hasClientAuth, hcert, hkey]

/-- The transport that settings describe is made, unless a certificate of the client has no authority. -/
theorem transport_of_valid (h : ∀ t, c.tls = some t → t.error? fs = none) :
    (¬ Unrooted c → ∃ t, transport fs ⟨o, c.useTls, c.tls⟩ = .ok t ∧ Travels fs c t) ∧
    (Unrooted c → transport fs ⟨o, c.useTls, c.tls⟩ =
      .error (.configuration "A client certificate requires tls.ca_cert_path")) := by
  by_cases hu : c.useTls = true
  case neg =>
    refine ⟨fun _ => ⟨.plain, by simp [transport, hu], .plain (by simpa using hu)⟩, fun hn => absurd hn.1 hu⟩
  cases ht : c.tls with
  | none =>
    refine ⟨fun _ => ⟨.platformRoots, by simp [transport, hu], .platform hu (by simp [ht])⟩, ?_⟩
    rintro ⟨-, t, ht', -⟩
    cases ht.symm.trans ht'
  | some t =>
    have he := h t ht
    obtain ⟨auth, hauth, hshows⟩ := clientAuth_of_valid he
    have hroot : Unrooted c ↔ t.caCertPath = none ∧ t.hasClientAuth = true := by
      simp [Unrooted, hu, ht]
    rw [hroot]
    simp only [transport, hu, he, hauth]
    cases hca : t.caCertPath with
    | some path =>
      obtain ⟨ca, hread⟩ := Tls.read_of_pathError? ((Tls.error?_eq_none.mp he).1 path (by simp [hca]))
      simp only [file_eq_ok hread]
      exact ⟨fun _ => ⟨_, rfl, .own hu ht hca hread hshows⟩, by simp⟩
    | none =>
      have hsome := hasClientAuth_of_shows hshows
      cases auth with
      | none =>
        refine ⟨fun _ => ⟨.platformRoots, rfl, .platform hu fun t' ht' => ?_⟩, fun hn => by simp [hsome] at hn⟩
        cases ht.symm.trans ht'
        exact ⟨hca, hsome⟩
      | some pair => exact ⟨fun hn => absurd ⟨rfl, hsome⟩ hn, fun _ => rfl⟩

/-- Valid settings make a connection on the files with which they are valid: no option is out of the question, and
the transport is the one that the settings describe. Only where they ask for a certificate of the client to be
shown without naming an authority is there no transport, and that is what the error says. -/
theorem built_of_valid (h : c.invalid? fs = none) :
    (¬ Unrooted c → ∃ t, build? fs c = some (.ok (optionsOf c, t)) ∧ Travels fs c t) ∧
    (Unrooted c →
      build? fs c = some (.error (.configuration "A client certificate requires tls.ca_cert_path"))) := by
  obtain ⟨hf, ht⟩ := Client.invalid?_eq_none.mp h
  obtain ⟨hok, herror⟩ := transport_of_valid (o := optionsOf c) ht
  unfold build?
  rw [ofConfig_eq_some (Client.settable_of_failures hf)]
  constructor
  · intro hn
    obtain ⟨t, hmade, htravels⟩ := hok hn
    exact ⟨t, by simp [hmade, Except.map], htravels⟩
  · intro hn
    simp [herror hn, Except.map]

/-- A device that shows a certificate of its own, and perhaps names an authority. -/
def certified (caCertPath : Option String) : Client where
  host := "hub.example.net"
  deviceId := "dev-1"
  auth := { sasToken := some "SharedAccessSignature sr=x&sig=y&se=1" }
  tls := some { caCertPath, clientCertPath := some "c.pem", clientKeyPath := some "k.pem" }

/-- An authority that all programs share, and a certificate and its key where the program runs. -/
def certificates : Files where
  entry? path := [("/etc/ssl/ca.pem", .file [1]), ("c.pem", .file [2]), ("k.pem", .file [3])].lookup path

theorem built_of_valid_mutual : (certified (some "/etc/ssl/ca.pem")).invalid? certificates = none ∧
    ∃ t, build? certificates (certified (some "/etc/ssl/ca.pem")) =
        some (.ok (optionsOf (certified (some "/etc/ssl/ca.pem")), t)) ∧
      Travels certificates (certified (some "/etc/ssl/ca.pem")) t := by
  have hvalid : (certified (some "/etc/ssl/ca.pem")).invalid? certificates = none := by decide +kernel
  refine ⟨hvalid, (built_of_valid hvalid).1 ?_⟩
  rintro ⟨-, t, ht, hca, -⟩
  cases ht
  cases hca

/-- These settings are valid, and there is no transport for them. -/
theorem certificate_without_authority : (certified none).invalid? certificates = none ∧
    build? certificates (certified none) =
      some (.error (.configuration "A client certificate requires tls.ca_cert_path")) := by
  constructor <;> decide +kernel

end Setup

end Mqtt

end HubDevice
