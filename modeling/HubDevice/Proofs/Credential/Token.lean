import HubDevice.Credential.Token
import HubDevice.Proofs.Text.Base64
import HubDevice.Proofs.Text.Whole
import HubDevice.Proofs.Topic.Bag

/-!
# What a token says

A token is a scheme and fields, and no character of what is signed for can be taken for the end of a field: names and
signatures are written in their percent-encoded form, and seconds are digits. So what a field holds is what was put into
it, and the signature is that of two of the fields as they stand in the token.
-/

namespace HubDevice.Credential

namespace Signer

variable {s : Signer} {expiry : Nat}

/-- The code for the resource as it is written and for the second of the expiry. -/
def signature (s : Signer) (expiry : Nat) : Octets :=
  Sha256.authenticate s.key (Octets.ofText (signedText (String.ofList (Text.Percent.encode s.resource)) expiry))

/-- The fields of a token in their order. -/
def fields (s : Signer) (expiry : Nat) : List (List Char) :=
  ["sr=".toList ++ Text.Percent.encode s.resource,
    "sig=".toList ++ Text.Percent.encode (String.ofList (Text.Base64.encode (s.signature expiry))),
    "se=".toList ++ (toString expiry).toList] ++
  s.keyName.toList.map fun name => "skn=".toList ++ Text.Percent.encode name

theorem notMem_fields {field : List Char} (h : field ∈ s.fields expiry) : '&' ∉ field := by
  have hencoded : ∀ (start : String) (text : String), '&' ∉ start.toList →
      '&' ∉ start.toList ++ Text.Percent.encode text := by
    intro start text hstart hm
    exact (List.mem_append.mp hm).elim hstart (Topic.Bag.notMem_encode (.inl rfl) text)
  rcases List.mem_append.mp h with h | h
  · rcases List.mem_cons.mp h with rfl | h
    · exact hencoded "sr=" _ (by decide)
    rcases List.mem_cons.mp h with rfl | h
    · exact hencoded "sig=" _ (by decide)
    · rw [List.mem_singleton.mp h, List.mem_append, not_or]
      exact ⟨by decide, Text.notMem_toString (by decide) expiry⟩
  · obtain ⟨name, -, rfl⟩ := List.mem_map.mp h
    exact hencoded "skn=" name (by decide)

theorem tokenText_eq : s.tokenText expiry =
    "SharedAccessSignature " ++ String.ofList (Topic.Bag.join (s.fields expiry)) := by
  rw [← String.toList_inj]
  unfold tokenText fields signature
  cases s.keyName with
  | none => simp [Topic.Bag.join]
  | some name => simp [Topic.Bag.join]

theorem parts_fields : Text.parts '&' (String.ofList (Topic.Bag.join (s.fields expiry))).toList = s.fields expiry := by
  rw [String.toList_ofList, Topic.Bag.parts_join fun _ => notMem_fields, if_neg (by simp [fields])]

/-- The text of a token, taken apart and read. -/
theorem tokenText_fields (s : Signer) (expiry : Nat) :
    ∃ (fields : String) (sr sig : List Char) (skn : Option (List Char)),
      s.tokenText expiry = "SharedAccessSignature " ++ fields ∧
      Text.parts '&' fields.toList =
        ["sr=".toList ++ sr, "sig=".toList ++ sig, "se=".toList ++ (toString expiry).toList] ++
          skn.toList.map ("skn=".toList ++ ·) ∧
      Text.Percent.decode? sr = some s.resource ∧
      (∃ text, Text.Percent.decode? sig = some text ∧ Text.Base64.decode? text.toList =
        some (Sha256.authenticate s.key (Octets.ofText (String.ofList sr ++ "\n" ++ toString expiry)))) ∧
      skn.map Text.Percent.decode? = s.keyName.map some := by
  have hsignature : Text.Base64.decode? (String.ofList (Text.Base64.encode (s.signature expiry))).toList =
      some (s.signature expiry) := by
    rw [String.toList_ofList, Text.Base64.decode?_encode]
  refine ⟨_, Text.Percent.encode s.resource, Text.Percent.encode _, s.keyName.map Text.Percent.encode, tokenText_eq, ?_,
    Text.Percent.decode?_encode _, ⟨_, Text.Percent.decode?_encode _, hsignature⟩, ?_⟩
  · rw [parts_fields, fields]
    cases s.keyName <;> rfl
  · rw [Option.map_map]
    exact Option.map_congr fun name _ => Text.Percent.decode?_encode name

theorem tokenAt?_of_clock {now : Time} (hclock : now + s.lifetime.nanos < 2 ^ 63 * 10 ^ 9) :
    s.tokenAt? now = some (if now + s.lifetime.nanos < 0 then
        .error (.configuration "Clock before epoch: second time provided was later than self")
      else .ok ⟨s.tokenText ((now + s.lifetime.nanos).toNat / 10 ^ 9), some (now + s.lifetime.nanos)⟩) := by
  rw [tokenAt?, Time.add?, if_pos hclock, Option.map_some]

theorem resourceOf_eq (host deviceId : String) (moduleId : Option String) :
    resourceOf host deviceId moduleId = host ++ "/devices/" ++ deviceId ++ moduleId.elim "" ("/modules/" ++ ·) := by
  cases moduleId <;> rfl

theorem ofKey_eq_ok {host deviceId key : String} {moduleId : Option String} {octets : Octets} {lifetime : Span}
    (h : Text.Base64.decode? (Text.trim key).toList = some octets) :
    ofKey host deviceId moduleId key lifetime =
      .ok { resource := resourceOf host deviceId moduleId, key := octets, lifetime } := by
  rw [ofKey, h]

/-- The second of a time that is not before the epoch. -/
theorem second_of_time {t : Int} (h : 0 ≤ t) :
    ((t.toNat / 10 ^ 9 : Nat) : Int) * 10 ^ 9 ≤ t ∧ t < (((t.toNat / 10 ^ 9 : Nat) : Int) + 1) * 10 ^ 9 := by
  omega

/-- For every identity, every key that is Base64, every name of a policy or none, and every time at which the expiry can
be told by the clock: an expiry before the epoch is an error. Otherwise the token expires then, and its value is the
scheme and the fields of the resource, the signature, the second and, just when the key has a name, the name. The
written resource reads back as the host with the ids, the second is that of the expiry, the written signature reads back
as the code under the key for the resource as it is written and the second, and the written name reads back. -/
theorem token_fields {key : String} {octets : Octets} {now : Time} {lifetime : Span} (host deviceId : String)
    (moduleId keyName : Option String) (hkey : Text.Base64.decode? (Text.trim key).toList = some octets)
    (hclock : now + lifetime.nanos < 2 ^ 63 * 10 ^ 9) :
    ∃ s, ofKey host deviceId moduleId key lifetime = .ok s ∧
      (now + lifetime.nanos < 0 → { s with keyName }.tokenAt? now =
        some (.error (.configuration "Clock before epoch: second time provided was later than self"))) ∧
      (0 ≤ now + lifetime.nanos → ∃ (fields : String) (sr sig : List Char) (skn : Option (List Char)) (second : Nat),
        { s with keyName }.tokenAt? now =
          some (.ok ⟨"SharedAccessSignature " ++ fields, some (now + lifetime.nanos)⟩) ∧
        Text.parts '&' fields.toList =
          ["sr=".toList ++ sr, "sig=".toList ++ sig, "se=".toList ++ (toString second).toList] ++
            skn.toList.map ("skn=".toList ++ ·) ∧
        Text.Percent.decode? sr = some (host ++ "/devices/" ++ deviceId ++ moduleId.elim "" ("/modules/" ++ ·)) ∧
        second * 10 ^ 9 ≤ now + lifetime.nanos ∧ now + lifetime.nanos < (second + 1) * 10 ^ 9 ∧
        (∃ text, Text.Percent.decode? sig = some text ∧ Text.Base64.decode? text.toList =
          some (Sha256.authenticate octets (Octets.ofText (String.ofList sr ++ "\n" ++ toString second)))) ∧
        skn.map Text.Percent.decode? = keyName.map some) := by
  refine ⟨_, ofKey_eq_ok hkey, fun hbefore => ?_, fun hafter => ?_⟩
  · rw [tokenAt?_of_clock hclock, if_pos hbefore]
  · obtain ⟨fields, sr, sig, skn, htext, hparts, hsr, hsig, hskn⟩ :=
      tokenText_fields ⟨resourceOf host deviceId moduleId, octets, keyName, lifetime⟩
        ((now + lifetime.nanos).toNat / 10 ^ 9)
    rw [resourceOf_eq] at hsr
    obtain ⟨hleast, hmost⟩ := second_of_time hafter
    refine ⟨fields, sr, sig, skn, _, ?_, hparts, hsr, hleast, hmost, hsig, hskn⟩
    rw [tokenAt?_of_clock hclock, if_neg (Int.not_lt.mpr hafter), htext]

/-- Separators in the names, a policy, and an expiry that is not at the beginning of a second. -/
theorem token_fields_separators : ∃ s fields sr sig skn,
    ofKey "hub=1" "d&e" (some "m/%") " a2V5\n" (Span.ofSeconds 3600) = .ok s ∧
    { s with keyName := some "own&er" }.tokenAt? 1500000000 =
      some (.ok ⟨"SharedAccessSignature " ++ fields, some 3601500000000⟩) ∧
    Text.parts '&' fields.toList = ["sr=".toList ++ sr, "sig=".toList ++ sig, "se=3601".toList, "skn=".toList ++ skn] ∧
    Text.Percent.decode? sr = some "hub=1/devices/d&e/modules/m/%" ∧ Text.Percent.decode? skn = some "own&er" := by
  have hkey : Text.Base64.decode? (Text.trim " a2V5\n").toList = some [107, 101, 121] := by decide +kernel
  have hclock : (1500000000 : Time) + (Span.ofSeconds 3600).nanos < 2 ^ 63 * 10 ^ 9 := by decide
  obtain ⟨s, hs, -, htoken⟩ := token_fields "hub=1" "d&e" (some "m/%") (some "own&er") hkey hclock
  obtain ⟨fields, sr, sig, skn, second, htoken, hparts, hsr, hleast, hmost, -, hskn⟩ := htoken (by decide)
  have hexpiry : (1500000000 : Time) + (Span.ofSeconds 3600).nanos = 3601500000000 := by decide
  rw [hexpiry] at htoken hleast hmost
  have hsecond : second = 3601 := by
    have hleast : (second : Int) * 10 ^ 9 ≤ 3601500000000 := hleast
    have hmost : (3601500000000 : Int) < (second + 1) * 10 ^ 9 := hmost
    omega
  subst hsecond
  cases skn with
  | none => cases hskn
  | some skn =>
    exact ⟨s, fields, sr, sig, skn, hs, htoken, hparts, hsr, Option.some.inj hskn⟩

end Signer

end HubDevice.Credential
