import HubDevice.Proofs.Text.Whole
import HubDevice.Proofs.Topic.Query
import HubDevice.Proofs.Topic.Restored

/-!
# What arrives is what was sent

The topics that a hub sends on are written here as it writes them. Each reader gives back what its topic was made of
(`arrivals_read_back`): the name of a method ends at the first place where a query can begin, the pairs of a query are
looked up whatever their order is, numbers are decimals, and bags bring back the fields of a message. The answer to a
method carries the id that its call had, whatever the topic of the call looked like.
-/

namespace HubDevice

namespace Topic

variable {name requestId : String} {status : Nat} {version : Int} {payload : Octets}

/-- The topic on which the hub calls a method. -/
def methodCall (name requestId : String) : String :=
  methodsStart ++ (name ++ "/?" ++ writeQuery [("$rid", requestId)])

/-- The topic on which the hub answers a request about the twin. -/
def twinAnswer (status : Nat) (params : List (String × String)) : String :=
  twinResponseStart ++ (toString status ++ "/?" ++ writeQuery params)

/-- The topic on which the hub sends a patch of desired properties. -/
def patchNotice (version : Int) : String := desiredStart ++ ("?" ++ writeQuery [("$version", toString version)])

example : methodCall "Reboot" "7" = "$iothub/methods/POST/Reboot/?$rid=7" := by decide

example : twinAnswer 204 [("$rid", "7"), ("$version", "12")] = "$iothub/twin/res/204/?$rid=7&$version=12" := by decide

/-! ## Taking topics apart -/

theorem after?_start (start rest : String) : Text.after? start.toList (start ++ rest).toList = some rest.toList := by
  rw [String.toList_append, Text.after?_append]

/-- A text in which no query can begin ends where the query begins. -/
theorem cut?_query (h : ¬ ['/', '?'] <:+: name.toList) (query : String) :
    Text.cut? ['/', '?'] (name ++ "/?" ++ query).toList = some (name.toList, query.toList) := by
  have htext : (name ++ "/?" ++ query).toList = name.toList ++ '/' :: '?' :: query.toList := by
    simp [String.toList_append]
  rw [htext, Text.cut?_pair (by decide) h]

theorem not_infix_of_notMem {cs : List Char} (h : '?' ∉ cs) : ¬ ['/', '?'] <:+: cs :=
  fun hi => h (hi.subset (by simp))

theorem not_infix_status (status : Nat) : ¬ ['/', '?'] <:+: (toString status).toList :=
  not_infix_of_notMem (Text.notMem_toString (by decide) status)

theorem fits_requestId (h : '&' ∉ requestId.toList) : Fits ("$rid", requestId) where
  name := (by decide : '=' ∉ "$rid".toList)
  start := (by decide : '&' ∉ "$rid".toList)
  value := h

theorem fits_version (version : Int) : Fits ("$version", toString version) where
  name := (by decide : '=' ∉ "$version".toList)
  start := (by decide : '&' ∉ "$version".toList)
  value := Text.notMem_toString_int (by decide) (by decide) version

/-! ## Each reader gives back what was written -/

theorem method?_methodCall (hname : name ≠ "") (hquery : ¬ ['/', '?'] <:+: name.toList) (hid : '&' ∉ requestId.toList) :
    method? (methodCall name requestId) payload = some ⟨name, requestId, payload⟩ := by
  have hvalue : queryValue? (writeQuery [("$rid", requestId)]).toList "$rid" = some requestId.toList := by
    rw [queryValue?_writeQuery (List.forall_mem_singleton.mpr (fits_requestId hid))]
    simp
  have hne : name.toList.isEmpty = false := by simpa using hname
  rw [method?, methodCall, after?_start]
  simp only [Option.bind_eq_bind, Option.bind_some, cut?_query hquery, hvalue, hne]
  simp

/-- Whatever else an answer says, its id and its version are those that are named first. -/
theorem twinResponse?_twinAnswer {params : List (String × String)} {p : String × String} (hstatus : status < 2 ^ 16)
    (hparams : ∀ p ∈ params, Fits p) (hid : params.find? (fun p => p.1 = "$rid") = some p) :
    twinResponse? (twinAnswer status params) = some ⟨status, p.2,
      (params.find? fun p => p.1 = "$version").bind fun p => Text.signed? p.2.toList⟩ := by
  rw [twinResponse?, twinAnswer, after?_start]
  simp only [Option.bind_eq_bind, Option.bind_some, cut?_query (not_infix_status status),
    Text.unsigned?_toString hstatus, queryValue?_writeQuery hparams, hid, Option.map_some, Option.bind_map,
    String.ofList_toList]
  rfl

theorem desired?_patchNotice (h : -2 ^ 63 ≤ version ∧ version < 2 ^ 63) :
    desired? (patchNotice version) = some (some version) := by
  have hvalue : queryValue? (writeQuery [("$version", toString version)]).toList "$version" =
      some (toString version).toList := by
    rw [queryValue?_writeQuery (List.forall_mem_singleton.mpr (fits_version version))]
    simp
  have hquery : Text.after? ['?'] ("?" ++ writeQuery [("$version", toString version)]).toList =
      some (writeQuery [("$version", toString version)]).toList := after?_start "?" _
  rw [desired?, patchNotice, after?_start]
  simp only [Option.bind_eq_bind, Option.bind_some, hquery, Option.getD_some, hvalue, Text.signed?_toString h]
  rfl

end Topic

/-- What arrives of a message whose fields travel in a bag. -/
def Message.carried (m : Message) (payload : Octets) : Message :=
  { m with payload, lockToken := none, inputName := none }

namespace Identity

variable {x : Identity} {m : Message} {payload : Octets} {start input : String}

theorem apply_encode_eq_carried (hm : m.properties.Sorted) (h : ∀ p ∈ m.properties, Topic.Bag.Unmarked p)
    (payload : Octets) : Topic.Bag.apply { payload } (Topic.Bag.encode m).toList = m.carried payload :=
  Topic.Bag.restored_of_unmarked (m := { m with payload }) hm h

theorem c2d?_encode (hm : m.properties.Sorted) (h : ∀ p ∈ m.properties, Topic.Bag.Unmarked p) :
    x.c2d? (x.c2dStart ++ Topic.Bag.encode m) payload = some (m.carried payload) := by
  rw [c2d?, Topic.after?_start, Option.map_some, apply_encode_eq_carried hm h]

theorem moduleInput?_encode (hstart : x.inputsStart? = some start) (hne : input ≠ "") (hinput : '/' ∉ input.toList)
    (hm : m.properties.Sorted) (h : ∀ p ∈ m.properties, Topic.Bag.Unmarked p) :
    x.moduleInput? (start ++ (input ++ "/" ++ Topic.Bag.encode m)) payload =
      some (.input input { m.carried payload with inputName := some input }) := by
  have hcut : Text.cut? ['/'] (input ++ "/" ++ Topic.Bag.encode m).toList =
      some (input.toList, (Topic.Bag.encode m).toList) := by
    have htext : (input ++ "/" ++ Topic.Bag.encode m).toList = input.toList ++ '/' :: (Topic.Bag.encode m).toList := by
      simp [String.toList_append]
    rw [htext, Text.cut?_of_notMem hinput]
  have hne : input.toList.isEmpty = false := by simpa using hne
  rw [moduleInput?, hstart]
  simp only [Option.bind_eq_bind, Option.bind_some, Topic.after?_start, hcut, Option.getD_some, hne,
    apply_encode_eq_carried hm h, String.ofList_toList]
  rfl

end Identity

namespace Topic

/-! ## The answer to a method -/

/-- The id of a method that was called ends before the next pair of its query. -/
theorem notMem_of_method? {topic : String} {payload : Octets} {call : MethodRequest}
    (h : method? topic payload = some call) : '&' ∉ call.requestId.toList := by
  simp only [method?, Option.bind_eq_bind, Option.bind_eq_some_iff] at h
  obtain ⟨rest, -, ⟨name, query⟩, -, id, hid, hcall⟩ := h
  obtain ⟨before, after, hparts, -⟩ := (queryValue?_eq_some (by decide)).mp hid
  have hpart : '&' ∉ "$rid".toList ++ '=' :: id :=
    Text.notMem_of_mem_parts (hparts ▸ List.mem_append_right before List.mem_cons_self)
  have hrequest : call.requestId = String.ofList id := by
    split at hcall <;> cases hcall
    rfl
  rw [hrequest, String.toList_ofList]
  exact fun hm => hpart (List.mem_append_right _ (List.mem_cons_of_mem _ hm))

theorem writeQuery_requestId (requestId : String) : writeQuery [("$rid", requestId)] = "$rid=" ++ requestId := by
  rw [← String.toList_inj, writeQuery, String.toList_ofList, String.toList_append]
  simp [writeParam, Bag.join]

theorem append_mark (before requestId : String) :
    before ++ "/?$rid=" ++ requestId = before ++ "/?" ++ ("$rid=" ++ requestId) := by
  have hmark : "/?$rid=" = "/?" ++ "$rid=" := by decide
  simp only [hmark, String.append_assoc]

/-- The query of the topic of an answer is the id of the call. -/
theorem cut?_methodResponse (status : Nat) (requestId : String) :
    ∃ before, Text.cut? ['/', '?'] (methodResponse status requestId).toList =
      some (before, (writeQuery [("$rid", requestId)]).toList) := by
  have htopic : methodResponse status requestId =
      "$iothub/methods/res/" ++ toString status ++ "/?" ++ writeQuery [("$rid", requestId)] := by
    rw [writeQuery_requestId]
    exact append_mark ("$iothub/methods/res/" ++ toString status) requestId
  -- A query cannot begin in the status, so the first one is that with the id.
  have hbefore : '?' ∉ ("$iothub/methods/res/" ++ toString status).toList := by
    rw [String.toList_append, List.mem_append, not_or]
    exact ⟨by decide, Text.notMem_toString (by decide) status⟩
  refine ⟨("$iothub/methods/res/" ++ toString status).toList, ?_⟩
  rw [htopic]
  exact cut?_query (not_infix_of_notMem hbefore) _

/-- A hub that calls a method, answers a request about the twin, sends a patch of desired properties, a message or the
input of a module is understood: what it has put into the topic is what is read from it. The version of an answer may
stand before or after the id, or be left out. And the id that any topic of a call is read to have is the one that can
be read from the topic of the answer to it. -/
theorem arrivals_read_back (x : Identity) {status : Nat} {version : Int} {name requestId input : String}
    {m : Message} (payload : Octets) (hstatus : status < 2 ^ 16) (hversion : -2 ^ 63 ≤ version ∧ version < 2 ^ 63)
    (hname : name ≠ "") (hquery : ¬ ['/', '?'] <:+: name.toList) (hid : '&' ∉ requestId.toList)
    (hinput : input ≠ "") (hslash : '/' ∉ input.toList) (hm : m.properties.Sorted)
    (hmarked : ∀ p ∈ m.properties, p.1.startsWith "$." = false) :
    method? (methodCall name requestId) payload = some ⟨name, requestId, payload⟩ ∧
    twinResponse? (twinAnswer status [("$rid", requestId)]) = some ⟨status, requestId, none⟩ ∧
    twinResponse? (twinAnswer status [("$rid", requestId), ("$version", toString version)]) =
      some ⟨status, requestId, some version⟩ ∧
    twinResponse? (twinAnswer status [("$version", toString version), ("$rid", requestId)]) =
      some ⟨status, requestId, some version⟩ ∧
    desired? (patchNotice version) = some (some version) ∧
    x.c2d? (x.c2dStart ++ Bag.encode m) payload = some (m.carried payload) ∧
    (∀ start, x.inputsStart? = some start → x.moduleInput? (start ++ (input ++ "/" ++ Bag.encode m)) payload =
      some (.input input { m.carried payload with inputName := some input })) ∧
    ∀ topic payload call, method? topic payload = some call → ∀ status, ∃ before query,
      Text.cut? ['/', '?'] (methodResponse status call.requestId).toList = some (before, query) ∧
        queryValue? query "$rid" = some call.requestId.toList := by
  have hrid := fits_requestId hid
  have hver := fits_version version
  refine ⟨method?_methodCall hname hquery hid, ?_, ?_, ?_, desired?_patchNotice hversion, x.c2d?_encode hm hmarked,
    fun start hstart => x.moduleInput?_encode hstart hinput hslash hm hmarked,
    fun topic payload call hcall status => ?_⟩
  · rw [twinResponse?_twinAnswer (p := ("$rid", requestId)) hstatus (by simpa using hrid) (by simp)]
    simp
  · rw [twinResponse?_twinAnswer (p := ("$rid", requestId)) hstatus (by simpa using ⟨hrid, hver⟩) (by simp)]
    simpa using Text.signed?_toString hversion
  · rw [twinResponse?_twinAnswer (p := ("$rid", requestId)) hstatus (by simpa using ⟨hver, hrid⟩) (by simp)]
    simpa using Text.signed?_toString hversion
  · obtain ⟨before, hcut⟩ := cut?_methodResponse status call.requestId
    refine ⟨before, _, hcut, ?_⟩
    rw [queryValue?_writeQuery (List.forall_mem_singleton.mpr (fits_requestId (notMem_of_method? hcall)))]
    simp

/-- A name with separators in it, an id with an equals sign, the least version, and a bag with a mark in a value. -/
def awkward : Message := ({ messageId := some "$.mid=&", contentType := some "a/b" } : Message).withProperty "k=" "&%"

theorem arrivals_read_back_awkward :
    method? (methodCall "a/b?c&$rid=1" "=7/?") [7] = some ⟨"a/b?c&$rid=1", "=7/?", [7]⟩ ∧
    twinResponse? (twinAnswer 65535 [("$version", toString (-2 ^ 63 : Int)), ("$rid", "=7/?")]) =
      some ⟨65535, "=7/?", some (-2 ^ 63)⟩ ∧
    desired? (patchNotice (-2 ^ 63)) = some (some (-2 ^ 63)) ∧
    Identity.moduleInput? ⟨"d/modules", some "inputs/"⟩
      ("devices/d/modules/modules/inputs//inputs/" ++ ("?" ++ "/" ++ Bag.encode awkward)) [7] =
        some (.input "?" { awkward with payload := [7], inputName := some "?" }) := by
  have hsorted : awkward.properties.Sorted := by
    unfold Properties.Sorted
    decide +kernel
  obtain ⟨hcall, -, -, htwin, hpatch, -, hinput, -⟩ := @arrivals_read_back ⟨"d/modules", some "inputs/"⟩ 65535 (-2 ^ 63)
    "a/b?c&$rid=1" "=7/?" "?" awkward [7] (by decide) (by decide) (by decide) (by decide +kernel) (by decide)
    (by decide) (by decide) hsorted (by decide +kernel)
  exact ⟨hcall, htwin, hpatch, hinput _ rfl⟩

end Topic

end HubDevice
