import HubDevice.Proofs.Topic.Bag
import Mathlib.Data.List.Basic

/-!
# Queries

The query of a topic is made of pairs of a name and a value. What it says about a name is the value of the first pair
with this name (`queryValue?_eq_some`), so that pairs which are written one after another are looked up as they are
(`queryValue?_writeQuery`). What a topic announces about the twin is read off its query (`Announces`).
-/

namespace HubDevice

namespace Topic

/-- A query has a pair of a name and a value, and no other pair of this name before it. -/
def Pairs (query : List Char) (key : String) (value : List Char) : Prop :=
  ∃ before after, Text.parts '&' query = before ++ (key.toList ++ '=' :: value) :: after ∧
    ∀ part ∈ before, ¬ key.toList ++ ['='] <+: part

/-- What the topic of an answer about the twin says: the status stands before the query, and the query has the
id of the request, and the version if it has one that is a number. -/
structure Announces (topic : String) (r : TwinResponse) (status query : List Char) : Prop where
  topic : topic.toList = twinResponseStart.toList ++ status ++ ['/', '?'] ++ query
  status : Text.unsigned? (2 ^ 16) status = some r.status
  requestId : Pairs query "$rid" r.requestId.toList
  version : ∀ v, r.version = some v ↔ ∃ value, Pairs query "$version" value ∧ Text.signed? value = some v

theorem queryValue?_eq_some {query value : List Char} {key : String} (hk : '=' ∉ key.toList) :
    queryValue? query key = some value ↔ Pairs query key value := by
  have cut : ∀ v, Text.cut? ['='] (key.toList ++ '=' :: v) = some (key.toList, v) :=
    fun v => Text.cut?_of_notMem hk
  constructor
  · intro h
    obtain ⟨⟨k, v⟩, hf, hv⟩ := Option.map_eq_some_iff.mp h
    obtain ⟨hkey, as, bs, hsplit, has⟩ := List.find?_eq_some_iff_append.mp hf
    have hkey : k = key.toList := by simpa using hkey
    have hv : v = value := hv
    subst hkey hv
    obtain ⟨before, rest, hparts, hbefore, hrest⟩ := List.filterMap_eq_append_iff.mp hsplit
    obtain ⟨skipped, part, after, hr, hskipped, hpart, -⟩ := List.filterMap_eq_cons_iff.mp hrest
    refine ⟨before ++ skipped, after, ?_, fun part' hp' => ?_⟩
    · rw [hparts, hr, Text.cut?_eq_some hpart]
      simp
    · rintro ⟨v', rfl⟩
      have hcut : Text.cut? ['='] (key.toList ++ ['='] ++ v') = some (key.toList, v') := by
        simpa using cut v'
      rcases List.mem_append.mp hp' with hp' | hp'
      · have hin : (key.toList, v') ∈ as := by
          rw [← hbefore]
          exact List.mem_filterMap.mpr ⟨_, hp', hcut⟩
        simpa using has _ hin
      · rw [hskipped _ hp'] at hcut
        cases hcut
  · rintro ⟨before, after, hparts, hbefore⟩
    have hnone : (before.filterMap (Text.cut? ['='])).find? (fun p => p.1 = key.toList) = none := by
      refine List.find?_eq_none.mpr fun ⟨k, v⟩ hm hkey => ?_
      obtain ⟨part, hp, hcut⟩ := List.mem_filterMap.mp hm
      have hkey : k = key.toList := by simpa using hkey
      subst hkey
      exact hbefore part hp ⟨v, (Text.cut?_eq_some hcut).symm⟩
    simp [queryValue?, hparts, List.filterMap_append, List.find?_append, hnone, cut value]

theorem announces_of_twinResponse? {topic : String} {r : TwinResponse} (h : twinResponse? topic = some r) :
    ∃ status query, Announces topic r status query := by
  simp only [twinResponse?, Option.bind_eq_bind, Option.bind_eq_some_iff] at h
  obtain ⟨rest, hrest, ⟨status, query⟩, hcut, n, hn, id, hid, hr⟩ := h
  cases hr
  refine ⟨status, query, ?_, hn, ?_, fun v => ?_⟩
  · rw [Text.after?_eq_some.mp hrest, Text.cut?_eq_some hcut]
    simp
  · rw [String.toList_ofList]
    exact (queryValue?_eq_some (by decide)).mp hid
  · simp only [Option.bind_eq_some_iff, queryValue?_eq_some (by decide : '=' ∉ "$version".toList)]

/-! ## Written queries -/

/-- The written form of a pair. -/
def writeParam (p : String × String) : List Char := p.1.toList ++ '=' :: p.2.toList

/-- The query that is made of pairs. -/
def writeQuery (ps : List (String × String)) : String := String.ofList (Bag.join (ps.map writeParam))

example : writeQuery [("$rid", "a=b"), ("$version", "-7")] = "$rid=a=b&$version=-7" := by decide

/-- A name and a value that can stand in a query: nothing in them ends the one or the other too early. -/
structure Fits (p : String × String) : Prop where
  name : '=' ∉ p.1.toList
  start : '&' ∉ p.1.toList
  value : '&' ∉ p.2.toList

variable {ps : List (String × String)}

theorem Fits.notMem {p : String × String} (h : Fits p) : '&' ∉ writeParam p := by
  intro hm
  rcases List.mem_append.mp hm with hm | hm
  · exact h.start hm
  · rcases List.mem_cons.mp hm with hm | hm
    · exact absurd hm (by decide)
    · exact h.value hm

/-- The pairs of a written query are found in it. -/
theorem filterMap_parts_writeQuery (h : ∀ p ∈ ps, Fits p) :
    (Text.parts '&' (writeQuery ps).toList).filterMap (Text.cut? ['=']) = ps.map fun p => (p.1.toList, p.2.toList) := by
  have hparts : Text.parts '&' (writeQuery ps).toList =
      if ps.map writeParam = [] then [[]] else ps.map writeParam := by
    rw [writeQuery, String.toList_ofList, Bag.parts_join]
    intro part hpart
    obtain ⟨p, hp, rfl⟩ := List.mem_map.mp hpart
    exact (h p hp).notMem
  rw [hparts]
  split
  · rename_i hnil
    rw [List.map_eq_nil_iff.mp hnil]
    rfl
  · rw [List.filterMap_map]
    refine List.filterMap_eq_map_iff_forall_eq_some.mpr fun p hp => ?_
    exact Text.cut?_of_notMem (h p hp).name

/-- A written query says about a name what its first pair with this name says. -/
theorem queryValue?_writeQuery (h : ∀ p ∈ ps, Fits p) (key : String) :
    queryValue? (writeQuery ps).toList key = (ps.find? fun p => p.1 = key).map fun p => p.2.toList := by
  rw [queryValue?, filterMap_parts_writeQuery h, List.find?_map, Option.map_map]
  simp only [Function.comp_def, String.toList_inj]

end Topic

end HubDevice
