import HubDevice.Proofs.Topic.Bag
import Mathlib.Data.String.Basic

/-!
# What a bag brings back

A message that is written as a bag and read again keeps its properties except those under marked names, and its
fields except where such a property takes their place (`restored_iff_unmarked`). Properties are sorted and have each
name once, so that reading them puts each at the end (`insertSorted_of_lt`) and no field is set twice by them
(`field?_foldl_set`). Whatever a bag says, the message that it makes of an empty one comes back unchanged
(`Received.restored`).
-/

namespace HubDevice

/-- Sorted by name, each name once. -/
def Properties.Sorted (ps : Properties) : Prop := ps.Pairwise fun a b => a.1 < b.1

namespace Json

variable {α : Type} {k : String} {v : α} {p : String × α} {l : List (String × α)}

theorem insertSorted_of_lt (h : ∀ q ∈ l, q.1 < k) : insertSorted k v l = l ++ [(k, v)] := by
  induction l with
  | nil => rfl
  | cons q l ih =>
    have hq : q.1 < k := h q List.mem_cons_self
    rw [insertSorted, if_neg (lt_asymm hq), if_neg (ne_of_gt hq), ih fun q' hq' => h q' (List.mem_cons_of_mem q hq')]
    rfl

theorem mem_of_mem_insertSorted (h : p ∈ insertSorted k v l) : p = (k, v) ∨ p ∈ l := by
  induction l with
  | nil => exact .inl (List.mem_singleton.mp h)
  | cons q l ih =>
    rw [insertSorted] at h
    split at h
    · exact List.mem_cons.mp h
    · split at h
      · exact (List.mem_cons.mp h).imp_right (List.mem_cons_of_mem q)
      · rcases List.mem_cons.mp h with rfl | h
        · exact .inr List.mem_cons_self
        · exact (ih h).imp_right (List.mem_cons_of_mem q)

end Json

namespace Properties.Sorted

variable {ps : Properties} {p : String × String} {k v : String}

theorem tail (h : Sorted (p :: ps)) : Sorted ps := List.Pairwise.of_cons h

theorem lt_of_mem (h : Sorted (p :: ps)) {q : String × String} (hq : q ∈ ps) : p.1 < q.1 :=
  List.rel_of_pairwise_cons h hq

theorem insertSorted (h : ps.Sorted) : Sorted (Json.insertSorted k v ps) := by
  induction ps with
  | nil => exact List.pairwise_singleton _ _
  | cons p ps ih =>
    rw [Json.insertSorted]
    split
    · rename_i hk
      refine List.Pairwise.cons (fun q hq => ?_) h
      rcases List.mem_cons.mp hq with rfl | hq
      · exact hk
      · exact lt_trans hk (h.lt_of_mem hq)
    · rename_i hk
      split
      · rename_i he
        exact List.Pairwise.cons (fun q hq => he ▸ h.lt_of_mem hq) h.tail
      · rename_i he
        refine List.Pairwise.cons (fun q hq => ?_) (ih h.tail)
        rcases Json.mem_of_mem_insertSorted hq with rfl | hq
        · exact lt_of_le_of_ne (not_lt.mp hk) (Ne.symm he)
        · exact h.lt_of_mem hq

end Properties.Sorted

namespace Topic.Bag

variable {m : Message} {p : String × String} {ps : Properties} {key : String}

/-! ## What a pair sets -/

/-- The field of a message that travels under a marked name. -/
def field? (key : String) (m : Message) : Option String := ((systemFields m).lookup key).join

theorem set_of_marked (h : ¬ Unmarked p) (m : Message) : (set m p).properties = m.properties := by
  have hp : p.1.startsWith "$." = true := by simpa [Unmarked] using h
  unfold set
  repeat' split
  all_goals rfl

/-- A pair sets the field that travels under its name, and no other. -/
theorem field?_set (hkey : key ∈ (systemFields m).map Prod.fst) :
    field? key (set m p) = if p.1 = key then some p.2 else field? key m := by
  have hkey : key = "$.mid" ∨ key = "$.cid" ∨ key = "$.ct" ∨ key = "$.ce" := by simpa [systemFields] using hkey
  rcases hkey with rfl | rfl | rfl | rfl
  all_goals
    unfold set
    repeat' split
    all_goals simp_all [field?, systemFields, List.lookup_cons, Message.withProperty]

/-- No pair touches what does not travel in a bag. -/
theorem set_untold (m : Message) (p : String × String) :
    (set m p).payload = m.payload ∧ (set m p).lockToken = m.lockToken ∧ (set m p).inputName = m.inputName := by
  unfold set
  repeat' split
  all_goals exact ⟨rfl, rfl, rfl⟩

/-! ## What sorted pairs set -/

theorem foldl_set_untold (m : Message) (ps : Properties) : (ps.foldl set m).payload = m.payload ∧
    (ps.foldl set m).lockToken = m.lockToken ∧ (ps.foldl set m).inputName = m.inputName := by
  induction ps generalizing m with
  | nil => exact ⟨rfl, rfl, rfl⟩
  | cons p ps ih =>
    obtain ⟨hpayload, hlock, hinput⟩ := set_untold m p
    rw [List.foldl_cons, (ih _).1, (ih _).2.1, (ih _).2.2]
    exact ⟨hpayload, hlock, hinput⟩

/-- A name that comes before all names of properties is none of them. -/
theorem find?_of_sorted {q : String × String} (hs : Properties.Sorted (q :: ps)) :
    ps.find? (fun p => p.1 = q.1) = none := by
  refine List.find?_eq_none.mpr fun p hp he => ?_
  have he : p.1 = q.1 := by simpa using he
  exact absurd (hs.lt_of_mem hp) (he ▸ lt_irrefl _)

/-- The property under the name of a field takes the place of the field. -/
theorem field?_foldl_set (hs : ps.Sorted) (hkey : key ∈ (systemFields m).map Prod.fst) :
    field? key (ps.foldl set m) = ((ps.find? fun p => p.1 = key).map (·.2)).or (field? key m) := by
  induction ps generalizing m with
  | nil => rfl
  | cons p ps ih =>
    have hkey' : key ∈ (systemFields (set m p)).map Prod.fst := hkey
    rw [List.foldl_cons, ih hs.tail hkey', field?_set hkey]
    by_cases hp : p.1 = key
    · subst hp
      simp [find?_of_sorted hs]
    · simp [hp]

/-- The properties that are not marked. -/
def unmarked (ps : Properties) : Properties := ps.filter fun p => !p.1.startsWith "$."

theorem unmarked_cons_of_unmarked (hp : Unmarked p) : unmarked (p :: ps) = p :: unmarked ps :=
  List.filter_cons_of_pos (by rw [hp]; rfl)

theorem unmarked_cons_of_marked (hp : ¬ Unmarked p) : unmarked (p :: ps) = unmarked ps :=
  List.filter_cons_of_neg (by simpa [Unmarked] using hp)

theorem unmarked_eq_self : unmarked ps = ps ↔ ∀ p ∈ ps, Unmarked p := by
  unfold unmarked
  rw [List.filter_eq_self]
  simp only [Unmarked, Bool.not_eq_true']

/-- Unmarked properties follow those that a message has. -/
theorem properties_foldl_set (hs : Properties.Sorted (m.properties ++ unmarked ps)) :
    (ps.foldl set m).properties = m.properties ++ unmarked ps := by
  induction ps generalizing m with
  | nil => exact (List.append_nil _).symm
  | cons p ps ih =>
    by_cases hp : Unmarked p
    · rw [unmarked_cons_of_unmarked hp] at hs ⊢
      have hset : (set m p).properties = m.properties ++ [p] := by
        rw [set_of_unmarked hp]
        exact Json.insertSorted_of_lt fun q hq => (List.pairwise_append.mp hs).2.2 q hq p List.mem_cons_self
      rw [List.append_cons] at hs ⊢
      rw [List.foldl_cons, ih (hset ▸ hs), hset]
    · rw [unmarked_cons_of_marked hp] at hs ⊢
      have hset := set_of_marked hp m
      rw [List.foldl_cons, ih (hset ▸ hs), hset]

/-! ## There and back -/

/-- What becomes of a message whose bag is read into an empty message with the same payload. -/
def restored (m : Message) : Message := apply { payload := m.payload } (encode m).toList

/-- The properties are read after the fields. -/
theorem restored_eq (m : Message) :
    restored m = m.properties.foldl set { m with properties := [], lockToken := none, inputName := none } := by
  rw [restored, apply, read_encode, pairs, List.foldl_append, foldl_set_systemFields]

theorem properties_restored (hm : m.properties.Sorted) :
    (restored m).properties = unmarked m.properties := by
  rw [restored_eq, properties_foldl_set]
  · rfl
  · exact List.Pairwise.filter _ hm

theorem field?_restored (hm : m.properties.Sorted) (hkey : key ∈ (systemFields m).map Prod.fst) :
    field? key (restored m) = (m.property? key).or (field? key m) := by
  rw [restored_eq, field?_foldl_set hm]
  · rfl
  · exact hkey

/-- Without marked properties a message comes back with all that travels in a bag. -/
theorem restored_of_unmarked (hm : m.properties.Sorted) (h : ∀ p ∈ m.properties, Unmarked p) :
    restored m = { m with lockToken := none, inputName := none } := by
  have hproperties : (restored m).properties = m.properties := by
    rw [properties_restored hm, unmarked_eq_self.mpr h]
  obtain ⟨properties, hback⟩ := apply_encode h m.payload
  rw [restored, hback] at hproperties
  rw [restored, hback]
  dsimp only at hproperties
  rw [hproperties]

/-! ## Messages that arrived -/

/-- A message that was made of a bag. -/
structure Received (m : Message) : Prop where
  sorted : m.properties.Sorted
  unmarked : ∀ p ∈ m.properties, Unmarked p
  lockToken : m.lockToken = none
  inputName : m.inputName = none

theorem Received.set (h : Received m) (p : String × String) : Received (set m p) := by
  obtain ⟨-, hlock, hinput⟩ := set_untold m p
  by_cases hp : Unmarked p
  · rw [set_of_unmarked hp] at hlock hinput ⊢
    refine ⟨h.sorted.insertSorted, fun q hq => ?_, hlock.trans h.lockToken, hinput.trans h.inputName⟩
    rcases Json.mem_of_mem_insertSorted hq with rfl | hq
    · exact hp
    · exact h.unmarked q hq
  · have hsame := set_of_marked hp m
    exact ⟨hsame ▸ h.sorted, hsame ▸ h.unmarked, hlock.trans h.lockToken, hinput.trans h.inputName⟩

theorem received_apply (payload : Octets) (bag : List Char) : Received (apply { payload } bag) := by
  unfold apply
  generalize read bag = ps
  have hempty : Received { payload } := ⟨.nil, fun p hp => absurd hp List.not_mem_nil, rfl, rfl⟩
  revert hempty
  generalize ({ payload } : Message) = m
  intro hm
  induction ps generalizing m with
  | nil => exact hm
  | cons p ps ih => exact ih _ (hm.set p)

theorem Received.restored (h : Received m) : restored m = m := by
  obtain ⟨hsorted, hunmarked, hlock, hinput⟩ := h
  rw [restored_of_unmarked hsorted hunmarked]
  cases m
  cases hlock
  cases hinput
  rfl

/-- A message whose bag is read into an empty message with the same payload loses its properties under marked names;
of these a property under the name of a field takes the place of the field. So all that travels in a bag comes back
just when no property is marked, and this is so of every message that was made of a bag. -/
theorem restored_iff_unmarked (hm : m.properties.Sorted) :
    (restored m).payload = m.payload ∧
    (restored m).properties = m.properties.filter (fun p => !p.1.startsWith "$.") ∧
    (restored m).messageId = (m.property? "$.mid").or m.messageId ∧
    (restored m).correlationId = (m.property? "$.cid").or m.correlationId ∧
    (restored m).contentType = (m.property? "$.ct").or m.contentType ∧
    (restored m).contentEncoding = (m.property? "$.ce").or m.contentEncoding ∧
    (restored m).lockToken = none ∧ (restored m).inputName = none ∧
    ((restored m).properties = m.properties ∧ (restored m).messageId = m.messageId ∧
        (restored m).correlationId = m.correlationId ∧ (restored m).contentType = m.contentType ∧
        (restored m).contentEncoding = m.contentEncoding ↔ ∀ p ∈ m.properties, p.1.startsWith "$." = false) ∧
    ∀ (payload : Octets) (bag : String),
      restored (apply { payload } bag.toList) = apply { payload } bag.toList := by
  have hproperties := properties_restored hm
  have hfield : ∀ key ∈ (systemFields m).map Prod.fst,
      field? key (restored m) = (m.property? key).or (field? key m) := fun key hkey => field?_restored hm hkey
  have huntold := foldl_set_untold { m with properties := [], lockToken := none, inputName := none } m.properties
  rw [← restored_eq] at huntold
  refine ⟨huntold.1, hproperties, hfield "$.mid" (by simp [systemFields]), hfield "$.cid" (by simp [systemFields]),
    hfield "$.ct" (by simp [systemFields]), hfield "$.ce" (by simp [systemFields]), huntold.2.1, huntold.2.2, ⟨?_, ?_⟩,
    fun payload bag => (received_apply payload bag.toList).restored⟩
  · rintro ⟨hsame, -⟩ p hp
    exact unmarked_eq_self.mp (hproperties ▸ hsame) p hp
  · intro h
    rw [restored_of_unmarked hm h]
    exact ⟨rfl, rfl, rfl, rfl, rfl⟩

/-- A message with a property that takes the place of its id, and another one that is lost. -/
def disguised : Message :=
  (({ messageId := some "7", contentType := some "text/plain" } : Message).withProperty "$.to" "a&b=c").withProperty
    "$.mid" "8"

theorem restored_iff_unmarked_disguised : disguised.properties.Sorted ∧ (restored disguised).properties = [] ∧
    (restored disguised).messageId = some "8" ∧ (restored disguised).contentType = some "text/plain" := by
  have hsorted : disguised.properties.Sorted := by
    unfold Properties.Sorted
    decide +kernel
  obtain ⟨-, hproperties, hid, -, htype, -⟩ := restored_iff_unmarked hsorted
  exact ⟨hsorted, hproperties.trans (by decide +kernel), hid.trans (by decide +kernel),
    htype.trans (by decide +kernel)⟩

end Topic.Bag

end HubDevice
