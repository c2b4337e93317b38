import HubDevice.Text.Split

/-!
# Cutting what was put together

A part that does not have the separator is what the first cut finds, and what stands before the first separator is the
first of all parts.
-/

namespace HubDevice.Text

theorem after?_append (p cs : List Char) : after? p (p ++ cs) = some cs := after?_eq_some.mpr rfl

theorem cut?_of_notMem {c : Char} {a b : List Char} (h : c ∉ a) : cut? [c] (a ++ c :: b) = some (a, b) := by
  induction a with
  | nil => simp [cut?, after?]
  | cons d a ih =>
    obtain ⟨hd, ha⟩ := not_or.mp (fun hm => h (List.mem_cons.mpr hm))
    simp [cut?, after?, hd, ih ha]

/-- Of two different characters the first place is found where they stand side by side. -/
theorem cut?_pair {c d : Char} {a : List Char} (hcd : c ≠ d) (h : ¬ [c, d] <:+: a) (b : List Char) :
    cut? [c, d] (a ++ c :: d :: b) = some (a, b) := by
  induction a with
  | nil => simp [cut?, after?]
  | cons e a ih =>
    have htail : ¬ [c, d] <:+: a := fun hi => h (List.infix_cons hi)
    have hnone : after? [c, d] (e :: (a ++ c :: d :: b)) = none := by
      refine Option.eq_none_iff_forall_ne_some.mpr fun rest hr => ?_
      have hsame := after?_eq_some.mp hr
      cases a with
      | nil => exact hcd (List.cons.inj (List.cons.inj hsame).2).1
      | cons f a =>
        obtain ⟨rfl, hf⟩ := List.cons.inj hsame
        obtain ⟨rfl, -⟩ := List.cons.inj hf
        exact h ⟨[], a, rfl⟩
    rw [List.cons_append, cut?, hnone, ih htail]
    rfl

theorem parts_of_notMem {sep : Char} {cs : List Char} (h : sep ∉ cs) : parts sep cs = [cs] := by
  induction cs with
  | nil => rfl
  | cons c cs ih =>
    obtain ⟨hc, hcs⟩ := not_or.mp fun hm => h (List.mem_cons.mpr hm)
    rw [parts, if_neg (Ne.symm hc), ih hcs]

theorem parts_ne_nil (sep : Char) (cs : List Char) : parts sep cs ≠ [] := by
  cases cs with
  | nil => exact List.cons_ne_nil _ _
  | cons c cs =>
    rw [parts]
    split
    · exact List.cons_ne_nil _ _
    · split <;> exact List.cons_ne_nil _ _

/-- A separator cuts a text into the parts before it and the parts after it. -/
theorem parts_append_parts (sep : Char) (a b : List Char) :
    parts sep (a ++ sep :: b) = parts sep a ++ parts sep b := by
  induction a with
  | nil =>
    have hcut : parts sep (sep :: b) = [] :: parts sep b := by rw [parts, if_pos rfl]
    exact hcut
  | cons c a ih =>
    rw [List.cons_append, parts, parts, ih]
    by_cases hc : c = sep
    · rw [if_pos hc, if_pos hc, List.cons_append]
    · rw [if_neg hc, if_neg hc]
      cases ha : parts sep a with
      | nil => exact absurd ha (parts_ne_nil sep a)
      | cons part more => rfl

theorem parts_append {sep : Char} {part : List Char} (h : sep ∉ part) (rest : List Char) :
    parts sep (part ++ sep :: rest) = part :: parts sep rest := by
  rw [parts_append_parts, parts_of_notMem h, List.singleton_append]

theorem notMem_of_mem_parts {sep : Char} {cs part : List Char} (h : part ∈ parts sep cs) : sep ∉ part := by
  induction cs generalizing part with
  | nil => simp_all [parts]
  | cons c cs ih =>
    rw [parts] at h
    split at h
    · rcases List.mem_cons.mp h with rfl | h
      · exact List.not_mem_nil
      · exact ih h
    · rename_i hc
      cases hp : parts sep cs with
      | nil =>
        rw [hp] at h
        rw [List.mem_singleton.mp h]
        simpa using Ne.symm hc
      | cons first more =>
        rw [hp] at h ih
        rcases List.mem_cons.mp h with rfl | h
        · exact fun hm => (List.mem_cons.mp hm).elim (Ne.symm hc) (ih List.mem_cons_self)
        · exact ih (List.mem_cons_of_mem first h)

end HubDevice.Text
