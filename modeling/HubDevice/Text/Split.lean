/-!
# Cutting texts

Texts are cut at separators: at every occurrence of a character, or at the first occurrence of a text. What
a text starts with can be taken off it.
-/

namespace HubDevice.Text

/-- The parts between the occurrences of a character; there is always one. -/
def parts (sep : Char) : List Char → List (List Char)
  | [] => [[]]
  | c :: rest =>
    if c = sep then [] :: parts sep rest
    else match parts sep rest with
      | part :: more => (c :: part) :: more
      | [] => [[c]]

/-- The rest of a text that starts with another one. -/
def after? : List Char → List Char → Option (List Char)
  | [], cs => some cs
  | _ :: _, [] => none
  | p :: ps, c :: cs => if p = c then after? ps cs else none

/-- What stands before and after the first occurrence of a text. -/
def cut? (sep : List Char) : List Char → Option (List Char × List Char)
  | [] => (after? sep []).map fun rest => ([], rest)
  | c :: cs =>
    match after? sep (c :: cs) with
    | some rest => some ([], rest)
    | none => (cut? sep cs).map fun p => (c :: p.1, p.2)

theorem after?_eq_some {p cs rest : List Char} : after? p cs = some rest ↔ cs = p ++ rest := by
  induction p generalizing cs with
  | nil => simp [after?, eq_comm]
  | cons c p ih =>
    cases cs with
    | nil => simp [after?]
    | cons d cs =>
      by_cases h : c = d
      · simp [after?, h, ih]
      · simp [after?, h, Ne.symm h]

theorem cut?_eq_some {sep cs a b : List Char} (h : cut? sep cs = some (a, b)) : cs = a ++ sep ++ b := by
  induction cs generalizing a b with
  | nil =>
    simp only [cut?, Option.map_eq_some_iff] at h
    obtain ⟨r, hr, he⟩ := h
    rw [after?_eq_some] at hr
    simp only [Prod.mk.injEq] at he
    simp [← he.1, ← he.2, ← hr]
  | cons c cs ih =>
    simp only [cut?] at h
    split at h
    · rename_i r hr
      rw [after?_eq_some] at hr
      simp only [Option.some.injEq, Prod.mk.injEq] at h
      simp [← h.1, ← h.2, hr]
    · simp only [Option.map_eq_some_iff] at h
      obtain ⟨p, hp, he⟩ := h
      simp only [Prod.mk.injEq] at he
      simp [← he.1, ← he.2, ih hp]

end HubDevice.Text
