import Mathlib.Data.List.DropRight

/-!
# Trimmed texts

`str.strip` on lists of characters: what it removes at the ends, and when there is nothing to
remove.
-/

namespace TimelapseManager.PyText

/-- The characters of `str.isspace`. -/
def spaces : List ℕ :=
  [0x09, 0x0a, 0x0b, 0x0c, 0x0d, 0x1c, 0x1d, 0x1e, 0x1f, 0x20, 0x85, 0xa0, 0x1680, 0x2000, 0x2001,
    0x2002, 0x2003, 0x2004, 0x2005, 0x2006, 0x2007, 0x2008, 0x2009, 0x200a, 0x2028, 0x2029, 0x202f,
    0x205f, 0x3000]

def isSpace (char : Char) : Bool :=
  spaces.contains char.toNat

def stripBy (drop : Char → Bool) (text : List Char) : List Char :=
  (text.dropWhile drop).rdropWhile drop

def strip (text : List Char) : List Char :=
  stripBy isSpace text

variable {drop : Char → Bool} {text : List Char}

theorem stripBy_last {char : Char} (hLast : (stripBy drop text).getLast? = some char) :
    drop char = false := by
  unfold stripBy at hLast
  have hSome := List.getLast?_eq_some_iff.mp hLast
  obtain ⟨before, hText⟩ := hSome
  have hNe : (text.dropWhile drop).rdropWhile drop ≠ [] := by
    rw [hText]
    simp
  have hKept := List.rdropWhile_last_not drop _ hNe
  rw [List.getLast?_eq_getLast_of_ne_nil hNe] at hLast
  rw [Option.some.inj hLast] at hKept
  simpa using hKept

theorem stripBy_eq_self (hFirst : ∀ char, text.head? = some char → drop char = false)
    (hLast : ∀ char, text.getLast? = some char → drop char = false) : stripBy drop text = text := by
  have hFront : text.dropWhile drop = text := by
    cases text with
    | nil => rfl
    | cons char text => rw [List.dropWhile_cons_of_neg (by rw [hFirst char rfl]; decide)]
  unfold stripBy
  rw [hFront, List.rdropWhile_eq_self_iff]
  intro hNe hDrop
  have hStays := hLast _ (List.getLast?_eq_getLast_of_ne_nil hNe)
  rw [hStays] at hDrop
  cases hDrop

end TimelapseManager.PyText
