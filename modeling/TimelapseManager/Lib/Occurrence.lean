import Mathlib.Data.List.Infix

/-!
# The first occurrence of a needle

Searching a list for the first occurrence of a shorter one, in the form an incremental reader
needs: what the search says about a part of the input that has arrived, and what it leaves open
about the part that has not.  `FirstAt needle pre` says that in `pre ++ needle` the needle is not
met before its place at the end.
-/

namespace TimelapseManager.Occurrence

variable {α : Type*}

/-- In `pre ++ needle` the needle starts nowhere within `pre`. -/
def FirstAt (needle : List α) : List α → Prop
  | [] => True
  | entry :: pre => ¬needle <+: entry :: (pre ++ needle) ∧ FirstAt needle pre

variable {hay needle pre tail text : List α} {head : α}

theorem FirstAt.of_append : ∀ {front : List α}, FirstAt needle (front ++ pre) → FirstAt needle pre
  | [], hFirst => hFirst
  | _ :: _, hFirst => FirstAt.of_append hFirst.2

section Search

variable [DecidableEq α]

def find (needle : List α) : List α → Option ℕ
  | [] => if needle = [] then some 0 else none
  | entry :: rest =>
    if needle <+: entry :: rest then some 0 else (find needle rest).map (· + 1)

theorem find_of_firstAt (pre post : List α) (hFirst : FirstAt needle pre) :
    find needle (pre ++ (needle ++ post)) = some pre.length := by
  induction pre with
  | nil =>
    cases hHay : needle ++ post with
    | nil =>
      rw [(List.append_eq_nil_iff.mp hHay).1]
      rfl
    | cons entry rest =>
      have hPrefix : needle <+: entry :: rest := hHay ▸ List.prefix_append needle post
      exact if_pos hPrefix
  | cons entry pre ih =>
    have hLength : needle.length ≤ (entry :: (pre ++ needle)).length := by
      simp only [List.length_cons, List.length_append]
      omega
    have hNot : ¬needle <+: entry :: (pre ++ (needle ++ post)) := by
      intro hPrefix
      apply hFirst.1
      apply (List.isPrefix_append_of_length hLength).mp
      rw [List.cons_append, List.append_assoc]
      exact hPrefix
    rw [List.cons_append, find, if_neg hNot, ih hFirst.2]
    rfl

variable {index : ℕ} {arrived future post rest : List α}

theorem exists_of_find (hFind : find needle hay = some index) :
    ∃ pre post, hay = pre ++ (needle ++ post) ∧ pre.length = index ∧ FirstAt needle pre := by
  induction hay generalizing index with rw [find] at hFind
  | nil =>
    split at hFind
    next hEmpty =>
      cases hFind
      exact ⟨[], [], by rw [hEmpty]; rfl, rfl, trivial⟩
    next => cases hFind
  | cons entry rest ih =>
    split at hFind
    next hPrefix =>
      cases hFind
      obtain ⟨post, hPost⟩ := hPrefix
      exact ⟨[], post, hPost.symm, rfl, trivial⟩
    next hNot =>
      obtain ⟨later, hLater, rfl⟩ := Option.map_eq_some_iff.mp hFind
      obtain ⟨pre, post, rfl, rfl, hFirst⟩ := ih hLater
      refine ⟨entry :: pre, post, rfl, rfl, ?_, hFirst⟩
      intro hPrefix
      apply hNot
      rw [← List.append_assoc]
      exact hPrefix.trans (List.prefix_append (entry :: (pre ++ needle)) post)

theorem length_of_find (hFind : find needle hay = some index) :
    index + needle.length ≤ hay.length := by
  obtain ⟨pre, post, rfl, rfl, -⟩ := exists_of_find hFind
  simp only [List.length_append]
  omega

theorem not_infix_of_find (hFind : find needle hay = none) (pre post : List α) :
    hay ≠ pre ++ (needle ++ post) := by
  induction pre generalizing hay with
  | nil =>
    rintro rfl
    rw [find_of_firstAt [] post trivial] at hFind
    cases hFind
  | cons entry pre ih =>
    rintro rfl
    rw [List.cons_append, find] at hFind
    split at hFind
    next => cases hFind
    next => exact ih (Option.map_eq_none_iff.mp hFind) rfl

theorem lt_of_find_eq_none (hFind : find needle arrived = none)
    (hStream : arrived ++ future = pre ++ (needle ++ post)) :
    arrived.length < pre.length + needle.length := by
  by_contra hLong
  have hWhole : pre ++ needle <+: arrived ++ future := by
    rw [hStream, ← List.append_assoc]
    exact List.prefix_append _ _
  have hLength : (pre ++ needle).length ≤ arrived.length := by
    rw [List.length_append]
    omega
  obtain ⟨rest, hRest⟩ :=
    List.prefix_of_prefix_length_le hWhole (List.prefix_append arrived future) hLength
  apply not_infix_of_find hFind pre rest
  rw [← hRest, List.append_assoc]

/-- How much of what has arrived can be given away while the needle is not found. -/
def spare (needle arrived : List α) : ℕ :=
  arrived.length - (needle.length - 1)

theorem FirstAt.held_back (hFirst : FirstAt needle pre) (hNeedle : 0 < needle.length)
    (hFind : find needle arrived = none) (hStream : arrived ++ future = pre ++ (needle ++ post)) :
    ∃ late, pre = arrived.take (spare needle arrived) ++ late ∧
      arrived.drop (spare needle arrived) ++ future = late ++ (needle ++ post) ∧
      FirstAt needle late := by
  have hLt := lt_of_find_eq_none hFind hStream
  have hLength : (arrived.take (spare needle arrived)).length ≤ pre.length := by
    rw [List.length_take, spare]
    omega
  rw [← List.take_append_drop (spare needle arrived) arrived, List.append_assoc] at hStream
  have hWhole : arrived.take (spare needle arrived) <+: pre ++ (needle ++ post) := by
    rw [← hStream]
    exact List.prefix_append _ _
  obtain ⟨late, hLate⟩ :=
    List.prefix_of_prefix_length_le hWhole (List.prefix_append pre _) hLength
  rw [← hLate, List.append_assoc] at hStream
  rw [← hLate] at hFirst
  exact ⟨late, hLate.symm, List.append_cancel_left hStream, FirstAt.of_append hFirst⟩

theorem firstAt_of_held_back {front held late : List α} (hFind : find needle (front ++ held) = none)
    (hHeld : needle.length ≤ held.length + 1) (hStream : held ++ future = late ++ (needle ++ post))
    (hFirst : FirstAt needle late) : FirstAt needle (front ++ late) := by
  induction front with
  | nil => exact hFirst
  | cons entry front ih =>
    rw [List.cons_append, find] at hFind
    split at hFind
    next => cases hFind
    next hNot =>
      refine ⟨?_, ih (Option.map_eq_none_iff.mp hFind)⟩
      intro hPrefix
      apply hNot
      -- The needle is no longer than what has arrived.
      have hLength : needle.length ≤ (entry :: (front ++ held)).length := by
        simp only [List.length_cons, List.length_append]
        omega
      apply (List.isPrefix_append_of_length hLength).mp
      have hSame : entry :: (front ++ held) ++ future =
          entry :: (front ++ late ++ needle) ++ post := by
        simp only [List.cons_append, List.append_assoc, hStream]
      rw [hSame]
      exact hPrefix.trans (List.prefix_append _ _)

theorem firstAt_of_spare {late : List α} (hFind : find needle arrived = none)
    (hLong : 0 < spare needle arrived)
    (hStream : arrived.drop (spare needle arrived) ++ future = late ++ (needle ++ post))
    (hFirst : FirstAt needle late) :
    FirstAt needle (arrived.take (spare needle arrived) ++ late) := by
  apply firstAt_of_held_back _ _ hStream hFirst
  · rw [List.take_append_drop]
    exact hFind
  · rw [List.length_drop]
    unfold spare at hLong ⊢
    omega

theorem FirstAt.unique {other : List α} (hFirst : FirstAt needle pre)
    (hOther : FirstAt needle other) (hSame : pre ++ (needle ++ post) = other ++ (needle ++ rest)) :
    pre = other ∧ post = rest := by
  have hFound := find_of_firstAt pre post hFirst
  rw [hSame, find_of_firstAt other rest hOther] at hFound
  obtain ⟨hPre, hTail⟩ := List.append_inj hSame (Option.some.inj hFound).symm
  exact ⟨hPre, List.append_cancel_left hTail⟩

theorem find_eq_none_of_not_mem (hText : head ∉ text) : find (head :: tail) text = none := by
  cases hFind : find (head :: tail) text with
  | none => rfl
  | some index =>
    obtain ⟨pre, post, rfl, -, -⟩ := exists_of_find hFind
    exact absurd (List.mem_append_right pre List.mem_cons_self) hText

theorem find_eq_none_of_incomplete {part : List α} (hFirst : FirstAt needle pre)
    (hNeedle : part ++ rest = needle) (hRest : rest ≠ []) : find needle (pre ++ part) = none := by
  cases hFind : find needle (pre ++ part) with
  | none => rfl
  | some index =>
    obtain ⟨found, post, hHay, -, hFound⟩ := exists_of_find hFind
    have hWhole : found ++ (needle ++ (post ++ rest)) = pre ++ (needle ++ []) := by
      have hAppended := congrArg (· ++ rest) hHay.symm
      simpa only [List.append_assoc, List.append_nil, hNeedle] using hAppended
    obtain ⟨-, hNil⟩ := hFound.unique hFirst hWhole
    exact absurd (List.append_eq_nil_iff.mp hNil).2 hRest

end Search

theorem FirstAt.append_of_not_mem (hFirst : FirstAt (head :: tail) pre) (hText : head ∉ text) :
    FirstAt (head :: tail) (text ++ pre) := by
  induction text with
  | nil => exact hFirst
  | cons entry text ih =>
    rw [List.mem_cons, not_or] at hText
    refine ⟨?_, ih hText.2⟩
    intro hPrefix
    exact hText.1 (List.cons_prefix_cons.mp hPrefix).1

theorem firstAt_of_not_mem (hText : head ∉ text) : FirstAt (head :: tail) text := by
  have hNil : FirstAt (head :: tail) [] := trivial
  rw [← List.append_nil text]
  exact hNil.append_of_not_mem hText

theorem firstAt_of_head (hHead : head ∉ tail)
    (hText : ∀ pre post, text ≠ pre ++ (head :: tail ++ post)) : FirstAt (head :: tail) text := by
  induction text with
  | nil => exact trivial
  | cons entry text ih =>
    constructor
    · intro hPrefix
      rw [← List.cons_append] at hPrefix
      by_cases hLength : (head :: tail).length ≤ (entry :: text).length
      · obtain ⟨post, hPost⟩ := (List.isPrefix_append_of_length hLength).mp hPrefix
        exact hText [] post hPost.symm
      · -- The needle would have to go on with its own head.
        have hShort : entry :: text <+: head :: tail :=
          List.prefix_of_prefix_length_le (List.prefix_append _ _) hPrefix (by omega)
        obtain ⟨rest, hRest⟩ := hShort
        rw [← hRest, List.prefix_append_right_inj] at hPrefix
        cases rest with
        | nil =>
          rw [List.append_nil] at hRest
          exact hLength (by rw [hRest])
        | cons next rest =>
          have hNext : next = head := by
            rw [hRest] at hPrefix
            exact (List.cons_prefix_cons.mp hPrefix).1
          apply hHead
          rw [← (List.cons.inj hRest).2, ← hNext]
          exact List.mem_append_right _ List.mem_cons_self
    · apply ih
      rintro pre post rfl
      exact hText (entry :: pre) post rfl

end TimelapseManager.Occurrence
