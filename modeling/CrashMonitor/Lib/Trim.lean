import Mathlib.Data.List.Basic

/-!
# Trimming a list from its front

`trim` takes elements off the front of a list until what is left fits, or the
next element is stuck. Trimming first for one condition and then for another
is trimming once for both, as long as a list that fits the first one keeps
fitting it when it gets shorter (`trim_trim`).
-/

namespace CrashMonitor.Trim

open List

variable {α : Type} (fits : List α → Bool) (stuck : α → Bool)

/-- What is taken off, and what is left. -/
def trim : List α → List α × List α
  | [] => ([], [])
  | a :: rest =>
    if fits (a :: rest) || stuck a then ([], a :: rest)
    else (a :: (trim rest).1, (trim rest).2)

variable {fits stuck}

section

variable {fits' : List α → Bool} {l : List α}

theorem trim_append (fits : List α → Bool) (stuck : α → Bool) (l : List α) :
    (trim fits stuck l).1 ++ (trim fits stuck l).2 = l := by
  induction l with
  | nil => rfl
  | cons a rest ih =>
    rw [trim]
    by_cases h : (fits (a :: rest) || stuck a) = true
    · rw [if_pos h]
      rfl
    · rw [if_neg h]
      simp [ih]

theorem not_stuck_of_mem_trim {a} (h : a ∈ (trim fits stuck l).1) :
    stuck a = false := by
  induction l with
  | nil => cases h
  | cons b rest ih =>
    rw [trim] at h
    by_cases hstop : (fits (b :: rest) || stuck b) = true
    · rw [if_pos hstop] at h
      cases h
    rw [if_neg hstop] at h
    rcases mem_cons.mp h with rfl | h
    · simp only [Bool.or_eq_true, not_or, Bool.not_eq_true] at hstop
      exact hstop.2
    · exact ih h

/-- Nothing shorter than what is taken off would have been enough. -/
theorem not_fits_of_lt_trim {k} (h : k < (trim fits stuck l).1.length) :
    fits (l.drop k) = false := by
  induction l generalizing k with
  | nil => simp [trim] at h
  | cons a rest ih =>
    rw [trim] at h
    by_cases hstop : (fits (a :: rest) || stuck a) = true
    · rw [if_pos hstop] at h
      simp at h
    rw [if_neg hstop] at h
    simp only [Bool.or_eq_true, not_or, Bool.not_eq_true] at hstop
    cases k with
    | zero => exact hstop.1
    | succ k =>
      simp only [length_cons, Nat.add_lt_add_iff_right] at h
      exact ih h

/-- What is left fits, or begins with a stuck element. -/
theorem fits_or_stuck_trim (stuck : α → Bool) (hnil : fits [] = true) (l : List α) :
    fits (trim fits stuck l).2 = true ∨
      ∃ a rest, (trim fits stuck l).2 = a :: rest ∧ stuck a = true := by
  induction l with
  | nil => exact .inl hnil
  | cons a rest ih =>
    rw [trim]
    by_cases hstop : (fits (a :: rest) || stuck a) = true
    · rw [if_pos hstop]
      rcases Bool.or_eq_true _ _ ▸ hstop with hfits | hstuck
      · exact .inl hfits
      · exact .inr ⟨a, rest, rfl, hstuck⟩
    · rw [if_neg hstop]
      exact ih

theorem trim_congr (h : ∀ suffix, suffix <:+ l → fits suffix = fits' suffix) :
    trim fits stuck l = trim fits' stuck l := by
  induction l with
  | nil => rfl
  | cons a rest ih =>
    have hrest := ih fun suffix hsuffix => h suffix (hsuffix.trans (suffix_cons a rest))
    rw [trim, trim, h _ suffix_rfl, hrest]

/-- A list whose ends fit as soon as a longer one does. -/
def FitsOnward (fits : List α → Bool) (l : List α) : Prop :=
  ∀ a rest, a :: rest <:+ l → fits (a :: rest) = true → fits rest = true

theorem FitsOnward.of_suffix {suffix} (h : FitsOnward fits l)
    (hfits : fits l = true) (hsuffix : suffix <:+ l) : fits suffix = true := by
  induction l with
  | nil =>
    rw [suffix_nil.mp hsuffix]
    exact hfits
  | cons a rest ih =>
    rcases suffix_cons_iff.mp hsuffix with rfl | hsuffix
    · exact hfits
    · exact ih (fun b tail htail => h b tail (htail.trans (suffix_cons a rest)))
        (h a rest suffix_rfl hfits) hsuffix

theorem FitsOnward.and (h : FitsOnward fits l)
    (h' : FitsOnward fits' l) : FitsOnward (fun l => fits l && fits' l) l := by
  intro a rest hsuffix hfits
  rw [Bool.and_eq_true] at hfits ⊢
  exact ⟨h a rest hsuffix hfits.1, h' a rest hsuffix hfits.2⟩

end

/-- Two passes are one. -/
theorem trim_trim (fits' : List α → Bool) (stuck : α → Bool) {l} (h : FitsOnward fits l) :
    trim (fun l => fits l && fits' l) stuck l
      = ((trim fits stuck l).1 ++ (trim fits' stuck (trim fits stuck l).2).1,
        (trim fits' stuck (trim fits stuck l).2).2) := by
  induction l with
  | nil => rfl
  | cons a rest ih =>
    have hrest : FitsOnward fits rest :=
      fun b tail htail => h b tail (htail.trans (suffix_cons a rest))
    by_cases hfits : fits (a :: rest) = true
    · -- the first pass takes nothing off, and what the second sees fits throughout
      have hfirst : trim fits stuck (a :: rest) = ([], a :: rest) := by
        rw [trim, if_pos (by simp [hfits])]
      have hboth : trim (fun l => fits l && fits' l) stuck (a :: rest)
          = trim fits' stuck (a :: rest) := by
        refine trim_congr fun suffix hsuffix => ?_
        rw [h.of_suffix hfits hsuffix, Bool.true_and]
      rw [hfirst, hboth]
      rfl
    · rw [Bool.not_eq_true] at hfits
      by_cases hstuck : stuck a = true
      · simp [trim, hstuck]
      simp only [trim, hfits, hstuck, Bool.false_and, Bool.or_self, Bool.false_eq_true,
        if_false, ih hrest, cons_append]

end CrashMonitor.Trim
