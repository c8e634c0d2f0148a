import CrashMonitor.Privacy.Sanitizer
import Mathlib.Data.List.MinMax

/-!
# What the sanitizer leaves behind

A path of the user is exposed where it is followed by the end of the text, a
slash or white space. `replace_path_prefix` only takes the end and a slash for
a boundary, and goes on behind a match it did not replace. So white space
behind a path always exposes it, and a path that overlaps itself can hide one
match behind another.

The occurrences of a path in a masked text are computed from those of the
text (`occurs_replaceLoop`) where the path is `Solid`: it cannot overlap itself
or a mask.
-/

namespace CrashMonitor.Privacy

open Option Sanitizer List

variable {pattern value replacement : List Char} {X : Option Char → Prop} {user : String}

/-! ## Occurrences -/

/-- The text starts with the path, up to ASCII case. -/
def Starts (pattern text : List Char) : Prop := foldCase pattern <+: foldCase text

/-- The path occurs, with a next character (none at the end) in `X`. -/
def Occurs (pattern : List Char) (X : Option Char → Prop) (text : List Char) : Prop :=
  ∃ front back, text = front ++ back ∧ Starts pattern back ∧ X (back.drop pattern.length).head?

/-- The end of the text or a slash. -/
def boundaryNext (next : Option Char) : Prop := next = none ∨ next = some '/'

/-- `char::is_whitespace`. -/
def isWhiteSpace (c : Char) : Bool :=
  let n := c.toNat
  (0x9 ≤ n && n ≤ 0xD) || n = 0x20 || n = 0x85 || n = 0xA0 || n = 0x1680 ||
    (0x2000 ≤ n && n ≤ 0x200A) || n = 0x2028 || n = 0x2029 || n = 0x202F || n = 0x205F || n = 0x3000

def whiteNext (next : Option Char) : Prop := ∃ c, next = some c ∧ isWhiteSpace c = true

/-- What exposes a path in front of it. -/
def exposedNext (next : Option Char) : Prop := boundaryNext next ∨ whiteNext next

theorem componentBoundary_iff {after} :
    componentBoundary after = true ↔ boundaryNext after.head? := by
  unfold componentBoundary boundaryNext
  cases after with
  | nil => simp
  | cons c rest => simp

section

variable {pattern text front back : List Char} {X : Option Char → Prop}

theorem Occurs.of_suffix (h : Occurs pattern X back) : Occurs pattern X (front ++ back) := by
  obtain ⟨a, b, rfl, hstarts, hnext⟩ := h
  exact ⟨front ++ a, b, (append_assoc ..).symm, hstarts, hnext⟩

/-- The path starts nowhere in the front. -/
def Clear (pattern front back : List Char) : Prop :=
  ∀ a b, front = a ++ b → b ≠ [] → ¬ Starts pattern (b ++ back)

theorem occurs_append_of_clear (h : Clear pattern front back) :
    Occurs pattern X (front ++ back) ↔ Occurs pattern X back := by
  constructor
  · rintro ⟨a, b, heq, hstarts, hnext⟩
    rcases append_eq_append_iff.mp heq with ⟨c, rfl, hback⟩ | ⟨c, hfront, rfl⟩
    · exact ⟨c, b, hback, hstarts, hnext⟩
    by_cases hc : c = []
    · subst hc
      exact ⟨[], back, rfl, hstarts, hnext⟩
    · exact absurd hstarts (h a c hfront hc)
  · exact .of_suffix

theorem starts_of_length_le (h : Starts pattern (front ++ back))
    (hle : pattern.length ≤ front.length) : Starts pattern front := by
  unfold Starts at h
  rw [foldCase_append] at h
  apply prefix_of_prefix_length_le h (prefix_append _ _)
  rw [foldCase_length, foldCase_length]
  exact hle

theorem Starts.append (h : Starts pattern front) (back : List Char) :
    Starts pattern (front ++ back) := by
  unfold Starts
  rw [foldCase_append]
  exact h.trans (prefix_append _ _)

/-- The rest of a path that began before. -/
theorem drop_of_starts (h : Starts pattern (front ++ back)) (hle : front.length ≤ pattern.length) :
    (foldCase pattern).drop front.length <+: foldCase back := by
  obtain ⟨rest, hrest⟩ := h
  refine ⟨rest, ?_⟩
  have hdrop := congrArg (drop front.length) hrest
  rw [foldCase_append, drop_append_of_le_length (by rw [foldCase_length]; exact hle)]
    at hdrop
  rw [hdrop, ← foldCase_length front, drop_left]

theorem not_starts_of_head {c} (hhead : (foldCase pattern).head? = some c)
    (h : (foldCase text).head? ≠ some c) : ¬ Starts pattern text := by
  rintro ⟨rest, hrest⟩
  apply h
  rw [← hrest, head?_append, hhead]
  rfl

end

/-! ## The search -/

theorem findFolded_eq_some :
    ∀ {value front back : List Char}, findFolded pattern value = some (front, back) →
      value = front ++ back ∧ Starts pattern back ∧ Clear pattern front back := by
  intro value
  induction value with
  | nil =>
    intro front back h
    unfold findFolded at h
    split at h
    next hempty =>
      cases h
      refine ⟨rfl, ?_, ?_⟩
      · unfold Starts
        rw [isEmpty_iff.mp hempty]
        exact nil_prefix
      · intro a b hab hb
        exact absurd (append_eq_nil_iff.mp hab.symm).2 hb
    · cases h
  | cons c rest ih =>
    intro front back h
    unfold findFolded at h
    split at h
    next hhere =>
      cases h
      refine ⟨rfl, isPrefixOf_iff_prefix.mp hhere, ?_⟩
      intro a b hab hb
      exact absurd (append_eq_nil_iff.mp hab.symm).2 hb
    next hhere =>
      obtain ⟨⟨front', back'⟩, hfound, heq⟩ := map_eq_some_iff.mp h
      cases heq
      obtain ⟨hvalue, hstarts, hnone⟩ := ih hfound
      refine ⟨by rw [hvalue, cons_append], hstarts, ?_⟩
      intro a b hab hb
      cases a with
      | nil =>
        rw [nil_append] at hab
        intro hb'
        apply hhere
        rw [← hab, cons_append, ← hvalue] at hb'
        exact isPrefixOf_iff_prefix.mpr hb'
      | cons d a =>
        rw [cons_append, cons.injEq] at hab
        exact hnone a b hab.2 hb

theorem not_occurs_of_findFolded_none (h : findFolded pattern value = none) :
    ¬ Occurs pattern X value := by
  rintro ⟨front, back, rfl, hstarts, -⟩
  induction front with
  | nil =>
    cases back with
    | nil =>
      have hnil : foldCase pattern = [] := prefix_nil.mp hstarts
      simp [findFolded, hnil] at h
    | cons c back =>
      have hhere := isPrefixOf_iff_prefix.mpr hstarts
      rw [nil_append, findFolded, if_pos hhere] at h
      cases h
  | cons c front ih =>
    rw [cons_append, findFolded] at h
    split at h
    · cases h
    · exact ih (map_eq_none_iff.mp h)

/-! ## A text without a boundary behind the path is left alone -/

theorem replaceLoop_of_no_boundary {turns rest} (h : ¬ Occurs pattern boundaryNext rest) :
    replaceLoop pattern replacement turns rest = rest := by
  induction turns generalizing rest with
  | zero => rfl
  | succ turns ih =>
    rw [replaceLoop]
    cases hfound : findFolded pattern rest with
    | none => rfl
    | some found =>
      obtain ⟨front, here⟩ := found
      obtain ⟨hrest, hstarts, -⟩ := findFolded_eq_some hfound
      have hcut : here = here.take pattern.length ++ here.drop pattern.length :=
        (take_append_drop _ _).symm
      have hgoes : ¬ componentBoundary (here.drop pattern.length) = true := by
        rw [componentBoundary_iff]
        intro hnext
        exact h ⟨front, here, hrest, hstarts, hnext⟩
      have hafter : ¬ Occurs pattern boundaryNext (here.drop pattern.length) := by
        intro hafter
        apply h
        rw [hrest, hcut, ← append_assoc]
        exact hafter.of_suffix
      simp only [hgoes, Bool.false_eq_true, if_false]
      rw [ih hafter, hrest, append_assoc, ← hcut]

theorem replacePathPrefix_of_no_boundary (h : ¬ Occurs pattern boundaryNext value) :
    replacePathPrefix value pattern replacement = value := by
  unfold replacePathPrefix
  split
  · rfl
  · exact replaceLoop_of_no_boundary h

/-! ## Folding makes letters only -/

theorem eq_of_toLower {c d : Char} (hd : d.isLower = false) (h : c.toLower = d) : c = d := by
  unfold Char.toLower at h
  split at h
  next hupper =>
    exfalso
    subst h
    have hlo : 65 ≤ c.val.toNat := hupper.1
    have hhi : c.val.toNat ≤ 90 := hupper.2
    have hval : (c.val + ('a'.val - 'A'.val)).toNat = c.val.toNat + 32 := by
      rw [UInt32.toNat_add, show ('a'.val - 'A'.val).toNat = 32 from rfl]
      omega
    replace hd : (decide ((c.val + ('a'.val - 'A'.val)) ≥ 'a'.val) &&
        decide ((c.val + ('a'.val - 'A'.val)) ≤ 'z'.val)) = false := hd
    simp only [Bool.and_eq_false_iff, decide_eq_false_iff_not, UInt32.le_iff_toNat_le,
      ge_iff_le, hval] at hd
    rcases hd with hd | hd
    · exact hd (show 97 ≤ c.val.toNat + 32 by omega)
    · exact hd (show c.val.toNat + 32 ≤ 122 by omega)
  · exact h

theorem mem_of_mem_foldCase {d : Char} {text} (hd : d.isLower = false)
    (h : d ∈ foldCase text) : d ∈ text := by
  obtain ⟨c, hc, heq⟩ := mem_map.mp h
  exact eq_of_toLower hd heq ▸ hc

/-! ## Solid paths -/

/-- An absolute path that overlaps neither itself nor a mask. -/
structure Solid (pattern : List Char) : Prop where
  absolute : (foldCase pattern).head? = some '/'
  unmasked : '[' ∉ foldCase pattern
  unbordered : ∀ k, 0 < k → k < pattern.length → ¬ (foldCase pattern).drop k <+: foldCase pattern

/-- What is put in the place of a path: it starts with a bracket and has no
slash. -/
structure Mask (replacement : List Char) : Prop where
  bracket : (foldCase replacement).head? = some '['
  flat : '/' ∉ foldCase replacement

namespace Solid

variable {pattern : List Char} {X : Option Char → Prop}

theorem ne_nil (h : Solid pattern) : pattern ≠ [] := by
  rintro rfl
  cases h.absolute

/-- In front of any text, the path occurs there and nowhere inside. -/
theorem occurs_here (h : Solid pattern) {here after} (hhere : foldCase here = foldCase pattern) :
    Occurs pattern X (here ++ after) ↔ X after.head? ∨ Occurs pattern X after := by
  have hlength : here.length = pattern.length := by
    rw [← foldCase_length here, hhere, foldCase_length]
  have hpos : 0 < here.length := hlength ▸ length_pos_iff.mpr h.ne_nil
  obtain ⟨c, rest, rfl⟩ := exists_cons_of_ne_nil (length_pos_iff.mp hpos)
  have hinside : Clear pattern rest after := by
    intro a b hab hb hstarts
    -- the part of the path behind the start would be an initial part of it
    have hpart : foldCase b = (foldCase pattern).drop (a.length + 1) := by
      rw [← hhere, hab, ← cons_append, foldCase_append,
        show a.length + 1 = (foldCase (c :: a)).length by rw [foldCase_length]; rfl,
        drop_left]
    have hlt : a.length + 1 < pattern.length := by
      have hpos := length_pos_iff.mpr hb
      rw [← hlength, hab, length_cons, length_append]
      omega
    apply h.unbordered (a.length + 1) (Nat.succ_pos _) hlt
    rw [← hpart]
    unfold Starts at hstarts
    rw [foldCase_append] at hstarts
    apply prefix_of_prefix_length_le (prefix_append _ _) hstarts
    rw [hpart, length_drop]
    exact Nat.sub_le _ _
  have hrest : Occurs pattern X (rest ++ after) ↔ Occurs pattern X after :=
    occurs_append_of_clear hinside
  constructor
  · rintro ⟨a, b, heq, hstarts, hnext⟩
    cases a with
    | nil =>
      left
      rw [nil_append] at heq
      rw [← heq, ← hlength, drop_left] at hnext
      exact hnext
    | cons d a =>
      right
      rw [cons_append, cons_append, cons.injEq] at heq
      exact hrest.mp ⟨a, b, heq.2, hstarts, hnext⟩
  · rintro (hnext | hoccurs)
    · refine ⟨[], c :: rest ++ after, rfl, ?_, ?_⟩
      · unfold Starts
        rw [foldCase_append, hhere]
        exact prefix_append _ _
      · rw [← hlength, drop_left]
        exact hnext
    · exact hoccurs.of_suffix

/-- A mask in front of a text adds no occurrence, also none that begins in
front of the mask. -/
theorem not_starts_across_mask (h : Solid pattern) {front replacement after}
    (hmask : Mask replacement) (hfront : ¬ Starts pattern front) :
    ¬ Starts pattern (front ++ (replacement ++ after)) := by
  intro hstarts
  by_cases hle : pattern.length ≤ front.length
  · exact hfront (starts_of_length_le hstarts hle)
  have hdrop := drop_of_starts hstarts (by omega)
  have hne : (foldCase pattern).drop front.length ≠ [] := by
    rw [Ne, drop_eq_nil_iff, foldCase_length]
    exact hle
  obtain ⟨c, tail, hcons⟩ := exists_cons_of_ne_nil hne
  rw [hcons] at hdrop
  obtain ⟨rest, hrest⟩ := hdrop
  have hc : c = '[' := by
    have hhead := congrArg head? hrest
    rw [cons_append, foldCase_append, head?_append, hmask.bracket] at hhead
    exact some.inj hhead
  apply h.unmasked
  rw [← hc]
  apply mem_of_mem_drop (i := front.length)
  rw [hcons]
  exact mem_cons_self

theorem occurs_mask (h : Solid pattern) {replacement after} (hmask : Mask replacement) :
    Occurs pattern X (replacement ++ after) ↔ Occurs pattern X after := by
  apply occurs_append_of_clear
  intro a b hab hb
  cases b with
  | nil => exact absurd rfl hb
  | cons c b =>
    apply not_starts_of_head h.absolute
    intro hhead
    apply hmask.flat
    rw [hab, foldCase_append, mem_append]
    right
    exact some.inj hhead ▸ mem_cons_self

end Solid

/-! ## One pass over a text -/

theorem foldCase_take_of_starts {here} (h : Starts pattern here) :
    foldCase (here.take pattern.length) = foldCase pattern := by
  obtain ⟨rest, hrest⟩ := h
  unfold foldCase at hrest ⊢
  have hlength : pattern.length = (pattern.map Char.toLower).length := (length_map _).symm
  rw [map_take, ← hrest, hlength, take_left]

/-- The loop keeps a first character that is no slash. -/
theorem head?_replaceLoop (hsolid : Solid pattern) (turns : Nat) {rest : List Char}
    (h : ¬ boundaryNext rest.head?) :
    (replaceLoop pattern replacement turns rest).head? = rest.head? := by
  cases turns with
  | zero => rfl
  | succ turns =>
    rw [replaceLoop]
    cases hfound : findFolded pattern rest with
    | none => rfl
    | some found =>
      obtain ⟨front, here⟩ := found
      obtain ⟨hrest, hstarts, -⟩ := findFolded_eq_some hfound
      cases front with
      | nil =>
        -- the path would start here, with its slash
        exfalso
        subst hrest
        apply h
        obtain ⟨tail, htail⟩ := hstarts
        have hhead := congrArg head? htail
        rw [head?_append, hsolid.absolute] at hhead
        cases rest with
        | nil => exact .inl rfl
        | cons c rest =>
          right
          exact congrArg some (eq_of_toLower rfl (some.inj hhead).symm)
      | cons c front =>
        subst hrest
        simp only
        split <;> rfl

/-- After a pass, the occurrences left are those that were not followed by a
boundary, each with what followed it. -/
theorem occurs_replaceLoop (hsolid : Solid pattern) (hmask : Mask replacement) :
    ∀ (turns : Nat) (rest : List Char), rest.length ≤ turns →
      (Occurs pattern X (replaceLoop pattern replacement turns rest) ↔
        Occurs pattern (fun next => X next ∧ ¬ boundaryNext next) rest) := by
  intro turns
  induction turns with
  | zero =>
    intro rest hle
    have hnil : rest = [] := length_eq_zero_iff.mp (Nat.le_zero.mp hle)
    have hnone : findFolded pattern [] = none := by
      unfold findFolded
      rw [if_neg]
      rw [List.isEmpty_iff, ← List.length_eq_zero_iff, foldCase_length, List.length_eq_zero_iff]
      exact hsolid.ne_nil
    subst hnil
    exact iff_of_false (not_occurs_of_findFolded_none hnone) (not_occurs_of_findFolded_none hnone)
  | succ turns ih =>
    intro rest hle
    rw [replaceLoop]
    cases hfound : findFolded pattern rest with
    | none =>
      exact iff_of_false (not_occurs_of_findFolded_none hfound)
        (not_occurs_of_findFolded_none hfound)
    | some found =>
      obtain ⟨front, here⟩ := found
      obtain ⟨hrest, hstarts, hnone⟩ := findFolded_eq_some hfound
      have hpath := foldCase_take_of_starts hstarts
      have hcut : here.take pattern.length ++ here.drop pattern.length = here :=
        take_append_drop _ _
      have hpos := length_pos_iff.mpr hsolid.ne_nil
      have hle' : (here.drop pattern.length).length ≤ turns := by
        have hlength := congrArg length hrest
        rw [length_append] at hlength
        rw [length_drop]
        omega
      have hbefore : Occurs pattern (fun next => X next ∧ ¬ boundaryNext next) rest ↔
          (X (here.drop pattern.length).head? ∧
            ¬ boundaryNext (here.drop pattern.length).head?) ∨
          Occurs pattern (fun next => X next ∧ ¬ boundaryNext next) (here.drop pattern.length) := by
        rw [hrest, occurs_append_of_clear hnone]
        nth_rewrite 1 [← hcut]
        exact hsolid.occurs_here hpath
      rw [hbefore]
      simp only
      generalize hafter : here.drop pattern.length = after at hle' hcut ⊢
      generalize here.take pattern.length = path at hpath hcut
      by_cases hb : componentBoundary after = true
      · -- replaced: neither the mask nor what is before it starts one
        have hout : Clear pattern front
            (replacement ++ replaceLoop pattern replacement turns after) := by
          intro a b hab hne
          apply hsolid.not_starts_across_mask hmask
          intro hstart
          exact hnone a b hab hne (hstart.append here)
        rw [if_pos hb, append_assoc, occurs_append_of_clear hout,
          hsolid.occurs_mask hmask, ih after hle']
        have hnext := (componentBoundary_iff).mp hb
        simp only [hnext, not_true_eq_false, and_false, false_or]
      · -- kept: what follows it is kept as well
        have hnext : ¬ boundaryNext after.head? := by
          rw [← componentBoundary_iff]
          exact hb
        have hlength : path.length = pattern.length := by
          rw [← foldCase_length path, hpath, foldCase_length]
        have hout : Clear pattern front (path ++ replaceLoop pattern replacement turns after) := by
          intro a b hab hne hstart
          rw [← append_assoc] at hstart
          have hshort : Starts pattern (b ++ path) := by
            apply starts_of_length_le hstart
            rw [length_append, hlength]
            exact Nat.le_add_left _ _
          apply hnone a b hab hne
          rw [← hcut, ← append_assoc]
          exact hshort.append after
        rw [if_neg hb, append_assoc, occurs_append_of_clear hout,
          hsolid.occurs_here hpath, head?_replaceLoop hsolid turns hnext, ih after hle']
        simp only [hnext, not_false_eq_true, and_true]

theorem occurs_replacePathPrefix (hsolid : Solid pattern) (hmask : Mask replacement) :
    Occurs pattern X (replacePathPrefix value pattern replacement) ↔
      Occurs pattern (fun next => X next ∧ ¬ boundaryNext next) value := by
  unfold replacePathPrefix
  rw [if_neg (by rw [List.isEmpty_iff]; exact hsolid.ne_nil)]
  exact occurs_replaceLoop hsolid hmask _ _ (Nat.le_refl _)

/-! ## Completeness -/

def userPath (user : String) : List Char := "/Users/".toList ++ user.toList

theorem userPath_ne_nil {user} : userPath user ≠ [] := by
  have hne : "/Users/".toList ≠ [] := by decide
  intro h
  exact hne (append_eq_nil_iff.mp h).1

theorem getLast?_userPath {c} (h : user.toList.getLast? = some c) :
    (userPath user).getLast? = some c := by
  unfold userPath
  rw [getLast?_append, h, some_or]

/-- No path of the identity is exposed in the masked text. -/
def Complete (sanitizer : Sanitizer) (value : String) : Prop := (∀ home ∈ sanitizer.home,
    ¬ Occurs home.toList exposedNext (sanitizer.sanitizeStr value).toList) ∧
  ∀ user ∈ sanitizer.username,
    ¬ Occurs (userPath user) exposedNext (sanitizer.sanitizeStr value).toList

/-- `USER` and `HOME` are both unset or empty. -/
def NoIdentity (user home : Option String) : Prop :=
  (user = none ∨ user = some "") ∧ (home = none ∨ home = some "")

/-- A path and one white space behind it. -/
def exposing (path : List Char) (white : Char) : List Char := path ++ [white]

section

variable {pattern path : List Char} {white : Char}

theorem whiteNext_not_boundary {next} (h : whiteNext next) : ¬ boundaryNext next := by
  obtain ⟨c, rfl, hwhite⟩ := h
  rintro (hnone | hslash)
  · cases hnone
  cases hslash
  revert hwhite
  decide

theorem exposed_not_boundary (next : Option Char) :
    (exposedNext next ∧ ¬ boundaryNext next) ↔ whiteNext next := by
  constructor
  · rintro ⟨hb | hw, hnot⟩
    · exact absurd hb hnot
    · exact hw
  · intro hw
    exact ⟨.inr hw, whiteNext_not_boundary hw⟩

/-- White space that folding leaves alone. -/
def plainSpaces : List Char := [' ', '\n', '\t']

theorem mem_plainSpaces (h : white ∈ plainSpaces) :
    isWhiteSpace white = true ∧ white.isLower = false ∧ white.toLower = white := by
  simp only [plainSpaces, mem_cons, not_mem_nil, or_false] at h
  rcases h with rfl | rfl | rfl <;> decide

/-- A text that is, up to case, one with white space behind it ends with it. -/
theorem getLast?_of_foldCase {text : List Char} (hwhite : white ∈ plainSpaces)
    (h : foldCase text = foldCase (exposing path white)) : text.getLast? = some white := by
  obtain ⟨-, hlower, hself⟩ := mem_plainSpaces hwhite
  have hend := congrArg getLast? h
  rw [exposing, foldCase_append, show foldCase [white] = [white.toLower] from rfl,
    getLast?_concat, foldCase, getLast?_map] at hend
  obtain ⟨c, hc, hlow⟩ := map_eq_some_iff.mp hend
  rw [hc, eq_of_toLower hlower (hlow.trans hself)]

/-- White space behind a path does not continue another path that does not end
with it. -/
theorem length_lt_of_boundary (hne : pattern ≠ []) (hwhite : white ∈ plainSpaces)
    (hlast : pattern.getLast? ≠ some white)
    (h : Occurs pattern boundaryNext (exposing path white)) : pattern.length < path.length := by
  obtain ⟨hspace, -, -⟩ := mem_plainSpaces hwhite
  obtain ⟨a, b, heq, hstarts, hnext⟩ := h
  have hle : pattern.length ≤ b.length := by
    have := hstarts.length_le
    rwa [foldCase_length, foldCase_length] at this
  have hb : b ≠ [] := by
    rintro rfl
    exact hne (length_eq_zero_iff.mp (Nat.le_zero.mp hle))
  obtain ⟨c, hc⟩ : ∃ c, b = c ++ [white] := by
    refine ⟨b.dropLast, ?_⟩
    have hl := congrArg getLast? heq
    rw [exposing, getLast?_append, getLast?_append,
      getLast?_eq_some_getLast hb] at hl
    have hl' : white = b.getLast hb := by simpa using hl
    rw [hl', dropLast_append_getLast]
  have hpath : path = a ++ c := by
    rw [exposing, hc, ← append_assoc] at heq
    exact append_cancel_right heq
  rw [hc, length_append, length_singleton] at hle
  rcases Nat.lt_trichotomy pattern.length c.length with hlt | heq' | hgt
  · rw [hpath, length_append]
    omega
  · -- the path ends where the white space is
    rw [hc, heq', drop_left] at hnext
    exact absurd hnext (whiteNext_not_boundary ⟨white, rfl, hspace⟩)
  -- the white space would be its last character
  exfalso
  have hfull : foldCase pattern = foldCase b := by
    apply IsPrefix.eq_of_length hstarts
    rw [foldCase_length, foldCase_length, hc, length_append, length_singleton]
    omega
  apply hlast
  have hends : foldCase pattern = foldCase (exposing c white) := by rw [hfull, hc, exposing]
  exact getLast?_of_foldCase hwhite hends

theorem occurs_exposing (hwhite : white ∈ plainSpaces) :
    Occurs path exposedNext (exposing path white) := by
  refine ⟨[], exposing path white, rfl, ?_, .inr ⟨white, ?_, (mem_plainSpaces hwhite).1⟩⟩
  · unfold Starts exposing
    rw [foldCase_append]
    exact prefix_append _ _
  · rw [exposing, drop_left]
    rfl

/-- Two paths cannot end with all the white spaces. -/
theorem exists_plainSpace (a b : Option Char) :
    ∃ white ∈ plainSpaces, a ≠ some white ∧ b ≠ some white := by
  by_contra hall
  have hcovers : ∀ white ∈ plainSpaces, a = some white ∨ b = some white := by
    intro white hwhite
    by_contra hneither
    rw [not_or] at hneither
    exact hall ⟨white, hwhite, hneither⟩
  have hspace := hcovers ' ' (by decide)
  have hline := hcovers '\n' (by decide)
  have htab := hcovers '\t' (by decide)
  rcases hspace with rfl | rfl <;> simp at hline htab
  · rw [hline] at htab
    simp at htab
  · rw [hline] at htab
    simp at htab

end

namespace Sanitizer

variable {sanitizer : Sanitizer}
variable {path : List Char}

/-- The paths a sanitizer is to mask. -/
def paths (sanitizer : Sanitizer) : List (List Char) :=
  (sanitizer.home.map String.toList).toList ++ (sanitizer.username.map userPath).toList

theorem maskUser_eq_self {value} (h : ∀ user ∈ sanitizer.username,
      replacePathPrefix value (userPath user) "/Users/[USERNAME]".toList = value ∧
      foldCase value ≠ foldCase user.toList) : sanitizer.maskUser value = value := by
  unfold maskUser
  cases hu : sanitizer.username with
  | none => rfl
  | some user =>
    obtain ⟨hmasked, hname⟩ := h user hu
    unfold userPath at hmasked
    simp only [hmasked]
    exact if_neg hname

/-- The shortest path of the identity with white space behind it comes out as
it went in. -/
theorem sanitizeStr_exposing {white} (hwhite : white ∈ plainSpaces)
    (hpaths : ∀ other ∈ sanitizer.paths, other ≠ [] ∧ other.getLast? ≠ some white ∧
      path.length ≤ other.length) :
    (sanitizer.sanitizeStr (.ofList (exposing path white))).toList = exposing path white := by
  have hkept : ∀ other ∈ sanitizer.paths, ∀ replacement,
      replacePathPrefix (exposing path white) other replacement = exposing path white := by
    intro other hother replacement
    obtain ⟨hne, hlast, hle⟩ := hpaths other hother
    apply replacePathPrefix_of_no_boundary
    intro hoccurs
    have hlt := length_lt_of_boundary hne hwhite hlast hoccurs
    omega
  have hhome : sanitizer.maskHome (exposing path white) = exposing path white := by
    unfold maskHome
    split
    · rfl
    next home hh =>
      apply hkept
      simp [paths, hh]
  have huser : sanitizer.maskUser (exposing path white) = exposing path white := by
    apply maskUser_eq_self
    intro user hu
    have hmem : userPath user ∈ sanitizer.paths := by simp [paths, mem_def.mp hu]
    refine ⟨hkept _ hmem _, ?_⟩
    -- a user name with this white space at its end would end the path with it
    intro hname
    apply (hpaths _ hmem).2.1
    exact getLast?_userPath (getLast?_of_foldCase hwhite hname.symm)
  rw [sanitizeStr, String.toList_ofList, String.toList_ofList, hhome, huser]

/-- A path of the identity that is no longer than the others can be exposed. -/
theorem not_complete_of_shortest (hmem : path ∈ sanitizer.paths)
    (hpaths : ∀ other ∈ sanitizer.paths, other ≠ [] ∧ path.length ≤ other.length) :
    ∃ value, ¬ Complete sanitizer value := by
  obtain ⟨white, hwhite, hhome, huser⟩ := exists_plainSpace
    ((sanitizer.home.map String.toList).getD []).getLast?
    ((sanitizer.username.map userPath).getD []).getLast?
  have hkept : (sanitizer.sanitizeStr (.ofList (exposing path white))).toList =
      exposing path white := by
    apply sanitizeStr_exposing hwhite
    intro other hother
    obtain ⟨hne, hle⟩ := hpaths other hother
    refine ⟨hne, ?_, hle⟩
    simp only [paths, mem_append, mem_toList] at hother
    rcases hother with hother | hother
    · rwa [mem_def.mp hother] at hhome
    · rwa [mem_def.mp hother] at huser
  refine ⟨.ofList (exposing path white), ?_⟩
  intro hcomplete
  simp only [paths, mem_append, mem_toList, map_eq_some_iff] at hmem
  rcases hmem with ⟨home, hh, rfl⟩ | ⟨user, hu, rfl⟩
  · apply hcomplete.1 home hh
    rw [hkept]
    exact occurs_exposing hwhite
  · apply hcomplete.2 user hu
    rw [hkept]
    exact occurs_exposing hwhite

theorem exists_not_complete (hsome : sanitizer.paths ≠ [])
    (hne : ∀ path ∈ sanitizer.paths, path ≠ []) : ∃ value, ¬ Complete sanitizer value := by
  obtain ⟨path, hpath⟩ : ∃ path, sanitizer.paths.argmin length = some path := by
    rw [← ne_none_iff_exists']
    intro hnone
    exact hsome (argmin_eq_none.mp hnone)
  apply not_complete_of_shortest (argmin_mem hpath)
  intro other hother
  exact ⟨hne other hother, le_of_mem_argmin hother hpath⟩

theorem filter_nonempty_eq_none {text} :
    (text.filter fun value => !value.toList.isEmpty) = none ↔ text = none ∨ text = some "" := by
  cases text with
  | none => simp
  | some value => simp [filter_some]

/-- The sanitizer has a path to mask unless there is no identity. -/
theorem paths_fromIdentity {user home} :
    (fromIdentity user home).paths = [] ↔ NoIdentity user home := by
  have hparts : (fromIdentity user home).paths = [] ↔
      (fromIdentity user home).home = none ∧ (fromIdentity user home).username = none := by
    unfold paths
    rw [append_eq_nil_iff, toList_eq_nil_iff, toList_eq_nil_iff, map_eq_none_iff, map_eq_none_iff]
  rw [hparts, NoIdentity, ← filter_nonempty_eq_none, ← filter_nonempty_eq_none]
  constructor
  · rintro ⟨hhome, huser⟩
    exact ⟨(or_eq_none_iff.mp huser).1, hhome⟩
  rintro ⟨huser, hhome⟩
  refine ⟨hhome, or_eq_none_iff.mpr ⟨huser, ?_⟩⟩
  rw [hhome]
  rfl

theorem ne_nil_of_mem_paths {user home}
    (h : path ∈ (fromIdentity user home).paths) : path ≠ [] := by
  simp only [paths, mem_append, mem_toList, map_eq_some_iff] at h
  rcases h with ⟨home', hh, rfl⟩ | ⟨user', -, rfl⟩
  · simp only [fromIdentity, filter_eq_some_iff] at hh
    simpa using hh.2
  · exact userPath_ne_nil

/-- Only without an identity is every text masked completely. -/
theorem complete_iff_noIdentity {user home} :
    (∀ value, Complete (fromIdentity user home) value) ↔ NoIdentity user home := by
  constructor
  · intro hall
    by_contra hidentity
    rw [← paths_fromIdentity] at hidentity
    have hne : ∀ path ∈ (fromIdentity user home).paths, path ≠ [] :=
      fun path hpath => ne_nil_of_mem_paths hpath
    obtain ⟨value, hvalue⟩ := exists_not_complete hidentity hne
    exact hvalue (hall value)
  · intro hidentity value
    have hnone := (paths_fromIdentity).mpr hidentity
    constructor
    · intro home' hh
      have hmem : home'.toList ∈ (fromIdentity user home).paths := by simp [paths, mem_def.mp hh]
      rw [hnone] at hmem
      cases hmem
    · intro user' hu
      have hmem : userPath user' ∈ (fromIdentity user home).paths := by simp [paths, mem_def.mp hu]
      rw [hnone] at hmem
      cases hmem

end Sanitizer

/-! ## Ordinary identities -/

/-- A user name that is one component of a path and no initial part of
`users`. -/
structure Ordinary (user : String) : Prop where
  nonempty : user.toList ≠ []
  flat : '/' ∉ user.toList
  unmasked : '[' ∉ user.toList
  apart : ¬ foldCase user.toList <+: ['u', 's', 'e', 'r', 's']

theorem foldCase_userPath (user : String) :
    foldCase (userPath user) = ['/', 'u', 's', 'e', 'r', 's', '/'] ++ foldCase user.toList := by
  unfold userPath
  generalize hdirectory : "/Users/".toList = directory
  have hfold : foldCase directory = ['/', 'u', 's', 'e', 'r', 's', '/'] := by
    subst hdirectory
    decide +kernel
  rw [foldCase_append, hfold]

/-- The only slash behind the first is the one in front of the name. -/
theorem index_of_slash {name} (hflat : '/' ∉ name) {k} (hpos : 0 < k)
    (h : (['/', 'u', 's', 'e', 'r', 's', '/'] ++ name)[k]? = some '/') : k = 6 := by
  have hdirectory : ∀ k < 7, 0 < k →
      ['/', 'u', 's', 'e', 'r', 's', '/'][k]? = some '/' → k = 6 := by decide
  by_cases hlt : k < 7
  · rw [getElem?_append_left hlt] at h
    exact hdirectory k hlt hpos h
  · rw [getElem?_append_right (Nat.le_of_not_lt hlt)] at h
    exact absurd (mem_of_getElem? h) hflat

theorem Ordinary.solid (h : Ordinary user) : Solid (userPath user) := by
  have hfold := foldCase_userPath user
  have hflat : '/' ∉ foldCase user.toList := fun hmem => h.flat (mem_of_mem_foldCase rfl hmem)
  refine { absolute := ?_, unmasked := ?_, unbordered := ?_ }
  · rw [hfold]
    rfl
  · rw [hfold, mem_append]
    rintro (hmem | hmem)
    · revert hmem
      decide
    · exact h.unmasked (mem_of_mem_foldCase rfl hmem)
  · intro k hpos hlt hprefix
    rw [← foldCase_length, hfold] at hlt
    rw [hfold] at hprefix
    obtain ⟨rest, hrest⟩ := hprefix
    have hslash : (['/', 'u', 's', 'e', 'r', 's', '/'] ++ foldCase user.toList)[k]? = some '/' := by
      rw [← head?_drop]
      have hhead := congrArg head? hrest
      cases hdrop : (['/', 'u', 's', 'e', 'r', 's', '/'] ++ foldCase user.toList).drop k with
      | nil =>
        rw [drop_eq_nil_iff] at hdrop
        omega
      | cons c tail =>
        rw [hdrop] at hhead
        exact hhead
    have hk := index_of_slash hflat hpos hslash
    subst hk
    -- the name would be an initial part of `users/` and the name again
    have hname : foldCase user.toList <+:
        ['u', 's', 'e', 'r', 's'] ++ ('/' :: foldCase user.toList) := by
      exact ⟨rest, (cons.inj hrest).2⟩
    by_cases hshort : (foldCase user.toList).length ≤ 5
    · exact h.apart (prefix_of_prefix_length_le hname (prefix_append _ _) hshort)
    apply hflat
    obtain ⟨tail, htail⟩ := hname
    have hsix := congrArg (fun text => text[5]?) htail
    rw [getElem?_append_left (by omega)] at hsix
    exact mem_of_getElem? hsix

section

variable {pattern other text : List Char} {X Y : Option Char → Prop}

theorem occurs_congr (hfold : foldCase pattern = foldCase other) (hnext : ∀ next, X next ↔ Y next) :
    Occurs pattern X text ↔ Occurs other Y text := by
  have hlength : pattern.length = other.length := by
    rw [← foldCase_length pattern, hfold, foldCase_length]
  unfold Occurs Starts
  simp only [hfold, hlength, hnext]

theorem Solid.congr (h : Solid pattern) (hfold : foldCase pattern = foldCase other) :
    Solid other := by
  have hlength : pattern.length = other.length := by
    rw [← foldCase_length pattern, hfold, foldCase_length]
  refine { absolute := ?_, unmasked := ?_, unbordered := ?_ }
  · rw [← hfold]
    exact h.absolute
  · rw [← hfold]
    exact h.unmasked
  · rw [← hfold, ← hlength]
    exact h.unbordered

theorem Solid.not_occurs_of_flat (h : Solid pattern) (hflat : '/' ∉ foldCase text) :
    ¬ Occurs pattern X text := by
  rintro ⟨front, back, rfl, ⟨rest, hrest⟩, -⟩
  apply hflat
  rw [foldCase_append, mem_append, ← hrest, mem_append]
  exact .inr (.inl (mem_of_head? h.absolute))

end

theorem mask_home : Mask "[HOME]".toList where
  bracket := by decide
  flat := by decide

/-- With the home directory of an ordinary user, the second pass finds nothing
to do. -/
theorem Ordinary.occurs_maskUser (h : Ordinary user) {home}
    (hnone : ¬ Occurs (userPath user) boundaryNext value) :
    Occurs (userPath user) X (maskUser { username := some user, home } value) ↔
      Occurs (userPath user) X value := by
  have hmasked : replacePathPrefix value (userPath user) "/Users/[USERNAME]".toList = value :=
    replacePathPrefix_of_no_boundary hnone
  unfold userPath at hmasked
  simp only [maskUser, hmasked]
  split
  next hname =>
    -- the name alone has no slash, and neither has its mask
    have hflat : '/' ∉ foldCase value := by
      rw [hname]
      exact fun hmem => h.flat (mem_of_mem_foldCase rfl hmem)
    exact iff_of_false (h.solid.not_occurs_of_flat (by decide)) (h.solid.not_occurs_of_flat hflat)
  · rfl

theorem fromIdentity_of_nonempty {home} (huser : user.toList ≠ []) (hhome : home.toList ≠ []) :
    fromIdentity (some user) (some home) = { username := some user, home := some home } := by
  have hu : user ≠ "" := fun h => huser (String.toList_eq_nil_iff.mpr h)
  have hh : home ≠ "" := fun h => hhome (String.toList_eq_nil_iff.mpr h)
  simp [fromIdentity, filter_some, hu, hh]

theorem Ordinary.complete_iff {home} (h : Ordinary user)
    (hhome : foldCase home.toList = foldCase (userPath user)) {value} :
    Complete (.fromIdentity (some user) (some home)) value ↔
      ¬ Occurs (userPath user) whiteNext value.toList := by
  have hsolid : Solid home.toList := h.solid.congr hhome.symm
  have hfirst : ∀ X, Occurs (userPath user) X
      (replacePathPrefix value.toList home.toList "[HOME]".toList) ↔
      Occurs (userPath user) (fun next => X next ∧ ¬ boundaryNext next) value.toList := by
    intro X
    rw [← occurs_congr hhome (fun _ => .rfl), occurs_replacePathPrefix hsolid mask_home]
    exact occurs_congr hhome (fun _ => .rfl)
  have hnone : ¬ Occurs (userPath user) boundaryNext
      (replacePathPrefix value.toList home.toList "[HOME]".toList) := by
    rw [hfirst]
    rintro ⟨front, back, -, -, hnext, hnot⟩
    exact hnot hnext
  have hout : ∀ X, Occurs (userPath user) X
      (sanitizeStr (.fromIdentity (some user) (some home)) value).toList ↔
      Occurs (userPath user) (fun next => X next ∧ ¬ boundaryNext next) value.toList := by
    intro X
    rw [fromIdentity_of_nonempty h.nonempty hsolid.ne_nil, sanitizeStr, String.toList_ofList]
    exact (h.occurs_maskUser hnone).trans (hfirst X)
  have hexposed : Occurs (userPath user) exposedNext
      (sanitizeStr (.fromIdentity (some user) (some home)) value).toList ↔
      Occurs (userPath user) whiteNext value.toList := by
    rw [hout]
    exact occurs_congr rfl exposed_not_boundary
  have hboth : Complete (.fromIdentity (some user) (some home)) value ↔
      ¬ Occurs home.toList exposedNext
        (sanitizeStr (.fromIdentity (some user) (some home)) value).toList ∧
      ¬ Occurs (userPath user) exposedNext
        (sanitizeStr (.fromIdentity (some user) (some home)) value).toList := by
    have hidentity := fromIdentity_of_nonempty h.nonempty hsolid.ne_nil
    constructor
    · rintro ⟨hh, hu⟩
      exact ⟨hh home (by rw [hidentity]; rfl), hu user (by rw [hidentity]; rfl)⟩
    rintro ⟨hh, hu⟩
    constructor
    · intro home' hhome'
      rw [hidentity, mem_some_iff] at hhome'
      exact hhome' ▸ hh
    · intro user' huser'
      rw [hidentity, mem_some_iff] at huser'
      exact huser' ▸ hu
  rw [hboth, occurs_congr hhome (fun _ => .rfl), hexposed, and_self_iff]

/-- Every text is masked completely only if there is no identity. For an
ordinary user whose home is below `/Users`, the texts masked completely are
those in which no white space follows the path of the home. -/
theorem sanitizeStr_complete_iff (user home : Option String) :
    ((∀ value, Complete (.fromIdentity user home) value) ↔ NoIdentity user home) ∧
    ∀ name path value, user = some name → home = some path → Ordinary name →
      foldCase path.toList = foldCase (userPath name) →
      (Complete (.fromIdentity user home) value ↔
        ¬ Occurs (userPath name) whiteNext value.toList) := by
  constructor
  · exact complete_iff_noIdentity
  · rintro name path value rfl rfl huser hhome
    exact huser.complete_iff hhome

theorem ordinary_alice : Ordinary "alice" where
  nonempty := by decide
  flat := by decide
  unmasked := by decide
  apart := by decide

theorem not_occurs_whiteNext {text} (h : ∀ c ∈ text, isWhiteSpace c = false) :
    ¬ Occurs pattern whiteNext text := by
  rintro ⟨front, back, rfl, -, c, hc, hwhite⟩
  have hmem : c ∈ front ++ back := mem_append_right _ (mem_of_mem_drop (mem_of_head? hc))
  rw [h c hmem] at hwhite
  cases hwhite

theorem text_without_space_masked_completely :
    Ordinary "alice" ∧
      Complete (.fromIdentity (some "alice") (some "/Users/alice")) "/users/Alice/log.txt" := by
  refine ⟨ordinary_alice, ?_⟩
  have hhome : foldCase "/Users/alice".toList = foldCase (userPath "alice") := by decide +kernel
  apply ((sanitizeStr_complete_iff (some "alice") (some "/Users/alice")).2 "alice"
    "/Users/alice" "/users/Alice/log.txt" rfl rfl ordinary_alice hhome).mpr
  have hplain : "/users/Alice/log.txt".toList.all (fun c => !isWhiteSpace c) = true := by
    decide +kernel
  apply not_occurs_whiteNext
  intro c hc
  simpa using all_eq_true.mp hplain c hc

/-- A line feed behind the home directory, and a home with a slash at its end
that overlaps itself. -/
theorem home_exposed_by_newline_and_by_overlap :
    ¬ Complete (.fromIdentity (some "alice") (some "/Users/alice")) "/Users/alice\n" ∧
    ¬ Complete (.fromIdentity (some "alice") (some "/a/")) "/a/a/" := by
  constructor
  · intro hcomplete
    apply hcomplete.1 "/Users/alice" (by decide +kernel)
    refine ⟨[], "/Users/alice\n".toList, by decide +kernel, ?_, Or.inr ⟨'\n', ?_, rfl⟩⟩
    · show _ <+: _
      decide +kernel
    · decide +kernel
  · intro hcomplete
    apply hcomplete.1 "/a/" (by decide +kernel)
    refine ⟨['/', 'a'], ['/', 'a', '/'], by decide +kernel, ?_, Or.inl (Or.inl ?_)⟩
    · show _ <+: _
      decide +kernel
    · decide +kernel

end CrashMonitor.Privacy
