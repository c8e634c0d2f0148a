import Mathlib.Data.Rat.Defs
import Mathlib.Data.List.Basic
import Mathlib.Data.List.Induction

/-!
# JSON values — the string values of a document

A document is a finite tree. What a masking pass may touch are its string
VALUES (`texts`); member keys, numbers and the shape of the tree stay. The two
facts a client uses are that mapping the texts maps the list of texts, and that
a document is left alone exactly when each of its texts is.

Members are kept as an association list with `insert` replacing an existing
key, so a document built by insertions has each key once.
-/

namespace CrashMonitor

open List

inductive Json where
  | null
  | bool (value : Bool)
  | number (value : Rat)
  | string (text : String)
  | array (values : List Json)
  | object (members : List (String × Json))

namespace Json

/-! ## Mapping the texts -/

mutual

/-- Apply `f` to every string value. -/
def mapTexts (f : String → String) : Json → Json
  | .null => .null
  | .bool value => .bool value
  | .number value => .number value
  | .string text => .string (f text)
  | .array values => .array (mapValues f values)
  | .object members => .object (mapMembers f members)

def mapValues (f : String → String) : List Json → List Json
  | [] => []
  | value :: values => mapTexts f value :: mapValues f values

def mapMembers (f : String → String) : List (String × Json) → List (String × Json)
  | [] => []
  | (key, value) :: members => (key, mapTexts f value) :: mapMembers f members

end

mutual

/-- The string values of a document, from left to right. -/
def texts : Json → List String
  | .null => []
  | .bool _ => []
  | .number _ => []
  | .string text => [text]
  | .array values => textsOfValues values
  | .object members => textsOfMembers members

def textsOfValues : List Json → List String
  | [] => []
  | value :: values => texts value ++ textsOfValues values

def textsOfMembers : List (String × Json) → List String
  | [] => []
  | (_, value) :: members => texts value ++ textsOfMembers members

end

mutual

theorem texts_mapTexts {f} :
    ∀ value, (mapTexts f value).texts = value.texts.map f
  | .null => rfl
  | .bool _ => rfl
  | .number _ => rfl
  | .string _ => rfl
  | .array values => by simp only [mapTexts, texts, textsOfValues_mapValues values]
  | .object members => by simp only [mapTexts, texts, textsOfMembers_mapMembers members]

theorem textsOfValues_mapValues {f} :
    ∀ values, textsOfValues (mapValues f values) = (textsOfValues values).map f
  | [] => rfl
  | value :: values => by
    simp only [mapValues, textsOfValues, map_append, texts_mapTexts value,
      textsOfValues_mapValues values]

theorem textsOfMembers_mapMembers {f} :
    ∀ members, textsOfMembers (mapMembers f members) = (textsOfMembers members).map f
  | [] => rfl
  | (_, value) :: members => by
    simp only [mapMembers, textsOfMembers, map_append, texts_mapTexts value,
      textsOfMembers_mapMembers members]

end

mutual

theorem mapTexts_eq_self {f} :
    ∀ value, (∀ text ∈ value.texts, f text = text) → mapTexts f value = value
  | .null, _ => rfl
  | .bool _, _ => rfl
  | .number _, _ => rfl
  | .string text, h => by rw [mapTexts, h text (by simp [texts])]
  | .array values, h => by rw [mapTexts, mapValues_eq_self values h]
  | .object members, h => by rw [mapTexts, mapMembers_eq_self members h]

theorem mapValues_eq_self {f} :
    ∀ values, (∀ text ∈ textsOfValues values, f text = text) → mapValues f values = values
  | [], _ => rfl
  | value :: values, h => by
    simp only [textsOfValues, mem_append] at h
    rw [mapValues, mapTexts_eq_self value fun t ht => h t (.inl ht),
      mapValues_eq_self values fun t ht => h t (.inr ht)]

theorem mapMembers_eq_self {f} :
    ∀ members, (∀ text ∈ textsOfMembers members, f text = text) → mapMembers f members = members
  | [], _ => rfl
  | (_, value) :: members, h => by
    simp only [textsOfMembers, mem_append] at h
    rw [mapMembers, mapTexts_eq_self value fun t ht => h t (.inl ht),
      mapMembers_eq_self members fun t ht => h t (.inr ht)]

end

/-- A document is left alone exactly when each of its texts is. -/
theorem mapTexts_eq_self_iff (f : String → String) (value : Json) :
    value = mapTexts f value ↔ ∀ text ∈ value.texts, f text = text := by
  constructor
  · intro h
    have htexts : value.texts.map f = value.texts.map id := by
      rw [← texts_mapTexts value, ← h, map_id]
    exact map_inj_left.mp htexts
  · intro h
    exact (mapTexts_eq_self value h).symm

theorem textsOfValues_eq (values : List Json) : textsOfValues values = values.flatMap texts := by
  induction values with
  | nil => rfl
  | cons value values ih => rw [textsOfValues, ih, flatMap_cons]

theorem textsOfMembers_eq (members : List (String × Json)) :
    textsOfMembers members = members.flatMap fun member => member.2.texts := by
  induction members with
  | nil => rfl
  | cons member members ih => rw [textsOfMembers, ih, flatMap_cons]

/-! ## Members -/

/-- `Map::insert`: an existing key takes the new value, a new one is added. -/
def insertMember (key : String) (value : Json) : List (String × Json) → List (String × Json)
  | [] => [(key, value)]
  | (k, v) :: members =>
    if k = key then (k, value) :: members.filter (·.1 ≠ key)
    else (k, v) :: insertMember key value members

/-- The map collected from a sequence of pairs; a later pair wins. -/
def collectMembers (pairs : List (String × Json)) : List (String × Json) :=
  pairs.foldl (fun members pair => insertMember pair.1 pair.2 members) []

/-- A string value that is left out when there is none. -/
def stringMember (key : String) : Option String → List (String × Json)
  | none => []
  | some text => [(key, .string text)]

/-! ## Collected members

A map collected from pairs keeps the last pair of each key. -/

section Collect

variable {key : String} {value : Json} {members pairs : List (String × Json)}
  {q : String × Json → Bool}

/-- The pairs whose key no later pair has. -/
def lastPairs : List (String × Json) → List (String × Json)
  | [] => []
  | pair :: pairs =>
    if pair.1 ∈ pairs.map Prod.fst then lastPairs pairs else pair :: lastPairs pairs

theorem insertMember_perm :
    (insertMember key value members).Perm ((key, value) :: members.filter (·.1 ≠ key)) := by
  induction members with
  | nil => exact .refl _
  | cons pair members ih =>
    obtain ⟨k, v⟩ := pair
    rw [insertMember]
    split
    · next hk => rw [filter_cons_of_neg (by simp [hk]), hk]
    · next hk =>
      rw [filter_cons_of_pos (by simpa using hk)]
      exact (ih.cons _).trans (.swap ..)

theorem lastPairs_snoc {pair} :
    (lastPairs (pairs ++ [pair])).Perm (pair :: (lastPairs pairs).filter (·.1 ≠ pair.1)) := by
  induction pairs with
  | nil => simp [lastPairs]
  | cons first pairs ih =>
    rw [cons_append, lastPairs, lastPairs]
    by_cases hlater : first.1 ∈ pairs.map Prod.fst
    · rw [if_pos hlater, if_pos (by simp [hlater])]
      exact ih
    rw [if_neg hlater]
    by_cases hkey : first.1 = pair.1
    · rw [if_pos (by simp [hkey]), filter_cons_of_neg (by simp [hkey])]
      exact ih
    · rw [if_neg (by simpa [hkey] using hlater), filter_cons_of_pos (by simp [hkey])]
      exact (ih.cons _).trans (.swap ..)

section

variable (q : String × Json → Bool) (pairs : List (String × Json))

theorem collectMembers_perm : (collectMembers pairs).Perm (lastPairs pairs) := by
  induction pairs using List.reverseRecOn with
  | nil => exact .refl _
  | append_singleton pairs pair ih =>
    rw [collectMembers, foldl_append]
    exact insertMember_perm.trans (((ih.filter _).cons _).trans lastPairs_snoc.symm)

/-- The wanted pairs are all kept: none has the key of a later pair. -/
def Kept : Prop := pairs.Pairwise fun pair later => q pair → pair.1 ≠ later.1

theorem countP_lastPairs_le : (lastPairs pairs).countP q ≤ pairs.countP q := by
  induction pairs with
  | nil => simp [lastPairs]
  | cons pair pairs ih =>
    rw [lastPairs]
    split
    · rw [countP_cons]
      omega
    · rw [countP_cons, countP_cons]
      omega

end

theorem countP_lastPairs_eq_iff : (lastPairs pairs).countP q = pairs.countP q ↔ Kept q pairs := by
  induction pairs with
  | nil => simp [lastPairs, Kept]
  | cons pair pairs ih =>
    rw [Kept, pairwise_cons, ← Kept, ← ih, lastPairs]
    have hle := countP_lastPairs_le q pairs
    by_cases hlater : pair.1 ∈ pairs.map Prod.fst
    · obtain ⟨later, hmem, hkey⟩ := mem_map.mp hlater
      rw [if_pos hlater, countP_cons]
      by_cases hq : q pair
      · simp only [hq, if_true, forall_const]
        exact ⟨fun h => by omega, fun h => absurd hkey.symm (h.1 later hmem)⟩
      · simp [hq]
    · have hfirst : ∀ later ∈ pairs, q pair → pair.1 ≠ later.1 := fun later hmem _ heq =>
        hlater (heq ▸ mem_map_of_mem hmem)
      rw [if_neg hlater, countP_cons, countP_cons]
      rw [Nat.add_right_cancel_iff]
      exact ⟨fun h => ⟨hfirst, h⟩, And.right⟩

theorem Kept.mem_lastPairs (hkept : Kept q pairs) {pair} (hmem : pair ∈ pairs)
    (hq : q pair) : pair ∈ lastPairs pairs := by
  induction pairs with
  | nil => simp at hmem
  | cons first pairs ih =>
    obtain ⟨hfirst, hrest⟩ := pairwise_cons.mp hkept
    rw [lastPairs]
    rcases mem_cons.mp hmem with rfl | hmem
    · have hlast : pair.1 ∉ pairs.map Prod.fst := by
        intro hlater
        obtain ⟨later, hin, hkey⟩ := mem_map.mp hlater
        exact hfirst later hin hq hkey.symm
      rw [if_neg hlast]
      exact mem_cons_self
    · split
      · exact ih hrest hmem
      · exact mem_cons_of_mem _ (ih hrest hmem)

end Collect

end Json

end CrashMonitor
