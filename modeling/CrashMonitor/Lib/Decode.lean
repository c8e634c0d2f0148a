import CrashMonitor.Lib.Json
import CrashMonitor.Lib.SortedMap
import Mathlib.Data.String.Basic
import Mathlib.Algebra.Group.Nat.Defs
import Mathlib.Algebra.Group.Int.Defs

/-!
# Typed values read from a document

A decoder reads a value from a document or refuses the document. A structure is
read from an object by the names of its fields, in any order, with members of
other names ignored and a field given twice refused; or from an array by
position, where no element may be left over. A field that is left out has a
default or is refused. These are the rules of derived deserialization.

A number is its value here: `1.0` is not told from `1`.
-/

namespace CrashMonitor.Lib.Decode

open List

abbrev Decoder (α : Type) := Json → Option α

/-! ## Single values -/

def text : Decoder String
  | .string text => some text
  | _ => none

def boolean : Decoder Bool
  | .bool value => some value
  | _ => none

/-- An integer from `low` to below `high`. -/
def integer (low high : Int) : Decoder Int
  | .number value =>
    if value.den = 1 ∧ low ≤ value.num ∧ value.num < high then some value.num else none
  | _ => none

/-- An unsigned integer of `width` bits. -/
def unsigned (width : Nat) : Decoder Nat := fun value => (integer 0 (2 ^ width) value).map Int.toNat

/-- A signed integer of `width + 1` bits. -/
def signed (width : Nat) : Decoder Int := integer (-2 ^ width) (2 ^ width)

def optional {α : Type} (decoder : Decoder α) : Decoder (Option α)
  | .null => some none
  | value => (decoder value).map some

def sequence {α : Type} (decoder : Decoder α) : Decoder (List α)
  | .array values => values.mapM decoder
  | _ => none

/-- A map in key order; of two members with one key the later one wins. -/
def ordered {α : Type} (decoder : Decoder α) : Decoder (SortedMap String α)
  | .object members =>
    (members.mapM fun member => (decoder member.2).map fun value => (member.1, value)).map
      SortedMap.ofList
  | _ => none

/-- A variant without data: its name, or an object with its name and `null`. -/
def variant {α : Type} (names : List (String × α)) : Decoder α
  | .string name => names.lookup name
  | .object [(name, .null)] => names.lookup name
  | _ => none

/-! ## Members by name -/

/-- The member of an object; of two members with one key the later one. -/
def member? (key : String) : Json → Option Json
  | .object members => members.reverse.lookup key
  | _ => none

theorem member?_cons (key k : String) (value : Json) (members : List (String × Json)) :
    member? key (.object ((k, value) :: members)) =
      (member? key (.object members)).or (if key = k then some value else none) := by
  rw [member?, member?, reverse_cons, lookup_append]
  congr 1
  by_cases h : key = k
  · simp [h]
  · simp [h, lookup_cons, beq_eq_false_iff_ne.mpr h]

theorem member?_filter (p : String → Bool) (key : String) (members : List (String × Json)) :
    member? key (.object (members.filter fun member => p member.1)) =
      if p key then member? key (.object members) else none := by
  induction members with
  | nil => simp [member?]
  | cons member members ih =>
    obtain ⟨k, v⟩ := member
    rw [filter_cons]
    split
    · next hk =>
      rw [member?_cons, member?_cons, ih]
      by_cases hkey : key = k
      · simp [hkey, hk]
      · split <;> simp
    · next hk =>
      rw [ih, member?_cons]
      by_cases hkey : key = k
      · simp [hkey, hk]
      · simp [hkey]

theorem member?_insertMember (key key' : String) (value : Json) (members : List (String × Json)) :
    member? key (.object (Json.insertMember key' value members)) =
      if key = key' then some value else member? key (.object members) := by
  induction members with
  | nil => exact (member?_cons ..).trans (Option.none_or ..)
  | cons member members ih =>
    obtain ⟨k, v⟩ := member
    unfold Json.insertMember
    by_cases hk : k = key'
    · rw [if_pos hk, member?_cons, member?_cons, member?_filter (fun k => k ≠ key')]
      by_cases h : key = key'
      · simp [h, hk]
      · simp [h, hk]
    rw [if_neg hk, member?_cons, member?_cons, ih]
    by_cases h : key = key'
    · simp [h]
    · simp [h]

/-- An array index in a pointer: decimal digits without a leading zero. -/
def readIndex (token : String) : Option Nat :=
  let digits := token.toList
  if digits.isEmpty || !digits.all Char.isDigit then none
  else if digits.head? = some '0' && digits.length ≠ 1 then none
  else
    let index := Nat.ofDigitChars 10 digits 0
    if index < 2 ^ 64 then some index else none

/-- `Value::pointer` with the tokens of the pointer. -/
def pointer : List String → Json → Option Json
  | [], value => some value
  | token :: tokens, .array values =>
    ((readIndex token).bind fun index => values[index]?).bind (pointer tokens)
  | token :: tokens, value => (member? token value).bind (pointer tokens)

/-- A pointer through an object goes to its member. -/
theorem pointer_cons {token} (h : readIndex token = none) (tokens : List String) (value : Json) :
    pointer (token :: tokens) value = (member? token value).bind (pointer tokens) := by
  cases value with
  | array values => simp [pointer, member?, h]
  | _ => rfl

/-! ## The same content -/

/-- One step into a document. -/
inductive Place where
  | key (name : String)
  | index (i : Nat)

def descend : Place → Json → Option Json
  | .key name, value => member? name value
  | .index i, .array values => values[i]?
  | .index _, _ => none

def find? : List Place → Json → Option Json
  | [], value => some value
  | place :: places, value => (descend place value).bind (find? places)

theorem find?_key {tokens} (h : ∀ token ∈ tokens, readIndex token = none) (value : Json) :
    find? (tokens.map .key) value = pointer tokens value := by
  induction tokens generalizing value with
  | nil => rfl
  | cons token tokens ih =>
    rw [pointer_cons (h token mem_cons_self)]
    exact Option.bind_congr fun found _ =>
      ih (fun token hmem => h token (mem_cons_of_mem _ hmem)) found

/-- A value without what it contains; a number is only known to be one. -/
def outline : Json → Json
  | .number _ => .number 0
  | .array _ => .array []
  | .object _ => .object []
  | value => value

theorem outline_eq_string {value text} (h : outline value = .string text) :
    value = .string text := by
  cases value with
  | string other => exact h
  | _ => cases h

/-- At every place the same value, but that numbers may differ. The order of the
members is not told apart, nor are members that a later one replaces. -/
def Alike (value other : Json) : Prop :=
  ∀ places, (find? places value).map outline = (find? places other).map outline

theorem Alike.refl (value : Json) : Alike value value := fun _ => rfl

theorem Alike.find?_string {value other} (h : Alike value other) {places text}
    (hother : find? places other = some (.string text)) :
    find? places value = some (.string text) := by
  have hplaces := h places
  rw [hother] at hplaces
  obtain ⟨found, hfound, houtline⟩ := Option.map_eq_some_iff.mp hplaces
  rw [hfound, outline_eq_string houtline]

/-- Alike documents have alike members. -/
theorem Alike.member {value other} (h : Alike value other) (key : String) :
    Option.Rel Alike (member? key value) (member? key other) := by
  have hplaces : ∀ places, ((member? key value).bind (find? places)).map outline =
      ((member? key other).bind (find? places)).map outline := fun places => h (.key key :: places)
  cases hvalue : member? key value with
  | none =>
    cases hother : member? key other with
    | none => exact .none
    | some found => simpa [hvalue, hother, find?] using hplaces []
  | some found =>
    cases hother : member? key other with
    | none => simpa [hvalue, hother, find?] using hplaces []
    | some found' =>
      refine .some fun places => ?_
      simpa [hvalue, hother] using hplaces places

theorem Alike.of_objects {value other} (hvalue : outline value = .object [])
    (hother : outline other = .object [])
    (h : ∀ key, Option.Rel Alike (member? key value) (member? key other)) : Alike value other := by
  intro places
  match places with
  | [] => exact congrArg some (hvalue.trans hother.symm)
  | .index _ :: _ => cases value <;> cases other <;> cases hvalue <;> cases hother; rfl
  | .key key :: places =>
    have hkey := h key
    rw [find?, find?, descend, descend]
    generalize member? key value = found at hkey ⊢
    generalize member? key other = found' at hkey ⊢
    cases hkey with
    | none => rfl
    | some hfound => exact hfound places

theorem Alike.of_values {values others : List Json} (h : Forall₂ Alike values others) :
    Alike (.array values) (.array others) := by
  intro places
  match places with
  | [] => rfl
  | .key _ :: _ => rfl
  | .index i :: places =>
    rw [find?, find?, descend, descend]
    induction h generalizing i with
    | nil => rfl
    | cons hfirst _ ih =>
      cases i with
      | zero => exact hfirst places
      | succ i => exact ih i

theorem Alike.values {values others : List Json} (h : Alike (.array values) (.array others)) :
    Forall₂ Alike values others := by
  induction values generalizing others with
  | nil =>
    cases others with
    | nil => exact .nil
    | cons other others => cases h [.index 0]
  | cons value values ih =>
    cases others with
    | nil => cases h [.index 0]
    | cons other others =>
      refine .cons (fun places => h (.index 0 :: places)) (ih fun places => ?_)
      match places with
      | [] => rfl
      | .key _ :: _ => rfl
      | .index i :: places => exact h (.index (i + 1) :: places)

theorem Alike.text_eq {value other} (h : Alike value other) : text value = text other := by
  have hroot := h []
  cases value <;> cases other <;> cases hroot <;> rfl

variable {α : Type}

theorem lookup_map {β : Type} (f : α → β) (key : String) (entries : List (String × α)) :
    (entries.map fun entry => (entry.1, f entry.2)).lookup key = (entries.lookup key).map f := by
  induction entries with
  | nil => rfl
  | cons entry entries ih =>
    rw [map_cons, lookup_cons, lookup_cons]
    split
    · rfl
    · exact ih

/-- Members given by name are found by name. -/
theorem lookup_filterMap (given : String → Option α) {key} {names : List String}
    (h : key ∈ names) :
    (names.filterMap fun name => (given name).map fun value => (name, value)).lookup key =
      given key := by
  induction names with
  | nil => cases h
  | cons name names ih =>
    by_cases hname : name = key
    · subst hname
      rw [filterMap_cons]
      cases hgiven : given name with
      | none =>
        -- a later mention of the name is not given either
        by_cases hlater : name ∈ names
        · rw [Option.map_none]
          simp only
          rw [ih hlater, hgiven]
        rw [Option.map_none]
        simp only
        rw [lookup_eq_none_iff]
        intro entry hentry
        obtain ⟨other, hother, heq⟩ := mem_filterMap.mp hentry
        obtain ⟨value, -, rfl⟩ := Option.map_eq_some_iff.mp heq
        simp only [bne_iff_ne, ne_eq]
        rintro rfl
        exact hlater hother
      | some value => simp
    · have hmem : key ∈ names := by
        rcases mem_cons.mp h with heq | hmem
        · exact absurd heq.symm hname
        · exact hmem
      rw [filterMap_cons]
      cases given name with
      | none => exact ih hmem
      | some value =>
        have hbeq : (key == name) = false := by simpa using fun heq : key = name => hname heq.symm
        simp only [Option.map_some, lookup_cons, hbeq]
        exact ih hmem

section

variable {α : Type} (f : String → String) (name : String) (decoder : Decoder α)

theorem mapMembers_eq_map (members : List (String × Json)) :
    Json.mapMembers f members = members.map fun member => (member.1, member.2.mapTexts f) := by
  induction members with
  | nil => rfl
  | cons member members ih =>
    rw [map_cons, ← ih]
    rfl

theorem mapValues_eq_map (values : List Json) :
    Json.mapValues f values = values.map (·.mapTexts f) := by
  induction values with
  | nil => rfl
  | cons value values ih => rw [map_cons, ← ih, Json.mapValues]

/-- Mapping the texts of a document keeps its members. -/
theorem member?_mapTexts (key : String) (value : Json) :
    member? key (value.mapTexts f) = (member? key value).map (·.mapTexts f) := by
  cases value with
  | object members =>
    rw [Json.mapTexts, member?, member?, mapMembers_eq_map, ← map_reverse, lookup_map]
  | _ => rfl

/-! ## Structures -/

/-- What the fields of a structure are taken from. -/
inductive Source where
  | members (members : List (String × Json))
  | elements (rest : List Json)

/-- The fields of a structure, read one after the other. -/
abbrev Fields (α : Type) := StateT Source Option α

/-- The next field: its names, how it is read, and what stands for it when it
is left out. -/
def fieldOf (names : List String) (decoder : Decoder α) (missing : Option α) :
    Fields α := fun source =>
  match source with
  | .members members =>
    match members.filter fun member => names.contains member.1 with
    | [] => missing.map fun value => (value, source)
    | [member] => (decoder member.2).map fun value => (value, source)
    | _ => none
  | .elements [] => missing.map fun value => (value, source)
  | .elements (value :: rest) => (decoder value).map fun value => (value, .elements rest)

def field : Fields α := fieldOf [name] decoder none

def fieldOr (default : α) : Fields α :=
  fieldOf [name] decoder (some default)

/-- An array has to be used up. -/
def finish : Option (α × Source) → Option α
  | some (value, .members _) => some value
  | some (value, .elements []) => some value
  | _ => none

def structured (fields : Fields α) : Decoder α
  | .object members => finish (fields (.members members))
  | .array values => finish (fields (.elements values))
  | _ => none

end

/-- A variant with data whose name stands in a member of its own, or first in
an array. -/
def tagged {α : Type} (tag : String) (fields : String → Option (Fields α)) : Decoder α
  | .object members =>
    match members.filter fun member => member.1 == tag with
    | [(_, .string name)] =>
      (fields name).bind fun fields =>
        finish (fields (.members (members.filter fun member => member.1 != tag)))
    | _ => none
  | .array (.string name :: rest) =>
    (fields name).bind fun fields => finish (fields (.elements rest))
  | _ => none

/-! ## What a decoded structure was given -/

variable {value : α} {source : Source}

theorem lookup_of_filter {key entry} {entries rest : List (String × α)}
    (h : (entries.filter fun entry => entry.1 == key) = entry :: rest) :
    entries.lookup key = some entry.2 := by
  induction entries with
  | nil => cases h
  | cons first entries ih =>
    by_cases hfirst : first.1 = key
    · rw [filter_cons_of_pos (by simpa using hfirst)] at h
      rw [lookup_cons, ← hfirst, BEq.rfl]
      simp only [(List.cons.inj h).1]
    rw [filter_cons_of_neg (by simpa using hfirst)] at h
    have hbeq : (key == first.1) = false := by
      simpa using fun heq : key = first.1 => hfirst heq.symm
    rw [lookup_cons, hbeq]
    exact ih h

/-- A field read from an object is its member of that name. -/
theorem field_members {name decoder} {members : List (String × Json)}
    (h : field name decoder (.members members) = some (value, source)) :
    ∃ given, member? name (.object members) = some given ∧ decoder given = some value := by
  have hnames : (fun member : String × Json => [name].contains member.1) =
      fun member => member.1 == name := by
    funext member
    rw [contains_cons, contains_nil, Bool.or_false]
  unfold field fieldOf at h
  simp only [hnames] at h
  split at h
  · cases h
  next member hfilter =>
    obtain ⟨decoded, hdecoded, heq⟩ := Option.map_eq_some_iff.mp h
    cases heq
    refine ⟨member.2, ?_, hdecoded⟩
    have hreverse : (members.reverse.filter fun member => member.1 == name) = [member] := by
      rw [filter_reverse, hfilter]
      rfl
    exact lookup_of_filter hreverse
  · cases h

theorem integer_eq_some {low high n value}
    (h : integer low high value = some n) : value = .number n := by
  cases value with
  | number q =>
    by_cases hq : q.den = 1 ∧ low ≤ q.num ∧ q.num < high
    · have hnum : q.num = n := by
        rw [integer, if_pos hq] at h
        exact Option.some.inj h
      have hvalue : q = n := by
        apply Rat.ext
        · rw [hnum, Rat.num_intCast]
        · rw [hq.1, Rat.den_intCast]
      rw [hvalue]
    · rw [integer, if_neg hq] at h
      cases h
  | null => cases h
  | bool value => cases h
  | string text => cases h
  | array values => cases h
  | object members => cases h

theorem bind_eq_some {β : Type} {fields} {next : α → Fields β} {result} :
    (fields >>= next) source = some result ↔
      ∃ value rest, fields source = some (value, rest) ∧ next value rest = some result := by
  show ((fields source).bind fun given => next given.1 given.2) = some result ↔ _
  rw [Option.bind_eq_some_iff]
  constructor
  · rintro ⟨⟨value, rest⟩, hfields, hnext⟩
    exact ⟨value, rest, hfields, hnext⟩
  · rintro ⟨value, rest, hfields, hnext⟩
    exact ⟨(value, rest), hfields, hnext⟩

theorem finish_eq_some {result} (h : finish result = some value) :
    ∃ source, result = some (value, source) := by
  unfold finish at h
  split at h
  · cases h
    exact ⟨_, rfl⟩
  · cases h
    exact ⟨_, rfl⟩
  · cases h

/-- A field of an array is its next element. -/
theorem field_elements {name decoder given elements}
    (h : field name decoder (.elements (given :: elements)) = some (value, source)) :
    decoder given = some value ∧ source = .elements elements := by
  obtain ⟨decoded, hdecoded, heq⟩ := Option.map_eq_some_iff.mp h
  cases heq
  exact ⟨hdecoded, rfl⟩

end CrashMonitor.Lib.Decode
