import CrashMonitor.Lib.Json
import Mathlib.Data.Rat.Lemmas

/-!
# Formats that mark their own end

A `Serial` writes values of a type so that they are read back whatever bytes
follow, which lets formats be put one after the other. The basic ones are
numbers, pairs and lists; every other format is one of these behind a
reversible view (`Serial.view`). A JSON document is written as the list of
its nodes, children first, so that reading it is one pass with a stack.
-/

namespace CrashMonitor.Lib

open List

structure Serial (α : Type) where
  put : α → List UInt8
  get : List UInt8 → Option (α × List UInt8)
  get_put : ∀ a rest, get (put a ++ rest) = some (a, rest)

namespace Serial

variable {α β : Type}

/-! ## Numbers -/

section

variable (item format : Serial α)

/-- A byte below 255 ends the number, a byte 255 counts and goes on. -/
def putNat (n : Nat) : List UInt8 := List.replicate (n / 255) 255 ++ [UInt8.ofNat (n % 255)]

def getNat : List UInt8 → Option (Nat × List UInt8)
  | [] => none
  | byte :: rest =>
    if byte = 255 then (getNat rest).map fun r => (255 + r.1, r.2)
    else some (byte.toNat, rest)

theorem getNat_replicate {k m} (hm : m < 255) {rest} :
    getNat (.replicate k 255 ++ .ofNat m :: rest) = some (255 * k + m, rest) := by
  induction k with
  | zero =>
    have hsmall : (UInt8.ofNat m).toNat = m := by
      simp only [UInt8.toNat_ofNat']
      omega
    have hne : UInt8.ofNat m ≠ 255 := by
      intro heq
      have hbyte := congrArg UInt8.toNat heq
      have h255 : (255 : UInt8).toNat = 255 := rfl
      omega
    simp [getNat, hne, hsmall]
  | succ k ih =>
    rw [replicate_succ, cons_append, getNat, if_pos rfl, ih]
    simp only [Option.map_some, Option.some.injEq, Prod.mk.injEq, and_true]
    omega

def natural : Serial Nat where
  put := putNat
  get := getNat
  get_put := by
    intro n rest
    rw [putNat, append_assoc, singleton_append,
      getNat_replicate (Nat.mod_lt _ (by decide)), Nat.div_add_mod]

/-! ## Putting formats together -/

def pair (first : Serial α) (second : Serial β) : Serial (α × β) where
  put := fun p => first.put p.1 ++ second.put p.2
  get := fun bytes => do
    let (a, rest) ← first.get bytes
    let (b, rest) ← second.get rest
    pure ((a, b), rest)
  get_put := by
    intro p rest
    simp [append_assoc, first.get_put, second.get_put]

/-- A given number of values in a row. -/
def getMany (item : Serial α) : Nat → List UInt8 → Option (List α × List UInt8)
  | 0, bytes => some ([], bytes)
  | n + 1, bytes => do
    let (a, rest) ← item.get bytes
    let (as, rest) ← getMany item n rest
    pure (a :: as, rest)

theorem getMany_put (as : List α) (rest : List UInt8) :
    getMany item as.length (as.flatMap item.put ++ rest) = some (as, rest) := by
  induction as with
  | nil => rfl
  | cons a as ih => simp [getMany, append_assoc, item.get_put, ih]

def list : Serial (List α) where
  put := fun as => natural.put as.length ++ as.flatMap item.put
  get := fun bytes => do
    let (n, rest) ← natural.get bytes
    getMany item n rest
  get_put := by
    intro as rest
    simp [append_assoc, natural.get_put, getMany_put]

/-- A type seen as another one, from which each of its values comes back. -/
def view (f : α → β) (back : β → Option α) (hback : ∀ a, back (f a) = some a)
    (format : Serial β) : Serial α where
  put := fun a => format.put (f a)
  get := fun bytes => do
    let (b, rest) ← format.get bytes
    let a ← back b
    pure (a, rest)
  get_put := by
    intro a rest
    simp [format.get_put, hback]

/-- Reading a whole input. -/
def read (bytes : List UInt8) : Option α :=
  match format.get bytes with
  | some (a, []) => some a
  | _ => none

theorem read_put (a : α) : format.read (format.put a) = some a := by
  have h := format.get_put a []
  rw [append_nil] at h
  rw [read, h]

/-! ## Texts -/

def character : Serial Char :=
  view (fun c => c.toNat) (fun n => if n.isValidChar then some (Char.ofNat n) else none) (by
      intro c
      rw [if_pos (show c.toNat.isValidChar from c.valid), Char.ofNat_toNat])
    natural

def text : Serial String := view (fun s => s.toList) (fun cs => some (String.ofList cs))
    (fun _ => congrArg some String.ofList_toList) (list character)

def optional : Serial (Option α) :=
  view (fun a => a.toList) (fun as => some as.head?) (by intro a; cases a <;> rfl) (list item)

end

end Serial

/-! ## Documents -/

/-- A node of a document; an array counts its values, an object lists its
keys. -/
inductive JsonNode where
  | null
  | bool (value : Bool)
  | number (value : Rat)
  | string (text : String)
  | array (length : Nat)
  | object (keys : List String)

namespace JsonNode

mutual

/-- The nodes of a document, each after what it contains. -/
def ofJson : Json → List JsonNode
  | .null => [.null]
  | .bool value => [.bool value]
  | .number value => [.number value]
  | .string text => [.string text]
  | .array values => ofValues values ++ [.array values.length]
  | .object members => ofMembers members ++ [.object (members.map Prod.fst)]

def ofValues : List Json → List JsonNode
  | [] => []
  | value :: values => ofJson value ++ ofValues values

def ofMembers : List (String × Json) → List JsonNode
  | [] => []
  | (_, value) :: members => ofJson value ++ ofMembers members

end

/-- What a node makes of the documents read so far, the last one first. -/
def build (stack : List Json) : JsonNode → List Json
  | .null => .null :: stack
  | .bool value => .bool value :: stack
  | .number value => .number value :: stack
  | .string text => .string text :: stack
  | .array length => .array (stack.take length).reverse :: stack.drop length
  | .object keys => .object (keys.zip (stack.take keys.length).reverse) :: stack.drop keys.length

mutual

theorem foldl_ofJson : ∀ (value : Json) (stack : List Json),
    (ofJson value).foldl build stack = value :: stack
  | .null, _ => rfl
  | .bool _, _ => rfl
  | .number _, _ => rfl
  | .string _, _ => rfl
  | .array values, stack => by
    rw [ofJson, foldl_append, foldl_ofValues values stack]
    have hlength : values.length = values.reverse.length := length_reverse.symm
    simp only [foldl_cons, foldl_nil, build]
    rw [hlength, take_left, drop_left, reverse_reverse]
  | .object members, stack => by
    rw [ofJson, foldl_append, foldl_ofMembers ..]
    have hlength : (members.map Prod.fst).length = (members.map Prod.snd).reverse.length := by simp
    simp only [foldl_cons, foldl_nil, build]
    rw [hlength, take_left, drop_left, reverse_reverse]
    have hzip : (members.map Prod.fst).zip (members.map Prod.snd) = members :=
      (zip_of_prod rfl rfl).symm
    rw [hzip]

theorem foldl_ofValues : ∀ (values : List Json) (stack : List Json),
    (ofValues values).foldl build stack = values.reverse ++ stack
  | [], _ => rfl
  | value :: values, stack => by
    rw [ofValues, foldl_append, foldl_ofJson value, foldl_ofValues values]
    simp

theorem foldl_ofMembers : ∀ (members : List (String × Json)) (stack : List Json),
    (ofMembers members).foldl build stack = (members.map Prod.snd).reverse ++ stack
  | [], _ => rfl
  | (_, value) :: members, stack => by
    rw [ofMembers, foldl_append, foldl_ofJson value, foldl_ofMembers members]
    simp

end

/-- A node by its tag, its numbers and its texts. -/
def fields : JsonNode → Nat × List Nat × List String
  | .null => (0, [], [])
  | .bool value => (1, [value.toNat], [])
  | .number value => (2, [value.num.toNat, (-value.num).toNat, value.den], [])
  | .string text => (3, [], [text])
  | .array length => (4, [length], [])
  | .object keys => (5, [], keys)

def ofFields : Nat × List Nat × List String → Option JsonNode
  | (0, _, _) => some .null
  | (1, [value], _) => some (.bool (value == 1))
  | (2, [positive, negative, den], _) => some (.number (mkRat ((positive : Int) - negative) den))
  | (3, _, [text]) => some (.string text)
  | (4, [length], _) => some (.array length)
  | (5, _, keys) => some (.object keys)
  | _ => none

theorem ofFields_fields (node : JsonNode) : ofFields node.fields = some node := by
  cases node with
  | bool value => cases value <;> rfl
  | number value =>
    have hnum : (value.num.toNat : Int) - ((-value.num).toNat : Int) = value.num := by omega
    show some (JsonNode.number (mkRat _ _)) = _
    rw [hnum, Rat.mkRat_self]
  | null => rfl
  | string text => rfl
  | array length => rfl
  | object keys => rfl

end JsonNode

namespace Serial

def node : Serial JsonNode := view JsonNode.fields JsonNode.ofFields JsonNode.ofFields_fields
    (pair natural (pair (list natural) (list text)))

def json : Serial Json := view JsonNode.ofJson (fun nodes => (nodes.foldl JsonNode.build []).head?)
    (by intro value; rw [JsonNode.foldl_ofJson]; rfl) (list node)

end Serial

end CrashMonitor.Lib
